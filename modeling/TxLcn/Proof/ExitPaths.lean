import TxLcn.Proof.Nesting

/-!
# The exits of an outermost invocation

The thread is cleared by the last statement of a `finally` block, after the end
step. The end step has many ways to throw: the notification cannot be built
without an outcome or a group, the request can fail, and the commitor throws if
no connection was captured for the group. Each of them leaves the thread with
the old object, and takes the place of whatever the business has thrown.

`exits_properly_iff` is about what an exit leaves behind, `caller_sees_outcome_iff`
about what the caller is told.
-/

namespace TxLcn.Proof

open TxLcn.Tc TxLcn.Protocol TransactionAspectContext TransactionStepNotify

variable {t u v : TcThread} {w : World} {body : Business} {i : Nat} {g : String} {b d : Bool}
  {ms : List Mark} {how e : Exit} {c : Nat} {succeeds : RawCall → Bool}

/-! ## The connection that the commitor finds -/

/-- The connection kept for the group of the current object is `c`. -/
def FindsConnection (t : TcThread) (c : Nat) : Prop :=
  ∃ i g, t.current = some i ∧ (t.infos i).groupId = some g ∧ t.context g = some c

theorem FindsConnection.unique {c' : Nat} (h : FindsConnection t c)
    (h' : FindsConnection t c') : c = c' := by
  obtain ⟨i, g, hi, hg, hc⟩ := h
  obtain ⟨j, g', hj, hg', hc'⟩ := h'
  rw [hi] at hj
  cases hj
  rw [hg] at hg'
  cases hg'
  exact Option.some.inj (hc.symm.trans hc')

/-- Only the group of the current object matters. -/
theorem finds_congr (hc : u.current = t.current)
    (hg : ∀ j, (u.infos j).groupId = (t.infos j).groupId) (hx : u.context = t.context) :
    FindsConnection u c ↔ FindsConnection t c := by
  simp only [FindsConnection, hc, hg, hx]

/-- The commitor of a thread finds a connection and calls it, or throws. -/
theorem commitCalls_owned (succeeds : RawCall → Bool) (d : Bool) (h : t.Owned) :
    (∃ c, FindsConnection t c ∧ (d = true → t.jdbcTransaction ≠ none)
        ∧ t.commitCalls succeeds d
          = .ok ((LcnCommitor.calls succeeds d).map fun call => (c, call)))
      ∨ ((∀ c, FindsConnection t c → d = true ∧ t.jdbcTransaction = none)
        ∧ ∃ thrown, t.commitCalls succeeds d = .error thrown) := by
  cases hi : t.current with
  | none =>
      refine Or.inr ⟨?_, _, TcThread.commitCalls_of_no_current hi⟩
      intro c ⟨_, _, hc, _⟩
      rw [hi] at hc
      cases hc
  | some i =>
      have hlcn := (h i hi).2
      cases hg : (t.infos i).groupId with
      | none =>
          refine Or.inr ⟨?_, none, ?_⟩
          · intro c ⟨j, g, hj, hg', _⟩
            rw [hi] at hj
            cases hj
            rw [hg] at hg'
            cases hg'
          · simp [TcThread.commitCalls, TcThread.currentInfo_eq hi,
              TransactionCommitorStrategy.commit, hlcn, hg, TransactionConstant.LCN, Except.map]
      | some g =>
          rcases TcThread.commitCalls_lcn succeeds d hi hlcn hg with
            ⟨c, hc, hthere, heq⟩ | ⟨hwhy, hthrown⟩
          · exact Or.inl ⟨c, ⟨i, g, hi, hg, hc⟩, hthere, heq⟩
          · refine Or.inr ⟨?_, hthrown⟩
            intro c ⟨j, g', hj, hg', hc⟩
            rw [hi] at hj
            cases hj
            rw [hg] at hg'
            cases hg'
            rcases hwhy with hno | hnull
            · rw [hc] at hno; cases hno
            · exact hnull

/-! ## What the end step finds -/

/-- The outcome that has been noted when the business, or the begin step, has ended. -/
def outcome (i : Nat) (how : Exit) (u : TcThread) : Option Bool :=
  match how with
  | .returned => some true
  | .exception _ => some false
  | .error => (u.infos i).successReturn

/-- What `finish` does with the object. -/
def noted (i : Nat) (how : Exit) (u : TcThread) : TcThread :=
  (note i how u).setTransactionState i .NOTIFY

theorem noted_keeps (i : Nat) (how : Exit) (u : TcThread) :
    (noted i how u).current = u.current
    ∧ (noted i how u).jdbcTransaction = u.jdbcTransaction
    ∧ (noted i how u).context = u.context ∧ (noted i how u).marks = u.marks
    ∧ ((noted i how u).infos i).successReturn = outcome i how u
    ∧ ∀ j, ((noted i how u).infos j).groupId = (u.infos j).groupId := by
  refine ⟨by cases how <;> rfl, by cases how <;> rfl, by cases how <;> rfl, by cases how <;> rfl,
    by cases how <;> simp [noted, note, outcome], ?_⟩
  intro j
  by_cases hj : j = i
  · subst hj
    cases how <;> simp [noted, note]
  · have hne : ∀ f : TransactionInfo → TransactionInfo, ∀ t : TcThread,
        (t.update i f).infos j = t.infos j := fun f t => TcThread.update_infos_of_ne hj
    cases how <;> simp [noted, note, TcThread.setTransactionState, TcThread.setSuccessReturn, hne]

/-- The thread `u` as an outermost invocation on `t` has it before its end step. -/
structure BeforeEnd (w : World) (body : Business) (t u : TcThread) (how : Exit) : Prop where
  marks : t.marks <+: u.marks
  groupId : (u.infos t.allocated).groupId = w.groupId
  owned : (noted t.allocated how u).Owned
  invoke_eq : invoke w body t = finish w t.allocated how (noted t.allocated how u)

theorem beforeEnd (hc : t.current = none)
    (hatt : attempt w (enter w t).1 body.run (enter w t).2 = (u, some how)) :
    BeforeEnd w body t u how := by
  have hfst : (enter w t).1 = t.allocated := by simp [enter, hc]
  rw [hfst] at hatt
  have hlt : t.allocated < (enter w t).2.allocated := by
    simp [enter, hc, TcThread.setTransactionType]
  have hframe : TcThread.Frame (enter w t).2 u := by
    have h : TcThread.Frame (enter w t).2 (attempt w t.allocated body.run (enter w t).2).1 :=
      frame_attempt fun u => body.frame_run u
    rw [hatt] at h
    exact h
  have howned : u.Owned := by
    have h : (attempt w t.allocated body.run (enter w t).2).1.Owned :=
      (TcThread.Owned.of_clean hc).enter.attempt fun u hu => hu.run body
    rw [hatt] at h
    exact h
  have hcreate : ((enter w t).2.infos t.allocated).transactionState = .CREATE := by
    simp [enter, hc]
  have hnote : ((note t.allocated how u).infos t.allocated).transactionState
      = (u.infos t.allocated).transactionState := by
    cases how <;> simp [note]
  have hinv := invoke_eq (Prod.ext hfst rfl) hatt
  -- from `CREATE` or `NOTIFY` the end step is the same
  have hsame : TcThread.Frame (note t.allocated how u) (noted t.allocated how u)
      ∧ finish w t.allocated how (note t.allocated how u)
        = finish w t.allocated how (noted t.allocated how u) := by
    rcases hframe.state _ hlt with hs | ⟨_, hs⟩
    · have hs' := hnote.trans (hs.trans hcreate)
      exact ⟨TcThread.Frame.setNotify hs', finish_create hs'⟩
    · have heq : noted t.allocated how u = note t.allocated how u :=
        TcThread.setTransactionState_eq_self (hnote.trans hs)
      rw [heq]
      exact ⟨TcThread.Frame.refl _, rfl⟩
  refine ⟨?_, ?_, ?_, hinv.trans hsame.2⟩
  · rw [← enter_marks (w := w)]
    exact hframe.marks
  · rw [hframe.groupId _ hlt]
    simp [enter, hc]
  · exact howned.note.of_frame hsame.1 (Or.inl rfl)

/-- An invocation that has come to an end has had an end step. -/
theorem attempt_of_invoke (hv : invoke w body t = (v, some e)) :
    ∃ u how, attempt w (enter w t).1 body.run (enter w t).2 = (u, some how) := by
  cases hatt : attempt w (enter w t).1 body.run (enter w t).2 with
  | mk u how =>
      cases how with
      | none =>
          simp only [invoke, runWithTransaction, if_true, hatt] at hv
          cases hv
      | some how => exact ⟨u, how, rfl⟩

/-- An end step without an outcome or a group throws at once; any other tells the TM. -/
theorem BeforeEnd.told (h : BeforeEnd w body t u how) :
    (outcome t.allocated how u = none ∨ w.groupId = none)
        ∧ invoke w body t = ((noted t.allocated how u).marked [.ended], some (.exception none))
      ∨ ∃ b g, outcome t.allocated how u = some b ∧ w.groupId = some g
        ∧ Told w g b how (noted t.allocated how u) (invoke w body t) := by
  obtain ⟨_, _, _, _, hout, hgroup⟩ := noted_keeps t.allocated how u
  have hs : ((noted t.allocated how u).infos t.allocated).transactionState = .NOTIFY := by
    simp [noted]
  have hg' := (hgroup t.allocated).trans h.groupId
  rw [h.invoke_eq]
  cases hb : outcome t.allocated how u with
  | none => exact Or.inl ⟨Or.inl rfl, finish_unset hs (hout.trans hb)⟩
  | some b =>
      cases hg : w.groupId with
      | none => exact Or.inl ⟨Or.inr rfl, finish_noGroup hs (hout.trans hb) (hg'.trans hg)⟩
      | some g => exact Or.inr ⟨b, g, rfl, rfl, finish_told hs (hout.trans hb) (hg'.trans hg)⟩

/-! ## What an exit leaves behind -/

/-- The end step goes on to wait for an answer for ever. -/
def Waits (t : TcThread) (w : World) (u : TcThread) (how : Exit) : Prop :=
  ∃ b, outcome t.allocated how u = some b ∧ w.groupId ≠ none ∧ result b w.notify = none

/--
The end step comes to its end: the notification gets an answer, and the commitor
finds a connection, and the log rows if there is something to commit.
-/
def GoesThrough (w : World) (u : TcThread) (b : Bool) : Prop :=
  ∃ res c, result b w.notify = some (.ok res) ∧ FindsConnection u c
    ∧ (needCommit res b = true → u.jdbcTransaction ≠ none)

/-- The thread is clean already, or the end step has an outcome and a group and goes through. -/
def Clears (t : TcThread) (w : World) (u : TcThread) (how : Exit) : Prop :=
  u.current = none ∧ u.jdbcTransaction = none
    ∨ ∃ b, outcome t.allocated how u = some b ∧ w.groupId ≠ none ∧ GoesThrough w u b

/-- The TM is told `b`: by an inner invocation while the business runs, or by the end step. -/
def Tells (t : TcThread) (w : World) (u : TcThread) (how : Exit) (b : Bool) : Prop :=
  .sent (.notify (.new w.groupId b)) ∈ u.marks.drop t.marks.length
    ∨ outcome t.allocated how u = some b ∧ w.notify.head? ≠ some (.threw false)

theorem finds_noted : FindsConnection (noted i how u) c ↔ FindsConnection u c :=
  finds_congr (noted_keeps i how u).1 (noted_keeps i how u).2.2.2.2.2 (noted_keeps i how u).2.2.1

/-- With an outcome and a group, the end step waits, goes through or throws. -/
theorem BeforeEnd.exit (h : BeforeEnd w body t u how) (hb : outcome t.allocated how u = some b)
    (hg : w.groupId = some g) :
    result b w.notify = none ∧ (invoke w body t).2 = none
      ∨ (∃ res c, result b w.notify = some (.ok res) ∧ FindsConnection u c
        ∧ (needCommit res b = true → u.jdbcTransaction ≠ none)
        ∧ invoke w body t = (((noted t.allocated how u).marked (notifications w g b
          ++ ((LcnCommitor.calls w.succeeds (needCommit res b)).map fun call =>
            .raw c call.1 call.2))).clearTransaction.marked [.ended], some how))
      ∨ result b w.notify ≠ none ∧ ¬ GoesThrough w u b
        ∧ ∃ ms thrown, invoke w body t
          = ((noted t.allocated how u).marked ms, some (.exception thrown)) := by
  rcases h.told with ⟨hno | hno, _⟩ | ⟨b', g', hb', hg', htold⟩
  · rw [hb] at hno; cases hno
  · rw [hg] at hno; cases hno
  · rw [hb] at hb'
    cases hb'
    rw [hg] at hg'
    cases hg'
    have hjdbc := (noted_keeps t.allocated how u).2.1
    generalize invoke w body t = next at htold
    cases htold with
    | waiting hres => exact Or.inl ⟨hres, rfl⟩
    | threw hres =>
        refine Or.inr (Or.inr ⟨by simp [hres], ?_, _, _, rfl⟩)
        intro ⟨_, _, hok, _⟩
        rw [hres] at hok
        cases hok
    | @failed res thrown hres hc =>
        rcases commitCalls_owned w.succeeds (needCommit res b) h.owned with
          ⟨_, _, _, hok⟩ | ⟨hwhy, _⟩
        · rw [hc] at hok; cases hok
        · refine Or.inr (Or.inr ⟨by simp [hres], ?_, _, _, rfl⟩)
          intro ⟨res', c, hok, hfinds, hj⟩
          rw [hres] at hok
          cases hok
          obtain ⟨hneed, hnull⟩ := hwhy c (finds_noted.mpr hfinds)
          exact hj hneed (hjdbc.symm.trans hnull)
    | @ended res calls hres hc =>
        rcases commitCalls_owned w.succeeds (needCommit res b) h.owned with
          ⟨c, hfinds, hj, hok⟩ | ⟨_, _, herr⟩
        · rw [hjdbc] at hj
          rw [hc] at hok
          cases hok
          refine Or.inr (Or.inl ⟨res, c, hres, finds_noted.mp hfinds, hj, ?_⟩)
          simp [Function.comp_def, TcThread.rawMark]
        · rw [hc] at herr; cases herr

/-- Without an outcome or a group it throws. -/
theorem BeforeEnd.exit_of_none (h : BeforeEnd w body t u how)
    (hno : outcome t.allocated how u = none ∨ w.groupId = none) :
    invoke w body t = ((noted t.allocated how u).marked [.ended], some (.exception none)) := by
  rcases h.told with ⟨_, heq⟩ | ⟨b, g, hb, hg, _⟩
  · exact heq
  · rcases hno with hno | hno
    · rw [hb] at hno; cases hno
    · rw [hg] at hno; cases hno

theorem BeforeEnd.waits_iff (h : BeforeEnd w body t u how) :
    (invoke w body t).2 = none ↔ Waits t w u how := by
  cases hb : outcome t.allocated how u with
  | none => simp [h.exit_of_none (Or.inl hb), Waits, hb]
  | some b =>
      cases hg : w.groupId with
      | none => simp [h.exit_of_none (Or.inr hg), Waits, hg]
      | some g =>
          rcases h.exit hb hg with ⟨hres, heq⟩ | ⟨_, _, hres, _, _, heq⟩ | ⟨hres, _, _, _, heq⟩
          · simp [Waits, hb, hg, hres, heq]
          · simp [Waits, hb, hres, heq]
          · simp [Waits, hb, hres, heq]

theorem BeforeEnd.clean_iff (h : BeforeEnd w body t u how) (hv : invoke w body t = (v, some e)) :
    v.current = none ∧ v.jdbcTransaction = none ↔ Clears t w u how := by
  obtain ⟨hcur, hjdbc, _⟩ := noted_keeps t.allocated how u
  -- if the step does not go through, the thread is as clean as it was
  have hstay : ∀ ms, v = (noted t.allocated how u).marked ms →
      (∀ b, outcome t.allocated how u = some b → w.groupId ≠ none → ¬ GoesThrough w u b) →
      (v.current = none ∧ v.jdbcTransaction = none ↔ Clears t w u how) := by
    intro ms hv hno
    rw [hv, TcThread.marked_current, TcThread.marked_jdbcTransaction, hcur, hjdbc, Clears]
    refine ⟨Or.inl, ?_⟩
    rintro (hclean | ⟨b, hb, hg, hthrough⟩)
    · exact hclean
    · exact absurd hthrough (hno b hb hg)
  cases hb : outcome t.allocated how u with
  | none =>
      have heq := h.exit_of_none (Or.inl hb)
      rw [hv] at heq
      cases heq
      exact hstay _ rfl fun b' hb' => by rw [hb] at hb'; cases hb'
  | some b =>
      cases hg : w.groupId with
      | none =>
          have heq := h.exit_of_none (Or.inr hg)
          rw [hv] at heq
          cases heq
          exact hstay _ rfl fun _ _ hg' => absurd hg hg'
      | some g =>
          rcases h.exit hb hg with ⟨_, heq⟩ | ⟨res, c, hres, hc, hj, heq⟩ | ⟨_, hno, _, _, heq⟩ <;>
            rw [hv] at heq
          · cases heq
          · cases heq
            exact iff_of_true ⟨rfl, rfl⟩ (Or.inr ⟨b, hb, by simp [hg], res, c, hres, hc, hj⟩)
          · cases heq
            refine hstay _ rfl fun b' hb' _ => ?_
            rw [hb] at hb'
            cases hb'
            exact hno

/-- The marks of an invocation are those of its business and those of its end step. -/
theorem BeforeEnd.split (h : BeforeEnd w body t u how) {tail : List Mark}
    (hm : v.marks = t.marks ++ ms) (htail : v.marks = u.marks ++ tail) :
    ms = u.marks.drop t.marks.length ++ tail := by
  obtain ⟨mb, hmb⟩ := h.marks
  rw [← hmb, List.drop_left]
  rw [hm, ← hmb, List.append_assoc] at htail
  exact List.append_cancel_left htail

theorem notify_mem_notifications :
    .sent (.notify (.new (some g) d)) ∈ notifications w g b
      ↔ b = d ∧ w.notify.head? ≠ some (.threw false) := by
  rw [notifications, List.mem_replicate, ne_eq, writes_eq_zero]
  simp [TransactionNotifyEvent.new, and_comm, eq_comm]

/-- Whether the TM has been told something by the end of the invocation. -/
theorem BeforeEnd.tells_iff (h : BeforeEnd w body t u how) (hg : w.groupId ≠ none)
    (hv : (invoke w body t).1 = v) (hm : v.marks = t.marks ++ ms) :
    .sent (.notify (.new w.groupId d)) ∈ ms ↔ Tells t w u how d := by
  obtain ⟨_, _, _, hmarks, _⟩ := noted_keeps t.allocated how u
  rcases h.told with ⟨hwhy, heq⟩ | ⟨b, g, hb, hg, htold⟩
  · have htail : v.marks = u.marks ++ [.ended] := by
      rw [← hv, heq, TcThread.marked_marks, hmarks]
    rw [h.split hm htail, Tells]
    rcases hwhy with hno | hno
    · simp [hno]
    · exact absurd hno hg
  · obtain ⟨calls, last, htail, hlast, _⟩ := htold.marks
    rw [hv, hmarks] at htail
    rw [h.split hm htail, Tells, hg, hb, List.mem_append, List.mem_append,
      notify_mem_notifications]
    have hrest : .sent (.notify (.new (some g) d)) ∉ calls.map TcThread.rawMark ++ last := by
      rcases hlast with rfl | rfl <;> simp [TcThread.rawMark]
    simp [hrest]

/-- What is asked of the exits of an outermost invocation. -/
structure ExitsProperly (t : TcThread) (w : World) (body : Business) : Prop where
  /-- The thread is clean. -/
  clean : ∀ v e, invoke w body t = (v, some e) → v.current = none ∧ v.jdbcTransaction = none
  /-- A group that was created is told whether the business has returned. -/
  notified : ∀ u how v e ms,
    (TransactionContext.tryBeginTransaction w (enter w t).1 (enter w t).2).2 = .returned →
    attempt w (enter w t).1 body.run (enter w t).2 = (u, some how) →
    invoke w body t = (v, some e) → v.marks = t.marks ++ ms →
    (∃ b, .sent (.notify (.new w.groupId b)) ∈ ms)
      ∧ (.sent (.notify (.new w.groupId true)) ∈ ms ↔ how = .returned)

/-- The condition on the thread `u` as the business, or the begin step, leaves it. -/
structure LeftInOrder (t : TcThread) (w : World) (u : TcThread) (how : Exit) : Prop where
  clears : Clears t w u how
  tells : (TransactionContext.tryBeginTransaction w (enter w t).1 (enter w t).2).2 = .returned →
    (∃ b, Tells t w u how b) ∧ (Tells t w u how true ↔ how = .returned)

/-- A group has been created only if there is one. -/
theorem groupId_of_begun (hc : t.current = none)
    (h : (TransactionContext.tryBeginTransaction w (enter w t).1 (enter w t).2).2 = .returned) :
    w.groupId ≠ none := by
  intro hg
  rw [tryBeginTransaction_create_of_no_group (by simp [enter, hc]) (by simp [enter, hc, hg])] at h
  cases h

/--
**Every exit leaves a clean thread and a TM that knows the outcome exactly when**
the business leaves a thread on which the end step clears and tells what it
should, unless it waits for an answer for ever.
-/
theorem exits_properly_iff (t : TcThread) (w : World) (body : Business) (hc : t.current = none) :
    ExitsProperly t w body
      ↔ ∀ u how, attempt w (enter w t).1 body.run (enter w t).2 = (u, some how) →
        ¬ Waits t w u how → LeftInOrder t w u how := by
  refine ⟨?_, ?_⟩
  · intro h u how hatt hwaits
    have hbefore := beforeEnd hc hatt
    obtain ⟨e, he⟩ := Option.ne_none_iff_exists'.mp (fun hn => hwaits (hbefore.waits_iff.mp hn))
    have hv : invoke w body t = ((invoke w body t).1, some e) := Prod.ext rfl he
    refine ⟨(hbefore.clean_iff hv).mp (h.clean _ _ hv), ?_⟩
    intro hbegun
    obtain ⟨ms, hms⟩ : t.marks <+: (invoke w body t).1.marks :=
      (frame_runWithTransaction (fun u => body.frame_run u)).marks
    have htells := fun d => hbefore.tells_iff (d := d) (groupId_of_begun hc hbegun) rfl hms.symm
    simpa only [htells] using h.notified u how _ e ms hbegun hatt hv hms.symm
  · intro h
    refine ⟨?_, ?_⟩
    · intro v e hv
      obtain ⟨u, how, hatt⟩ := attempt_of_invoke hv
      have hbefore := beforeEnd hc hatt
      refine (hbefore.clean_iff hv).mpr (h u how hatt fun hw => ?_).clears
      rw [← hbefore.waits_iff, hv] at hw
      cases hw
    · intro u how v e ms hbegun hatt hv hms
      have hbefore := beforeEnd hc hatt
      have htells := fun d => hbefore.tells_iff (d := d) (groupId_of_begun hc hbegun)
        (congrArg Prod.fst hv) hms
      simp only [htells]
      refine (h u how hatt fun hw => ?_).tells hbegun
      rw [← hbefore.waits_iff, hv] at hw
      cases hw

/-- The end step of a business without database work finds no connection. -/
theorem not_exits_properly :
    ¬ ∀ (t : TcThread) (w : World) (body : Business), t.current = none →
      ExitsProperly t w body := by
  intro h
  have hclean := (h {} (helpful "g") (.ends .returned) rfl).clean _ _ rfl
  exact absurd hclean.1 (by decide)

/-- A thread that takes a connection and commits on it. -/
def working : Business :=
  .jdbc (.getConnection 0) fun _ => .jdbc (.commit true) fun _ => .ends .returned

theorem exits_properly_clean : ExitsProperly {} (helpful "g") working := by
  refine (exits_properly_iff {} (helpful "g") working rfl).mpr fun u how hatt _ => ?_
  cases hatt
  refine ⟨Or.inr ⟨true, rfl, by simp [helpful], ?_⟩, fun _ => ⟨⟨true, ?_⟩, ?_⟩⟩
  · exact ⟨_, 0, rfl, ⟨0, "g", rfl, rfl, rfl⟩, fun _ h => by cases h⟩
  · exact Or.inr ⟨rfl, by simp [helpful]⟩
  · exact iff_of_true (Or.inr ⟨rfl, by simp [helpful]⟩) rfl

end TxLcn.Proof
