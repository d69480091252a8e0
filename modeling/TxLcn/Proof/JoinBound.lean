import TxLcn.Tm.Event

/-!
# Whether an acknowledged join is bound to the decision

`TransactionJoinEvent` is answered `ok` whatever the repository made of it. The
answer means something only while somebody is going to tell the participant how
the group ended: as long as the group is stored undecided and lists it.

The invariant is an equivalence. A participant is owed a decision, by the log of
what was sent, exactly when it is awaited, by the store, and connected. The two
drift apart in two ways: a join that finds no undecided group is answered all
the same, and a second `create` forgets whom the first group listed.
-/

namespace TxLcn.Proof

open TxLcn.Lib TxLcn.Tm TxLcn.Protocol

/-- The group is stored, undecided, and lists a participant behind `k`. -/
def Awaited (s : TmState) (g k : String) : Prop :=
  ∃ G, s.store g = some G ∧ G.state = TransactionState.JOIN
    ∧ ∃ info ∈ G.listTransaction, info.uniqueKey = k

/--
Every participant that was answered `ok` to a join of `g` is awaited, or a
decision about `g` was sent to it after the answer.
-/
def JoinBound (g : String) (s : TmState) : Prop :=
  ∀ pre k event post, s.sent = pre ++ (k, Message.join event) :: post →
    event.groupId = some g → event.result = some "ok" →
    Awaited s g k
      ∨ ∃ commit, (k, Message.commit commit) ∈ post ∧ commit.groupId = some g

/-- The event leaves nobody behind. -/
def LeavesNobody (connections : String → Bool) (g : String) (s : TmState) : Event → Prop
  | .create event _ _ => event.groupId = some g →
      ∀ G, s.store g = some G → G.state = TransactionState.JOIN →
        ∀ info ∈ G.listTransaction, connections info.uniqueKey = false
  | .join event k _ => event.groupId = some g → connections k = true →
      ∃ G, s.store g = some G ∧ G.state = TransactionState.JOIN
  | .notify _ _ => True

/-! ## Being owed a decision -/

/-- Among what was sent: a positive answer to a join of `g`, and no decision since. -/
def Owed (sent : Outbox) (g k : String) : Prop :=
  ∃ pre event post, sent = pre ++ (k, Message.join event) :: post
    ∧ event.groupId = some g ∧ event.result = some "ok"
    ∧ ∀ commit, (k, Message.commit commit) ∈ post → commit.groupId ≠ some g

theorem joinBound_iff {g : String} {s : TmState} :
    JoinBound g s ↔ ∀ k, Owed s.sent g k → Awaited s g k := by
  refine ⟨?_, ?_⟩
  · intro h k howed
    obtain ⟨pre, event, post, hsent, hg, hok, hnone⟩ := howed
    rcases h pre k event post hsent hg hok with ha | ⟨commit, hmem, hc⟩
    · exact ha
    · exact absurd hc (hnone commit hmem)
  · intro h pre k event post hsent hg hok
    by_cases hc : ∃ commit, (k, Message.commit commit) ∈ post ∧ commit.groupId = some g
    · exact Or.inr hc
    · exact Or.inl (h k ⟨pre, event, post, hsent, hg, hok,
        fun commit hmem hcg => hc ⟨commit, hmem, hcg⟩⟩)

theorem not_owed_nil (g k : String) : ¬ Owed [] g k := by
  intro howed
  obtain ⟨pre, event, post, hsent, _⟩ := howed
  exact absurd hsent.symm (by simp)

/-- What more is sent answers, decides, or does neither. -/
theorem owed_append {xs ys : Outbox} {g k : String} :
    Owed (xs ++ ys) g k ↔
      (Owed xs g k ∧ ∀ commit, (k, Message.commit commit) ∈ ys → commit.groupId ≠ some g)
        ∨ Owed ys g k := by
  refine ⟨?_, ?_⟩
  · intro howed
    obtain ⟨pre, event, post, hsent, hg, hok, hnone⟩ := howed
    -- the answer lies in `ys`, or in `xs` with all of `ys` behind it
    rcases List.append_eq_append_iff.mp hsent with ⟨zs, hpre, hys⟩ | ⟨zs, hxs, hpost⟩
    · exact Or.inr ⟨zs, event, post, hys, hg, hok, hnone⟩
    · cases zs with
      | nil => exact Or.inr ⟨[], event, post, hpost.symm, hg, hok, hnone⟩
      | cons z zs =>
          obtain ⟨rfl, rfl⟩ := List.cons.inj hpost
          exact Or.inl ⟨⟨pre, event, zs, hxs, hg, hok,
            fun commit hmem => hnone commit (List.mem_append_left _ hmem)⟩,
            fun commit hmem => hnone commit (List.mem_append_right _ hmem)⟩
  · intro howed
    rcases howed with ⟨⟨pre, event, post, rfl, hg, hok, hnone⟩, hys⟩
      | ⟨pre, event, post, rfl, hg, hok, hnone⟩
    · refine ⟨pre, event, post ++ ys, by simp, hg, hok, fun commit hmem => ?_⟩
      exact (List.mem_append.mp hmem).elim (hnone commit) (hys commit)
    · exact ⟨xs ++ pre, event, post, by simp, hg, hok, hnone⟩

/-- Messages that neither answer a join of `g` nor decide `g` change nothing. -/
theorem owed_append_quiet {xs ys : Outbox} {g k : String}
    (hjoin : ∀ k event, (k, Message.join event) ∈ ys → event.groupId ≠ some g)
    (hcommit : ∀ k event, (k, Message.commit event) ∈ ys → event.groupId ≠ some g) :
    Owed (xs ++ ys) g k ↔ Owed xs g k := by
  rw [owed_append]
  refine ⟨?_, ?_⟩
  · intro howed
    rcases howed with ⟨h, _⟩ | ⟨pre, event, post, rfl, hg, _⟩
    · exact h
    · exact absurd hg (hjoin k event (by simp))
  · intro h
    exact Or.inl ⟨h, fun event hmem => hcommit k event hmem⟩

/-- The answer to a join makes the one behind its connection, if it is there, a creditor. -/
theorem owed_append_answer {connections : String → Bool} {xs : Outbox} {g k k' : String}
    {event : TransactionJoinEvent} (hg : event.groupId = some g) :
    Owed (xs ++ sendMsg connections [(k, .join { event with result := some "ok" })]) g k'
      ↔ Owed xs g k' ∨ k' = k ∧ connections k = true := by
  by_cases hk : connections k = true
  · have hsend : sendMsg connections [(k, .join { event with result := some "ok" })]
        = [(k, .join { event with result := some "ok" })] := by simp [sendMsg, hk]
    rw [hsend, owed_append]
    refine ⟨?_, ?_⟩
    · intro howed
      rcases howed with ⟨h, _⟩ | ⟨pre, e, post, hsplit, _⟩
      · exact Or.inl h
      · have hmem : (k', Message.join e) ∈ pre ++ (k', Message.join e) :: post := by simp
        rw [← hsplit, List.mem_singleton] at hmem
        exact Or.inr ⟨congrArg Prod.fst hmem, hk⟩
    · intro hor
      rcases hor with h | ⟨rfl, _⟩
      · exact Or.inl ⟨h, by simp⟩
      · exact Or.inr ⟨[], _, [], rfl, hg, rfl, by simp⟩
  · have hsend : sendMsg connections [(k, .join { event with result := some "ok" })] = [] := by
      simp [sendMsg, hk]
    rw [hsend, List.append_nil]
    simp [hk]

/-! ## The invariant -/

/-- Exactly the connected ones that are awaited are owed a decision. -/
def Balanced (connections : String → Bool) (g : String) (s : TmState) : Prop :=
  ∀ k, Owed s.sent g k ↔ Awaited s g k ∧ connections k = true

variable {connections : String → Bool} {g : String} {s t : TmState} {ev : Event}

theorem balanced_init : Balanced connections g {} := by
  intro k
  refine ⟨?_, ?_⟩
  · intro h
    exact absurd h (not_owed_nil g k)
  · intro hawaited
    obtain ⟨⟨G, hG, _⟩, _⟩ := hawaited
    exact absurd hG (by simp)

theorem awaited_of_store_eq {k : String} (h : t.store g = s.store g) :
    Awaited t g k ↔ Awaited s g k := by
  rw [Awaited, Awaited, h]

theorem not_awaited_none {k : String} (h : s.store g = none) : ¬ Awaited s g k := by
  intro hawaited
  obtain ⟨G, hG, _⟩ := hawaited
  rw [h] at hG
  exact absurd hG (by simp)

theorem not_awaited_created {k k' : String} {m : Option String} {now : Nat}
    (h : t.store g = some (.new g k m .REQUEST now)) : ¬ Awaited t g k' := by
  intro hawaited
  obtain ⟨G, hG, _, info, hinfo, _⟩ := hawaited
  rw [h] at hG
  cases hG
  exact absurd hinfo List.not_mem_nil

theorem not_awaited_decided {k : String} {G : TransactionGroup} (h : t.store g = some G)
    (hd : G.state ≠ TransactionState.JOIN) : ¬ Awaited t g k := by
  intro hawaited
  obtain ⟨G', hG, hst, _⟩ := hawaited
  rw [h] at hG
  cases hG
  exact hd hst

theorem awaited_joined {k k' : String} {G : TransactionGroup} {m : Option String} {now : Nat}
    (hs : s.store g = some G) (ht : t.store g = some (G.add k m .JOIN now)) :
    Awaited t g k' ↔ Awaited s g k' ∨ k' = k ∧ G.state = TransactionState.JOIN := by
  have hlist := TransactionGroup.listTransaction_add_join G k m now
  refine ⟨?_, ?_⟩
  · intro hawaited
    obtain ⟨G', hG', hst, info, hinfo, rfl⟩ := hawaited
    rw [ht] at hG'
    cases hG'
    rw [hlist, List.mem_append, List.mem_singleton] at hinfo
    rcases hinfo with hinfo | rfl
    · exact Or.inl ⟨G, hs, hst, info, hinfo, rfl⟩
    · exact Or.inr ⟨rfl, hst⟩
  · intro hor
    rcases hor with ⟨G', hG', hst, info, hinfo, rfl⟩ | ⟨rfl, hst⟩
    · rw [hs] at hG'
      cases hG'
      exact ⟨_, ht, hst, info, by rw [hlist]; exact List.mem_append_left _ hinfo, rfl⟩
    · have hnew : (⟨m, k', now, .JOIN⟩ : TransactionInfo)
          ∈ (G.add k' m .JOIN now).listTransaction := by
        rw [hlist]
        exact List.mem_append_right _ (List.mem_singleton.mpr rfl)
      exact ⟨_, ht, hst, _, hnew, rfl⟩

theorem owed_of_reply {k : String} {msg : String × Message}
    (hsent : t.sent = s.sent ++ sendMsg connections [msg])
    (hjoin : ∀ event, msg.2 ≠ .join event) (hcommit : ∀ event, msg.2 ≠ .commit event) :
    Owed t.sent g k ↔ Owed s.sent g k := by
  rw [hsent]
  refine owed_append_quiet (fun k' event hmem => ?_) (fun k' event hmem => ?_)
  · have heq := List.mem_singleton.mp (mem_sendMsg.mp hmem).1
    exact absurd (congrArg Prod.snd heq).symm (hjoin event)
  · have heq := List.mem_singleton.mp (mem_sendMsg.mp hmem).1
    exact absurd (congrArg Prod.snd heq).symm (hcommit event)

/-- A notification pays every connected participant of the group. -/
theorem not_owed_notified {k k' : String} {G : TransactionGroup} {event : TransactionNotifyEvent}
    {d : Bool} (hbal : Balanced connections g s) (hs : s.store g = some G)
    (hsent : t.sent = s.sent ++ sendMsg connections (announcements g G d
      ++ [(k, .notify { event with result := some "ok" })])) : ¬ Owed t.sent g k' := by
  intro howed
  rw [hsent, owed_append] at howed
  rcases howed with ⟨hold, hnone⟩ | ⟨pre, e, post, hsplit, _⟩
  · obtain ⟨⟨G', hG', _, info, hinfo, rfl⟩, hlive⟩ := (hbal k').mp hold
    rw [hs] at hG'
    cases hG'
    have hmem : (info.uniqueKey, Message.commit (.new (some g) d)) ∈ announcements g G d :=
      mem_announcements.mpr ⟨info, hinfo, rfl⟩
    exact hnone _ (mem_sendMsg.mpr ⟨List.mem_append_left _ hmem, hlive⟩) rfl
  · -- none of these messages answers a join
    have hmem : (k', Message.join e) ∈ pre ++ (k', Message.join e) :: post := by simp
    rw [← hsplit, mem_sendMsg, List.mem_append, List.mem_singleton] at hmem
    rcases hmem.1 with h | h
    · obtain ⟨info, _, heq⟩ := mem_announcements.mp h
      cases heq
    · cases h

theorem balanced_step (hbal : Balanced connections g s) (hc : LeavesNobody connections g s ev)
    (h : TmState.step connections s ev = some t) : Balanced connections g t := by
  intro k
  cases step_handled h g with
  | elsewhere _ hstore hsent hout =>
      rw [awaited_of_store_eq hstore, hsent,
        owed_append_quiet (fun k event hmem => hout _ hmem) (fun k event hmem => hout _ hmem)]
      exact hbal k
  | created hg hstore hsent =>
      rw [owed_of_reply hsent (by simp) (by simp), hbal k]
      refine ⟨?_, ?_⟩
      · intro hold
        obtain ⟨⟨G, hG, hst, info, hinfo, rfl⟩, hlive⟩ := hold
        rw [hc hg G hG hst info hinfo] at hlive
        exact absurd hlive (by simp)
      · intro hnew
        obtain ⟨ha, _⟩ := hnew
        exact absurd ha (not_awaited_created hstore)
  | @joinedNothing event k' now _ hg hs ht hsent =>
      -- the one who joined is not connected, so the answer is lost
      have hdead : ¬ connections k' = true := fun hlive => by
        obtain ⟨G, hG, _⟩ := hc hg hlive
        rw [hs] at hG
        exact absurd hG (by simp)
      rw [hsent, owed_append_answer hg, hbal k, awaited_of_store_eq (ht.trans hs.symm)]
      simp [hdead]
  | @joined event k' now _ G hg hs ht hsent =>
      rw [hsent, owed_append_answer hg, hbal k, awaited_joined hs ht]
      refine ⟨?_, ?_⟩
      · intro hold
        rcases hold with ⟨ha, hlive⟩ | ⟨rfl, hlive⟩
        · exact ⟨Or.inl ha, hlive⟩
        · obtain ⟨G', hG', hst⟩ := hc hg hlive
          rw [hs] at hG'
          cases hG'
          exact ⟨Or.inr ⟨rfl, hst⟩, hlive⟩
      · intro hnew
        obtain ⟨ha | ⟨rfl, _⟩, hlive⟩ := hnew
        · exact Or.inl ⟨ha, hlive⟩
        · exact Or.inr ⟨rfl, hlive⟩
  | notifiedNothing _ hs ht hsent =>
      rw [owed_of_reply hsent (by simp) (by simp), hbal k, awaited_of_store_eq (ht.trans hs.symm)]
  | notified _ hs ht hsent =>
      have hgone := not_awaited_decided (k := k) ht (TransactionState.parser_ne_join _)
      have hpaid : ¬ Owed t.sent g k := not_owed_notified hbal hs hsent
      exact ⟨fun ho => absurd ho hpaid, fun ha => absurd ha.1 hgone⟩

/-- An event that leaves somebody behind breaks the bond at once. -/
theorem not_joinBound_step (hbal : Balanced connections g s)
    (hc : ¬ LeavesNobody connections g s ev) (h : TmState.step connections s ev = some t) :
    ¬ JoinBound g t := by
  rw [joinBound_iff]
  intro hbound
  cases step_handled h g with
  | elsewhere hne _ _ _ =>
      apply hc
      cases ev with
      | create event _ _ => exact fun hg => absurd hg hne
      | join event _ _ => exact fun hg => absurd hg hne
      | notify event _ => trivial
  | created hg hstore hsent =>
      apply hc
      intro _ G hG hst info hinfo
      by_contra hlive
      rw [Bool.not_eq_false] at hlive
      -- it was owed a decision, still is, and the new group does not list it
      have howed := (hbal info.uniqueKey).mpr ⟨⟨G, hG, hst, info, hinfo, rfl⟩, hlive⟩
      exact not_awaited_created hstore
        (hbound _ ((owed_of_reply hsent (by simp) (by simp)).mpr howed))
  | @joinedNothing event k now _ hg hs ht hsent =>
      apply hc
      intro _ hlive
      have howed : Owed t.sent g k := by
        rw [hsent]
        exact (owed_append_answer hg).mpr (Or.inr ⟨rfl, hlive⟩)
      exact absurd (hbound k howed) (not_awaited_none ht)
  | @joined event k now _ G hg hs ht hsent =>
      apply hc
      intro _ hlive
      have howed : Owed t.sent g k := by
        rw [hsent]
        exact (owed_append_answer hg).mpr (Or.inr ⟨rfl, hlive⟩)
      refine ⟨G, hs, ?_⟩
      -- a decided group awaits nobody, so the answer would bind nobody
      by_contra hst
      exact not_awaited_decided ht hst (hbound k howed)
  | notifiedNothing _ _ _ _ => exact hc trivial
  | notified _ _ _ _ => exact hc trivial

/-! ## Whole runs -/

/--
**An acknowledged join stays bound exactly when** every join that can be
answered finds its group undecided, and no `create` meets an undecided group
that lists a connected participant.
-/
theorem acknowledged_join_bound_iff (connections : String → Bool) (g : String) (es : List Event) :
    AllStates (TmState.step connections) (JoinBound g) {} es
      ↔ AllSteps (TmState.step connections) (LeavesNobody connections g) {} es :=
  allStates_iff_allSteps (I := Balanced connections g)
    (fun _ hbal => joinBound_iff.mpr fun k ho => ((hbal k).mp ho).1)
    (fun _ _ _ hbal hc h => balanced_step hbal hc h)
    (fun _ _ _ hbal hc h => not_joinBound_step hbal hc h)
    balanced_init

/-- A join that arrives after the decision is answered `ok`, and nothing else follows. -/
theorem acknowledged_join_not_always_bound :
    ¬ ∀ (connections : String → Bool) (g : String) (es : List Event),
      AllStates (TmState.step connections) (JoinBound g) {} es := by
  intro h
  have hs := h (fun _ => true) "g"
    [.create (.new (some "g")) "a" 0, .notify (.new (some "g") false) "a",
      .join (.new (some "g")) "b" 1]
  have hb : JoinBound "g" _ := hs.last rfl
  rcases hb [("a", .create { TransactionCreateEvent.new (some "g") with result := some "ok" }),
      ("a", .notify { TransactionNotifyEvent.new (some "g") false with result := some "ok" })]
      "b" { TransactionJoinEvent.new (some "g") with result := some "ok" } [] rfl rfl rfl with
    ha | ⟨commit, hmem, _⟩
  · obtain ⟨G, hG, hst, _⟩ := ha
    cases hG
    exact absurd hst (by decide)
  · exact absurd hmem List.not_mem_nil

end TxLcn.Proof
