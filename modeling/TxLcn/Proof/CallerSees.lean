import TxLcn.Proof.ExitPaths

/-!
# What the caller of the creator is told

The commitor keeps an `SQLException` to itself, with a note that it should be
recorded, and the TM may answer the notification with a failure: in both cases
the caller is told that the method has returned. The other way round, the TM may
have been told of a success before the end step throws.
-/

namespace TxLcn.Proof

open TxLcn.Tc TxLcn.Protocol TransactionAspectContext TransactionStepNotify

variable {t u v : TcThread} {w : World} {body : Business} {g : String} {b d : Bool}
  {ms : List Mark} {how e : Exit} {c c' : Nat} {succeeds : RawCall → Bool}

/-- What is asked of the way in which an outermost invocation ends. -/
structure CallerSees (t : TcThread) (w : World) (body : Business) : Prop where
  /-- If it returns, a connection kept for the group has been committed. -/
  returned : ∀ v ms g c, invoke w body t = (v, some .returned) → v.marks = t.marks ++ ms →
    w.groupId = some g → v.context g = some c → .raw c .commit true ∈ ms
  /-- If it throws, nobody has been told of a success. -/
  threw : ∀ v e ms g, invoke w body t = (v, some e) → e ≠ .returned → v.marks = t.marks ++ ms →
    w.groupId = some g → .sent (.notify (.new (some g) true)) ∉ ms

/-- The condition on the thread `u` as the business, or the begin step, leaves it. -/
structure ToldInOrder (t : TcThread) (w : World) (u : TcThread) (how : Exit) : Prop where
  /--
  If the end step of a business that has returned goes through, a connection kept
  for the group is the one that the commitor finds, the TM says that it is to be
  committed, and the log rows are deleted and the commit succeeds; or else an
  inner invocation has committed it.
  -/
  returned : how = .returned → ∀ res c', result true w.notify = some (.ok res) →
    FindsConnection u c' →
    (needCommit res true = true → u.jdbcTransaction ≠ none) →
    ∀ g c, w.groupId = some g → u.context g = some c →
      c = c' ∧ needCommit res true = true ∧ w.succeeds .delete = true
          ∧ w.succeeds .commit = true
        ∨ .raw c .commit true ∈ u.marks.drop t.marks.length
  /-- If the business has not returned, or its end step does not go through, nobody is told. -/
  threw : w.groupId ≠ none → (how = .returned → ¬ GoesThrough w u true) →
    ¬ Tells t w u how true

/-- The one way in which the commitor commits. -/
theorem commit_mem_calls :
    Mark.raw c .commit true ∈ (LcnCommitor.calls succeeds d).map
        (fun call => .raw c' call.1 call.2)
      ↔ c = c' ∧ d = true ∧ succeeds .delete = true ∧ succeeds .commit = true := by
  cases d with
  | false => simp [LcnCommitor.calls]
  | true =>
      cases hd : succeeds .delete with
      | false => simp [LcnCommitor.calls, hd]
      | true =>
          rw [LcnCommitor.calls, if_pos hd]
          simp

/-- A connection is committed by the commitor, or has been before. -/
theorem commit_mem_iff : Mark.raw c .commit true ∈ ms ++ (notifications w g b
      ++ ((LcnCommitor.calls succeeds d).map fun call => .raw c' call.1 call.2) ++ [.ended])
    ↔ c = c' ∧ d = true ∧ succeeds .delete = true ∧ succeeds .commit = true
      ∨ .raw c .commit true ∈ ms := by
  rw [List.mem_append, List.mem_append, List.mem_append, commit_mem_calls]
  simp [notifications, or_comm]

/-- The end step returns only if the business has, and it goes through. -/
theorem BeforeEnd.returned (h : BeforeEnd w body t u how)
    (hv : invoke w body t = (v, some .returned)) :
    how = .returned ∧ w.groupId ≠ none ∧ ∃ res c', result true w.notify = some (.ok res)
      ∧ FindsConnection u c' ∧ (needCommit res true = true → u.jdbcTransaction ≠ none)
      ∧ v.context = u.context
      ∧ ∃ g, w.groupId = some g ∧ v.marks = u.marks ++ (notifications w g true
        ++ ((LcnCommitor.calls w.succeeds (needCommit res true)).map fun call =>
          .raw c' call.1 call.2) ++ [.ended]) := by
  obtain ⟨_, _, hctx, hm, _⟩ := noted_keeps t.allocated how u
  cases hb : outcome t.allocated how u with
  | none =>
      have heq := h.exit_of_none (Or.inl hb)
      rw [hv] at heq
      cases heq
  | some b =>
      cases hg : w.groupId with
      | none =>
          have heq := h.exit_of_none (Or.inr hg)
          rw [hv] at heq
          cases heq
      | some g =>
          rcases h.exit hb hg with ⟨_, heq⟩ | ⟨res, c, hres, hc, hj, heq⟩ | ⟨_, _, _, _, heq⟩ <;>
            rw [hv] at heq
          · cases heq
          · cases heq
            cases hb
            refine ⟨rfl, by simp, res, c, hres, hc, hj, hctx, g, rfl, ?_⟩
            simp [hm]
          · cases heq

/-- An invocation that throws has not returned, or its end step does not go through. -/
theorem BeforeEnd.threw (h : BeforeEnd w body t u how) (hg : w.groupId ≠ none) :
    (∃ e, (invoke w body t).2 = some e ∧ e ≠ .returned)
      ↔ ¬ Waits t w u how ∧ (how = .returned → ¬ GoesThrough w u true) := by
  obtain ⟨g, hg⟩ := Option.ne_none_iff_exists'.mp hg
  cases hb : outcome t.allocated how u with
  | none =>
      have hne : how ≠ .returned := by
        rintro rfl
        cases hb
      simp [h.exit_of_none (Or.inl hb), Waits, hb, hne]
  | some b =>
      rcases h.exit hb hg with ⟨hres, heq⟩ | ⟨res, c, hres, hc, hj, heq⟩ | ⟨hres, hno, _, _, heq⟩
      · simp [heq, Waits, hb, hg, hres]
      · have hw : ¬ Waits t w u how := by simp [Waits, hb, hres]
        rw [heq]
        by_cases hr : how = .returned
        · subst hr
          cases hb
          have hthrough : GoesThrough w u true := ⟨res, c, hres, hc, hj⟩
          simp [hthrough]
        · simp [hw, hr]
      · have hw : ¬ Waits t w u how := by simp [Waits, hb, hres]
        have hthrough : how = .returned → ¬ GoesThrough w u true := by
          rintro rfl
          cases hb
          exact hno
        simpa [heq, hw] using hthrough

/--
**The caller sees the outcome exactly when**, unless the end step waits for an
answer for ever, the business leaves a thread whose end step commits what it
should, or has told nobody of a success.
-/
theorem caller_sees_outcome_iff (t : TcThread) (w : World) (body : Business)
    (hc : t.current = none) :
    CallerSees t w body
      ↔ ∀ u how, attempt w (enter w t).1 body.run (enter w t).2 = (u, some how) →
        ¬ Waits t w u how → ToldInOrder t w u how := by
  refine ⟨?_, ?_⟩
  · intro h u how hatt hwaits
    have hbefore := beforeEnd hc hatt
    obtain ⟨ms, hms⟩ : t.marks <+: (invoke w body t).1.marks :=
      (frame_runWithTransaction (fun u => body.frame_run u)).marks
    refine ⟨?_, ?_⟩
    · rintro rfl res c' hres hfinds hj g c hg hbound
      have hgroup : w.groupId ≠ none := by simp [hg]
      -- it does not wait and the step goes through, so the invocation returns
      have hend : (invoke w body t).2 = some .returned := by
        rcases hbefore.exit (b := true) rfl hg with ⟨hno, _⟩ | ⟨_, _, _, _, _, heq⟩ | ⟨_, hno, _⟩
        · exact absurd ⟨true, rfl, hgroup, hno⟩ hwaits
        · rw [heq]
        · exact absurd ⟨res, c', hres, hfinds, hj⟩ hno
      have hv : invoke w body t = ((invoke w body t).1, some .returned) := Prod.ext rfl hend
      obtain ⟨_, _, res₁, c₁, hres₁, hfinds₁, _, hctx, g₁, hg₁, hm⟩ := hbefore.returned hv
      rw [hres] at hres₁
      cases hres₁
      obtain rfl := hfinds.unique hfinds₁
      -- the marks are those of the business, then those of the end step
      have hmem := h.returned _ ms g c hv hms.symm hg (by rw [hctx]; exact hbound)
      rw [hbefore.split hms.symm hm] at hmem
      exact commit_mem_iff.mp hmem
    · intro hg hthrough
      obtain ⟨e, he, hne⟩ := (hbefore.threw hg).mpr ⟨hwaits, hthrough⟩
      obtain ⟨g, hg'⟩ := Option.ne_none_iff_exists'.mp hg
      rw [← hbefore.tells_iff hg rfl hms.symm, hg']
      exact h.threw _ e ms g (Prod.ext rfl he) hne hms.symm hg'
  · intro h
    refine ⟨?_, ?_⟩
    · intro v ms g c hv hms hg hbound
      obtain ⟨u, how, hatt⟩ := attempt_of_invoke hv
      have hbefore := beforeEnd hc hatt
      obtain ⟨rfl, _, res, c', hres, hfinds, hj, hctx, g', hg', hm⟩ := hbefore.returned hv
      rw [hg] at hg'
      cases hg'
      have hw : ¬ Waits t w u .returned := by
        rw [← hbefore.waits_iff, hv]
        simp
      rw [hctx] at hbound
      rw [hbefore.split hms hm]
      exact commit_mem_iff.mpr ((h u _ hatt hw).returned rfl res c' hres hfinds hj g c hg hbound)
    · intro v e ms g hv hne hms hg
      obtain ⟨u, how, hatt⟩ := attempt_of_invoke hv
      have hbefore := beforeEnd hc hatt
      have hgroup : w.groupId ≠ none := by simp [hg]
      obtain ⟨hw, hthrough⟩ := (hbefore.threw hgroup).mp ⟨e, by rw [hv], hne⟩
      have hno := (h u how hatt hw).threw hgroup hthrough
      rw [← hbefore.tells_iff hgroup (congrArg Prod.fst hv) hms, hg] at hno
      exact hno

/-- The raw commit fails, and the caller is not told. -/
theorem not_caller_sees_outcome :
    ¬ ∀ (t : TcThread) (w : World) (body : Business), t.current = none → CallerSees t w body := by
  intro h
  have hmem := (h {} { helpful "g" with succeeds := fun call => call ≠ .commit } working
    rfl).returned _ _ "g" 0 rfl rfl rfl rfl
  exact absurd hmem (by decide)

theorem caller_sees_outcome_clean : CallerSees {} (helpful "g") working := by
  refine (caller_sees_outcome_iff {} (helpful "g") working rfl).mpr fun u how hatt _ => ?_
  cases hatt
  refine ⟨fun _ res c' hres hfinds _ g c hg hc => Or.inl ?_, fun _ hnot => ?_⟩
  · cases hg
    cases hc
    cases hres
    have hsame : c' = 0 := hfinds.unique ⟨0, "g", rfl, rfl, rfl⟩
    exact ⟨hsame.symm, rfl, rfl, rfl⟩
  · exact absurd ⟨_, 0, rfl, ⟨0, "g", rfl, rfl, rfl⟩, fun _ h => by cases h⟩ (hnot rfl)

end TxLcn.Proof
