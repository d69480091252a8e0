import TxLcn.Tc.Invocation

/-!
# Requests that share a thread

A request that carries a group leaves a `TransactionInfo` on the thread, unless
there is one already. It is taken away by the end of an annotated method, if
that goes through, and by nothing else; so the next request may find it. And an
outbound call on a thread without a `TransactionInfo` throws.

`requests_isolated_iff` says which sequences of requests do not notice.
-/

namespace TxLcn.Proof

open TxLcn.Tc TxLcn.Protocol TransactionAspectContext RpcTransactionContext

/-- A request, and what it makes the thread do. -/
structure RpcRequest where
  /-- The header `X-Group-ID`, if there is one. -/
  groupId : Option String
  business : Business

namespace RpcRequest

/-- The group it carries. An empty header carries none. -/
def carried (r : RpcRequest) : Option String := r.groupId.filter fun groupId => groupId ≠ ""

/-- The thread right after `invoke`. -/
def invoked (r : RpcRequest) (t : TcThread) : TcThread := invoke r.groupId t

def served (r : RpcRequest) (t : TcThread) : TcThread × Option Exit := r.business.run (r.invoked t)

end RpcRequest

/-- The marks before an annotated method has ended. -/
def untilEnded (ms : List Mark) : List Mark := ms.takeWhile fun m => m ≠ .ended

/-- What the request does until then. -/
def RpcRequest.begins (r : RpcRequest) (t : TcThread) : List Mark :=
  untilEnded ((r.served t).1.marks.drop (r.invoked t).marks.length)

/-- `V` holds of every request that is served, with the thread as it finds it. -/
def EachRequest (V : RpcRequest → TcThread → Prop) : List RpcRequest → TcThread → Prop
  | [], _ => True
  | r :: rs, t => V r t ∧ ∀ u e, r.served t = (u, some e) → EachRequest V rs u

/-- The thread has the group of the request, or none, and so have the outbound calls. -/
def Isolated (r : RpcRequest) (t : TcThread) : Prop :=
  (r.invoked t).currentInfo.map TransactionInfo.groupId = r.carried.map some
    ∧ ∀ header, .outbound header ∈ r.begins t → header = .ok r.carried

/--
The request finds nothing on the thread, or its own group; and if it carries
none, it makes no outbound call until an annotated method has ended.
-/
def FindsOwn (r : RpcRequest) (t : TcThread) : Prop :=
  match r.carried with
  | none => t.current = none ∧ ∀ header, .outbound header ∉ r.begins t
  | some groupId => t.current = none
      ∨ t.currentInfo.map TransactionInfo.groupId = some (some groupId)

/-- What an outbound call is sent with, or what it throws. -/
abbrev Header := Except (Option TxException) (Option String)

variable {t u : TcThread} {w : World} {i : Nat} {exit : Exit} {g : String} {ms ns : List Mark}
  {next : TcThread × Option Exit} {H : Header → Prop}

/-! ## Marks before the end -/

theorem untilEnded_append_of_not_mem (h : .ended ∉ ms) :
    untilEnded (ms ++ ns) = ms ++ untilEnded ns := by
  refine List.takeWhile_append_of_pos fun m hm => ?_
  have hne : m ≠ .ended := by
    rintro rfl
    exact h hm
  simpa using hne

theorem untilEnded_append_of_mem (h : .ended ∈ ms) : untilEnded (ms ++ ns) = untilEnded ms := by
  obtain ⟨before, after, rfl⟩ := List.append_of_mem h
  induction before with
  | nil => simp [untilEnded]
  | cons m before ih =>
      by_cases hm : m = .ended
      · simp [untilEnded, hm]
      · simpa [untilEnded, hm] using ih (by simp)

theorem untilEnded_of_not_mem (h : .ended ∉ ms) : untilEnded ms = ms := by
  have happend : untilEnded (ms ++ []) = ms ++ untilEnded [] := untilEnded_append_of_not_mem h
  simpa [untilEnded] using happend

/-- Until an annotated method has ended, every header is in `H`. -/
def AllHeaders (H : Header → Prop) (ms : List Mark) : Prop :=
  ∀ header, .outbound header ∈ untilEnded ms → H header

theorem AllHeaders.of_noOutbound (h : NoOutbound ms) : AllHeaders H ms := fun header hmem =>
  absurd ((List.takeWhile_prefix _).subset hmem) (h header)

theorem AllHeaders.append (hms : AllHeaders H ms) (hns : .ended ∉ ms → AllHeaders H ns) :
    AllHeaders H (ms ++ ns) := by
  by_cases hended : .ended ∈ ms
  · intro header hmem
    rw [untilEnded_append_of_mem hended] at hmem
    exact hms header hmem
  · intro header hmem
    rw [untilEnded_append_of_not_mem hended] at hmem
    rcases List.mem_append.mp hmem with hmem | hmem
    · exact hms header (by rwa [untilEnded_of_not_mem hended])
    · exact hns hended header hmem

/-- And if none has ended, the next header would be in `H` as well. -/
def Sends (H : Header → Prop) (t : TcThread) (next : TcThread × Option Exit) : Prop :=
  ∃ ms, next.1.marks = t.marks ++ ms ∧ AllHeaders H ms
    ∧ (next.2 ≠ none → .ended ∉ ms → H (build next.1.currentInfo))

theorem Sends.trans {e : Exit} (h : Sends H t (u, some e)) (hmarks : u.marks <+: next.1.marks)
    (hnext : H (build u.currentInfo) → Sends H u next) : Sends H t next := by
  obtain ⟨ms, hms, hheaders, hlast⟩ := h
  dsimp only at hms hlast
  by_cases hended : .ended ∈ ms
  · obtain ⟨ns, hns⟩ := hmarks
    refine ⟨ms ++ ns, by rw [← hns, hms, List.append_assoc], ?_, ?_⟩
    · exact hheaders.append fun hnot => absurd hended hnot
    · exact fun _ hnot => absurd (List.mem_append_left _ hended) hnot
  · obtain ⟨ns, hns, hheaders', hlast'⟩ := hnext (hlast (by simp) hended)
    refine ⟨ms ++ ns, by rw [hns, hms, List.append_assoc], hheaders.append fun _ => hheaders', ?_⟩
    exact fun hnone hnot => hlast' hnone fun hmem => hnot (List.mem_append_right _ hmem)

/-! ## An annotated method -/

theorem finish_ended (w : World) (i : Nat) (exit : Exit) (t : TcThread) :
    ∃ ms, (finish w i exit t).1.marks = t.marks ++ ms ∧ NoOutbound ms
      ∧ ((finish w i exit t).2 ≠ none → .ended ∈ ms) := by
  obtain ⟨ms, hno, hms⟩ := TransactionContext.tryEndTransaction_marked w i t
  have hmarks : (TransactionContext.tryEndTransaction w i t).1.marks = t.marks ++ ms := by
    rw [hms]
    split <;> rfl
  have hended : NoOutbound (ms ++ [.ended]) := hno.append (by simp [NoOutbound])
  unfold finish
  split <;> rename_i heq <;> rw [heq] at hmarks
  · exact ⟨ms, hmarks, hno, fun h => absurd rfl h⟩
  all_goals
    dsimp only at hmarks
    exact ⟨ms ++ [.ended], by simp [hmarks], hended, fun _ => by simp⟩

/-- The business of a creator has the group that was created. -/
theorem sends_enter (hcreated : H (.error none) → ∀ g, H (.ok (some g)))
    (ht : H (build t.currentInfo))
    (hbegun : TransactionContext.tryBeginTransaction w (enter w t).1 (enter w t).2
      = (u, .returned)) : H (build u.currentInfo) := by
  obtain ⟨ms, _, hms⟩ :=
    TransactionContext.tryBeginTransaction_marked w (enter w t).1 (enter w t).2
  rw [hbegun] at hms
  dsimp only at hms
  subst hms
  cases hc : t.current with
  | some j =>
      rw [TcThread.currentInfo_eq hc] at ht
      simpa [enter, hc, TcThread.currentInfo, TcThread.setTransactionType, TcThread.update, build]
        using ht
  | none =>
      rw [TcThread.currentInfo, hc] at ht
      cases hw : w.groupId with
      | none =>
          rw [tryBeginTransaction_create_of_no_group
            (by simp [enter, hc]) (by simp [enter, hc, hw])] at hbegun
          exact absurd (congrArg Prod.snd hbegun) (by simp)
      | some g =>
          simpa [enter, hc, hw, TcThread.currentInfo, TcThread.setTransactionType,
            TcThread.update, TcThread.push, build] using hcreated ht g

theorem sends_annotated (hcreated : H (.error none) → ∀ g, H (.ok (some g)))
    {body : Business} (hbody : ∀ u, H (build u.currentInfo) → Sends H u (body.run u))
    (ht : H (build t.currentInfo)) : Sends H t (runWithTransaction true w body.run t) := by
  have hattempt : ∃ ms, (attempt w (enter w t).1 body.run (enter w t).2).1.marks = t.marks ++ ms
      ∧ AllHeaders H ms := by
    obtain ⟨ms, hno, hms⟩ :=
      TransactionContext.tryBeginTransaction_marked w (enter w t).1 (enter w t).2
    unfold attempt
    split <;> rename_i heq
    · obtain ⟨ns, hns, hheaders, _⟩ := hbody _ (sends_enter hcreated ht heq)
      rw [heq] at hms
      dsimp only at hms
      subst hms
      refine ⟨ms ++ ns, by simp [hns], ?_⟩
      exact (AllHeaders.of_noOutbound hno).append fun _ => hheaders
    · rw [heq] at hms
      dsimp only at hms
      subst hms
      exact ⟨ms, by simp, AllHeaders.of_noOutbound hno⟩
  obtain ⟨ms, hms, hheaders⟩ := hattempt
  unfold runWithTransaction
  simp only [if_true]
  split <;> rename_i heq <;> rw [heq] at hms
  · exact ⟨ms, hms, hheaders, fun h => absurd rfl h⟩
  · rename_i v exit
    obtain ⟨ns, hns, hno, hended⟩ := finish_ended w (enter w t).1 exit
      (note (enter w t).1 exit v)
    refine ⟨ms ++ ns, by rw [hns, note_marks, hms, List.append_assoc], ?_, ?_⟩
    · exact hheaders.append fun _ => AllHeaders.of_noOutbound hno
    · exact fun h hnot => absurd (List.mem_append_right _ (hended h)) hnot

/-- If the first header of a thread is in `H`, so are the following. -/
theorem sends_run (hcreated : H (.error none) → ∀ g, H (.ok (some g))) (b : Business)
    (t : TcThread) (ht : H (build t.currentInfo)) : Sends H t (b.run t) := by
  induction b generalizing t with
  | ends how => exact ⟨[], by simp [Business.run], .of_noOutbound noOutbound_nil, fun _ _ => ht⟩
  | code next ih =>
      have hstep : Sends H t (t.marked [.code], some .returned) :=
        ⟨[.code], rfl, .of_noOutbound (by simp [NoOutbound]), fun _ _ => ht⟩
      exact hstep.trans (next.frame_run _).marks (ih _)
  | jdbc op next ih =>
      obtain ⟨hi, _, hc, hm⟩ := op.run_keeps (t.marked [.code])
      have hinfo : (op.run (t.marked [.code])).1.currentInfo = t.currentInfo := by
        rw [TcThread.currentInfo, hi, hc]
        rfl
      have hstep : Sends H t ((op.run (t.marked [.code])).1, some .returned) :=
        ⟨[.code], hm, .of_noOutbound (by simp [NoOutbound]), fun _ _ => by rwa [hinfo]⟩
      rw [Business.run_jdbc]
      exact hstep.trans ((next _).frame_run _).marks (ih _ _)
  | outbound how next ih =>
      have hstep : Sends H t ((t.outbound how).1, some .returned) := by
        rw [TcThread.outbound_eq]
        refine ⟨[.outbound (build t.currentInfo)], rfl, fun header hmem => ?_, fun _ _ => ht⟩
        rw [untilEnded_of_not_mem (by simp)] at hmem
        cases List.mem_singleton.mp hmem
        exact ht
      rw [Business.run_outbound]
      exact hstep.trans ((next _).frame_run _).marks (ih _ _)
  | call annotated w body next ihb ihn =>
      have hstep : Sends H t (runWithTransaction annotated w body.run t) := by
        cases annotated with
        | false => exact ihb t ht
        | true => exact sends_annotated hcreated ihb ht
      unfold Business.run
      split <;> rename_i heq <;> rw [heq] at hstep
      · exact hstep
      · exact hstep.trans ((next _).frame_run _).marks (ihn _ _)

/-! ## The requests -/

theorem headers_begins {r : RpcRequest} (hcreated : H (.error none) → ∀ g, H (.ok (some g)))
    (ht : H (build (r.invoked t).currentInfo)) :
    ∀ header, .outbound header ∈ r.begins t → H header := by
  obtain ⟨ms, hms, hheaders, _⟩ := sends_run hcreated r.business _ ht
  unfold RpcRequest.begins RpcRequest.served
  rw [hms, List.drop_left]
  exact hheaders

theorem invoked_of_none {r : RpcRequest} (h : r.carried = none) : r.invoked t = t := by
  unfold RpcRequest.carried at h
  unfold RpcRequest.invoked invoke
  split
  · rename_i groupId hg _
    rw [hg] at h
    have hempty : groupId = "" := by simpa [Option.filter] using h
    rw [if_pos hempty]
  · rfl

theorem invoked_of_some {r : RpcRequest} (h : r.carried = some g) :
    r.invoked t = if t.current = none then t.push (.ofGroup (some g)) else t := by
  unfold RpcRequest.carried at h
  obtain ⟨hg, hne⟩ := Option.filter_eq_some_iff.mp h
  have hne : g ≠ "" := of_decide_eq_true hne
  unfold RpcRequest.invoked invoke
  rw [hg]
  cases hc : t.current with
  | none => simp [hne]
  | some i => rfl

theorem isolated_iff {r : RpcRequest} : Isolated r t ↔ FindsOwn r t := by
  unfold Isolated FindsOwn
  cases hr : r.carried with
  | none =>
      have hclean : t.currentInfo.map TransactionInfo.groupId = none ↔ t.current = none := by
        simp [TcThread.currentInfo]
      rw [invoked_of_none hr, Option.map_none, hclean]
      refine and_congr_right fun hc => ?_
      -- an outbound call throws, or has the group that was created
      have hnever : ∀ header, .outbound header ∈ r.begins t → header ≠ .ok none := by
        refine headers_begins (fun _ g => by simp) ?_
        simp [invoked_of_none hr, TcThread.currentInfo, hc, build]
      exact ⟨fun h header hmem => hnever header hmem (h header hmem),
        fun h header hmem => absurd hmem (h header)⟩
  | some g =>
      have hinfo : (r.invoked t).currentInfo.map TransactionInfo.groupId = some (some g)
          ↔ t.current = none ∨ t.currentInfo.map TransactionInfo.groupId = some (some g) := by
        rw [invoked_of_some hr]
        by_cases hc : t.current = none
        · simp [hc, TcThread.currentInfo, TransactionInfo.ofGroup]
        · simp [hc]
      rw [Option.map_some, hinfo]
      refine and_iff_left_of_imp fun hfinds => ?_
      refine headers_begins (fun h => by cases h) ?_
      obtain ⟨info, heq, hgroup⟩ := Option.map_eq_some_iff.mp (hinfo.mpr hfinds)
      rw [heq, build, hgroup]

/--
Each request has the thread for itself iff it finds what it may find there: it
is not enough for the others to have ended.
-/
theorem requests_isolated_iff (rs : List RpcRequest) (t : TcThread) :
    EachRequest Isolated rs t ↔ EachRequest FindsOwn rs t := by
  induction rs generalizing t with
  | nil => exact Iff.rfl
  | cons r rs ih =>
      exact and_congr isolated_iff (forall_congr' fun u => forall_congr' fun e =>
        imp_congr_right fun _ => ih u)

/-- The second request has the group of the first, whose business has no annotated method. -/
theorem not_requests_isolated : ¬ ∀ rs, EachRequest Isolated rs {} := by
  intro h
  have h := h [⟨some "g", .ends .returned⟩, ⟨none, .ends .returned⟩]
  obtain ⟨_, hnext⟩ := h
  obtain ⟨⟨hstale, _⟩, _⟩ := hnext _ _ rfl
  exact absurd hstale (by decide)

end TxLcn.Proof
