import TxLcn.Tm.Deployment

/-!
# Whom a decision reaches when there are several TMs

The TM that executes the notification sends the decision to the keys in the
group record, through its own connection table. The keys were written by
whichever TMs handled the joins. A key that is not in the table is skipped, and
a key that leads to another TM, or to another TC, is used for what it is.

`decision_reaches_iff` puts it exactly; `decision_reaches_on_one_tm` gives the
deployments for which nothing can go wrong: all requests of the group come over
the TCs' own connections to one and the same TM.
-/

namespace TxLcn.Proof

open TxLcn.Lib TxLcn.Tm TxLcn.Protocol

variable {Tm Tc : Type} [DecidableEq Tm] [DecidableEq Tc]

/-- Between `s` and `t`, `m` puts a decision about `g` on its connection to `c`. -/
def Told (D : Deployment Tm Tc) (g : String) (m : Tm) (s t : Cluster Tm Tc) (c : Tc) : Prop :=
  ∃ out, t.sent m = s.sent m ++ out ∧ ∃ k commit, (k, Message.commit commit) ∈ out
    ∧ commit.groupId = some g ∧ D.table m k = some (.tc c)

/-- Each notification of `g` in the run reaches every TC whose join is stored in `g`. -/
def DecisionReaches (D : Deployment Tm Tc) (g : String) (es : List (Request Tm Tc)) : Prop :=
  ∀ pre r post s t event k, es = pre ++ r :: post →
    exec D.step {} pre = some s → D.step s r = some t →
    r.event = .notify event k → event.groupId = some g →
    ∀ c ∈ s.origins g, Told D g r.tm s t c

/--
The TM that is to execute a notification of `g` has, for every TC whose join is
stored, a connection to it under a key of the group record.
-/
def KnowsAll (D : Deployment Tm Tc) (g : String) (s : Cluster Tm Tc) (r : Request Tm Tc) : Prop :=
  match r.event with
  | .notify event _ => event.groupId = some g → ∀ c ∈ s.origins g,
      ∃ G, s.store g = some G ∧ ∃ info ∈ G.listTransaction,
        D.table r.tm info.uniqueKey = some (.tc c)
  | _ => True

variable {D : Deployment Tm Tc} {g : String} {s t : Cluster Tm Tc} {r : Request Tm Tc}

/-- Whom one notification tells is a matter of the record and of the table. -/
theorem told_iff {event : TransactionNotifyEvent} {k : String} (h : D.step s r = some t)
    (hr : r.event = .notify event k) (hg : event.groupId = some g) (c : Tc) :
    Told D g r.tm s t c ↔ ∃ G, s.store g = some G ∧ ∃ info ∈ G.listTransaction,
      D.table r.tm info.uniqueKey = some (.tc c) := by
  obtain ⟨_, hstep, _⟩ := Deployment.step_some h
  have hh := step_handled hstep g
  rw [hr] at hh
  cases hh with
  | elsewhere hne => exact absurd hg hne
  | notifiedNothing _ hs _ hsent =>
      refine ⟨?_, ?_⟩
      · intro htold
        obtain ⟨out, hout, k', commit, hmem, _⟩ := htold
        have heq : out = _ := List.append_cancel_left (hout.symm.trans hsent)
        rw [heq] at hmem
        exact absurd (mem_sendMsg.mp hmem).1 (by simp)
      · intro hlisted
        obtain ⟨G, hG, _⟩ := hlisted
        exact absurd (hs.symm.trans hG) (by simp)
  | @notified _ _ _ G _ hs _ hsent =>
      refine ⟨?_, ?_⟩
      · intro htold
        obtain ⟨out, hout, k', commit, hmem, _, htable⟩ := htold
        have heq : out = _ := List.append_cancel_left (hout.symm.trans hsent)
        rw [heq] at hmem
        have hor := (mem_sendMsg.mp hmem).1
        rw [List.mem_append, List.mem_singleton] at hor
        rcases hor with hann | hreply
        · obtain ⟨info, hinfo, he⟩ := mem_announcements.mp hann
          cases he
          exact ⟨G, hs, info, hinfo, htable⟩
        · cases hreply
      · intro hlisted
        obtain ⟨G', hG', info, hinfo, htable⟩ := hlisted
        cases hs.symm.trans hG'
        refine ⟨_, hsent, info.uniqueKey, .new (some g) event.success, ?_, rfl, htable⟩
        have hmem : (info.uniqueKey, Message.commit (.new (some g) event.success))
            ∈ announcements g G event.success := mem_announcements.mpr ⟨info, hinfo, rfl⟩
        refine mem_sendMsg.mpr ⟨List.mem_append_left _ hmem, ?_⟩
        simp only [Deployment.connections, htable, Option.isSome_some]

/--
**A decision reaches every joiner exactly when**, at each notification of the
group, the TM that executes it finds a connection to every joiner under the keys
in the record.
-/
theorem decision_reaches_iff (D : Deployment Tm Tc) (g : String) (es : List (Request Tm Tc)) :
    DecisionReaches D g es ↔ AllSteps D.step (KnowsAll D g) {} es := by
  rw [allSteps_iff_split]
  refine ⟨?_, ?_⟩
  · intro h pre r post s t hsplit hrun hstep
    unfold KnowsAll
    split
    · rename_i event k hr
      intro hg c hc
      exact (told_iff hstep hr hg c).mp (h pre r post s t event k hsplit hrun hstep hr hg c hc)
    · trivial
  · intro h pre r post s t event k hsplit hrun hstep hr hg c hc
    have hk := h pre r post s t hsplit hrun hstep
    unfold KnowsAll at hk
    rw [hr] at hk
    exact (told_iff hstep hr hg c).mpr (hk hg c hc)

/-- Two TMs and one TC, which has another port at each of them. -/
def twoTms : Deployment Bool Unit where
  table m k := if k = (if m then "tc:2" else "tc:1") then some (.tc ()) else none
  connected m _ := ⟨if m then "tc:2" else "tc:1", by simp⟩

/-- The join is handled on one TM, the notification on the other: it reaches nobody. -/
theorem decision_does_not_always_reach :
    ¬ ∀ (Tm Tc : Type) [DecidableEq Tm] [DecidableEq Tc] (D : Deployment Tm Tc) (g : String)
      (es : List (Request Tm Tc)), DecisionReaches D g es := by
  intro h
  have hnotify := h Bool Unit twoTms "g"
    [⟨false, (), .create (.new (some "g")) "tc:1" 0⟩,
      ⟨false, (), .join (.new (some "g")) "tc:1" 1⟩,
      ⟨true, (), .notify (.new (some "g") true) "tc:2"⟩]
    [⟨false, (), .create (.new (some "g")) "tc:1" 0⟩,
      ⟨false, (), .join (.new (some "g")) "tc:1" 1⟩]
    _ [] _ _ _ _ rfl rfl rfl rfl rfl () (by decide)
  obtain ⟨out, hout, k, commit, hmem, _⟩ := hnotify
  have heq : out = [("tc:2", .notify { TransactionNotifyEvent.new (some "g") true with
      result := some "ok" })] :=
    List.append_cancel_left (hout.symm.trans rfl)
  rw [heq] at hmem
  exact absurd hmem (by simp)

/-! ## One TM, no forwarding -/

/-- Every request of `g` is handled on `m`, over the connection of the TC it is from. -/
def OnOneTm (D : Deployment Tm Tc) (g : String) (m : Tm) (r : Request Tm Tc) : Prop :=
  r.event.groupId = some g → r.tm = m ∧ D.table m r.event.uniqueKey = some (.tc r.origin)

/-- Every TC whose join is stored is behind one of the keys of the record at `m`. -/
def KeysAt (D : Deployment Tm Tc) (g : String) (m : Tm) (s : Cluster Tm Tc) : Prop :=
  ∀ c ∈ s.origins g, ∃ G, s.store g = some G ∧ ∃ info ∈ G.listTransaction,
    D.table m info.uniqueKey = some (.tc c)

theorem keysAt_step {m : Tm} (hk : KeysAt D g m s) (hr : OnOneTm D g m r)
    (h : D.step s r = some t) : KeysAt D g m t := by
  obtain ⟨_, hstep, horigins⟩ := Deployment.step_some h
  intro c hc
  rw [horigins] at hc
  have hh := step_handled hstep g
  obtain ⟨tm, origin, ev⟩ := r
  cases hh with
  | elsewhere hne hstore =>
      rw [Cluster.noteOrigin_of_ne hne] at hc
      obtain ⟨G, hG, hinfo⟩ := hk c hc
      exact ⟨G, hstore.trans hG, hinfo⟩
  | created hg =>
      -- a new group has no joiners yet
      rw [Cluster.noteOrigin_create hg] at hc
      exact absurd hc List.not_mem_nil
  | joinedNothing hg hs =>
      rw [Cluster.noteOrigin_join_none hs] at hc
      obtain ⟨G, hG, _⟩ := hk c hc
      exact absurd (hs.symm.trans hG) (by simp)
  | @joined event k now _ G hg hs ht =>
      have hlist := TransactionGroup.listTransaction_add_join G k event.moduleName now
      rw [Cluster.noteOrigin_join_some hg hs, List.mem_append, List.mem_singleton] at hc
      rcases hc with hc | rfl
      · obtain ⟨G', hG', info, hinfo, htable⟩ := hk c hc
        cases hs.symm.trans hG'
        exact ⟨_, ht, info, by rw [hlist]; exact List.mem_append_left _ hinfo, htable⟩
      · exact ⟨_, ht, ⟨event.moduleName, k, now, .JOIN⟩,
          by rw [hlist]; exact List.mem_append_right _ (List.mem_singleton.mpr rfl), (hr hg).2⟩
  | notifiedNothing _ hs =>
      obtain ⟨G, hG, _⟩ := hk c hc
      exact absurd (hs.symm.trans hG) (by simp)
  | notified _ hs ht =>
      obtain ⟨G, hG, hinfo⟩ := hk c hc
      cases hs.symm.trans hG
      exact ⟨_, ht, hinfo⟩

/-- **On one TM, without forwarding, a decision reaches every joiner.** -/
theorem decision_reaches_on_one_tm (m : Tm) {es : List (Request Tm Tc)}
    (h : ∀ r ∈ es, OnOneTm D g m r) : DecisionReaches D g es := by
  intro pre r post s t event k hsplit hrun hstep hr hg c hc
  have hpre : ∀ r ∈ pre, OnOneTm D g m r := fun r hmem =>
    h r (by rw [hsplit]; exact List.mem_append_left _ hmem)
  have hkeys : KeysAt D g m s :=
    exec_invariant_of_allSteps (C := fun _ r => OnOneTm D g m r) (I := KeysAt D g m)
      (fun _ _ _ hk hone hstep => keysAt_step hk hone hstep)
      (fun c hc => absurd hc List.not_mem_nil)
      (allSteps_of_forall (fun r hmem _ => hpre r hmem) _) hrun
  have hm := (h r (by rw [hsplit]; simp) (by rw [hr]; exact hg)).1
  rw [told_iff hstep hr hg, hm]
  exact hkeys c hc

end TxLcn.Proof
