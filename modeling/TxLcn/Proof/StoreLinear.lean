import TxLcn.Tm.Repository

/-!
# Whether the group store is linearizable

`join` and `notify` read the whole group, change it, and write it back; nothing
keeps another client from writing in between. If one does, its write is lost: a
participant that joined is not listed, or a decision is undone.

`group_store_linearizable` is the other half. A run in which every write back
still finds what its call has read is a sequential run, in the order in which
the calls finish. What a call has read can be seen in what it is about to write.
-/

namespace TxLcn.Proof

open TxLcn.Lib TxLcn.Tm Prog RedisTransactionGroupRepository

/-- The state of a store of groups. -/
abbrev Store := String → Option TransactionGroup

/-- What a call of `c` has left to do after some of its commands. -/
def Underway : Call → Prog String TransactionGroup Unit → Prop
  | .create g k m now, p => p = (Call.create g k m now).prog ∨ p = ret ()
  | .join g k m now, p => p = (Call.join g k m now).prog
      ∨ (∃ G : TransactionGroup, p = set g (G.add k m .JOIN now) (ret ())) ∨ p = ret ()
  | .notify g b, p => p = (Call.notify g b).prog
      ∨ (∃ G : TransactionGroup, p = set g { G with state := .parser b } (ret ())) ∨ p = ret ()

/--
The call is not about to overwrite something it has not seen. A `join` that is
about to write finds the group it has read; a `notify` finds it but for the
state, which it replaces. A `create` reads nothing.
-/
def Undisturbed (s : Store) (p : Prog String TransactionGroup Unit) : Call → Prop
  | .create _ _ _ _ => True
  | .join g k m now => ∀ (G : TransactionGroup) next,
      p = set g (G.add k m .JOIN now) next → s g = some G
  | .notify g b => ∀ (G : TransactionGroup) next, p = set g { G with state := .parser b } next →
      ∃ G', s g = some G' ∧ G'.groupId = G.groupId
        ∧ G'.transactionInfoList = G.transactionInfoList

variable {s s' : Store} {p q : Prog String TransactionGroup Unit} {c : Call}

theorem underway_start (c : Call) : Underway c c.prog := by
  cases c with
  | create g k m now => exact Or.inl rfl
  | join g k m now => exact Or.inl rfl
  | notify g b => exact Or.inl rfl

theorem step_ret : (ret () : Prog String TransactionGroup Unit).step s ≠ some (q, s') := by
  simp [Prog.step]

theorem TransactionGroup.add_injective {G G' : TransactionGroup} {k : String} {m : Option String}
    {ty : TransactionType} {now : Nat} (h : G.add k m ty now = G'.add k m ty now) : G = G' := by
  obtain ⟨g, st, list⟩ := G
  obtain ⟨g', st', list'⟩ := G'
  simp only [TransactionGroup.add, TransactionGroup.mk.injEq, List.append_cancel_right_eq] at h
  rw [h.1, h.2.1, h.2.2]

/-- A call that has not begun is undisturbed. -/
theorem undisturbed_start (s : Store) (c : Call) : Undisturbed s c.prog c := by
  cases c with
  | create g k m now => trivial
  | join g k m now =>
      intro G next h
      cases (show get g _ = set g _ next from h)
  | notify g b =>
      intro G next h
      cases (show get g _ = set g _ next from h)

/-- So is a join that finds again what it has read. -/
theorem undisturbed_join {g k : String} {m : Option String} {now : Nat} {G : TransactionGroup}
    {next : Prog String TransactionGroup Unit} (h : s g = some G) :
    Undisturbed s (set g (G.add k m .JOIN now) next) (.join g k m now) := by
  intro G' next' heq
  injection heq with _ hadd _
  rw [h, TransactionGroup.add_injective hadd]

/-! ## One command -/

theorem underway_step (hu : Underway c p) (h : p.step s = some (q, s')) : Underway c q := by
  cases c with
  | create g k m now =>
      rcases hu with rfl | rfl
      · cases h; exact Or.inr rfl
      · exact absurd h step_ret
  | join g k m now =>
      rcases hu with rfl | ⟨G, rfl⟩ | rfl
      · cases h
        cases s g with
        | none => exact Or.inr (Or.inr rfl)
        | some G => exact Or.inr (Or.inl ⟨G, rfl⟩)
      · cases h; exact Or.inr (Or.inr rfl)
      · exact absurd h step_ret
  | notify g b =>
      rcases hu with rfl | ⟨G, rfl⟩ | rfl
      · cases h
        cases s g with
        | none => exact Or.inr (Or.inr rfl)
        | some G => exact Or.inr (Or.inl ⟨G, rfl⟩)
      · cases h; exact Or.inr (Or.inr rfl)
      · exact absurd h step_ret

/-- An undisturbed command is silent, or does at once what the whole call does. -/
theorem atomic_step (hu : Underway c p) (hc : Undisturbed s p c) (h : p.step s = some (q, s')) :
    (q.isRet = false → s' = s) ∧ (q.isRet = true → s' = c.prog.effect s) := by
  cases c with
  | create g k m now =>
      rcases hu with rfl | rfl
      · cases h; exact ⟨fun hf => absurd hf (by simp [isRet]), fun _ => rfl⟩
      · exact absurd h step_ret
  | join g k m now =>
      rcases hu with rfl | ⟨G, rfl⟩ | rfl
      · -- the `get`: it ends the call only if there is no group
        cases h
        refine ⟨fun _ => rfl, fun hret => ?_⟩
        cases hs : s g with
        | none => exact (effect_join_none g k m now s hs).symm
        | some G => rw [hs] at hret; exact absurd hret Bool.false_ne_true
      · -- the `set`: what was read is still there
        have hsg := hc G _ rfl
        cases h
        exact ⟨fun hf => absurd hf (by simp [isRet]),
          fun _ => (effect_join_some g k m now s hsg).symm⟩
      · exact absurd h step_ret
  | notify g b =>
      rcases hu with rfl | ⟨G, rfl⟩ | rfl
      · cases h
        refine ⟨fun _ => rfl, fun hret => ?_⟩
        cases hs : s g with
        | none => exact (effect_notify_none g b s hs).symm
        | some G => rw [hs] at hret; exact absurd hret Bool.false_ne_true
      · -- the `set`: what was read is still there, but for the state, which is replaced
        obtain ⟨G', hsg, hid, hlist⟩ := hc G _ rfl
        have hsame : ({ G with state := .parser b } : TransactionGroup)
            = { G' with state := .parser b } := by rw [hid, hlist]
        cases h
        refine ⟨fun hf => absurd hf (by simp [isRet]), fun _ => ?_⟩
        rw [effect_notify_some g b s hsg, hsame]
      · exact absurd h step_ret

/-! ## Sequential runs -/

variable {ι : Type}

/-- The record a call adds to the group `g` if it finds it. -/
def joinInfo (calls : ι → Call) (g : String) (i : ι) : Option TransactionInfo :=
  match calls i with
  | .join g' k m now => if g' = g then some ⟨m, k, now, .JOIN⟩ else none
  | _ => none

/-- The state of `g` after a call that finds it in state `st`. -/
def nextState (calls : ι → Call) (g : String) (st : TransactionState) (i : ι) : TransactionState :=
  match calls i with
  | .notify g' b => if g' = g then .parser b else st
  | _ => st

/-- The call creates the group `g`. -/
def Creates (g : String) : Call → Prop
  | .create g' _ _ _ => g' = g
  | _ => False

/-- One call, run alone on a stored group it does not create. -/
theorem effect_stored (calls : ι → Call) {g : String} {i : ι} {G : TransactionGroup}
    (hs : s g = some G) (hc : ¬ Creates g (calls i)) :
    (calls i).prog.effect s g = some
      { G with state := nextState calls g G.state i
               transactionInfoList := G.transactionInfoList ++ (joinInfo calls g i).toList } := by
  unfold nextState joinInfo
  cases hi : calls i with
  | create g' k m now =>
      have hne : g ≠ g' := fun he => hc (by rw [hi]; exact he.symm)
      rw [effect_create, Function.update_of_ne hne, hs]
      simp
  | join g' k m now =>
      by_cases hg : g' = g
      · subst hg
        rw [effect_join_some g' k m now s hs, Function.update_self]
        simp [TransactionGroup.add]
      · have hne : g ≠ g' := fun he => hg he.symm
        cases hs' : s g' with
        | none => rw [effect_join_none g' k m now s hs', hs]; simp [hg]
        | some G' =>
            rw [effect_join_some g' k m now s hs', Function.update_of_ne hne, hs]
            simp [hg]
  | notify g' b =>
      by_cases hg : g' = g
      · subst hg
        rw [effect_notify_some g' b s hs, Function.update_self]
        simp
      · have hne : g ≠ g' := fun he => hg he.symm
        cases hs' : s g' with
        | none => rw [effect_notify_none g' b s hs', hs]; simp [hg]
        | some G' =>
            rw [effect_notify_some g' b s hs', Function.update_of_ne hne, hs]
            simp [hg]

/--
**Run one after the other on a stored group**, calls that do not create it list
every join once, in order, and leave the state of the last notification.
-/
theorem sequential_stored (calls : ι → Call) {g : String} :
    ∀ (order : List ι) {s : Store} {G : TransactionGroup}, s g = some G →
      (∀ i ∈ order, ¬ Creates g (calls i)) →
      Pool.sequential (fun i => (calls i).prog) s order g = some
        { G with
          state := order.foldl (nextState calls g) G.state
          transactionInfoList := G.transactionInfoList ++ order.filterMap (joinInfo calls g) } := by
  intro order
  induction order with
  | nil => intro s G hs _; simp [Pool.sequential, hs]
  | cons i order ih =>
      intro s G hs hc
      have hone := effect_stored calls hs (hc i List.mem_cons_self)
      have hrest := ih hone fun j hj => hc j (List.mem_cons_of_mem i hj)
      have hcons : Pool.sequential (fun i => (calls i).prog) s (i :: order)
          = Pool.sequential (fun i => (calls i).prog) ((calls i).prog.effect s) order := rfl
      rw [hcons, hrest]
      cases hj : joinInfo calls g i with
      | none => simp [hj]
      | some info => simp [hj]

/-! ## Whole runs -/

variable [DecidableEq ι]

/-- Every call of the pool is underway. -/
def AllUnderway (calls : ι → Call) (P : Pool ι String TransactionGroup Unit) : Prop :=
  ∀ i, Underway (calls i) (P.rest i)

theorem allUnderway_step {calls : ι → Call} {P Q : Pool ι String TransactionGroup Unit} {i : ι}
    (hu : AllUnderway calls P) (h : P.step i = some Q) : AllUnderway calls Q := by
  obtain ⟨p, s', heq, rfl⟩ := Pool.step_some h
  intro j
  by_cases hj : j = i
  · subst hj
    dsimp only
    rw [Function.update_self]
    exact underway_step (hu j) heq
  · dsimp only
    rw [Function.update_of_ne hj]
    exact hu j

/-- The calls, none of them begun, on the store `s`. -/
abbrev poolOf (calls : ι → Call) (s : Store) : Pool ι String TransactionGroup Unit :=
  Pool.start (fun i => (calls i).prog) s

/--
**A run without lost writes is linearizable.**

In particular, whatever group is stored at some moment of the sequential run and
not created again, the group stored in the end lists it with every later join
once, and has the state of the last notification.
-/
theorem group_store_linearizable (calls : ι → Call) (s : Store) (es : List ι)
    (P : Pool ι String TransactionGroup Unit)
    (hC : AllSteps Pool.step (fun P i => Undisturbed P.store (P.rest i) (calls i))
      (poolOf calls s) es)
    (hrun : exec Pool.step (poolOf calls s) es = some P) :
    Pool.Linearizable (fun i => (calls i).prog) s es P
      ∧ ∀ g before after G, P.done = before ++ after →
        Pool.sequential (fun i => (calls i).prog) s before g = some G →
        (∀ i ∈ after, ¬ Creates g (calls i)) →
        P.store g = some
          { G with
            state := after.foldl (nextState calls g) G.state
            transactionInfoList :=
              G.transactionInfoList ++ after.filterMap (joinInfo calls g) } := by
  have hatomic : AllSteps Pool.step (Pool.AtomicAt fun i => (calls i).prog) (poolOf calls s) es :=
    AllSteps.mono_of_invariant (I := AllUnderway calls)
      (fun _ _ _ hu hstep => allUnderway_step hu hstep)
      (fun P i hu hc p s' hstep => atomic_step (hu i) hc hstep)
      (fun i => underway_start (calls i)) hC
  obtain ⟨hstore, hlin⟩ := Pool.linearizable_of_atomic hatomic hrun
  refine ⟨hlin, ?_⟩
  intro g before after G hdone hbefore hcreate
  rw [hstore, hdone, Pool.sequential_append]
  exact sequential_stored calls after hbefore hcreate

/-- A group that `a` has created, and nothing else. -/
def oneGroup : Store :=
  Function.update (fun _ => none) "g" (some (.new "g" "a" none .REQUEST 0))

/-- Two participants that join it. -/
def twoJoins : Bool → Call
  | false => .join "g" "b" none 1
  | true => .join "g" "c" none 2

/-- One after the other they are both listed. -/
theorem two_joins_in_turn : ∃ P, P.store "g" = some
      ⟨"g", .JOIN, [⟨none, "a", 0, .REQUEST⟩, ⟨none, "b", 1, .JOIN⟩, ⟨none, "c", 2, .JOIN⟩]⟩
    ∧ Pool.Linearizable (fun i => (twoJoins i).prog) oneGroup [false, false, true, true] P := by
  have hC : AllSteps Pool.step (fun P i => Undisturbed P.store (P.rest i) (twoJoins i))
      (poolOf twoJoins oneGroup) [false, false, true, true] := by
    refine (allSteps_cons rfl).mpr ⟨undisturbed_start oneGroup (twoJoins false), ?_⟩
    refine (allSteps_cons rfl).mpr ⟨undisturbed_join (s := oneGroup) rfl, ?_⟩
    refine (allSteps_cons rfl).mpr ⟨undisturbed_start _ (twoJoins true), ?_⟩
    exact (allSteps_cons rfl).mpr ⟨undisturbed_join (k := "c") rfl, trivial⟩
  exact ⟨_, rfl, (group_store_linearizable twoJoins oneGroup _ _ hC rfl).1⟩

/-- If both read before either writes, one of them is lost. -/
theorem group_store_not_linearizable :
    ¬ ∀ (ι : Type) [DecidableEq ι] (calls : ι → Call) (s : Store) (es : List ι)
      (P : Pool ι String TransactionGroup Unit),
      exec Pool.step (poolOf calls s) es = some P →
        Pool.Linearizable (fun i => (calls i).prog) s es P := by
  intro h
  obtain ⟨order, hperm, _, _, hstore⟩ :=
    h Bool twoJoins oneGroup [false, true, false, true] _ rfl
  have hno : ∀ i ∈ order, ¬ Creates "g" (twoJoins i) := by
    intro i _
    cases i <;> exact id
  have hseq := sequential_stored twoJoins order (s := oneGroup) rfl hno
  -- in any order both joins are listed, and the list has three records
  have hlen := (hperm.filterMap (joinInfo twoJoins "g")).length_eq
  have hg := (congrFun hstore "g").trans hseq
  have hlist := congrArg (fun G => G.map (·.transactionInfoList.length)) hg
  simp only [Option.map_some, List.length_append, hlen] at hlist
  exact absurd hlist (by decide)

end TxLcn.Proof
