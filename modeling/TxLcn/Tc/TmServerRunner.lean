import TxLcn.Lib.Exec
import TxLcn.Tc.TxConfig
import TxLcn.Tm.TmNode

/-!
# How a TC finds its TMs

On each tick the addresses of `TxConfig` are connected to, the configured ones if
it has none yet, and a callback is registered for each. A callback that finds its
list too short asks a TM for the TMs that the list does not have, appends the
answer to the list and hands it to `TxConfig`.

The callbacks run at the same time, each of them step by step, and so does a tick:
it goes through its list by `forEach`, address by address, and what is appended to
the list meanwhile is a `ConcurrentModificationException` there. A tick, a callback
and `TxConfig` refer to a list; the lists themselves are numbered.
-/

namespace TxLcn.Tc

open TxLcn.Lib TxLcn.Tm

def ListUtil.isEmpty {α : Type} (list : Option (List α)) : Bool :=
  match list with
  | none => true
  | some list => list.length = 0

/-- How far a callback has come. -/
inductive CallbackPhase where
  | registered
  /-- The list is too short. -/
  | tested
  /-- The TM has been asked, with the list as it was. -/
  | requested (otherNodeList : List (String × Nat))
  | done
  deriving Repr, DecidableEq

structure Callback where
  iNetSocketAddresses : Nat
  phase : CallbackPhase := .registered
  deriving Repr, DecidableEq

/-- How far a tick has come with its list. -/
structure ForEach where
  iNetSocketAddresses : Nat
  expectedModCount : Nat
  /-- What it has not come to, of the elements that the list had at first. -/
  left : List (String × Nat)
  /-- For the record only: what it has connected to. -/
  connected : List (String × Nat) := []
  deriving Repr, DecidableEq

structure TmServerRunner where
  lists : List (List (String × Nat)) := []
  /-- How often something has been appended to the list. -/
  modCount : Nat → Nat := fun _ => 0
  /-- The list that `TxConfig` has. -/
  iNetSocketAddresses : Option Nat := none
  callbacks : List Callback := []
  /-- The tick that is under way. -/
  forEach : Option ForEach := none
  /-- An exception has ended the schedule. -/
  cancelled : Bool := false
  /-- For the record only: what was connected to, by each tick that was due and is over. -/
  connected : List (List (String × Nat)) := []

namespace TmServerRunner

inductive Event where
  /-- A tick is due; the one thread of the schedule is free. -/
  | tick
  /-- The tick goes on, with its next address or to its end. -/
  | next
  /-- The steps of the callback with that number. -/
  | test (callback : Nat)
  | request (callback : Nat)
  /-- The answer is that of a TM. -/
  | addAll (callback : Nat) (node : TmNode)

variable (config : TxConfig) (s : TmServerRunner)

/-- What a tick goes through: the number of a list, which may be a new one, and that list. -/
def current : Except AddressException (TmServerRunner × Nat × List (String × Nat)) :=
  let list := s.iNetSocketAddresses.bind fun i => s.lists[i]?
  if ListUtil.isEmpty list then do
    let addresses ← config.txManagerAddresses
    pure ({ s with lists := s.lists ++ [addresses] }, s.lists.length, addresses)
  else pure (s, s.iNetSocketAddresses.getD 0, list.getD [])

def tick : TmServerRunner :=
  if s.cancelled then { s with connected := s.connected ++ [[]] }
  else
    match current config s with
    | .error _ => { s with cancelled := true, connected := s.connected ++ [[]] }
    | .ok (s, i, list) =>
        let expectedModCount := s.modCount i
        { s with forEach := some { iNetSocketAddresses := i, expectedModCount, left := list } }

/-- The tick is over. -/
def finished (forEach : ForEach) : TmServerRunner :=
  { s with forEach := none, connected := s.connected ++ [forEach.connected] }

/-- One turn of `ArrayList.forEach`: the modifications are looked at before each element. -/
def next (forEach : ForEach) : TmServerRunner :=
  if s.modCount forEach.iNetSocketAddresses = forEach.expectedModCount then
    match forEach.left with
    | [] => s.finished forEach
    | address :: left => { s with
        callbacks := s.callbacks ++ [{ iNetSocketAddresses := forEach.iNetSocketAddresses }]
        forEach := some { forEach with left, connected := forEach.connected ++ [address] } }
  else
    -- a ConcurrentModificationException
    { s.finished forEach with cancelled := true }

/-- The callback has come to that phase. -/
def toPhase (k : Nat) (callback : Callback) (phase : CallbackPhase) : TmServerRunner :=
  { s with callbacks := s.callbacks.set k { callback with phase } }

/-- The answer is at the end of the list, and `TxConfig` has the list. -/
def append (i : Nat) (list answer : List (String × Nat)) : TmServerRunner :=
  { s with
    lists := s.lists.set i (list ++ answer)
    modCount := Function.update s.modCount i (s.modCount i + 1)
    iNetSocketAddresses := some i }

def step : Event → Option TmServerRunner
  | .tick => do
      guard s.forEach.isNone
      pure (s.tick config)
  | .next => s.forEach.map s.next
  | .test k => do
      let callback ← s.callbacks[k]?
      guard (callback.phase = .registered)
      let list ← s.lists[callback.iNetSocketAddresses]?
      let phase := if list.length < config.tmResource then .tested else .done
      pure (s.toPhase k callback phase)
  | .request k => do
      let callback ← s.callbacks[k]?
      guard (callback.phase = .tested)
      let list ← s.lists[callback.iNetSocketAddresses]?
      pure (s.toPhase k callback (.requested list))
  | .addAll k node => do
      let callback ← s.callbacks[k]?
      match callback.phase with
      | .requested otherNodeList =>
          let answer ← node.getBesidesNodeList otherNodeList
          let list ← s.lists[callback.iNetSocketAddresses]?
          pure ((s.toPhase k callback .done).append callback.iNetSocketAddresses list answer)
      | _ => none

/-! ## What the steps do -/

variable {config s} {t : TmServerRunner} {i k : Nat} {list : List (String × Nat)}

/-- A tick goes through the configured addresses, or through a list that has some. -/
theorem current_ok (h : current config s = .ok (t, i, list)) :
    (config.txManagerAddresses = .ok list ∧ i = s.lists.length
        ∧ t = { s with lists := s.lists ++ [list] })
      ∨ s.iNetSocketAddresses = some i ∧ s.lists[i]? = some list ∧ t = s := by
  unfold current at h
  dsimp only at h
  split at h
  · cases haddresses : config.txManagerAddresses with
    | error e =>
        rw [haddresses] at h
        cases h
    | ok addresses =>
        rw [haddresses] at h
        cases h
        exact Or.inl ⟨rfl, rfl, rfl⟩
  · -- a list that is not empty is there
    rename_i hthere
    cases hi : s.iNetSocketAddresses with
    | none =>
        rw [hi] at hthere
        exact absurd rfl hthere
    | some i' =>
        rw [hi, Option.bind_some] at hthere
        cases hlist : s.lists[i']? with
        | none =>
            rw [hlist] at hthere
            exact absurd rfl hthere
        | some list' =>
            rw [hi, Option.bind_some, hlist] at h
            cases h
            exact Or.inr ⟨rfl, hlist, rfl⟩

@[simp] theorem toPhase_lists {callback : Callback} {phase : CallbackPhase} :
    (s.toPhase k callback phase).lists = s.lists := rfl

@[simp] theorem append_lists {answer : List (String × Nat)} :
    (s.append i list answer).lists = s.lists.set i (list ++ answer) := rfl

/-- Going on, a tick registers a callback at most, with the list it goes through. -/
inductive Next (s : TmServerRunner) (forEach : ForEach) : TmServerRunner → Prop where
  | address {address : String × Nat} {left : List (String × Nat)} :
      s.modCount forEach.iNetSocketAddresses = forEach.expectedModCount →
      forEach.left = address :: left →
      Next s forEach { s with
        callbacks := s.callbacks ++ [{ iNetSocketAddresses := forEach.iNetSocketAddresses }]
        forEach := some { forEach with left, connected := forEach.connected ++ [address] } }
  | finished : s.modCount forEach.iNetSocketAddresses = forEach.expectedModCount →
      forEach.left = [] → Next s forEach (s.finished forEach)
  | modified : s.modCount forEach.iNetSocketAddresses ≠ forEach.expectedModCount →
      Next s forEach { s.finished forEach with cancelled := true }

theorem next_next (forEach : ForEach) : Next s forEach (s.next forEach) := by
  unfold next
  split
  · rename_i hcount
    split
    · rename_i hleft
      exact .finished hcount hleft
    · rename_i address left hleft
      exact .address hcount hleft
  · rename_i hcount
    exact .modified hcount

/-- The lists stay as they are. -/
theorem Next.lists {forEach : ForEach} (h : Next s forEach t) :
    t.lists = s.lists ∧ t.iNetSocketAddresses = s.iNetSocketAddresses := by
  cases h <;> exact ⟨rfl, rfl⟩

/-- A callback of the next state is one of this state, or one that has just been registered. -/
theorem Next.mem_callbacks {forEach : ForEach} {callback : Callback} (h : Next s forEach t)
    (hmem : callback ∈ t.callbacks) : callback ∈ s.callbacks ∨ callback.phase = .registered := by
  cases h with
  | address =>
      rcases List.mem_append.mp hmem with hmem | hmem
      · exact Or.inl hmem
      · rw [List.mem_singleton.mp hmem]
        exact Or.inr rfl
  | finished => exact Or.inl hmem
  | modified => exact Or.inl hmem

/-- What a step can be, but for the ticks. -/
inductive Moved (config : TxConfig) (s : TmServerRunner) : Event → TmServerRunner → Prop where
  | tick : s.forEach = none → Moved config s .tick (s.tick config)
  | next {forEach : ForEach} {t : TmServerRunner} : s.forEach = some forEach →
      Next s forEach t → Moved config s .next t
  | test {k : Nat} {callback : Callback} {list : List (String × Nat)} :
      s.callbacks[k]? = some callback → s.lists[callback.iNetSocketAddresses]? = some list →
      Moved config s (.test k) (s.toPhase k callback
        (if list.length < config.tmResource then .tested else .done))
  | request {k : Nat} {callback : Callback} {list : List (String × Nat)} :
      s.callbacks[k]? = some callback → s.lists[callback.iNetSocketAddresses]? = some list →
      Moved config s (.request k) (s.toPhase k callback (.requested list))
  | addAll {k : Nat} {node : TmNode} {callback : Callback}
      {otherNodeList answer list : List (String × Nat)} :
      s.callbacks[k]? = some callback → callback.phase = .requested otherNodeList →
      node.getBesidesNodeList otherNodeList = some answer →
      s.lists[callback.iNetSocketAddresses]? = some list →
      Moved config s (.addAll k node)
        ((s.toPhase k callback .done).append callback.iNetSocketAddresses list answer)

theorem step_moved {e : Event} (h : s.step config e = some t) : Moved config s e t := by
  cases e with
  | tick =>
      simp only [step, bind, Option.bind_eq_some_iff] at h
      obtain ⟨_, hguard, h⟩ := h
      cases h
      exact .tick (by simpa [guard] using hguard)
  | next =>
      obtain ⟨forEach, hforEach, rfl⟩ := Option.map_eq_some_iff.mp h
      exact .next hforEach (next_next forEach)
  | test k =>
      simp only [step, bind, Option.bind_eq_some_iff] at h
      obtain ⟨callback, hcallback, _, _, list, hlist, h⟩ := h
      cases h
      exact .test hcallback hlist
  | request k =>
      simp only [step, bind, Option.bind_eq_some_iff] at h
      obtain ⟨callback, hcallback, _, _, list, hlist, h⟩ := h
      cases h
      exact .request hcallback hlist
  | addAll k node =>
      simp only [step, bind, Option.bind_eq_some_iff] at h
      obtain ⟨callback, hcallback, h⟩ := h
      split at h
      · rename_i otherNodeList hphase
        simp only [Option.bind_eq_some_iff] at h
        obtain ⟨answer, hanswer, list, hlist, h⟩ := h
        cases h
        exact .addAll hcallback hphase hanswer hlist
      · cases h

/-! ## The configured addresses -/

/-- Every list has the configured addresses. -/
structure HasConfigured (configured : List (String × Nat)) (s : TmServerRunner) : Prop where
  lists : ∀ list ∈ s.lists, ∀ a ∈ configured, a ∈ list
  there : ∀ i ∈ s.iNetSocketAddresses, ∃ list, s.lists[i]? = some list

variable {configured : List (String × Nat)}

/-- What a tick is, where the configured addresses can be made. -/
theorem tick_cases (hconfig : config.txManagerAddresses = .ok configured) :
    (s.cancelled = true ∧ s.tick config = { s with connected := s.connected ++ [[]] })
      ∨ ∃ t i list, s.cancelled = false ∧ current config s = .ok (t, i, list)
        ∧ s.tick config = { t with
          forEach := some
            { iNetSocketAddresses := i, expectedModCount := t.modCount i, left := list } } := by
  unfold tick
  split
  · rename_i hcancelled
    exact Or.inl ⟨hcancelled, rfl⟩
  · rename_i hgoes
    have hcurrent : ∃ r, current config s = .ok r := by
      unfold current
      dsimp only
      rw [hconfig]
      split
      · exact ⟨_, rfl⟩
      · exact ⟨_, rfl⟩
    obtain ⟨⟨t, i, list⟩, hcurrent⟩ := hcurrent
    refine Or.inr ⟨t, i, list, by simpa using hgoes, hcurrent, ?_⟩
    rw [hcurrent]

theorem hasConfigured_init : HasConfigured configured {} where
  lists := by simp
  there := by simp

theorem hasConfigured_tick (hs : HasConfigured configured s)
    (hconfig : config.txManagerAddresses = .ok configured) :
    HasConfigured configured (s.tick config) := by
  rcases tick_cases hconfig with ⟨_, htick⟩ | ⟨t, i, list, _, hcurrent, htick⟩
  · rw [htick]
    exact ⟨hs.lists, hs.there⟩
  · rw [htick]
    rcases current_ok hcurrent with ⟨hlist, _, rfl⟩ | ⟨_, _, rfl⟩
    · -- the configured addresses have been made into a list once more
      rw [hconfig] at hlist
      cases hlist
      refine ⟨?_, ?_⟩
      · intro list hlist a ha
        rcases List.mem_append.mp hlist with hlist | hlist
        · exact hs.lists list hlist a ha
        · rwa [List.mem_singleton.mp hlist]
      · intro i hi
        obtain ⟨list, hlist⟩ := hs.there i hi
        exact ⟨list, List.getElem?_append_left (List.getElem?_eq_some_iff.mp hlist).1 ▸ hlist⟩
    · exact ⟨hs.lists, hs.there⟩

theorem hasConfigured_step {e : Event} (hs : HasConfigured configured s)
    (hconfig : config.txManagerAddresses = .ok configured) (h : s.step config e = some t) :
    HasConfigured configured t := by
  cases step_moved h with
  | tick => exact hasConfigured_tick hs hconfig
  | next hforEach hnext =>
      obtain ⟨hlists, hlist⟩ := hnext.lists
      refine ⟨?_, ?_⟩
      · rw [hlists]
        exact hs.lists
      · rw [hlists, hlist]
        exact hs.there
  | test hcallback hlist => exact ⟨hs.lists, hs.there⟩
  | request hcallback hlist => exact ⟨hs.lists, hs.there⟩
  | @addAll k node callback otherNodeList answer list hcallback hphase hanswer hlist =>
      have hlt := (List.getElem?_eq_some_iff.mp hlist).1
      -- what is appended takes nothing away
      refine ⟨?_, ?_⟩
      · intro list' hlist' a ha
        rcases List.mem_or_eq_of_mem_set hlist' with hlist' | rfl
        · exact hs.lists list' hlist' a ha
        · exact List.mem_append_left _ (hs.lists list (List.mem_of_getElem? hlist) a ha)
      · intro i hi
        cases hi
        exact ⟨_, List.getElem?_set_self hlt⟩

end TmServerRunner

end TxLcn.Tc
