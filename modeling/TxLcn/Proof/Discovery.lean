import TxLcn.Tc.TmServerRunner

/-!
# Whether an address is found twice

A TM answers with the addresses that the list did not have when it was asked. The
list may have grown by the time the answer is appended, since other callbacks ask
with the same one.

`no_duplicates_iff` says that the list keeps free of duplicates as long as that
does not matter.
-/

namespace TxLcn.Proof

open TxLcn.Lib TxLcn.Tc TxLcn.Tm TmServerRunner

variable {config : TxConfig} {configured : List (String × Nat)} {s t : TmServerRunner}
  {e : TmServerRunner.Event}

/-- The address list of `TxConfig`; as long as it is `null` the configured ones are taken. -/
def addresses (configured : List (String × Nat)) (s : TmServerRunner) : List (String × Nat) :=
  match s.iNetSocketAddresses with
  | none => configured
  | some i => s.lists[i]?.getD []

/-- No address is in the list twice, and the configured ones are in it. -/
def NoDuplicates (configured : List (String × Nat)) (s : TmServerRunner) : Prop :=
  (addresses configured s).Nodup ∧ ∀ a ∈ configured, a ∈ addresses configured s

/-- Of an answer nothing has been appended since the TM was asked. -/
def StillBesides (s : TmServerRunner) : TmServerRunner.Event → Prop
  | .addAll k node => ∀ callback otherNodeList answer list, s.callbacks[k]? = some callback →
      callback.phase = .requested otherNodeList →
      node.getBesidesNodeList otherNodeList = some answer →
      s.lists[callback.iNetSocketAddresses]? = some list →
      ∀ a ∈ answer, a ∉ list.drop otherNodeList.length
  | _ => True

/-- It is enough that nothing at all has been appended to the list. -/
theorem stillBesides_of_unchanged {k : Nat} {node : TmNode} {callback : Callback}
    {otherNodeList : List (String × Nat)} (hcallback : s.callbacks[k]? = some callback)
    (hphase : callback.phase = .requested otherNodeList)
    (hlist : s.lists[callback.iNetSocketAddresses]? = some otherNodeList) :
    StillBesides s (.addAll k node) := by
  intro callback' otherNodeList' answer list hcallback' hphase' _ hlist' a _
  rw [hcallback] at hcallback'
  cases hcallback'
  rw [hphase] at hphase'
  cases hphase'
  rw [hlist] at hlist'
  cases hlist'
  rw [List.drop_length]
  exact List.not_mem_nil

/-- No list repeats an address, and each has grown since a TM was asked with it. -/
structure Discovering (configured : List (String × Nat)) (s : TmServerRunner) : Prop where
  configured : HasConfigured configured s
  nodup : ∀ list ∈ s.lists, list.Nodup
  asked : ∀ callback ∈ s.callbacks, ∀ otherNodeList, callback.phase = .requested otherNodeList →
    ∃ list, s.lists[callback.iNetSocketAddresses]? = some list ∧ otherNodeList <+: list

theorem Discovering.noDuplicates (hs : Discovering configured s) (hnodup : configured.Nodup) :
    NoDuplicates configured s := by
  unfold NoDuplicates addresses
  split
  · exact ⟨hnodup, fun _ ha => ha⟩
  · rename_i i hi
    obtain ⟨list, hlist⟩ := hs.configured.there i hi
    rw [hlist]
    have hmem := List.mem_of_getElem? hlist
    exact ⟨hs.nodup list hmem, hs.configured.lists list hmem⟩

/-! ## One step -/

/-- What is appended keeps the list free of duplicates if it is not there already. -/
theorem nodup_append_answer {node : TmNode} {otherNodeList answer list : List (String × Nat)}
    (hanswer : node.getBesidesNodeList otherNodeList = some answer) (hlist : list.Nodup)
    (hgrown : otherNodeList <+: list) :
    (list ++ answer).Nodup ↔ ∀ a ∈ answer, a ∉ list.drop otherNodeList.length := by
  obtain ⟨hnodup, hbesides⟩ := TmNode.getBesidesNodeList_nodup hanswer
  obtain ⟨appended, rfl⟩ := hgrown
  rw [List.drop_left, List.nodup_append]
  constructor
  · intro ⟨_, _, hdisjoint⟩ a ha happended
    exact hdisjoint a (List.mem_append_right _ happended) a ha rfl
  · intro hnew
    refine ⟨hlist, hnodup, ?_⟩
    intro a ha b hb heq
    subst heq
    rcases List.mem_append.mp ha with ha | ha
    · exact hbesides a hb ha
    · exact hnew a hb ha

/-- The callbacks that a step does not move ask with what they have asked with. -/
theorem asked_toPhase {k : Nat} {callback : Callback} {phase : CallbackPhase}
    (hs : Discovering configured s)
    (hphase : ∀ otherNodeList, phase = .requested otherNodeList →
      ∃ list, s.lists[callback.iNetSocketAddresses]? = some list ∧ otherNodeList <+: list) :
    ∀ callback' ∈ (s.toPhase k callback phase).callbacks, ∀ otherNodeList,
      callback'.phase = .requested otherNodeList →
      ∃ list, s.lists[callback'.iNetSocketAddresses]? = some list ∧ otherNodeList <+: list := by
  intro callback' hmem otherNodeList hrequested
  rcases List.mem_or_eq_of_mem_set hmem with hmem | rfl
  · exact hs.asked callback' hmem otherNodeList hrequested
  · exact hphase otherNodeList hrequested

theorem nodup_step (hs : Discovering configured s) (hnodup : configured.Nodup)
    (hconfig : config.txManagerAddresses = .ok configured) (hC : StillBesides s e)
    (h : s.step config e = some t) : ∀ list ∈ t.lists, list.Nodup := by
  cases step_moved h with
  | tick =>
      rcases tick_cases hconfig with ⟨_, htick⟩ | ⟨t, i, list, _, hcurrent, htick⟩
      · rw [htick]
        exact hs.nodup
      · rw [htick]
        rcases current_ok hcurrent with ⟨hlist, _, rfl⟩ | ⟨_, _, rfl⟩
        · -- a new list, of the configured addresses
          rw [hconfig] at hlist
          cases hlist
          intro list hlist
          rcases List.mem_append.mp hlist with hlist | hlist
          · exact hs.nodup list hlist
          · rwa [List.mem_singleton.mp hlist]
        · exact hs.nodup
  | next _ hnext =>
      rw [hnext.lists.1]
      exact hs.nodup
  | test | request => exact hs.nodup
  | @addAll k node callback otherNodeList answer list hcallback hphase hanswer hlist =>
      intro list' hlist'
      rcases List.mem_or_eq_of_mem_set hlist' with hlist' | rfl
      · exact hs.nodup list' hlist'
      · -- the list has grown since, but only by addresses that are not in the answer
        obtain ⟨list', hthere, hgrown⟩ :=
          hs.asked callback (List.mem_of_getElem? hcallback) otherNodeList hphase
        rw [hlist] at hthere
        cases hthere
        rw [nodup_append_answer hanswer (hs.nodup list (List.mem_of_getElem? hlist)) hgrown]
        exact hC callback otherNodeList answer list hcallback hphase hanswer hlist

/-- A list is made or appended to, never cut: what a callback has asked with stays a prefix. -/
theorem asked_step (hs : Discovering configured s)
    (hconfig : config.txManagerAddresses = .ok configured) (h : s.step config e = some t) :
    ∀ callback ∈ t.callbacks, ∀ otherNodeList, callback.phase = .requested otherNodeList →
      ∃ list, t.lists[callback.iNetSocketAddresses]? = some list ∧ otherNodeList <+: list := by
  cases step_moved h with
  | tick =>
      rcases tick_cases hconfig with ⟨_, htick⟩ | ⟨t, i, list, _, hcurrent, htick⟩
      · rw [htick]
        exact hs.asked
      · rw [htick]
        rcases current_ok hcurrent with ⟨_, _, rfl⟩ | ⟨_, _, rfl⟩
        · intro callback hmem otherNodeList hphase
          obtain ⟨list, hlist, hgrown⟩ := hs.asked callback hmem otherNodeList hphase
          have hlt := (List.getElem?_eq_some_iff.mp hlist).1
          exact ⟨list, (List.getElem?_append_left hlt).trans hlist, hgrown⟩
        · exact hs.asked
  | next _ hnext =>
      intro callback hmem otherNodeList hphase
      rw [hnext.lists.1]
      rcases hnext.mem_callbacks hmem with hmem | hregistered
      · exact hs.asked callback hmem otherNodeList hphase
      · -- one that has just been registered has asked nobody yet
        rw [hphase] at hregistered
        cases hregistered
  | test hcallback hlist =>
      refine asked_toPhase hs ?_
      intro otherNodeList hphase
      split at hphase <;> cases hphase
  | @request k callback list hcallback hlist =>
      refine asked_toPhase hs ?_
      intro otherNodeList hphase
      cases hphase
      exact ⟨list, hlist, List.prefix_refl list⟩
  | @addAll k node callback otherNodeList answer list hcallback hphase hanswer hlist =>
      have hlt := (List.getElem?_eq_some_iff.mp hlist).1
      intro callback' hmem otherNodeList' hphase'
      obtain ⟨list', hlist', hgrown⟩ :=
        asked_toPhase hs (fun _ h => by cases h) callback' hmem otherNodeList' hphase'
      rw [append_lists, toPhase_lists, List.getElem?_set]
      split
      · -- the other callback has asked with the same list
        rename_i heq
        rw [← heq, hlist] at hlist'
        cases hlist'
        exact ⟨_, rfl, hgrown.trans (List.prefix_append list answer)⟩
      · exact ⟨list', hlist', hgrown⟩

theorem discovering_step (hs : Discovering configured s) (hnodup : configured.Nodup)
    (hconfig : config.txManagerAddresses = .ok configured) (hC : StillBesides s e)
    (h : s.step config e = some t) : Discovering configured t :=
  ⟨hasConfigured_step hs.configured hconfig h, nodup_step hs hnodup hconfig hC h,
    asked_step hs hconfig h⟩

/-- What is appended twice is in the list twice. -/
theorem not_noDuplicates_step (hs : Discovering configured s) (hC : ¬ StillBesides s e)
    (h : s.step config e = some t) : ¬ NoDuplicates configured t := by
  cases step_moved h with
  | tick | next | test | request => exact absurd trivial hC
  | @addAll k node callback otherNodeList answer list hcallback hphase hanswer hlist =>
      intro ⟨hnodup, _⟩
      refine hC ?_
      -- the event determines the callback, its list and the answer
      intro callback' otherNodeList' answer' list' hcallback' hphase' hanswer' hlist'
      rw [hcallback] at hcallback'
      cases hcallback'
      rw [hphase] at hphase'
      cases hphase'
      rw [hanswer] at hanswer'
      cases hanswer'
      rw [hlist] at hlist'
      cases hlist'
      obtain ⟨list', hthere, hgrown⟩ :=
        hs.asked callback (List.mem_of_getElem? hcallback) otherNodeList hphase
      rw [hlist] at hthere
      cases hthere
      rw [← nodup_append_answer hanswer (hs.nodup list (List.mem_of_getElem? hlist)) hgrown]
      have hlt := (List.getElem?_eq_some_iff.mp hlist).1
      have hthere : addresses configured ((s.toPhase k callback .done).append
          callback.iNetSocketAddresses list answer) = list ++ answer := by
        unfold addresses append
        dsimp only
        rw [toPhase_lists, List.getElem?_set_self hlt, Option.getD_some]
      rwa [hthere] at hnodup

/--
**The address list keeps free of duplicates exactly as long as** no answer holds
an address that has been appended to its list since the TM was asked. The
configured addresses stay in it.
-/
theorem no_duplicates_iff (hconfig : config.txManagerAddresses = .ok configured)
    (hnodup : configured.Nodup) (es : List TmServerRunner.Event) :
    AllStates (TmServerRunner.step config) (NoDuplicates configured) {} es
      ↔ AllSteps (TmServerRunner.step config) StillBesides {} es :=
  allStates_iff_allSteps (fun _ hs => hs.noDuplicates hnodup)
    (fun _ _ _ hs hC h => discovering_step hs hnodup hconfig hC h)
    (fun _ _ _ hs hC h => not_noDuplicates_step hs hC h)
    ⟨hasConfigured_init, by simp, by simp⟩

/-- A TC that is configured with two TMs and wants more. -/
def configuredTwo (tmResource : Int) : TxConfig where
  tms := some ["10.0.0.1:8070", "10.0.0.2:8070"]
  tmResource

/-- What `NetUtil.addressFormat` makes of two addresses. -/
def thirdOrFourth (hostAndPort : String) : Option (String × Nat) :=
  if hostAndPort = "10.0.0.3:8070" then some ("10.0.0.3", 8070)
  else if hostAndPort = "10.0.0.4:8070" then some ("10.0.0.4", 8070)
  else none

/-- A TM that knows of a third one. -/
def knowsThird : TmNode where
  id := "10.0.0.1:8070"
  registry := [some { tmId := "3", hostAndPort := "10.0.0.3:8070", connection := 0 }]
  addressFormat := thirdOrFourth

/-- A TM that knows of a fourth one as well. -/
def knowsFourth : TmNode where
  id := "10.0.0.1:8070"
  registry := [some { tmId := "3", hostAndPort := "10.0.0.3:8070", connection := 0 },
    some { tmId := "4", hostAndPort := "10.0.0.4:8070", connection := 0 }]
  addressFormat := thirdOrFourth

/-- One callback appends its answer; the other one asks with what is there then, and appends. -/
def inTurn : List TmServerRunner.Event :=
  [.tick, .next, .next, .next, .test 0, .request 0, .addAll 0 knowsThird, .test 1, .request 1,
    .addAll 1 knowsFourth]

theorem no_duplicates_in_turn : AllStates (TmServerRunner.step (configuredTwo 4))
    (NoDuplicates [("10.0.0.1", 8070), ("10.0.0.2", 8070)]) {} inTurn := by
  refine (no_duplicates_iff rfl (by decide) _).mpr ?_
  iterate 6 refine (allSteps_cons rfl).mpr ⟨trivial, ?_⟩
  refine (allSteps_cons rfl).mpr ⟨stillBesides_of_unchanged rfl rfl rfl, ?_⟩
  iterate 2 refine (allSteps_cons rfl).mpr ⟨trivial, ?_⟩
  exact (allSteps_cons rfl).mpr ⟨stillBesides_of_unchanged rfl rfl rfl, trivial⟩

/-- Two callbacks ask with the same list, and both append the answer. -/
theorem not_no_duplicates : ¬ ∀ es,
    AllStates (TmServerRunner.step (configuredTwo 3))
      (NoDuplicates [("10.0.0.1", 8070), ("10.0.0.2", 8070)]) {} es := by
  intro h
  have hlast := (h [.tick, .next, .next, .next, .test 0, .test 1, .request 0, .request 1,
    .addAll 0 knowsThird, .addAll 1 knowsThird]).last rfl
  exact absurd hlast.1 (by decide)

end TxLcn.Proof
