import TxLcn.Tc.TmServerRunner
import TxLcn.Tm.NodeInitiator

/-!
# A TM that is forgotten

A TM is found through its record in the common store: the others connect to what
they find there, and answer a TC with it. The record expires, and the task that
is to prevent that reads it first. Where there is none any more it throws a
`NullPointerException`; nobody but `init` ever makes a new one.

So a TM whose record is gone stays unknown to all that do not know it yet, for as
long as it runs.
-/

namespace TxLcn.Proof

open TxLcn.Lib TxLcn.Tm TxLcn.Tc

variable {Tm : Type} [DecidableEq Tm]

/-! ## What is found in the store -/

/-- The TMs with their store, and a TC that asks them for the others. -/
structure TmLookup (Tm : Type) where
  tms : TmNodes Tm := {}
  runner : TmServerRunner := {}

namespace TmLookup

inductive Event (Tm : Type) where
  | registry (e : TmNodeEvent Tm)
  | tick
  /-- A tick goes on. -/
  | next
  /-- The steps of the callback with that number. -/
  | test (callback : Nat)
  | request (callback : Nat)
  /-- A TM answers. It has scanned the keys some time before it reads them. -/
  | addAll (callback : Nat) (tm : Tm) (keys : List String)

variable (hostAndPort : Tm → String) (addressFormat : String → Option (String × Nat))

/-- How a TM looks at the others, if it has scanned these keys. -/
def node (s : TmLookup Tm) (tm : Tm) (keys : List String) : TmNode where
  id := hostAndPort tm
  registry := keys.map fun key => (s.tms.redis key).map Entry.tmNodeInfo
  addressFormat

def step (config : TxConfig) (s : TmLookup Tm) : Event Tm → Option (TmLookup Tm)
  | .registry e => (s.tms.step hostAndPort e).map fun tms => { s with tms }
  | .tick => (s.runner.step config .tick).map fun runner => { s with runner }
  | .next => (s.runner.step config .next).map fun runner => { s with runner }
  | .test k => (s.runner.step config (.test k)).map fun runner => { s with runner }
  | .request k => (s.runner.step config (.request k)).map fun runner => { s with runner }
  | .addAll k tm keys =>
      (s.runner.step config (.addAll k (s.node hostAndPort addressFormat tm keys))).map
        fun runner => { s with runner }

end TmLookup

/-! ## The store -/

variable {hostAndPort : Tm → String} {addressFormat : String → Option (String × Nat)} {m tm : Tm}
  {n n' : TmNodes Tm} {e : TmNodeEvent Tm}

/-- A record is one of another TM. -/
def OfOthers (hostAndPort : Tm → String) (m : Tm) (tmNodeInfo : TmNodeInfo) : Prop :=
  ∃ tm, tm ≠ m ∧ tmNodeInfo.hostAndPort = hostAndPort tm

/-- The TM is through with `init`; it has no record, and nobody has read one of it. -/
structure Unlisted (hostAndPort : Tm → String) (m : Tm) (n : TmNodes Tm) : Prop where
  returned : (n.initiators m).init = .returned
  stored : ∀ key entry, n.redis key = some entry → OfOthers hostAndPort m entry.tmNodeInfo
  read : ∀ tm tmNodeInfo, (n.initiators tm).tmNodeInfo = some tmNodeInfo →
    OfOthers hostAndPort m tmNodeInfo

/-- One TM goes on, with `init` and with what it has read. -/
theorem Unlisted.setInitiator {i : TmNodeInitiator} (hn : Unlisted hostAndPort m n)
    (hinit : tm = m → i.init = .returned)
    (hread : ∀ tmNodeInfo, i.tmNodeInfo = some tmNodeInfo → OfOthers hostAndPort m tmNodeInfo) :
    Unlisted hostAndPort m (n.setInitiator tm i) where
  returned := by
    by_cases hm : m = tm
    · subst hm
      rw [TmNodes.setInitiator_self]
      exact hinit rfl
    · rw [TmNodes.setInitiator_of_ne hm]
      exact hn.returned
  stored := hn.stored
  read := by
    intro tm' tmNodeInfo h
    by_cases htm : tm' = tm
    · subst htm
      rw [TmNodes.setInitiator_self] at h
      exact hread tmNodeInfo h
    · rw [TmNodes.setInitiator_of_ne htm] at h
      exact hn.read tm' tmNodeInfo h

omit [DecidableEq Tm] in
/-- Whatever is stored now is of others too. -/
theorem Unlisted.store {redis : String → Option (Entry Tm)} {harmed : Bool}
    (hn : Unlisted hostAndPort m n)
    (hstored : ∀ key entry, redis key = some entry → OfOthers hostAndPort m entry.tmNodeInfo) :
    Unlisted hostAndPort m { n with redis, harmed } where
  returned := hn.returned
  stored := hstored
  read := hn.read

omit [DecidableEq Tm] in
/-- One value is written, or taken away. -/
theorem Unlisted.update {key key' : String} {value : Option (Entry Tm)} {entry : Entry Tm}
    (hn : Unlisted hostAndPort m n)
    (hvalue : ∀ entry, value = some entry → OfOthers hostAndPort m entry.tmNodeInfo)
    (h : Function.update n.redis key value key' = some entry) :
    OfOthers hostAndPort m entry.tmNodeInfo := by
  by_cases hkey : key' = key
  · subst hkey
    rw [Function.update_self] at h
    exact hvalue entry h
  · rw [Function.update_of_ne hkey] at h
    exact hn.stored key' entry h

/-- No TM makes a record of another one. -/
theorem unlisted_step (hn : Unlisted hostAndPort m n) (h : n.step hostAndPort e = some n') :
    Unlisted hostAndPort m n' := by
  cases e with
  | setIfAbsent tm =>
      simp only [TmNodes.step] at h
      split at h
      · cases h
      · rename_i hattempting
        cases h
        have hattempting : (n.initiators tm).init = .attempting := by simpa using hattempting
        -- who still attempts is another one
        have htm : tm ≠ m := by
          rintro rfl
          rw [hn.returned] at hattempting
          cases hattempting
        refine Unlisted.setInitiator ?_ (fun heq => absurd heq htm) (hn.read tm)
        unfold TmNodes.register
        split
        · exact hn
        · refine hn.store fun key entry => hn.update ?_
          intro entry hentry
          cases hentry
          exact ⟨tm, htm, rfl⟩
  | hasKey tm =>
      simp only [TmNodes.step] at h
      split at h
      · rename_i isSetKey hchecking
        cases h
        have htm : tm ≠ m := by
          rintro rfl
          rw [hn.returned] at hchecking
          cases hchecking
        exact hn.setInitiator (fun heq => absurd heq htm) (hn.read tm)
      · cases h
  | getTmNodeInfo tm =>
      simp only [TmNodes.step] at h
      split at h
      · cases h
      · cases h
        refine hn.setInitiator (fun heq => ?_) ?_
        · rw [heq]
          exact hn.returned
        · intro tmNodeInfo hread
          obtain ⟨entry, hentry, rfl⟩ := Option.map_eq_some_iff.mp hread
          obtain ⟨key, _, hkey⟩ := Option.bind_eq_some_iff.mp hentry
          exact hn.stored key entry hkey
  | set tm connections =>
      obtain ⟨tmNodeInfo, hread, rfl⟩ := Option.map_eq_some_iff.mp h
      have hothers : OfOthers hostAndPort m tmNodeInfo := hn.read tm tmNodeInfo hread
      -- it writes back what it has read, under the key that is in there
      refine Unlisted.setInitiator (hn.store fun key entry => hn.update ?_) ?_ ?_
      · intro entry hentry
        cases hentry
        exact hothers
      · rintro rfl
        exact hn.returned
      · intro _ hnone
        cases hnone
  | destroy tm =>
      simp only [TmNodes.step] at h
      split at h
      · cases h
      · cases h
        have hstored : Unlisted hostAndPort m { n with
            redis := fun key => if (n.initiators tm).tmId = some key then none else n.redis key
            harmed := n.harmed || (n.initiators tm).tmId.any (n.harms tm) } := by
          refine hn.store fun key entry hentry => ?_
          split at hentry
          · cases hentry
          · exact hn.stored key entry hentry
        refine hstored.setInitiator ?_ (hn.read tm)
        rintro rfl
        exact hn.returned
  | expire key =>
      cases h
      refine hn.store fun key' entry => hn.update ?_
      intro _ hnone
      cases hnone

/-! ## The lists of the TC -/

variable {config : TxConfig} {a : String × Nat} {s t : TmLookup Tm} {keys : List String}
  {answer sent : List (String × Nat)}

omit [DecidableEq Tm] in
/-- What a TM finds of the others. -/
theorem otherTms_of_others {infos : List TmNodeInfo} (hn : Unlisted hostAndPort m s.tms)
    (h : (s.node hostAndPort addressFormat tm keys).otherTms = some infos) :
    ∀ tmNodeInfo ∈ infos, OfOthers hostAndPort m tmNodeInfo := by
  unfold TmNode.otherTms at h
  split at h
  · cases h
  · cases h
    intro tmNodeInfo hmem
    obtain ⟨value, hvalue, hsome⟩ := List.mem_filterMap.mp (List.mem_filter.mp hmem).1
    obtain ⟨key, _, rfl⟩ := List.mem_map.mp hvalue
    obtain ⟨entry, hentry, rfl⟩ := Option.map_eq_some_iff.mp hsome
    exact hn.stored key entry hentry

omit [DecidableEq Tm] in
/-- No address that is made of them is the one of the TM. -/
theorem not_mem_addresses {infos : List TmNodeInfo}
    (haddress : ∀ tm, addressFormat (hostAndPort tm) = some a → tm = m)
    (hothers : ∀ tmNodeInfo ∈ infos, OfOthers hostAndPort m tmNodeInfo) :
    a ∉ infos.filterMap fun info => addressFormat info.hostAndPort := by
  intro hmem
  obtain ⟨info, hinfo, hformat⟩ := List.mem_filterMap.mp hmem
  obtain ⟨tm, htm, hhost⟩ := hothers info hinfo
  rw [hhost] at hformat
  exact htm (haddress tm hformat)

omit [DecidableEq Tm] in
/-- No TM connects to it. -/
theorem not_mem_getOtherNodeList
    (haddress : ∀ tm, addressFormat (hostAndPort tm) = some a → tm = m)
    (hn : Unlisted hostAndPort m s.tms)
    (h : (s.node hostAndPort addressFormat tm keys).getOtherNodeList = some answer) :
    a ∉ answer := by
  obtain ⟨infos, hinfos, rfl⟩ := Option.map_eq_some_iff.mp h
  rw [List.mem_eraseDups]
  exact not_mem_addresses haddress (otherTms_of_others hn hinfos)

omit [DecidableEq Tm] in
/-- No TM answers a TC with it. -/
theorem not_mem_getBesidesNodeList
    (haddress : ∀ tm, addressFormat (hostAndPort tm) = some a → tm = m)
    (hn : Unlisted hostAndPort m s.tms)
    (h : (s.node hostAndPort addressFormat tm keys).getBesidesNodeList sent = some answer) :
    a ∉ answer := by
  obtain ⟨infos, hinfos, rfl⟩ := Option.map_eq_some_iff.mp h
  intro hmem
  rw [List.mem_eraseDups] at hmem
  exact not_mem_addresses haddress (otherTms_of_others hn hinfos) (List.mem_filter.mp hmem).1

/-- The TC has the address in none of its lists, and neither has connected to it nor is to. -/
structure NotListed (a : String × Nat) (r : TmServerRunner) : Prop where
  lists : ∀ list ∈ r.lists, a ∉ list
  connected : ∀ list ∈ r.connected, a ∉ list
  forEach : ∀ forEach ∈ r.forEach, a ∉ forEach.left ∧ a ∉ forEach.connected

variable {r r' : TmServerRunner}

/-- One more tick is over, which has not connected to it. -/
theorem NotListed.append {list : List (String × Nat)} (hr : NotListed a r) (hlist : a ∉ list) :
    ∀ list' ∈ r.connected ++ [list], a ∉ list' := by
  intro list' hlist'
  rcases List.mem_append.mp hlist' with hlist' | hlist'
  · exact hr.connected list' hlist'
  · rwa [List.mem_singleton.mp hlist']

theorem notListed_tick (hr : NotListed a r)
    (hconfig : ∀ addresses, config.txManagerAddresses = .ok addresses → a ∉ addresses) :
    NotListed a (r.tick config) := by
  unfold TmServerRunner.tick
  split
  · exact ⟨hr.lists, hr.append List.not_mem_nil, hr.forEach⟩
  · split
    · exact ⟨hr.lists, hr.append List.not_mem_nil, hr.forEach⟩
    · rename_i u i current hcurrent
      have hforEach : a ∉ current →
          ∀ forEach ∈ (some ⟨i, u.modCount i, current, []⟩ : Option ForEach),
            a ∉ forEach.left ∧ a ∉ forEach.connected := by
        intro hnot forEach heq
        cases heq
        exact ⟨hnot, List.not_mem_nil⟩
      rcases TmServerRunner.current_ok hcurrent with ⟨haddresses, _, rfl⟩ | ⟨_, hthere, rfl⟩
      · -- the configured addresses are made into a list
        have hnot : a ∉ current := hconfig current haddresses
        refine ⟨?_, hr.connected, hforEach hnot⟩
        intro list hlist
        rcases List.mem_append.mp hlist with hlist | hlist
        · exact hr.lists list hlist
        · rwa [List.mem_singleton.mp hlist]
      · exact ⟨hr.lists, hr.connected, hforEach (hr.lists current (List.mem_of_getElem? hthere))⟩

/-- A tick connects to what it has still to come to. -/
theorem notListed_next {forEach : ForEach} (hr : NotListed a r) (h : r.forEach = some forEach)
    (hnext : TmServerRunner.Next r forEach r') : NotListed a r' := by
  obtain ⟨hleft, hconnected⟩ := hr.forEach forEach h
  cases hnext with
  | @address address left _ hcons =>
      rw [hcons, List.mem_cons, not_or] at hleft
      refine ⟨hr.lists, hr.connected, ?_⟩
      intro forEach' heq
      cases heq
      refine ⟨hleft.2, ?_⟩
      rw [List.mem_append, List.mem_singleton, not_or]
      exact ⟨hconnected, hleft.1⟩
  | finished => exact ⟨hr.lists, hr.append hconnected, fun _ hnone => by cases hnone⟩
  | modified => exact ⟨hr.lists, hr.append hconnected, fun _ hnone => by cases hnone⟩

/-- A list grows by answers only. -/
theorem notListed_step {e : TmServerRunner.Event} (hr : NotListed a r)
    (hconfig : ∀ addresses, config.txManagerAddresses = .ok addresses → a ∉ addresses)
    (hanswer : ∀ k node sent answer, e = .addAll k node →
      node.getBesidesNodeList sent = some answer → a ∉ answer)
    (h : r.step config e = some r') : NotListed a r' := by
  cases TmServerRunner.step_moved h with
  | tick => exact notListed_tick hr hconfig
  | next hforEach hnext => exact notListed_next hr hforEach hnext
  | test => exact ⟨hr.lists, hr.connected, hr.forEach⟩
  | request => exact ⟨hr.lists, hr.connected, hr.forEach⟩
  | @addAll k node callback sent answer list hcallback hphase hbesides hlist =>
      refine ⟨?_, hr.connected, hr.forEach⟩
      intro list' hlist'
      rcases List.mem_or_eq_of_mem_set hlist' with hlist' | rfl
      · exact hr.lists list' hlist'
      · rw [List.mem_append, not_or]
        exact ⟨hr.lists list (List.mem_of_getElem? hlist),
          hanswer k node sent answer rfl hbesides⟩

/-! ## The run -/

/-- Neither in the store nor at the TC is there anything of the TM. -/
structure Unknown (hostAndPort : Tm → String) (m : Tm) (a : String × Nat) (s : TmLookup Tm) :
    Prop where
  tms : Unlisted hostAndPort m s.tms
  runner : NotListed a s.runner

theorem unknown_step {e : TmLookup.Event Tm}
    (haddress : ∀ tm, addressFormat (hostAndPort tm) = some a → tm = m)
    (hconfig : ∀ addresses, config.txManagerAddresses = .ok addresses → a ∉ addresses)
    (hs : Unknown hostAndPort m a s)
    (h : s.step hostAndPort addressFormat config e = some t) : Unknown hostAndPort m a t := by
  cases e with
  | registry e =>
      obtain ⟨tms, htms, rfl⟩ := Option.map_eq_some_iff.mp h
      exact ⟨unlisted_step hs.tms htms, hs.runner⟩
  | addAll k tm keys =>
      obtain ⟨runner, hrunner, rfl⟩ := Option.map_eq_some_iff.mp h
      refine ⟨hs.tms, notListed_step hs.runner hconfig ?_ hrunner⟩
      intro k' node sent answer he hbesides
      injection he with _ hnode
      subst hnode
      exact not_mem_getBesidesNodeList haddress hs.tms hbesides
  | tick =>
      obtain ⟨runner, hrunner, rfl⟩ := Option.map_eq_some_iff.mp h
      exact ⟨hs.tms, notListed_step hs.runner hconfig (by simp) hrunner⟩
  | next =>
      obtain ⟨runner, hrunner, rfl⟩ := Option.map_eq_some_iff.mp h
      exact ⟨hs.tms, notListed_step hs.runner hconfig (by simp) hrunner⟩
  | test k =>
      obtain ⟨runner, hrunner, rfl⟩ := Option.map_eq_some_iff.mp h
      exact ⟨hs.tms, notListed_step hs.runner hconfig (by simp) hrunner⟩
  | request k =>
      obtain ⟨runner, hrunner, rfl⟩ := Option.map_eq_some_iff.mp h
      exact ⟨hs.tms, notListed_step hs.runner hconfig (by simp) hrunner⟩

/--
**A TM whose record is gone is not found again.** Let the TM `m` be through with
`init` and the store hold no record of it, nor any TM one that it has read; let the
TC neither know its address nor be configured with it. Then, whatever the TMs and
the TC do, `m` included, that stays so: there is no record, no TM finds the address
among the others, and the TC never connects to it.
-/
theorem not_found_again (haddress : ∀ tm, addressFormat (hostAndPort tm) = some a → tm = m)
    (hconfig : ∀ addresses, config.txManagerAddresses = .ok addresses → a ∉ addresses)
    (hs : Unknown hostAndPort m a s) (es : List (TmLookup.Event Tm))
    (hrun : exec (TmLookup.step hostAndPort addressFormat config) s es = some t) :
    Unknown hostAndPort m a t
      ∧ ∀ tm keys answer, (t.node hostAndPort addressFormat tm keys).getOtherNodeList
        = some answer → a ∉ answer := by
  have ht : Unknown hostAndPort m a t :=
    exec_invariant (fun _ _ _ hs h => unknown_step haddress hconfig hs h) hs hrun
  exact ⟨ht, fun _ _ _ h => not_mem_getOtherNodeList haddress ht.tms h⟩

/-- Two TMs on one host. -/
def portOf : Bool → String
  | true => "10.0.0.1:8070"
  | false => "10.0.0.1:8071"

/-- What `NetUtil.addressFormat` makes of these. -/
def formatted (hostAndPort : String) : Option (String × Nat) :=
  if hostAndPort = portOf true then some ("10.0.0.1", 8070)
  else if hostAndPort = portOf false then some ("10.0.0.1", 8071)
  else none

/-- The record of the first one has expired, and the second one has not started. -/
def expired : TmLookup Bool where
  tms := { initiators := fun tm => if tm then { snowflakeVo := some .first, init := .returned }
    else {} }

/-- The first one looks for its record; the second one starts, and answers a TC. -/
def afterExpiry : List (TmLookup.Event Bool) :=
  [.registry (.getTmNodeInfo true), .registry (.setIfAbsent false), .registry (.hasKey false),
    .tick, .next, .next, .test 0, .request 0, .addAll 0 false ["TxManager_1_1"]]

theorem first_not_found : ∃ t, exec (TmLookup.step portOf formatted
      { tms := some ["10.0.0.1:8071"], tmResource := 3 }) expired afterExpiry = some t
    ∧ Unknown portOf true ("10.0.0.1", 8070) t := by
  have haddress : ∀ tm, formatted (portOf tm) = some ("10.0.0.1", 8070) → tm = true := by
    decide
  have hconfigured : TxConfig.txManagerAddresses
      { tms := some ["10.0.0.1:8071"], tmResource := 3 } = .ok [("10.0.0.1", 8071)] := rfl
  have hconfig : ∀ addresses, TxConfig.txManagerAddresses
      { tms := some ["10.0.0.1:8071"], tmResource := 3 } = .ok addresses →
      ("10.0.0.1", 8070) ∉ addresses := by
    intro addresses h
    rw [hconfigured] at h
    cases h
    decide
  have hunlisted : Unlisted portOf true expired.tms := by
    refine ⟨rfl, ?_, ?_⟩
    · intro key entry hentry
      cases hentry
    · intro tm tmNodeInfo hread
      cases tm <;> cases hread
  have hunknown : Unknown portOf true ("10.0.0.1", 8070) expired :=
    ⟨hunlisted, ⟨by simp [expired], by simp [expired], by simp [expired]⟩⟩
  exact ⟨_, rfl, (not_found_again haddress hconfig hunknown afterExpiry rfl).1⟩

end TxLcn.Proof
