import TxLcn.Tm.NodeInitiator

/-!
# How a TM connects to the others

A scheduled task of each TM looks the others up in the common store, with
`connectToOtherNode`: it scans the keys, reads one value after the other, and
calls `connectTo` for the addresses in the end. All of these are steps of their
own, in any order with those of the other TMs.

A key whose value is gone when it is read makes the task throw, and a scheduled
task that has thrown is not run again.
-/

namespace TxLcn.Tm

open TxLcn.Lib

/-- A run of `connectToOtherNode` that is under way. -/
structure Lookup where
  /-- The keys that have been scanned and are still to be read. -/
  keys : List String
  iNetSocketAddresses : List (String × Nat) := []
  /-- For the record only: the TM was registered when the keys were scanned. -/
  registered : Bool
  deriving DecidableEq

structure TmNodeServerRunner where
  lookup : Option Lookup := none
  cancelled : Bool := false
  /-- The addresses that `connectTo` has been called with. -/
  connectTo : List (String × Nat) := []
  /-- For the record only: it has been through since the TM was registered. -/
  complete : Bool := false
  deriving DecidableEq

/-- What a read value adds to the addresses, if it is not of the TM with that `id` itself. -/
def TmNodeInfo.otherAddress (addressFormat : String → Option (String × Nat)) (id : String)
    (tmNodeInfo : TmNodeInfo) : Option (String × Nat) :=
  if tmNodeInfo.hostAndPort = id then none else addressFormat tmNodeInfo.hostAndPort

namespace TmNodeServerRunner

def scan (r : TmNodeServerRunner) (registered : Bool) (keys : List String) :
    Option TmNodeServerRunner :=
  if r.cancelled || r.lookup.isSome then none
  else some { r with lookup := some { keys, registered } }

/-- The value of the next key is dereferenced, even if there is none. -/
def read (r : TmNodeServerRunner) (redis : String → Option TmNodeInfo)
    (otherAddress : TmNodeInfo → Option (String × Nat)) : Option TmNodeServerRunner :=
  match r.lookup with
  | some { keys := key :: keys, iNetSocketAddresses, registered } =>
      match redis key with
      | none => some { r with lookup := none, cancelled := true }
      | some tmNodeInfo => some { r with
          lookup := some
            { keys
              iNetSocketAddresses := iNetSocketAddresses ++ (otherAddress tmNodeInfo).toList
              registered } }
  | _ => none

def connect (r : TmNodeServerRunner) : Option TmNodeServerRunner :=
  match r.lookup with
  | some { keys := [], iNetSocketAddresses, registered } => some { r with
      lookup := none
      connectTo := r.connectTo ++ iNetSocketAddresses.eraseDups
      complete := r.complete || registered }
  | _ => none

/-! ## A store that nobody else changes -/

variable {r : TmNodeServerRunner} {redis : String → Option TmNodeInfo} {node : TmNode}
  {otherAddress : TmNodeInfo → Option (String × Nat)} {keys : List String} {registered : Bool}

/-- Every key has its value. -/
theorem exec_read_some {infos : List TmNodeInfo} {found : List (String × Nat)}
    (h : keys.map redis = infos.map some) :
    exec (fun r (_ : Unit) => r.read redis otherAddress)
        { r with lookup := some ⟨keys, found, registered⟩ }
        (List.replicate keys.length ())
      = some { r with lookup := some ⟨[], found ++ infos.filterMap otherAddress, registered⟩ } := by
  induction keys generalizing infos found with
  | nil =>
      obtain rfl : infos = [] := by simpa using h.symm
      simp
  | cons key keys ih =>
      cases infos with
      | nil => cases h
      | cons info infos =>
          rw [List.map_cons, List.map_cons, List.cons.injEq] at h
          have hread : TmNodeServerRunner.read
              { r with lookup := some ⟨key :: keys, found, registered⟩ }
              redis otherAddress
            = some { r with
                lookup := some ⟨keys, found ++ (otherAddress info).toList, registered⟩ } := by
            simp only [read, h.1]
          rw [List.length_cons, List.replicate_succ, exec_cons, hread, Option.bind_some,
            ih h.2, List.append_assoc, List.filterMap_cons]
          cases otherAddress info <;> rfl

theorem map_some_of_not_mem {registry : List (Option TmNodeInfo)} (h : none ∉ registry) :
    (registry.filterMap fun info => info).map some = registry := by
  induction registry with
  | nil => rfl
  | cons value registry ih =>
      rw [List.mem_cons, not_or] at h
      cases value with
      | none => exact absurd rfl h.1
      | some info => simpa using ih h.2

/-- **A lookup finds `getOtherNodeList`, if the store stays as it is.** -/
theorem lookup_unchanged {others : List (String × Nat)} (hregistry : node.registry = keys.map redis)
    (hlookup : r.lookup = some { keys, registered }) (h : node.getOtherNodeList = some others) :
    ∃ r', exec (fun r (_ : Unit) => r.read redis
          (TmNodeInfo.otherAddress node.addressFormat node.id)) r (List.replicate keys.length ())
        = some r'
      ∧ r'.connect = some { r with
          lookup := none
          connectTo := r.connectTo ++ others
          complete := r.complete || registered } := by
  obtain ⟨infos, hinfos, rfl⟩ := Option.map_eq_some_iff.mp h
  unfold TmNode.otherTms at hinfos
  split at hinfos
  · cases hinfos
  · rename_i hvalues
    cases hinfos
    have hall : keys.map redis = (node.registry.filterMap fun info => info).map some := by
      rw [map_some_of_not_mem hvalues, hregistry]
    have hself : r = { r with lookup := some ⟨keys, [], registered⟩ } := by
      rw [← hlookup]
    rw [hself, exec_read_some hall]
    refine ⟨_, rfl, ?_⟩
    have hfound : (node.registry.filterMap fun info => info).filterMap
          (TmNodeInfo.otherAddress node.addressFormat node.id)
        = ((node.registry.filterMap fun info => info).filter fun info =>
          info.hostAndPort ≠ node.id).filterMap fun info =>
            node.addressFormat info.hostAndPort := by
      rw [List.filterMap_filter]
      congr 1
      funext info
      unfold TmNodeInfo.otherAddress
      by_cases hown : info.hostAndPort = node.id <;> simp [hown]
    simp only [connect, List.nil_append, hfound]

end TmNodeServerRunner

/-- The TMs, each with its task. -/
structure TmCluster (Tm : Type) where
  nodes : TmNodes Tm := {}
  runners : Tm → TmNodeServerRunner := fun _ => {}

namespace TmCluster

inductive Event (Tm : Type) where
  | registry (e : TmNodeEvent Tm)
  | scan (tm : Tm) (keys : List String)
  | read (tm : Tm)
  | connect (tm : Tm)

variable {Tm : Type} [DecidableEq Tm]

/-- `init` has returned, and the value under the key of the TM is its own. -/
def registered (hostAndPort : Tm → String) (nodes : TmNodes Tm) (tm : Tm) : Bool :=
  (nodes.initiators tm).init = .returned
    && ((nodes.initiators tm).tmId.bind nodes.redis).any fun entry =>
      entry.tmNodeInfo.hostAndPort = hostAndPort tm

def setRunner (s : TmCluster Tm) (tm : Tm) (r : TmNodeServerRunner) : TmCluster Tm :=
  { s with runners := Function.update s.runners tm r }

def step (hostAndPort : Tm → String) (addressFormat : String → Option (String × Nat))
    (s : TmCluster Tm) : Event Tm → Option (TmCluster Tm)
  | .registry e => (s.nodes.step hostAndPort e).map fun nodes => { s with nodes }
  | .scan tm keys =>
      ((s.runners tm).scan (registered hostAndPort s.nodes tm) keys).map (s.setRunner tm)
  | .read tm =>
      ((s.runners tm).read (fun key => (s.nodes.redis key).map Entry.tmNodeInfo)
        (TmNodeInfo.otherAddress addressFormat (hostAndPort tm))).map (s.setRunner tm)
  | .connect tm => (s.runners tm).connect.map (s.setRunner tm)

section setRunner

variable {s : TmCluster Tm} {tm tm' : Tm} {r : TmNodeServerRunner}

@[simp] theorem setRunner_self : (s.setRunner tm r).runners tm = r := Function.update_self ..

theorem setRunner_of_ne (h : tm' ≠ tm) : (s.setRunner tm r).runners tm' = s.runners tm' :=
  Function.update_of_ne h ..

end setRunner

end TmCluster

end TxLcn.Tm
