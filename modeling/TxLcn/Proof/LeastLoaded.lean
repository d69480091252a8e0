import TxLcn.Tm.Reporter

/-!
# Whether a TM forwards to the least loaded one

`requestMsg` selects the least loaded of the other TMs and then, in the same
field, the first connection of the table. So a message goes to the least loaded
TM if that is the first connection in the order of the iteration, unless the
selection that is given up throws.

`least_loaded_iff` says so. It throws on two records with one host and port, and
if it has to compare a connection whose key is in no record.
-/

namespace TxLcn.Proof

open TxLcn.Protocol TxLcn.Tm TmManagerReporter

variable {Ch : Type} {ctx : TmContext Ch} {connection c first : Connection Ch}
  {connections rest : List (Connection Ch)} {otherNodeList : List (String × Nat)}
  {infos : List TmNodeInfo} {count : String → Option Nat} {leader : Option (Connection Ch)}

/-! ## When the comparison throws -/

/-- One comparison of two connections. -/
def lesser (count : String → Option Nat) (least : Option (Option (Connection Ch)))
    (cnt : Connection Ch) : Option (Option (Connection Ch)) := do
  let some best ← least | none
  let a ← count best.uniqueKey
  let b ← count cnt.uniqueKey
  if a ≤ b then some (some best) else some (some cnt)

theorem foldl_lesser_none : connections.foldl (lesser count) none = none := by
  induction connections with
  | nil => rfl
  | cons c connections ih => exact ih

/-- Once there is something to compare, every count is asked for. -/
theorem foldl_lesser_isSome :
    ((c :: connections).foldl (lesser count) (some (some first))).isSome
      ↔ ∀ c' ∈ first :: c :: connections, (count c'.uniqueKey).isSome := by
  induction connections generalizing first c with
  | nil =>
      cases ha : count first.uniqueKey with
      | none => simp [lesser, ha]
      | some a =>
          cases hb : count c.uniqueKey with
          | none => simp [lesser, hb]
          | some b =>
              simp only [List.foldl_cons, List.foldl_nil, lesser, ha, hb, bind, Option.bind]
              split <;> simp [ha, hb]
  | cons c₂ connections ih =>
      rw [List.foldl_cons]
      cases ha : count first.uniqueKey with
      | none =>
          -- it has thrown at the first comparison, and nothing is compared after that
          have hnone : lesser count (some (some first)) c = none := by simp [lesser, ha]
          rw [hnone, foldl_lesser_none]
          simp [ha]
      | some a =>
          cases hb : count c.uniqueKey with
          | none =>
              have hnone : lesser count (some (some first)) c = none := by
                simp [lesser, hb]
              rw [hnone, foldl_lesser_none]
              simp [ha, hb]
          | some b =>
              have hsome : lesser count (some (some first)) c
                  = some (some (if a ≤ b then first else c)) := by
                simp only [lesser, ha, hb, bind, Option.bind]
                split <;> rfl
              rw [hsome, ih]
              split <;> simp [ha, hb]

theorem minConnection_isSome :
    (minConnection count connections).isSome
      ↔ connections.length ≤ 1 ∨ ∀ c ∈ connections, (count c.uniqueKey).isSome := by
  match connections with
  | [] => simp [minConnection]
  -- a single one is not compared
  | [c] => simp [minConnection]
  | first :: c :: connections =>
      have hfold : minConnection count (first :: c :: connections)
          = (c :: connections).foldl (lesser count) (some (some first)) := rfl
      rw [hfold, foldl_lesser_isSome]
      simp

/-! ## The other TMs -/

/-- The connection leads to another TM than the requesting one. -/
def Candidate (connections : List (Connection Ch)) (connection : Connection Ch)
    (otherNodeList : List (String × Nat)) (c : Connection Ch) : Prop :=
  c ∈ connections ∧ c ≠ connection ∧ (c.remoteHost, c.remotePort) ∈ otherNodeList

/-- That number of connections is registered for the address of the connection. -/
def RegisteredCount (node : TmNode) (c : Connection Ch) (n : Nat) : Prop :=
  ∃ infos, node.otherTms = some infos ∧ ∃ info ∈ infos,
    node.addressFormat info.hostAndPort = some (c.remoteHost, c.remotePort) ∧ info.connection = n

/-- No other candidate has a smaller number. -/
def Least (node : TmNode) (connections : List (Connection Ch)) (connection : Connection Ch)
    (otherNodeList : List (String × Nat)) (c : Connection Ch) : Prop :=
  Candidate connections connection otherNodeList c
    ∧ ∃ n, RegisteredCount node c n ∧ ∀ c' n', Candidate connections connection otherNodeList c' →
        RegisteredCount node c' n' → n ≤ n'

/-- The message goes to the least loaded of them, or `checkLeader` refuses it if there is none. -/
def ForwardsToLeast (ctx : TmContext Ch) (connection : Connection Ch) (absMessage : Message)
    (otherNodeList : List (String × Nat)) (attempt : Attempt Ch) : Prop :=
  (∃ c, Least ctx.node ctx.table.connections connection otherNodeList c
      ∧ attempt = .sent c (requested ctx.randomUUID absMessage))
    ∨ (∀ c, ¬ Candidate ctx.table.connections connection otherNodeList c) ∧ attempt = .noLeader

/-- The records are told apart by host and port. -/
def DistinctRecords (node : TmNode) : Prop :=
  ∀ infos, node.otherTms = some infos → (infos.map TmNodeInfo.hostAndPort).Nodup

/-- There is one candidate at most, or each has a record under its key. -/
def Comparable (node : TmNode) (connections : List (Connection Ch)) (connection : Connection Ch)
    (otherNodeList : List (String × Nat)) : Prop :=
  (∀ c c', Candidate connections connection otherNodeList c →
      Candidate connections connection otherNodeList c' → c = c')
    ∨ ∀ c, Candidate connections connection otherNodeList c →
        ∃ infos, node.otherTms = some infos ∧ ∃ info ∈ infos, info.hostAndPort = c.uniqueKey

/-- The connections that the selection compares. -/
def connectionList (connections : List (Connection Ch)) (connection : Connection Ch)
    (otherNodeList : List (String × Nat)) : List (Connection Ch) :=
  (connections.filter fun connectionBo =>
      connectionBo.uniqueKey ≠ connection.uniqueKey).filter fun connectionBo =>
        (connectionBo.remoteHost, connectionBo.remotePort) ∈ otherNodeList

section selects

variable {s : ConnectionService Ch} {node : TmNode}

/-- A connection of the table is told from the requesting one by its key. -/
theorem mem_connectionList (hconnection : connection ∈ s.connections) :
    c ∈ connectionList s.connections connection otherNodeList
      ↔ Candidate s.connections connection otherNodeList c := by
  simp only [connectionList, List.mem_filter, decide_eq_true_eq]
  constructor
  · intro ⟨⟨hc, hkey⟩, hother⟩
    exact ⟨hc, fun heq => hkey (by rw [heq]), hother⟩
  · intro ⟨hc, hne, hother⟩
    refine ⟨⟨hc, fun hkey => hne ?_⟩, hother⟩
    exact List.inj_on_of_nodup_map s.distinct hc hconnection hkey

/-- The counts are found by host and port. -/
theorem lookup_isSome {k : String} :
    ((infos.map fun info => (info.hostAndPort, info.connection)).lookup k).isSome
      ↔ ∃ info ∈ infos, info.hostAndPort = k := by
  induction infos with
  | nil => simp
  | cons info infos ih =>
      rw [List.map_cons, List.lookup_cons]
      by_cases hk : k = info.hostAndPort
      · rw [hk]
        simp
      · have hne : (k == info.hostAndPort) = false := by simpa using hk
        rw [hne]
        dsimp only
        rw [ih]
        simp [Ne.symm hk]

/-- A list without repetitions has one element at most if all of them are the same. -/
theorem length_le_one_iff {l : List (Connection Ch)} (hnodup : l.Nodup) :
    l.length ≤ 1 ↔ ∀ c c', c ∈ l → c' ∈ l → c = c' := by
  match l with
  | [] => simp
  | [c] => simp
  | c :: c' :: l =>
      have hne : c ≠ c' := by
        intro heq
        rw [List.nodup_cons] at hnodup
        exact hnodup.1 (by rw [heq]; exact List.mem_cons_self)
      constructor
      · intro hlength
        rw [List.length_cons, List.length_cons] at hlength
        omega
      · intro h
        exact absurd (h c c' List.mem_cons_self (List.mem_cons_of_mem _ List.mem_cons_self)) hne

theorem selectLeaderWithoutTc_eq (hne : connections ≠ []) (hinfos : node.otherTms = some infos) :
    selectLeaderWithoutTc node connections connection otherNodeList leader
      = if (infos.map TmNodeInfo.hostAndPort).Nodup then
          minConnection (fun k =>
              (infos.map fun info => (info.hostAndPort, info.connection)).lookup k)
            (connectionList connections connection otherNodeList)
        else none := by
  have hempty : connections.isEmpty = false := by simpa using hne
  unfold selectLeaderWithoutTc TmNode.getAllOtherTmConnection
  rw [hempty, hinfos]
  simp only [Bool.false_eq_true, if_false, Option.bind_some]
  split <;> rfl

/-- The selection that is given up does not throw. -/
theorem selectLeaderWithoutTc_isSome (hconnection : connection ∈ s.connections)
    (hinfos : node.otherTms = some infos) :
    (selectLeaderWithoutTc node s.connections connection otherNodeList leader).isSome
      ↔ DistinctRecords node ∧ Comparable node s.connections connection otherNodeList := by
  have hdistinct : DistinctRecords node ↔ (infos.map TmNodeInfo.hostAndPort).Nodup := by
    constructor
    · exact fun h => h infos hinfos
    · intro h infos' hinfos'
      rw [hinfos] at hinfos'
      cases hinfos'
      exact h
  have hlist : (connectionList s.connections connection otherNodeList).Nodup :=
    ((List.Nodup.of_map _ s.distinct).filter _).filter _
  have hcomparable : Comparable node s.connections connection otherNodeList
      ↔ (connectionList s.connections connection otherNodeList).length ≤ 1
        ∨ ∀ c ∈ connectionList s.connections connection otherNodeList,
          ((infos.map fun info => (info.hostAndPort, info.connection)).lookup
            c.uniqueKey).isSome := by
    rw [length_le_one_iff hlist]
    unfold Comparable
    simp only [mem_connectionList hconnection, lookup_isSome, hinfos, Option.some.injEq,
      exists_eq_left']
  rw [selectLeaderWithoutTc_eq (List.ne_nil_of_mem hconnection) hinfos, hdistinct, hcomparable]
  split
  · rename_i hnodup
    rw [and_iff_right hnodup]
    exact minConnection_isSome
  · rename_i hnodup
    exact iff_of_false (by simp) fun h => hnodup h.1

end selects

/-- It sends on the first connection, or it has thrown. -/
theorem requestOn_cons {absMessage : Message} (hcons : ctx.table.connections = first :: rest) :
    (requestOn ctx connection leader absMessage otherNodeList).2
      = if (selectLeaderWithoutTc ctx.node ctx.table.connections connection otherNodeList
            leader).isSome then .sent first (requested ctx.randomUUID absMessage)
        else .threw := by
  unfold requestOn
  cases selectLeaderWithoutTc ctx.node ctx.table.connections connection otherNodeList leader with
  | none => rfl
  | some leader' =>
      rw [hcons]
      rfl

/--
**The message goes to the least loaded of the other TMs exactly when** that is
the first connection of the table, the records are told apart by host and port,
and the candidates can be compared by their keys.
-/
theorem least_loaded_iff {absMessage : Message}
    (hconnection : connection ∈ ctx.table.connections)
    (hothers : ctx.node.getOtherNodeList = some otherNodeList) :
    ForwardsToLeast ctx connection absMessage otherNodeList
        (requestOn ctx connection leader absMessage otherNodeList).2
      ↔ (∃ first ∈ ctx.table.connections.head?,
          Least ctx.node ctx.table.connections connection otherNodeList first)
        ∧ DistinctRecords ctx.node
        ∧ Comparable ctx.node ctx.table.connections connection otherNodeList := by
  obtain ⟨infos, hinfos, _⟩ := Option.map_eq_some_iff.mp hothers
  obtain ⟨first, rest, hcons⟩ := List.exists_cons_of_ne_nil (List.ne_nil_of_mem hconnection)
  have hselects : (selectLeaderWithoutTc ctx.node ctx.table.connections connection otherNodeList
      leader).isSome ↔ _ := selectLeaderWithoutTc_isSome hconnection hinfos
  have hhead : ctx.table.connections.head? = some first := by
    rw [hcons]
    rfl
  rw [← hselects, requestOn_cons hcons, hhead]
  simp only [Option.mem_def, Option.some.injEq, exists_eq_left']
  -- whatever has been selected, the message goes to the first connection
  split
  · rename_i hsome
    rw [and_iff_left hsome]
    constructor
    · intro hforwards
      rcases hforwards with ⟨c, hleast, hsent⟩ | ⟨_, hrefused⟩
      · cases hsent
        exact hleast
      · cases hrefused
    · exact fun hleast => Or.inl ⟨first, hleast, rfl⟩
  · -- an exception is neither a message nor a refusal
    rename_i hthrew
    refine iff_of_false ?_ fun h => hthrew h.2
    intro hforwards
    rcases hforwards with ⟨c, _, hsent⟩ | ⟨_, hrefused⟩
    · cases hsent
    · cases hrefused

/-- A TM that knows of two others. -/
def forwarding (connections : List (Connection Nat))
    (distinct : (connections.map Connection.uniqueKey).Nodup) : TmContext Nat where
  table := { connections, distinct }
  node :=
    { id := "10.0.0.1:8070"
      registry := [some { tmId := "1", hostAndPort := "10.0.0.1:8070", connection := 2 },
        some { tmId := "2", hostAndPort := "10.0.0.2:8070", connection := 5 },
        some { tmId := "3", hostAndPort := "10.0.0.3:8070", connection := 4 }]
      addressFormat := fun hostAndPort =>
        if hostAndPort = "10.0.0.2:8070" then some ("10.0.0.2", 8070)
        else if hostAndPort = "10.0.0.3:8070" then some ("10.0.0.3", 8070)
        else none }
  services := .willing
  randomUUID := "u"

def theOthers : List (String × Nat) := [("10.0.0.2", 8070), ("10.0.0.3", 8070)]

def toSecondTm : Connection Nat := { channel := 0, remoteHost := "10.0.0.2", remotePort := 8070 }

def toThirdTm : Connection Nat := { channel := 2, remoteHost := "10.0.0.3", remotePort := 8070 }

def fromTc : Connection Nat := { channel := 1, remoteHost := "10.0.0.9", remotePort := 50000 }

/-- The one with the smaller number comes first. -/
theorem least_loaded_first :
    let ctx := forwarding [toThirdTm, toSecondTm, fromTc] (by decide)
    ForwardsToLeast ctx fromTc (.create {}) theOthers
      (requestOn ctx fromTc none (.create {}) theOthers).2 := by
  have heither : ∀ c, Candidate [toThirdTm, toSecondTm, fromTc] fromTc theOthers c →
      c = toThirdTm ∨ c = toSecondTm := by
    intro c ⟨hc, hne, _⟩
    simpa [hne] using hc
  refine (least_loaded_iff (by decide) (by decide)).mpr
    ⟨⟨toThirdTm, rfl, ⟨by decide, by decide, by decide⟩, 4, ⟨_, rfl, ?_⟩, ?_⟩, ?_, Or.inr ?_⟩
  · exact ⟨{ tmId := "3", hostAndPort := "10.0.0.3:8070", connection := 4 }, by decide, rfl, rfl⟩
  · intro c n _ ⟨infos, hinfos, info, hinfo, _, hn⟩
    cases hinfos
    rcases List.mem_cons.mp hinfo with rfl | hinfo
    · exact hn ▸ by decide
    · obtain rfl := List.mem_singleton.mp hinfo
      exact hn.le
  · intro infos hinfos
    cases hinfos
    decide
  · intro c hc
    rcases heither c hc with rfl | rfl
    · exact ⟨_, rfl, { tmId := "3", hostAndPort := "10.0.0.3:8070", connection := 4 }, by decide,
        by decide⟩
    · exact ⟨_, rfl, { tmId := "2", hostAndPort := "10.0.0.2:8070", connection := 5 }, by decide,
        by decide⟩

/-- The TC comes first: it gets its own message. -/
theorem not_least_loaded :
    let ctx := forwarding [fromTc, toThirdTm, toSecondTm] (by decide)
    ¬ ForwardsToLeast ctx fromTc (.create {}) theOthers
      (requestOn ctx fromTc none (.create {}) theOthers).2 := by
  have hsent : (requestOn (forwarding [fromTc, toThirdTm, toSecondTm] (by decide)) fromTc none
      (.create {}) theOthers).2 = .sent fromTc (requested "u" (.create {})) := rfl
  dsimp only
  rw [hsent]
  intro hforwards
  rcases hforwards with ⟨c, ⟨⟨_, hne, _⟩, _⟩, hc⟩ | ⟨_, hrefused⟩
  · cases hc
    exact hne rfl
  · cases hrefused

end TxLcn.Proof
