import TxLcn.Protocol.ConnectionService

/-!
# Whether a live connection stays in the table

A connection leaves the table when some channel with its key becomes inactive.
That need not be its own: a second connection to the same peer is refused and
closed, and the end of its channel removes the first one. `live_connection_iff`
says that there is no other way to lose a connection.
-/

namespace TxLcn.Proof

open TxLcn.Lib TxLcn.Protocol ConnectionService

variable {Ch : Type}

/-- Whoever was put into the table and is not inactive is found there. -/
def StaysRegistered (s : Channels Ch) : Prop :=
  ∀ channel c, s.registered channel = some c →
    s.protocoler.connectionService.getConnection c.uniqueKey = some c

/-- A channel that becomes inactive finds nobody else's connection under its key. -/
def OwnKey (s : Channels Ch) : ChannelEvent Ch → Prop
  | .channelActive _ => True
  | .channelInactive channel => ∀ c, s.session channel = some c →
      ∀ c', s.protocoler.connectionService.getConnection c.uniqueKey = some c' → c' = c

/-! ## The invariant -/

/-- The table holds the registered connections, each the one stored in its active channel. -/
structure Registry (s : Channels Ch) : Prop where
  found : ∀ channel c, s.registered channel = some c →
    c ∈ s.protocoler.connectionService.connections
  known : ∀ c ∈ s.protocoler.connectionService.connections, s.registered c.channel = some c
  stored : ∀ channel c, s.registered channel = some c → s.session channel = some c
  active : ∀ channel c, s.registered channel = some c → s.status channel = .active
  session : ∀ channel c, s.session channel = some c → c.channel = channel

variable {s t : Channels Ch}

theorem registry_init : Registry ({} : Channels Ch) where
  found := by
    intro channel c h
    cases h
  known := by
    intro c hc
    cases hc
  stored := by
    intro channel c h
    cases h
  active := by
    intro channel c h
    cases h
  session := by
    intro channel c h
    cases h

theorem Registry.staysRegistered (hs : Registry s) : StaysRegistered s := by
  intro channel c h
  exact getConnection_eq_some_iff.mpr (hs.found channel c h)

/-- Opening puts the connection into the table, where its key was free, or changes nothing. -/
theorem handleConnectionOpened_cases (p : Protocoler Ch) (c : Connection Ch) :
    p.handleConnectionOpened c = (p, false)
      ∨ p.connectionService.getConnection c.uniqueKey = none
        ∧ (p.handleConnectionOpened c).2 = true
        ∧ ∀ c', c' ∈ (p.handleConnectionOpened c).1.connectionService.connections ↔
          c' ∈ p.connectionService.connections ∨ c' = c := by
  unfold Protocoler.handleConnectionOpened
  split
  · exact Or.inl rfl
  · cases hget : p.connectionService.getConnection c.uniqueKey with
    | some c' =>
        refine Or.inl ?_
        rw [addConnection_dup hget]
        rfl
    | none =>
        have hopen : (p.connectionService.addConnection c).2 = false := by
          rw [addConnection_closed, existConnect, hget]
          rfl
        refine Or.inr ⟨rfl, by simp [hopen], fun c' => ?_⟩
        simp [mem_addConnection, hget]

variable [DecidableEq Ch] {remoteAddress : Ch → String × Nat} {channel : Ch}

/-- A cell that has a value has the new one, or is another one. -/
theorem of_update_eq_some {β : Type} {f : Ch → Option β} {channel' : Ch} {value : Option β} {b : β}
    (h : Function.update f channel value channel' = some b) :
    (channel' = channel ∧ value = some b) ∨ (channel' ≠ channel ∧ f channel' = some b) := by
  by_cases heq : channel' = channel
  · rw [heq, Function.update_self] at h
    exact Or.inl ⟨heq, h⟩
  · rw [Function.update_of_ne heq] at h
    exact Or.inr ⟨heq, h⟩

theorem registry_channelActive (hs : Registry s) (hfresh : s.status channel = .fresh) :
    Registry (s.channelActive remoteAddress channel) := by
  have hnot : s.registered channel = none := by
    cases h : s.registered channel with
    | none => rfl
    | some c => exact absurd (hfresh.symm.trans (hs.active channel c h)) (by simp)
  have hne : ∀ channel' c, s.registered channel' = some c → channel' ≠ channel := by
    rintro channel' c h rfl
    exact absurd (hnot.symm.trans h) (by simp)
  have hsession : ∀ channel' c', Function.update s.session channel
      (some (Connection.new channel (remoteAddress channel))) channel' = some c' →
      c'.channel = channel' := by
    intro channel' c' h
    rcases of_update_eq_some h with ⟨heq, hnew⟩ | ⟨_, hold⟩
    · cases hnew
      exact heq.symm
    · exact hs.session channel' c' hold
  dsimp only [Channels.channelActive]
  rcases handleConnectionOpened_cases s.protocoler
    (Connection.new channel (remoteAddress channel)) with hsame | ⟨hfree, hput, hmem⟩
  · rw [hsame]
    refine ⟨hs.found, hs.known, ?_, ?_, hsession⟩
    · intro channel' c h
      exact (Function.update_of_ne (hne channel' c h) ..).trans (hs.stored channel' c h)
    · intro channel' c h
      exact (Function.update_of_ne (hne channel' c h) ..).trans (hs.active channel' c h)
  · simp only [hput, if_true]
    refine ⟨?_, ?_, ?_, ?_, hsession⟩
    · intro channel' c h
      rcases of_update_eq_some h with ⟨_, hnew⟩ | ⟨_, hold⟩
      · exact (hmem _).mpr (Or.inr (Option.some.inj hnew).symm)
      · exact (hmem _).mpr (Or.inl (hs.found channel' c hold))
    · intro c hc
      rcases (hmem c).mp hc with hold | rfl
      · have hreg := hs.known c hold
        exact (Function.update_of_ne (hne _ c hreg) ..).trans hreg
      · exact Function.update_self ..
    · intro channel' c h
      rcases of_update_eq_some h with ⟨rfl, hnew⟩ | ⟨hother, hold⟩
      · exact (Function.update_self ..).trans hnew
      · exact (Function.update_of_ne hother ..).trans (hs.stored channel' c hold)
    · intro channel' c h
      rcases of_update_eq_some h with ⟨rfl, _⟩ | ⟨hother, hold⟩
      · exact Function.update_self ..
      · exact (Function.update_of_ne hother ..).trans (hs.active channel' c hold)

/-- A channel goes, and nothing but its own connection leaves the table. -/
theorem Registry.leave {protocoler : Protocoler Ch} (hs : Registry s)
    (hfound : ∀ channel' c, channel' ≠ channel → s.registered channel' = some c →
      c ∈ protocoler.connectionService.connections)
    (hkept : ∀ c ∈ protocoler.connectionService.connections,
      c ∈ s.protocoler.connectionService.connections ∧ c.channel ≠ channel) :
    Registry { s with
      protocoler
      status := Function.update s.status channel .inactive
      registered := Function.update s.registered channel none } := by
  have hold : ∀ channel' c, Function.update s.registered channel none channel' = some c →
      channel' ≠ channel ∧ s.registered channel' = some c := by
    intro channel' c h
    rcases of_update_eq_some h with ⟨_, hnone⟩ | hold
    · cases hnone
    · exact hold
  refine ⟨?_, ?_, ?_, ?_, hs.session⟩
  · intro channel' c h
    obtain ⟨hne, h'⟩ := hold channel' c h
    exact hfound channel' c hne h'
  · intro c hmem
    obtain ⟨hin, hne⟩ := hkept c hmem
    exact (Function.update_of_ne hne ..).trans (hs.known c hin)
  · exact fun channel' c h => hs.stored channel' c (hold channel' c h).2
  · intro channel' c h
    obtain ⟨hne, h'⟩ := hold channel' c h
    exact (Function.update_of_ne hne ..).trans (hs.active channel' c h')

theorem registry_channelInactive (hs : Registry s) (hc : OwnKey s (.channelInactive channel)) :
    Registry (s.channelInactive channel) := by
  unfold Channels.channelInactive
  cases hstored : s.session channel with
  | none =>
      -- no connection has been made for this channel
      refine hs.leave (fun channel' c _ h => hs.found channel' c h) fun c hmem => ⟨hmem, ?_⟩
      rintro rfl
      exact absurd (hstored.symm.trans (hs.stored _ c (hs.known c hmem))) (by simp)
  | some c =>
      -- what was under the key, if anything, was this very connection
      have hown : ∀ c' ∈ s.protocoler.connectionService.connections,
          c'.uniqueKey = c.uniqueKey → c' = c := by
        intro c' hmem hkey
        exact hc c hstored c' (hkey ▸ getConnection_eq_some_iff.mpr hmem)
      refine hs.leave ?_ ?_
      · intro channel' c' hne h
        refine mem_removeConnection.mpr ⟨hs.found channel' c' h, fun hkey => hne ?_⟩
        have hsame := hown c' (hs.found channel' c' h) hkey
        rw [← hs.session channel' c' (hs.stored channel' c' h), hsame]
        exact hs.session channel c hstored
      · intro c' hmem
        obtain ⟨hin, hkey⟩ := mem_removeConnection.mp hmem
        refine ⟨hin, ?_⟩
        rintro rfl
        have hsame := hstored.symm.trans (hs.stored _ c' (hs.known c' hin))
        exact hkey (congrArg Connection.uniqueKey (Option.some.inj hsame).symm)

theorem registry_step {e : ChannelEvent Ch} (hs : Registry s) (hc : OwnKey s e)
    (h : s.step remoteAddress e = some t) : Registry t := by
  cases e with
  | channelActive channel =>
      obtain ⟨hfresh, heq⟩ := Option.ite_none_right_eq_some.mp h
      cases heq
      exact registry_channelActive hs hfresh
  | channelInactive channel =>
      obtain ⟨_, heq⟩ := Option.ite_none_right_eq_some.mp h
      cases heq
      exact registry_channelInactive hs hc

/-- Where somebody else's connection is under the key, it is lost. -/
theorem not_staysRegistered {e : ChannelEvent Ch} (hs : Registry s) (hc : ¬ OwnKey s e)
    (h : s.step remoteAddress e = some t) : ¬ StaysRegistered t := by
  cases e with
  | channelActive channel => exact absurd trivial hc
  | channelInactive channel =>
      simp only [OwnKey, not_forall] at hc
      obtain ⟨c, hstored, c', hget, hdiff⟩ := hc
      obtain ⟨_, heq⟩ := Option.ite_none_right_eq_some.mp h
      cases heq
      have hreg := hs.known c' (mem_of_getConnection hget)
      have hne : c'.channel ≠ channel := by
        rintro rfl
        exact hdiff (Option.some.inj (hstored.symm.trans (hs.stored _ c' hreg))).symm
      intro hstays
      have hfound := hstays c'.channel c' ((Function.update_of_ne hne ..).trans hreg)
      have hmem := mem_of_getConnection hfound
      simp only [Channels.channelInactive, hstored, Protocoler.handleConnectionClosed] at hmem
      exact (mem_removeConnection.mp hmem).2 (uniqueKey_of_getConnection hget)

/--
**Live connections stay in the table in just the runs in which no channel that
becomes inactive finds another channel's connection under its key.**
-/
theorem live_connection_iff (remoteAddress : Ch → String × Nat) (es : List (ChannelEvent Ch)) :
    AllStates (Channels.step remoteAddress) StaysRegistered {} es ↔
      AllSteps (Channels.step remoteAddress) OwnKey {} es :=
  allStates_iff_allSteps (fun _ hs => hs.staysRegistered)
    (fun _ _ _ hs hc h => registry_step hs hc h)
    (fun _ _ _ hs hc h => not_staysRegistered hs hc h) registry_init

/-- The first connection is live, the second is refused and closed, and both are gone. -/
theorem live_connection_lost :
    ¬ ∀ (Ch : Type) [DecidableEq Ch] (remoteAddress : Ch → String × Nat)
      (es : List (ChannelEvent Ch)),
      AllStates (Channels.step remoteAddress) StaysRegistered {} es := by
  intro h
  have hall := h Bool (fun _ => ("10.0.0.2", 8070))
    [.channelActive false, .channelActive true, .channelInactive true]
  obtain ⟨s, hrun, hreg, hget⟩ : ∃ s : Channels Bool,
      exec (Channels.step fun _ => ("10.0.0.2", 8070)) {}
        [.channelActive false, .channelActive true, .channelInactive true] = some s
      ∧ s.registered false = some (.new false ("10.0.0.2", 8070))
      ∧ s.protocoler.connectionService.getConnection "10.0.0.2:8070" = none :=
    ⟨_, rfl, rfl, rfl⟩
  have hfound := hall.last hrun false _ hreg
  exact absurd (hget.symm.trans hfound) (by simp)

end TxLcn.Proof
