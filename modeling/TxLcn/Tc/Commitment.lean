import TxLcn.Tc.Participant
import TxLcn.Tc.Reporter
import TxLcn.Tm.Event

/-!
# One group: its participants, a TM, and what is between them

Participants are named by the `uniqueKey` under which the TM knows their TC. One
of them is the creator; everybody else may join. Requests, replies and commit
events are packets in flight: any of them may be taken next, or never, or be
lost, so they overtake each other as they like. A request is answered, to the
one who sent it, only if its packet is taken while it is still waited for.
Waiting may end at any time without an answer.

That a packet which is taken in time is handed to the thread that waits for it is an
abstraction. In the code both go by a lock, and with the keys under which locks are
registered and looked up no reply and no commit event ever gets into one: of the
runs below, a deployed program has those in which every wait ends without. Neither
is a request a step here that throws an exception instead of ending with null.
-/

namespace TxLcn.Tc

open TxLcn.Lib TxLcn.Protocol TxLcn.Tm

/-- A packet in flight. Requests are numbered by who sends them, and so are their replies. -/
inductive Packet where
  | request (uniqueKey : String) (attempt : Nat) (message : Message)
  | reply (uniqueKey : String) (attempt : Nat) (message : Message)
  | event (uniqueKey : String) (event : TransactionCommitEvent)
  deriving Repr, DecidableEq

/-- Of the messages that the handling of a request sends, those that do not reply to it. -/
def Packet.ofOutbox (attempt : Nat) : String × Message → Packet
  | (uniqueKey, .commit commit) => .event uniqueKey commit
  | (uniqueKey, message) => .reply uniqueKey attempt message

/-- What the TM makes of a request. -/
def requested (message : Message) (uniqueKey : String) (now : Nat) : Option Event :=
  match message with
  | .create event => some (.create event uniqueKey now)
  | .join event => some (.join event uniqueKey now)
  | .notify event => some (.notify event uniqueKey)
  | _ => none

/-- What can happen next. `succeeds` says how the calls on a raw connection end. -/
inductive Action where
  | tryBegin (uniqueKey : String)
  /-- The business ends, and with it the transaction. -/
  | tryEnd (uniqueKey : String) (success : Bool) (capture : Capture)
  /-- The TM handles a request. -/
  | handle (uniqueKey : String) (attempt : Nat) (message : Message) (now : Nat)
  /-- The reply arrives in time. -/
  | answer (uniqueKey : String) (message : Message) (succeeds : RawCall → Bool)
  /-- The request ends with null. -/
  | expire (uniqueKey : String) (succeeds : RawCall → Bool)
  /-- The commit event arrives in time. -/
  | decide (uniqueKey : String) (event : TransactionCommitEvent) (succeeds : RawCall → Bool)
  /-- `maxWaitTransactionTime` has passed. -/
  | giveUp (uniqueKey : String)
  | lose (packet : Packet)

structure Commitment where
  store : String → Option TransactionGroup := fun _ => none
  flight : List Packet := []
  party : String → Participant

namespace Commitment

/-- Nothing has happened yet to the group. -/
def init (groupId creator : String) : Commitment where
  party k := if k = creator then .creator groupId else .joiner groupId

/-- Take a packet out of those in flight. -/
def take (s : Commitment) (packet : Packet) : Option Commitment :=
  if packet ∈ s.flight then some { s with flight := s.flight.erase packet } else none

/-- The participant takes its step, and sends the request that follows from it. -/
def move (applicationName : String → Option String) (s : Commitment) (k : String) :
    Participant.Next → Commitment
  | (p, none) => { s with party := Function.update s.party k p }
  | (p, some message) =>
      -- a `TransactionMessage` gets no random id
      let message := TxManagerReporter.prepare (applicationName k) "" message
      { s with
        flight := s.flight ++ [.request k (p.attempt + 1) message]
        party := Function.update s.party k { p with attempt := p.attempt + 1 } }

/-- The TM handles an event: the store, and the packets that follow. -/
def handle (s : Commitment) (attempt : Nat) (ev : Event) : Commitment :=
  let (out, store) := ev.business.eval s.store
  { s with store, flight := s.flight ++ out.map (Packet.ofOutbox attempt) }

def step (applicationName : String → Option String) (s : Commitment) :
    Action → Option Commitment
  | .tryBegin k =>
      match (s.party k).pc with
      | .idle => some (s.move applicationName k (s.party k).tryBeginTransaction)
      | _ => none
  | .tryEnd k success capture =>
      match (s.party k).pc with
      | .business => some (s.move applicationName k ((s.party k).endBusiness success capture))
      | _ => none
  | .handle k attempt message now => do
      let s ← s.take (.request k attempt message)
      let ev ← requested message k now
      pure (s.handle attempt ev)
  | .answer k message succeeds => do
      let s ← s.take (.reply k (s.party k).attempt message)
      let next ← (s.party k).resume succeeds (some message)
      pure (s.move applicationName k next)
  | .expire k succeeds => do
      let next ← (s.party k).resume succeeds none
      pure (s.move applicationName k next)
  | .decide k event succeeds =>
      match (s.party k).pc with
      | .waiting => do
          let s ← s.take (.event k event)
          pure (s.move applicationName k ((s.party k).decided succeeds (some event), none))
      | _ => none
  | .giveUp k =>
      match (s.party k).pc with
      | .waiting =>
          some (s.move applicationName k ((s.party k).decided (fun _ => true) none, none))
      | _ => none
  | .lose packet => s.take packet

/-! ## What the operations change -/

variable {applicationName : String → Option String} {s t : Commitment} {k : String}
  {packet : Packet} {next : Participant.Next}

theorem take_some (h : s.take packet = some t) :
    packet ∈ s.flight ∧ t = { s with flight := s.flight.erase packet } := by
  unfold take at h
  split at h
  · rename_i hmem
    exact ⟨hmem, (Option.some.inj h).symm⟩
  · exact absurd h (by simp)

/-- The participant is where its step leads, but for the count of its requests. -/
theorem move_self (applicationName : String → Option String) (s : Commitment) (k : String)
    (next : Participant.Next) : ∃ n, (s.move applicationName k next).party k
      = { next.1 with attempt := n } := by
  obtain ⟨p, _ | message⟩ := next
  · exact ⟨p.attempt, Function.update_self ..⟩
  · exact ⟨p.attempt + 1, Function.update_self ..⟩

theorem move_of_ne {k' : String} (h : k' ≠ k) :
    (s.move applicationName k next).party k' = s.party k' := by
  obtain ⟨p, _ | message⟩ := next <;> exact Function.update_of_ne h ..

@[simp] theorem move_store : (s.move applicationName k next).store = s.store := by
  obtain ⟨p, _ | message⟩ := next <;> rfl

theorem mem_move : packet ∈ (s.move applicationName k next).flight ↔ packet ∈ s.flight
    ∨ ∃ message, next.2 = some message ∧ packet = .request k (next.1.attempt + 1)
      (TxManagerReporter.prepare (applicationName k) "" message) := by
  obtain ⟨p, _ | message⟩ := next <;> simp [move]

@[simp] theorem handle_party (attempt : Nat) (ev : Event) :
    (s.handle attempt ev).party = s.party := rfl

/-- Handling a request is one event of the TM. -/
theorem handle_handled (attempt : Nat) (ev : Event) (g : String) : ∃ out : Outbox,
    (s.handle attempt ev).flight = s.flight ++ out.map (Packet.ofOutbox attempt)
      ∧ Handled (fun _ => true) g { store := s.store } ev
        { store := (s.handle attempt ev).store, sent := out } := by
  refine ⟨(ev.business.eval s.store).1, rfl, ?_⟩
  have hstep : TmState.step (fun _ => true) { store := s.store } ev = some
      { store := (s.handle attempt ev).store, sent := (ev.business.eval s.store).1 } := by
    rw [step_eq, List.nil_append, sendMsg, List.filter_true]
    rfl
  exact step_handled hstep g

end Commitment

end TxLcn.Tc
