import TxLcn.Tc.Commitment

/-!
# Many groups, and the TMs at work for them

Any number of groups run at the same time, over one store. A TM hands each request
to a thread, which takes the Redis commands of its business one by one and then
puts what it has to send on the connections, message by message; all of this falls
between the steps of other threads, of other TMs and of the participants. A thread
may stop wherever it is: its TM goes down, or a command throws.
-/

namespace TxLcn.Tc

open TxLcn.Lib TxLcn.Protocol TxLcn.Tm

/-- A thread of a TM, at work on a request. -/
structure TmThread where
  uniqueKey : String
  attempt : Nat
  message : Message
  now : Nat
  /-- What is left of its business; once that has returned, what is left to be sent. -/
  rest : Prog String TransactionGroup Outbox
  /-- For the record only: a command has been taken. -/
  begun : Bool := false

/-- Its business is between two of its commands. -/
def TmThread.underway (h : TmThread) : Bool := h.begun && !h.rest.isRet

/-- What the thread still has: the request, or what is to be sent. -/
def TmThread.pending (h : TmThread) : List Packet :=
  match h.rest with
  | .ret out => out.map (Packet.ofOutbox h.attempt)
  | _ => [.request h.uniqueKey h.attempt h.message]

structure Groups where
  store : String → Option TransactionGroup := fun _ => none
  /-- What is between the participants of a group and the TMs. -/
  flight : String → List Packet := fun _ => []
  threads : String → List TmThread := fun _ => []
  party : String → String → Participant

namespace Groups

/-- The number of a thread is its place in the list of the group. -/
inductive Event where
  /-- A participant of the group takes a step, or a packet gets lost. -/
  | act (groupId : String) (action : Action)
  | begin (groupId uniqueKey : String) (attempt : Nat) (message : Message) (now : Nat)
  | command (groupId : String) (i : Nat)
  | send (groupId : String) (i : Nat)
  | stop (groupId : String) (i : Nat)

def Event.groupId : Event → String
  | act groupId _ => groupId
  | begin groupId _ _ _ _ => groupId
  | command groupId _ => groupId
  | send groupId _ => groupId
  | stop groupId _ => groupId

/-- Nothing has happened yet to any group. -/
def init (creator : String → String) : Groups where
  party g := (Commitment.init g (creator g)).party

/-- The participants of a group, and what is on the way to or from them. -/
def group (s : Groups) (g : String) : Commitment where
  store := s.store
  flight := s.flight g
  party := s.party g

def setGroup (s : Groups) (g : String) (group : Commitment) : Groups :=
  { s with
    flight := Function.update s.flight g group.flight
    party := Function.update s.party g group.party }

def setThread (s : Groups) (g : String) (i : Nat) (h : TmThread) : Groups :=
  { s with threads := Function.update s.threads g ((s.threads g).set i h) }

/-- A commit event is for those who wait for the group it names, a reply for who has asked. -/
def addressee (g : String) : Message → Option String
  | .commit event => event.groupId
  | _ => some g

def put (s : Groups) (packet : Packet) : Option String → Groups
  | some g => { s with flight := Function.update s.flight g (s.flight g ++ [packet]) }
  | none => s

def step (applicationName : String → Option String) (s : Groups) : Event → Option Groups
  -- handling a request takes steps of its own here
  | .act _ (.handle _ _ _ _) => none
  | .act g action => ((s.group g).step applicationName action).map (s.setGroup g)
  | .begin g uniqueKey attempt message now => do
      let group ← (s.group g).take (.request uniqueKey attempt message)
      let ev ← requested message uniqueKey now
      let h : TmThread := { uniqueKey, attempt, message, now, rest := ev.business }
      pure { s.setGroup g group with
        threads := Function.update s.threads g (s.threads g ++ [h]) }
  | .command g i => do
      let h ← (s.threads g)[i]?
      let (rest, store) ← h.rest.step s.store
      pure { s.setThread g i { h with rest, begun := true } with store }
  | .send g i => do
      let h ← (s.threads g)[i]?
      match h.rest with
      | .ret (msg :: out) =>
          some ((s.setThread g i { h with rest := .ret out }).put
            (Packet.ofOutbox h.attempt msg) (addressee g msg.2))
      | _ => none
  | .stop g i => do
      let h ← (s.threads g)[i]?
      pure (s.setThread g i { h with rest := .ret [] })

/-! ## What the operations change -/

variable {s t : Groups} {g k : String} {i : Nat} {h : TmThread} {group : Commitment}

theorem pending_of_working (hret : h.rest.isRet = false) :
    h.pending = [.request h.uniqueKey h.attempt h.message] := by
  unfold TmThread.pending
  split
  · rename_i hrest
    rw [hrest] at hret
    cases hret
  · rfl

theorem pending_of_returned {out : Outbox} (hrest : h.rest = .ret out) :
    h.pending = out.map (Packet.ofOutbox h.attempt) := by
  rw [TmThread.pending, hrest]

@[simp] theorem setGroup_flight_self : (s.setGroup g group).flight g = group.flight :=
  Function.update_self ..

@[simp] theorem setGroup_party_self : (s.setGroup g group).party g = group.party :=
  Function.update_self ..

theorem setGroup_flight_of_ne (hk : k ≠ g) : (s.setGroup g group).flight k = s.flight k :=
  Function.update_of_ne hk ..

theorem setGroup_party_of_ne (hk : k ≠ g) : (s.setGroup g group).party k = s.party k :=
  Function.update_of_ne hk ..

@[simp] theorem setThread_self :
    (s.setThread g i h).threads g = (s.threads g).set i h :=
  Function.update_self ..

theorem setThread_of_ne (hk : k ≠ g) :
    (s.setThread g i h).threads k = s.threads k :=
  Function.update_of_ne hk ..

end Groups

end TxLcn.Tc
