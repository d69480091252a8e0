import TxLcn.Tm.LoadBalancer

/-!
# Events on their way between TMs

TMs and TCs at the two ends of connections, with messages in flight. A packet
may be delivered at any time or never. A TM that handles a message finds in its
table whatever it then holds: the table, the registry and the answers of the
beans come with the event. A thread that waits for an answer goes on at any
time, with the answer or, after the timeout, without.

What leads where does not change: a key is the host and port of one peer.
-/

namespace TxLcn.Tm

open TxLcn.Lib TxLcn.Protocol

variable {Tm Tc : Type}

def Peer.isTm : Peer Tm Tc → Bool
  | tm _ => true
  | tc _ => false

/-- A message on a connection. -/
structure Parcel (Tm Tc : Type) where
  source : Peer Tm Tc
  target : Peer Tm Tc
  message : Message
  /-- For the record only: it does not ask for anything, it answers or announces. -/
  reply : Bool
  deriving Repr, DecidableEq

/-- A thread that waits in `LoadBalancerInterceptor.handle`. -/
structure Waiting (Tm Tc : Type) where
  connection : Connection (Peer Tm Tc)
  absMessage : Message
  /-- The key its lock is registered under, and what has been put into the lock. -/
  messageId : Option String
  answer : Option Message := none

/--
The system. For the record only: how often a business has been executed, and
whether a TM that handled a reply has put anything on a connection to a TM.
-/
structure Forwarding (Tm Tc : Type) where
  flight : List (Parcel Tm Tc) := []
  leader : Tm → Option (Connection (Peer Tm Tc)) := fun _ => none
  waiting : Tm → List (Waiting Tm Tc) := fun _ => []
  executed : Nat := 0
  resent : Bool := false

/-- What can happen next. -/
inductive Delivery (Tm Tc : Type) where
  /-- The message comes in on `connection`. -/
  | deliver (parcel : Parcel Tm Tc) (connection : Connection (Peer Tm Tc))
      (ctx : TmContext (Peer Tm Tc))
  /-- A thread of the TM that has waited goes on. -/
  | resume (tm : Tm) (index : Nat) (ctx : TmContext (Peer Tm Tc))

namespace Forwarding

/-- The parcels that acts of `tm` put on its connections. -/
def parcels (tm : Tm) (reply : Bool) (acts : List (Act (Peer Tm Tc))) : List (Parcel Tm Tc) :=
  acts.filterMap fun
    | .sent connection message =>
        some { source := .tm tm, target := connection.channel, message, reply }
    | .executed _ => none

/-- `AbsMessage.handle`: the message goes to the thread that waits for its id. -/
def wake (m : Message) : List (Waiting Tm Tc) → List (Waiting Tm Tc)
  | [] => []
  | w :: rest =>
      if m.messageId.isSome ∧ w.messageId = m.messageId ∧ w.answer.isNone then
        { w with answer := some m } :: rest
      else w :: wake m rest

/-- Where a call of the interceptor leaves a thread of the TM. -/
def waits (connection : Connection (Peer Tm Tc)) :
    Handling (Peer Tm Tc) → List (Waiting Tm Tc)
  | .requesting _ tmMessage absMessage =>
      [{ connection, absMessage, messageId := tmMessage.messageId }]
  | _ => []

variable [DecidableEq Tm]

/-- What a call on `tm` has done so far. -/
def perform (s : Forwarding Tm Tc) (tm : Tm) (handling : Handling (Peer Tm Tc)) :
    Forwarding Tm Tc :=
  { s with
    flight := s.flight ++ parcels tm (!handling.isRequesting) handling.acts
    executed := s.executed + (executions handling.acts).length }

/-- `message.handle` on a TM, for the events that hand themselves to the load balancer. -/
def receive (s : Forwarding Tm Tc) (tm : Tm) (reply : Bool)
    (connection : Connection (Peer Tm Tc)) (ctx : TmContext (Peer Tm Tc)) (m : Message) :
    Forwarding Tm Tc :=
  let woken := wake m (s.waiting tm)
  let (leader, handling) := LoadBalancerInterceptor.handle ctx connection (s.leader tm) m
  { s.perform tm handling with
    leader := Function.update s.leader tm leader
    waiting := Function.update s.waiting tm (woken ++ waits connection handling)
    resent := s.resent ||
      (reply && (parcels tm true handling.acts).any fun parcel => parcel.target.isTm) }

/-- The rest of a call on `tm`. -/
def goOn (s : Forwarding Tm Tc) (tm : Tm) (index : Nat) (w : Waiting Tm Tc)
    (ctx : TmContext (Peer Tm Tc)) : Forwarding Tm Tc :=
  { s.perform tm (LoadBalancerInterceptor.resume ctx w.connection w.absMessage w.answer) with
    waiting := Function.update s.waiting tm ((s.waiting tm).eraseIdx index) }

variable [DecidableEq Tc]

/-- The connections of a TM lead where their keys say. -/
def Wired (peer : Tm → String → Peer Tm Tc) (tm : Tm) (ctx : TmContext (Peer Tm Tc)) : Prop :=
  ∀ c ∈ ctx.table.connections, peer tm c.uniqueKey = c.channel

instance (peer : Tm → String → Peer Tm Tc) (tm : Tm) (ctx : TmContext (Peer Tm Tc)) :
    Decidable (Wired peer tm ctx) :=
  inferInstanceAs (Decidable (∀ c ∈ ctx.table.connections, peer tm c.uniqueKey = c.channel))

/-- `peer` says of a TM where its connection with a key leads to. -/
def step (peer : Tm → String → Peer Tm Tc) (s : Forwarding Tm Tc) :
    Delivery Tm Tc → Option (Forwarding Tm Tc)
  | .deliver parcel connection ctx =>
      if parcel ∈ s.flight then
        let s := { s with flight := s.flight.erase parcel }
        match parcel.target with
        -- a TC wakes a thread at most
        | .tc _ => some s
        | .tm tm =>
            if Wired peer tm ctx ∧ peer tm connection.uniqueKey = parcel.source then
              match parcel.message with
              | .commit _ => some { s with
                  waiting := Function.update s.waiting tm (wake parcel.message (s.waiting tm)) }
              -- answered without the load balancer
              | .otherTmNode _ => none
              | message => some (s.receive tm parcel.reply connection ctx message)
            else none
      else none
  | .resume tm index ctx =>
      if Wired peer tm ctx then
        (s.waiting tm)[index]?.map fun w => s.goOn tm index w ctx
      else none

/-- What a step can be. -/
inductive Moved (peer : Tm → String → Peer Tm Tc) (s : Forwarding Tm Tc) :
    Delivery Tm Tc → Forwarding Tm Tc → Prop where
  | atTc {parcel : Parcel Tm Tc} {connection : Connection (Peer Tm Tc)}
      {ctx : TmContext (Peer Tm Tc)} : parcel ∈ s.flight → parcel.target.isTm = false →
      Moved peer s (.deliver parcel connection ctx) { s with flight := s.flight.erase parcel }
  | announced {parcel : Parcel Tm Tc} {connection : Connection (Peer Tm Tc)}
      {ctx : TmContext (Peer Tm Tc)} {tm : Tm} : parcel ∈ s.flight →
      parcel.message.balanced = false →
      Moved peer s (.deliver parcel connection ctx) { s with
        flight := s.flight.erase parcel
        waiting := Function.update s.waiting tm (wake parcel.message (s.waiting tm)) }
  | received {parcel : Parcel Tm Tc} {connection : Connection (Peer Tm Tc)}
      {ctx : TmContext (Peer Tm Tc)} {tm : Tm} : parcel ∈ s.flight → parcel.target = .tm tm →
      Wired peer tm ctx → peer tm connection.uniqueKey = parcel.source →
      parcel.message.balanced = true →
      Moved peer s (.deliver parcel connection ctx)
        ({ s with flight := s.flight.erase parcel }.receive tm parcel.reply connection ctx
          parcel.message)
  | resumed {tm : Tm} {index : Nat} {ctx : TmContext (Peer Tm Tc)} {w : Waiting Tm Tc} :
      Wired peer tm ctx → w ∈ s.waiting tm →
      Moved peer s (.resume tm index ctx) (s.goOn tm index w ctx)

theorem step_moved {peer : Tm → String → Peer Tm Tc} {s t : Forwarding Tm Tc}
    {e : Delivery Tm Tc} (h : s.step peer e = some t) : Moved peer s e t := by
  cases e with
  | deliver parcel connection ctx =>
      simp only [step] at h
      split at h
      · rename_i hmem
        split at h
        · rename_i tc htarget
          cases h
          exact .atTc hmem (by rw [htarget]; rfl)
        · rename_i tm htarget
          split at h
          · rename_i hwired
            split at h
            · rename_i event hmessage
              cases h
              exact .announced hmem (by rw [hmessage]; rfl)
            · cases h
            · rename_i hcommit hother
              have hbal : parcel.message.balanced = true := by
                cases hm : parcel.message with
                | commit event => exact absurd hm (hcommit event)
                | otherTmNode event => exact absurd hm (hother event)
                | _ => rfl
              cases h
              exact .received hmem htarget hwired.1 hwired.2 hbal
          · cases h
      · cases h
  | resume tm index ctx =>
      simp only [step] at h
      split at h
      · rename_i hwired
        obtain ⟨w, hw, rfl⟩ := Option.map_eq_some_iff.mp h
        exact .resumed hwired (List.mem_of_getElem? hw)
      · cases h

/-- A TC has sent its request. -/
def requested (tc : Tc) (tm : Tm) (request : Message) : Forwarding Tm Tc :=
  { flight := [{ source := .tc tc, target := .tm tm, message := request, reply := false }] }

end Forwarding

end TxLcn.Tm
