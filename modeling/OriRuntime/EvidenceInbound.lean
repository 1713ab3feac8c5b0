import OriRuntime.Execution

/-!
# The inbound evidence route

Client callbacks of any session, the routes of the messages they admit, and the sessions the serve
loop begins and closes. A message moves through the lines of `_on_message` and of its route; what
two lines read or write is two steps, so that any other thread may come between.
-/

namespace OriRuntime

def INBOUND_IN_FLIGHT_BOUND : ℕ := 16

/-- `PAYLOAD_MAXIMA[EVIDENCE_INBOUND]` -/
def EVIDENCE_INBOUND_MAXIMUM : ℕ := 1114112

structure InboundSession where
  isOpen : Bool := true
  connected : Bool := false
  lost : Bool := false
  redeliver : Bool := false
  owed : Bool := false
  owedAfterFailure : Bool := false
  owedAfterRate : Bool := false
  redeliverAfterFailure : Bool := false
  redeliverAfterRate : Bool := false
  pending : Bool := false
deriving DecidableEq, Repr

namespace InboundSession

variable (ses : InboundSession)

def owe (failed rate : Bool) : InboundSession :=
  { ses with
    owed := true
    owedAfterFailure := ses.owedAfterFailure || failed
    owedAfterRate := ses.owedAfterRate || rate }

def redeliverOwed : InboundSession :=
  if ses.owed = false then ses
  else
    { ses with
      owed := false
      redeliverAfterFailure := ses.redeliverAfterFailure || ses.owedAfterFailure
      redeliverAfterRate := ses.redeliverAfterRate || ses.owedAfterRate
      owedAfterFailure := false
      owedAfterRate := false
      pending := true }

def setConnected (connected : Bool) : InboundSession :=
  if ses.isOpen = false then ses else { ses with connected := connected }

def close : InboundSession := { ses with isOpen := false, connected := false }

/-- The event that `redeliver_owed` asked the loop to set. -/
def wake : InboundSession := if ses.pending = false then ses else { ses with redeliver := true }

end InboundSession

/-- Where a message is between its callback and the end of its route. -/
inductive InboundPhase
  | arrived
  | admitting
  | oversized
  | overRate
  | admitted
  | shed
  | leaving
  | reconnecting
  | scheduling
  | undone
  | scheduled
  | routing
  | returned
  | acknowledging
  | unacknowledged
  | giving
  | freed
  | settling (session : ℕ)
  | done
deriving DecidableEq, Repr

namespace InboundPhase

def holdsSlot : InboundPhase → Bool
  | .scheduling | .undone | .scheduled | .routing | .returned | .acknowledging | .unacknowledged
  | .giving => true
  | _ => false

/-- In its callback, or between giving its slot back and settling what is owed. -/
def midway : InboundPhase → Bool
  | .arrived | .admitting | .oversized | .overRate | .admitted | .shed | .leaving | .reconnecting
  | .scheduling | .freed | .settling _ => true
  | _ => false

end InboundPhase

inductive InboundAck
  | none
  | inThread
  | ran (accepted : Bool)
deriving DecidableEq, Repr

/-- `routed` and `acked` are what happened to the message: its route returned, the client took its
acknowledgement. -/
structure InboundMessage where
  session : ℕ
  mid : Option ℕ
  length : ℕ
  phase : InboundPhase := .arrived
  ack : InboundAck := .none
  routed : Bool := false
  acked : Bool := false
deriving DecidableEq, Repr

def InboundMessage.tooLarge (m : InboundMessage) : Bool := decide (EVIDENCE_INBOUND_MAXIMUM < m.length)

structure InboundState where
  sessions : List InboundSession := []
  current : Option ℕ := none
  manualAck : Bool := false
  taken : ℕ := 0
  messages : List InboundMessage := []
deriving DecidableEq, Repr

namespace InboundState

variable (s : InboundState)

def onSession (k : ℕ) (f : InboundSession → InboundSession) : InboundState :=
  { s with sessions := s.sessions.modify k f }

def setMessage (i : ℕ) (m : InboundMessage) : InboundState :=
  { s with messages := s.messages.set i m }

def setPhase (i : ℕ) (m : InboundMessage) (phase : InboundPhase) : InboundState :=
  s.setMessage i { m with phase := phase }

/-- A step of the message `i`, which is in `phase`. -/
def inPhase (i : ℕ) (phase : InboundPhase) (f : InboundMessage → Option InboundState) :
    Option InboundState :=
  match s.messages[i]? with
  | none => none
  | some m => if m.phase = phase then f m else none

/-! ### The serve loop and the session's callbacks -/

def beginSession (manualAck : Bool) : Option InboundState :=
  let fresh : InboundState :=
    { s with
      sessions := s.sessions ++ [{}]
      current := some s.sessions.length
      manualAck := manualAck }
  match s.current with
  | none => some fresh
  | some k =>
    match s.sessions[k]? with
    | none => none
    | some ses => if ses.isOpen = true then none else some fresh

def close : Option InboundState :=
  match s.current with
  | none => none
  | some k => some (s.onSession k InboundSession.close)

def signalLost (k : ℕ) : InboundState := s.onSession k fun ses => { ses with lost := true }

/-- `_on_connect`, by whether the broker took the connection and the subscribe was sent. -/
def onConnect (k : ℕ) (ok : Bool) : InboundState := if ok = true then s else s.signalLost k

def onSubscribe (k : ℕ) (granted : Bool) : InboundState :=
  if granted = true then s.onSession k fun ses => ses.setConnected true
  else (s.onSession k fun ses => ses.setConnected false).signalLost k

def onDisconnect (k : ℕ) : InboundState :=
  s.onSession k fun ses =>
    if ses.isOpen = false then ses else { ses.setConnected false with lost := true }

/-! ### `_on_message` -/

def deliver (k : ℕ) (mid : Option ℕ) (length : ℕ) : Option InboundState :=
  if k < s.sessions.length then
    some { s with messages := s.messages ++ [{ session := k, mid := mid, length := length }] }
  else none

def look (i : ℕ) : Option InboundState :=
  s.inPhase i .arrived fun m =>
    match s.sessions[m.session]? with
    | none => none
    | some ses =>
      if ses.pending = true ∨ ses.isOpen = false then
        if m.tooLarge = true then some (s.setPhase i m .oversized) else some (s.setPhase i m .done)
      else some (s.setPhase i m .admitting)

def admission (i : ℕ) (overRate : Bool) : Option InboundState :=
  s.inPhase i .admitting fun m =>
    if m.tooLarge = true then some (s.setPhase i m .oversized)
    else if overRate = true then some (s.setPhase i m .overRate)
    else some (s.setPhase i m .admitted)

/-- `_release`, by what the client answers. -/
def release (i : ℕ) (accepted : Bool) : Option InboundState :=
  s.inPhase i .oversized fun m =>
    if s.manualAck = false ∨ m.mid = none then some (s.setPhase i m .done)
    else some (s.setMessage i { m with phase := .done, ack := .ran accepted, acked := accepted })

def tryTake (i : ℕ) : Option InboundState :=
  s.inPhase i .admitted fun m =>
    if INBOUND_IN_FLIGHT_BOUND ≤ s.taken then some (s.setPhase i m .shed)
    else some { s.setPhase i m .scheduling with taken := s.taken + 1 }

/-- Every `owe` of the module, by the line the message is at. -/
def owe (i : ℕ) : Option InboundState :=
  match s.messages[i]? with
  | none => none
  | some m =>
    match m.phase with
    | .overRate => some ((s.onSession m.session fun ses => ses.owe false true).setPhase i m .leaving)
    | .shed => some ((s.onSession m.session fun ses => ses.owe false false).setPhase i m .leaving)
    | .undone => some ((s.onSession m.session fun ses => ses.owe true false).setPhase i m .giving)
    | .unacknowledged =>
      if s.manualAck = false ∨ m.mid = none then some (s.setPhase i m .giving)
      else some ((s.onSession m.session fun ses => ses.owe true false).setPhase i m .giving)
    | _ => none

/-- The second half of `_leave_with_broker`. -/
def readSlots (i : ℕ) : Option InboundState :=
  s.inPhase i .leaving fun m =>
    if s.taken = 0 then some (s.setPhase i m .reconnecting) else some (s.setPhase i m .done)

def schedule (i : ℕ) (ok : Bool) : Option InboundState :=
  s.inPhase i .scheduling fun m =>
    if ok = true then some (s.setPhase i m .scheduled) else some (s.setPhase i m .undone)

/-! ### The route of an admitted message -/

def start (i : ℕ) : Option InboundState :=
  s.inPhase i .scheduled fun m => some (s.setPhase i m .routing)

/-- Cancelled before it started: `_settled`. -/
def cancel (i : ℕ) : Option InboundState :=
  s.inPhase i .scheduled fun m => some (s.setPhase i m .undone)

def routeReturns (i : ℕ) : Option InboundState :=
  s.inPhase i .routing fun m => some (s.setMessage i { m with phase := .returned, routed := true })

def routeFails (i : ℕ) : Option InboundState :=
  s.inPhase i .routing fun m => some (s.setPhase i m .unacknowledged)

/-- `_acknowledge` up to its wait, by whether the route's thread takes the call. -/
def acknowledge (i : ℕ) (ok : Bool) : Option InboundState :=
  s.inPhase i .returned fun m =>
    if s.manualAck = false ∨ m.mid = none then some (s.setPhase i m .giving)
    else if ok = true then
      some (s.setMessage i { m with phase := .acknowledging, ack := .inThread })
    else some (s.setPhase i m .unacknowledged)

/-- The client is asked on the route's own thread, whether or not the route still waits for it. -/
def ackRuns (i : ℕ) (accepted : Bool) : Option InboundState :=
  match s.messages[i]? with
  | none => none
  | some m =>
    if m.ack = .inThread then
      some (s.setMessage i { m with ack := .ran accepted, acked := m.acked || accepted })
    else none

def ackReturns (i : ℕ) : Option InboundState :=
  s.inPhase i .acknowledging fun m =>
    match m.ack with
    | .ran true => some (s.setPhase i m .giving)
    | .ran false => some (s.setPhase i m .unacknowledged)
    | _ => none

/-- The route is cancelled while it waits; a call that has not begun may be dropped with it. -/
def ackCancelled (i : ℕ) (dropped : Bool) : Option InboundState :=
  s.inPhase i .acknowledging fun m =>
    if dropped = true ∧ m.ack = .inThread then
      some (s.setMessage i { m with phase := .unacknowledged, ack := .none })
    else some (s.setPhase i m .unacknowledged)

/-! ### `_give_back` -/

def giveBack (i : ℕ) : Option InboundState :=
  s.inPhase i .giving fun m =>
    if 0 < s.taken - 1 then some { s.setPhase i m .done with taken := s.taken - 1 }
    else some { s.setPhase i m .freed with taken := s.taken - 1 }

def readSession (i : ℕ) : Option InboundState :=
  s.inPhase i .freed fun m =>
    match s.current with
    | none => some (s.setPhase i m .done)
    | some k => some (s.setPhase i m (.settling k))

def redeliverOwed (i : ℕ) : Option InboundState :=
  match s.messages[i]? with
  | none => none
  | some m =>
    match m.phase with
    | .reconnecting => some ((s.onSession m.session InboundSession.redeliverOwed).setPhase i m .done)
    | .settling k => some ((s.onSession k InboundSession.redeliverOwed).setPhase i m .done)
    | _ => none

end InboundState

inductive InboundStep
  | beginSession (manualAck : Bool)
  | close
  | onConnect (k : ℕ) (ok : Bool)
  | onSubscribe (k : ℕ) (granted : Bool)
  | onDisconnect (k : ℕ)
  | wake (k : ℕ)
  | deliver (k : ℕ) (mid : Option ℕ) (length : ℕ)
  | look (i : ℕ)
  | admission (i : ℕ) (overRate : Bool)
  | release (i : ℕ) (accepted : Bool)
  | tryTake (i : ℕ)
  | owe (i : ℕ)
  | readSlots (i : ℕ)
  | schedule (i : ℕ) (ok : Bool)
  | start (i : ℕ)
  | cancel (i : ℕ)
  | routeReturns (i : ℕ)
  | routeFails (i : ℕ)
  | acknowledge (i : ℕ) (ok : Bool)
  | ackRuns (i : ℕ) (accepted : Bool)
  | ackReturns (i : ℕ)
  | ackCancelled (i : ℕ) (dropped : Bool)
  | giveBack (i : ℕ)
  | readSession (i : ℕ)
  | redeliverOwed (i : ℕ)
deriving DecidableEq, Repr

def inboundStep (s : InboundState) : InboundStep → Option InboundState
  | .beginSession manualAck => s.beginSession manualAck
  | .close => s.close
  | .onConnect k ok => some (s.onConnect k ok)
  | .onSubscribe k granted => some (s.onSubscribe k granted)
  | .onDisconnect k => some (s.onDisconnect k)
  | .wake k => some (s.onSession k InboundSession.wake)
  | .deliver k mid length => s.deliver k mid length
  | .look i => s.look i
  | .admission i overRate => s.admission i overRate
  | .release i accepted => s.release i accepted
  | .tryTake i => s.tryTake i
  | .owe i => s.owe i
  | .readSlots i => s.readSlots i
  | .schedule i ok => s.schedule i ok
  | .start i => s.start i
  | .cancel i => s.cancel i
  | .routeReturns i => s.routeReturns i
  | .routeFails i => s.routeFails i
  | .acknowledge i ok => s.acknowledge i ok
  | .ackRuns i accepted => s.ackRuns i accepted
  | .ackReturns i => s.ackReturns i
  | .ackCancelled i dropped => s.ackCancelled i dropped
  | .giveBack i => s.giveBack i
  | .readSession i => s.readSession i
  | .redeliverOwed i => s.redeliverOwed i

end OriRuntime
