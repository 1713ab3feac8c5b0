import OriRuntime.OutboxGrowth

/-!
# The outbound route

A drain carries what the ledger holds to the courier: envelopes awaiting custody, then the earliest
checkpoint, then registration copies, then registrations to be offered again. One drain runs at a
time and may be cut at any await; the call it was waiting for may then still take effect. The client
is called on a thread of its own, in the order in which the calls were made. Acknowledgements are
applied between any two awaits of a drain, and so is everything else that is asked of the ledger.
-/

namespace OriRuntime

namespace OutboundRoute

def drainBatch : ℕ := 50
def maxDoublings : ℕ := 16

/-- Why a retained copy's bytes cannot be carried as sealed. Bytes that are not UTF-8 are written
as surrogates, which no UTF-8 text holds. -/
def copyFault (l : EvidenceDeliveryLedger) (wire digest : Text) : Option FaultReason :=
  if wire.any (fun c => decide (0xD800 ≤ c.val ∧ c.val ≤ 0xDFFF)) then some .unreadable
  else if text "sha256:" ++ l.keys.sha256 wire ≠ digest then some .digestMismatch
  else none

/-- The delay doubles from thirty seconds to fifteen minutes, and a clock moved back ends it. -/
def retryDue (attempts : ℕ) (lastAttemptMs : Option ℤ) (atMs : ℤ) : Bool :=
  match lastAttemptMs with
  | none => true
  | some last => decide (attempts = 0 ∨ atMs < last ∨
      min (30000 * 2 ^ min (attempts - 1) maxDoublings) 900000 ≤ atMs - last)

/-! ### A drain -/

/-- A copy a drain has in hand, and what it goes on with: the rest of the page and the number
published in the stage, or the passes left to find the earliest checkpoint. -/
inductive InHand where
  | envelope (row : LedgerRow) (rest : List LedgerRow) (published : ℕ)
  | checkpoint (row : OutboxRow) (passes : ℕ)
  | registration (row : OutboxRow) (rest : List OutboxRow) (published : ℕ)
  | reoffer (o : Obligation) (rest : List Obligation)

/-- What was carried: the artifact by its holder and number there. -/
inductive Carried where
  | envelope (localSeq : ℕ)
  | copy (artifactType : ArtifactType) (id : ℕ)
  | reoffer (id : ℕ)
  deriving DecidableEq

structure Publication where
  drain : ℕ
  carried : Carried
  wire : Text
  digest : Text
  deriving DecidableEq

namespace InHand

def wire : InHand → Text
  | envelope row _ _ => row.envelopeJson
  | checkpoint row _ => row.artifactJson
  | registration row _ _ => row.artifactJson
  | reoffer o _ => o.artifactJson

def digest : InHand → Text
  | envelope row _ _ => row.envelopeDigest
  | checkpoint row _ => row.artifactDigest
  | registration row _ _ => row.artifactDigest
  | reoffer o _ => o.artifactDigest

def carried : InHand → Carried
  | envelope row _ _ => .envelope row.localSeq
  | checkpoint row _ => .copy .checkpoint row.id
  | registration row _ _ => .copy .anchorRegistration row.id
  | reoffer o _ => .reoffer o.id

/-- The fault recorded of a copy. -/
def faultOp (reason : FaultReason) (atMs : ℤ) : InHand → LedgerOp
  | envelope row _ _ => .recordArtifactFault .envelope row.localSeq reason atMs
  | checkpoint row _ => .recordArtifactFault .outbox row.id reason atMs
  | registration row _ _ => .recordArtifactFault .outbox row.id reason atMs
  | reoffer o _ => .recordArtifactFault .obligation o.id reason atMs

/-- The attempt recorded before the bytes leave. -/
def attemptOp (atMs : ℤ) : InHand → LedgerOp
  | envelope row _ _ => .recordAttempt row.localSeq atMs none
  | checkpoint row _ => .noteArtifactAttempt row.artifactDigest atMs
  | registration row _ _ => .noteArtifactAttempt row.artifactDigest atMs
  | reoffer o _ => .noteRegistrationOffer o.artifactDigest atMs

/-- Whether it may still be carried, asked again just before. -/
def stillOffered (l : EvidenceDeliveryLedger) (t : Tables) (atMs : ℤ) : InHand → Bool
  | envelope row _ _ => !(t.awaitingCustody 1 0 (some row.localSeq)).isEmpty
  | checkpoint row _ => !(t.pendingArtifacts l 1 none 0 (some row.id)).isEmpty
  | registration row _ _ => !(t.pendingArtifacts l 1 none 0 (some row.id)).isEmpty
  | reoffer o _ => !(t.registrationReoffersDue l atMs 1 (some o.id)).isEmpty

def publication (drain : ℕ) (h : InHand) : Publication := ⟨drain, h.carried, h.wire, h.digest⟩

end InHand

/-- What a drain is waiting for. -/
inductive Await where
  | envelopePage (after published : ℕ)
  | checkpointHead (passes : ℕ)
  | registrationPage (after published : ℕ)
  | reofferPage
  | fault (h : InHand) (reason : FaultReason)
  | check (h : InHand)
  | attempt (h : InHand)
  | handOver (h : InHand)
  | publish (h : InHand)
  | unreachable (localSeq : ℕ)

section Drain

variable (l : EvidenceDeliveryLedger) (atMs : ℤ)

/-- `_carriable`: a copy that cannot be carried as sealed has its fault recorded. -/
def carriable (h : InHand) : Await :=
  match copyFault l h.wire h.digest with
  | some reason => .fault h reason
  | none => .check h

/-- The next due row of a page of envelopes, or the page after it. -/
def nextEnvelope : List LedgerRow → ℕ → ℕ → Await
  | [], after, published => .envelopePage after published
  | row :: rest, _, published =>
    if retryDue row.delivery.attempts row.delivery.lastAttemptMs atMs then
      carriable l (.envelope row rest published)
    else nextEnvelope rest row.localSeq published

def findCheckpoint : ℕ → Await
  | 0 => .registrationPage 0 0
  | passes + 1 => .checkpointHead (passes + 1)

/-- A checkpoint is checked before its schedule: when the earliest is not due, the later wait. -/
def headCheckpoint (row : OutboxRow) (passes : ℕ) : Await :=
  match copyFault l row.artifactJson row.artifactDigest with
  | some reason => .fault (.checkpoint row passes) reason
  | none =>
    if retryDue row.attempts row.lastAttemptMs atMs then .check (.checkpoint row passes)
    else .registrationPage 0 0

def nextRegistration : List OutboxRow → ℕ → ℕ → Await
  | [], after, published => .registrationPage after published
  | row :: rest, _, published =>
    if retryDue row.attempts row.lastAttemptMs atMs then
      carriable l (.registration row rest published)
    else nextRegistration rest row.id published

def nextReoffer : List Obligation → Option Await
  | [] => none
  | o :: rest => some (carriable l (.reoffer o rest))

def afterFault : InHand → Option Await
  | .envelope row rest published => some (nextEnvelope l atMs rest row.localSeq published)
  | .checkpoint _ passes => some (findCheckpoint passes)
  | .registration row rest published => some (nextRegistration l atMs rest row.id published)
  | .reoffer _ rest => nextReoffer l rest

def afterHeld : InHand → Option Await
  | .envelope row rest published => some (nextEnvelope l atMs rest row.localSeq published)
  | .checkpoint _ _ => some (.registrationPage 0 0)
  | .registration row rest published => some (nextRegistration l atMs rest row.id published)
  | .reoffer _ rest => nextReoffer l rest

def afterPublish : InHand → Option Await
  | .envelope row rest published =>
    if drainBatch ≤ published + 1 then some (findCheckpoint drainBatch)
    else some (nextEnvelope l atMs rest row.localSeq (published + 1))
  | .checkpoint _ _ => some (.registrationPage 0 0)
  | .registration row rest published =>
    if drainBatch ≤ published + 1 then some .reofferPage
    else some (nextRegistration l atMs rest row.id (published + 1))
  | .reoffer _ rest => nextReoffer l rest

/-- The route failed: the drain ends, once an envelope's failure is recorded. -/
def afterFailure : InHand → Option Await
  | .envelope row _ _ => some (.unreachable row.localSeq)
  | _ => none

end Drain

/-! ### Acknowledgements -/

inductive CourierAnswer where
  | queued
  | queueFull
  | refused
  deriving DecidableEq

structure Ack where
  kind : SealedKind
  digest : Text
  answer : CourierAnswer
  atMs : ℤ
  answeredAtMs : ℤ

inductive AckRefusal where
  | notText
  | unknownType
  | badDigest
  | queuedReason
  | unknownReason
  | unknownOutcome
  deriving DecidableEq

/-- A member taken only as text; one that is absent is empty. -/
def ackMember (decoded : Json) (name : String) : Except AckRefusal Text :=
  match decoded.get? name with
  | none => .ok []
  | some (.str s) => .ok s
  | some _ => .error .notText

def outboundType (artifactType : Text) : Except AckRefusal SealedKind :=
  if artifactType = text "delivery_envelope" then .ok .deliveryEnvelope
  else if artifactType = text "checkpoint" then .ok (.outbox .checkpoint)
  else if artifactType = text "anchor_registration" then .ok (.outbox .anchorRegistration)
  else .error .unknownType

def courierAnswer (outcome reason : Text) : Except AckRefusal CourierAnswer :=
  if outcome = text "queued" then
    if reason = [] then .ok .queued else .error .queuedReason
  else if outcome = text "refused" then
    if reason = text "queue_full" then .ok .queueFull
    else if reason = text "malformed" ∨ reason = text "binding_mismatch" then .ok .refused
    else .error .unknownReason
  else .error .unknownOutcome

def readAck (decoded : Json) : Except AckRefusal (SealedKind × Text × CourierAnswer) := do
  let artifactType ← ackMember decoded "artifact_type"
  let digest ← ackMember decoded "artifact_digest"
  let outcome ← ackMember decoded "outcome"
  let reason ← ackMember decoded "reason"
  let kind ← outboundType artifactType
  if isSha256 digest = false then .error .badDigest
  let answer ← courierAnswer outcome reason
  return (kind, digest, answer)

/-- What the route relies on outside the ledger: the process it runs in, and whether its messages
are authenticated. -/
structure RouteSetting extends LedgerSetting where
  process : ℕ
  authenticates : Bool
  maxSkewMs : ℤ

variable (e : RouteSetting)

def RouteSetting.ledger : EvidenceDeliveryLedger := e.ledgers.ledger e.process

/-- A message that is not authenticated names this device itself. -/
def ownPayload (payload : Json) : Option Json :=
  match payload.get? "device_id" with
  | some (.str deviceId) => if deviceId = e.ledger.deviceId then some payload else none
  | _ => none

/-- The courier's time for an answer, or the receive time in its place. -/
def answeredAt (payload : Json) (atMs : ℤ) : ℤ :=
  match e.authenticates, (payload.get? "auth").bind (·.get? "signed_at_ms") with
  | true, some (.int signedAt) =>
    if |signedAt| ≤ integerMax ∧ signedAt ≤ atMs + e.maxSkewMs then signedAt else atMs
  | _, _ => atMs

/-- What an acknowledgement was found to answer, with the attempts it was looked up at. -/
inductive Found where
  | envelope (localSeq : ℕ)
  | copy (attempts : ℕ)
  deriving DecidableEq

/-- What the routing of one acknowledgement is waiting for. -/
inductive AckAwait where
  | authenticate (payload : Json)
  | look (ack : Ack)
  | commit (ack : Ack) (found : Found)
  | apply (ack : Ack) (found : Found)

/-- The artifact an acknowledgement names, if it is held here and was handed off. -/
def findAcknowledged (t : Tables) (ack : Ack) : Option Found :=
  match ack.kind with
  | .deliveryEnvelope =>
    match t.rows.find? (fun r => decide (r.envelopeDigest = ack.digest)) with
    | none => none
    | some r => if r.delivery.attempts = 0 then none else some (.envelope r.localSeq)
  | .outbox artifactType =>
    match t.outbox.find? (fun b => decide (b.artifactDigest = ack.digest)) with
    | none => none
    | some b =>
      if b.artifactType ≠ artifactType ∨ b.attempts = 0 then none else some (.copy b.attempts)

def ackOp (ack : Ack) : Found → LedgerOp
  | .envelope localSeq =>
    match ack.answer with
    | .queued => .courierAnswer localSeq "queued" ack.atMs ack.answeredAtMs
    | .queueFull => .courierAnswer localSeq "queue_full" ack.atMs ack.answeredAtMs
    | .refused => .courierAnswer localSeq "refused" ack.atMs ack.answeredAtMs
  | .copy _ =>
    match ack.answer with
    | .queued => .retireArtifact ack.digest .queued ack.atMs
    | .queueFull => .noteArtifactAttempt ack.digest ack.atMs
    | .refused => .retireArtifact ack.digest .refused ack.atMs

/-! ### Runs -/

structure Drain where
  number : ℕ
  atMs : ℤ
  await : Await

/-- The route over its ledger. `late` are the calls to the ledger a cut drain left behind, `io` the
calls to the client not yet made, and `published` those made. -/
structure RouteState where
  ledger : LedgerState
  carrying : Bool
  drain : Option Drain
  drains : ℕ
  late : List LedgerOp
  io : List Publication
  published : List Publication
  acks : List AckAwait

def opening (ledger : LedgerState) : RouteState := ⟨ledger, false, none, 0, [], [], [], []⟩

/-- What happens next. A call the evidence worker refuses ends the drain as a cut does. An
acknowledgement being routed is answered by whoever authenticates and records it. -/
inductive RouteEvent where
  | ledger (w : ℕ) (op : LedgerOp)
  | session (carrying : Bool)
  | beginDrain (atMs : ℤ)
  | drain
  | cut
  | late (i : ℕ)
  | dropLate (i : ℕ)
  | io (delivered : Bool)
  | receive (payload : Json)
  | ack (i : ℕ) (verdict : Option Json) (atMs : ℤ)
  | dropAck (i : ℕ)

/-- What only the route asks of the ledger. -/
def ofRoute : LedgerOp → Bool
  | .recordAttempt _ _ _ => true
  | .recordTransportFailure _ _ => true
  | .courierAnswer _ _ _ _ => true
  | .retireArtifact _ _ _ => true
  | .noteArtifactAttempt _ _ => true
  | .noteRegistrationOffer _ _ => true
  | _ => false

namespace RouteState

def perform (s : RouteState) (op : LedgerOp) : RouteState :=
  { s with ledger := (LedgerState.apply e.toLedgerSetting s.ledger e.process op).1 }

def goOn (s : RouteState) (d : Drain) (next : Option Await) : RouteState :=
  { s with drain := next.map fun await => { d with await } }

/-- The call a drain waits for is made, and the drain goes on to its next await. -/
def drainStep (s : RouteState) (d : Drain) : Option RouteState :=
  match d.await with
  | .envelopePage after published =>
    match s.ledger.tables.awaitingCustody drainBatch after none with
    | [] => some (s.goOn d (some (findCheckpoint drainBatch)))
    | row :: rest =>
      some (s.goOn d (some (nextEnvelope e.ledger d.atMs (row :: rest) after published)))
  | .checkpointHead passes =>
    match s.ledger.tables.pendingArtifacts e.ledger 1 (some .checkpoint) 0 none with
    | [] => some (s.goOn d (some (.registrationPage 0 0)))
    | row :: _ => some (s.goOn d (some (headCheckpoint e.ledger d.atMs row (passes - 1))))
  | .registrationPage after published =>
    match s.ledger.tables.pendingArtifacts e.ledger drainBatch (some .anchorRegistration)
        after none with
    | [] => some (s.goOn d (some .reofferPage))
    | row :: rest =>
      some (s.goOn d (some (nextRegistration e.ledger d.atMs (row :: rest) after published)))
  | .reofferPage => some (s.goOn d (nextReoffer e.ledger
      (s.ledger.tables.registrationReoffersDue e.ledger d.atMs drainBatch none)))
  | .fault h reason =>
    some ((s.perform e (h.faultOp reason d.atMs)).goOn d (afterFault e.ledger d.atMs h))
  | .check h =>
    if h.stillOffered e.ledger s.ledger.tables d.atMs then some (s.goOn d (some (.attempt h)))
    else some (s.goOn d (afterHeld e.ledger d.atMs h))
  | .attempt h =>
    match (LedgerState.apply e.toLedgerSetting s.ledger e.process (h.attemptOp d.atMs)).2 with
    | some _ => some ((s.perform e (h.attemptOp d.atMs)).goOn d none)
    | none => some ((s.perform e (h.attemptOp d.atMs)).goOn d (some (.handOver h)))
  | .handOver h =>
    if s.carrying then
      some { s.goOn d (some (.publish h)) with io := s.io ++ [h.publication d.number] }
    else some (s.goOn d (afterFailure h))
  | .publish _ => none
  | .unreachable localSeq =>
    some ((s.perform e (.recordTransportFailure localSeq "unreachable")).goOn d none)

/-- The calls a drain cut here leaves behind. -/
def leftBehind (d : Drain) : List LedgerOp :=
  match d.await with
  | .fault h reason => [h.faultOp reason d.atMs]
  | .attempt h => [h.attemptOp d.atMs]
  | .unreachable localSeq => [.recordTransportFailure localSeq "unreachable"]
  | _ => []

/-- The client is called with the first publication; the drain that waits for the last goes on. -/
def ioStep (s : RouteState) (p : Publication) (rest : List Publication) (delivered : Bool) :
    RouteState :=
  let s' := { s with
    io := rest, published := if delivered then s.published ++ [p] else s.published }
  match s.drain with
  | some ⟨number, atMs, .publish h⟩ =>
    if rest = [] then
      s'.goOn ⟨number, atMs, .publish h⟩
        (if delivered then afterPublish e.ledger atMs h else afterFailure h)
    else s'
  | _ => s'

def setAck (s : RouteState) (i : ℕ) (a : AckAwait) : RouteState := { s with acks := s.acks.set i a }

def dropAck (s : RouteState) (i : ℕ) : RouteState := { s with acks := s.acks.eraseIdx i }

def ackStep (s : RouteState) (i : ℕ) (verdict : Option Json) (atMs : ℤ) : AckAwait → RouteState
  | .authenticate payload =>
    match (if e.authenticates then verdict else ownPayload e payload).map readAck with
    | some (.ok (kind, digest, answer)) =>
      s.setAck i (.look ⟨kind, digest, answer, atMs, answeredAt e payload atMs⟩)
    | _ => s.dropAck i
  | .look ack =>
    match findAcknowledged s.ledger.tables ack with
    | none => s.dropAck i
    | some found =>
      s.setAck i (if e.authenticates then .commit ack found else .apply ack found)
  | .commit ack found => if verdict.isSome then s.setAck i (.apply ack found) else s.dropAck i
  | .apply ack found => (s.perform e (ackOp ack found)).dropAck i

def step (s : RouteState) : RouteEvent → Option RouteState
  | .ledger w op =>
    if ofRoute op then none
    else some { s with ledger := (LedgerState.apply e.toLedgerSetting s.ledger w op).1 }
  | .session carrying => some { s with carrying }
  | .beginDrain atMs =>
    match s.drain with
    | some _ => none
    | none =>
      if s.carrying then
        some { s with
          drain := some ⟨s.drains + 1, atMs, .envelopePage 0 0⟩, drains := s.drains + 1 }
      else some s
  | .drain => s.drain.bind fun d => drainStep e s d
  | .cut => s.drain.map fun d => { s with drain := none, late := s.late ++ leftBehind d }
  | .late i => (s.late[i]?).map fun op => { s.perform e op with late := s.late.eraseIdx i }
  | .dropLate i => some { s with late := s.late.eraseIdx i }
  | .io delivered =>
    match s.io with
    | [] => none
    | p :: rest => some (s.ioStep e p rest delivered)
  | .receive payload => some { s with acks := s.acks ++ [.authenticate payload] }
  | .ack i verdict atMs => (s.acks[i]?).map (ackStep e s i verdict atMs)
  | .dropAck i => some (s.dropAck i)

end RouteState

end OutboundRoute

end OriRuntime
