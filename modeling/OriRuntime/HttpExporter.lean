import OriRuntime.Execution
import OriRuntime.TelemetryDelivery

/-!
# The HTTP telemetry exporter

`HttpTelemetryExporter` of `telemetry/http_export.py`, over serialised events of any type. A step is
what runs between two awaits: an event handed over, the start of a flush, and the end of the send a
flush is waiting for. A verdict is one `read_answer` gives of a batch of that size.
-/

namespace OriRuntime

variable {ε : Type}

structure PendingBatch (ε : Type) where
  sequence : ℕ
  events : List ε
  unconfirmedAttempts : ℕ := 0
deriving DecidableEq

def maxUnconfirmedAttempts : ℕ := 5

/-- The events of some batches, in order, and how many they are. -/
def eventsOf (batches : List (PendingBatch ε)) : List ε := batches.flatMap (·.events)

def eventCount (batches : List (PendingBatch ε)) : ℕ := (batches.map (·.events.length)).sum

/-- What a verdict on a batch of `n` events can be. -/
def DeliveryVerdict.Fits (v : DeliveryVerdict) (n : ℕ) : Prop :=
  match v.outcome with
  | .delivered => v.declinedEvents ≤ n ∧ v.bodyUnreadable = false
  | .suspend => v.refusedEvents = n ∧ v.bodyUnreadable = false
  | .retain => True

instance (v : DeliveryVerdict) (n : ℕ) : Decidable (v.Fits n) := by
  unfold DeliveryVerdict.Fits
  split <;> infer_instance

theorem fits_readCounts (decoded : JsonOf TelemetryDelivery.PyNumber) (speaks : Bool) (n : ℕ) :
    (TelemetryDelivery.readCounts decoded speaks n).toDeliveryVerdict.Fits n := by
  unfold TelemetryDelivery.readCounts
  split
  · trivial
  split_ifs with hs
  · trivial
  · exact ⟨by dsimp only; omega, rfl⟩

theorem fits_readAnswer (lib : JsonLibrary) (status : Option ℕ) (fields : HeaderFields)
    (body : Option Bytes) (n : ℕ) {v : TelemetryDelivery.Verdict}
    (h : TelemetryDelivery.readAnswer lib status fields body n = .ok v) :
    v.toDeliveryVerdict.Fits n := by
  have hd : ∀ status contentType challenge decoded,
      TelemetryDelivery.readDecoded status contentType challenge decoded n = .ok v →
        v.toDeliveryVerdict.Fits n := by
    intro status contentType challenge decoded ho
    unfold TelemetryDelivery.readDecoded at ho
    split_ifs at ho
    · cases ho
      exact ⟨rfl, rfl⟩
    · split at ho
      · split at ho <;> cases ho
        · trivial
        · exact fits_readCounts _ _ n
      · cases ho
        trivial
    · cases ho
      trivial
  have hr : ∀ status contentType challenge body,
      TelemetryDelivery.readBatchResponse lib status contentType challenge body n = .ok v →
        v.toDeliveryVerdict.Fits n := by
    intro status contentType challenge body ho
    unfold TelemetryDelivery.readBatchResponse at ho
    split_ifs at ho
    · cases ho
      trivial
    · split at ho
      · cases ho
        trivial
      · exact hd _ _ _ _ ho
  unfold TelemetryDelivery.readAnswer at h
  split at h <;> rename_i hu
  · exact hr _ _ _ _ h
  · exact hr _ _ _ _ h

/-- How an attempt ended, `answered` where the receiver's application did. -/
inductive AttemptEnd
  | delivered
  | retained (answered : Bool)
  | abandoned
  | suspended
  | raised
deriving DecidableEq

namespace AttemptEnd

def answered : AttemptEnd → Bool
  | .retained answered => answered
  | .abandoned => true
  | .delivered | .suspended | .raised => false

/-- The flush goes on to the next batch. -/
def continues : AttemptEnd → Bool
  | .delivered | .abandoned => true
  | .retained _ | .suspended | .raised => false

end AttemptEnd

structure ExportAttempt (ε : Type) where
  flush : ℕ
  key : Text
  sequence : ℕ
  events : List ε
  ending : AttemptEnd
deriving DecidableEq

inductive ExportEntry (ε : Type)
  | presented (key : Text)
  | attempt (a : ExportAttempt ε)

def ExportEntry.attempt? : ExportEntry ε → Option (ExportAttempt ε)
  | .presented _ => none
  | .attempt a => some a

/-- A flush at an await: the batches not resolved yet, the first of them being sent. -/
structure Flush (ε : Type) where
  batch : PendingBatch ε
  later : List (PendingBatch ε)
  key : Text
  delivered : ℤ

def Flush.rest (f : Flush ε) : List (PendingBatch ε) := f.batch :: f.later

structure HttpExporter (ε : Type) where
  batchSize : ℕ
  maxQueueSize : ℕ
  queue : List ε := []
  retained : List (PendingBatch ε) := []
  retainedEvents : ℤ := 0
  inFlightEvents : ℤ := 0
  sequence : ℕ := 0
  droppedEvents : ℕ := 0
  refusedEvents : ℕ := 0
  declinedEvents : ℕ := 0
  duplicateEvents : ℕ := 0
  unconfirmedEvents : ℕ := 0
  unreadableResponses : ℕ := 0
  nonconformantResponses : ℕ := 0
  refusalStatus : Option ℕ := none
  refusalDetail : Option Text := none
  refusedCredential : Option Text := none
  flush : Option (Flush ε) := none
  /-- What was handed over and what became of it, the batches formed, and the attempts made. -/
  handed : List ε := []
  answered : List ε := []
  droppedItems : List ε := []
  refusedItems : List ε := []
  unconfirmedItems : List ε := []
  deliveredEvents : ℤ := 0
  formed : List (PendingBatch ε) := []
  flushes : ℕ := 0
  log : List (ExportEntry ε) := []

namespace HttpExporter

def exportSuspended (x : HttpExporter ε) : Bool := x.refusalStatus.isSome

def inFlight (x : HttpExporter ε) : List (PendingBatch ε) :=
  match x.flush with
  | none => []
  | some f => f.rest

def attempts (x : HttpExporter ε) : List (ExportAttempt ε) := x.log.filterMap ExportEntry.attempt?

def inMemoryEvents (x : HttpExporter ε) : ℤ := x.queue.length + x.retainedEvents + x.inFlightEvents

def dropNew (x : HttpExporter ε) (event : ε) : HttpExporter ε :=
  { x with
    droppedEvents := x.droppedEvents + 1
    droppedItems := x.droppedItems ++ [event] }

/-- `asyncio.Queue.full`: a queue without a maximum never is. -/
def queueFull (x : HttpExporter ε) : Bool :=
  decide (0 < x.maxQueueSize ∧ x.maxQueueSize ≤ x.queue.length)

/-- `handle_event` of an event that is a published reading. -/
def handleEvent (x : HttpExporter ε) (event : ε) : HttpExporter ε :=
  let x := { x with handed := x.handed ++ [event] }
  if x.exportSuspended then
    { x with
      refusedEvents := x.refusedEvents + 1
      refusedItems := x.refusedItems ++ [event] }
  else if x.inMemoryEvents ≥ x.maxQueueSize then x.dropNew event
  else if x.queueFull then x.dropNew event
  else { x with queue := x.queue ++ [event] }

/-- `_take_pending`, with the batch `_drain_batch` forms. -/
def takePending (x : HttpExporter ε) : List (PendingBatch ε) × HttpExporter ε :=
  let events := x.queue.take x.batchSize
  let batches := if events.isEmpty then [] else [⟨x.sequence + 1, events, 0⟩]
  let pending := x.retained ++ batches
  (pending,
    { x with
      retained := []
      retainedEvents := 0
      queue := x.queue.drop x.batchSize
      sequence := if events.isEmpty then x.sequence else x.sequence + 1
      inFlightEvents := eventCount pending
      formed := x.formed ++ batches })

/-- The loop at the end of `_retain`, from the newest batch on. -/
def dropStale (x : HttpExporter ε) : ℕ → HttpExporter ε
  | 0 => x
  | fuel + 1 =>
    if x.inMemoryEvents ≤ x.maxQueueSize then x
    else
      match x.retained.getLast? with
      | none => x
      | some stale =>
        dropStale
          { x with
            retained := x.retained.dropLast
            retainedEvents := x.retainedEvents - stale.events.length
            droppedEvents := x.droppedEvents + stale.events.length
            droppedItems := x.droppedItems ++ stale.events } fuel

def retain (x : HttpExporter ε) (batches : List (PendingBatch ε)) : HttpExporter ε :=
  let x :=
    { x with
      retained := batches ++ x.retained
      retainedEvents := x.retainedEvents + eventCount batches }
  x.dropStale x.retained.length

def discardQueuedWhileSuspended (x : HttpExporter ε) : HttpExporter ε :=
  { x with
    retained := []
    retainedEvents := x.retainedEvents - eventCount x.retained
    queue := []
    refusedEvents := x.refusedEvents + eventCount x.retained + x.queue.length
    refusedItems := x.refusedItems ++ eventsOf x.retained ++ x.queue }

/-- `_credential_matches_refusal`; none where an encoding raises. -/
def credentialMatchesRefusal (x : HttpExporter ε) (apiKey : Text) : Option Bool :=
  match x.refusedCredential with
  | none => some false
  | some recorded =>
    if isSurrogateText recorded || isSurrogateText apiKey then none
    else some (decide (recorded = apiKey))

def resumeAfterCredentialChange (x : HttpExporter ε) : HttpExporter ε :=
  { x with refusalStatus := none, refusalDetail := none, refusedCredential := none }

/-- `flush_once` past the suspension, to its first await or its end. -/
def sendPending (x : HttpExporter ε) (apiKey : Text) : HttpExporter ε :=
  let (pending, x) := x.takePending
  match pending with
  | [] => x
  | batch :: later =>
    if apiKey = [] then { x with inFlightEvents := 0 }.retain (batch :: later)
    else { x with flush := some ⟨batch, later, apiKey, 0⟩ }

/-- A flush that begins, with the credential it presents. -/
def present (x : HttpExporter ε) (apiKey : Text) : HttpExporter ε :=
  { x with
    flushes := x.flushes + 1
    log := x.log ++ [ExportEntry.presented apiKey] }

/-- `flush_once`, up to its first await or its end; an encoding that raises ends it. -/
def flushUnder (x : HttpExporter ε) (apiKey : Text) : HttpExporter ε :=
  if x.exportSuspended then
    if apiKey = [] then x.discardQueuedWhileSuspended
    else
      match x.credentialMatchesRefusal apiKey with
      | none => x
      | some true => x.discardQueuedWhileSuspended
      | some false => x.resumeAfterCredentialChange.sendPending apiKey
  else x.sendPending apiKey

/-- `flush_once` with the stripped value of the credential's variable. -/
def flushOnce (x : HttpExporter ε) (apiKey : Text) : HttpExporter ε :=
  (x.present apiKey).flushUnder apiKey

/-- What `_send` ends in: it cannot send the batch, it raises or is cancelled, or it has a verdict. -/
inductive SendEnd
  | unsendable
  | raised
  | verdict (v : TelemetryDelivery.Verdict)
deriving DecidableEq

def record (x : HttpExporter ε) (f : Flush ε) (ending : AttemptEnd) : HttpExporter ε :=
  { x with
    log := x.log ++
      [ExportEntry.attempt ⟨x.flushes, f.key, f.batch.sequence, f.batch.events, ending⟩] }

/-- The next turn of the loop, or the `finally` and the end of the flush. -/
def proceed (x : HttpExporter ε) (f : Flush ε) (delivered : ℤ) : HttpExporter ε :=
  match f.later with
  | [] => { x with inFlightEvents := 0, flush := none }
  | batch :: later => { x with flush := some ⟨batch, later, f.key, delivered⟩ }

/-- The end of the flush with the batches from the current one on held. -/
def stopRetaining (x : HttpExporter ε) (batches : List (PendingBatch ε)) : HttpExporter ε :=
  { x with inFlightEvents := 0, flush := none }.retain batches

def suspendOnTerminalRefusal (x : HttpExporter ε) (v : TelemetryDelivery.Verdict) (apiKey : Text)
    (batchSize : ℕ) : HttpExporter ε :=
  { x with
    refusalStatus :=
      if v.refusalStatus = some terminalRefusalStatus then v.refusalStatus
      else some terminalRefusalStatus
    refusalDetail := some terminalRefusalDetail
    refusedCredential := some apiKey
    refusedEvents := x.refusedEvents + batchSize }.discardQueuedWhileSuspended

/-- The loop's body once `_send` has a verdict. -/
def afterVerdict (x : HttpExporter ε) (f : Flush ε) (v : TelemetryDelivery.Verdict) :
    HttpExporter ε :=
  let n := f.batch.events.length
  let x :=
    { x with
      inFlightEvents := x.inFlightEvents - n
      unreadableResponses :=
        if v.bodyUnreadable then x.unreadableResponses + 1 else x.unreadableResponses }
  match v.outcome with
  | .suspend =>
    let x := { x.record f .suspended with
      inFlightEvents := 0
      flush := none
      refusedItems := x.refusedItems ++ eventsOf f.rest }
    x.suspendOnTerminalRefusal v f.key (v.refusedEvents + eventCount f.later)
  | .retain =>
    if v.receiverAnswered then
      let batch := { f.batch with unconfirmedAttempts := f.batch.unconfirmedAttempts + 1 }
      if maxUnconfirmedAttempts ≤ batch.unconfirmedAttempts then
        { x.record f .abandoned with
          unconfirmedEvents := x.unconfirmedEvents + n
          unconfirmedItems := x.unconfirmedItems ++ f.batch.events }.proceed f f.delivered
      else (x.record f (.retained true)).stopRetaining (batch :: f.later)
    else (x.record f (.retained false)).stopRetaining f.rest
  | .delivered =>
    { x.record f .delivered with
      duplicateEvents := x.duplicateEvents + v.duplicateEvents
      declinedEvents := x.declinedEvents + v.declinedEvents
      nonconformantResponses :=
        if v.nonconformantBody then x.nonconformantResponses + 1 else x.nonconformantResponses
      deliveredEvents := x.deliveredEvents + (n - v.declinedEvents)
      answered := x.answered ++ f.batch.events }.proceed f
        (f.delivered + (n - v.declinedEvents))

def sendEnd (x : HttpExporter ε) (result : SendEnd) : Option (HttpExporter ε) :=
  match x.flush with
  | none => none
  | some f =>
    match result with
    | .unsendable =>
      some ({ x with
        droppedEvents := x.droppedEvents + f.batch.events.length
        droppedItems := x.droppedItems ++ f.batch.events
        inFlightEvents := x.inFlightEvents - f.batch.events.length }.proceed f f.delivered)
    | .raised => some ((x.record f .raised).stopRetaining f.rest)
    | .verdict v =>
      if v.toDeliveryVerdict.Fits f.batch.events.length then some (x.afterVerdict f v) else none

inductive Step (ε : Type)
  | handle (event : ε)
  | flush (apiKey : Text)
  | send (result : SendEnd)

/-- One flush at a time: the next begins when the one before it has ended. -/
def step (x : HttpExporter ε) : Step ε → Option (HttpExporter ε)
  | .handle event => some (x.handleEvent event)
  | .flush apiKey => if x.flush.isSome then none else some (x.flushOnce apiKey)
  | .send result => x.sendEnd result

end HttpExporter

end OriRuntime
