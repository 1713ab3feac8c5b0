import OriRuntime.AlertOutbox
import OriRuntime.Execution

/-!
# Sending alerts and draining the outbox

A call of `_send_or_queue_alert` or `_send_or_queue_safety_alert` queues a row and sends it once;
the delivery loop first polls the provider about accepted rows, then retries a batch of queued
ones. Between two awaits nothing else runs; at an await any other call, the loop or a provider's
callback may. The log lists, newest first, what reached the provider and what it reported.
-/

namespace OriRuntime

structure AlertSendReceipt where
  accepted : Bool
  channel : Text
  providerMessageId : Text := []
  providerStatus : Text := []
  acceptedAtMs : Option ℤ := none
  deliveredAtMs : Option ℤ := none
  error : Text := []
deriving DecidableEq, Repr

def AlertSendReceipt.refused (channel error : Text) : AlertSendReceipt :=
  { accepted := false
    channel := channel
    providerStatus := text "failed"
    error := error }

/-- `CAP_SPENT`: every channel's budget was spent, so nothing was submitted. -/
def capSpent : Text := text "cap_spent"

/-- A later provider observation for an accepted message. -/
structure AlertDeliveryReceipt where
  providerMessageId : Text
  providerStatus : Text
  observedAtMs : ℤ
  deliveredAtMs : Option ℤ := none
  terminalFailure : Bool := false
deriving DecidableEq, Repr

def AlertDeliveryReceipt.settles (r : AlertDeliveryReceipt) : Bool :=
  r.deliveredAtMs.isSome || r.terminalFailure

structure OutboundAlert where
  intent : AlertIntent
  smsBody : Text
  templateVariables : List Text
deriving DecidableEq, Repr

/-- The arguments of one `send`. -/
structure Submission where
  alert : OutboundAlert
  toNumber : Text
  preferredChannel : Text
deriving DecidableEq, Repr

structure AlertDeliveryConfig where
  batchSize : ℕ
  maxNonTierDAttempts : ℕ
  site : Text
  formatAlertTimestamp : ℤ → Text

inductive AlertEvent
  | submitted (alertId : Text) (submission : Submission)
  | refused (alertId : Text)
  | accepted (alertId channel providerMessageId : Text)
  | terminal (alertId channel providerMessageId : Text)
deriving DecidableEq, Repr

inductive SendPhase
  | queued
  | sending
  | answered (receipt : AlertSendReceipt)
deriving DecidableEq, Repr

structure SendCall where
  submission : Submission
  noticeKind : Text
  phase : SendPhase
deriving DecidableEq, Repr

abbrev ReadRow := Text × AlertRow

/-- Where `_alert_delivery_loop` stands, with the rows it still has to work through. -/
inductive DeliveryLoop
  | waiting
  | polling (rows : List ReadRow)
  | unsettled (row : ReadRow) (seen : Option AlertDeliveryReceipt) (rows : List ReadRow)
  | observed (row : ReadRow) (seen : AlertDeliveryReceipt) (rows : List ReadRow)
  | undeliverable (row : ReadRow) (rows : List ReadRow)
  | fetching
  | fetched (mandatory : List ReadRow)
  | retrying (rows : List ReadRow)
  | sending (row : ReadRow) (rows : List ReadRow)
  | answered (row : ReadRow) (receipt : AlertSendReceipt) (rows : List ReadRow)
  | exhausted (row : ReadRow) (rows : List ReadRow)
  | ended
deriving DecidableEq

structure AlertWorld where
  outbox : AlertOutbox
  calls : Dict Text SendCall
  loop : DeliveryLoop
  mandatoryTakesSpareSlot : Bool
  log : List AlertEvent
deriving DecidableEq

def AlertWorld.start : AlertWorld where
  outbox := .empty
  calls := .empty
  loop := .waiting
  mandatoryTakesSpareSlot := true
  log := []

/-! ### The steps -/

namespace AlertRequest

def submission (r : AlertRequest) : Submission where
  alert := ⟨r.intent, r.message, r.templateVariables⟩
  toNumber := r.recipient
  preferredChannel := r.channel

/-- The notice of `_send_or_queue_safety_alert`. -/
def safety (channel recipient message : Text) (templateVariables : List Text) (triggerName : Text)
    (alertTs : ℤ) : AlertRequest where
  channel := channel
  recipient := recipient
  message := message
  intent := .tierAAlert
  templateVariables := templateVariables
  actionTier := text "A"
  triggerName := triggerName
  originalTs := alertTs
  noticeKind := noticeProtectionDegraded

end AlertRequest

/-- The channel a retry is sent by first: the other one once an attempt has failed. -/
def retryChannel (row : AlertRow) : Text :=
  if row.channel ≠ text "sms" ∧ row.channel ≠ text "whatsapp" then text "sms"
  else if 1 ≤ row.attemptCount then
    if row.channel = text "sms" then text "whatsapp" else text "sms"
  else row.channel

/-- What a queued row is sent as; `none` for a malformed row. -/
def retrySubmission (cfg : AlertDeliveryConfig) (row : AlertRow) (nowMs : ℤ) : Option Submission :=
  (AlertIntent.ofValue? row.intent).map fun intent =>
    { alert :=
        { intent := intent
          smsBody := row.message
          templateVariables :=
            if row.templateVariables = [] then
              [if row.triggerName = [] then text "configured risk" else row.triggerName, cfg.site,
                cfg.formatAlertTimestamp (if 0 < row.queuedAtMs then row.queuedAtMs else nowMs)]
            else row.templateVariables }
      toNumber := row.recipient
      preferredChannel := retryChannel row }

/-- What a sender writes for a receipt that says accepted. -/
def AlertOutbox.keepAcceptance (o : AlertOutbox) (alertId : Text) (r : AlertSendReceipt)
    (nowMs : ℤ) : AlertOutbox :=
  o.markAlertAccepted alertId r.channel r.providerMessageId
    (if r.providerStatus = [] then text "accepted" else r.providerStatus)
    (if r.acceptedAtMs.getD 0 = 0 then nowMs else r.acceptedAtMs.getD 0) r.deliveredAtMs

/-- Each lane gets half the batch, the odd slot alternates, and room one leaves the other takes. -/
def nextRetryBatch (size : ℕ) (spare : Bool) (mandatory optional : List ReadRow) : List ReadRow :=
  let share := (size + spare.toNat) / 2
  let taken := min mandatory.length (max share (size - optional.length))
  mandatory.take taken ++ optional.take (size - taken)

def receiptEvent (alertId : Text) (r : AlertSendReceipt) : AlertEvent :=
  if r.accepted then .accepted alertId r.channel r.providerMessageId else .refused alertId

/-- A terminal failure counts where the row is accepted and not yet reported delivered. -/
def terminalEvents (o : AlertOutbox) (alertId channel providerMessageId : Text)
    (terminalFailure : Bool) : List AlertEvent :=
  match o.get? alertId with
  | none => []
  | some row =>
    if terminalFailure ∧ row.status = .accepted ∧ row.deliveredAtMs = none then
      [.terminal alertId channel providerMessageId]
    else []

/-- Whether a failed attempt at a row is the last one of an optional notice. -/
def lastAttempt (cfg : AlertDeliveryConfig) (row : AlertRow) : Bool :=
  !noticeIsMandatory row.noticeKind && decide (cfg.maxNonTierDAttempts ≤ row.attemptCount + 1)

inductive AlertLabel
  | enqueue (alertId : Text) (request : AlertRequest) (nowMs : ℤ)
  | withhold (alertId : Text)
  | submit (alertId : Text)
  | answer (alertId : Text) (receipt : AlertSendReceipt)
  | settle (alertId : Text) (nowMs : ℤ)
  | callback (channel providerMessageId providerStatus : Text) (observedAtMs : ℤ)
      (deliveredAtMs : Option ℤ) (terminalFailure : Bool)
  | read
  | readFailed
  | observe (seen : Option AlertDeliveryReceipt)
  | observeRaised
  | answerRetry (receipt : AlertSendReceipt)
  | proceed (nowMs : ℤ)
  | restart
deriving DecidableEq, Repr

namespace AlertWorld

variable (cfg : AlertDeliveryConfig) (s : AlertWorld)

def setPhase (alertId : Text) (call : SendCall) (phase : SendPhase) : AlertWorld :=
  { s with calls := s.calls.set alertId { call with phase := phase } }

/-- A call that stands in the phase before goes on. -/
def callStep (alertId : Text) (next : SendCall → Option AlertWorld) : Option AlertWorld :=
  (s.calls.get? alertId).bind next

def enqueue (alertId : Text) (r : AlertRequest) (nowMs : ℤ) : AlertWorld :=
  match s.outbox.enqueueAlert alertId r nowMs with
  | none => s
  | some outbox =>
    { s with
      outbox := outbox
      calls := s.calls.set alertId ⟨r.submission, r.noticeKind, .queued⟩ }

/-- The budget check of an optional notice's first send refuses the channel. -/
def withhold (alertId : Text) (call : SendCall) : Option AlertWorld :=
  if call.phase = .queued ∧ noticeIsMandatory (some call.noticeKind) = false then
    some (s.setPhase alertId call
      (.answered (.refused call.submission.preferredChannel capSpent)))
  else none

def submit (alertId : Text) (call : SendCall) : Option AlertWorld :=
  if call.phase = .queued then
    some { s.setPhase alertId call .sending with
      log := .submitted alertId call.submission :: s.log }
  else none

/-- A send that raised is answered with a refusal. -/
def answer (alertId : Text) (receipt : AlertSendReceipt) (call : SendCall) : Option AlertWorld :=
  if call.phase = .sending then
    some { s.setPhase alertId call (.answered receipt) with
      log := receiptEvent alertId receipt :: s.log }
  else none

def settle (alertId : Text) (nowMs : ℤ) (call : SendCall) : Option AlertWorld :=
  match call.phase with
  | .answered receipt =>
    some { s with
      outbox := if receipt.accepted then s.outbox.keepAcceptance alertId receipt nowMs else s.outbox
      calls := s.calls.pop alertId }
  | _ => none

def callback (channel providerMessageId providerStatus : Text) (observedAtMs : ℤ)
    (deliveredAtMs : Option ℤ) (terminalFailure : Bool) : AlertWorld :=
  match s.outbox.acceptedAs channel providerMessageId with
  | [row] =>
    { s with
      outbox := (s.outbox.recordAlertDeliveryStatusByProviderId channel providerMessageId
        providerStatus observedAtMs deliveredAtMs terminalFailure).1
      log := terminalEvents s.outbox row.1 channel providerMessageId terminalFailure ++ s.log }
  | _ => s

/-- The loop's reads: of rows awaiting a receipt, then of each retry lane. -/
def read : Option AlertWorld :=
  match s.loop with
  | .waiting =>
    some { s with loop := .polling (s.outbox.getAlertsAwaitingDeliveryReceipt cfg.batchSize) }
  | .fetching =>
    some { s with loop := .fetched (s.outbox.getRetryableAlerts cfg.batchSize (some true)) }
  | .fetched mandatory =>
    some { s with
      loop := .retrying (nextRetryBatch cfg.batchSize s.mandatoryTakesSpareSlot mandatory
        (s.outbox.getRetryableAlerts cfg.batchSize (some false)))
      mandatoryTakesSpareSlot := !s.mandatoryTakesSpareSlot }
  | _ => none

def readFailed : Option AlertWorld :=
  match s.loop with
  | .waiting => some { s with loop := .fetching }
  | .fetching | .fetched _ => some { s with loop := .waiting }
  | _ => none

def unpollable (row : ReadRow) : Bool :=
  decide (row.1 = [] ∨ row.2.acceptedChannel = [] ∨ row.2.providerMessageId = [])

def observe (seen : Option AlertDeliveryReceipt) : Option AlertWorld :=
  match s.loop with
  | .polling (row :: rows) =>
    if unpollable row then none
    else
      match seen with
      | none => some { s with loop := .unsettled row none rows }
      | some receipt =>
        some { s with
          loop := if receipt.settles then .observed row receipt rows
            else .unsettled row (some receipt) rows }
  | _ => none

/-- `get_delivery_receipt` is not guarded: the loop's task ends. -/
def observeRaised : Option AlertWorld :=
  match s.loop with
  | .polling (row :: _) => if unpollable row then none else some { s with loop := .ended }
  | _ => none

def answerRetry (receipt : AlertSendReceipt) : Option AlertWorld :=
  match s.loop with
  | .sending row rows =>
    some { s with
      loop := .answered row receipt rows
      log := receiptEvent row.1 receipt :: s.log }
  | _ => none

/-- The loop's reaction to a receipt it polled. -/
def recordObserved (row : ReadRow) (seen : AlertDeliveryReceipt) (rows : List ReadRow) :
    AlertWorld :=
  { s with
    outbox := s.outbox.recordAlertDeliveryStatus row.1 seen.providerStatus seen.observedAtMs
      seen.deliveredAtMs seen.terminalFailure
    log := terminalEvents s.outbox row.1 row.2.acceptedChannel row.2.providerMessageId
      seen.terminalFailure ++ s.log
    loop :=
      if seen.deliveredAtMs = none ∧ seen.terminalFailure = true ∧ lastAttempt cfg row.2 = true then
        .undeliverable row rows
      else .polling rows }

/-- The loop's reaction to the answer of a retry. -/
def recordAnswered (row : ReadRow) (receipt : AlertSendReceipt) (rows : List ReadRow)
    (nowMs : ℤ) : AlertWorld :=
  if receipt.accepted then
    { s with
      outbox := s.outbox.keepAcceptance row.1 receipt nowMs
      loop := .retrying rows }
  else if receipt.error = capSpent then
    { s with
      outbox := s.outbox.deferAlert row.1
      loop := .retrying rows }
  else
    { s with
      outbox := s.outbox.markAlertAttemptFailed row.1 nowMs
      loop := if lastAttempt cfg row.2 then .exhausted row rows else .retrying rows }

/-- A step of the loop that waits for no one's answer. -/
def proceed (nowMs : ℤ) : Option AlertWorld :=
  match s.loop with
  | .polling [] => some { s with loop := .fetching }
  | .polling (row :: rows) => if unpollable row then some { s with loop := .polling rows } else none
  | .unsettled row seen rows =>
    some { s with
      outbox := s.outbox.requeueAlertReceiptPoll row.1
      loop :=
        match seen with
        | none => .polling rows
        | some receipt => .observed row receipt rows }
  | .observed row seen rows => some (s.recordObserved cfg row seen rows)
  | .undeliverable row rows =>
    some { s with
      outbox := s.outbox.markAlertAbandoned row.1 nowMs
      loop := .polling rows }
  | .retrying [] => some { s with loop := .waiting }
  | .retrying (row :: rows) =>
    match retrySubmission cfg row.2 nowMs with
    | none => some { s with loop := .retrying rows }
    | some submission =>
      some { s with
        loop := .sending row rows
        log := .submitted row.1 submission :: s.log }
  | .answered row receipt rows => some (s.recordAnswered cfg row receipt rows nowMs)
  | .exhausted row rows =>
    some { s with
      outbox := s.outbox.markAlertAbandoned row.1 nowMs
      loop := .retrying rows }
  | _ => none

/-- A new process opens the same store. -/
def restart : AlertWorld :=
  { s with
    calls := .empty
    loop := .waiting
    mandatoryTakesSpareSlot := true }

def step : AlertLabel → Option AlertWorld
  | .enqueue alertId r nowMs => some (s.enqueue alertId r nowMs)
  | .withhold alertId => s.callStep alertId (s.withhold alertId)
  | .submit alertId => s.callStep alertId (s.submit alertId)
  | .answer alertId receipt => s.callStep alertId (s.answer alertId receipt)
  | .settle alertId nowMs => s.callStep alertId (s.settle alertId nowMs)
  | .callback channel providerMessageId providerStatus observedAtMs deliveredAtMs terminalFailure =>
    some (s.callback channel providerMessageId providerStatus observedAtMs deliveredAtMs
      terminalFailure)
  | .read => s.read cfg
  | .readFailed => s.readFailed
  | .observe seen => s.observe seen
  | .observeRaised => s.observeRaised
  | .answerRetry receipt => s.answerRetry receipt
  | .proceed nowMs => s.proceed cfg nowMs
  | .restart => some s.restart

end AlertWorld

/-! ### What the log says of one alert -/

/-- The submissions of an alert a provider has not answered. -/
def outstanding (alertId : Text) : List AlertEvent → ℕ
  | [] => 0
  | .submitted a _ :: log => outstanding alertId log + if a = alertId then 1 else 0
  | .refused a :: log | .accepted a _ _ :: log =>
    outstanding alertId log - if a = alertId then 1 else 0
  | .terminal _ _ _ :: log => outstanding alertId log

/-- The acceptances of an alert without a terminal failure recorded while it was undelivered. -/
def held (alertId : Text) : List AlertEvent → List (Text × Text)
  | [] => []
  | .accepted a channel providerMessageId :: log =>
    if a = alertId then (channel, providerMessageId) :: held alertId log else held alertId log
  | .terminal a channel providerMessageId :: log =>
    if a = alertId then (held alertId log).erase (channel, providerMessageId)
    else held alertId log
  | .submitted _ _ :: log | .refused _ :: log => held alertId log

/-- Every submission was made with none outstanding and no acceptance held. -/
def SentFree : List AlertEvent → Prop
  | [] => True
  | .submitted a _ :: log => outstanding a log = 0 ∧ held a log = [] ∧ SentFree log
  | .refused _ :: log | .accepted _ _ _ :: log | .terminal _ _ _ :: log => SentFree log

instance decidableSentFree : ∀ log, Decidable (SentFree log)
  | [] => inferInstanceAs (Decidable True)
  | .submitted a _ :: log =>
    have := decidableSentFree log
    inferInstanceAs (Decidable (outstanding a log = 0 ∧ held a log = [] ∧ SentFree log))
  | .refused _ :: log | .accepted _ _ _ :: log | .terminal _ _ _ :: log => decidableSentFree log

end OriRuntime
