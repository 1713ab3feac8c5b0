import OriRuntime.Json
import OriRuntime.Dict

/-!
# The alert outbox

One row holds one outbound alert: what to send, how its last submission stands, and its place in
the queue. A status update names its row by the alert's id and is written in one transaction;
`mark_alert_accepted`, `mark_alert_attempt_failed` and `mark_alert_abandoned` do not look at the
status they replace.
-/

namespace OriRuntime

open List

inductive AlertIntent
  | startup
  | tierAAlert
  | tierCApproval
  | tierCEscalation
deriving DecidableEq, Repr

namespace AlertIntent

def value : AlertIntent → Text
  | startup => text "startup"
  | tierAAlert => text "tier_a_alert"
  | tierCApproval => text "tier_c_approval"
  | tierCEscalation => text "tier_c_escalation"

def ofValue? (t : Text) : Option AlertIntent :=
  [startup, tierAAlert, tierCApproval, tierCEscalation].find? (fun i => decide (i.value = t))

end AlertIntent

/-- `NoticeKind.OPTIONAL`, the only kind that may be withheld or abandoned. -/
def noticeOptional : Text := text "optional"

def noticeTierD : Text := text "tier_d"

def noticeProtectionDegraded : Text := text "protection_degraded"

def noticeIsMandatory (kind : Option Text) : Bool := decide (kind ≠ some noticeOptional)

inductive QueueStatus
  | pending
  | failed
  | accepted
  | abandoned
deriving DecidableEq, Repr

structure AlertRow where
  channel : Text
  recipient : Text
  message : Text
  intent : Text
  templateVariables : List Text
  actionTier : Text
  triggerName : Text
  originalTs : ℤ
  queuedAtMs : ℤ
  noticeKind : Option Text
  retrySeq : ℕ
  attemptCount : ℕ := 0
  lastAttemptTs : Option ℤ := none
  status : QueueStatus := .pending
  acceptedChannel : Text := []
  providerMessageId : Text := []
  providerStatus : Text := []
  acceptedAtMs : Option ℤ := none
  deliveredAtMs : Option ℤ := none
  lastStatusAtMs : Option ℤ := none
deriving DecidableEq, Repr

namespace AlertRow

/-- `status IN ('pending', 'failed')`. -/
def queued (row : AlertRow) : Bool := decide (row.status = .pending ∨ row.status = .failed)

/-- The acceptance the row records, by the channel and the id the provider gave it. -/
def acceptance (row : AlertRow) : List (Text × Text) :=
  if row.status = .accepted then [(row.acceptedChannel, row.providerMessageId)] else []

theorem acceptance_of_queued {row : AlertRow} (h : row.queued = true) : row.acceptance = [] := by
  unfold acceptance
  rw [if_neg]
  rcases of_decide_eq_true h with h | h <;> rw [h] <;> decide

end AlertRow

/-- What `enqueue_alert` is given of one notice. -/
structure AlertRequest where
  channel : Text
  recipient : Text
  message : Text
  intent : AlertIntent
  templateVariables : List Text
  actionTier : Text
  triggerName : Text
  originalTs : ℤ
  noticeKind : Text
deriving DecidableEq, Repr

/-- The rows by alert id, in the order of their row ids. -/
structure AlertOutbox where
  rows : Dict Text AlertRow
deriving DecidableEq

namespace AlertOutbox

def empty : AlertOutbox := ⟨Dict.empty⟩

variable (o : AlertOutbox)

def get? (alertId : Text) : Option AlertRow := o.rows.get? alertId

/-- `COALESCE(MAX(retry_seq), 0) + 1`. -/
def nextRetrySeq : ℕ := (o.rows.values.map AlertRow.retrySeq).foldr max 0 + 1

/-- `UPDATE alert_outbox SET … WHERE alert_id = ?`. -/
def amend (alertId : Text) (f : AlertRow → AlertRow) : AlertOutbox :=
  match o.rows.get? alertId with
  | none => o
  | some row => ⟨o.rows.set alertId (f row)⟩

/-- No row is added where the alert id is already taken. -/
def enqueueAlert (alertId : Text) (r : AlertRequest) (nowMs : ℤ) : Option AlertOutbox :=
  match o.rows.get? alertId with
  | some _ => none
  | none =>
    some ⟨o.rows.set alertId
      { channel := r.channel
        recipient := r.recipient
        message := r.message
        intent := r.intent.value
        templateVariables := r.templateVariables
        actionTier := r.actionTier
        triggerName := r.triggerName
        originalTs := r.originalTs
        queuedAtMs := nowMs
        noticeKind := some r.noticeKind
        retrySeq := o.nextRetrySeq }⟩

def selectRows (passes : AlertRow → Bool) (limit : ℕ) : List (Text × AlertRow) :=
  ((o.rows.items.filter (fun p => passes p.2)).insertionSort
    (fun p q => p.2.retrySeq ≤ q.2.retrySeq)).take limit

def getRetryableAlerts (limit : ℕ) (mandatory : Option Bool) : List (Text × AlertRow) :=
  o.selectRows (fun row => row.queued &&
    (mandatory.isNone || some (noticeIsMandatory row.noticeKind) == mandatory)) limit

def getAlertsAwaitingDeliveryReceipt (limit : ℕ) : List (Text × AlertRow) :=
  o.selectRows (fun row => decide (row.status = .accepted) && row.deliveredAtMs.isNone &&
    decide (row.providerMessageId ≠ [])) limit

def markAlertAccepted (alertId acceptedChannel providerMessageId providerStatus : Text)
    (acceptedAtMs : ℤ) (deliveredAtMs : Option ℤ) : AlertOutbox :=
  o.amend alertId fun row =>
    { row with
      status := .accepted
      retrySeq := o.nextRetrySeq
      acceptedChannel := acceptedChannel
      providerMessageId := providerMessageId
      providerStatus := providerStatus
      acceptedAtMs := some acceptedAtMs
      deliveredAtMs := deliveredAtMs
      lastAttemptTs := some acceptedAtMs
      lastStatusAtMs := some acceptedAtMs }

def deferAlert (alertId : Text) : AlertOutbox :=
  o.amend alertId fun row => if row.queued then { row with retrySeq := o.nextRetrySeq } else row

def requeueAlertReceiptPoll (alertId : Text) : AlertOutbox :=
  o.amend alertId fun row =>
    if row.status = .accepted ∧ row.deliveredAtMs = none then
      { row with retrySeq := o.nextRetrySeq }
    else row

def recordAlertDeliveryStatus (alertId providerStatus : Text) (observedAtMs : ℤ)
    (deliveredAtMs : Option ℤ) (terminalFailure : Bool) : AlertOutbox :=
  o.amend alertId fun row =>
    if row.status = .accepted then
      if terminalFailure then
        { row with
          status := .failed
          providerStatus := providerStatus
          lastStatusAtMs := some observedAtMs
          attemptCount := row.attemptCount + 1
          retrySeq := o.nextRetrySeq }
      else
        { row with
          providerStatus := providerStatus
          lastStatusAtMs := some observedAtMs
          deliveredAtMs := row.deliveredAtMs.or deliveredAtMs }
    else row

/-- The accepted alerts a provider's message id on a channel names. -/
def acceptedAs (channel providerMessageId : Text) : List (Text × AlertRow) :=
  o.rows.items.filter (fun p => decide (p.2.status = .accepted ∧ p.2.acceptedChannel = channel ∧
    p.2.providerMessageId = providerMessageId))

def recordAlertDeliveryStatusByProviderId (channel providerMessageId providerStatus : Text)
    (observedAtMs : ℤ) (deliveredAtMs : Option ℤ) (terminalFailure : Bool) : AlertOutbox × Bool :=
  match o.acceptedAs channel providerMessageId with
  | [row] =>
    (o.recordAlertDeliveryStatus row.1 providerStatus observedAtMs deliveredAtMs terminalFailure,
      true)
  | _ => (o, false)

def markAlertAttemptFailed (alertId : Text) (failedTsMs : ℤ) : AlertOutbox :=
  o.amend alertId fun row =>
    { row with
      attemptCount := row.attemptCount + 1
      lastAttemptTs := some failedTsMs
      status := .failed
      retrySeq := o.nextRetrySeq }

def markAlertAbandoned (alertId : Text) (abandonedTsMs : ℤ) : AlertOutbox :=
  o.amend alertId fun row =>
    if row.noticeKind = some noticeOptional then
      { row with
        status := .abandoned
        lastAttemptTs := some abandonedTsMs }
    else row

/-! ### What an update does to the rows -/

variable {o} {alertId : Text}

theorem get?_amend (f : AlertRow → AlertRow) (a : Text) : (o.amend alertId f).get? a =
    if a = alertId then (o.get? a).map f else o.get? a := by
  unfold amend get?
  cases hr : o.rows.get? alertId with
  | none =>
    by_cases ha : a = alertId
    · rw [if_pos ha, ha, hr]
      rfl
    · rw [if_neg ha]
  | some row =>
    rw [Dict.get?_set]
    by_cases ha : a = alertId
    · rw [if_pos ha, if_pos ha, ha, hr]
      rfl
    · rw [if_neg ha, if_neg ha]

theorem get?_amend_self (f : AlertRow → AlertRow) :
    (o.amend alertId f).get? alertId = (o.get? alertId).map f := by
  rw [get?_amend, if_pos rfl]

theorem get?_amend_of_ne (f : AlertRow → AlertRow) {a : Text} (h : a ≠ alertId) :
    (o.amend alertId f).get? a = o.get? a := by
  rw [get?_amend, if_neg h]

theorem enqueueAlert_eq_some {r : AlertRequest} {nowMs : ℤ} {o' : AlertOutbox}
    (h : o.enqueueAlert alertId r nowMs = some o') : o.get? alertId = none ∧
      ∃ row : AlertRow, row.status = .pending ∧ row.deliveredAtMs = none ∧
        ∀ a, o'.get? a = if a = alertId then some row else o.get? a := by
  unfold enqueueAlert at h
  cases hr : o.rows.get? alertId with
  | some row => rw [hr] at h; cases h
  | none =>
    rw [hr] at h
    cases h
    exact ⟨hr, _, rfl, rfl, fun a => Dict.get?_set _ _ _ _⟩

theorem mem_selectRows {passes : AlertRow → Bool} {limit : ℕ} {p : Text × AlertRow}
    (h : p ∈ o.selectRows passes limit) : o.get? p.1 = some p.2 ∧ passes p.2 = true := by
  have hm := (mem_insertionSort _).mp (mem_of_mem_take h)
  obtain ⟨hitem, hp⟩ := mem_filter.mp hm
  exact ⟨Dict.get?_eq_some_iff.mpr hitem, hp⟩

theorem nodup_selectRows (o : AlertOutbox) (passes : AlertRow → Bool) (limit : ℕ) :
    ((o.selectRows passes limit).map Prod.fst).Nodup := by
  have hf := o.rows.nodup.sublist
    ((filter_sublist (p := fun p => passes p.2) (l := o.rows.items)).map Prod.fst)
  have hsort := ((perm_insertionSort (fun p q : Text × AlertRow => p.2.retrySeq ≤ q.2.retrySeq)
    (o.rows.items.filter (fun p => passes p.2))).map Prod.fst).nodup_iff.mpr hf
  exact hsort.sublist ((take_sublist _ _).map _)

theorem mem_getRetryableAlerts {limit : ℕ} {mandatory : Bool} {p : Text × AlertRow}
    (h : p ∈ o.getRetryableAlerts limit (some mandatory)) : o.get? p.1 = some p.2 ∧
      p.2.queued = true ∧ noticeIsMandatory p.2.noticeKind = mandatory := by
  obtain ⟨hg, hp⟩ := mem_selectRows h
  simp only [Option.isNone_some, Bool.false_or, Bool.and_eq_true, beq_iff_eq,
    Option.some.injEq] at hp
  exact ⟨hg, hp⟩

theorem nodup_getRetryableAlerts (o : AlertOutbox) (limit : ℕ) (mandatory : Option Bool) :
    ((o.getRetryableAlerts limit mandatory).map Prod.fst).Nodup :=
  o.nodup_selectRows _ limit

theorem mem_getAlertsAwaitingDeliveryReceipt {limit : ℕ} {p : Text × AlertRow}
    (h : p ∈ o.getAlertsAwaitingDeliveryReceipt limit) :
    o.get? p.1 = some p.2 ∧ p.2.status = .accepted := by
  obtain ⟨hg, hp⟩ := mem_selectRows h
  simp only [Bool.and_eq_true, decide_eq_true_eq] at hp
  exact ⟨hg, hp.1.1⟩

theorem mem_acceptedAs {channel providerMessageId : Text} {p : Text × AlertRow}
    (h : p ∈ o.acceptedAs channel providerMessageId) : o.get? p.1 = some p.2 ∧
      p.2.status = .accepted ∧ p.2.acceptedChannel = channel ∧
        p.2.providerMessageId = providerMessageId := by
  obtain ⟨hitem, hp⟩ := mem_filter.mp h
  exact ⟨Dict.get?_eq_some_iff.mpr hitem, of_decide_eq_true hp⟩

end AlertOutbox

end OriRuntime
