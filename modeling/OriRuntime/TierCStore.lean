import OriRuntime.Dict

/-!
# The Tier C store

`ori/state/_tier_c.py`: proposals, the record of every state they passed through, their safe-default
intents, and the reconciliations of uncertain dispatches. Each operation is one transaction: it
answers with the store it leaves. Rows are never deleted.
-/

namespace OriRuntime

inductive DecisionState where
  | proposed
  | proposalExpired
  | rejected
  | approvedPendingDispatch
  | dispatchStarted
  | executed
  | approvalExpiredUndispatched
  | approvalAbortedUndispatched
  | proposalAbortedRestart
  | approvalBindingChanged
  | proposalBlockedUncertainOutcome
  | dispatchRefusedContention
  | dispatchFailed
  | dispatchOutcomeUnknown
  | dispatchNotProven
  | reconciledExecuted
  | reconciledNotExecuted
  deriving DecidableEq, Repr

namespace DecisionState

def text : DecisionState → String
  | proposed => "proposed"
  | proposalExpired => "proposal_expired"
  | rejected => "rejected"
  | approvedPendingDispatch => "approved_pending_dispatch"
  | dispatchStarted => "dispatch_started"
  | executed => "executed"
  | approvalExpiredUndispatched => "approval_expired_undispatched"
  | approvalAbortedUndispatched => "approval_aborted_undispatched"
  | proposalAbortedRestart => "proposal_aborted_restart"
  | approvalBindingChanged => "approval_binding_changed"
  | proposalBlockedUncertainOutcome => "proposal_blocked_uncertain_outcome"
  | dispatchRefusedContention => "dispatch_refused_contention"
  | dispatchFailed => "dispatch_failed"
  | dispatchOutcomeUnknown => "dispatch_outcome_unknown"
  | dispatchNotProven => "dispatch_not_proven"
  | reconciledExecuted => "reconciled_executed"
  | reconciledNotExecuted => "reconciled_not_executed"

/-- An approval whose outcome is not recorded yet. -/
def inFlight (s : DecisionState) : Bool :=
  decide (s ∈ [approvedPendingDispatch, dispatchStarted])

/-- A dispatch an operator has yet to reconcile. -/
def uncertain (s : DecisionState) : Bool :=
  decide (s ∈ [dispatchOutcomeUnknown, dispatchNotProven])

/-- The states in which a proposal keeps its outcome from others at reply admission. -/
def blocks (s : DecisionState) : Bool := s.inFlight || s.uncertain

def wasAdmitted (s : DecisionState) : Bool :=
  decide (s ∈ [approvedPendingDispatch, dispatchStarted, executed, approvalExpiredUndispatched,
    approvalAbortedUndispatched, dispatchRefusedContention, dispatchFailed, dispatchOutcomeUnknown,
    dispatchNotProven, reconciledExecuted, reconciledNotExecuted])

end DecisionState

structure ProposalFields where
  deviceId : String
  action : String
  target : String := ""
  zoneId : String
  outcome : String
  eventId : String := ""
  skillName : String := ""
  triggerName : String := ""
  safeDefaultAction : String := ""
  bindingDigest : String := ""
  authorityJson : String := ""
  createdAtMs : ℤ
  expiresAtMs : ℤ
  deriving DecidableEq, Repr

/-- A row of `tier_c_proposals`; its `proposal_id` is its key. -/
structure Proposal extends ProposalFields where
  decisionState : DecisionState
  stateReason : String := ""
  ingressChannel : String := ""
  ingressFrom : String := ""
  ingressMessageId : String := ""
  operatorResponse : String := ""
  offlineTokenId : String := ""
  committedAtMs : Option ℤ := none
  outcomeJson : Option String := none
  updatedAtMs : ℤ
  deriving DecidableEq, Repr

structure ProposalRecord where
  proposalId : String
  decisionState : DecisionState
  stateReason : String
  recordedAtMs : ℤ
  deriving DecidableEq, Repr

inductive IntentOutcome where
  | pending
  | executed
  | failed
  deriving DecidableEq, Repr

/-- A row of `tier_c_safe_default_intents`; its `proposal_id` is its key. -/
structure SafeDefaultIntent where
  action : String
  reason : String
  outcome : IntentOutcome
  createdAtMs : ℤ
  updatedAtMs : ℤ
  deriving DecidableEq, Repr

structure OfflineToken where
  deviceId : String
  action : String
  consumedAt : ℤ
  deriving DecidableEq, Repr

structure Principal where
  uid : Option ℤ
  account : Option String
  loginUid : Option ℤ
  deriving DecidableEq, Repr

structure Reconciliation where
  deviceId : String
  zoneId : String
  decisionState : DecisionState
  reason : String
  note : Option String
  source : String
  principal : Principal
  entryPoint : String
  recordedAtMs : ℤ
  deriving DecidableEq, Repr

structure ReconcileAttempt where
  proposalId : String
  principal : Principal
  recordedAtMs : ℤ
  deriving DecidableEq, Repr

structure TierCStore where
  proposals : Dict String Proposal := Dict.empty
  records : List ProposalRecord := []
  intents : Dict String SafeDefaultIntent := Dict.empty
  tokens : Dict String OfflineToken := Dict.empty
  reconciliations : Dict String Reconciliation := Dict.empty
  reconcileAttempts : List ReconcileAttempt := []
  deriving DecidableEq

inductive Creation where
  | committed
  | blocked
  | duplicate
  deriving DecidableEq, Repr

/-- The answer to an affirmative reply; `closed none` when no such proposal exists. -/
inductive ReplyAdmission where
  | committed
  | duplicate
  | bindingChanged
  | blocked
  | reservationUnavailable
  | tokenReplayed
  | closed (state : Option DecisionState)
  deriving DecidableEq, Repr

structure Ingress where
  channel : String := ""
  sender : String := ""
  messageId : String := ""
  operatorResponse : String := ""
  offlineTokenId : String := ""
  deriving DecidableEq, Repr

structure ReconcileRequest where
  proposalId : String
  deviceId : String
  runtimeDeviceId : String
  zoneId : String
  outcome : String
  reason : String
  note : Option String
  source : String
  entryPoint : String
  principal : Principal
  deriving DecidableEq, Repr

inductive ReconcileError where
  | invalidArguments
  | deviceMismatch
  | unknownProposal
  | zoneMismatch
  | alreadyReconciled
  | notUncertain
  deriving DecidableEq, Repr

namespace TierCStore

/-- Whether an unresolved approval commands the outcome on the zone. Without `inFlightBlocks` only an
unresolved uncertainty does. -/
def outcomeBlocked (s : TierCStore) (zoneId outcome : String) (exceptProposal : Option String)
    (inFlightBlocks : Bool) : Bool :=
  s.proposals.items.any (fun p => decide (p.2.zoneId = zoneId) && decide (p.2.outcome = outcome) &&
    (if inFlightBlocks then p.2.decisionState.blocks else p.2.decisionState.uncertain) &&
    decide (exceptProposal ≠ some p.1))

def appendRecord (s : TierCStore) (proposalId : String) (state : DecisionState) (reason : String)
    (now : ℤ) : TierCStore :=
  { s with records := s.records ++ [⟨proposalId, state, reason, now⟩] }

/-- The one pending intent a proposal may hold; `false` when it exists. -/
def insertIntent (s : TierCStore) (proposalId action reason : String) (now : ℤ) :
    TierCStore × Bool :=
  if action = "" ∨ (s.intents.get? proposalId).isSome then (s, false)
  else ({ s with intents := s.intents.set proposalId ⟨action, reason, .pending, now, now⟩ }, true)

def setState (s : TierCStore) (proposalId : String) (row : Proposal) (state : DecisionState)
    (reason : String) (outcomeJson : Option String) (now : ℤ) : TierCStore :=
  { s with
    proposals := s.proposals.set proposalId
      { row with
        decisionState := state
        stateReason := reason
        outcomeJson := outcomeJson.or row.outcomeJson
        updatedAtMs := now } }.appendRecord proposalId state reason now

def createTierCProposal (s : TierCStore) (proposalId : String) (row : ProposalFields) (now : ℤ) :
    TierCStore × Creation :=
  if s.outcomeBlocked row.zoneId row.outcome none false then (s, .blocked)
  else if (s.proposals.get? proposalId).isSome then (s, .duplicate)
  else
    ({ s with
        proposals := s.proposals.set proposalId
          { row with decisionState := .proposed, updatedAtMs := now } }.appendRecord
        proposalId .proposed "" now, .committed)

def reserved (s : TierCStore) : ℕ := s.proposals.values.countP (fun r => r.decisionState.inFlight)

/-- Close a proposal whose reply may not be admitted, with its safe-default intent. -/
def refuseReply (s : TierCStore) (proposalId : String) (row : Proposal) (state : DecisionState)
    (now : ℤ) : TierCStore :=
  ((s.setState proposalId row state "" none now).insertIntent proposalId row.safeDefaultAction
    state.text now).1

/-- The claim of an offline token, `none` when it was claimed before. -/
def claimToken (s : TierCStore) (tokenId : String) (row : Proposal) (now : ℤ) : Option TierCStore :=
  if tokenId = "" then some s
  else if (s.tokens.get? tokenId).isSome then none
  else some { s with tokens := s.tokens.set tokenId ⟨row.deviceId, row.action, now⟩ }

def approve (s : TierCStore) (proposalId : String) (row : Proposal) (ingress : Ingress) (now : ℤ) :
    TierCStore :=
  { s with
    proposals := s.proposals.set proposalId
      { row with
        decisionState := .approvedPendingDispatch
        stateReason := ""
        ingressChannel := ingress.channel
        ingressFrom := ingress.sender
        ingressMessageId := ingress.messageId
        operatorResponse := ingress.operatorResponse
        offlineTokenId := ingress.offlineTokenId
        committedAtMs := some now
        updatedAtMs := now } }.appendRecord proposalId .approvedPendingDispatch "" now

/-- Admit an operator's affirmative reply. -/
def admitTierCApproval (s : TierCStore) (proposalId bindingDigest authorityJson : String)
    (ceiling : ℤ) (ingress : Ingress) (now : ℤ) : TierCStore × ReplyAdmission :=
  match s.proposals.get? proposalId with
  | none => (s, .closed none)
  | some row =>
    if row.decisionState ≠ .proposed then
      (s, if row.decisionState.wasAdmitted then .duplicate else .closed (some row.decisionState))
    else if row.bindingDigest ≠ bindingDigest ∨ row.authorityJson ≠ authorityJson then
      (s.refuseReply proposalId row .approvalBindingChanged now, .bindingChanged)
    else if s.outcomeBlocked row.zoneId row.outcome (some proposalId) true then
      (s.refuseReply proposalId row .proposalBlockedUncertainOutcome now, .blocked)
    else if ceiling ≤ s.reserved then (s, .reservationUnavailable)
    else
      match s.claimToken ingress.offlineTokenId row now with
      | none => (s, .tokenReplayed)
      | some s' => (s'.approve proposalId row ingress now, .committed)

/-- Move a proposal forward; `false` when it was elsewhere. With a safe default, the proposal's one
intent is created in the same transaction. -/
def advanceTierCProposal (s : TierCStore) (proposalId : String) (state : DecisionState)
    (fromStates : List DecisionState) (reason : String) (outcomeJson safeDefaultAction : Option String)
    (now : ℤ) : TierCStore × Bool :=
  if state = .proposed then (s, false)
  else
    match s.proposals.get? proposalId with
    | none => (s, false)
    | some row =>
      if row.decisionState ∈ fromStates then
        let s' := s.setState proposalId row state reason outcomeJson now
        ((s'.insertIntent proposalId (safeDefaultAction.getD "") reason now).1, true)
      else (s, false)

/-- The intent's outcome after making sure it exists. -/
def ensureTierCSafeDefaultIntent (s : TierCStore) (proposalId action reason : String) (now : ℤ) :
    TierCStore × IntentOutcome :=
  let s' := (s.insertIntent proposalId action reason now).1
  (s', ((s'.intents.get? proposalId).map (·.outcome)).getD .pending)

def markTierCSafeDefaultIntent (s : TierCStore) (proposalId : String) (outcome : IntentOutcome)
    (now : ℤ) : TierCStore :=
  match s.intents.get? proposalId with
  | none => s
  | some i =>
    { s with intents := s.intents.set proposalId { i with outcome := outcome, updatedAtMs := now } }

/-- Rows in the given states, oldest first; every row when none is named. -/
def getTierCProposals (s : TierCStore) (states : List DecisionState) : List (String × Proposal) :=
  (s.proposals.items.filter (fun p => decide (states = [] ∨ p.2.decisionState ∈ states))).mergeSort
    (fun a b => decide (a.2.createdAtMs < b.2.createdAtMs ∨
      (a.2.createdAtMs = b.2.createdAtMs ∧ a.1 ≤ b.1)))

/-- Intents never reported done whose proposal exists, oldest first. -/
def getPendingTierCSafeDefaultIntents (s : TierCStore) : List (String × SafeDefaultIntent) :=
  (s.intents.items.filter (fun p => decide (p.2.outcome = .pending) &&
    (s.proposals.get? p.1).isSome)).mergeSort
    (fun a b => decide (a.2.createdAtMs < b.2.createdAtMs ∨
      (a.2.createdAtMs = b.2.createdAtMs ∧ a.1 ≤ b.1)))

def reconcileState? (outcome : String) : Option DecisionState :=
  if outcome = "executed" then some .reconciledExecuted
  else if outcome = "not-executed" then some .reconciledNotExecuted
  else none

/-- A repeat of a recorded observation: the same record again, and an audit attempt when another
principal makes it. -/
def repeatReconcile (s : TierCStore) (req : ReconcileRequest) (state : DecisionState)
    (existing : Reconciliation) (now : ℤ) :
    TierCStore × Except ReconcileError (Reconciliation × Bool) :=
  if existing.decisionState = state ∧ existing.reason = req.reason ∧ existing.note = req.note then
    if existing.principal.uid = req.principal.uid ∧
        existing.principal.loginUid = req.principal.loginUid then
      (s, .ok (existing, true))
    else
      ({ s with reconcileAttempts := s.reconcileAttempts ++ [⟨req.proposalId, req.principal, now⟩] },
        .ok (existing, true))
  else (s, .error .alreadyReconciled)

/-- Append an observed terminal outcome to an uncertain dispatch. -/
def reconcileTierC (s : TierCStore) (req : ReconcileRequest) (now : ℤ) :
    TierCStore × Except ReconcileError (Reconciliation × Bool) :=
  match reconcileState? req.outcome with
  | none => (s, .error .invalidArguments)
  | some state =>
    if req.deviceId ≠ req.runtimeDeviceId then (s, .error .deviceMismatch)
    else
      match s.proposals.get? req.proposalId with
      | none => (s, .error .unknownProposal)
      | some row =>
        if row.deviceId ≠ req.deviceId then (s, .error .unknownProposal)
        else if row.zoneId ≠ req.zoneId then (s, .error .zoneMismatch)
        else
          match s.reconciliations.get? req.proposalId with
          | some existing => s.repeatReconcile req state existing now
          | none =>
            if row.decisionState.uncertain then
              let record : Reconciliation :=
                ⟨req.deviceId, req.zoneId, state, req.reason, req.note, req.source, req.principal,
                  req.entryPoint, now⟩
              ({ s with reconciliations := s.reconciliations.set req.proposalId record }.setState
                req.proposalId row state req.source none now, .ok (record, false))
            else (s, .error .notUncertain)

end TierCStore

end OriRuntime
