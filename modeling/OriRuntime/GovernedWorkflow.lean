import OriRuntime.ActionRegistry
import OriRuntime.TierCMoves

/-!
# The governed approval workflow

`ori/reasoning/action_dispatcher.py`: the Tier C proposal from its row to its outcome, the passes that
close what a process leaves open, and the background writes beside an act. A coroutine awaits one
store transaction at a time. The transaction lands and then answers, or raises; a cancelled coroutine
leaves its transaction adrift, which may still land. A restart keeps the store alone.
-/

namespace OriRuntime

open TierCStore (Op Answer)

/-- Where a coroutine awaits. -/
inductive Stage where
  | creating (row : ProposalFields) (attempt : ℕ)
  | listening
  | admitting (bindingDigest authorityJson : String) (ingress : Ingress)
  | admitted
  | closing (move : Move) (reason intentReason : String) (attempt : ℕ)
  | holding (move : Move) (reason intentReason : String) (attempt : ℕ)
  | ensuring (reason : String)
  | defaulting
  | marking (outcome : IntentOutcome)
  | acting
  | starting
  | appending (move : Move) (outcomeJson : String)
  | settling (move : Move)
  deriving DecidableEq, Repr

/-- A coroutine at work on one proposal; `landed` is the answer of its transaction once it landed. -/
structure Job where
  proposalId : String
  commanded : String × String
  safeDefault : String
  stateReason : String := ""
  stage : Stage
  landed : Option Answer := none
  deriving DecidableEq

inductive JobId where
  | flow (n : ℕ)
  | background (n : ℕ)
  | recovery
  | stop
  deriving DecidableEq, Repr

/-- Whether a close the store did not take ends the job, as in `_abort_open_proposal`. -/
def JobId.aborts : JobId → Bool
  | .recovery | .stop => true
  | _ => false

/-- What a run leaves on record, newest first. `reported` is the end of an attempt at a safe default,
`unboundDefault` the safe default of a proposal that was never created. -/
inductive TierCEvent where
  | committed (proposalId bindingDigest authorityJson : String)
  | entered (proposalId : String)
  | safeDefault (proposalId : String)
  | reported (proposalId : String)
  | unboundDefault
  deriving DecidableEq, Repr

/-- What the process holds of outcomes it could not append yet. -/
structure LiveOutcomes where
  pending : List String := []
  unknown : Dict String (String × String) := Dict.empty
  appendFailed : Dict String (String × String) := Dict.empty
  deriving DecidableEq

/-- `tier_c_outcome_held_live`. -/
def LiveOutcomes.held (l : LiveOutcomes) (commanded : String × String) : Bool :=
  decide (commanded ∈ l.unknown.values ++ l.appendFailed.values)

/-- What the last checks before an act found. -/
inductive DispatchCheck where
  | expired
  | refused
  | clear
  deriving DecidableEq, Repr

/-- How the executor's call ended. -/
inductive ActReport where
  | executed
  | notPerformed
  | other
  | raised
  deriving DecidableEq, Repr

def ActReport.move : ActReport → Move
  | executed => .recordExecuted
  | notPerformed => .recordFailed
  | other | raised => .recordUnknown

/-- What a coroutine is resumed with. -/
inductive Input where
  | answers (a : Answer) (freshId : String)
  | raises
  | reads
  | reply (bindingDigest authorityJson : String) (ingress : Ingress)
  | concludes (rejected : Bool) (endDecision : String)
  | checks (c : DispatchCheck)
  | reports (r : ActReport) (outcomeJson : String)
  | defaulted (executed : Bool)
  deriving DecidableEq, Repr

/-- What a coroutine does until its next await. `escapes` when an error leaves it. -/
structure Handled where
  next : Option Job
  events : List TierCEvent := []
  spawn : Option Job := none
  live : LiveOutcomes
  escapes : Bool := false

namespace Job

/-- The transaction a stage awaits. -/
def op? (j : Job) (ceiling : ℤ) : Option Op :=
  match j.stage with
  | .creating row _ => some (.create j.proposalId row)
  | .admitting b a i => some (.admitApproval j.proposalId b a ceiling i)
  | .closing m reason _ _ => some (.advance j.proposalId m reason none (some j.safeDefault))
  | .ensuring reason => some (.ensureIntent j.proposalId j.safeDefault reason)
  | .marking o => some (.markIntent j.proposalId o)
  | .starting => some (.advance j.proposalId .start "" none none)
  | .appending m json => some (.advance j.proposalId m "" (some json) none)
  | .settling m => some (.advance j.proposalId m "runtime_restart" none none)
  | .listening | .admitted | .holding _ _ _ _ | .defaulting | .acting => none

/-- The next await, at another stage. -/
def goto (j : Job) (stage : Stage) : Job := { j with stage := stage, landed := none }

/-- The head of `_close_now`. -/
def close (j : Job) (move : Move) (reason intentReason : String) : Job :=
  j.goto (.closing move reason intentReason 0)

def expiryReason (j : Job) (endDecision : String) : String :=
  if j.stateReason = "" then endDecision else j.stateReason

/-- What the decision a closed proposal was found in still asks of the workflow. -/
def foundClosed (j : Job) : Option DecisionState → Job
  | some .rejected => j.close .reject j.stateReason DecisionState.rejected.text
  | some .proposalExpired =>
    j.close .expire (j.expiryReason "") DecisionState.proposalExpired.text
  | some state => j.goto (.ensuring state.text)
  | none => j.goto (.ensuring "none")

/-- A task the dispatcher tracks beside the workflow. -/
def background (j : Job) (stage : Stage) : Job :=
  { proposalId := j.proposalId, commanded := j.commanded, safeDefault := "", stage := stage }

end Job

/-- `_record_outcome`: an append on its own task, or a live unknown when the structure is full. -/
def recordOutcome (ceiling : ℤ) (live : LiveOutcomes) (j : Job) (move : Move) (outcomeJson : String) :
    Handled :=
  if ceiling < live.pending.length then
    { next := none
      live :=
        { live with
          pending := live.pending.erase j.proposalId
          unknown := live.unknown.set j.proposalId j.commanded } }
  else { next := none, spawn := some (j.background (.appending move outcomeJson)), live := live }

namespace Job

/-- A close that was or was not taken: the workflow goes on to the safe default either way. -/
def afterClose (id : JobId) (live : LiveOutcomes) (j : Job) (intentReason : String) (taken : Bool) :
    Handled :=
  if id.aborts && !taken then { next := none, live := live }
  else { next := some (j.goto (.ensuring intentReason)), live := live }

def attemptDefault (live : LiveOutcomes) (j : Job) : Handled :=
  { next := some (j.goto .defaulting), events := [.safeDefault j.proposalId], live := live }

def answerReply (live : LiveOutcomes) (j : Job) (bindingDigest authorityJson : String) :
    ReplyAdmission → Handled
  | .committed =>
    { next := some (j.goto .admitted)
      events := [.committed j.proposalId bindingDigest authorityJson]
      live := live }
  | .bindingChanged =>
    { next := some (j.goto (.ensuring DecisionState.approvalBindingChanged.text)), live := live }
  | .blocked =>
    { next := some (j.goto (.ensuring DecisionState.proposalBlockedUncertainOutcome.text))
      live := live }
  | .duplicate | .tokenReplayed => { next := some (j.goto .listening), live := live }
  | .reservationUnavailable =>
    { next := some { j.goto .listening with stateReason := "reservation_unavailable" }, live := live }
  | .closed state => { next := some (j.foundClosed state), live := live }

def answered (id : JobId) (live : LiveOutcomes) (j : Job) (freshId : String) : Answer → Option Handled
  | .created c =>
    match j.stage, c with
    | .creating _ _, .committed => some { next := some (j.goto .listening), live := live }
    | .creating row n, .duplicate =>
      if n < 2 then
        some
          { next := some { j.goto (.creating row (n + 1)) with proposalId := freshId }, live := live }
      else some { next := none, events := [.unboundDefault], live := live }
    | .creating _ _, .blocked => some { next := none, events := [.unboundDefault], live := live }
    | _, _ => none
  | .admitted a =>
    match j.stage with
    | .admitting b au _ => some (j.answerReply live b au a)
    | _ => none
  | .moved b =>
    match j.stage with
    | .closing m r ir n =>
      if b then some (j.afterClose id live ir true)
      else some { next := some (j.goto (.holding m r ir n)), live := live }
    | .starting => some { next := none, live := live }
    | .appending _ _ =>
      some
        { next := none
          live :=
            { live with
              pending := live.pending.erase j.proposalId
              appendFailed := live.appendFailed.pop j.proposalId } }
    | .settling _ => some { next := none, live := live }
    | _ => none
  | .intent o =>
    match j.stage with
    | .ensuring _ =>
      if o = .pending then some (j.attemptDefault live) else some { next := none, live := live }
    | _ => none
  | .done =>
    match j.stage with
    | .marking _ => some { next := none, live := live }
    | _ => none

/-- A transaction, a read or the safe default raised. -/
def raised (id : JobId) (live : LiveOutcomes) (j : Job) : Option Handled :=
  match j.stage with
  | .creating _ _ => some { next := none, events := [.unboundDefault], live := live }
  | .admitting _ _ _ =>
    some { next := some { j.goto .listening with stateReason := "store_unavailable" }, live := live }
  | .closing m r ir n | .holding m r ir n =>
    if n = 5 then some (j.afterClose id live ir false)
    else some { next := some (j.goto (.closing m r ir (n + 1))), live := live }
  | .ensuring _ => some (j.attemptDefault live)
  | .marking _ | .starting => some { next := none, live := live }
  | .appending m json =>
    some
      { next := some (j.goto (.appending m json))
        live := { live with appendFailed := live.appendFailed.setdefault j.proposalId j.commanded } }
  | .settling _ | .defaulting => some { next := none, live := live, escapes := true }
  | .listening | .admitted | .acting => none

/-- `_dispatch_admitted`, up to the executor's call: the marker is asked for beside it. -/
def dispatch (live : LiveOutcomes) (j : Job) : DispatchCheck → Handled
  | .expired => { next := some (j.close .expireApproval "expired" "expired"), live := live }
  | .refused => { next := some (j.close .refuseContention "resource_held" "contention"), live := live }
  | .clear =>
    { next := some (j.goto .acting)
      events := [.entered j.proposalId]
      spawn := some (j.background .starting)
      live := { live with pending := live.pending.insert j.proposalId } }

/-- A coroutine resumed; `held` is the state its proposal's row holds. -/
def handle (id : JobId) (ceiling : ℤ) (live : LiveOutcomes) (held : Option DecisionState) (j : Job) :
    Input → Option Handled
  | .answers a freshId => if j.landed = some a then j.answered id live freshId a else none
  | .raises => j.raised id live
  | .reads =>
    match j.stage with
    | .holding m _ ir _ => some (j.afterClose id live ir (decide (held = some m.target)))
    | _ => none
  | .reply b a i =>
    match j.stage with
    | .listening => some { next := some (j.goto (.admitting b a i)), live := live }
    | _ => none
  | .concludes rejected endDecision =>
    match j.stage with
    | .listening =>
      if rejected then
        some
          { next := some (j.close .reject j.stateReason DecisionState.rejected.text), live := live }
      else
        some
          { next := some (j.close .expire (j.expiryReason endDecision)
              DecisionState.proposalExpired.text)
            live := live }
    | _ => none
  | .checks c =>
    match j.stage with
    | .admitted => some (j.dispatch live c)
    | _ => none
  | .reports r outcomeJson =>
    match j.stage with
    | .acting => some (recordOutcome ceiling live j r.move outcomeJson)
    | _ => none
  | .defaulted executed =>
    match j.stage with
    | .defaulting =>
      some
        { next := some (j.goto (.marking (if executed then .executed else .failed)))
          events := [.reported j.proposalId]
          live := live }
    | _ => none

end Job

/-- Where `recover_tier_c_at_start` stands; the lists are what it has still to visit. -/
inductive Recovery where
  | due
  | settling (rows : List (String × Proposal))
  | resuming (intents : List (String × SafeDefaultIntent))
  | done
  | failed
  deriving DecidableEq

structure GovernedConfig where
  pendingCeiling : ℤ
  safeDefaultAdmitted : String → Bool

/-- A safe default that may stand as one, or the default one. -/
def GovernedConfig.admittedDefault (c : GovernedConfig) (action : String) : String :=
  if c.safeDefaultAdmitted action then action else defaultSafeDefaultAction

structure Governed where
  config : GovernedConfig
  store : TierCStore := {}
  jobs : JobId → Option Job := fun _ => none
  jobCount : ℕ := 0
  adrift : List Op := []
  recovery : Recovery := .due
  stopping : List (String × Proposal) := []
  live : LiveOutcomes := {}
  trace : List TierCEvent := []

namespace Governed

def setJob (s : Governed) (id : JobId) (j : Option Job) : Governed :=
  { s with jobs := Function.update s.jobs id j }

/-- A job starts on a slot of its own. -/
def spawn (s : Governed) (slot : ℕ → JobId) (j : Option Job) : Governed :=
  match j with
  | none => s
  | some j => { s.setJob (slot s.jobCount) (some j) with jobCount := s.jobCount + 1 }

def passEnds (s : Governed) : JobId → Governed
  | .recovery => { s with recovery := .failed }
  | .stop => { s with stopping := [] }
  | _ => s

def apply (s : Governed) (id : JobId) (h : Handled) : Governed :=
  let s' := ({ s with trace := h.events ++ s.trace, live := h.live }.setJob id h.next).spawn
    .background h.spawn
  if h.escapes then s'.passEnds id else s'

/-- The state the proposal's row holds. -/
def held (s : Governed) (proposalId : String) : Option DecisionState :=
  (s.store.proposals.get? proposalId).map (·.decisionState)

/-- The workflow of a proposal, before its row. -/
def proposeJob (proposalId : String) (row : ProposalFields) : Job where
  proposalId := proposalId
  commanded := (row.zoneId, row.outcome)
  safeDefault := row.safeDefaultAction
  stage := .creating row 0

/-- `_abort_open_proposal`. -/
def abortJob (c : GovernedConfig) (proposalId : String) (row : Proposal) (reason : String) : Job where
  proposalId := proposalId
  commanded := (row.zoneId, row.outcome)
  safeDefault := c.admittedDefault
    (if row.safeDefaultAction = "" then defaultSafeDefaultAction else row.safeDefaultAction)
  stage := .closing .abortRestart reason reason 0

def recoverRow (c : GovernedConfig) (proposalId : String) (row : Proposal) : Option Job :=
  match row.decisionState with
  | .proposed => some (abortJob c proposalId row "runtime_restart")
  | .approvedPendingDispatch =>
    some ⟨proposalId, (row.zoneId, row.outcome), "", "", .settling .recoverUnproven, none⟩
  | .dispatchStarted =>
    some ⟨proposalId, (row.zoneId, row.outcome), "", "", .settling .recoverUnknown, none⟩
  | _ => none

/-- A safe default a previous process committed to and never reported. -/
def resumeJob (c : GovernedConfig) (proposalId : String) (i : SafeDefaultIntent) : Job where
  proposalId := proposalId
  commanded := ("", "")
  safeDefault := c.admittedDefault i.action
  stage := .ensuring (if i.reason = "" then "runtime_restart" else i.reason)

def recoveryStates : List DecisionState :=
  [.proposed, .approvedPendingDispatch, .dispatchStarted, .dispatchOutcomeUnknown, .dispatchNotProven]

inductive Action where
  | restart (config : GovernedConfig)
  | recover
  | recoverNext
  | resume
  | resumeNext
  | recovered
  | recoveryFails
  | stop
  | stopNext
  | propose (proposalId : String) (row : ProposalFields)
  | lands (id : JobId) (now : ℤ)
  | input (id : JobId) (i : Input)
  | cancels (id : JobId)
  | drifts (op : Op) (now : ℤ)
  | reconcile (req : ReconcileRequest) (now : ℤ)

/-- A cancelled coroutine: its transaction is adrift, and an act it was driving is recorded
unknown. -/
def cancel (s : Governed) (id : JobId) (j : Job) : Governed :=
  let s' : Governed :=
    { s with adrift := if j.landed.isNone then s.adrift ++ (j.op? s.config.pendingCeiling).toList
                       else s.adrift }
  match j.stage with
  | .acting => s'.apply id (recordOutcome s.config.pendingCeiling s.live j .recordUnknown
      "\x7b\"interrupted\": true\x7d")
  | _ => (s'.setJob id none).passEnds id

def step (s : Governed) : Action → Option Governed
  | .restart config => some { config := config, store := s.store, trace := s.trace }
  | .recover =>
    if s.recovery = .due then
      some { s with recovery := .settling (s.store.getTierCProposals recoveryStates) }
    else none
  | .recoverNext =>
    match s.recovery, s.jobs .recovery with
    | .settling ((p, row) :: rest), none =>
      some ({ s with recovery := .settling rest }.setJob .recovery (recoverRow s.config p row))
    | _, _ => none
  | .resume =>
    if s.recovery = .settling [] ∧ s.jobs .recovery = none then
      some { s with recovery := .resuming s.store.getPendingTierCSafeDefaultIntents }
    else none
  | .resumeNext =>
    match s.recovery, s.jobs .recovery with
    | .resuming ((p, i) :: rest), none =>
      some ({ s with recovery := .resuming rest }.setJob .recovery (some (resumeJob s.config p i)))
    | _, _ => none
  | .recovered =>
    if s.recovery = .resuming [] ∧ s.jobs .recovery = none then some { s with recovery := .done }
    else none
  | .recoveryFails =>
    if s.recovery = .due ∨ (s.recovery = .settling [] ∧ s.jobs .recovery = none) then
      some { s with recovery := .failed }
    else none
  | .stop =>
    if s.stopping = [] ∧ s.jobs .stop = none then
      some { s with stopping := s.store.getTierCProposals [.proposed] }
    else none
  | .stopNext =>
    match s.stopping, s.jobs .stop with
    | (p, row) :: rest, none =>
      some ({ s with stopping := rest }.setJob .stop
        (some (abortJob s.config p row "graceful_shutdown")))
    | _, _ => none
  | .propose p row =>
    match s.recovery with
    | .done =>
      if s.live.held (row.zoneId, row.outcome) then
        some { s with trace := .unboundDefault :: s.trace }
      else
        some (s.spawn .flow (some (proposeJob p row)))
    | .failed => some { s with trace := .unboundDefault :: s.trace }
    | _ => none
  | .lands id now =>
    match s.jobs id with
    | none => none
    | some j =>
      match j.landed, j.op? s.config.pendingCeiling with
      | none, some op =>
        let r := s.store.perform now op
        some ({ s with store := r.1 }.setJob id (some { j with landed := some r.2 }))
      | _, _ => none
  | .input id i =>
    match s.jobs id with
    | none => none
    | some j => (j.handle id s.config.pendingCeiling s.live (s.held j.proposalId) i).map (s.apply id)
  | .cancels id =>
    if id = .recovery then none
    else (s.jobs id).map (s.cancel id)
  | .drifts op now =>
    if op ∈ s.adrift then
      some { s with store := (s.store.perform now op).1, adrift := s.adrift.erase op }
    else none
  | .reconcile req now => some { s with store := (s.store.perform now (.reconcile req)).1 }

end Governed

end OriRuntime
