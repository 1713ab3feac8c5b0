import OriRuntime.Evaluation
import OriRuntime.ResourceIdentity

/-!
# One zone-profile pair's trip state

`ori/safety/trip_state.py`: the journal grammar a start loads, the trip-state machine, and the
zonal deferred-startup gate. An operation that raises in the source answers with an error here,
beside the machine as the source leaves it.
-/

namespace OriRuntime

inductive TripStatus where
  | inactive
  | armed
  | tripped
  deriving DecidableEq, Repr

inductive CommandStatus where
  | none
  | commandPending
  | driverRefused
  | commandIssued
  deriving DecidableEq, Repr

inductive RecordState where
  | committed
  | pending
  deriving DecidableEq, Repr

inductive Effect where
  | unknown
  | matched
  | mismatched
  deriving DecidableEq, Repr

inductive TerminalState where
  | circuitOpen
  | circuitClosed
  deriving DecidableEq, Repr

inductive StartupCommand where
  | none
  | deEnergised
  | deferred
  deriving DecidableEq, Repr

inductive Refusal where
  | tripped
  | safetyPathUnconfirmed
  | noCredibleReading
  | notTripped
  | conditionActive
  | noAuthority
  | notOrphaned
  deriving DecidableEq, Repr

inductive Retry where
  | attempted
  | skipped
  deriving DecidableEq, Repr

inductive TripError where
  | unknownDurableState (state : String)
  | malformedEntry
  | unreadableJournal
  | unknownRecordStatus (status : PyValue)
  | repeatedAttemptId (attemptId : String)
  | unjustifiedResolution
  | unknownDurableStatus (status : String)
  | recordWithoutTrippedState
  | trippedStateWithoutRecord
  | unknownRejectReason (reason : Option Reason)
  | unknownVerdict (verdict : EvaluationVerdict)
  | unknownEffect (result : String)
  | noCommandToAttempt (state : TripStatus) (status : CommandStatus)
  | attemptAlreadyInFlight
  | noAttemptToRelease
  | noCommandToAnswer (state : TripStatus) (status : CommandStatus)
  | noAttemptToAnswer
  deriving DecidableEq

def TripError.isCommandSequence : TripError → Bool
  | noCommandToAttempt _ _ | attemptAlreadyInFlight | noAttemptToRelease | noCommandToAnswer _ _
  | noAttemptToAnswer => true
  | _ => false

structure Transition where
  state : TripStatus
  refusal : Option Refusal := none
  outcome : Option String := none
  rejected : Option Reason := none
  startupCommand : Option StartupCommand := none
  retry : Option Retry := none
  deriving DecidableEq, Repr

/-- The fields of a journal intent, before their types are checked. -/
structure IntentFields where
  zoneId : PyValue
  profileId : PyValue
  attemptId : PyValue
  bindingSeq : PyValue
  outcome : PyValue
  createdAtMs : PyValue
  resolved : PyValue
  deriving DecidableEq

/-- One journal entry as a start reads it. `intent none` is an intent that is not a mapping of
exactly the intent fields; `malformed` is anything that is none of the four kinds. -/
inductive JournalEntry where
  | intent (fields : Option IntentFields)
  | record (commandStatus : PyValue)
  | clear
  | corrupt (identifiable : Bool)
  | malformed
  deriving DecidableEq

def positiveInt : PyValue → Bool
  | .int n => decide (0 < n)
  | _ => false

def nonEmptyStr : PyValue → Bool
  | .str s => decide (s ≠ "")
  | _ => false

def isBool : PyValue → Bool
  | .bool _ => true
  | _ => false

def intentIsWellFormed (i : IntentFields) (zoneId profileId : String) : Bool :=
  nonEmptyStr i.zoneId && nonEmptyStr i.profileId &&
    decide (i.zoneId = .str zoneId) && decide (i.profileId = .str profileId) &&
    nonEmptyStr i.attemptId && positiveInt i.bindingSeq && positiveInt i.createdAtMs &&
    decide (i.outcome = .str openProtectedCircuit) && isBool i.resolved

def recordStatus? : PyValue → Option CommandStatus
  | .str s =>
    if s = "command_pending" then some .commandPending
    else if s = "driver_refused" then some .driverRefused
    else if s = "command_issued" then some .commandIssued
    else none
  | _ => none

/-- The intent that governs a start; `corrupt` is a malformed but positionally identifiable one. -/
inductive Governing where
  | corrupt
  | intent (fields : IntentFields)
  deriving DecidableEq

/-- Whether the governing intent was commanded under a binding no longer in force. -/
def Governing.orphans (bindingSeqInForce : ℤ) : Governing → Bool
  | .corrupt => false
  | .intent i => decide (i.bindingSeq ≠ .int bindingSeqInForce)

structure LoadState where
  recordStatus : Option CommandStatus := none
  unresolved : List Governing := []
  attemptIds : List String := []
  unjustified : ℕ := 0
  deriving DecidableEq

/-- One entry of the walk in append order. -/
def loadEntry (zoneId profileId : String) (st : LoadState) :
    JournalEntry → Except TripError LoadState
  | .malformed => .error .malformedEntry
  | .corrupt true => .ok { st with unresolved := st.unresolved ++ [.corrupt] }
  | .corrupt false => .error .unreadableJournal
  | .clear => .ok { st with recordStatus := none, unresolved := [], unjustified := 0 }
  | .record status =>
    match recordStatus? status with
    | none => .error (.unknownRecordStatus status)
    | some s => .ok { st with recordStatus := some s, unresolved := [], unjustified := 0 }
  | .intent none => .ok { st with unresolved := st.unresolved ++ [.corrupt] }
  | .intent (some i) =>
    if intentIsWellFormed i zoneId profileId = false then
      .ok { st with unresolved := st.unresolved ++ [.corrupt] }
    else
      match i.attemptId with
      | .str a =>
        if a ∈ st.attemptIds then .error (.repeatedAttemptId a)
        else if i.resolved = .bool true then
          .ok { st with attemptIds := a :: st.attemptIds, unjustified := st.unjustified + 1 }
        else
          .ok { st with attemptIds := a :: st.attemptIds, unresolved := st.unresolved ++ [.intent i] }
      | _ => .ok { st with unresolved := st.unresolved ++ [.corrupt] }

/-- The surviving record's status, and the latest unresolved intent after any record or clear. -/
def loadJournal (zoneId profileId : String) (journal : List JournalEntry) :
    Except TripError (Option CommandStatus × Option Governing) :=
  match journal.foldlM (loadEntry zoneId profileId) {} with
  | .error e => .error e
  | .ok st =>
    if st.unjustified ≠ 0 then .error .unjustifiedResolution
    else .ok (st.recordStatus, st.unresolved.getLast?)

structure ZoneTripState where
  zoneId : String
  profileId : String
  terminalState : TerminalState
  state : TripStatus := .inactive
  commandStatus : CommandStatus := .none
  recordState : RecordState := .committed
  effect : Effect := .unknown
  orphaned : Bool := false
  retired : Bool := false
  safetyPathConfirmed : Bool := false
  credibleReadingSeen : Bool := false
  conditionActive : Bool := false
  retryCancelled : Bool := false
  driverAttemptInFlight : Bool := false
  deriving DecidableEq, Repr

namespace ZoneTripState

/-- The status a trip with no journal at all is loaded with: an absent one proves no acceptance. -/
def legacyStatus (durableCommandStatus : Option String) : Except TripError CommandStatus :=
  match durableCommandStatus with
  | none => .ok .commandPending
  | some s =>
    if s = "" ∨ s = "legacy" then .ok .commandPending
    else if s = "none" then .ok .none
    else if s = "command_pending" then .ok .commandPending
    else if s = "driver_refused" then .ok .driverRefused
    else if s = "command_issued" then .ok .commandIssued
    else .error (.unknownDurableStatus s)

/-- What `startup` forgets before it reads the durables. -/
def forgetStart (m : ZoneTripState) : ZoneTripState :=
  { m with
    safetyPathConfirmed := false, credibleReadingSeen := false, conditionActive := false,
    retryCancelled := false, driverAttemptInFlight := false, effect := .unknown }

/-- The load decision, once the record status and the governing intent are known. -/
def load (m : ZoneTripState) (durableTripped : Bool) (recordStatus : Option CommandStatus)
    (governing : Option Governing) (bindingSeqInForce : ℤ) :
    ZoneTripState × Except TripError Transition :=
  match governing with
  | some gov =>
    ({ m with
        state := .tripped, commandStatus := .commandPending,
        orphaned := gov.orphans bindingSeqInForce },
      .ok { state := .tripped, startupCommand := some .none })
  | none =>
    match recordStatus with
    | some status =>
      if durableTripped then
        ({ m with state := .tripped, commandStatus := status },
          .ok { state := .tripped, startupCommand := some .none })
      else (m, .error .recordWithoutTrippedState)
    | none =>
      if durableTripped then (m, .error .trippedStateWithoutRecord)
      else
        ({ m with state := .inactive, commandStatus := .none },
          .ok { state := .inactive, startupCommand :=
            some (if m.terminalState = .circuitOpen then .deEnergised else .deferred) })

/-- A (re)start: load the durables, forget every per-start fact, and answer with the startup coil
decision for this pair's zone. -/
def startup (m : ZoneTripState) (durableState : Option String) (journal : List JournalEntry)
    (durableCommandStatus : Option String) (bindingSeqInForce : ℤ) :
    ZoneTripState × Except TripError Transition :=
  match durableState.filter (fun s => decide (s ∉ ["inactive", "armed", "tripped"])) with
  | some s => (m, .error (.unknownDurableState s))
  | none =>
    let m' := m.forgetStart
    let tripped := decide (durableState = some "tripped")
    match loadJournal m.zoneId m.profileId journal with
    | .error e => (m', .error e)
    | .ok (recordStatus, governing) =>
      if tripped && journal.isEmpty then
        match legacyStatus durableCommandStatus with
        | .error e => (m', .error e)
        | .ok status => m'.load tripped (some status) governing bindingSeqInForce
      else m'.load tripped recordStatus governing bindingSeqInForce

def confirmSafetyPath (m : ZoneTripState) : ZoneTripState × Except TripError Transition :=
  ({ m with safetyPathConfirmed := true }, .ok { state := m.state })

/-- A reading's verdict applied to the state. A trip moves the pair to tripped with a pending
command, and the caller commands the outcome. -/
def observe (m : ZoneTripState) (v : EvaluationVerdict) :
    ZoneTripState × Except TripError Transition :=
  if v.verdict = .rejectedInput then
    match v.reason with
    | none => (m, .error (.unknownRejectReason none))
    | some r =>
      if r ∈ reasonOrder then (m, .ok { state := m.state, rejected := some r })
      else (m, .error (.unknownRejectReason (some r)))
  else if (v.verdict ≠ .trip ∧ v.verdict ≠ .noTrip) ∨ v.reason ≠ none then
    (m, .error (.unknownVerdict v))
  else
    let m' := { m with credibleReadingSeen := true, conditionActive := decide (v.verdict = .trip) }
    if v.verdict = .trip ∧ m.state ≠ .tripped then
      ({ m' with state := .tripped, retryCancelled := false, commandStatus := .commandPending },
        .ok { state := .tripped, outcome := some openProtectedCircuit })
    else (m', .ok { state := m.state })

/-- A command that still waits for an accepting driver. -/
def commandOpen (m : ZoneTripState) : Prop :=
  m.state = .tripped ∧ (m.commandStatus = .commandPending ∨ m.commandStatus = .driverRefused)

instance (m : ZoneTripState) : Decidable m.commandOpen :=
  inferInstanceAs (Decidable (_ ∧ (_ ∨ _)))

/-- Acquire the single in-flight driver attempt. -/
def beginDriverAttempt (m : ZoneTripState) : ZoneTripState × Except TripError Transition :=
  if m.commandOpen then
    if m.driverAttemptInFlight then (m, .error .attemptAlreadyInFlight)
    else ({ m with driverAttemptInFlight := true }, .ok { state := m.state })
  else (m, .error (.noCommandToAttempt m.state m.commandStatus))

def releaseDriverAttempt (m : ZoneTripState) : ZoneTripState × Except TripError Transition :=
  if m.driverAttemptInFlight then
    ({ m with driverAttemptInFlight := false }, .ok { state := m.state })
  else (m, .error .noAttemptToRelease)

/-- What the driver reported, consuming the in-flight lease. -/
def recordDriverResult (m : ZoneTripState) (accepted : Bool) :
    ZoneTripState × Except TripError Transition :=
  if m.commandOpen then
    if m.driverAttemptInFlight then
      ({ m with driverAttemptInFlight := false,
                commandStatus := if accepted then .commandIssued else .driverRefused },
        .ok { state := m.state })
    else (m, .error .noAttemptToAnswer)
  else (m, .error (.noCommandToAnswer m.state m.commandStatus))

/-- Whether the retry loop may attempt the command now. -/
def outcomeRetry (m : ZoneTripState) : Transition :=
  if m.state ≠ .tripped ∨ m.retryCancelled = true ∨ m.orphaned = true ∨
      m.driverAttemptInFlight = true ∨ m.commandStatus = .commandIssued then
    { state := m.state, retry := some .skipped }
  else { state := m.state, retry := some .attempted }

def recordRetry (m : ZoneTripState) (committed : Bool) : ZoneTripState :=
  if m.recordState = .pending ∧ committed = true then { m with recordState := .committed } else m

def recordWriteFailed (m : ZoneTripState) : ZoneTripState := { m with recordState := .pending }

def effectReport (m : ZoneTripState) (result : String) :
    ZoneTripState × Except TripError Transition :=
  if result = "matched" then ({ m with effect := .matched }, .ok { state := m.state })
  else if result = "mismatched" then ({ m with effect := .mismatched }, .ok { state := m.state })
  else (m, .error (.unknownEffect result))

def arm (m : ZoneTripState) : ZoneTripState × Transition :=
  if m.state = .tripped then (m, { state := m.state, refusal := some .tripped })
  else if m.safetyPathConfirmed = false then
    (m, { state := m.state, refusal := some .safetyPathUnconfirmed })
  else if m.credibleReadingSeen = false then
    (m, { state := m.state, refusal := some .noCredibleReading })
  else ({ m with state := .armed }, { state := .armed, outcome := some closeProtectedCircuit })

/-- The local, manual, conditional exit from tripped. -/
def reset (m : ZoneTripState) : ZoneTripState × Transition :=
  if m.state ≠ .tripped then (m, { state := m.state, refusal := some .notTripped })
  else if m.credibleReadingSeen = false then
    (m, { state := m.state, refusal := some .noCredibleReading })
  else if m.conditionActive then (m, { state := m.state, refusal := some .conditionActive })
  else
    ({ m with state := .armed, retryCancelled := true },
      { state := .armed, outcome := some closeProtectedCircuit })

/-- A remote command, skill, configuration, policy or binding revision: refused in every state. -/
def external (m : ZoneTripState) : Transition := { state := m.state, refusal := some .noAuthority }

def bindingRemoved (m : ZoneTripState) : ZoneTripState := { m with orphaned := true }

def retireOrphan (m : ZoneTripState) : ZoneTripState × Transition :=
  if m.orphaned = false then (m, { state := m.state, refusal := some .notOrphaned })
  else ({ m with retired := true }, { state := m.state })

/-! ### What a start answers with -/

variable {b : ℤ} {gov : Option Governing} {m m' : ZoneTripState} {rs : Option CommandStatus}
  {t : Transition} {zoneId profileId : String}

variable {tripped : Bool} {d : Option String} {j journal : List JournalEntry} {st st' : LoadState}

theorem load_ok (h : m.load tripped rs gov b = (m', .ok t)) : t.outcome = none ∧
      ∃ st cs o, m' = { m with state := st, commandStatus := cs, orphaned := o } := by
  cases gov with
  | some gov =>
    obtain ⟨rfl, rfl⟩ := h
    exact ⟨rfl, _, _, _, rfl⟩
  | none =>
    cases rs with
    | some status =>
      cases tripped with
      | true =>
        obtain ⟨rfl, rfl⟩ := h
        exact ⟨rfl, _, _, _, rfl⟩
      | false => simp [load] at h
    | none =>
      cases tripped with
      | true => simp [load] at h
      | false =>
        obtain ⟨rfl, rfl⟩ := h
        exact ⟨rfl, _, _, _, rfl⟩

theorem startup_ok {c : Option String} (h : m.startup d j c b = (m', .ok t)) : t.outcome = none ∧
      ∃ st cs o, m' = { m.forgetStart with state := st, commandStatus := cs, orphaned := o } := by
  unfold startup at h
  split at h
  · simp at h
  simp only at h
  split at h
  · simp at h
  split_ifs at h
  · split at h
    · simp at h
    · exact load_ok h
  · exact load_ok h

theorem recordStatus?_ne_none {v : PyValue} {s : CommandStatus} (h : recordStatus? v = some s) :
    s ≠ .none := by
  unfold recordStatus? at h
  split at h
  · split_ifs at h <;> cases h <;> simp
  · simp at h

theorem loadEntry_recordStatus {e : JournalEntry} (ht : st.recordStatus ≠ some .none)
    (h : loadEntry zoneId profileId st e = .ok st') : st'.recordStatus ≠ some .none := by
  unfold loadEntry at h
  split at h
  · simp at h
  · cases h
    exact ht
  · simp at h
  · cases h
    simp
  · split at h
    · simp at h
    rename_i s hs
    cases h
    simpa using recordStatus?_ne_none hs
  · cases h
    exact ht
  · split at h
    · cases h
      exact ht
    · split at h
      · split at h
        · simp at h
        · split at h <;> cases h <;> exact ht
      · cases h
        exact ht

theorem foldlM_loadEntry_recordStatus (hs : st.recordStatus ≠ some .none)
    (h : journal.foldlM (loadEntry zoneId profileId) st = .ok st') :
    st'.recordStatus ≠ some .none := by
  induction journal generalizing st with
  | nil =>
    cases h
    exact hs
  | cons e journal ih =>
    simp only [List.foldlM_cons, bind, Except.bind] at h
    split at h
    · simp at h
    · rename_i mid hm
      exact ih (loadEntry_recordStatus hs hm) h

theorem loadJournal_recordStatus (h : loadJournal zoneId profileId journal = .ok (rs, gov)) :
    rs ≠ some .none := by
  unfold loadJournal at h
  split at h
  · simp at h
  rename_i st hs
  split_ifs at h
  cases h
  exact foldlM_loadEntry_recordStatus (by simp) hs

theorem load_status (hr : rs ≠ some .none) (h : m.load tripped rs gov b = (m', .ok t))
    (hs : m'.state = .tripped) : m'.commandStatus ≠ .none := by
  unfold load at h
  split at h
  · cases h
    simp
  · split at h
    · split at h
      · cases h
        simpa using hr
      · simp at h
    · split at h
      · simp at h
      · cases h
        simp at hs

theorem startup_status (h : m.startup d j none b = (m', .ok t)) (hs : m'.state = .tripped) :
    m'.commandStatus ≠ .none := by
  unfold startup at h
  split at h
  · simp at h
  simp only at h
  split at h
  · simp at h
  rename_i rs gov hload
  split_ifs at h
  · exact load_status (by simp) h hs
  · exact load_status (loadJournal_recordStatus hload) h hs

theorem observe_ok {v : EvaluationVerdict} (h : m.observe v = (m', .ok t)) :
    (v = ⟨.trip, none⟩ ∧ m.state ≠ .tripped ∧ t.outcome = some openProtectedCircuit ∧
      m' = { m with
        credibleReadingSeen := true, conditionActive := true, state := .tripped,
        retryCancelled := false, commandStatus := .commandPending }) ∨
    (t.outcome = none ∧ (v.verdict = .trip → m.state = .tripped) ∧
      ∃ c d, m' = { m with credibleReadingSeen := c, conditionActive := d }) := by
  unfold observe at h
  split at h
  · rename_i hv
    have hn : v.verdict = .trip → m.state = .tripped := fun ht => by simp [ht] at hv
    split at h
    · simp at h
    split at h
    · cases h
      exact .inr ⟨rfl, hn, _, _, rfl⟩
    · simp at h
  · split at h
    · simp at h
    rename_i hr
    split at h
    · rename_i htrip
      cases h
      obtain ⟨verdict, reason⟩ := v
      simp_all
    · rename_i htrip
      cases h
      refine .inr ⟨rfl, fun ht => ?_, _, _, rfl⟩
      by_contra he
      exact htrip ⟨ht, he⟩

end ZoneTripState

/-- The zonal deferred-startup decision for a closed-terminal zone. -/
structure DeferredStartupGate where
  pending : Bool
  deriving DecidableEq, Repr

namespace DeferredStartupGate

def noteTrip (_ : DeferredStartupGate) : DeferredStartupGate := ⟨false⟩

/-- Whether a credible clear reading licenses the closing command. -/
def noteCredibleReading (gate : DeferredStartupGate) (anyPairTripped : Bool) :
    DeferredStartupGate × Option StartupCommand :=
  if gate.pending = false ∨ anyPairTripped = true then
    (if anyPairTripped then ⟨false⟩ else gate, none)
  else (⟨false⟩, some .deEnergised)

end DeferredStartupGate

end OriRuntime
