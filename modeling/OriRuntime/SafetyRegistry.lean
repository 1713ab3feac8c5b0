import OriRuntime.Dict
import OriRuntime.TripJournal

/-!
# The safety registry

`ori/safety/registry.py`: the per-pair machines, the readings, the retry loop and the actuation seam.
A coroutine moves from one await to the next; what it awaits (an intent append, the driver, a store
write) answers in its own time, fails, or comes late. The store's writes land before they answer, so
a restart may find any prefix of them.
-/

namespace OriRuntime

abbrev Pair := String × String

structure ActivePair where
  zoneId : String
  profileId : String
  sensorId : String
  tripPoint : PyFloat
  outcome : String
  unit : String
  rangeMin : PyFloat
  rangeMax : PyFloat
  terminalState : TerminalState
  bindingSeq : ℤ
  actuatorIdentity : String × String
  deriving DecidableEq

/-- What an active pair owes to the accepted binding and the closed profile grammar: named text ids,
a binding sequence from 1 on, the only outcome a profile may state, and its zone's terminal state. -/
structure ActivePair.Accepted (e : ActivePair) (pair : Pair) (bindingSeq : ℤ)
    (terminalStates : Dict String TerminalState) : Prop where
  zoneId_eq : e.zoneId = pair.1
  profileId_eq : e.profileId = pair.2
  zoneId_ne : pair.1 ≠ ""
  profileId_ne : pair.2 ≠ ""
  outcome_eq : e.outcome = openProtectedCircuit
  bindingSeq_eq : e.bindingSeq = bindingSeq
  bindingSeq_pos : 0 < bindingSeq
  terminalState_eq : terminalStates.get? pair.1 = some e.terminalState

/-- What the registry is assembled from at startup. -/
structure Assembly where
  active : Dict Pair ActivePair
  terminalStates : Dict String TerminalState
  bindingSeq : ℤ
  accepted : ∀ pair e, active.get? pair = some e → e.Accepted pair bindingSeq terminalStates

namespace Assembly

def bySensor (a : Assembly) (sensorId : String) : List Pair :=
  (a.active.items.filter (fun p => decide (p.2.sensorId = sensorId))).map Prod.fst

/-- The executor's last independent check before a Tier D outcome. -/
def permits (a : Assembly) (pair : Pair) (outcome : String) (bindingSeq : ℤ)
    (actuatorIdentity : String × String) : Bool :=
  match a.active.get? pair with
  | none => false
  | some e => decide (e.bindingSeq = bindingSeq) &&
      decide (e.actuatorIdentity = actuatorIdentity) && decide (outcome = e.outcome)

def terminalState (a : Assembly) (pair : Pair) : TerminalState :=
  match a.active.get? pair with
  | some e => e.terminalState
  | none => (a.terminalStates.get? pair.1).getD .circuitOpen

end Assembly

/-- An intent append on its own task: `written` once the row is durable, `done` once the task is. -/
structure IntentTask where
  pair : Pair
  attemptId : String
  bindingSeq : ℤ
  outcome : String
  createdAtMs : ℤ
  written : Bool := false
  done : Bool := false
  deriving DecidableEq, Repr

inductive AttemptStage where
  | awaitingIntent (task : ℕ)
  | commanding (task : ℕ)
  | awaitingOrder (task : ℕ)
  | recording (status : CommandStatus) (createdAtMs : ℤ) (written : Bool)
  | resolving (written : Bool)
  deriving DecidableEq, Repr

structure Attempt where
  pair : Pair
  entry : ActivePair
  accepted : Option Bool := none
  stage : AttemptStage
  deriving DecidableEq

inductive Owner where
  | reading (frame : ℕ)
  | retryLoop
  deriving DecidableEq, Repr

structure ReadingDecision where
  pair : Pair
  verdict : Verdict
  reason : Option Reason := none
  tripped : Bool := false
  driverAccepted : Option Bool := none
  deriving DecidableEq

structure Reading where
  sensorId : String
  value : PyValue
  unit : PyValue
  quality : PyValue
  deriving DecidableEq

/-- One call of `observe_reading`; `settling` holds the zones still to settle. -/
structure ReadingFrame where
  reading : Reading
  remaining : List Pair
  decisions : List ReadingDecision := []
  settling : Option (List String) := none
  deriving DecidableEq

/-- Where the retry loop awaits. The lists are the pairs its current pass has still to visit. -/
inductive RetryFrame where
  | idle
  | pending (remaining : List Pair)
  | records (remaining : List Pair)
  | recording (pair : Pair) (status : CommandStatus) (createdAtMs : ℤ) (written : Bool)
      (remaining : List Pair)
  | resolving (pair : Pair) (written : Bool) (remaining : List Pair)
  | ended
  deriving DecidableEq, Repr

/-- What a run leaves on record, newest first. -/
inductive RegistryEvent where
  | startupDeEnergised (zoneId : String) (reading : Option Reading) (anyTripped : Bool)
  | tripped (pair : Pair)
  | attempted (owner : Owner) (pair : Pair)
  | commanded (pair : Pair)
  | recordIssued (pair : Pair) (intentRunning : Bool)
  | escaped (owner : Owner) (error : TripError)
  deriving DecidableEq

def CommandStatus.text : CommandStatus → String
  | .none => "none"
  | .commandPending => "command_pending"
  | .driverRefused => "driver_refused"
  | .commandIssued => "command_issued"

structure Registry where
  assembly : Assembly
  machines : Dict Pair ZoneTripState := Dict.empty
  gates : Dict String DeferredStartupGate := Dict.empty
  unsettledIntents : Dict Pair ℕ := Dict.empty
  tasks : ℕ → Option IntentTask := fun _ => none
  taskCount : ℕ := 0
  attempts : Owner → Option Attempt := fun _ => none
  readings : ℕ → Option ReadingFrame := fun _ => none
  readingCount : ℕ := 0
  retry : RetryFrame := .idle
  journal : TripJournal
  trace : List RegistryEvent := []

namespace Registry

def setMachine (s : Registry) (pair : Pair) (m : ZoneTripState) : Registry :=
  { s with machines := s.machines.set pair m }

def emit (s : Registry) (e : RegistryEvent) : Registry := { s with trace := e :: s.trace }

def setAttempt (s : Registry) (owner : Owner) (a : Option Attempt) : Registry :=
  { s with attempts := Function.update s.attempts owner a }

def setReading (s : Registry) (i : ℕ) (f : Option ReadingFrame) : Registry :=
  { s with readings := Function.update s.readings i f }

def setTask (s : Registry) (k : ℕ) (t : IntentTask) : Registry :=
  { s with tasks := Function.update s.tasks k (some t) }

def taskDone (s : Registry) (k : ℕ) : Bool := (s.tasks k).all (·.done)

def intentRunning (s : Registry) (pair : Pair) : Bool :=
  (List.range s.taskCount).any
    (fun k => (s.tasks k).any (fun t => decide (t.pair = pair) && !t.done))

/-- An attempt id no journal row and no append task carries. -/
def attemptIdFresh (s : Registry) (attemptId : String) : Bool :=
  decide (attemptId ≠ "") && s.journal.rows.all (fun r => decide (r.attemptId ≠ some attemptId)) &&
    (List.range s.taskCount).all
      (fun k => (s.tasks k).all (fun t => decide (t.attemptId ≠ attemptId)))

/-! ### Start -/

/-- The machine a start makes for a pair, before it loads the durables. -/
def freshMachine (a : Assembly) (pair : Pair) : ZoneTripState :=
  { zoneId := pair.1, profileId := pair.2, terminalState := a.terminalState pair }

/-- Load one pair: its machine, and a deferred gate where the pair's startup is deferred. -/
def loadPair (s : Registry) (pair : Pair) : Except TripError Registry :=
  let loaded := s.journal.load pair.1 pair.2
  match (freshMachine s.assembly pair).startup loaded.1 loaded.2 none s.assembly.bindingSeq with
  | (_, .error e) => .error e
  | (m, .ok t) =>
    let m' := if (s.assembly.active.get? pair).isNone then m.bindingRemoved else m
    .ok { s with
      machines := s.machines.set pair m'
      gates := if t.startupCommand = some .deferred then s.gates.setdefault pair.1 ⟨true⟩
        else s.gates }

def loadPairs (s : Registry) : List Pair → Except TripError Registry
  | [] => .ok s
  | pair :: pairs =>
    match s.loadPair pair with
    | .error e => .error e
    | .ok s' => s'.loadPairs pairs

/-- Whether any pair of the zone, active or orphaned, is tripped. -/
def anyTripped (s : Registry) (zoneId : String) : Bool :=
  s.machines.items.any (fun p => decide (p.1.1 = zoneId) && decide (p.2.state = .tripped))

/-- The startup coil decision for one zone with active pairs. -/
def startZone (s : Registry) (zoneId : String) : Registry :=
  if s.anyTripped zoneId then
    match s.gates.get? zoneId with
    | none => s
    | some gate => { s with gates := s.gates.set zoneId gate.noteTrip }
  else if s.assembly.terminalStates.get? zoneId = some .circuitOpen then
    s.emit (.startupDeEnergised zoneId none (s.anyTripped zoneId))
  else s

def activeZones (a : Assembly) : List String := (a.active.keys.map Prod.fst).dedup

/-- A start on what the store holds. `pairs` and `zones` are the orders in which the two sets come
out. -/
def start (assembly : Assembly) (journal : TripJournal) (pairs : List Pair)
    (zones : List String) : Except TripError Registry :=
  match ({ assembly := assembly, journal := journal } : Registry).loadPairs pairs with
  | .error e => .error e
  | .ok s => .ok (zones.foldl startZone s)

/-! ### The attempt -/

/-- The head of `_attempt_command`: the intent append runs on its own task. -/
def startAttempt (s : Registry) (owner : Owner) (pair : Pair) (entry : ActivePair)
    (attemptId : String) (now : ℤ) : Registry :=
  { s with
    tasks := Function.update s.tasks s.taskCount
      (some { pair := pair, attemptId := attemptId, bindingSeq := entry.bindingSeq,
              outcome := entry.outcome, createdAtMs := now })
    taskCount := s.taskCount + 1
    unsettledIntents := s.unsettledIntents.set pair s.taskCount
    attempts := Function.update s.attempts owner
      (some { pair := pair, entry := entry, stage := .awaitingIntent s.taskCount })
    trace := .attempted owner pair :: s.trace }

/-- The attempt returns: a reading notes its decision and goes on. -/
def endAttempt (s : Registry) (owner : Owner) (a : Attempt) : Registry :=
  let s' := s.setAttempt owner none
  match owner with
  | .retryLoop => s'
  | .reading i =>
    match s.readings i with
    | none => s'
    | some f => s'.setReading i (some { f with
        decisions := f.decisions ++
          [{ pair := a.pair, verdict := .trip, tripped := true, driverAccepted := a.accepted }] })

/-- An error leaves `_attempt_command`: it ends the reading, or the retry loop. -/
def escape (s : Registry) (owner : Owner) (e : TripError) : Registry :=
  let s' := (s.setAttempt owner none).emit (.escaped owner e)
  match owner with
  | .retryLoop => { s' with retry := .ended }
  | .reading i => s'.setReading i none

/-- The record write, once its own intent append is done. -/
def issueRecord (s : Registry) (owner : Owner) (a : Attempt) (m : ZoneTripState) (now : ℤ) :
    Registry :=
  { s with
    unsettledIntents := s.unsettledIntents.pop a.pair
    attempts := Function.update s.attempts owner
      (some { a with stage := .recording m.commandStatus now false })
    trace := .recordIssued a.pair (s.intentRunning a.pair) :: s.trace }

/-- The head of `_persist_record`. -/
def persistRecord (s : Registry) (owner : Owner) (a : Attempt) (m : ZoneTripState) (task : ℕ)
    (now : ℤ) : Registry :=
  if s.taskDone task then s.issueRecord owner a m now
  else s.setAttempt owner (some { a with stage := .awaitingOrder task })

/-- The driver's answer, `none` for a call that raised. -/
def driverAnswered (s : Registry) (owner : Owner) (a : Attempt) (m : ZoneTripState) (task : ℕ)
    (result : Option Bool) (now : ℤ) : Registry :=
  let call := match result with
    | none => m.releaseDriverAttempt
    | some accepted => m.recordDriverResult accepted
  match call with
  | (_, .error e) => s.escape owner e
  | (m', .ok _) =>
    (s.setMachine a.pair m').persistRecord owner { a with accepted := result } m' task now

/-- The record write failed or was left to recovery. -/
def failRecord (s : Registry) (owner : Owner) (a : Attempt) (m : ZoneTripState) : Registry :=
  (s.setMachine a.pair m.recordWriteFailed).endAttempt owner a

/-- What an awaited party can do to an attempt. -/
inductive Signal where
  | resumed (now : ℤ)
  | driver (result : Option Bool) (now : ℤ)
  | landed
  | answered (ok : Bool)
  deriving DecidableEq, Repr

def signal (s : Registry) (owner : Owner) (a : Attempt) (m : ZoneTripState) :
    Signal → Option Registry
  | .resumed now =>
    match a.stage with
    | .awaitingIntent task =>
      match m.beginDriverAttempt with
      | (_, .error e) => some (s.escape owner e)
      | (m', .ok _) =>
        let s' := s.setMachine a.pair m'
        if s.assembly.permits a.pair a.entry.outcome a.entry.bindingSeq a.entry.actuatorIdentity then
          some ((s'.setAttempt owner (some { a with stage := .commanding task })).emit
            (.commanded a.pair))
        else some (s'.driverAnswered owner a m' task none now)
    | .awaitingOrder task =>
      if s.taskDone task then some (s.issueRecord owner a m now) else some (s.failRecord owner a m)
    | _ => none
  | .driver result now =>
    match a.stage with
    | .commanding task => some (s.driverAnswered owner a m task result now)
    | _ => none
  | .landed =>
    match a.stage with
    | .recording status now false =>
      match s.journal.appendRecord a.pair.1 a.pair.2 status.text now with
      | .error _ => none
      | .ok j => some ({ s with journal := j }.setAttempt owner
          (some { a with stage := .recording status now true }))
    | .resolving false =>
      some ({ s with journal := s.journal.markResolved a.pair.1 a.pair.2 }.setAttempt owner
        (some { a with stage := .resolving true }))
    | _ => none
  | .answered true =>
    match a.stage with
    | .recording _ _ true => some (s.setAttempt owner (some { a with stage := .resolving false }))
    | .resolving true => some (s.endAttempt owner a)
    | _ => none
  | .answered false =>
    match a.stage with
    | .recording _ _ _ | .resolving _ => some (s.failRecord owner a m)
    | _ => none

/-! ### Readings -/

def evaluate (e : ActivePair) (r : Reading) : EvaluationVerdict :=
  evaluateReading r.value r.unit r.quality e.unit e.tripPoint e.rangeMin e.rangeMax

/-- One pair of a reading: the verdict moves the machine, and a trip starts its first attempt. -/
def observePair (s : Registry) (i : ℕ) (f : ReadingFrame) (pair : Pair) (rest : List Pair)
    (e : ActivePair) (m : ZoneTripState) (attemptId : String) (now : ℤ) : Option Registry :=
  let v := evaluate e f.reading
  match m.observe v with
  | (_, .error _) => none
  | (m', .ok t) =>
    let s' := s.setMachine pair m'
    if t.outcome = some openProtectedCircuit then
      some (((s'.setReading i (some { f with remaining := rest })).emit (.tripped pair)).startAttempt
        (.reading i) pair e attemptId now)
    else
      some (s'.setReading i (some { f with
        remaining := rest
        decisions := f.decisions ++ [{ pair := pair, verdict := v.verdict, reason := v.reason }] }))

/-- One zone of `_settle_deferred_gate`. -/
def settleZone (s : Registry) (f : ReadingFrame) (zoneId : String) : Registry :=
  match s.gates.get? zoneId with
  | none => s
  | some gate =>
    if gate.pending = false then s
    else
      let zoneDecisions := f.decisions.filter (fun d => decide (d.pair.1 = zoneId))
      if zoneDecisions.any (·.tripped) then
        { s with gates := s.gates.set zoneId gate.noteTrip }
      else if zoneDecisions.any (fun d => decide (d.verdict = .rejectedInput)) then s
      else
        match gate.noteCredibleReading (s.anyTripped zoneId) with
        | (gate', none) => { s with gates := s.gates.set zoneId gate' }
        | (gate', some _) =>
          { s with gates := s.gates.set zoneId gate' }.emit
            (.startupDeEnergised zoneId (some f.reading) (s.anyTripped zoneId))

/-! ### The retry loop -/

/-- `_intent_settled`: no durable write for the pair may cross an unsettled intent. -/
def intentSettled (s : Registry) (pair : Pair) : Registry × Bool :=
  match s.unsettledIntents.get? pair with
  | none => (s, true)
  | some k =>
    if s.taskDone k then ({ s with unsettledIntents := s.unsettledIntents.pop pair }, true)
    else (s, false)

/-- Whether a pass of the retry loop attempts the pair now. -/
def retryDue (s : Registry) (pair : Pair) : Bool :=
  (s.intentSettled pair).2 &&
    (s.machines.get? pair).any (fun m => decide (m.outcomeRetry.retry = some .attempted)) &&
    (s.assembly.active.get? pair).isSome

/-- One pair of `retry_pending_once`. -/
def retryPair (s : Registry) (pair : Pair) (rest : List Pair) (attemptId : String) (now : ℤ) :
    Registry :=
  let s' := { (s.intentSettled pair).1 with retry := .pending rest }
  if s.retryDue pair then
    match s.assembly.active.get? pair with
    | none => s'
    | some e => s'.startAttempt .retryLoop pair e attemptId now
  else s'

/-- One pair of `retry_records_once`. -/
def recoverPair (s : Registry) (pair : Pair) (rest : List Pair) (m : ZoneTripState) (now : ℤ) :
    Registry :=
  if m.recordState ≠ .pending then { s with retry := .records rest }
  else
    let settled := s.intentSettled pair
    if settled.2 then
      { settled.1 with
        retry := .recording pair m.commandStatus now false rest
        trace := .recordIssued pair (s.intentRunning pair) :: s.trace }
    else { settled.1 with retry := .records rest }

/-- What the store can do to the loop's record recovery. -/
def recoverSignal (s : Registry) : Signal → Option Registry
  | .landed =>
    match s.retry with
    | .recording pair status now false rest =>
      match s.journal.appendRecord pair.1 pair.2 status.text now with
      | .error _ => none
      | .ok j => some { s with journal := j, retry := .recording pair status now true rest }
    | .resolving pair false rest =>
      some { s with
        journal := s.journal.markResolved pair.1 pair.2, retry := .resolving pair true rest }
    | _ => none
  | .answered true =>
    match s.retry with
    | .recording pair _ _ true rest => some { s with retry := .resolving pair false rest }
    | .resolving pair true rest =>
      match s.machines.get? pair with
      | none => none
      | some m => some { s.setMachine pair (m.recordRetry true) with retry := .records rest }
    | _ => none
  | .answered false =>
    match s.retry with
    | .recording _ _ _ _ rest | .resolving _ _ rest => some { s with retry := .records rest }
    | _ => none
  | _ => none

/-! ### Steps -/

inductive Action where
  | restart (assembly : Assembly) (pairs : List Pair) (zones : List String)
  | clear (pair : Pair) (now : ℤ)
  | taskLands (task : ℕ)
  | taskEnds (task : ℕ)
  | signal (owner : Owner) (sig : Signal)
  | arrive (reading : Reading)
  | observe (frame : ℕ) (attemptId : String) (now : ℤ)
  | settle (frame : ℕ) (zones : List String)
  | settleZone (frame : ℕ)
  | abandon (frame : ℕ)
  | retryPass
  | retryPair (attemptId : String) (now : ℤ)
  | recordPass
  | recoverPair (now : ℤ)
  | recover (sig : Signal)
  | rest

/-- The orders in which a start visits its pairs and its zones. -/
def StartOrder (assembly : Assembly) (journal : TripJournal) (pairs : List Pair)
    (zones : List String) : Prop :=
  pairs.Perm (journal.pairs ∪ assembly.active.keys) ∧ zones.Perm (activeZones assembly)

instance (assembly : Assembly) (journal : TripJournal) (pairs : List Pair) (zones : List String) :
    Decidable (StartOrder assembly journal pairs zones) :=
  inferInstanceAs (Decidable (_ ∧ _))

/-- An intent append's row becomes durable. -/
def landTask (s : Registry) (k : ℕ) (t : IntentTask) : Registry :=
  { s with
    journal := s.journal.appendIntent t.pair.1 t.pair.2 t.attemptId t.bindingSeq t.outcome
      t.createdAtMs }.setTask k { t with written := true }

def settleZones (a : Assembly) (sensorId : String) : List String :=
  ((a.bySensor sensorId).map Prod.fst).dedup

def step (s : Registry) : Action → Option Registry
  | .restart assembly pairs zones =>
    if StartOrder assembly s.journal pairs zones then
      match start assembly s.journal pairs zones with
      | .error _ => none
      | .ok s' => some s'
    else none
  | .clear pair now => some { s with journal := s.journal.appendClear pair.1 pair.2 now }
  | .taskLands k =>
    match s.tasks k with
    | none => none
    | some t => if t.written || t.done then none else some (s.landTask k t)
  | .taskEnds k =>
    match s.tasks k with
    | none => none
    | some t => if t.done then none else some (s.setTask k { t with done := true })
  | .signal owner sig =>
    match s.attempts owner with
    | none => none
    | some a =>
      match s.machines.get? a.pair with
      | none => none
      | some m => s.signal owner a m sig
  | .arrive r =>
    some { s.setReading s.readingCount
        (some { reading := r, remaining := s.assembly.bySensor r.sensorId }) with
      readingCount := s.readingCount + 1 }
  | .observe i attemptId now =>
    match s.readings i, s.attempts (.reading i) with
    | some f, none =>
      match f.settling, f.remaining with
      | none, pair :: rest =>
        match s.assembly.active.get? pair, s.machines.get? pair with
        | some e, some m =>
          if s.attemptIdFresh attemptId && decide (0 < now) then
            s.observePair i f pair rest e m attemptId now
          else none
        | _, _ => none
      | _, _ => none
    | _, _ => none
  | .settle i zones =>
    match s.readings i, s.attempts (.reading i) with
    | some f, none =>
      if f.settling = none ∧ f.remaining = [] ∧
          zones.Perm (settleZones s.assembly f.reading.sensorId) then
        some (s.setReading i (some { f with settling := some zones }))
      else none
    | _, _ => none
  | .settleZone i =>
    match s.readings i with
    | some f =>
      match f.settling with
      | some (zoneId :: rest) =>
        some ((s.settleZone f zoneId).setReading i (some { f with settling := some rest }))
      | _ => none
    | none => none
  | .abandon i =>
    match s.readings i, s.attempts (.reading i) with
    | some _, none => some (s.setReading i none)
    | _, _ => none
  | .retryPass => if s.retry = .idle then some { s with retry := .pending s.machines.keys } else none
  | .retryPair attemptId now =>
    match s.retry, s.attempts .retryLoop with
    | .pending (pair :: rest), none =>
      if s.attemptIdFresh attemptId && decide (0 < now) then
        some (s.retryPair pair rest attemptId now)
      else none
    | _, _ => none
  | .recordPass =>
    if s.retry = .pending [] ∧ s.attempts .retryLoop = none then
      some { s with retry := .records s.machines.keys }
    else none
  | .recoverPair now =>
    match s.retry with
    | .records (pair :: rest) =>
      match s.machines.get? pair with
      | none => none
      | some m => some (s.recoverPair pair rest m now)
    | _ => none
  | .recover sig => s.recoverSignal sig
  | .rest => if s.retry = .records [] then some { s with retry := .idle } else none

/-- What an action does, with what it finds. -/
inductive Steps (s : Registry) : Action → Registry → Prop
  | restart {assembly pairs zones s'} (hstart : start assembly s.journal pairs zones = .ok s') :
    Steps s (.restart assembly pairs zones) s'
  | clear (pair now) :
    Steps s (.clear pair now) { s with journal := s.journal.appendClear pair.1 pair.2 now }
  | taskLands {k t} (ht : s.tasks k = some t) (hnot : t.written = false) :
    Steps s (.taskLands k) (s.landTask k t)
  | taskEnds {k t} (ht : s.tasks k = some t) :
    Steps s (.taskEnds k) (s.setTask k { t with done := true })
  | signal {owner sig a m s'} (ha : s.attempts owner = some a) (hm : s.machines.get? a.pair = some m)
    (hsig : s.signal owner a m sig = some s') : Steps s (.signal owner sig) s'
  | arrive (r) : Steps s (.arrive r) { s.setReading s.readingCount
      (some { reading := r, remaining := s.assembly.bySensor r.sensorId }) with
        readingCount := s.readingCount + 1 }
  | observe {i attemptId now f pair rest e m s'} (hf : s.readings i = some f)
    (hfree : s.attempts (.reading i) = none) (hsettling : f.settling = none)
    (hremaining : f.remaining = pair :: rest) (hactive : s.assembly.active.get? pair = some e)
    (hm : s.machines.get? pair = some m) (hfresh : s.attemptIdFresh attemptId = true)
    (hnow : 0 < now) (hobs : s.observePair i f pair rest e m attemptId now = some s') :
    Steps s (.observe i attemptId now) s'
  | settle {i zones f} (hf : s.readings i = some f) (hfree : s.attempts (.reading i) = none)
    (hremaining : f.remaining = []) :
    Steps s (.settle i zones) (s.setReading i (some { f with settling := some zones }))
  | settleZone {i f zoneId rest} (hf : s.readings i = some f)
    (hsettling : f.settling = some (zoneId :: rest)) : Steps s (.settleZone i)
      ((s.settleZone f zoneId).setReading i (some { f with settling := some rest }))
  | abandon {i f} (hf : s.readings i = some f) (hfree : s.attempts (.reading i) = none) :
    Steps s (.abandon i) (s.setReading i none)
  | retryPass : Steps s .retryPass { s with retry := .pending s.machines.keys }
  | retryPair {attemptId now pair rest} (hretry : s.retry = .pending (pair :: rest))
    (hfree : s.attempts .retryLoop = none) (hfresh : s.attemptIdFresh attemptId = true)
    (hnow : 0 < now) : Steps s (.retryPair attemptId now) (s.retryPair pair rest attemptId now)
  | recordPass (hretry : s.retry = .pending []) :
    Steps s .recordPass { s with retry := .records s.machines.keys }
  | recoverPair {now pair rest m} (hretry : s.retry = .records (pair :: rest))
    (hm : s.machines.get? pair = some m) :
    Steps s (.recoverPair now) (s.recoverPair pair rest m now)
  | recover {sig s'} (hrec : s.recoverSignal sig = some s') : Steps s (.recover sig) s'
  | rest (hretry : s.retry = .records []) : Steps s .rest { s with retry := .idle }

theorem steps_of_step {s s' : Registry} {action : Action} (h : s.step action = some s') :
    Steps s action s' := by
  cases action with
  | clear pair now =>
    cases h
    exact .clear pair now
  | arrive r =>
    cases h
    exact .arrive r
  | recover sig => exact .recover h
  | _ =>
    simp only [step] at h
    repeat' split at h
    all_goals try cases h
    all_goals constructor
    all_goals first | assumption | simp_all

end Registry

end OriRuntime
