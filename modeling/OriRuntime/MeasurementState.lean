import OriRuntime.Execution

/-!
# Measurement supervision

The row of a sensor in `sensor_measurement_state`, what the runtime keeps of the sensor in memory,
and the steps that change them: windows, the writes they queue or await, escalations and restarts.
A store write is attempted, lands and is resumed from in steps of its own.
-/

namespace OriRuntime

def MEASUREMENT_REFUSALS_BEFORE_DEGRADED : ℕ := 3

def MEASUREMENT_WINDOWS_TO_RECOVER : ℕ := 5

def MEASUREMENT_NOTIFY_MAX_ATTEMPTS : ℕ := 5

def MEASUREMENT_REMINDER_AFTER_MS : ℤ := 6 * 60 * 60 * 1000

def MEASUREMENT_ESCALATE_AFTER_MS : ℤ := 12 * 60 * 60 * 1000

def MEASUREMENT_ESCALATION_REPEAT_MS : ℤ := 24 * 60 * 60 * 1000

def measurementNoticeStageDue (elapsed : ℤ) : ℕ :=
  if elapsed < MEASUREMENT_REMINDER_AFTER_MS then 0
  else if elapsed < MEASUREMENT_ESCALATE_AFTER_MS then 1
  else 2 + ((elapsed - MEASUREMENT_ESCALATE_AFTER_MS) / MEASUREMENT_ESCALATION_REPEAT_MS).toNat

/-! ### The row -/

structure MeasurementRow where
  degraded : Bool
  notifiedAt : Option ℤ
  degradedSince : Option ℤ
  noticeStage : ℕ := 0
  updatedAt : ℤ
deriving DecidableEq, Repr

namespace MeasurementRow

def setDegraded (now : ℤ) (notified : Bool) : Option MeasurementRow → MeasurementRow
  | none => { degraded := true, notifiedAt := if notified then some now else none,
              degradedSince := some now, updatedAt := now }
  | some row =>
    { row with
      degraded := true
      notifiedAt := row.notifiedAt.or (if notified then some now else none)
      degradedSince := row.degradedSince.or (some now)
      updatedAt := now }

def clear (now : ℤ) : Option MeasurementRow → MeasurementRow
  | none => { degraded := false, notifiedAt := none, degradedSince := none, updatedAt := now }
  | some _ =>
    { degraded := false, notifiedAt := none, degradedSince := none, noticeStage := 0,
      updatedAt := now }

def recordNoticeDelivered (now : ℤ) (stage : ℕ) (since : ℤ) :
    Option MeasurementRow → MeasurementRow
  | none => { degraded := true, notifiedAt := some now, degradedSince := some since,
              noticeStage := stage, updatedAt := now }
  | some row =>
    { degraded := true
      notifiedAt := row.notifiedAt.or (some now)
      degradedSince := row.degradedSince.or (some since)
      noticeStage := stage
      updatedAt := now }

/-- `get_measurement_degradation`: whether the operator of a degraded sensor has been told. -/
def degradation (row : MeasurementRow) : Option Bool :=
  if row.degraded = true then some row.notifiedAt.isSome else none

/-- `get_measurement_notice_schedule` -/
def noticeSchedule (row : MeasurementRow) : Option (ℤ × ℕ) :=
  if row.degraded = true then some (row.degradedSince.getD row.updatedAt, row.noticeStage) else none

end MeasurementRow

/-! ### A sensor -/

/-- A refused window under way: its sensor entering degradation, its notice being delivered, and
that recorded; a write is done once it has landed. -/
inductive WindowPhase
  | idle
  | entering (landed : Bool)
  | notifying
  | notified (landed : Bool)
deriving DecidableEq, Repr

inductive OwedWrite
  | clear (streak : ℕ)
  | restore
deriving DecidableEq, Repr

/-- The sensor's write at the measurement writer. -/
inductive WriterPhase
  | idle
  | queued (w : OwedWrite)
  | writing (w : OwedWrite) (notified : Bool)
  | landed (w : OwedWrite)
deriving DecidableEq, Repr

/-- An escalation of the sensor, with the episode it was begun in. -/
inductive EscalationPhase
  | idle
  | sending (stage episode : ℕ)
  | recording (stage : ℕ) (since : ℤ) (episode : ℕ) (landed : Bool)
deriving DecidableEq, Repr

/-- What has happened since the sensor last entered degradation. -/
structure MeasurementEpisode where
  number : ℕ := 0
  firstPersisted : Option ℤ := none
  cleared : Bool := false
  sent : List ℕ := []
  recorded : List ℕ := []
deriving DecidableEq, Repr

structure SensorMeasurement where
  row : Option MeasurementRow := none
  degraded : Bool := false
  unnotified : Bool := false
  notifyAttempts : ℕ := 0
  refusals : ℕ := 0
  validStreak : ℕ := 0
  since : Option ℤ := none
  stage : Option ℕ := none
  diskRecovered : Bool := false
  reconciling : Bool := false
  window : WindowPhase := .idle
  writer : WriterPhase := .idle
  listed : Bool := false
  escalation : EscalationPhase := .idle
  lost : Bool := false
  episode : MeasurementEpisode := {}
deriving DecidableEq, Repr

namespace SensorMeasurement

variable (s : SensorMeasurement)

def rowDegraded : Bool := (s.row.map MeasurementRow.degraded).getD false

/-- `_finish_measurement_recovery` -/
def finishRecovery : SensorMeasurement :=
  { s with
    degraded := false
    unnotified := false
    notifyAttempts := 0
    refusals := 0
    validStreak := 0
    since := none
    stage := none }

/-- `_reconcile_measurement`, by whether the writer takes what it is given. -/
def reconcile (clear : Bool) (streak : ℕ) (taken : Bool) : SensorMeasurement :=
  if clear = false ∧ s.diskRecovered = false then s
  else if s.reconciling = true then s
  else if taken = true then
    { s with
      reconciling := true
      writer := .queued (if clear = true then .clear streak else .restore) }
  else { s with lost := true }

/-- `_note_measurement_accepted` -/
def noteAccepted (taken : Bool) : Option SensorMeasurement :=
  if s.window ≠ .idle then none
  else if s.degraded = false then some { s with refusals := 0 }
  else if s.validStreak + 1 < MEASUREMENT_WINDOWS_TO_RECOVER then
    some (reconcile { s with validStreak := s.validStreak + 1 } false 0 taken)
  else if s.diskRecovered = true then
    if s.reconciling = true then some { s with validStreak := s.validStreak + 1 }
    else some (finishRecovery { s with diskRecovered := false })
  else some (reconcile { s with validStreak := s.validStreak + 1 } true (s.validStreak + 1) taken)

def enterDegradation (now : ℤ) : SensorMeasurement :=
  { s with
    degraded := true
    unnotified := true
    since := s.since.or (some now)
    stage := some 0
    window := .entering false
    episode := { number := s.episode.number + 1 } }

/-- What a refused window breaks before it is counted. -/
def breakRun (taken : Bool) : SensorMeasurement :=
  { reconcile { s with validStreak := 0 } false 0 taken with refusals := s.refusals + 1 }

/-- `_note_measurement_refusal` up to its first wait. -/
def noteRefusal (now : ℤ) (taken : Bool) : Option SensorMeasurement :=
  if s.window ≠ .idle then none
  else if s.refusals + 1 < MEASUREMENT_REFUSALS_BEFORE_DEGRADED then some (s.breakRun taken)
  else if s.degraded = true then
    if s.unnotified = false then some (s.breakRun taken)
    else if MEASUREMENT_NOTIFY_MAX_ATTEMPTS ≤ s.notifyAttempts then some (s.breakRun taken)
    else some { s.breakRun taken with notifyAttempts := s.notifyAttempts + 1, window := .notifying }
  else some ((s.breakRun taken).enterDegradation now)

/-! ### The writes a window awaits -/

def persist (now : ℤ) (notified : Bool) : SensorMeasurement :=
  let row := MeasurementRow.setDegraded now notified s.row
  { s with
    row := some row
    episode :=
      { s.episode with
        firstPersisted := s.episode.firstPersisted.or row.degradedSince } }

def enterLands (now : ℤ) : Option SensorMeasurement :=
  if s.window = .entering false then some { s.persist now false with window := .entering true }
  else none

/-- The write has landed, or has failed, and the notice is attempted. -/
def enterResumes (failed : Bool) : Option SensorMeasurement :=
  if s.window = .entering (!failed) then
    some { s with window := .notifying, notifyAttempts := 1, lost := s.lost || failed }
  else none

def delivered (ok : Bool) : Option SensorMeasurement :=
  if s.window ≠ .notifying then none
  else if ok = false then some { s with window := .idle }
  else
    some
      { s with
        window := .notified false
        unnotified := false
        notifyAttempts := 0
        episode := { s.episode with sent := s.episode.sent ++ [0] } }

def notifiedLands (now : ℤ) : Option SensorMeasurement :=
  if s.window = .notified false then some { s.persist now true with window := .notified true }
  else none

def notifiedResumes (failed : Bool) : Option SensorMeasurement :=
  if s.window = .notified (!failed) then
    some { s with window := .idle, lost := s.lost || failed }
  else none

/-! ### The writes of the measurement writer -/

def writerStarts : Option SensorMeasurement :=
  match s.writer with
  | .queued w => some { s with writer := .writing w (!s.unnotified) }
  | _ => none

/-- The store is busy: the write is tried again. -/
def writerRetries : Option SensorMeasurement :=
  match s.writer with
  | .writing w _ => some { s with writer := .queued w }
  | _ => none

def writerLands (now : ℤ) : Option SensorMeasurement :=
  match s.writer with
  | .writing (.clear streak) _ =>
    some
      { s with
        row := some (MeasurementRow.clear now s.row)
        writer := .landed (.clear streak)
        episode := { s.episode with cleared := true } }
  | .writing .restore notified =>
    some { s.persist now notified with writer := .landed .restore }
  | _ => none

def writerLost : Option SensorMeasurement :=
  match s.writer with
  | .queued _ | .writing _ _ =>
    some { s with writer := .idle, reconciling := false, lost := true }
  | _ => none

/-- `_measurement_cleared_on_disk` -/
def clearedOnDisk (taken : Bool) : SensorMeasurement :=
  if s.degraded = false then s
  else if s.validStreak < MEASUREMENT_WINDOWS_TO_RECOVER then
    reconcile { s with diskRecovered := true } false 0 taken
  else s.finishRecovery

def writerResumes (taken : Bool) : Option SensorMeasurement :=
  match s.writer with
  | .landed (.clear _) =>
    some (clearedOnDisk { s with writer := .idle, reconciling := false } taken)
  | .landed .restore =>
    let settled := { s with writer := .idle, reconciling := false, diskRecovered := false }
    if s.degraded = true ∧ MEASUREMENT_WINDOWS_TO_RECOVER ≤ s.validStreak then
      some (settled.reconcile true s.validStreak taken)
    else some settled
  | _ => none

/-! ### Escalations -/

/-- A pass comes to a sensor it has listed; `reachable` says that there is a sender and a
recipient. -/
def visit (now : ℤ) (reachable : Bool) : Option SensorMeasurement :=
  if s.listed = false ∨ s.escalation ≠ .idle then none
  else
    match s.since with
    | none => some { s with listed := false, since := some now }
    | some since =>
      if measurementNoticeStageDue (now - since) ≤ s.stage.getD 0 ∨ reachable = false then
        some { s with listed := false }
      else
        some
          { s with
            listed := false
            escalation := .sending (measurementNoticeStageDue (now - since)) s.episode.number }

def sent (now : ℤ) (ok : Bool) : Option SensorMeasurement :=
  match s.escalation with
  | .sending stage episode =>
    if ok = false then some { s with escalation := .idle }
    else
      some
        { s with
          stage := some stage
          escalation := .recording stage (s.since.getD now) episode false
          episode := { s.episode with sent := s.episode.sent ++ [stage] } }
  | _ => none

def recordLands (now : ℤ) : Option SensorMeasurement :=
  match s.escalation with
  | .recording stage since episode false =>
    let row := MeasurementRow.recordNoticeDelivered now stage since s.row
    some
      { s with
        row := some row
        escalation := .recording stage since episode true
        episode :=
          { s.episode with
            firstPersisted := s.episode.firstPersisted.or row.degradedSince
            recorded := s.episode.recorded ++ [stage] } }
  | _ => none

def recordResumes : Option SensorMeasurement :=
  match s.escalation with
  | .recording _ _ _ true =>
    some { s with escalation := .idle, unnotified := false, notifyAttempts := 0 }
  | _ => none

def recordFails : Option SensorMeasurement :=
  match s.escalation with
  | .recording _ _ _ false => some { s with escalation := .idle, lost := true }
  | _ => none

/-! ### Restarts -/

/-- `_restore_measurement_state` in a new process. -/
def restore : SensorMeasurement :=
  { row := s.row
    degraded := s.rowDegraded
    unnotified := (s.row.bind MeasurementRow.degradation) = some false
    since := (s.row.bind MeasurementRow.noticeSchedule).map Prod.fst
    stage := (s.row.bind MeasurementRow.noticeSchedule).map Prod.snd
    lost := s.lost
    episode := s.episode }

end SensorMeasurement

inductive SensorAct
  | noteAccepted (taken : Bool)
  | noteRefusal (now : ℤ) (taken : Bool)
  | enterLands (now : ℤ)
  | enterResumes (failed : Bool)
  | delivered (ok : Bool)
  | notifiedLands (now : ℤ)
  | notifiedResumes (failed : Bool)
  | writerStarts
  | writerRetries
  | writerLands (now : ℤ)
  | writerLost
  | writerResumes (taken : Bool)
  | visit (now : ℤ) (reachable : Bool)
  | sent (now : ℤ) (ok : Bool)
  | recordLands (now : ℤ)
  | recordResumes
  | recordFails
deriving DecidableEq, Repr

def sensorStep (s : SensorMeasurement) : SensorAct → Option SensorMeasurement
  | .noteAccepted taken => s.noteAccepted taken
  | .noteRefusal now taken => s.noteRefusal now taken
  | .enterLands now => s.enterLands now
  | .enterResumes failed => s.enterResumes failed
  | .delivered ok => s.delivered ok
  | .notifiedLands now => s.notifiedLands now
  | .notifiedResumes failed => s.notifiedResumes failed
  | .writerStarts => s.writerStarts
  | .writerRetries => s.writerRetries
  | .writerLands now => s.writerLands now
  | .writerLost => s.writerLost
  | .writerResumes taken => s.writerResumes taken
  | .visit now reachable => s.visit now reachable
  | .sent now ok => s.sent now ok
  | .recordLands now => s.recordLands now
  | .recordResumes => s.recordResumes
  | .recordFails => s.recordFails

/-! ### Every sensor -/

inductive MeasurementStep
  | sensor (x : String) (a : SensorAct)
  | pass
  | restart
deriving DecidableEq, Repr

def measurementStep (s : String → SensorMeasurement) :
    MeasurementStep → Option (String → SensorMeasurement)
  | .sensor x a => (sensorStep (s x) a).map (Function.update s x)
  | .pass => some fun x => { s x with listed := (s x).degraded }
  | .restart => some fun x => (s x).restore

end OriRuntime
