import OriRuntime.Execution
import OriRuntime.TripState

/-!
# The trip latch over whole histories

Every operation of the trip-state machine, with what each call answered, kept as a history with the
newest event first. The close conditions, the attempt lease and the accepted command are read back
from that history alone, so the invariant below compares the machine's flags with what really
happened. A startup that raises refuses the start and is not a step.
-/

namespace OriRuntime.TripLatch

open List Option

open ZoneTripState

inductive Op where
  | startup (durableState : Option String) (journal : List JournalEntry)
      (durableCommandStatus : Option String) (bindingSeqInForce : ℤ)
  | confirmSafetyPath
  | observe (v : EvaluationVerdict)
  | beginDriverAttempt
  | releaseDriverAttempt
  | recordDriverResult (accepted : Bool)
  | outcomeRetry
  | recordRetry (committed : Bool)
  | recordWriteFailed
  | effectReport (result : String)
  | arm
  | reset
  | external (source : String)
  | bindingRemoved
  | retireOrphan
  deriving DecidableEq

def Op.isStartup : Op → Bool
  | .startup .. => true
  | _ => false

def Op.call (m : ZoneTripState) : Op → ZoneTripState × Except TripError Transition
  | .startup d j c b => m.startup d j c b
  | .confirmSafetyPath => m.confirmSafetyPath
  | .observe v => m.observe v
  | .beginDriverAttempt => m.beginDriverAttempt
  | .releaseDriverAttempt => m.releaseDriverAttempt
  | .recordDriverResult accepted => m.recordDriverResult accepted
  | .outcomeRetry => (m, .ok m.outcomeRetry)
  | .recordRetry committed => (m.recordRetry committed, .ok { state := m.state })
  | .recordWriteFailed => (m.recordWriteFailed, .ok { state := m.state })
  | .effectReport result => m.effectReport result
  | .arm => (m.arm.1, .ok m.arm.2)
  | .reset => (m.reset.1, .ok m.reset.2)
  | .external _ => (m, .ok m.external)
  | .bindingRemoved => (m.bindingRemoved, .ok { state := m.state })
  | .retireOrphan => (m.retireOrphan.1, .ok m.retireOrphan.2)

structure Event where
  before : ZoneTripState
  op : Op
  result : Except TripError Transition
  after : ZoneTripState

namespace Event

def answered (e : Event) : Bool :=
  match e.result with
  | .ok _ => true
  | .error _ => false

def outcome (e : Event) : Option String :=
  match e.result with
  | .ok t => t.outcome
  | .error _ => none

def opens (e : Event) : Prop := e.outcome = some openProtectedCircuit

def closes (e : Event) : Prop := e.outcome = some closeProtectedCircuit

instance (e : Event) : Decidable e.opens := inferInstanceAs (Decidable (_ = _))

instance (e : Event) : Decidable e.closes := inferInstanceAs (Decidable (_ = _))

/-- A reset that left tripped. -/
def exits (e : Event) : Prop := e.op = .reset ∧ e.closes

instance (e : Event) : Decidable e.exits := inferInstanceAs (Decidable (_ ∧ _))

end Event

structure State where
  machine : ZoneTripState
  history : List Event := []

def step (s : State) (op : Op) : Option State :=
  let r := op.call s.machine
  let e : Event := ⟨s.machine, op, r.2, r.1⟩
  if op.isStartup && !e.answered then none else some ⟨r.1, e :: s.history⟩

def initial (zoneId profileId : String) (terminalState : TerminalState) : State :=
  { machine := { zoneId := zoneId, profileId := profileId, terminalState := terminalState } }

/-! ### What a history says -/

def credible (v : EvaluationVerdict) : Option Verdict :=
  if v = ⟨.trip, none⟩ ∨ v = ⟨.noTrip, none⟩ then some v.verdict else none

def lastCredible : List Event → Option Verdict
  | [] => none
  | e :: h =>
    match e.op with
    | .startup .. => none
    | .observe v => credible v <|> lastCredible h
    | _ => lastCredible h

/-- Driver attempts begun since the last startup that neither reported nor were released. -/
def attemptsInFlight : List Event → ℕ
  | [] => 0
  | e :: h =>
    match e.op, e.answered with
    | .startup .., _ => 0
    | .beginDriverAttempt, true => attemptsInFlight h + 1
    | .releaseDriverAttempt, true => attemptsInFlight h - 1
    | .recordDriverResult _, true => attemptsInFlight h - 1
    | _, _ => attemptsInFlight h

/-- Whether a command stands accepted, reported by the driver or loaded as issued, with no trip
since. -/
def commandAccepted : List Event → Bool
  | [] => false
  | e :: h =>
    match e.op with
    | .startup .. => decide (e.after.commandStatus = .commandIssued)
    | .recordDriverResult true => e.answered || commandAccepted h
    | .observe _ => if e.opens then false else commandAccepted h
    | _ => commandAccepted h

/-- Opening commands emitted since tripped was last left, by a reset or a startup. -/
def opensSinceExit : List Event → ℕ
  | [] => 0
  | e :: h =>
    if e.op.isStartup ∨ e.exits then 0
    else if e.opens then opensSinceExit h + 1 else opensSinceExit h

/-- The latch and close conditions of one history. -/
structure Safe (s : State) : Prop where
  tripped_of_conditionActive : s.machine.conditionActive = true → s.machine.state = .tripped
  leaves_tripped : ∀ e ∈ s.history, e.before.state = .tripped → e.after.state ≠ .tripped →
    e.op = .reset ∨ e.op.isStartup = true
  closes_credible : ∀ e h, e :: h <:+ s.history → e.closes →
    (e.op = .arm ∨ e.op = .reset) ∧ lastCredible h = some .noTrip
  trip_opens : ∀ e ∈ s.history, e.op = .observe ⟨.trip, none⟩ → e.before.state ≠ .tripped →
    e.opens ∧ e.after.state = .tripped
  opens_trip : ∀ e ∈ s.history, e.opens →
    e.op = .observe ⟨.trip, none⟩ ∧ e.before.state ≠ .tripped
  opens_once : opensSinceExit s.history ≤ 1
  one_attempt : attemptsInFlight s.history ≤ 1
  accepted_not_retried : ∀ e h, e :: h <:+ s.history → e.op = .outcomeRetry →
    commandAccepted h = true → e.result = .ok { state := e.before.state, retry := some .skipped }
  trip_acquires : ∀ e h, e :: h <:+ s.history → e.opens → (∃ r ∈ h, r.exits) →
    ∃ t, e.after.beginDriverAttempt.2 = .ok t

/-! ### What one call can do -/

def Op.isObserve : Op → Bool
  | .observe _ => true
  | _ => false

def Op.isAttempt : Op → Bool
  | .beginDriverAttempt | .releaseDriverAttempt | .recordDriverResult _ => true
  | _ => false

/-- The latch, the reading flags, the lease and the command status are as they were. -/
structure Quiet (m m' : ZoneTripState) : Prop where
  state : m'.state = m.state
  commandStatus : m'.commandStatus = m.commandStatus
  conditionActive : m'.conditionActive = m.conditionActive
  credibleReadingSeen : m'.credibleReadingSeen = m.credibleReadingSeen
  driverAttemptInFlight : m'.driverAttemptInFlight = m.driverAttemptInFlight

theorem Quiet.refl (m : ZoneTripState) : Quiet m m := ⟨rfl, rfl, rfl, rfl, rfl⟩

/-- Every event a history can hold. -/
inductive Stepped : Event → Prop
  | starts (m : ZoneTripState) (d : Option String) (j : List JournalEntry) (c : Option String)
      (b : ℤ) (st : TripStatus) (cs : CommandStatus) (o : Bool) (t : Transition)
      (houtcome : t.outcome = none) :
      Stepped ⟨m, .startup d j c b, .ok t,
        { m.forgetStart with state := st, commandStatus := cs, orphaned := o }⟩
  | trips (m : ZoneTripState) (hstate : m.state ≠ .tripped) :
      Stepped ⟨m, .observe ⟨.trip, none⟩,
        .ok { state := .tripped, outcome := some openProtectedCircuit },
        { m with
          credibleReadingSeen := true, conditionActive := true, state := .tripped,
          retryCancelled := false, commandStatus := .commandPending }⟩
  | repeats (m : ZoneTripState) (hstate : m.state = .tripped) :
      Stepped ⟨m, .observe ⟨.trip, none⟩, .ok { state := m.state },
        { m with credibleReadingSeen := true, conditionActive := true }⟩
  | clears (m : ZoneTripState) :
      Stepped ⟨m, .observe ⟨.noTrip, none⟩, .ok { state := m.state },
        { m with credibleReadingSeen := true, conditionActive := false }⟩
  | discards (m : ZoneTripState) (v : EvaluationVerdict) (r : Except TripError Transition)
      (hv : credible v = none) (houtcome : Event.outcome ⟨m, .observe v, r, m⟩ = none) :
      Stepped ⟨m, .observe v, r, m⟩
  | begins (m : ZoneTripState) (hopen : m.commandOpen) (hfree : m.driverAttemptInFlight = false) :
      Stepped ⟨m, .beginDriverAttempt, .ok { state := m.state },
        { m with driverAttemptInFlight := true }⟩
  | releases (m : ZoneTripState) (hheld : m.driverAttemptInFlight = true) :
      Stepped ⟨m, .releaseDriverAttempt, .ok { state := m.state },
        { m with driverAttemptInFlight := false }⟩
  | answers (m : ZoneTripState) (accepted : Bool) (hopen : m.commandOpen)
      (hheld : m.driverAttemptInFlight = true) :
      Stepped ⟨m, .recordDriverResult accepted, .ok { state := m.state },
        { m with
          driverAttemptInFlight := false,
          commandStatus := if accepted then .commandIssued else .driverRefused }⟩
  | arms (m : ZoneTripState) (hstate : m.state ≠ .tripped) (hseen : m.credibleReadingSeen = true) :
      Stepped ⟨m, .arm, .ok { state := .armed, outcome := some closeProtectedCircuit },
        { m with state := .armed }⟩
  | resets (m : ZoneTripState) (hstate : m.state = .tripped) (hseen : m.credibleReadingSeen = true)
      (hcond : m.conditionActive = false) :
      Stepped ⟨m, .reset, .ok { state := .armed, outcome := some closeProtectedCircuit },
        { m with state := .armed, retryCancelled := true }⟩
  | quiet (m m' : ZoneTripState) (op : Op) (r : Except TripError Transition) (hquiet : Quiet m m')
      (hstart : op.isStartup = false) (hobserve : op.isObserve = false)
      (hattempt : op.isAttempt = true → ∃ e, r = .error e)
      (hretry : op = .outcomeRetry → r = .ok m.outcomeRetry)
      (houtcome : Event.outcome ⟨m, op, r, m'⟩ = none) : Stepped ⟨m, op, r, m'⟩

theorem observe_stepped (m : ZoneTripState) (v : EvaluationVerdict) :
    Stepped ⟨m, .observe v, (m.observe v).2, (m.observe v).1⟩ := by
  obtain ⟨verdict, reason⟩ := v
  cases verdict with
  | trip =>
    cases reason with
    | none =>
      by_cases hs : m.state = .tripped
      · simpa [observe, hs] using Stepped.repeats m hs
      · simpa [observe, hs] using Stepped.trips m hs
    | some r => exact .discards m _ _ rfl rfl
  | noTrip =>
    cases reason with
    | none => simpa [observe] using Stepped.clears m
    | some r => exact .discards m _ _ rfl rfl
  | rejectedInput =>
    cases reason with
    | none => exact .discards m _ _ rfl rfl
    | some r =>
      by_cases hr : r ∈ reasonOrder
      · simpa [observe, hr] using
          Stepped.discards m ⟨.rejectedInput, some r⟩ (.ok { state := m.state, rejected := some r })
            rfl rfl
      · simpa [observe, hr] using
          Stepped.discards m ⟨.rejectedInput, some r⟩ (.error (.unknownRejectReason (some r)))
            rfl rfl
  | unknown name => exact .discards m _ _ (by simp [credible]) (by simp [observe, Event.outcome])

theorem attempt_stepped (m : ZoneTripState) (op : Op) (ho : op.isAttempt = true) :
    Stepped ⟨m, op, (op.call m).2, (op.call m).1⟩ := by
  have hr : ∀ (op : Op) (e : TripError), op.isAttempt = true → Stepped ⟨m, op, .error e, m⟩ := by
    intro op e ho
    refine .quiet m m op _ (Quiet.refl m) ?_ ?_ (fun _ => ⟨e, rfl⟩) ?_ rfl
    · cases op <;> simp_all [Op.isAttempt, Op.isStartup]
    · cases op <;> simp_all [Op.isAttempt, Op.isObserve]
    · rintro rfl
      simp [Op.isAttempt] at ho
  cases op with
  | beginDriverAttempt =>
    by_cases hopen : m.commandOpen
    · cases hh : m.driverAttemptInFlight with
      | true => simpa [Op.call, beginDriverAttempt, hopen, hh] using hr _ _ ho
      | false => simpa [Op.call, beginDriverAttempt, hopen, hh] using Stepped.begins m hopen hh
    · simpa [Op.call, beginDriverAttempt, hopen] using hr _ _ ho
  | releaseDriverAttempt =>
    cases hh : m.driverAttemptInFlight with
    | true => simpa [Op.call, releaseDriverAttempt, hh] using Stepped.releases m hh
    | false => simpa [Op.call, releaseDriverAttempt, hh] using hr _ _ ho
  | recordDriverResult accepted =>
    by_cases hopen : m.commandOpen
    · cases hh : m.driverAttemptInFlight with
      | true =>
        simpa [Op.call, recordDriverResult, hopen, hh] using Stepped.answers m accepted hopen hh
      | false => simpa [Op.call, recordDriverResult, hopen, hh] using hr _ _ ho
    · simpa [Op.call, recordDriverResult, hopen] using hr _ _ ho
  | _ => simp [Op.isAttempt] at ho

theorem arm_stepped (m : ZoneTripState) : Stepped ⟨m, .arm, .ok m.arm.2, m.arm.1⟩ := by
  have hr : ∀ reason : Refusal,
      Stepped ⟨m, .arm, .ok { state := m.state, refusal := some reason }, m⟩ := fun reason =>
    .quiet m m .arm _ (Quiet.refl m) rfl rfl (by simp [Op.isAttempt]) (by simp) rfl
  by_cases hs : m.state = .tripped
  · simpa [arm, hs] using hr .tripped
  · cases hpath : m.safetyPathConfirmed with
    | false => simpa [arm, hs, hpath] using hr .safetyPathUnconfirmed
    | true =>
      cases hn : m.credibleReadingSeen with
      | false => simpa [arm, hs, hpath, hn] using hr .noCredibleReading
      | true => simpa [arm, hs, hpath, hn] using Stepped.arms m hs hn

theorem reset_stepped (m : ZoneTripState) : Stepped ⟨m, .reset, .ok m.reset.2, m.reset.1⟩ := by
  have hr : ∀ reason : Refusal,
      Stepped ⟨m, .reset, .ok { state := m.state, refusal := some reason }, m⟩ := fun reason =>
    .quiet m m .reset _ (Quiet.refl m) rfl rfl (by simp [Op.isAttempt]) (by simp) rfl
  by_cases hs : m.state = .tripped
  · cases hn : m.credibleReadingSeen with
    | false => simpa [reset, hs, hn] using hr .noCredibleReading
    | true =>
      cases hcond : m.conditionActive with
      | true => simpa [reset, hs, hn, hcond] using hr .conditionActive
      | false => simpa [reset, hs, hn, hcond] using Stepped.resets m hs hn hcond
  · simpa [reset, hs] using hr .notTripped

theorem call_stepped (m : ZoneTripState) (op : Op) (hp : op.isStartup = false) :
    Stepped ⟨m, op, (op.call m).2, (op.call m).1⟩ := by
  have hu : ∀ (op : Op) (m' : ZoneTripState) (r : Except TripError Transition), Quiet m m' →
      op.isStartup = false → op.isObserve = false → op.isAttempt = false → op ≠ .outcomeRetry →
      Event.outcome ⟨m, op, r, m'⟩ = none → Stepped ⟨m, op, r, m'⟩ := by
    intro op m' r hq hs ho ha hr hou
    exact .quiet m m' op r hq hs ho (by simp [ha]) (fun h => absurd h hr) hou
  cases op with
  | startup d j c b => simp [Op.isStartup] at hp
  | observe v => exact observe_stepped m v
  | beginDriverAttempt | releaseDriverAttempt | recordDriverResult accepted =>
    exact attempt_stepped m _ rfl
  | arm => exact arm_stepped m
  | reset => exact reset_stepped m
  | outcomeRetry =>
    refine .quiet m m _ _ (Quiet.refl m) rfl rfl (by simp [Op.isAttempt]) (fun _ => rfl) ?_
    change m.outcomeRetry.outcome = none
    unfold outcomeRetry
    split_ifs <;> rfl
  | confirmSafetyPath => exact hu _ _ _ ⟨rfl, rfl, rfl, rfl, rfl⟩ rfl rfl rfl (by simp) rfl
  | recordRetry committed =>
    refine hu _ _ _ ?_ rfl rfl rfl (by simp) rfl
    simp only [Op.call, recordRetry]
    split_ifs <;> exact ⟨rfl, rfl, rfl, rfl, rfl⟩
  | recordWriteFailed => exact hu _ _ _ ⟨rfl, rfl, rfl, rfl, rfl⟩ rfl rfl rfl (by simp) rfl
  | effectReport result =>
    simp only [Op.call, effectReport]
    split_ifs <;> exact hu _ _ _ ⟨rfl, rfl, rfl, rfl, rfl⟩ rfl rfl rfl (by simp) rfl
  | external source => exact hu _ _ _ (Quiet.refl m) rfl rfl rfl (by simp) rfl
  | bindingRemoved => exact hu _ _ _ ⟨rfl, rfl, rfl, rfl, rfl⟩ rfl rfl rfl (by simp) rfl
  | retireOrphan =>
    simp only [Op.call, retireOrphan]
    split_ifs <;> exact hu _ _ _ ⟨rfl, rfl, rfl, rfl, rfl⟩ rfl rfl rfl (by simp) rfl

theorem step_cases {s t : State} {op : Op} (h : step s op = some t) :
    ∃ e, Stepped e ∧ e.before = s.machine ∧ e.op = op ∧ t = ⟨e.after, e :: s.history⟩ := by
  refine ⟨⟨s.machine, op, (op.call s.machine).2, (op.call s.machine).1⟩, ?_, rfl, rfl, ?_⟩
  · cases hp : op.isStartup with
    | false => exact call_stepped s.machine op hp
    | true =>
      cases op with
      | startup d j c b =>
        simp only [step, hp, Bool.true_and] at h
        split_ifs at h with ha
        simp only [Op.call] at ha ⊢
        cases hr : s.machine.startup d j c b with
        | mk m' r =>
          cases r with
          | error e => simp [Event.answered, hr] at ha
          | ok tr =>
            obtain ⟨ho, st, cs, o, rfl⟩ := startup_ok hr
            exact .starts s.machine d j c b st cs o tr ho
      | _ => simp [Op.isStartup] at hp
  · simp only [step] at h
    split_ifs at h
    exact (some.inj h).symm

/-! ### The machine's flags agree with the history -/

/-- What the machine's flags say about the history so far. -/
structure Agrees (m : ZoneTripState) (h : List Event) : Prop where
  condition : m.conditionActive = decide (lastCredible h = some .trip)
  seen : m.credibleReadingSeen = (lastCredible h).isSome
  latched : m.conditionActive = true → m.state = .tripped
  lease : attemptsInFlight h = m.driverAttemptInFlight.toNat
  accepted : commandAccepted h = true → m.commandStatus = .commandIssued
  opened : opensSinceExit h ≤ 1
  unopened : m.state ≠ .tripped → opensSinceExit h = 0

variable {h : List Event} {e : Event}

theorem lastCredible_eq_some {v : Verdict} (hv : lastCredible h = some v) :
    v = .trip ∨ v = .noTrip := by
  induction h with
  | nil => simp [lastCredible] at hv
  | cons e h ih =>
    unfold lastCredible at hv
    split at hv
    · simp at hv
    · rename_i w _
      by_cases hw : w = ⟨.trip, none⟩ ∨ w = ⟨.noTrip, none⟩
      · simp only [credible, if_pos hw] at hv
        have hv := some.inj hv
        obtain rfl | rfl := hw
        · exact .inl hv.symm
        · exact .inr hv.symm
      · simp only [credible, if_neg hw] at hv
        exact ih (by simpa using hv)
    · exact ih hv

theorem Agrees.lastCredible_noTrip {m : ZoneTripState} (hm : Agrees m h)
    (hsn : m.credibleReadingSeen = true) (hcond : m.conditionActive = false) :
    lastCredible h = some .noTrip := by
  have hs : (lastCredible h).isSome = true := hm.seen ▸ hsn
  obtain ⟨v, hv⟩ := isSome_iff_exists.mp hs
  have hn : lastCredible h ≠ some .trip := of_decide_eq_false (hm.condition ▸ hcond)
  obtain rfl | rfl := lastCredible_eq_some hv
  · exact absurd hv hn
  · exact hv

theorem Event.not_opens (h : e.outcome = none) : ¬ e.opens := by
  simp [Event.opens, h]

theorem Event.not_closes (h : e.outcome = none) : ¬ e.closes := by
  simp [Event.closes, h]

theorem Event.not_exits (h : e.outcome = none) : ¬ e.exits := fun he => Event.not_closes h he.2

theorem opensSinceExit_cons (hs : e.op.isStartup = false) (ho : e.outcome = none) :
    opensSinceExit (e :: h) = opensSinceExit h := by
  simp [opensSinceExit, hs, Event.not_exits ho, Event.not_opens ho]

theorem Agrees.quiet {m m' : ZoneTripState} {op : Op} {r : Except TripError Transition}
    (hm : Agrees m h) (hq : Quiet m m') (hs : op.isStartup = false)
    (hb : op.isObserve = false) (ha : op.isAttempt = true → ∃ e, r = .error e)
    (hu : Event.outcome ⟨m, op, r, m'⟩ = none) : Agrees m' (⟨m, op, r, m'⟩ :: h) := by
  have hcred : lastCredible (⟨m, op, r, m'⟩ :: h) = lastCredible h := by
    cases op <;> first | rfl | simp_all [Op.isStartup, Op.isObserve]
  have hl : attemptsInFlight (⟨m, op, r, m'⟩ :: h) = attemptsInFlight h := by
    cases op with
    | startup d j c b => simp [Op.isStartup] at hs
    | beginDriverAttempt | releaseDriverAttempt | recordDriverResult accepted =>
      obtain ⟨e, rfl⟩ := ha rfl
      rfl
    | _ => rfl
  have hc : commandAccepted (⟨m, op, r, m'⟩ :: h) = commandAccepted h := by
    cases op with
    | startup d j c b => simp [Op.isStartup] at hs
    | observe v => simp [Op.isObserve] at hb
    | recordDriverResult accepted =>
      obtain ⟨e, rfl⟩ := ha rfl
      cases accepted <;> rfl
    | _ => rfl
  have ho := opensSinceExit_cons (h := h) (e := ⟨m, op, r, m'⟩) hs hu
  constructor
  · rw [hcred, hq.conditionActive, hm.condition]
  · rw [hcred, hq.credibleReadingSeen, hm.seen]
  · rw [hq.conditionActive, hq.state]
    exact hm.latched
  · rw [hl, hq.driverAttemptInFlight, hm.lease]
  · rw [hc, hq.commandStatus]
    exact hm.accepted
  · rw [ho]
    exact hm.opened
  · rw [ho, hq.state]
    exact hm.unopened

theorem Agrees.step (he : Stepped e) (hm : Agrees e.before h) : Agrees e.after (e :: h) := by
  cases he with
  | starts m d j c b st cs o t hu =>
    have ho : opensSinceExit (⟨m, .startup d j c b, .ok t,
        { m.forgetStart with state := st, commandStatus := cs, orphaned := o }⟩ :: h) = 0 := by
      simp [opensSinceExit, Op.isStartup]
    constructor
    · rfl
    · rfl
    · intro hcond
      simp [forgetStart] at hcond
    · rfl
    · intro ha
      simpa [commandAccepted] using ha
    · rw [ho]
      exact Nat.zero_le 1
    · exact fun _ => ho
  | trips m ht =>
    have hzero := hm.unopened ht
    constructor
    · rfl
    · rfl
    · exact fun _ => rfl
    · exact hm.lease
    · intro ha
      simp [commandAccepted, Event.opens, Event.outcome] at ha
    · simp [opensSinceExit, Op.isStartup, Event.exits, Event.opens, Event.outcome, hzero]
    · exact fun hne => absurd rfl hne
  | repeats m ht =>
    have ho := opensSinceExit_cons (h := h) (e := ⟨m, .observe ⟨.trip, none⟩,
      .ok { state := m.state }, { m with credibleReadingSeen := true, conditionActive := true }⟩)
      rfl rfl
    constructor
    · rfl
    · rfl
    · exact fun _ => ht
    · exact hm.lease
    · exact hm.accepted
    · rw [ho]
      exact hm.opened
    · exact fun hne => absurd ht hne
  | clears m =>
    have ho := opensSinceExit_cons (h := h) (e := ⟨m, .observe ⟨.noTrip, none⟩,
      .ok { state := m.state }, { m with credibleReadingSeen := true, conditionActive := false }⟩)
      rfl rfl
    constructor
    · rfl
    · rfl
    · intro hcond
      simp at hcond
    · exact hm.lease
    · exact hm.accepted
    · rw [ho]
      exact hm.opened
    · rw [ho]
      exact hm.unopened
  | discards m v r hv hu =>
    have hcred : lastCredible (⟨m, .observe v, r, m⟩ :: h) = lastCredible h := by
      simp [lastCredible, hv]
    have ha : commandAccepted (⟨m, .observe v, r, m⟩ :: h) = commandAccepted h := by
      simp [commandAccepted, Event.not_opens hu]
    have ho := opensSinceExit_cons (h := h) (e := ⟨m, .observe v, r, m⟩) rfl hu
    constructor
    · rw [hcred]
      exact hm.condition
    · rw [hcred]
      exact hm.seen
    · exact hm.latched
    · exact hm.lease
    · rw [ha]
      exact hm.accepted
    · rw [ho]
      exact hm.opened
    · rw [ho]
      exact hm.unopened
  | begins m hop hf =>
    have hl : attemptsInFlight h = 0 := by simpa [hf] using hm.lease
    refine ⟨hm.condition, hm.seen, hm.latched, ?_, hm.accepted, ?_, ?_⟩
    · simp [attemptsInFlight, Event.answered, hl]
    · rw [opensSinceExit_cons rfl rfl]
      exact hm.opened
    · rw [opensSinceExit_cons rfl rfl]
      exact hm.unopened
  | releases m hh =>
    have hl : attemptsInFlight h = 1 := by simpa [hh] using hm.lease
    refine ⟨hm.condition, hm.seen, hm.latched, ?_, hm.accepted, ?_, ?_⟩
    · simp [attemptsInFlight, Event.answered, hl]
    · rw [opensSinceExit_cons rfl rfl]
      exact hm.opened
    · rw [opensSinceExit_cons rfl rfl]
      exact hm.unopened
  | answers m accepted hop hh =>
    have hl : attemptsInFlight h = 1 := by simpa [hh] using hm.lease
    have hn : commandAccepted h = false := by
      by_contra ha
      have hi := hm.accepted (by simpa using ha)
      obtain ⟨-, hp | hr⟩ := hop
      · simp [hp] at hi
      · simp [hr] at hi
    refine ⟨hm.condition, hm.seen, hm.latched, ?_, ?_, ?_, ?_⟩
    · simp [attemptsInFlight, Event.answered, hl]
    · cases accepted with
      | true => simp
      | false =>
        intro ha
        simp [commandAccepted, hn] at ha
    · rw [opensSinceExit_cons rfl rfl]
      exact hm.opened
    · rw [opensSinceExit_cons rfl rfl]
      exact hm.unopened
  | arms m ht hsn =>
    have hzero := hm.unopened ht
    have hcond : m.conditionActive = false := by
      by_contra hc
      exact ht (hm.latched (by simpa using hc))
    have ho : opensSinceExit (⟨m, .arm,
        .ok { state := .armed, outcome := some closeProtectedCircuit },
        { m with state := .armed }⟩ :: h) = 0 := by
      simpa [opensSinceExit, Op.isStartup, Event.exits, Event.opens, Event.outcome,
        openProtectedCircuit, closeProtectedCircuit] using hzero
    refine ⟨hm.condition, hm.seen, ?_, hm.lease, hm.accepted, ?_, ?_⟩
    · intro hc
      simp [hcond] at hc
    · rw [ho]
      exact Nat.zero_le 1
    · exact fun _ => ho
  | resets m ht hsn hcond =>
    have ho : opensSinceExit (⟨m, .reset,
        .ok { state := .armed, outcome := some closeProtectedCircuit },
        { m with state := .armed, retryCancelled := true }⟩ :: h) = 0 := by
      simp [opensSinceExit, Event.exits, Event.closes, Event.outcome]
    refine ⟨hm.condition, hm.seen, ?_, hm.lease, hm.accepted, ?_, ?_⟩
    · intro hc
      simp [hcond] at hc
    · rw [ho]
      exact Nat.zero_le 1
    · exact fun _ => ho
  | quiet m m' op r hq hs hb hat hre hu =>
    exact hm.quiet hq hs hb hat hu

/-! ### What the history holds -/

/-- The latch and close conditions of one event, after the history `h`. -/
structure Justified (e : Event) (h : List Event) : Prop where
  leaves : e.before.state = .tripped → e.after.state ≠ .tripped →
    e.op = .reset ∨ e.op.isStartup = true
  closes : e.closes → (e.op = .arm ∨ e.op = .reset) ∧ lastCredible h = some .noTrip
  trip_opens : e.op = .observe ⟨.trip, none⟩ → e.before.state ≠ .tripped →
    e.opens ∧ e.after.state = .tripped
  opens_trip : e.opens → e.op = .observe ⟨.trip, none⟩ ∧ e.before.state ≠ .tripped
  retried : e.op = .outcomeRetry → commandAccepted h = true →
    e.result = .ok { state := e.before.state, retry := some .skipped }

theorem Justified.of_silent (hu : e.outcome = none) (hs : e.after.state = e.before.state)
    (htrip : e.op ≠ .observe ⟨.trip, none⟩)
    (hr : e.op = .outcomeRetry → commandAccepted h = true →
      e.result = .ok { state := e.before.state, retry := some .skipped }) : Justified e h where
  leaves := fun hb ha => absurd (hs.trans hb) ha
  closes := fun hc => absurd hc (Event.not_closes hu)
  trip_opens := fun hp => absurd hp htrip
  opens_trip := fun ho => absurd ho (Event.not_opens hu)
  retried := hr

theorem Stepped.justified (he : Stepped e) (hm : Agrees e.before h) : Justified e h := by
  cases he with
  | starts m d j c b st cs o t hu =>
    refine ⟨fun _ _ => .inr rfl, fun hc => ?_, by simp, fun ho => ?_, by simp⟩
    · exact absurd hc (Event.not_closes hu)
    · exact absurd ho (Event.not_opens hu)
  | trips m ht =>
    refine ⟨fun hb => absurd hb ht, fun hc => ?_, fun _ _ => ⟨rfl, rfl⟩,
      fun _ => ⟨rfl, ht⟩, by simp⟩
    simp [Event.closes, Event.outcome, openProtectedCircuit, closeProtectedCircuit] at hc
  | repeats m ht =>
    refine ⟨fun hb ha => absurd hb ha, fun hc => ?_,
      fun _ hne => absurd ht hne, fun ho => ?_, by simp⟩
    · exact absurd hc (Event.not_closes rfl)
    · exact absurd ho (Event.not_opens rfl)
  | clears m => exact .of_silent rfl rfl (by simp) (by simp)
  | discards m v r hv hu =>
    refine .of_silent hu rfl ?_ (by simp)
    rintro hp
    obtain rfl : v = ⟨.trip, none⟩ := by simpa using hp
    simp [credible] at hv
  | begins m hopen hf | releases m hh | answers m accepted hopen hh =>
    exact .of_silent rfl rfl (by simp) (by simp)
  | arms m ht hn =>
    have hcond : m.conditionActive = false := by
      by_contra hc
      exact ht (hm.latched (by simpa using hc))
    refine ⟨fun hb => absurd hb ht,
      fun _ => ⟨.inl rfl, hm.lastCredible_noTrip hn hcond⟩, by simp, fun ho => ?_, by simp⟩
    simp [Event.opens, Event.outcome, openProtectedCircuit, closeProtectedCircuit] at ho
  | resets m ht hn hcond =>
    refine ⟨fun _ _ => .inl rfl,
      fun _ => ⟨.inr rfl, hm.lastCredible_noTrip hn hcond⟩, by simp, fun ho => ?_, by simp⟩
    simp [Event.opens, Event.outcome, openProtectedCircuit, closeProtectedCircuit] at ho
  | quiet m m' op r hq hs hob hat hre hu =>
    refine .of_silent hu hq.state ?_ ?_
    · rintro rfl
      simp [Op.isObserve] at hob
    · intro hp hac
      have hi : m.commandStatus = .commandIssued := hm.accepted hac
      have hr := hre hp
      simp only [hr, outcomeRetry, hi, or_true, if_true]

theorem forall_suffix_cons {P : Event → List Event → Prop} {l : List Event} (he : P e l)
    (hl : ∀ e' h, e' :: h <:+ l → P e' h) : ∀ e' h, e' :: h <:+ e :: l → P e' h := by
  intro e' h hs
  obtain heq | hr := suffix_cons_iff.mp hs
  · obtain ⟨rfl, rfl⟩ := List.cons.inj heq
    exact he
  · exact hl e' h hr

def Chronicled (s : State) : Prop :=
  Agrees s.machine s.history ∧ ∀ e h, e :: h <:+ s.history → Justified e h

theorem chronicled_initial (zoneId profileId : String) (terminalState : TerminalState) :
    Chronicled (initial zoneId profileId terminalState) := by
  refine ⟨⟨rfl, rfl, by simp [initial], rfl, by simp [initial, commandAccepted],
    by simp [initial, opensSinceExit], by simp [initial, opensSinceExit]⟩, ?_⟩
  intro e h hs
  simp [initial] at hs

theorem chronicled_step (s : State) (op : Op) (t : State) (hs : Chronicled s)
    (h : step s op = some t) : Chronicled t := by
  obtain ⟨e, he, hb, -, rfl⟩ := step_cases h
  have hm : Agrees e.before s.history := hb ▸ hs.1
  exact ⟨hm.step he, forall_suffix_cons (he.justified hm) hs.2⟩

def Resettable (m : ZoneTripState) : Prop :=
  m.state = .tripped ∧ m.credibleReadingSeen = true ∧ m.conditionActive = false

def ResetFindsNoAttempt (s : State) (op : Op) : Prop :=
  op = .reset → Resettable s.machine → s.machine.driverAttemptInFlight = false

/-- An attempt is in flight only while tripped, and every trip so far could acquire one. -/
def Acquirable (s : State) : Prop :=
  (s.machine.driverAttemptInFlight = true → s.machine.state = .tripped) ∧
    ∀ e h, e :: h <:+ s.history → e.opens → ∃ t, e.after.beginDriverAttempt.2 = .ok t

theorem acquirable_step (s : State) (op : Op) (t : State) (hs : Acquirable s)
    (hr : ResetFindsNoAttempt s op) (h : step s op = some t) : Acquirable t := by
  obtain ⟨e, he, hb, rfl, rfl⟩ := step_cases h
  obtain ⟨hl, hhist⟩ := hs
  rw [← hb] at hl
  unfold ResetFindsNoAttempt at hr
  rw [← hb] at hr
  have hi : e.outcome = none → ∀ e' h, e' :: h <:+ e :: s.history → e'.opens →
      ∃ t, e'.after.beginDriverAttempt.2 = .ok t := fun hu =>
    forall_suffix_cons (fun ho => absurd ho (Event.not_opens hu)) hhist
  cases he with
  | starts m d j c b st cs o t hu => exact ⟨by simp [forgetStart], hi hu⟩
  | trips m ht =>
    have hf : m.driverAttemptInFlight = false := by
      by_contra hh
      exact ht (hl (by simpa using hh))
    refine ⟨fun _ => rfl, forall_suffix_cons (fun _ => ?_) hhist⟩
    exact ⟨{ state := .tripped }, by simp [beginDriverAttempt, commandOpen, hf]⟩
  | repeats m ht | clears m => exact ⟨hl, hi rfl⟩
  | discards m v r hv hu => exact ⟨hl, hi hu⟩
  | begins m hp hf => exact ⟨fun _ => hp.1, hi rfl⟩
  | releases m hh | answers m accepted hp hh => exact ⟨by simp, hi rfl⟩
  | arms m ht hn =>
    refine ⟨fun hh => absurd (hl hh) ht, forall_suffix_cons (fun ho => ?_) hhist⟩
    simp [Event.opens, Event.outcome, openProtectedCircuit, closeProtectedCircuit] at ho
  | resets m ht hn hcond =>
    have hf : m.driverAttemptInFlight = false := hr rfl ⟨ht, hn, hcond⟩
    refine ⟨fun hh => ?_, forall_suffix_cons (fun ho => ?_) hhist⟩
    · simp [hf] at hh
    · simp [Event.opens, Event.outcome, openProtectedCircuit, closeProtectedCircuit] at ho
  | quiet m m' op r hq hsr hob ha hre hu =>
    refine ⟨?_, hi hu⟩
    rw [hq.driverAttemptInFlight, hq.state]
    exact hl

/-- In every run whose granted resets find no attempt in flight, the latch and close conditions
hold of the state reached. -/
theorem safe_of_resets_find_no_attempt {zoneId profileId : String} {terminalState : TerminalState}
    {ops : List Op} {s : State}
    (hrun : Execution.run step (initial zoneId profileId terminalState) ops = some s)
    (hmeets : Execution.Meets step ResetFindsNoAttempt (initial zoneId profileId terminalState) ops) :
    Safe s := by
  obtain ⟨hagrees, hevents⟩ :=
    Execution.run_invariant chronicled_step (chronicled_initial zoneId profileId terminalState) hrun
  have hinit : Acquirable (initial zoneId profileId terminalState) := by
    refine ⟨by simp [initial], fun e h hsuffix => ?_⟩
    simp [initial] at hsuffix
  have hacquirable := Execution.run_invariant_of_meets acquirable_step hinit hmeets hrun
  have hmem : ∀ e ∈ s.history, ∃ h, Justified e h := by
    intro e he
    obtain ⟨pre, post, hsplit⟩ := append_of_mem he
    exact ⟨post, hevents e post ⟨pre, hsplit.symm⟩⟩
  constructor
  · exact hagrees.latched
  · intro e he
    obtain ⟨h, hj⟩ := hmem e he
    exact hj.leaves
  · exact fun e h hsuffix => (hevents e h hsuffix).closes
  · intro e he
    obtain ⟨h, hj⟩ := hmem e he
    exact hj.trip_opens
  · intro e he
    obtain ⟨h, hj⟩ := hmem e he
    exact hj.opens_trip
  · exact hagrees.opened
  · rw [hagrees.lease]
    exact Bool.toNat_le s.machine.driverAttemptInFlight
  · exact fun e h hsuffix => (hevents e h hsuffix).retried
  · exact fun e h hsuffix ho _ => hacquirable.2 e h hsuffix ho

/-- A trip whose command is accepted, a reset, and a second trip. -/
def servedRun : List Op :=
  [.startup none [] none 1, .observe ⟨.trip, none⟩, .beginDriverAttempt, .recordDriverResult true,
    .outcomeRetry, .observe ⟨.noTrip, none⟩, .reset, .observe ⟨.trip, none⟩]

theorem safe_of_resets_find_no_attempt_served :
    ∃ s, Execution.run step (initial "z1" "p1" .circuitOpen) servedRun = some s ∧ Safe s ∧
      ∃ t, s.machine.beginDriverAttempt.2 = .ok t := by
  have hmeets : Execution.Meets step ResetFindsNoAttempt (initial "z1" "p1" .circuitOpen)
      servedRun := by
    refine Execution.meets_cons nofun rfl (Execution.meets_cons nofun rfl (Execution.meets_cons
      nofun rfl (Execution.meets_cons nofun rfl (Execution.meets_cons nofun rfl
      (Execution.meets_cons nofun rfl (Execution.meets_cons (fun _ _ => rfl) rfl
      (Execution.meets_cons nofun rfl trivial)))))))
  exact ⟨_, rfl, safe_of_resets_find_no_attempt rfl hmeets, _, rfl⟩

/-- The first trip's call is on the wire when the pair is reset, and answers afterwards. -/
def leasedResetRun : List Op :=
  [.startup none [] none 1, .observe ⟨.trip, none⟩, .beginDriverAttempt,
    .observe ⟨.noTrip, none⟩, .reset, .recordDriverResult true, .observe ⟨.trip, none⟩]

/-- The late answer is refused without consuming the lease, and the second trip is refused its own
attempt although no call is on the wire. -/
theorem reset_keeps_lease :
    ∃ s, Execution.run step (initial "z1" "p1" .circuitOpen) leasedResetRun = some s ∧
      s.machine.beginDriverAttempt.2 = .error .attemptAlreadyInFlight ∧ ¬ Safe s := by
  refine ⟨_, rfl, rfl, fun hsafe => ?_⟩
  obtain ⟨t, ht⟩ := hsafe.trip_acquires _ _ (suffix_refl _) rfl
    ⟨_, mem_cons_of_mem _ mem_cons_self, rfl, rfl⟩
  cases ht

end OriRuntime.TripLatch
