import OriRuntime.DispatchPlan
import OriRuntime.Execution

/-!
# In-flight holds of the dispatch coordinator

`ori/reasoning/dispatch_coordinator.py`: each step of `dispatch_event` between two awaits is one
atomic step. A plan with a cooldown holds its trigger from `_hold_in_flight` until it is charged or
its event ends; reasoning tasks settle, and their callbacks charge them, in any order; an event is
interrupted at any await. The plans of every event sit in one list and name their event.
-/

namespace OriRuntime

/-- A rule the engine matched, with the sensor of the event it matched. -/
structure RuleMatch where
  skillName : String
  ruleName : String
  actionTier : String
  bypassLlm : Bool
  sensorId : String := ""

/-- The loaded skills, the commissioned binding and the registered executors. -/
structure Site where
  firstParty : String → Bool
  declaredActions : String → String → List String
  declaredTier : String → String → String
  cooldownFor : String → String → ℤ
  binding : Option BindingView := none
  hasExecutor : String → Bool

/-- A trigger's plan. `event`, `heldAt`, `attempted`, `settled`, `charged`, `taken` and `released` say
where its run stands: when it took its hold, which Tier D actions were handed to the dispatcher,
whether its task has settled and been charged, and how often its hold was taken and released. -/
structure TriggerPlan where
  event : ℕ
  skillName : String
  triggerName : String
  incidentTier : String
  actions : List PlannedAction
  cooldownSeconds : ℤ
  scheduled : Bool := false
  holdsInFlight : Bool := false
  remainderHeld : Bool := false
  heldAt : ℕ := 0
  attempted : List ℕ := []
  settled : Bool := false
  charged : Bool := false
  taken : ℕ := 0
  released : ℕ := 0

namespace TriggerPlan

def key (p : TriggerPlan) : String × String := (p.skillName, p.triggerName)

def grantsTierD (p : TriggerPlan) : Bool := p.actions.any (·.tierDGranted)

/-- The outcome cooldown is charged on: no Tier D act's ever counts. -/
def cooldownOutcome (p : TriggerPlan) : DispatchOutcome :=
  strongestOutcome ((p.actions.filter (fun a => !a.tierDGranted)).map (·.outcome))

/-- Only a trigger with a cooldown is held. -/
def limited (p : TriggerPlan) : Bool := decide (0 < p.cooldownSeconds ∧ p.triggerName ≠ "")

def release (p : TriggerPlan) : TriggerPlan :=
  if p.holdsInFlight then { p with holdsInFlight := false, released := p.released + 1 } else p

def remaining (p : TriggerPlan) : List PlannedAction :=
  p.actions.filter (fun a => a.admitted && decide (a.outcome = .pending))

def scheduleRemainder (p : TriggerPlan) : TriggerPlan :=
  if p.remainderHeld ∨ p.remaining = [] then p else { p with scheduled := true }

/-- What the reasoning path dispatched without recording a refusal was attempted. -/
def settlePending (p : TriggerPlan) : TriggerPlan :=
  let attempted := p.actions.map (fun a =>
    if a.outcome = .pending then { a with outcome := .attempted } else a)
  { p with actions := if p.triggerName = "" then p.actions else attempted, charged := true }

end TriggerPlan

/-- What a dispatched Tier D action reached, from the `action_taken` of its result. -/
def attemptAnswer (a : PlannedAction) (taken : String) : PlannedAction :=
  if "refused_".toList.isPrefixOf taken.toList then
    { a with outcome := .fullyRefused, refusal := String.ofList (taken.toList.drop 8) }
  else if taken = "coalesced" then { a with outcome := .joinedAttempt }
  else { a with outcome := .attempted }

/-- The outcomes the reasoning path records, which leaves Tier D acts alone. -/
def recordOutcomes : List PlannedAction → List DispatchOutcome → List PlannedAction
  | a :: as, o :: os =>
    (if a.tierDGranted then a else { a with outcome := o }) :: recordOutcomes as os
  | as, [] => as
  | [], _ => []

def TriggerPlan.settle (p : TriggerPlan) (outcomes : List DispatchOutcome) : TriggerPlan :=
  { p with actions := recordOutcomes p.actions outcomes, settled := true }

/-- Where `dispatch_event` awaits: the rest of discovery with nothing matched at Tier D, the Tier D
attempts, the rest of discovery after them, or the scheduled tasks. -/
inductive EventPhase where
  | discovering
  | attempting
  | discoveringRest
  | settling
  | ended
  deriving DecidableEq

/-- A run of `dispatch_event`. `cutShort` says it was cancelled before its Tier D attempts returned. -/
structure EventRun where
  phase : EventPhase
  cutShort : Bool := false
  tierDMatches : List RuleMatch := []

structure Coordinator where
  inFlight : Finset (String × String) := ∅
  fired : Dict (String × String) ℕ := Dict.empty
  now : ℕ := 0
  plans : List TriggerPlan := []
  runs : Dict ℕ EventRun := Dict.empty

def isTierD (m : RuleMatch) : Bool := decide (upper m.actionTier = "D")

/-- The engine's cooldown for a trigger of a skill. -/
def inCooldown (fired : Dict (String × String) ℕ) (now : ℕ) (p : TriggerPlan) : Bool :=
  match fired.get? p.key with
  | none => false
  | some last => decide (0 < p.cooldownSeconds ∧ (now : ℤ) - last < p.cooldownSeconds * 1000)

def recordFire (now : ℕ) (fired : Dict (String × String) ℕ) (p : TriggerPlan) :
    Dict (String × String) ℕ :=
  if p.triggerName ≠ "" ∧ consumesCooldown p.cooldownOutcome = true then fired.set p.key now
  else fired

def planFor (site : Site) (event : ℕ) (m : RuleMatch) : TriggerPlan where
  event := event
  skillName := m.skillName
  triggerName := m.ruleName
  incidentTier := upper (if m.actionTier = "" then "A" else m.actionTier)
  cooldownSeconds := site.cooldownFor m.skillName m.ruleName
  actions := (site.declaredActions m.skillName m.ruleName).map (fun action => assignActionTier
    { action := action
      incidentTier := upper (if m.actionTier = "" then "A" else m.actionTier)
      declaredTier := site.declaredTier m.skillName action
      bypassLlm := m.bypassLlm
      firstParty := site.firstParty m.skillName
      declaredActions := site.declaredActions m.skillName m.ruleName
      binding := site.binding
      hasExecutor := site.hasExecutor action
      zoneIdentityKey := site.binding.bind (·.zoneIdentityKey)
      bindingRevision := (site.binding.map (·.bindingRevision)).getD ""
      parts := { target := m.sensorId } })

namespace Coordinator

/-- Keep one match, hold its trigger, or drop it. A plan granting Tier D is never dropped. -/
def holdPlan (s : Coordinator) (p : TriggerPlan) : Coordinator :=
  if p.limited then
    if p.key ∈ s.inFlight ∨ inCooldown s.fired s.now p = true then
      if p.grantsTierD then { s with plans := s.plans ++ [{ p with remainderHeld := true }] } else s
    else
      { s with
        inFlight := insert p.key s.inFlight
        plans := s.plans ++
          [{ p with holdsInFlight := true, heldAt := s.now, taken := p.taken + 1 }] }
  else { s with plans := s.plans ++ [p] }

def holdInFlight (s : Coordinator) (plans : List TriggerPlan) : Coordinator :=
  plans.foldl holdPlan s

/-- Release the selected plans that still hold their trigger. -/
def release (s : Coordinator) (selected : ℕ → TriggerPlan → Bool) : Coordinator :=
  { s with
    plans := s.plans.mapIdx (fun i p => if selected i p then p.release else p)
    inFlight := ((s.plans.mapIdx (fun i p =>
      if selected i p && p.holdsInFlight then [p.key] else [])).flatten).foldl Finset.erase
        s.inFlight }

def schedule (s : Coordinator) (selected : ℕ → TriggerPlan → Bool) : Coordinator :=
  { s with plans := s.plans.mapIdx (fun i p => if selected i p then p.scheduleRemainder else p) }

/-- Charge and release the event's plans that scheduled nothing. -/
def chargeCooldowns (s : Coordinator) (event : ℕ) : Coordinator :=
  let unscheduled := s.plans.filter (fun p => decide (p.event = event) && !p.scheduled)
  let fired := unscheduled.foldl (recordFire s.now) s.fired
  { s with fired := fired }.release (fun _ p => decide (p.event = event) && !p.scheduled)

/-- Charge one plan whose task has settled, and release it. -/
def chargePlan (s : Coordinator) (i : ℕ) (p : TriggerPlan) : Coordinator :=
  { s with
    fired := recordFire s.now s.fired p.settlePending
    plans := s.plans.set i p.settlePending }.release (fun j _ => decide (j = i))

def setPhase (s : Coordinator) (event : ℕ) (run : EventRun) : Coordinator :=
  { s with runs := s.runs.set event run }

/-- Every granted action of the event's plans was handed to the dispatcher and answered. -/
def attemptsAnswered (s : Coordinator) (event : ℕ) : Bool :=
  s.plans.all (fun p => decide (p.event ≠ event) || p.actions.zipIdx.all (fun a =>
    !(a.1.tierDGranted && a.1.admitted) || (decide (a.2 ∈ p.attempted) &&
      decide (a.1.outcome ≠ .pending))))

inductive Label where
  | clock (now : ℕ)
  | discoverTierD (event : ℕ) (matched : List RuleMatch)
  | attempt (i j : ℕ)
  | answer (i j : ℕ) (taken : String)
  | attemptsReturn (event : ℕ)
  | discoverRest (event : ℕ) (matched : List RuleMatch)
  | settle (i : ℕ) (outcomes : List DispatchOutcome)
  | charge (i : ℕ)
  | interrupt (event : ℕ)
  | finish (event : ℕ)

/-- Hold the rest of an event's matches, schedule them, and charge what scheduled nothing. -/
def dispatchRest (s : Coordinator) (event : ℕ) (rest : List TriggerPlan) : Coordinator :=
  ((s.holdInFlight rest).schedule (fun i _ => decide (s.plans.length ≤ i))).chargeCooldowns event

def step (site : Site) (s : Coordinator) : Label → Option Coordinator
  | .clock now => some { s with now := now }
  | .discoverTierD event matched =>
    match s.runs.get? event with
    | some _ => none
    | none =>
      let tierD := matched.filter isTierD
      if tierD = [] then some (s.setPhase event { phase := .discovering })
      else some ((s.setPhase event { phase := .attempting, tierDMatches := tierD }).holdInFlight
        (tierD.map (planFor site event)))
  | .attempt i j =>
    match s.plans[i]? with
    | none => none
    | some p =>
      match p.actions[j]? with
      | none => none
      | some a =>
        if a.tierDGranted ∧ a.admitted ∧ j ∉ p.attempted then
          some { s with plans := s.plans.set i { p with attempted := j :: p.attempted } }
        else none
  | .answer i j taken =>
    match s.plans[i]? with
    | none => none
    | some p =>
      match p.actions[j]? with
      | none => none
      | some a =>
        if a.tierDGranted ∧ j ∈ p.attempted ∧ a.outcome = .pending then
          let answered := { p with actions := p.actions.set j (attemptAnswer a taken) }
          some { s with plans := s.plans.set i answered }
        else none
  | .attemptsReturn event =>
    match s.runs.get? event with
    | none => none
    | some run =>
      if run.phase = .attempting ∧ s.attemptsAnswered event then
        some ((s.setPhase event { run with phase := .discoveringRest }).schedule
          (fun _ p => decide (p.event = event)))
      else none
  | .discoverRest event matched =>
    match s.runs.get? event with
    | none => none
    | some run =>
      let rest := (matched.filter (fun m => !isTierD m)).map (planFor site event)
      if run.phase = .discovering ∧ rest = [] then
        some (s.setPhase event { run with phase := .ended })
      else if run.phase = .discovering ∨ run.phase = .discoveringRest then
        some ((s.setPhase event { run with phase := .settling }).dispatchRest event rest)
      else none
  | .settle i outcomes =>
    match s.plans[i]? with
    | none => none
    | some p =>
      if p.scheduled ∧ p.settled = false then
        some { s with plans := s.plans.set i (p.settle outcomes) }
      else none
  | .charge i =>
    match s.plans[i]? with
    | none => none
    | some p => if p.settled ∧ p.charged = false then some (s.chargePlan i p) else none
  | .interrupt event =>
    match s.runs.get? event with
    | none => none
    | some run =>
      match run.phase with
      | .discovering => some (s.setPhase event { run with phase := .ended })
      | .attempting => some (s.setPhase event { run with phase := .settling, cutShort := true })
      | .discoveringRest => some (s.setPhase event { run with phase := .settling })
      | .settling => some s
      | .ended => none
  | .finish event =>
    match s.runs.get? event with
    | none => none
    | some run =>
      if run.phase = .settling ∧
          s.plans.all (fun p => decide (p.event ≠ event) || !p.scheduled || p.charged) then
        some ((s.release (fun _ p => decide (p.event = event))).setPhase event
          { run with phase := .ended })
      else none

end Coordinator

end OriRuntime
