import OriRuntime.ActionDispatch
import OriRuntime.HoldDiscipline

/-!
# The turn a cooldown is charged for

What the reasoning path of `ori/reasoning/elevator.py` dispatches of a scheduled plan, what
`_record_planned_outcome` writes back, and what `dispatch_coordinator.py` charges once the plan has
settled. The dispatcher's answers are inputs.
-/

namespace OriRuntime

open List Option

/-- What one dispatch came to: a result, or an exception raised before or after the act. -/
inductive DispatchAnswer where
  | returned (result : ActionResult)
  | raised (acted : Bool)

/-- What a result says its action reached. -/
def reachedBy (result : ActionResult) : DispatchOutcome :=
  if "refused_".toList.isPrefixOf result.actionTaken.toList then .fullyRefused
  else if result.actionTaken = "coalesced" then .joinedAttempt
  else if result.approved ≠ none then .proposalOpened
  else .attempted

def DispatchAnswer.reached : DispatchAnswer → DispatchOutcome
  | .returned result => reachedBy result
  | .raised true => .attempted
  | .raised false => .fullyRefused

/-- `planned_by_action`: the last planned action of a name. -/
def plannedFor : List PlannedAction → String → Option ℕ
  | [], _ => none
  | a :: planned, name =>
    match plannedFor planned name with
    | some j => some (j + 1)
    | none => if a.action = name then some 0 else none

/-- A Tier D grant was attempted before any reasoning; a refused action is not dispatched. -/
def skipped (planned : List PlannedAction) (action : String) : Bool :=
  match plannedFor planned action with
  | none => false
  | some j => planned[j]?.any (fun a => a.tierDGranted || !a.admitted)

namespace TriggerPlan

end TriggerPlan

/-- A plan as it is charged, and the dispatches its remainder made. -/
structure Turn where
  plan : TriggerPlan
  dispatches : List (String × DispatchAnswer)

/-- A plan as its charge reads it: what its task left unresolved counts as attempted. -/
def Turn.charged (t : Turn) : TriggerPlan :=
  if t.plan.scheduled then t.plan.settlePending else t.plan

section Planned

variable {planned planned' : List PlannedAction} {name : String} {i j : ℕ} {a b : PlannedAction}

variable {result : ActionResult} {β : Type}

variable {actions : List String} {answers : List DispatchAnswer} {r : DispatchAnswer}

end Planned

/-! ### What is charged -/

/-- A plan about to be scheduled: its actions are the declared ones, and nothing below Tier D was
dispatched. -/
structure TriggerPlan.Ready (declared : List String) (p : TriggerPlan) : Prop where
  names : p.actions.map (·.action) = declared
  alike : ∀ a ∈ p.actions, ∀ b ∈ p.actions, a.action = b.action → a.tierDGranted = b.tierDGranted
  pending : ∀ a ∈ p.actions, a.tierDGranted = false → a.outcome = .pending
  unscheduled : p.scheduled = false

section Ready

variable {declared : List String} {p : TriggerPlan}

variable {path : ReasoningPath}

end Ready

/-- `_charge_settled_plan` and `_charge_cooldowns`: a charge sets the time its trigger last fired. -/
def Turn.charge (now : ℕ) (fired : Dict (String × String) ℕ) (t : Turn) :
    Dict (String × String) ℕ :=
  recordFire now fired t.charged

end OriRuntime
