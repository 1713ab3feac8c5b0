import OriRuntime.RuleEvaluation

/-!
# Evaluating the rules of an event

`RuleEngine.evaluate_all`. A rule's fields are as `_rule_get` reads them; its cooldown is nothing
where `int` fails on it. The clock does not move during one call.
-/

namespace OriRuntime

structure Rule where
  name : Text := text "<unnamed>"
  condition : Text := []
  bypassLlm : Bool := false
  actionTier : Text := text "A"
  escalateTo : Option Text := none
  reasoningPolicy : Option Text := none
  requiresApproval : Bool := false
  action : Option Text := none
  cooldownSeconds : Option ℤ := some 0
  deriving DecidableEq

structure RuleResult where
  actionTier : Text
  ruleName : Text
  escalateTo : Option Text
  bypassLlm : Bool
  reasoningPolicy : Option Text
  requiresApproval : Bool
  action : Option Text
  deriving DecidableEq

/-- `tier.upper() == "D"`. -/
def isTierDTier (tier : Text) : Bool := decide (tier = text "D" ∨ tier = text "d")

def Rule.tierD (rule : Rule) : Bool := isTierDTier rule.actionTier

def RuleResult.tierD (m : RuleResult) : Bool := isTierDTier m.actionTier

inductive RuleSelection where
  | all
  | tierD
  | other
  deriving DecidableEq

def RuleSelection.selects (select : RuleSelection) (rule : Rule) : Bool :=
  match select with
  | .all => true
  | .tierD => rule.tierD
  | .other => !rule.tierD

inductive EngineError where
  | safety (error : SafetyError)
  /-- `math.isnan` of an int no float can hold. -/
  | overflow
  /-- `int` of a cooldown. -/
  | cooldown
  deriving DecidableEq

/-- The history reads of one event, each an answer or a failure. -/
structure EventHistory (U : Type*) where
  avgLastHours : Text → Except Unit (Option U)
  getHistory : Text → ℤ → Except Unit (List U)

structure EngineState where
  cooldowns : Dict Text ℤ
  nowMs : ℤ

/-- The arguments besides the rules. -/
structure RuleQuery (U : Type*) where
  reading : Option (EventReading U)
  context : Dict Text U
  store : Option (EventHistory U)
  scope : Text := []
  select : RuleSelection := .all

namespace RuleEngine

variable {U : Type*} (parse : Text → Except ParseFailure Ast) (o : Objects U)

/-- The ints from here on convert to no float. -/
def overflowBound : ℚ := 2 ^ 1024 - 2 ^ 970

def validateSensorValue (value : U) : Except EngineError Unit :=
  match o.number? value with
  | none => .error (.safety .notNumeric)
  | some .nan => .error (.safety .notANumber)
  | some .posInf | some .negInf => .error (.safety .infinite)
  | some (.finite q) => if overflowBound ≤ |q| then .error .overflow else .ok ()

def validateReading (reading : Option (EventReading U)) : Except EngineError Unit :=
  match reading with
  | none => .ok ()
  | some r => validateSensorValue o r.value

def checkRule (rule : Rule) : Except EngineError (Rule × List HistoryKey) :=
  if rule.condition = [] then .ok (rule, [])
  else
    match validatedHistoryCalls parse rule.condition with
    | .ok calls => .ok (rule, calls)
    | .error error => .error (.safety error)

/-- What the store answers a call with; a failure counts as no history. -/
def fetch (store : EventHistory U) : HistoryKey → U
  | .avg24h sensorId =>
    match store.avgLastHours sensorId with
    | .ok (some value) => value
    | _ => o.constant (.float (.finite 0))
  | .lastN sensorId n =>
    match store.getHistory sensorId n with
    | .ok values => o.ofList values
    | .error _ => o.ofList []

def prefetchCall (store : EventHistory U) (cache : Dict HistoryKey U) (key : HistoryKey) :
    Dict HistoryKey U :=
  match cache.get? key with
  | some _ => cache
  | none => cache.set key (fetch o store key)

/-- Nothing is read for a Tier D rule. -/
def prefetchRule (store : EventHistory U) (cache : Dict HistoryKey U)
    (rule : Rule × List HistoryKey) : Dict HistoryKey U :=
  if rule.1.tierD then cache else rule.2.foldl (prefetchCall o store) cache

def prefetch (store : Option (EventHistory U)) (rules : List (Rule × List HistoryKey)) :
    Dict HistoryKey U :=
  match store with
  | none => Dict.empty
  | some store => rules.foldl (prefetchRule o store) Dict.empty

def cooldownKey (ruleName scope : Text) : Text :=
  if scope = [] then ruleName else scope ++ 0x1f :: ruleName

def inCooldown (s : EngineState) (ruleName : Text) (cooldownSeconds : ℤ) (scope : Text) : Bool :=
  if cooldownSeconds ≤ 0 then false
  else
    match s.cooldowns.get? (cooldownKey ruleName scope) with
    | none => false
    | some lastFiredMs => decide (s.nowMs - lastFiredMs < cooldownSeconds * 1000)

def suppressedByCooldown (s : EngineState) (ruleName actionTier : Text) (cooldownSeconds : ℤ)
    (scope : Text) : Bool :=
  if isTierDTier actionTier then false else inCooldown s ruleName cooldownSeconds scope

def namesHistory (condition : Text) : Bool :=
  match parse condition with
  | .ok t => t.walk.any Ast.isHistory
  | .error _ => false

/-- A condition that raises does not hold. -/
def conditionHolds (c : EvalContext U) (condition : Text) : Bool :=
  match parse condition with
  | .ok t => decide ((evalCheckedCondition o c t).result = .ok true)
  | .error _ => false

def ruleResult (rule : Rule) : RuleResult where
  actionTier := rule.actionTier
  ruleName := rule.name
  escalateTo := rule.escalateTo
  bypassLlm := rule.bypassLlm
  reasoningPolicy := rule.reasoningPolicy
  requiresApproval := rule.requiresApproval
  action := rule.action

def evaluateRule (s : EngineState) (c : EvalContext U) (scope : Text) (rule : Rule) :
    Except EngineError (Option RuleResult) :=
  match rule.cooldownSeconds with
  | none => .error .cooldown
  | some cooldownSeconds =>
    if rule.condition = [] then .ok none
    else if rule.tierD ∧ namesHistory parse rule.condition then .ok none
    else if conditionHolds parse o c rule.condition = false then .ok none
    else if suppressedByCooldown s rule.name rule.actionTier cooldownSeconds scope then .ok none
    else .ok (some (ruleResult rule))

def evaluateAll (s : EngineState) (q : RuleQuery U) (rules : List Rule) :
    Except EngineError (List RuleResult) := do
  validateReading o q.reading
  let checked ← rules.mapM (checkRule parse)
  let selected := checked.filter (fun rule => q.select.selects rule.1)
  let c : EvalContext U := ⟨baseContext q.reading q.context, prefetch o q.store selected⟩
  let results ← selected.mapM (fun rule => evaluateRule parse o s c q.scope rule.1)
  return results.filterMap id

end RuleEngine

end OriRuntime
