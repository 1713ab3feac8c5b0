import OriRuntime.RuleEngine

/-!
# Remote thresholds

`SET_THRESHOLD` of `runtime/_remote_commands.py` with the Tier D checks of
`security/threshold_guard.py`, on a skill the loader has accepted. The readings are the latest ones
the store gives for the skill's sensors when the command is executed.
-/

namespace OriRuntime

open List

namespace Dict

variable {κ ν : Type*}

def mapValues {μ : Type*} (f : ν → μ) (d : Dict κ ν) : Dict κ μ where
  items := d.items.map (fun p => (p.1, f p.2))
  nodup := by
    rw [List.map_map]
    exact d.nodup

variable [DecidableEq κ]

def update (d e : Dict κ ν) : Dict κ ν := e.items.foldl (fun d p => d.set p.1 p.2) d

theorem get?_mapValues {μ : Type*} (f : ν → μ) (d : Dict κ ν) (k : κ) :
    (d.mapValues f).get? k = (d.get? k).map f := by
  simp only [get?, mapValues, List.find?_map, Option.map_map]
  rfl

theorem get?_foldl_set (items : List (κ × ν)) (hn : (items.map Prod.fst).Nodup) (d : Dict κ ν)
    (k : κ) : (items.foldl (fun d p => d.set p.1 p.2) d).get? k =
      (((items.find? (fun p => decide (p.1 = k))).map Prod.snd).or (d.get? k)) := by
  induction items generalizing d with
  | nil => rfl
  | cons p items ih =>
    rw [map_cons, nodup_cons] at hn
    rw [foldl_cons, ih hn.2, List.find?_cons, get?_set]
    by_cases hk : p.1 = k
    · subst hk
      have ho : items.find? (fun q => decide (q.1 = p.1)) = none := by
        rw [List.find?_eq_none]
        intro q hq hd
        exact hn.1 (mem_map.mpr ⟨q, hq, of_decide_eq_true hd⟩)
      rw [ho, if_pos rfl, decide_eq_true rfl]
      rfl
    · rw [if_neg (Ne.symm hk), decide_eq_false hk]

theorem get?_update (d e : Dict κ ν) (k : κ) : (d.update e).get? k = (e.get? k).or (d.get? k) :=
  get?_foldl_set e.items e.nodup d k

end Dict

/-! ### Configurations -/

/-- A configured value: a number, or an object of another kind. -/
inductive ConfigValue (U : Type*) where
  | int (n : ℤ)
  | float (f : PyFloat)
  | bool (b : Bool)
  | other (u : U)
  deriving DecidableEq

/-- The nearest double to an int, ties to the even one; none where it overflows. -/
def doubleOfInt (n : ℤ) : Option ℚ :=
  if RuleEngine.overflowBound ≤ |(n : ℚ)| then none
  else
    let unit := 2 ^ (n.natAbs.size - 53)
    let quotient := n.natAbs / unit
    let remainder := n.natAbs % unit
    let up := unit < 2 * remainder ∨ unit = 2 * remainder ∧ quotient % 2 = 1
    some (n.sign * ((if up then quotient + 1 else quotient) * unit : ℕ))

inductive FloatError where
  /-- `TypeError` or `ValueError`. -/
  | refused
  | overflow
  deriving DecidableEq

section

variable {U : Type*} (parse : Text → Except ParseFailure Ast) (o : Objects U)

namespace ConfigValue

def object : ConfigValue U → U
  | .int n => o.constant (.int n)
  | .float f => o.constant (.float f)
  | .bool b => o.constant (.bool b)
  | .other u => u

def toFloat : ConfigValue U → Except FloatError PyFloat
  | .int n =>
    match doubleOfInt n with
    | some q => .ok (.finite q)
    | none => .error .overflow
  | .float f => .ok f
  | .bool b => .ok (.finite (if b then 1 else 0))
  | .other u =>
    match o.float u with
    | .ok f => (o.number? f).elim (.error .refused) .ok
    | .error _ => .error .refused

/-- `isinstance(value, (int, float))`. -/
def isNumber : ConfigValue U → Bool
  | .int _ | .float _ | .bool _ => true
  | .other _ => false

def isBool : ConfigValue U → Bool
  | .bool _ => true
  | .int _ | .float _ | .other _ => false

end ConfigValue

structure Trigger where
  name : Text
  actionTier : Text
  condition : Text

def Trigger.tierD (t : Trigger) : Bool := decide (t.actionTier = text "D")

abbrev SkillConfig (U : Type*) := Dict Text (ConfigValue U)

/-- `{node.id for node in ast.walk(tree) if isinstance(node, ast.Name)}`. -/
def Ast.names (t : Ast) : List Text :=
  t.walk.filterMap fun
    | .name id _ => some id
    | _ => none

/-- What the loader asks of a configured value a Tier D condition names. -/
def tierDInput (value : ConfigValue U) : Bool :=
  !value.isBool && value.isNumber && match value.toFloat o with
    | .ok f => f.isFinite
    | .error _ => false

def tierDConditionLoads (config : SkillConfig U) (condition : Text) : Bool :=
  !isBlank condition && match parse condition, validatedHistoryCalls parse condition with
  | .ok t, .ok _ =>
    t.names.all fun id => decide (id ≠ historyName) &&
      match config.get? id with
      | some value => tierDInput o value
      | none => decide (id ∈ reservedContextNames)
  | _, _ => false

/-- What the loader asks of the condition of any other trigger. -/
def conditionLoads (condition : Text) : Bool :=
  decide (condition = []) ||
    match parse condition, validatedHistoryCalls parse condition with
    | .ok _, .ok _ => true
    | _, _ => false

/-- A skill the loader has accepted, with its configuration at startup. -/
structure LoadedSkill where
  name : Text
  triggers : List Trigger
  startup : SkillConfig U
  unreserved : ∀ id ∈ reservedContextNames, startup.get? id = none
  loads : ∀ t ∈ triggers, t.tierD = true → tierDConditionLoads parse o startup t.condition = true
  others : ∀ t ∈ triggers, t.tierD = false → conditionLoads parse t.condition = true

/-! ### The guard -/

/-- `extract_trigger_refs`; any failure but a `SyntaxError` is raised. -/
def extractTriggerRefs (condition : Text) : Except ParseFailure (List Text) :=
  match parse condition with
  | .ok t => .ok t.names
  | .error .syntaxError => .ok []
  | .error .other => .error .other

def refsOfAll (triggers : List Trigger) : Except ParseFailure (List Text) :=
  (triggers.mapM (fun t => extractTriggerRefs parse t.condition)).map List.flatten

inductive Bound where
  | upper
  | lower
  deriving DecidableEq

def Ast.isNamed (key : Text) : Ast → Bool
  | .name id _ => decide (id = key)
  | _ => false

/-- `_compare_direction_for_key` of any node. -/
def compareDirectionForKey (key : Text) : Ast → Option Bound
  | .compare left [op] [right] =>
    if left.isNamed key = right.isNamed key then none
    else if right.isNamed key then
      match op with
      | .gt | .gtE => some .upper
      | .lt | .ltE => some .lower
      | _ => none
    else
      match op with
      | .lt | .ltE => some .upper
      | .gt | .gtE => some .lower
      | _ => none
  | _ => none

/-- The directions of one Tier D condition, none where it does not name the key. -/
def conditionDirections (key condition : Text) : Except ParseFailure (List Bound) :=
  match parse condition with
  | .ok t => .ok (if key ∈ t.names then t.walk.filterMap (compareDirectionForKey key) else [])
  | .error .syntaxError => .ok []
  | .error .other => .error .other

def tierDThresholdDirections (triggers : List Trigger) (key : Text) :
    Except ParseFailure (List Bound) :=
  ((triggers.filter Trigger.tierD).mapM
    (fun t => conditionDirections parse key t.condition)).map List.flatten

/-- What a check or a command ends in: an exception, a refusal, or what it allows. -/
inductive GuardOutcome where
  | raised
  | refused
  | passed
  deriving DecidableEq

/-- `check_tier_d_startup_sensitivity` of a finite new value. -/
def checkTierDStartupSensitivity (triggers : List Trigger) (key : Text) (newValue : ℚ)
    (startupValue : Option (ConfigValue U)) : GuardOutcome :=
  match startupValue with
  | none => .refused
  | some startupValue =>
    match startupValue.toFloat o with
    | .error .refused => .refused
    | .error .overflow => .raised
    | .ok (.finite sv) =>
      match tierDThresholdDirections parse triggers key with
      | .error _ => .raised
      | .ok directions =>
        if .upper ∈ directions ∧ .lower ∉ directions then
          if sv < newValue then .refused else .passed
        else if .lower ∈ directions ∧ .upper ∉ directions then
          if newValue < sv then .refused else .passed
        else if newValue ≠ sv then .refused else .passed
    | .ok _ => .refused

/-- `evaluate_condition_safely` without a history cache; none where it raises. -/
def evaluateConditionSafely (condition : Text) (context : Dict Text U) : Option Bool :=
  match parse condition with
  | .error _ => none
  | .ok t =>
    match checkSafetyAst t with
    | .error _ => none
    | .ok () => (evalCheckedCondition o ⟨context, Dict.empty⟩ t).result.toOption

/-- The namespace the guard evaluates a condition in. -/
def guardContext (reading : EventReading U) (config : SkillConfig U) : Dict Text U :=
  (((Dict.empty.set (text "value") reading.value).set (text "sensor_id") reading.sensorId).set
    (text "sensor_type") reading.sensorType).update (config.mapValues (ConfigValue.object o))

/-- Whether the change turns an active condition off; what cannot be evaluated was active. -/
def suppresses (oldConfig newConfig : SkillConfig U) (condition : Text)
    (reading : EventReading U) : Bool :=
  (evaluateConditionSafely parse o condition (guardContext o reading oldConfig)).getD true &&
    !(evaluateConditionSafely parse o condition (guardContext o reading newConfig)).getD false

def checkTierDConditionSuppression (triggers : List Trigger) (oldConfig newConfig : SkillConfig U)
    (recentReadings : List (EventReading U)) : Bool :=
  (triggers.filter Trigger.tierD).all fun t =>
    decide (t.condition = []) ||
      recentReadings.all fun reading => !suppresses parse o oldConfig newConfig t.condition reading

/-! ### The command -/

/-- `float(raw_value)` of the argument. -/
inductive RawValue where
  | absent
  | notANumber
  | overflow
  | number (f : PyFloat)
  deriving DecidableEq

/-- A command with what the runtime finds when it executes it. -/
structure SetThreshold (U : Type*) where
  skillName : Text
  thresholdKey : Text
  value : RawValue
  dryRun : Bool
  /-- Readings evaluated and not stored yet. -/
  pending : Bool
  /-- The latest stored readings of the skill's sensors; none without a store. -/
  readings : Option (List (EventReading U))

inductive ThresholdStatus where
  | raised
  | preconditionFailed
  | dryRun
  | executed
  deriving DecidableEq

variable {parse o}

namespace LoadedSkill

/-- Whether a Tier D condition of the skill names a configured key. -/
def tierDRefs (skill : LoadedSkill parse o) : Except ParseFailure (List Text) :=
  refsOfAll parse (skill.triggers.filter Trigger.tierD)

/-- The Tier D checks of `_execute_set_threshold`. -/
def checkTierD (skill : LoadedSkill parse o) (config : SkillConfig U) (cmd : SetThreshold U)
    (newValue : ℚ) : GuardOutcome :=
  if cmd.pending then .refused
  else
    match cmd.readings with
    | none => .refused
    | some readings =>
      match checkTierDStartupSensitivity parse o skill.triggers cmd.thresholdKey newValue
          (skill.startup.get? cmd.thresholdKey) with
      | .raised => .raised
      | .refused => .refused
      | .passed =>
        if checkTierDConditionSuppression parse o skill.triggers config
            (config.set cmd.thresholdKey (.float (.finite newValue))) readings then .passed
        else .refused

/-- `_execute_set_threshold` from the loaded skill on, with a positive finite value. -/
def changeThreshold (skill : LoadedSkill parse o) (config : SkillConfig U) (cmd : SetThreshold U)
    (newValue : ℚ) : ThresholdStatus × SkillConfig U :=
  match config.get? cmd.thresholdKey with
  | none => (.preconditionFailed, config)
  | some oldValue =>
    if oldValue.isNumber = false then (.preconditionFailed, config)
    else
      match oldValue.toFloat o with
      | .error _ => (.raised, config)
      | .ok f =>
        if f.isFinite = false then (.preconditionFailed, config)
        else
          match refsOfAll parse skill.triggers, skill.tierDRefs with
          | .ok refs, .ok tierDRefs =>
            if cmd.thresholdKey ∉ refs then (.preconditionFailed, config)
            else
              match (if cmd.thresholdKey ∈ tierDRefs then skill.checkTierD config cmd newValue
                else .passed) with
              | .raised => (.raised, config)
              | .refused => (.preconditionFailed, config)
              | .passed =>
                if cmd.dryRun then (.dryRun, config)
                else (.executed, config.set cmd.thresholdKey (.float (.finite newValue)))
          | _, _ => (.raised, config)

/-- `_execute_set_threshold`, with the configuration it leaves. -/
def executeSetThreshold (skill : LoadedSkill parse o) (config : SkillConfig U)
    (cmd : SetThreshold U) : ThresholdStatus × SkillConfig U :=
  if cmd.skillName = [] ∨ cmd.thresholdKey = [] then (.preconditionFailed, config)
  else
    match cmd.value with
    | .absent => (.preconditionFailed, config)
    | .notANumber => (.preconditionFailed, config)
    | .overflow => (.raised, config)
    | .number (.finite newValue) =>
      if newValue ≤ 0 then (.preconditionFailed, config)
      else if cmd.skillName ≠ skill.name then (.preconditionFailed, config)
      else skill.changeThreshold config cmd newValue
    | .number _ => (.preconditionFailed, config)

def runCommands (skill : LoadedSkill parse o) (cmds : List (SetThreshold U)) : SkillConfig U :=
  cmds.foldl (fun config cmd => (skill.executeSetThreshold config cmd).2) skill.startup

end LoadedSkill

/-- What a condition is evaluated in: the configuration, what a hook derived, and the reading. -/
def conditionContext (o : Objects U) (reading : EventReading U) (config : SkillConfig U)
    (derived : Dict Text U) (cache : Dict HistoryKey U) : EvalContext U :=
  ⟨baseContext (some reading) ((config.mapValues (ConfigValue.object o)).update derived), cache⟩

end

end OriRuntime
