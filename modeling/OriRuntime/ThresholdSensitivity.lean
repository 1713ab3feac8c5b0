import OriRuntime.ThresholdForms
import OriRuntime.TierDRules

/-!
# Remote thresholds and Tier D

What a sequence of `SET_THRESHOLD` commands leaves of the Tier D conditions of a skill. The guard
reads the direction of a key off every comparison, whatever stands around it; where each condition
places the key as it is read, no condition gets less sensitive.
-/

namespace OriRuntime

open List

open Ast

section

variable {U : Type*} {parse : Text → Except ParseFailure Ast} {o : Objects U}

/-! ### The loader's guarantees -/

namespace LoadedSkill

/-- The Tier D conditions of the skill, parsed. -/
def Protects (skill : LoadedSkill parse o) (t : Ast) : Prop :=
  ∃ trigger ∈ skill.triggers, trigger.tierD = true ∧ parse trigger.condition = .ok t

variable {skill : LoadedSkill parse o}

theorem protects_loads {t : Ast} (h : skill.Protects t) :
    Checked t ∧ historyName ∉ t.names ∧ ∀ id ∈ t.names,
      (∃ v, skill.startup.get? id = some v ∧ tierDInput o v = true) ∨
        skill.startup.get? id = none ∧ id ∈ reservedContextNames := by
  obtain ⟨trigger, ht, htier, hp⟩ := h
  have hl := skill.loads trigger ht htier
  unfold tierDConditionLoads at hl
  rw [hp, Bool.and_eq_true] at hl
  obtain ⟨-, hl⟩ := hl
  cases hvali : validatedHistoryCalls parse trigger.condition with
  | error error =>
    rw [hvali] at hl
    cases hl
  | ok calls =>
    rw [hvali] at hl
    have ha := all_eq_true.mp hl
    simp only [Bool.and_eq_true, decide_eq_true_eq] at ha
    refine ⟨checked_of_validated hp hvali, fun hn => (ha _ hn).1 rfl, fun id hi => ?_⟩
    have hv := (ha id hi).2
    cases hg : skill.startup.get? id with
    | none =>
      rw [hg] at hv
      exact .inr ⟨rfl, of_decide_eq_true hv⟩
    | some v =>
      rw [hg] at hv
      exact .inl ⟨v, rfl, hv⟩

theorem parses {trigger : Trigger} (ht : trigger ∈ skill.triggers)
    (htier : trigger.tierD = true) : ∃ t, parse trigger.condition = .ok t := by
  have hl := skill.loads trigger ht htier
  unfold tierDConditionLoads at hl
  cases hp : parse trigger.condition with
  | error error =>
    rw [hp, Bool.and_eq_true] at hl
    cases hl.2
  | ok t => exact ⟨t, rfl⟩

end LoadedSkill

/-! ### Contexts -/

theorem get?_baseContext (reading : EventReading U) (context : Dict Text U) (id : Text) :
    (baseContext (some reading) context).get? id =
      if id ∈ reservedContextNames then (baseContext (some reading) Dict.empty).get? id
      else context.get? id := by
  simp only [baseContext, Dict.get?_set, reservedContextNames, mem_cons, not_mem_nil,
    or_false, Dict.get?_empty]
  split_ifs <;> simp_all

theorem asDict_conditionContext (reading : EventReading U) (config : SkillConfig U)
    (derived : Dict Text U) (cache : Dict HistoryKey U) (id : Text) :
    (conditionContext o reading config derived cache).asDict id =
      if id = historyName then some .history
      else if id ∈ reservedContextNames then
        ((baseContext (some reading) Dict.empty).get? id).map .object
      else ((derived.get? id).or ((config.get? id).map (ConfigValue.object o))).map .object := by
  unfold conditionContext EvalContext.asDict
  rw [get?_baseContext, Dict.get?_update, Dict.get?_mapValues]
  split_ifs <;> rfl

/-! ### The directions of a key -/

variable {α β ε : Type} {ts : List α} {f : α → Except ε (List β)} {m : Ast}

theorem mem_flatten_mapM {xs : List β} (h : (ts.mapM f).map List.flatten = .ok xs) (x : β) :
    x ∈ xs ↔ ∃ t ∈ ts, ∃ ys, f t = .ok ys ∧ x ∈ ys := by
  induction ts generalizing xs with
  | nil =>
    cases h
    simp
  | cons t ts ih =>
    rw [mapM_cons] at h
    cases ht : f t with
    | error e =>
      rw [ht] at h
      cases h
    | ok ys =>
      cases hr : ts.mapM f with
      | error e =>
        rw [ht, hr] at h
        cases h
      | ok zss =>
        rw [ht, hr] at h
        cases h
        have hi := @ih zss.flatten (by rw [hr]; rfl)
        rw [flatten_cons, mem_append, hi]
        constructor
        · rintro (hx | ⟨u, hu, zs, hz, hx⟩)
          · exact ⟨t, mem_cons_self, ys, ht, hx⟩
          · exact ⟨u, mem_cons_of_mem _ hu, zs, hz, hx⟩
        · rintro ⟨u, hu, zs, hz, hx⟩
          rcases mem_cons.mp hu with rfl | hu
          · cases ht.symm.trans hz
            exact .inl hx
          · exact .inr ⟨u, hu, zs, hz, hx⟩

theorem flatten_mapM_ok (h : ∀ t ∈ ts, ∃ ys, f t = .ok ys) :
    ∃ xs, (ts.mapM f).map List.flatten = .ok xs := by
  induction ts with
  | nil => exact ⟨[], rfl⟩
  | cons t ts ih =>
    obtain ⟨ys, hy⟩ := h t mem_cons_self
    obtain ⟨xs, hx⟩ := ih fun u hu => h u (mem_cons_of_mem _ hu)
    rw [mapM_cons, hy]
    cases hr : ts.mapM f with
    | error e =>
      rw [hr] at hx
      cases hx
    | ok zss => exact ⟨_, rfl⟩

theorem names_within {t : Ast} (h : Within m t) {id : Text} (hi : id ∈ m.names) : id ∈ t.names := by
  induction h with
  | self => exact hi
  | child hu _ ih => exact names_child hu ih

theorem mem_names_of_direction {key : Text} {b : Bound} (h : compareDirectionForKey key m = some b) :
    key ∈ m.names := by
  obtain ⟨left, op, right, rfl⟩ : ∃ left op right, m = .compare left [op] [right] := by
    unfold compareDirectionForKey at h
    split at h
    · exact ⟨_, _, _, rfl⟩
    · cases h
  rcases (bounds_of_named (by rw [h]; rfl)).2.1 with hn | hn
  · obtain ⟨ctx, rfl⟩ := isNamed_iff.mp hn
    exact names_child mem_cons_self (mem_names_self key ctx)
  · obtain ⟨ctx, rfl⟩ := isNamed_iff.mp hn
    exact names_child (by simp [children]) (mem_names_self key ctx)

namespace LoadedSkill

variable {skill : LoadedSkill parse o}

theorem mem_tierDRefs {refs : List Text} (h : skill.tierDRefs = .ok refs) (key : Text) :
    key ∈ refs ↔ ∃ t, skill.Protects t ∧ key ∈ t.names := by
  rw [mem_flatten_mapM h]
  constructor
  · rintro ⟨trigger, ht, ids, hi, hk⟩
    obtain ⟨hn, htier⟩ := mem_filter.mp ht
    obtain ⟨t, hp⟩ := parses hn htier
    rw [extractTriggerRefs, hp] at hi
    cases hi
    exact ⟨t, ⟨trigger, hn, htier, hp⟩, hk⟩
  · rintro ⟨t, ⟨trigger, hn, htier, hp⟩, hk⟩
    exact ⟨trigger, mem_filter.mpr ⟨hn, htier⟩, t.names, by rw [extractTriggerRefs, hp], hk⟩

/-- The directions the guard reads off the skill for a key. -/
def directions (skill : LoadedSkill parse o) (key : Text) : List Bound :=
  match tierDThresholdDirections parse skill.triggers key with
  | .ok bounds => bounds
  | .error _ => []

theorem mem_directions {key : Text} {t m : Ast} (ht : skill.Protects t) (hm : Within m t)
    {b : Bound} (hb : compareDirectionForKey key m = some b) : b ∈ skill.directions key := by
  have hrd : ∀ trigger ∈ skill.triggers.filter Trigger.tierD,
      ∃ bounds, conditionDirections parse key trigger.condition = .ok bounds := by
    intro trigger hr
    obtain ⟨hi, htier⟩ := mem_filter.mp hr
    obtain ⟨u, hp⟩ := parses hi htier
    exact ⟨_, by rw [conditionDirections, hp]⟩
  obtain ⟨bounds, ho⟩ := flatten_mapM_ok hrd
  obtain ⟨trigger, hi, htier, hp⟩ := ht
  have hk : key ∈ t.names := names_within hm (mem_names_of_direction hb)
  have hd : conditionDirections parse key trigger.condition =
      .ok (t.walk.filterMap (compareDirectionForKey key)) := by
    rw [conditionDirections, hp]
    dsimp only
    rw [if_pos hk]
  unfold directions tierDThresholdDirections
  rw [ho]
  exact (mem_flatten_mapM ho b).mpr ⟨trigger, mem_filter.mpr ⟨hi, htier⟩, _,
    hd, mem_filterMap.mpr ⟨m, mem_walk.mpr hm, hb⟩⟩

end LoadedSkill

/-! ### What a command changes -/

namespace LoadedSkill

variable {skill : LoadedSkill parse o} {config : SkillConfig U} {cmd : SetThreshold U}

/-- What an executed command was checked for. -/
structure Applied (skill : LoadedSkill parse o) (config : SkillConfig U) (cmd : SetThreshold U)
    (q : ℚ) : Prop where
  value : cmd.value = .number (.finite q)
  numeric : ∃ v, config.get? cmd.thresholdKey = some v ∧ v.isNumber = true
  wanted : cmd.dryRun = false
  sensitive : ∀ t, skill.Protects t → cmd.thresholdKey ∈ t.names →
    checkTierDStartupSensitivity parse o skill.triggers cmd.thresholdKey q
      (skill.startup.get? cmd.thresholdKey) = .passed
  active : ∀ t readings, skill.Protects t → cmd.thresholdKey ∈ t.names →
    cmd.readings = some readings → checkTierDConditionSuppression parse o skill.triggers config
      (config.set cmd.thresholdKey (.float (.finite q))) readings = true

variable {q : ℚ} {t : Ast} {trigger : Trigger} {cmds : List (SetThreshold U)}

theorem checkTierD_passed (h : skill.checkTierD config cmd q = .passed) :
    checkTierDStartupSensitivity parse o skill.triggers cmd.thresholdKey q
      (skill.startup.get? cmd.thresholdKey) = .passed ∧
    ∀ readings, cmd.readings = some readings →
      checkTierDConditionSuppression parse o skill.triggers config
        (config.set cmd.thresholdKey (.float (.finite q))) readings = true := by
  unfold checkTierD at h
  split_ifs at h with hp
  cases hr : cmd.readings with
  | none =>
    rw [hr] at h
    cases h
  | some readings =>
    rw [hr] at h
    dsimp only at h
    cases hs : checkTierDStartupSensitivity parse o skill.triggers cmd.thresholdKey q
        (skill.startup.get? cmd.thresholdKey) with
    | raised | refused =>
      rw [hs] at h
      cases h
    | passed =>
      rw [hs] at h
      refine ⟨rfl, ?_⟩
      rintro _ ⟨⟩
      by_contra hn
      rw [if_neg hn] at h
      cases h

theorem change_cases (skill : LoadedSkill parse o) (config : SkillConfig U) (cmd : SetThreshold U)
    (q : ℚ) (hv : cmd.value = .number (.finite q)) :
    ((skill.changeThreshold config cmd q).1 ≠ .executed ∧
      (skill.changeThreshold config cmd q).2 = config) ∨
    skill.changeThreshold config cmd q =
      (.executed, config.set cmd.thresholdKey (.float (.finite q))) ∧
        Applied skill config cmd q := by
  unfold changeThreshold
  cases hg : config.get? cmd.thresholdKey with
  | none => exact .inl ⟨by simp, rfl⟩
  | some v =>
  dsimp only
  split <;> rename_i hn
  · exact .inl ⟨by simp, rfl⟩
  cases hl : v.toFloat o with
  | error e => exact .inl ⟨by simp, rfl⟩
  | ok f =>
  dsimp only
  split <;> rename_i hf
  · exact .inl ⟨by simp, rfl⟩
  cases hrefs : refsOfAll parse skill.triggers with
  | error e => exact .inl ⟨by simp, rfl⟩
  | ok refs =>
  cases htier : skill.tierDRefs with
  | error e => exact .inl ⟨by simp, rfl⟩
  | ok tierDRefs =>
  dsimp only
  split <;> rename_i hi
  · exact .inl ⟨by simp, rfl⟩
  cases hc : (if cmd.thresholdKey ∈ tierDRefs then skill.checkTierD config cmd q
    else .passed) with
  | raised | refused => exact .inl ⟨by simp, rfl⟩
  | passed =>
  split_ifs with hd
  · exact .inl ⟨by simp, rfl⟩
  have hchec : ∀ t, skill.Protects t → cmd.thresholdKey ∈ t.names →
      skill.checkTierD config cmd q = .passed := by
    intro t ht hk
    rwa [if_pos ((mem_tierDRefs htier _).mpr ⟨t, ht, hk⟩)] at hc
  exact .inr ⟨rfl, hv, ⟨v, hg, Bool.eq_true_of_not_eq_false hn⟩,
    Bool.eq_false_iff.mpr hd, fun t ht hk => (checkTierD_passed (hchec t ht hk)).1,
    fun t readings ht hk => (checkTierD_passed (hchec t ht hk)).2 readings⟩

theorem execute_cases (skill : LoadedSkill parse o) (config : SkillConfig U)
    (cmd : SetThreshold U) :
    ((skill.executeSetThreshold config cmd).1 ≠ .executed ∧
      (skill.executeSetThreshold config cmd).2 = config) ∨
    ∃ q, skill.executeSetThreshold config cmd =
      (.executed, config.set cmd.thresholdKey (.float (.finite q))) ∧
        Applied skill config cmd q := by
  unfold executeSetThreshold
  split <;> rename_i hb
  · exact .inl ⟨nofun, rfl⟩
  cases hv : cmd.value with
  | absent | notANumber | overflow => exact .inl ⟨nofun, rfl⟩
  | number f =>
  cases f with
  | posInf | negInf | nan => exact .inl ⟨nofun, rfl⟩
  | finite q =>
  dsimp only
  split <;> rename_i hp
  · exact .inl ⟨nofun, rfl⟩
  split_ifs with hn
  · exact .inl ⟨nofun, rfl⟩
  rcases skill.change_cases config cmd q hv with hstay | hc
  · exact .inl hstay
  · exact .inr ⟨q, hc⟩

/-! ### The configuration of a run -/

/-- A configuration with some of the numbers replaced by other numbers. -/
def Retuned (skill : LoadedSkill parse o) (config : SkillConfig U) (key : Text) : Prop :=
  config.get? key = skill.startup.get? key ∨ ∃ v q, skill.startup.get? key = some v ∧
    v.isNumber = true ∧ config.get? key = some (.float (.finite q))

theorem retuned_execute (h : ∀ key, skill.Retuned config key) (cmd : SetThreshold U) (key : Text) :
    skill.Retuned (skill.executeSetThreshold config cmd).2 key := by
  rcases skill.execute_cases config cmd with ⟨-, hstay⟩ | ⟨q, hc, ha⟩
  · rw [hstay]
    exact h key
  rw [hc]
  by_cases hk : key = cmd.thresholdKey
  · subst hk
    obtain ⟨v, hv, hn⟩ := ha.numeric
    refine .inr ?_
    rcases h cmd.thresholdKey with hs | ⟨w, r, hw, hwn, -⟩
    · exact ⟨v, q, hs ▸ hv, hn, Dict.get?_set_self _ _ _⟩
    · exact ⟨w, q, hw, hwn, Dict.get?_set_self _ _ _⟩
  · unfold Retuned
    rw [Dict.get?_set_of_ne _ _ hk]
    exact h key

theorem runCommands_induction {P : SkillConfig U → Prop} (cmds : List (SetThreshold U))
    (hsr : P skill.startup)
    (ht : ∀ config, P config → ∀ cmd ∈ cmds, P (skill.executeSetThreshold config cmd).2) :
    P (skill.runCommands cmds) := by
  have hr : ∀ rest : List (SetThreshold U), rest ⊆ cmds → ∀ config, P config →
      P (rest.foldl (fun config cmd => (skill.executeSetThreshold config cmd).2) config) := by
    intro rest
    induction rest with
    | nil => exact fun _ _ h => h
    | cons cmd rest ih =>
      intro hs config h
      exact ih (fun c hc => hs (mem_cons_of_mem _ hc)) _ (ht config h cmd (hs mem_cons_self))
  exact hr cmds (List.Subset.refl _) _ hsr

theorem retuned_run (cmds : List (SetThreshold U)) (key : Text) :
    skill.Retuned (skill.runCommands cmds) key :=
  runCommands_induction (P := fun config => ∀ key, skill.Retuned config key) cmds
    (fun _ => .inl rfl) (fun _ h cmd _ => retuned_execute h cmd) key

/-! ### Active conditions -/

theorem get?_guardContext (reading : EventReading U) (config : SkillConfig U) (id : Text) :
    (guardContext o reading config).get? id = ((config.get? id).map (ConfigValue.object o)).or
        (if id = text "sensor_type" then some reading.sensorType
          else if id = text "sensor_id" then some reading.sensorId
          else if id = text "value" then some reading.value else none) := by
  unfold guardContext
  rw [Dict.get?_update, Dict.get?_mapValues]
  simp only [Dict.get?_set, Dict.get?_empty]

theorem carries_guard (ht : skill.Protects t) {config : SkillConfig U}
    (hc : ∀ key, skill.Retuned config key) (reading : EventReading U)
    (cache : Dict HistoryKey U) :
    Carries o ⟨guardContext o reading config, Dict.empty⟩
      (conditionContext o reading config Dict.empty cache) t := by
  obtain ⟨hch, hh, hn⟩ := protects_loads ht
  refine carries_of_names hch hh fun id hi => ?_
  have ho : id ≠ historyName := fun h => hh (h ▸ hi)
  rw [asDict_conditionContext, if_neg ho]
  unfold EvalContext.asDict
  rw [if_neg ho, get?_guardContext]
  by_cases hr : id ∈ reservedContextNames
  · have hnone : config.get? id = none := by
      have hs := skill.unreserved id hr
      rcases hc id with hm | ⟨v, q, hv, -, -⟩
      · rw [hm, hs]
      · rw [hs] at hv
        cases hv
    rw [hnone]
    simp only [reservedContextNames, mem_cons, not_mem_nil, or_false] at hr
    rcases hr with rfl | rfl | rfl | rfl | rfl
    · exact .inl rfl
    · exact .inl rfl
    · exact .inl rfl
    all_goals exact .inr ⟨rfl, by decide⟩
  · rw [if_neg hr]
    rcases hn id hi with ⟨v, hv, -⟩ | ⟨-, hin⟩
    · left
      rcases hc id with hm | ⟨w, q, -, -, hq⟩
      · rw [hm, hv]
        rfl
      · rw [hq]
        rfl
    · exact absurd hin hr

theorem holds_iff (hp : parse trigger.condition = .ok t) (c : EvalContext U) :
    RuleEngine.conditionHolds parse o c trigger.condition = true ↔ decides o c t = .ok true := by
  unfold RuleEngine.conditionHolds
  rw [hp]
  exact decide_eq_true_iff

theorem active_kept {config : SkillConfig U} (hc : ∀ key, skill.Retuned config key)
    {cmd : SetThreshold U} (hap : Applied skill config cmd q)
    (hf : ∀ key, skill.Retuned (config.set cmd.thresholdKey (.float (.finite q))) key)
    (hk : ∃ t, skill.Protects t ∧ cmd.thresholdKey ∈ t.names) {readings : List (EventReading U)}
    (hr : cmd.readings = some readings) {reading : EventReading U}
    (hre : reading ∈ readings) (htr : trigger ∈ skill.triggers)
    (htier : trigger.tierD = true) (cache : Dict HistoryKey U)
    (ha : RuleEngine.conditionHolds parse o
      (conditionContext o reading config Dict.empty cache) trigger.condition = true) :
    RuleEngine.conditionHolds parse o (conditionContext o reading
      (config.set cmd.thresholdKey (.float (.finite q))) Dict.empty cache) trigger.condition =
        true := by
  obtain ⟨t', ht', hna⟩ := hk
  have hg := all_eq_true.mp (hap.active t' readings ht' hna hr) trigger
    (mem_filter.mpr ⟨htr, htier⟩)
  obtain ⟨t, hp⟩ := parses htr htier
  have ht : skill.Protects t := ⟨trigger, htr, htier, hp⟩
  have hl := skill.loads trigger htr htier
  unfold tierDConditionLoads at hl
  rw [Bool.and_eq_true] at hl
  have hbl : trigger.condition ≠ [] := by
    intro hem
    rw [hem] at hl
    exact absurd hl.1 (by decide)
  rw [decide_eq_false hbl] at hg
  have hd := all_eq_true.mp hg reading hre
  have hsafe : checkSafetyAst t = .ok () := by
    unfold checkSafetyAst
    rw [List.findSome?_eq_none_iff.mpr fun m hm =>
      ((protects_loads ht).1 m (mem_walk.mp hm)).1]
  have he : ∀ config, evaluateConditionSafely parse o trigger.condition
      (guardContext o reading config) =
        (decides o ⟨guardContext o reading config, Dict.empty⟩ t).toOption := by
    intro config
    unfold evaluateConditionSafely
    rw [hp]
    dsimp only
    rw [hsafe]
    rfl
  rw [holds_iff hp] at ha ⊢
  unfold suppresses at hd
  rw [he, he, Bool.not_eq_true', Bool.and_eq_false_iff] at hd
  rcases hd with hi | hkp
  · cases hold : decides o ⟨guardContext o reading config, Dict.empty⟩ t with
    | error e =>
      rw [hold] at hi
      cases hi
    | ok b =>
      have hs := (carries_guard ht hc reading cache).decides hold
      cases hs.symm.trans ha
      rw [hold] at hi
      cases hi
  · cases hn : decides o ⟨guardContext o reading
        (config.set cmd.thresholdKey (.float (.finite q))), Dict.empty⟩ t with
    | error e =>
      rw [hn] at hkp
      cases hkp
    | ok b =>
      rw [hn] at hkp
      have hb : b = true := by simpa [Except.toOption] using hkp
      subst hb
      exact (carries_guard ht hf reading cache).decides hn

/-! ### Sensitivity -/

/-- An operand that raises for no reading the engine takes, whatever numbers are configured. -/
def Quiet (skill : LoadedSkill parse o) (t : Ast) : Prop :=
  ∀ (reading : EventReading U) (config : SkillConfig U) (derived : Dict Text U)
    (cache : Dict HistoryKey U), RuleEngine.validateReading o (some reading) = .ok () →
      (∀ key, skill.Retuned config key) →
        ∃ b, decides o (conditionContext o reading config derived cache) t = .ok b

/-- Every Tier D condition places the key, and a float holds its startup value. -/
def Placed (skill : LoadedSkill parse o) (key : Text) : Prop :=
  (∀ t, skill.Protects t → placed skill.Quiet key true false t) ∧
    ∀ n, skill.startup.get? key = some (.int n) → doubleOfInt n = some n

/-- A command on a key the conditions place, back to the startup float, or too insensitive. -/
def Conforms (skill : LoadedSkill parse o) (cmd : SetThreshold U) : Prop :=
  ∀ q, cmd.value = .number (.finite q) → skill.Placed cmd.thresholdKey ∨
    skill.startup.get? cmd.thresholdKey = some (.float (.finite q)) ∨
    checkTierDStartupSensitivity parse o skill.triggers cmd.thresholdKey q
      (skill.startup.get? cmd.thresholdKey) ≠ .passed ∨
    ∀ t, skill.Protects t → cmd.thresholdKey ∉ t.names

/-- A key at its startup value, named by no Tier D condition, or moved the way the guard allows. -/
def Held (skill : LoadedSkill parse o) (config : SkillConfig U) (key : Text) : Prop :=
  config.get? key = skill.startup.get? key ∨ (∀ t, skill.Protects t → key ∉ t.names) ∨
    skill.Placed key ∧ ∃ v a q, skill.startup.get? key = some v ∧ v.toFloat o = .ok (.finite a) ∧
      config.get? key = some (.float (.finite q)) ∧
      (.upper ∈ skill.directions key → q ≤ a) ∧ (.lower ∈ skill.directions key → a ≤ q)

theorem sensitive_of_passed {key : Text} (h : checkTierDStartupSensitivity parse o
    skill.triggers key q (skill.startup.get? key) = .passed) :
    ∃ v a, skill.startup.get? key = some v ∧ v.toFloat o = .ok (.finite a) ∧
      (.upper ∈ skill.directions key → q ≤ a) ∧ (.lower ∈ skill.directions key → a ≤ q) := by
  unfold checkTierDStartupSensitivity at h
  cases hs : skill.startup.get? key with
  | none =>
    rw [hs] at h
    cases h
  | some v =>
  rw [hs] at h
  dsimp only at h
  cases hf : v.toFloat o with
  | error e =>
    rw [hf] at h
    cases e <;> cases h
  | ok f =>
  rw [hf] at h
  cases f with
  | posInf | negInf | nan => cases h
  | finite a =>
  cases hd : tierDThresholdDirections parse skill.triggers key with
  | error e =>
    rw [hd] at h
    cases h
  | ok bounds =>
  rw [hd] at h
  dsimp only at h
  refine ⟨v, a, rfl, hf, ?_⟩
  unfold directions
  rw [hd]
  split at h <;> rename_i hu
  · have he : ¬ a < q := fun ht => by rw [if_pos ht] at h; cases h
    exact ⟨fun _ => not_lt.mp he, fun hl => absurd hl hu.2⟩
  split at h <;> rename_i hl
  · have he : ¬ q < a := fun ht => by rw [if_pos ht] at h; cases h
    exact ⟨fun hi => absurd hi hl.2, fun _ => not_lt.mp he⟩
  · have hm : q = a := by
      by_contra hn
      rw [if_pos hn] at h
      cases h
    exact ⟨fun _ => hm.le, fun _ => hm.ge⟩

theorem held_execute {config : SkillConfig U} (h : ∀ key, skill.Held config key)
    {cmd : SetThreshold U} (hc : skill.Conforms cmd) (key : Text) :
    skill.Held (skill.executeSetThreshold config cmd).2 key := by
  rcases skill.execute_cases config cmd with ⟨-, hstay⟩ | ⟨q, hh, hap⟩
  · rw [hstay]
    exact h key
  rw [hh]
  by_cases hk : key = cmd.thresholdKey
  · subst hk
    by_cases hn : ∀ t, skill.Protects t → cmd.thresholdKey ∉ t.names
    · exact .inr (.inl hn)
    push Not at hn
    obtain ⟨t, ht, hi⟩ := hn
    have hp := hap.sensitive t ht hi
    rcases hc q hap.value with hl | hback | hr | hf
    · obtain ⟨v, a, hv, ha, hs⟩ := sensitive_of_passed hp
      exact .inr (.inr ⟨hl, v, a, q, hv, ha, Dict.get?_set_self _ _ _, hs⟩)
    · exact .inl ((Dict.get?_set_self _ _ _).trans hback.symm)
    · exact absurd hp hr
    · exact absurd hi (hf t ht)
  · unfold Held
    rw [Dict.get?_set_of_ne _ _ hk]
    exact h key

theorem held_run (h : ∀ cmd ∈ cmds, skill.Conforms cmd) (key : Text) :
    skill.Held (skill.runCommands cmds) key :=
  runCommands_induction (P := fun config => ∀ key, skill.Held config key) cmds
    (fun _ => .inl rfl) (fun _ hh cmd hi => held_execute hh (h cmd hi)) key

theorem tuned_run (order : NumberOrder o) {config : SkillConfig U}
    (h : ∀ key, skill.Held config key) (ht : skill.Protects t) (reading : EventReading U)
    (derived : Dict Text U) (cache : Dict HistoryKey U) :
    Tuned order t.names (fun key => config.get? key ≠ skill.startup.get? key) skill.directions
      (conditionContext o reading skill.startup derived cache)
      (conditionContext o reading config derived cache) := by
  constructor
  · intro id _ hsm
    rw [asDict_conditionContext, asDict_conditionContext, not_not.mp hsm]
  · intro id hid hm
    rcases h id with hsm | hf | ⟨hp, v, a, q, hv, ha, hq, hs⟩
    · exact absurd hsm hm
    · exact absurd hid (hf t ht)
    rw [asDict_conditionContext, asDict_conditionContext]
    by_cases hh : id = historyName
    · exact .inl (by rw [if_pos hh, if_pos hh])
    by_cases hr : id ∈ reservedContextNames
    · exact .inl (by rw [if_neg hh, if_neg hh, if_pos hr, if_pos hr])
    rw [if_neg hh, if_neg hh, if_neg hr, if_neg hr]
    cases hd : derived.get? id with
    | some d => exact .inl rfl
    | none =>
      rw [hv, hq]
      refine .inr ⟨_, _, a, q, rfl, ?_, rfl, order.float _, hs⟩
      obtain ⟨w, hw, hi⟩ | ⟨hn, -⟩ := (protects_loads ht).2.2 id hid
      · cases hv.symm.trans hw
        cases v with
        | int n =>
          unfold ConfigValue.toFloat at ha
          dsimp only at ha
          rw [hp.2 n hv] at ha
          cases ha
          exact order.int n
        | float f =>
          cases ha
          exact order.float _
        | bool b | other u => cases hi
      · rw [hn] at hv
        cases hv

theorem sensitive_kept (order : NumberOrder o) (h : ∀ cmd ∈ cmds, skill.Conforms cmd)
    (htr : trigger ∈ skill.triggers) (htier : trigger.tierD = true) {reading : EventReading U}
    (hr : RuleEngine.validateReading o (some reading) = .ok ()) (derived : Dict Text U)
    (cache : Dict HistoryKey U) (ha : RuleEngine.conditionHolds parse o
      (conditionContext o reading skill.startup derived cache) trigger.condition = true) :
    RuleEngine.conditionHolds parse o
      (conditionContext o reading (skill.runCommands cmds) derived cache) trigger.condition =
        true := by
  obtain ⟨t, hpa⟩ := parses htr htier
  have ht : skill.Protects t := ⟨trigger, htr, htier, hpa⟩
  obtain ⟨hc, hh, -⟩ := protects_loads ht
  have hd : ∀ key, skill.Held (skill.runCommands cmds) key := held_run h
  rw [holds_iff hpa] at ha ⊢
  have hp : ∀ key, (skill.runCommands cmds).get? key ≠ skill.startup.get? key →
      placed skill.Quiet key true false t := by
    intro key hv
    rcases hd key with hs | hf | ⟨hplac, -⟩
    · exact absurd hs hv
    · exact placed_of_not_mem (hf t ht)
    · exact hplac.1 t ht
  refine ((tuned_run order hd ht reading derived cache).follows hc (List.Subset.refl _)
    hh hp ?_ ?_).1 ha
  · exact fun key b m _ hm hb => mem_directions ht hm hb
  · exact fun m _ hq => hq reading _ derived cache hr (retuned_run cmds)

/-- In a run whose commands conform, a Tier D condition true under the startup configuration stays
true. In every run, a command applied to a Tier D key keeps the conditions active on the readings it
was checked against, and a command not applied changes nothing. -/
theorem remote_thresholds (order : NumberOrder o) (skill : LoadedSkill parse o) :
    (∀ cmds : List (SetThreshold U), (∀ cmd ∈ cmds, skill.Conforms cmd) →
      ∀ trigger ∈ skill.triggers, trigger.tierD = true →
      ∀ (reading : EventReading U) (derived : Dict Text U) (cache : Dict HistoryKey U),
        RuleEngine.validateReading o (some reading) = .ok () →
        RuleEngine.conditionHolds parse o
          (conditionContext o reading skill.startup derived cache) trigger.condition = true →
        RuleEngine.conditionHolds parse o
          (conditionContext o reading (skill.runCommands cmds) derived cache) trigger.condition =
            true) ∧
    (∀ (cmds : List (SetThreshold U)) (cmd : SetThreshold U) (readings : List (EventReading U)),
      (skill.executeSetThreshold (skill.runCommands cmds) cmd).1 = .executed →
      (∃ t, skill.Protects t ∧ cmd.thresholdKey ∈ t.names) → cmd.readings = some readings →
      ∀ reading ∈ readings, ∀ trigger ∈ skill.triggers, trigger.tierD = true →
      ∀ cache : Dict HistoryKey U, RuleEngine.conditionHolds parse o
          (conditionContext o reading (skill.runCommands cmds) Dict.empty cache)
            trigger.condition = true →
        RuleEngine.conditionHolds parse o
          (conditionContext o reading (skill.executeSetThreshold (skill.runCommands cmds) cmd).2
            Dict.empty cache) trigger.condition = true) ∧
    ∀ (config : SkillConfig U) (cmd : SetThreshold U),
      (skill.executeSetThreshold config cmd).1 ≠ .executed ∨ cmd.dryRun = true →
        (skill.executeSetThreshold config cmd).2 = config := by
  refine ⟨?_, ?_, ?_⟩
  · intro cmds hcmds trigger htrigger htier reading derived cache hreading
    exact sensitive_kept order hcmds htrigger htier hreading derived cache
  · intro cmds cmd readings hexecuted hkey hreadings reading hreading trigger htrigger htier cache
    have hbefore : ∀ key, skill.Retuned (skill.runCommands cmds) key := retuned_run cmds
    have hafter := retuned_execute hbefore cmd
    rcases skill.execute_cases (skill.runCommands cmds) cmd with ⟨hno, -⟩ | ⟨q, hchange, happlied⟩
    · exact absurd hexecuted hno
    · rw [hchange] at hafter ⊢
      exact active_kept hbefore happlied hafter hkey hreadings hreading htrigger htier cache
  · intro config cmd hno
    rcases skill.execute_cases config cmd with ⟨-, hstay⟩ | ⟨q, hchange, happlied⟩
    · exact hstay
    rcases hno with hno | hdry
    · rw [hchange] at hno
      exact absurd rfl hno
    · rw [happlied.wanted] at hdry
      cases hdry

end LoadedSkill

end

/-! ### A condition under a negation -/

namespace Plain

/-- The objects of a condition that compares numbers. -/
inductive Object where
  | number (f : PyFloat)
  | bool (b : Bool)
  | str (s : Text)
  | none
  deriving DecidableEq

def Object.number? : Object → Option PyFloat
  | .number f => some f
  | .bool b => some (.finite (if b then 1 else 0))
  | .str _ | .none => Option.none

def number? : Operand Object → Option PyFloat
  | .object u => u.number?
  | .history => Option.none

def truth : Operand Object → Bool
  | .object (.number f) => decide (f ≠ .finite 0)
  | .object (.bool b) => b
  | .object (.str s) => decide (s ≠ [])
  | .object .none => false
  | .history => true

def objects : Objects Object where
  constant
    | .int n => .number (.finite n)
    | .float f => .number f
    | .bool b => .bool b
    | .str s => .str s
    | _ => .none
  emptyDict := .none
  unary
    | .not, v => .ok (.object (.bool (!truth v)))
    | _, _ => .error .other
  binary _ _ _ := .error .other
  compare op x y :=
    match op.isOrdering, number? x, number? y with
    | true, some a, some b => .ok (.object (.bool (op.orders a b)))
    | _, _, _ => .error .other
  truth v := .ok (truth v)
  call _ _ := .error .other
  getattr _ _ := .error .other
  historyAttr _ := .error .other
  number? := Object.number?
  isBool
    | .bool _ => true
    | _ => false
  float u := .ok u
  list? _ := none
  ofList _ := .none
  text?
    | .str s => some s
    | _ => none
  integer? _ := none

def order : NumberOrder objects where
  number := number?
  int _ := rfl
  float _ := rfl
  compare op x y hop _ := by
    show (match op.isOrdering, number? x, number? y with
      | true, some a, some b => Except.ok (Operand.object (Object.bool (op.orders a b)))
      | _, _, _ => .error EvalError.other) = _
    rw [hop]
    cases number? x <;> cases number? y <;> rfl
  truth _ := rfl
  not _ := rfl

def aboveLimit : Ast :=
  .compare (.name (text "value") .load) [.gt] [.name (text "limit") .load]

def parse (condition : Text) : Except ParseFailure Ast :=
  if condition = text "value > limit" then .ok aboveLimit
  else if condition = text "not (value > limit)" then .ok (.unaryOp .not aboveLimit)
  else .error .syntaxError

def startup : SkillConfig Object := Dict.empty.set (text "limit") (.int 10)

/-- A skill with one Tier D trigger and the limit 10. -/
def skillOf (condition : Text)
    (h : tierDConditionLoads parse objects startup condition = true) :
    LoadedSkill parse objects where
  name := text "skill"
  triggers := [⟨text "trip", text "D", condition⟩]
  startup := startup
  unreserved := by decide +kernel
  loads := by
    intro t ht _
    cases List.mem_singleton.mp ht
    exact h
  others := by
    intro t ht htier
    cases List.mem_singleton.mp ht
    exact absurd htier (by simp [Trigger.tierD])

def high : LoadedSkill parse objects := skillOf (text "value > limit") (by decide +kernel)

def notHigh : LoadedSkill parse objects := skillOf (text "not (value > limit)") (by decide +kernel)

def reading (value : ℚ) : EventReading Object :=
  { value := .number (.finite value), sensorId := .str (text "s"), sensorType := .str (text "t"),
    unit := .str (text "u"), quality := .number (.finite 1) }

/-- The limit set to 5 while the latest reading is 3. -/
def lower : SetThreshold Object :=
  { skillName := text "skill", thresholdKey := text "limit", value := .number (.finite 5),
    dryRun := false, pending := false, readings := some [reading 3] }

def holds (skill : LoadedSkill parse objects) (config : SkillConfig Object) (value : ℚ) : Bool :=
  skill.triggers.all fun trigger => RuleEngine.conditionHolds parse objects
    (conditionContext objects (reading value) config Dict.empty Dict.empty) trigger.condition

/-- The guard reads an upper bound under a negation, and the condition gets less sensitive. -/
theorem negated_desensitised : (notHigh.executeSetThreshold notHigh.startup lower).1 = .executed ∧
      holds notHigh notHigh.startup 7 = true ∧
      holds notHigh (notHigh.runCommands [lower]) 7 = false := by
  decide +kernel

theorem placed_aboveLimit : high.Placed (text "limit") := by
  constructor
  · rintro t ⟨trigger, ht, -, hp⟩
    cases mem_singleton.mp ht
    cases hp
    exact fun _ => ⟨rfl, by decide +kernel, fun h => absurd h.1 (by decide +kernel)⟩
  · intro n hn
    have hn' : some (ConfigValue.int 10) = some (ConfigValue.int (U := Object) n) := hn
    cases hn'
    decide +kernel

/-- The limit lowered under a condition that places it: what was active at 12 still is. -/
theorem remote_thresholds_lowered : (high.executeSetThreshold high.startup lower).1 = .executed ∧
      RuleEngine.conditionHolds parse objects (conditionContext objects (reading 12)
        (high.runCommands [lower]) Dict.empty Dict.empty) (text "value > limit") = true := by
  refine ⟨by decide +kernel, ?_⟩
  refine (LoadedSkill.remote_thresholds order high).1 [lower] ?_
    ⟨text "trip", text "D", text "value > limit"⟩ (mem_singleton.mpr rfl) (by decide +kernel)
    (reading 12) Dict.empty Dict.empty (by decide +kernel) (by decide +kernel)
  intro cmd hcmd
  cases mem_singleton.mp hcmd
  exact fun _ _ => .inl placed_aboveLimit

end Plain

end OriRuntime
