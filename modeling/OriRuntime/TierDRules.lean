import OriRuntime.ConditionSafety
import OriRuntime.Execution
import OriRuntime.RuleEngine

/-!
# Tier D rules on their own

A Tier D condition that names history is not evaluated, and any other has no call, so its value is
decided by the reading and the context alone. Nothing one rule does reaches another: what they share
is checked before any is evaluated, and read only.
-/

namespace OriRuntime

open List Option

open Ast

/-! ### Conditions without history -/

section

variable {U : Type*} {o : Objects U} {c c' : EvalContext U}

theorem asDict_congr (h : c.values = c'.values) : c.asDict = c'.asDict := by
  funext id
  rw [EvalContext.asDict, EvalContext.asDict, h]

theorem eval_name_congr (h : c.values = c'.values) (id : Text) (ctx : ExprContext) :
    eval o c (.name id ctx) = eval o c' (.name id ctx) := by
  rw [eval, eval, nameAccess, nameAccess, loadName, loadName, asDict_congr h]

theorem evalBool_congr {op : BoolOperator} {ts : List Ast}
    (h : ∀ t ∈ ts, eval o c t = eval o c' t) : evalBool o c op ts = evalBool o c' op ts := by
  induction ts with
  | nil => rfl
  | cons t ts ih =>
    rw [evalBool, evalBool, h t mem_cons_self, ih (fun u hu => h u (mem_cons_of_mem _ hu))]

theorem evalCompare_congr {ts : List Ast} (h : ∀ t ∈ ts, eval o c t = eval o c' t)
    (left : Operand U) (ops : List CmpOperator) :
    evalCompare o c left ops ts = evalCompare o c' left ops ts := by
  induction ts generalizing left ops with
  | nil => cases ops <;> rfl
  | cons t ts ih =>
    cases ops with
    | nil => rfl
    | cons op ops =>
      have hr := ih (fun u hu => h u (mem_cons_of_mem _ hu))
      simp only [evalCompare, h t mem_cons_self, hr]

theorem eval_congr {t : Ast} (h : Checked t) (hn : ∀ m, Within m t → m.isHistory = false)
    (hv : c.values = c'.values) : eval o c t = eval o c' t := by
  induction t using Ast.sizeInduction with
  | h t ih =>
    have hc : ∀ u ∈ t.children, eval o c u = eval o c' u :=
      fun u hu => ih u (size_child_lt hu) (h.child hu) (fun m hm => hn m (.child hu hm))
    cases t with
    | constant value | symbol s | construct kind children => rfl
    | name id ctx => exact eval_name_congr hv id ctx
    | boolOp op values =>
      rw [eval, eval, evalBool_congr (fun u hu => hc u (mem_cons_of_mem _ hu))]
    | binOp left op right =>
      rw [eval, eval, hc left (by simp [children]), hc right (by simp [children])]
    | unaryOp op operand => rw [eval, eval, hc operand (by simp [children])]
    | compare left ops comparators =>
      have hco : ∀ u ∈ comparators, eval o c u = eval o c' u :=
        fun u hu => hc u (mem_cons_of_mem _ (mem_append_right _ hu))
      simp only [eval, hc left mem_cons_self, evalCompare_congr hco]
    | «attribute» value attr ctx =>
      have ho := hn value (.child mem_cons_self .self)
      rw [h.attribute] at ho
      cases ho
    | call func args keywords =>
      obtain ⟨value, attr, ctx, rfl, hh, -⟩ := h.call
      have ho := hn value (.child mem_cons_self (.child mem_cons_self .self))
      rw [hh] at ho
      cases ho

end

namespace RuleEngine

variable {U : Type*} {parse : Text → Except ParseFailure Ast} {o : Objects U}

/-! ### Rules evaluated one by one -/

theorem mapM_eq_ok_iff {α β ε : Type} {f : α → Except ε β} {g : α → β}
    (hg : ∀ x y, f x = .ok y → y = g x) {xs : List α} {ys : List β} :
    xs.mapM f = .ok ys ↔ (∀ x ∈ xs, f x = .ok (g x)) ∧ ys = xs.map g := by
  induction xs generalizing ys with
  | nil =>
    constructor
    · intro h
      cases h
      exact ⟨fun _ hx => absurd hx not_mem_nil, rfl⟩
    · rintro ⟨-, rfl⟩
      rfl
  | cons x xs ih =>
    rw [mapM_cons, forall_mem_cons]
    constructor
    · intro h
      obtain ⟨y, hx, h⟩ := Execution.bind_eq_ok_iff.mp h
      obtain ⟨zs, hr, h⟩ := Execution.bind_eq_ok_iff.mp h
      obtain ⟨ha, rfl⟩ := ih.mp hr
      obtain rfl := hg x y hx
      cases h
      exact ⟨⟨hx, ha⟩, rfl⟩
    · rintro ⟨⟨hx, ha⟩, rfl⟩
      exact Execution.bind_eq_ok_iff.mpr ⟨_, hx, Execution.bind_eq_ok_iff.mpr ⟨_, ih.mpr ⟨ha, rfl⟩, rfl⟩⟩

/-- The history calls of a rule that passes the check. -/
def callsOf (parse : Text → Except ParseFailure Ast) (rule : Rule) : List HistoryKey :=
  match checkRule parse rule with
  | .ok checked => checked.2
  | .error _ => []

variable {checked : Rule × List HistoryKey} {rule : Rule} {c : EvalContext U} {s : EngineState}
  {scope : Text} {q : RuleQuery U} {rules : List Rule}

theorem checkRule_ok (h : checkRule parse rule = .ok checked) :
    checked = (rule, callsOf parse rule) := by
  have hc : callsOf parse rule = checked.2 := by
    unfold callsOf
    rw [h]
  rw [hc]
  unfold checkRule at h
  split_ifs at h
  · cases h
    rfl
  · split at h
    · cases h
      rfl
    · cases h

def ruleMatch (parse : Text → Except ParseFailure Ast) (o : Objects U) (s : EngineState)
    (c : EvalContext U) (scope : Text) (rule : Rule) : Option RuleResult :=
  if rule.condition = [] then none
  else if rule.tierD ∧ namesHistory parse rule.condition then none
  else if conditionHolds parse o c rule.condition = false then none
  else if suppressedByCooldown s rule.name rule.actionTier (rule.cooldownSeconds.getD 0) scope then
    none
  else some (ruleResult rule)

theorem evaluateRule_eq_ok_iff :
    evaluateRule parse o s c scope rule = .ok (ruleMatch parse o s c scope rule) ↔
      rule.cooldownSeconds.isSome = true := by
  unfold evaluateRule ruleMatch
  cases rule.cooldownSeconds with
  | none => simp
  | some seconds =>
    simp only [getD_some, isSome_some, iff_true]
    split_ifs <;> rfl

theorem evaluateRule_ok {m : Option RuleResult} (h : evaluateRule parse o s c scope rule = .ok m) :
    m = ruleMatch parse o s c scope rule := by
  have hc : rule.cooldownSeconds.isSome = true := by
    by_contra hn
    rw [not_isSome_iff_eq_none] at hn
    rw [evaluateRule, hn] at h
    cases h
  exact Except.ok.inj (h.symm.trans (evaluateRule_eq_ok_iff.mpr hc))

def contextOf (parse : Text → Except ParseFailure Ast) (o : Objects U) (q : RuleQuery U)
    (rules : List Rule) : EvalContext U :=
  ⟨baseContext q.reading q.context, prefetch o q.store
    ((rules.filter q.select.selects).map (fun rule => (rule, callsOf parse rule)))⟩

/-- A call returns when the reading is a finite number, every rule passes the check, selected or
not, and every selected rule's cooldown is a number; its matches are then its selected rules', in
order. -/
theorem evaluateAll_eq_ok_iff {ms : List RuleResult} : evaluateAll parse o s q rules = .ok ms ↔
      validateReading o q.reading = .ok () ∧
      (∀ rule ∈ rules, ∃ checked, checkRule parse rule = .ok checked) ∧
      (∀ rule ∈ rules, q.select.selects rule = true → rule.cooldownSeconds.isSome = true) ∧
      ms = (rules.filter q.select.selects).filterMap
        (ruleMatch parse o s (contextOf parse o q rules) q.scope) := by
  have hsele : (rules.map (fun rule => (rule, callsOf parse rule))).filter
      (fun rule => q.select.selects rule.1) =
      (rules.filter q.select.selects).map (fun rule => (rule, callsOf parse rule)) := by
    rw [List.filter_map]
    rfl
  have hm : ∀ c, (((rules.filter q.select.selects).map (fun rule => (rule, callsOf parse rule))).map
      (fun rule => ruleMatch parse o s c q.scope rule.1)).filterMap id =
      (rules.filter q.select.selects).filterMap (ruleMatch parse o s c q.scope) := by
    intro c
    rw [List.map_map, List.filterMap_map]
    rfl
  constructor
  · intro h
    obtain ⟨⟨⟩, he, h⟩ := Execution.bind_eq_ok_iff.mp h
    obtain ⟨checked, hc, h⟩ := Execution.bind_eq_ok_iff.mp h
    obtain ⟨ha, rfl⟩ := (mapM_eq_ok_iff (fun _ _ => checkRule_ok)).mp hc
    rw [hsele] at h
    obtain ⟨results, hrs, h⟩ := Execution.bind_eq_ok_iff.mp h
    obtain ⟨hr, rfl⟩ := (mapM_eq_ok_iff (fun _ _ => evaluateRule_ok)).mp hrs
    refine ⟨he, fun rule hrule => ⟨_, ha rule hrule⟩, ?_, ?_⟩
    · intro rule hrule hs
      exact evaluateRule_eq_ok_iff.mp
        (hr (rule, _) (List.mem_map_of_mem (List.mem_filter.mpr ⟨hrule, hs⟩)))
    · rw [← Except.ok.inj h]
      exact hm _
  · rintro ⟨he, ha, hco, rfl⟩
    refine Execution.bind_eq_ok_iff.mpr ⟨(), he, Execution.bind_eq_ok_iff.mpr ⟨_, (mapM_eq_ok_iff
      (fun _ _ => checkRule_ok)).mpr ⟨?_, rfl⟩, ?_⟩⟩
    · intro rule hrule
      obtain ⟨checked, ho⟩ := ha rule hrule
      rw [ho, checkRule_ok ho]
    · dsimp only
      rw [hsele]
      refine Execution.bind_eq_ok_iff.mpr ⟨_, (mapM_eq_ok_iff (fun _ _ => evaluateRule_ok)).mpr ⟨?_, rfl⟩, ?_⟩
      · intro checked hc
        obtain ⟨rule, hrule, rfl⟩ := List.mem_map.mp hc
        obtain ⟨hrule, hs⟩ := List.mem_filter.mp hrule
        exact evaluateRule_eq_ok_iff.mpr (hco rule hrule hs)
      · exact congrArg Except.ok (hm _)

/-! ### Tier D -/

def tierDMatch (parse : Text → Except ParseFailure Ast) (o : Objects U) (values : Dict Text U)
    (rule : Rule) : Option RuleResult :=
  if rule.condition = [] then none
  else if namesHistory parse rule.condition then none
  else if conditionHolds parse o ⟨values, Dict.empty⟩ rule.condition = false then none
  else some (ruleResult rule)

theorem ruleMatch_actionTier {m : RuleResult} (h : ruleMatch parse o s c scope rule = some m) :
    m.actionTier = rule.actionTier := by
  unfold ruleMatch at h
  split_ifs at h
  cases h
  rfl

theorem checked_of_checkRule {t : Ast} (h : checkRule parse rule = .ok checked)
    (hc : rule.condition ≠ []) (hp : parse rule.condition = .ok t) : Checked t := by
  unfold checkRule at h
  rw [if_neg hc] at h
  split at h
  · rename_i calls ha
    exact checked_of_validated hp ha
  · cases h

theorem namesHistory_eq_false {condition : Text} {t : Ast} (hp : parse condition = .ok t)
    (h : namesHistory parse condition = false) : ∀ m, Within m t → m.isHistory = false := by
  unfold namesHistory at h
  rw [hp] at h
  intro m hm
  rw [List.any_eq_false] at h
  exact Bool.eq_false_iff.mpr (h m (mem_walk.mpr hm))

theorem ruleMatch_tierD (hch : checkRule parse rule = .ok checked) (htier : rule.tierD = true) :
    ruleMatch parse o s c scope rule = tierDMatch parse o c.values rule := by
  unfold ruleMatch tierDMatch
  by_cases hc : rule.condition = []
  · rw [if_pos hc, if_pos hc]
  rw [if_neg hc, if_neg hc]
  by_cases hn : namesHistory parse rule.condition = true
  · rw [if_pos ⟨htier, hn⟩, if_pos hn]
  rw [if_neg (fun h => hn h.2), if_neg hn, Bool.not_eq_true] at *
  have hh : conditionHolds parse o c rule.condition =
      conditionHolds parse o ⟨c.values, Dict.empty⟩ rule.condition := by
    unfold conditionHolds
    cases hp : parse rule.condition with
    | error e => rfl
    | ok t =>
      have hs : eval o c t = eval o ⟨c.values, Dict.empty⟩ t :=
        eval_congr (checked_of_checkRule hch hc hp) (namesHistory_eq_false hp hn) rfl
      have hch : evalCheckedCondition o c t = evalCheckedCondition o ⟨c.values, Dict.empty⟩ t := by
        rw [evalCheckedCondition, evalCheckedCondition, hs]
      simp only [hch]
  have ho : suppressedByCooldown s rule.name rule.actionTier
      (rule.cooldownSeconds.getD 0) scope = false := if_pos htier
  rw [hh, ho]
  rfl

theorem filter_filterMap {α β : Type*} {f : α → Option β} {p : α → Bool} {r : β → Bool}
    (h : ∀ x y, f x = some y → r y = p x) (xs : List α) :
    (xs.filterMap f).filter r = (xs.filter p).filterMap f := by
  induction xs with
  | nil => rfl
  | cons x xs ih =>
    cases hx : f x with
    | none =>
      rw [filterMap_cons_none hx, ih, filter_cons]
      split_ifs
      · rw [filterMap_cons_none hx]
      · rfl
    | some y =>
      rw [filterMap_cons_some hx, filter_cons, filter_cons, h x y hx, ih]
      split_ifs
      · rw [filterMap_cons_some hx]
      · rfl

theorem ruleMatch_tierD_eq (rule : Rule) (m : RuleResult)
    (h : ruleMatch parse o s c scope rule = some m) : m.tierD = rule.tierD := by
  rw [RuleResult.tierD, Rule.tierD, ruleMatch_actionTier h]

theorem evaluateAll_tierD {ms : List RuleResult} (h : evaluateAll parse o s q rules = .ok ms)
    (hs : q.select ≠ .other) : ms.filter RuleResult.tierD = (rules.filter Rule.tierD).filterMap
        (tierDMatch parse o (baseContext q.reading q.context)) := by
  obtain ⟨-, hc, -, rfl⟩ := evaluateAll_eq_ok_iff.mp h
  have hsele : ∀ rule, (rule.tierD && q.select.selects rule) = rule.tierD := by
    intro rule
    cases hq : q.select with
    | all => exact Bool.and_true _
    | tierD => exact Bool.and_self _
    | other => exact absurd hq hs
  rw [filter_filterMap ruleMatch_tierD_eq, List.filter_filter]
  simp only [hsele]
  apply List.filterMap_congr
  intro rule hrule
  obtain ⟨hrule, htier⟩ := List.mem_filter.mp hrule
  obtain ⟨checked, ho⟩ := hc rule hrule
  exact ruleMatch_tierD ho htier

theorem prefetch_other (store : Option (EventHistory U)) (f : Rule → List HistoryKey)
    (rules : List Rule) : prefetch o store ((rules.filter RuleSelection.other.selects).map
      (fun rule => (rule, f rule))) = prefetch o store (rules.map (fun rule => (rule, f rule))) := by
  cases store with
  | none => rfl
  | some store =>
    have hfold : ∀ cache : Dict HistoryKey U,
        ((rules.filter RuleSelection.other.selects).map (fun rule => (rule, f rule))).foldl
          (prefetchRule o store) cache =
        (rules.map (fun rule => (rule, f rule))).foldl (prefetchRule o store) cache := by
      induction rules with
      | nil => exact fun _ => rfl
      | cons rule rules ih =>
        intro cache
        by_cases htier : rule.tierD = true
        · have hs : RuleSelection.other.selects rule = false := by
            simp [RuleSelection.selects, htier]
          have hskip : prefetchRule o store cache (rule, f rule) = cache := if_pos htier
          rw [filter_cons_of_neg (by simp [hs]), map_cons, foldl_cons, hskip, ih]
        · have hs : RuleSelection.other.selects rule = true := by
            simpa [RuleSelection.selects] using htier
          rw [filter_cons_of_pos hs, map_cons, map_cons, foldl_cons, foldl_cons, ih]
    exact hfold Dict.empty

theorem evaluateAll_other :
    (rules.filterMap (ruleMatch parse o s (contextOf parse o { q with select := .all } rules)
      q.scope)).filter (fun m => !m.tierD) =
    (rules.filter RuleSelection.other.selects).filterMap
      (ruleMatch parse o s (contextOf parse o { q with select := .other } rules) q.scope) := by
  have hc : contextOf parse o { q with select := .other } rules =
      contextOf parse o { q with select := .all } rules := by
    have ha : rules.filter RuleSelection.all.selects = rules := filter_eq_self.mpr (fun _ _ => rfl)
    unfold contextOf
    rw [prefetch_other, ha]
  rw [hc]
  apply filter_filterMap
  intro rule m h
  rw [ruleMatch_tierD_eq rule m h]
  rfl

/-- A call returns unless the reading is no finite number, some rule's condition fails the check or
a selected rule's cooldown is no number. Of two calls that return, with one reading and one context,
the Tier D matches are the same up to the order of the Tier D rules, whatever the other rules, the
cooldowns, the clock and the histories are. The Tier D phase and the other phase return between them
what one call for all the rules returns, each in rule order. -/
theorem tier_d_independent (s : EngineState) (q : RuleQuery U) (rules : List Rule) :
    ((∃ ms, evaluateAll parse o s q rules = .ok ms) ↔ validateReading o q.reading = .ok () ∧
      (∀ rule ∈ rules, ∃ checked, checkRule parse rule = .ok checked) ∧
      ∀ rule ∈ rules, q.select.selects rule = true → rule.cooldownSeconds.isSome = true) ∧
    (∀ s' q' rules' ms ms', q'.reading = q.reading → q'.context = q.context →
      q.select ≠ .other → q'.select ≠ .other →
      (rules'.filter Rule.tierD).Perm (rules.filter Rule.tierD) →
      evaluateAll parse o s q rules = .ok ms → evaluateAll parse o s' q' rules' = .ok ms' →
      (ms'.filter RuleResult.tierD).Perm (ms.filter RuleResult.tierD)) ∧
    ∀ a b, evaluateAll parse o s { q with select := .tierD } rules = .ok a ∧
        evaluateAll parse o s { q with select := .other } rules = .ok b ↔
      ∃ ms, evaluateAll parse o s { q with select := .all } rules = .ok ms ∧
        a = ms.filter RuleResult.tierD ∧ b = ms.filter (fun m => !m.tierD) := by
  have hphase : ∀ {ms}, evaluateAll parse o s { q with select := .all } rules = .ok ms →
      evaluateAll parse o s { q with select := .tierD } rules = .ok (ms.filter RuleResult.tierD) ∧
        evaluateAll parse o s { q with select := .other } rules =
          .ok (ms.filter (fun m => !m.tierD)) := by
    intro ms h
    obtain ⟨hreading, hchecked, hcooldowns, hms⟩ := evaluateAll_eq_ok_iff.mp h
    have hall : rules.filter RuleSelection.all.selects = rules :=
      filter_eq_self.mpr (fun _ _ => rfl)
    have htierD : ∃ a, evaluateAll parse o s { q with select := .tierD } rules = .ok a :=
      ⟨_, evaluateAll_eq_ok_iff.mpr
        ⟨hreading, hchecked, fun rule hrule _ => hcooldowns rule hrule rfl, rfl⟩⟩
    obtain ⟨a, ha⟩ := htierD
    have hself : a.filter RuleResult.tierD = a := by
      obtain ⟨-, -, -, hmatches⟩ := evaluateAll_eq_ok_iff.mp ha
      rw [filter_eq_self]
      intro m hm
      rw [hmatches] at hm
      obtain ⟨rule, hrule, hmatch⟩ := mem_filterMap.mp hm
      rw [ruleMatch_tierD_eq rule m hmatch]
      exact (mem_filter.mp hrule).2
    refine ⟨?_, ?_⟩
    · rw [ha, ← hself, evaluateAll_tierD ha (by simp), evaluateAll_tierD h (by simp)]
    · rw [evaluateAll_eq_ok_iff]
      refine ⟨hreading, hchecked, fun rule hrule _ => hcooldowns rule hrule rfl, ?_⟩
      rw [hms]
      rw [hall, evaluateAll_other]
  refine ⟨?_, ?_, ?_⟩
  · constructor
    · rintro ⟨ms, h⟩
      obtain ⟨hreading, hchecked, hcooldowns, -⟩ := evaluateAll_eq_ok_iff.mp h
      exact ⟨hreading, hchecked, hcooldowns⟩
    · rintro ⟨hreading, hchecked, hcooldowns⟩
      exact ⟨_, evaluateAll_eq_ok_iff.mpr ⟨hreading, hchecked, hcooldowns, rfl⟩⟩
  · intro s' q' rules' ms ms' hreading hcontext hselect hselect' hrules h h'
    rw [evaluateAll_tierD h hselect, evaluateAll_tierD h' hselect', hreading, hcontext]
    exact hrules.filterMap _
  · intro a b
    constructor
    · rintro ⟨ha, hb⟩
      obtain ⟨hreading, hchecked, htierD, -⟩ := evaluateAll_eq_ok_iff.mp ha
      obtain ⟨-, -, hother, -⟩ := evaluateAll_eq_ok_iff.mp hb
      have hcooldowns : ∀ rule ∈ rules, RuleSelection.all.selects rule = true →
          rule.cooldownSeconds.isSome = true := by
        intro rule hrule _
        by_cases htier : rule.tierD = true
        · exact htierD rule hrule htier
        · exact hother rule hrule (by simpa [RuleSelection.selects] using htier)
      obtain ⟨ms, hall⟩ : ∃ ms, evaluateAll parse o s { q with select := .all } rules = .ok ms :=
        ⟨_, evaluateAll_eq_ok_iff.mpr ⟨hreading, hchecked, hcooldowns, rfl⟩⟩
      obtain ⟨ha', hb'⟩ := hphase hall
      exact ⟨ms, hall, Except.ok.inj (ha.symm.trans ha'), Except.ok.inj (hb.symm.trans hb')⟩
    · rintro ⟨ms, h, rfl, rfl⟩
      exact hphase h

/-! ### A refused rule -/

def intObjects : Objects ℤ where
  constant
    | .int n => n
    | .bool b => if b then 1 else 0
    | _ => 0
  emptyDict := 0
  unary _ _ := .error .other
  binary _ _ _ := .error .other
  compare
    | .gt, .object a, .object b => .ok (.object (if b < a then 1 else 0))
    | _, _, _ => .error .other
  truth
    | .object n => .ok (decide (n ≠ 0))
    | .history => .ok true
  call _ _ := .error .other
  getattr _ _ := .error .other
  historyAttr _ := .error .other
  number? n := some (.finite n)
  isBool _ := false
  float n := .ok n
  list? _ := none
  ofList _ := 0
  text? _ := none
  integer? n := some n

/-- `value > 90` and `oil > 90`. -/
def parseComparison (condition : Text) : Except ParseFailure Ast :=
  if condition = text "value > 90" then
    .ok (.compare (.name (text "value") .load) [.gt] [.constant (.int 90)])
  else if condition = text "oil > 90" then
    .ok (.compare (.name (text "oil") .load) [.gt] [.constant (.int 90)])
  else .error .syntaxError

def hotReading : RuleQuery ℤ where
  reading := some { value := 95, sensorId := 0, sensorType := 0, unit := 0, quality := 1 }
  context := Dict.empty
  store := none

def trip : Rule := { name := text "trip", condition := text "value > 90", actionTier := text "D" }

def unparsable : Rule := { name := text "notice", condition := text "value >" }

def unsupplied : Rule :=
  { name := text "oil", condition := text "oil > 90", cooldownSeconds := some 60 }

/-- A rule whose condition does not parse removes every match, a Tier D one too. -/
theorem unparsable_removes_match :
    (evaluateAll parseComparison intObjects ⟨Dict.empty, 0⟩ hotReading [trip]).toOption.map
      (fun ms => ms.map RuleResult.ruleName) = some [text "trip"] ∧
    evaluateAll parseComparison intObjects ⟨Dict.empty, 0⟩ hotReading [trip, unparsable] =
      .error (.safety .notExpression) := by
  constructor <;> decide +kernel

/-- A rule whose name nothing supplies removes none. -/
theorem tier_d_independent_unsupplied : ∃ ms, evaluateAll parseComparison intObjects
    ⟨Dict.empty, 0⟩ hotReading [unsupplied, trip] = .ok ms := by
  refine (tier_d_independent ⟨Dict.empty, 0⟩ hotReading [unsupplied, trip]).1.mpr ⟨?_, ?_, ?_⟩
  · decide +kernel
  · intro rule hrule
    exact ⟨(rule, []), by revert rule; decide +kernel⟩
  · decide +kernel

end RuleEngine

end OriRuntime
