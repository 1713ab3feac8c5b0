import OriRuntime.ConditionSafety
import OriRuntime.ThresholdGuard

/-!
# Conditions that follow a threshold

How the value of a condition moves with the configured numbers it names. A key is `placed` where it
is one side of an ordering under no odd number of negations. Then a change to the side the guard
allows keeps a true condition true, unless an operand it newly reaches raises.
-/

namespace OriRuntime

open List

open Ast

/-! ### Names -/

theorem mem_walk_names {id : Text} {t : Ast} : id ∈ t.names ↔ ∃ ctx, Within (.name id ctx) t := by
  unfold Ast.names
  rw [mem_filterMap]
  constructor
  · rintro ⟨m, hm, hi⟩
    cases m with
    | name id' ctx =>
      cases hi
      exact ⟨ctx, mem_walk.mp hm⟩
    | _ => cases hi
  · rintro ⟨ctx, h⟩
    exact ⟨.name id ctx, mem_walk.mpr h, rfl⟩

theorem names_child {t u : Ast} (hu : u ∈ t.children) {id : Text} (h : id ∈ u.names) :
    id ∈ t.names := by
  obtain ⟨ctx, hi⟩ := mem_walk_names.mp h
  exact mem_walk_names.mpr ⟨ctx, .child hu hi⟩

theorem mem_names_self (id : Text) (ctx : ExprContext) : id ∈ (Ast.name id ctx).names :=
  mem_walk_names.mpr ⟨ctx, .self⟩

/-! ### Evaluations that succeed -/

section

variable {U : Type*} {o : Objects U} {c c' : EvalContext U}

theorem andThen_ok {α β : Type*} {e : Evaluation α} {f : α → Evaluation β} {b : β} :
    (e.andThen f).result = .ok b ↔ ∃ a, e.result = .ok a ∧ (f a).result = .ok b := by
  unfold Evaluation.andThen
  cases h : e.result with
  | error error => simp
  | ok a => simp

/-- What succeeds in one namespace succeeds in another, to the same value. -/
def Carries (o : Objects U) (c c' : EvalContext U) (t : Ast) : Prop :=
  ∀ v, (eval o c t).result = .ok v → (eval o c' t).result = .ok v

variable {op : BoolOperator} {ts : List Ast} {v : Operand U} {b strict positive : Bool}
  {ordered : ℚ → ℚ → Prop} {f g f' g' : PyFloat}

theorem evalBool_carries (h : ∀ t ∈ ts, Carries o c c' t) (hv : (evalBool o c op ts).result = .ok v) :
    (evalBool o c' op ts).result = .ok v := by
  induction ts with
  | nil => cases hv
  | cons t ts ih =>
    rw [evalBool, andThen_ok] at hv ⊢
    obtain ⟨u, hu, hr⟩ := hv
    refine ⟨u, h t mem_cons_self u hu, ?_⟩
    by_cases hl : ts = []
    · rw [if_pos hl] at hr ⊢
      exact hr
    · rw [if_neg hl, andThen_ok] at hr ⊢
      obtain ⟨b, hb, hg⟩ := hr
      refine ⟨b, hb, ?_⟩
      by_cases hgoes : b = decide (op = .and)
      · rw [if_pos hgoes] at hg ⊢
        exact ih (fun t ht => h t (mem_cons_of_mem _ ht)) hg
      · rw [if_neg hgoes] at hg ⊢
        exact hg

theorem evalCompare_carries (h : ∀ t ∈ ts, Carries o c c' t) (left : Operand U)
    (ops : List CmpOperator) (hv : (evalCompare o c left ops ts).result = .ok v) :
    (evalCompare o c' left ops ts).result = .ok v := by
  induction ts generalizing left ops with
  | nil => cases ops <;> exact hv
  | cons t ts ih =>
    cases ops with
    | nil => exact hv
    | cons op ops =>
      rw [evalCompare, andThen_ok] at hv ⊢
      obtain ⟨right, hr, hs⟩ := hv
      refine ⟨right, h t mem_cons_self right hr, ?_⟩
      rw [andThen_ok] at hs ⊢
      obtain ⟨u, hu, hs⟩ := hs
      refine ⟨u, hu, ?_⟩
      by_cases hl : ts = []
      · rw [if_pos hl] at hs ⊢
        exact hs
      · rw [if_neg hl, andThen_ok] at hs ⊢
        obtain ⟨b, hb, hg⟩ := hs
        refine ⟨b, hb, ?_⟩
        cases b with
        | false => exact hg
        | true => exact ih (fun t ht => h t (mem_cons_of_mem _ ht)) right ops hg

variable {t : Ast}

/-- A checked condition that does not name history carries over to a namespace that gives its names
the same values, or gives names that resolved to nothing. -/
theorem carries_of_names (h : Checked t) (hh : historyName ∉ t.names)
    (hn : ∀ id ∈ t.names, c.asDict id = c'.asDict id ∨
      c.asDict id = none ∧ id ≠ builtinsName) : Carries o c c' t := by
  induction t using Ast.sizeInduction with
  | h t ih =>
    have hc : ∀ u ∈ t.children, Carries o c c' u := fun u hu =>
      ih u (size_child_lt hu) (h.child hu) (fun hi => hh (names_child hu hi))
        (fun id hid => hn id (names_child hu hid))
    intro v hv
    cases t with
    | constant value | symbol s | construct kind children => exact hv
    | name id ctx =>
      rw [eval] at hv ⊢
      unfold Evaluation.access loadName at hv ⊢
      by_cases ht : ctx ≠ .load
      · rw [if_pos ht] at hv
        cases hv
      rw [if_neg ht] at hv ⊢
      by_cases hd : id = debugName
      · rw [if_pos hd] at hv ⊢
        exact hv
      rw [if_neg hd] at hv ⊢
      rcases hn id (mem_names_self id ctx) with hs | ⟨ho, hb⟩
      · rw [← hs]
        exact hv
      · rw [ho] at hv
        rw [if_neg hb] at hv
        cases hv
    | boolOp op values =>
      exact evalBool_carries (fun u hu => hc u (mem_cons_of_mem _ hu)) hv
    | binOp left op right =>
      rw [eval, andThen_ok] at hv ⊢
      obtain ⟨l, hl, hv⟩ := hv
      rw [andThen_ok] at hv
      obtain ⟨r, hr, hv⟩ := hv
      exact ⟨l, hc left (by simp [children]) l hl,
        andThen_ok.mpr ⟨r, hc right (by simp [children]) r hr, hv⟩⟩
    | unaryOp op operand =>
      rw [eval, andThen_ok] at hv ⊢
      obtain ⟨u, hu, hv⟩ := hv
      exact ⟨u, hc operand (by simp [children]) u hu, hv⟩
    | compare left ops comparators =>
      rw [eval, andThen_ok] at hv ⊢
      obtain ⟨l, hl, hv⟩ := hv
      exact ⟨l, hc left mem_cons_self l hl, evalCompare_carries
        (fun u hu => hc u (mem_cons_of_mem _ (mem_append_right _ hu))) l ops hv⟩
    | «attribute» value attr ctx =>
      obtain ⟨ctx', rfl⟩ := isHistory_iff.mp h.attribute
      exact absurd (names_child mem_cons_self (mem_names_self historyName ctx')) hh
    | call func args keywords =>
      obtain ⟨value, attr, ctx, rfl, ha, -⟩ := h.call
      obtain ⟨ctx', rfl⟩ := isHistory_iff.mp ha
      exact absurd (names_child mem_cons_self (names_child mem_cons_self
        (mem_names_self historyName ctx'))) hh

/-! ### The truth of a condition -/

/-- What a condition comes to as a truth value. -/
def decides (o : Objects U) (c : EvalContext U) (t : Ast) : Except EvalError Bool :=
  (evalCheckedCondition o c t).result

theorem decides_ok :
    decides o c t = .ok b ↔ ∃ v, (eval o c t).result = .ok v ∧ o.truth v = .ok b := by
  unfold decides evalCheckedCondition
  rw [andThen_ok]
  rfl

theorem Carries.decides (h : Carries o c c' t) (hb : decides o c t = .ok b) :
    OriRuntime.decides o c' t = .ok b := by
  obtain ⟨v, hv, ht⟩ := decides_ok.mp hb
  exact decides_ok.mpr ⟨v, h v hv, ht⟩

theorem decides_boolOp : decides o c (.boolOp op (t :: ts)) = .ok b ↔ ∃ d, decides o c t = .ok d ∧
        if ts = [] ∨ d ≠ decide (op = .and) then d = b
        else decides o c (.boolOp op ts) = .ok b := by
  simp only [decides_ok, eval, evalBool, andThen_ok]
  constructor
  · rintro ⟨v, ⟨u, hu, hr⟩, hb⟩
    split_ifs at hr with hl
    · cases hr
      exact ⟨b, ⟨v, hu, hb⟩, by rw [if_pos (.inl hl)]⟩
    · rw [andThen_ok] at hr
      obtain ⟨d, hd, hg⟩ := hr
      refine ⟨d, ⟨u, hu, hd⟩, ?_⟩
      split_ifs at hg with hgoes
      · rw [if_neg (by rintro (h | h); exacts [hl h, h hgoes])]
        exact ⟨v, hg, hb⟩
      · cases hg
        rw [if_pos (.inr hgoes)]
        exact Except.ok.inj (hd.symm.trans hb)
  · rintro ⟨d, ⟨u, hu, hd⟩, hr⟩
    by_cases hl : ts = []
    · rw [if_pos (.inl hl)] at hr
      exact ⟨u, ⟨u, hu, by rw [if_pos hl]; rfl⟩, hr ▸ hd⟩
    · by_cases hgoes : d = decide (op = .and)
      · rw [if_neg (by rintro (h | h); exacts [hl h, h hgoes])] at hr
        obtain ⟨v, hv, hb⟩ := hr
        refine ⟨v, ⟨u, hu, ?_⟩, hb⟩
        rw [if_neg hl, andThen_ok]
        exact ⟨d, hd, by rw [if_pos hgoes]; exact hv⟩
      · rw [if_pos (.inr hgoes)] at hr
        refine ⟨u, ⟨u, hu, ?_⟩, hr ▸ hd⟩
        rw [if_neg hl, andThen_ok]
        exact ⟨d, hd, by rw [if_neg hgoes]; rfl⟩

/-! ### Numbers -/

def CmpOperator.isOrdering : CmpOperator → Bool
  | .lt | .ltE | .gt | .gtE => true
  | _ => false

def CmpOperator.orders : CmpOperator → PyFloat → PyFloat → Bool
  | .lt, a, b => a.lt b
  | .ltE, a, b => a.le b
  | .gt, a, b => b.lt a
  | .gtE, a, b => b.le a
  | _, _, _ => false

/-- How Python orders numbers: by their exact values, and a number with anything else not at all. -/
structure NumberOrder (o : Objects U) where
  number : Operand U → Option PyFloat
  int : ∀ n, number (.object (o.constant (.int n))) = some (.finite n)
  float : ∀ f, number (.object (o.constant (.float f))) = some f
  compare : ∀ op x y, op.isOrdering = true → (number x).isSome = true ∨ (number y).isSome = true →
    o.compare op x y =
      match number x, number y with
      | some a, some b => .ok (.object (o.constant (.bool (op.orders a b))))
      | _, _ => .error .other
  truth : ∀ b, o.truth (.object (o.constant (.bool b))) = .ok b
  not : ∀ v, o.unary .not v = (o.truth v).map (fun b => .object (o.constant (.bool (!b))))

theorem decides_not (order : NumberOrder o) :
    decides o c (.unaryOp .not t) = .ok b ↔ decides o c t = .ok (!b) := by
  simp only [decides_ok, eval, andThen_ok]
  constructor
  · rintro ⟨v, ⟨u, hu, hn⟩, hb⟩
    refine ⟨u, hu, ?_⟩
    rw [order.not] at hn
    cases ht : o.truth u with
    | error error =>
      rw [ht] at hn
      cases hn
    | ok d =>
      rw [ht] at hn
      cases hn
      rw [order.truth] at hb
      cases hb
      rw [Bool.not_not]
  · rintro ⟨u, hu, ht⟩
    refine ⟨_, ⟨u, hu, ?_⟩, order.truth b⟩
    rw [Evaluation.lift, order.not, ht]
    simp only [Except.map, Bool.not_not]

/-! ### Where a key may stand -/

/-- A key that stands alone on one side. -/
def Ast.soleSide (key : Text) : Ast → Prop
  | .compare left [_] [right] => ¬ (key ∈ left.names ∧ key ∈ right.names)
  | _ => False

mutual

/-- A key only where a change to the side the guard allows makes the condition no less `positive`;
`strict` where its value must exist when it turns. The operands after one the change turns are
`quiet`. -/
def placed (quiet : Ast → Prop) (key : Text) : Bool → Bool → Ast → Prop
  | positive, strict, .boolOp op values => placedAll quiet key positive strict op values
  | positive, strict, .unaryOp .not operand => placed quiet key (!positive) strict operand
  | positive, _, t => key ∈ t.names →
      positive = true ∧ (compareDirectionForKey key t).isSome = true ∧ t.soleSide key

def placedAll (quiet : Ast → Prop) (key : Text) (positive strict : Bool) (op : BoolOperator) :
    List Ast → Prop
  | [] => True
  | t :: ts =>
    placed quiet key positive
      (strict || (decide (positive ≠ decide (op = .and)) && !ts.isEmpty)) t ∧
    (positive = decide (op = .and) → strict = true → key ∈ t.names → ∀ u ∈ ts, quiet u) ∧
    placedAll quiet key positive strict op ts

end

mutual

theorem placed_of_not_mem {quiet : Ast → Prop} {key : Text} {positive strict : Bool} :
    ∀ {t : Ast}, key ∉ t.names → placed quiet key positive strict t
  | .boolOp _ values, h => by
      unfold placed
      exact placedAll_of_not_mem fun u hu hi =>
        h (names_child (mem_cons_of_mem _ hu) hi)
  | .unaryOp .not operand, h => by
      unfold placed
      exact placed_of_not_mem fun hi => h (names_child (by simp [children]) hi)
  | .unaryOp .invert _, h | .unaryOp .uAdd _, h | .unaryOp .uSub _, h | .binOp .., h
  | .compare .., h | .call .., h | .constant _, h | .attribute .., h | .name .., h
  | .construct .., h | .symbol _, h => fun hi => absurd hi h

theorem placedAll_of_not_mem {quiet : Ast → Prop} {key : Text} {positive strict : Bool}
    {op : BoolOperator} : ∀ {ts : List Ast}, (∀ t ∈ ts, key ∉ t.names) →
      placedAll quiet key positive strict op ts
  | [], _ => trivial
  | t :: _, h => ⟨placed_of_not_mem (h t mem_cons_self),
      fun _ _ hi => absurd hi (h t mem_cons_self),
      placedAll_of_not_mem fun u hu => h u (mem_cons_of_mem _ hu)⟩

end

/-- The second value follows the first where it is `positive`, and exists where it is not. -/
def Follows (positive strict : Bool) (r r' : Except EvalError Bool) : Prop :=
  (r = .ok positive → r' = .ok positive) ∧
    (strict = true → r = .ok (!positive) → ∃ b, r' = .ok b)

/-- The second namespace has the moved names elsewhere, on the sides their bounds allow. -/
structure Tuned (order : NumberOrder o) (names : List Text) (moved : Text → Prop)
    (bounds : Text → List Bound) (c c' : EvalContext U) : Prop where
  same : ∀ id ∈ names, ¬ moved id → c.asDict id = c'.asDict id
  shifted : ∀ id ∈ names, moved id → c.asDict id = c'.asDict id ∨ ∃ x x' a b,
    c.asDict id = some x ∧ order.number x = some (.finite a) ∧
    c'.asDict id = some x' ∧ order.number x' = some (.finite b) ∧
    (.upper ∈ bounds id → b ≤ a) ∧ (.lower ∈ bounds id → a ≤ b)

variable {order : NumberOrder o} {names : List Text} {moved : Text → Prop}
  {bounds : Text → List Bound} {quiet : Ast → Prop}

theorem Tuned.carries (h : Tuned order names moved bounds c c') (hc : Checked t)
    (hn : t.names ⊆ names) (hh : historyName ∉ t.names)
    (hf : ∀ id ∈ t.names, ¬ moved id) : Carries o c c' t :=
  carries_of_names hc hh (fun id hi => .inl (h.same id (hn hi) (hf id hi)))

theorem follows_of_carries (h : Carries o c c' t) (positive strict : Bool) :
    Follows positive strict (decides o c t) (decides o c' t) :=
  ⟨fun hr => h.decides hr, fun _ hr => ⟨_, h.decides hr⟩⟩

/-- The two values of one side of an ordering. -/
def Sides (order : NumberOrder o) (c c' : EvalContext U) (ordered : ℚ → ℚ → Prop) (t : Ast) :
    Prop :=
  Carries o c c' t ∨ ∃ x x' a b, (eval o c t).result = .ok x ∧ order.number x = some (.finite a) ∧
    (eval o c' t).result = .ok x' ∧ order.number x' = some (.finite b) ∧ ordered a b

theorem Tuned.name (h : Tuned order names moved bounds c c') {id : Text} (hi : id ∈ names)
    (hm : moved id)
    (ho : ∀ a b, (.upper ∈ bounds id → b ≤ a) → (.lower ∈ bounds id → a ≤ b) →
      ordered a b) : Sides order c c' ordered (.name id .load) := by
  have hload : ∀ c : EvalContext U,
      (eval o c (.name id .load)).result = loadName o c id .load := fun _ => rfl
  unfold loadName at hload
  simp only [ne_eq, not_true_eq_false, if_false] at hload
  by_cases hd : id = debugName
  · simp only [if_pos hd] at hload
    refine .inl fun v hv => ?_
    rw [hload] at hv ⊢
    exact hv
  simp only [if_neg hd] at hload
  rcases h.shifted id hi hm with hs | ⟨x, x', a, b, hx, ha, hx', hb, hu, hl⟩
  · refine .inl fun v hv => ?_
    rw [hload] at hv ⊢
    rwa [← hs]
  · refine .inr ⟨x, x', a, b, ?_, ha, ?_, hb, ho a b hu hl⟩
    · rw [hload, hx]
    · rw [hload, hx']

theorem isNamed_iff {key : Text} : t.isNamed key = true ↔ ∃ ctx, t = .name key ctx := by
  cases t with
  | name id ctx | _ => simp [Ast.isNamed]

theorem Tuned.sides (h : Tuned order names moved bounds c c') (hc : Checked t)
    (hn : t.names ⊆ names) (hh : historyName ∉ t.names)
    (hp : ∀ id, moved id → id ∈ t.names → t.isNamed id = true)
    (ho : ∀ id, moved id → t.isNamed id = true → ∀ a b,
      (.upper ∈ bounds id → b ≤ a) → (.lower ∈ bounds id → a ≤ b) → ordered a b) :
    Sides order c c' ordered t := by
  by_cases hf : ∀ id ∈ t.names, ¬ moved id
  · exact .inl (h.carries hc hn hh hf)
  push Not at hf
  obtain ⟨id, hi, hm⟩ := hf
  have hnm := hp id hm hi
  obtain ⟨ctx, rfl⟩ := isNamed_iff.mp hnm
  cases hc.load
  exact h.name (hn hi) hm (ho id hm hnm)

theorem Sides.next (h : Sides order c c' ordered t) (hv : (eval o c t).result = .ok v) :
    ∃ v', (eval o c' t).result = .ok v' ∧ (v' = v ∨ ∃ a b,
      order.number v = some (.finite a) ∧ order.number v' = some (.finite b) ∧ ordered a b) := by
  rcases h with hc | ⟨x, x', a, b, hx, ha, hx', hb, hab⟩
  · exact ⟨v, hc v hv, .inl rfl⟩
  · cases hx.symm.trans hv
    exact ⟨x', hx', .inr ⟨a, b, ha, hb, hab⟩⟩

variable {left right : Ast}

theorem decides_compare {op : CmpOperator} {d : Bool} :
    decides o c (.compare left [op] [right]) = .ok d ↔ ∃ l r u, (eval o c left).result = .ok l ∧
      (eval o c right).result = .ok r ∧ o.compare op l r = .ok u ∧ o.truth u = .ok d := by
  simp only [decides_ok, eval, andThen_ok, evalCompare]
  constructor
  · rintro ⟨v, ⟨l, hl, r, hr, u, hu, hv⟩, hd⟩
    cases hv
    exact ⟨l, r, v, hl, hr, hu, hd⟩
  · rintro ⟨l, r, u, hl, hr, hu, hd⟩
    exact ⟨u, ⟨l, hl, r, hr, u, hu, rfl⟩, hd⟩

/-- The sides on which the left and the right of an ordering may move. -/
def leftMoves : CmpOperator → ℚ → ℚ → Prop
  | .lt, a, b | .ltE, a, b => b ≤ a
  | .gt, a, b | .gtE, a, b => a ≤ b
  | _, _, _ => True

def rightMoves : CmpOperator → ℚ → ℚ → Prop
  | .lt, a, b | .ltE, a, b => a ≤ b
  | .gt, a, b | .gtE, a, b => b ≤ a
  | _, _, _ => True

def AtMost (f g : PyFloat) : Prop := f = g ∨ ∃ a b, f = .finite a ∧ g = .finite b ∧ a ≤ b

theorem lt_mono (hf : AtMost f' f) (hg : AtMost g g') (h : f.lt g = true) : f'.lt g' = true := by
  rcases hf with rfl | ⟨a', a, rfl, rfl, ha⟩ <;> rcases hg with rfl | ⟨b, b', rfl, rfl, hb⟩
  · exact h
  · cases f' with
    | finite q =>
      simp only [PyFloat.lt, decide_eq_true_eq] at h ⊢
      exact lt_of_lt_of_le h hb
    | negInf => rfl
    | posInf | nan => cases h
  · cases g with
    | finite q =>
      simp only [PyFloat.lt, decide_eq_true_eq] at h ⊢
      exact lt_of_le_of_lt ha h
    | posInf => rfl
    | negInf | nan => cases h
  · simp only [PyFloat.lt, decide_eq_true_eq] at h ⊢
    exact lt_of_le_of_lt ha (lt_of_lt_of_le h hb)

theorem le_mono (hf : AtMost f' f) (hg : AtMost g g') (h : f.le g = true) : f'.le g' = true := by
  rcases hf with rfl | ⟨a', a, rfl, rfl, ha⟩ <;> rcases hg with rfl | ⟨b, b', rfl, rfl, hb⟩
  · exact h
  · cases f' with
    | finite q =>
      simp only [PyFloat.le, decide_eq_true_eq] at h ⊢
      exact le_trans h hb
    | negInf => rfl
    | posInf | nan => cases h
  · cases g with
    | finite q =>
      simp only [PyFloat.le, decide_eq_true_eq] at h ⊢
      exact le_trans ha h
    | posInf => rfl
    | negInf | nan => cases h
  · simp only [PyFloat.le, decide_eq_true_eq] at h ⊢
    exact le_trans ha (le_trans h hb)

theorem orders_mono {op : CmpOperator} (ho : op.isOrdering = true)
    (hf : f' = f ∨ ∃ a b, f = .finite a ∧ f' = .finite b ∧ leftMoves op a b)
    (hg : g' = g ∨ ∃ a b, g = .finite a ∧ g' = .finite b ∧ rightMoves op a b)
    (h : op.orders f g = true) : op.orders f' g' = true := by
  have hdown : ∀ {x x' : PyFloat}, (x' = x ∨ ∃ a b, x = .finite a ∧ x' = .finite b ∧ b ≤ a) →
      AtMost x' x := by
    rintro x x' (rfl | ⟨a, b, hx, hx', hb⟩)
    · exact .inl rfl
    · exact .inr ⟨b, a, hx', hx, hb⟩
  have hu : ∀ {x x' : PyFloat}, (x' = x ∨ ∃ a b, x = .finite a ∧ x' = .finite b ∧ a ≤ b) →
      AtMost x x' := by
    rintro x x' (rfl | ⟨a, b, hx, hx', ha⟩)
    · exact .inl rfl
    · exact .inr ⟨a, b, hx, hx', ha⟩
  cases op with
  | lt => exact lt_mono (hdown hf) (hu hg) h
  | ltE => exact le_mono (hdown hf) (hu hg) h
  | gt => exact lt_mono (hdown hg) (hu hf) h
  | gtE => exact le_mono (hdown hg) (hu hf) h
  | _ => cases ho

theorem follows_compare {op : CmpOperator} (ho : op.isOrdering = true)
    (hlf : Sides order c c' (leftMoves op) left) (hri : Sides order c c' (rightMoves op) right)
    (strict : Bool) : Follows true strict (decides o c (.compare left [op] [right]))
      (decides o c' (.compare left [op] [right])) := by
  have hboth : ∀ d, decides o c (.compare left [op] [right]) = .ok d →
      ∃ d', decides o c' (.compare left [op] [right]) = .ok d' ∧ (d = true → d' = true) := by
    intro d hd
    obtain ⟨l, r, u, hl, hr, hu, ht⟩ := decides_compare.mp hd
    obtain ⟨l', hl', hlf'⟩ := hlf.next hl
    obtain ⟨r', hr', hi'⟩ := hri.next hr
    by_cases hs : l' = l ∧ r' = r
    · obtain ⟨rfl, rfl⟩ := hs
      exact ⟨d, decides_compare.mpr ⟨l', r', u, hl', hr', hu, ht⟩, id⟩
    have hn : ((order.number l).isSome = true ∨ (order.number r).isSome = true) ∧
        ((order.number l').isSome = true ∨ (order.number r').isSome = true) := by
      rcases hlf' with rfl | ⟨a, b, ha, hb, -⟩
      · rcases hi' with rfl | ⟨a, b, ha, hb, -⟩
        · exact absurd ⟨rfl, rfl⟩ hs
        · exact ⟨.inr (by rw [ha]; rfl), .inr (by rw [hb]; rfl)⟩
      · exact ⟨.inl (by rw [ha]; rfl), .inl (by rw [hb]; rfl)⟩
    rw [order.compare op l r ho hn.1] at hu
    have hc := order.compare op l' r' ho hn.2
    cases hf : order.number l with
    | none =>
      rw [hf] at hu
      cases hu
    | some f =>
    cases hg : order.number r with
    | none =>
      rw [hf, hg] at hu
      cases hu
    | some g =>
      rw [hf, hg] at hu
      cases hu
      obtain ⟨f', hf', hmoveLeft⟩ : ∃ f', order.number l' = some f' ∧
          (f' = f ∨ ∃ a b, f = .finite a ∧ f' = .finite b ∧ leftMoves op a b) := by
        rcases hlf' with rfl | ⟨a, b, ha, hb, hab⟩
        · exact ⟨f, hf, .inl rfl⟩
        · exact ⟨_, hb, .inr ⟨a, b, Option.mem_unique hf ha, rfl, hab⟩⟩
      obtain ⟨g', hg', hmoveRight⟩ : ∃ g', order.number r' = some g' ∧
          (g' = g ∨ ∃ a b, g = .finite a ∧ g' = .finite b ∧ rightMoves op a b) := by
        rcases hi' with rfl | ⟨a, b, ha, hb, hab⟩
        · exact ⟨g, hg, .inl rfl⟩
        · exact ⟨_, hb, .inr ⟨a, b, Option.mem_unique hg ha, rfl, hab⟩⟩
      rw [hf', hg'] at hc
      rw [order.truth] at ht
      cases ht
      exact ⟨_, decides_compare.mpr ⟨l', r', _, hl', hr', hc, order.truth _⟩,
        orders_mono ho hmoveLeft hmoveRight⟩
  refine ⟨fun hr => ?_, fun _ hr => ?_⟩
  · obtain ⟨d', hd', hi⟩ := hboth true hr
    rw [hd', hi rfl]
  · obtain ⟨d', hd', -⟩ := hboth false hr
    exact ⟨d', hd'⟩

/-! ### A placed condition follows its keys -/

theorem bounds_of_named {key : Text} {op : CmpOperator}
    (hd : (compareDirectionForKey key (.compare left [op] [right])).isSome = true) :
    op.isOrdering = true ∧ (left.isNamed key = true ∨ right.isNamed key = true) ∧
    (left.isNamed key = true → compareDirectionForKey key (.compare left [op] [right]) =
      some (if op = .lt ∨ op = .ltE then .upper else .lower)) ∧
    (right.isNamed key = true → compareDirectionForKey key (.compare left [op] [right]) =
      some (if op = .lt ∨ op = .ltE then .lower else .upper)) := by
  unfold compareDirectionForKey at hd ⊢
  cases hl : left.isNamed key <;> cases hr : right.isNamed key <;> cases op <;>
    simp_all [CmpOperator.isOrdering]

theorem Tuned.leaf (h : Tuned order names moved bounds c c') (hc : Checked t)
    (hs : t.names ⊆ names) (hh : historyName ∉ t.names)
    (hp : ∀ key, moved key → key ∈ t.names → positive = true ∧
      (compareDirectionForKey key t).isSome = true ∧ t.soleSide key)
    (hb : ∀ key b, moved key → compareDirectionForKey key t = some b → b ∈ bounds key) :
    Follows positive strict (decides o c t) (decides o c' t) := by
  by_cases hfr : ∀ id ∈ t.names, ¬ moved id
  · exact follows_of_carries (h.carries hc hs hh hfr) positive strict
  push Not at hfr
  obtain ⟨key, hk, hm⟩ := hfr
  obtain ⟨rfl, hd, -⟩ := hp key hm hk
  obtain ⟨left, op, right, rfl⟩ : ∃ left op right, t = .compare left [op] [right] := by
    unfold compareDirectionForKey at hd
    split at hd
    · exact ⟨_, _, _, rfl⟩
    · cases hd
  have hop := (bounds_of_named hd).1
  have hf : left ∈ children (.compare left [op] [right]) := mem_cons_self
  have hr : right ∈ children (.compare left [op] [right]) := by simp [children]
  have ha : ∀ {u : Ast} {id : Text}, u.isNamed id = true → id ∈ u.names := by
    intro u id hu
    obtain ⟨ctx, rfl⟩ := isNamed_iff.mp hu
    exact mem_names_self id ctx
  have hsideLeft : Sides order c c' (leftMoves op) left := by
    refine h.sides (hc.child hf) (fun id hid => hs (names_child hf hid))
      (fun hi => hh (names_child hf hi)) ?_ ?_
    · intro id hid hi
      obtain ⟨-, ho, hsole⟩ := hp id hid (names_child hf hi)
      rcases (bounds_of_named ho).2.1 with hn | hn
      · exact hn
      · exact absurd ⟨hi, ha hn⟩ hsole
    · intro id hid hn a b hup hl
      obtain ⟨-, ho, -⟩ := hp id hid (names_child hf (ha hn))
      have hi := hb id _ hid ((bounds_of_named ho).2.2.1 hn)
      cases op with
      | lt | ltE => exact hup hi
      | gt | gtE => exact hl hi
      | _ => cases hop
  have hsideRight : Sides order c c' (rightMoves op) right := by
    refine h.sides (hc.child hr) (fun id hid => hs (names_child hr hid))
      (fun hi => hh (names_child hr hi)) ?_ ?_
    · intro id hid hi
      obtain ⟨-, ho, hsole⟩ := hp id hid (names_child hr hi)
      rcases (bounds_of_named ho).2.1 with hn | hn
      · exact absurd ⟨ha hn, hi⟩ hsole
      · exact hn
    · intro id hid hn a b hup hl
      obtain ⟨-, ho, -⟩ := hp id hid (names_child hr (ha hn))
      have hi := hb id _ hid ((bounds_of_named ho).2.2.2 hn)
      cases op with
      | lt | ltE => exact hl hi
      | gt | gtE => exact hup hi
      | _ => cases hop
  exact follows_compare hop hsideLeft hsideRight strict

theorem decides_all_ok (hn : ts ≠ []) (h : ∀ t ∈ ts, ∃ b, decides o c t = .ok b) :
    ∃ b, decides o c (.boolOp op ts) = .ok b := by
  induction ts with
  | nil => exact absurd rfl hn
  | cons t ts ih =>
    obtain ⟨d, hd⟩ := h t mem_cons_self
    by_cases hstop : ts = [] ∨ d ≠ decide (op = .and)
    · exact ⟨d, decides_boolOp.mpr ⟨d, hd, by rw [if_pos hstop]⟩⟩
    · obtain ⟨b, hb⟩ := ih (fun he => hstop (.inl he)) (fun u hu => h u (mem_cons_of_mem _ hu))
      exact ⟨b, decides_boolOp.mpr ⟨d, hd, by rw [if_neg hstop]; exact hb⟩⟩

theorem Tuned.boolOp (hp : ∀ key, moved key → placedAll quiet key positive strict op ts)
    (hq : ∀ u ∈ ts, quiet u → ∃ b, decides o c' u = .ok b)
    (hfr : ∀ u ∈ ts, (∀ id ∈ u.names, ¬ moved id) → Carries o c c' u)
    (hc : ∀ u ∈ ts, ∀ s, (∀ key, moved key → placed quiet key positive s u) →
      Follows positive s (decides o c u) (decides o c' u)) :
    Follows positive strict (decides o c (.boolOp op ts)) (decides o c' (.boolOp op ts)) := by
  induction ts with
  | nil =>
    have ho : ∀ b, decides o c (.boolOp op []) ≠ .ok b := nofun
    exact ⟨fun hr => absurd hr (ho _), fun _ hr => absurd hr (ho _)⟩
  | cons t ts ih =>
    have hrs := ih (fun key hk => (hp key hk).2.2) (fun u hu => hq u (mem_cons_of_mem _ hu))
      (fun u hu => hfr u (mem_cons_of_mem _ hu))
      (fun u hu => hc u (mem_cons_of_mem _ hu))
    have hh := hc t mem_cons_self _ (fun key hk => (hp key hk).1)
    have hlt : positive = decide (op = .and) → strict = true →
        decides o c t = .ok (!positive) → decides o c' t = .ok positive → ts ≠ [] →
          ∃ b, decides o c' (.boolOp op ts) = .ok b := by
      intro hm hst hf htr he
      by_cases hnone : ∀ id ∈ t.names, ¬ moved id
      · have hsm := (hfr t mem_cons_self hnone).decides hf
        rw [htr] at hsm
        cases positive <;> cases hsm
      · push Not at hnone
        obtain ⟨key, hk, hv⟩ := hnone
        exact decides_all_ok he fun u hu => hq u (mem_cons_of_mem _ hu)
          ((hp key hv).2.1 hm hst hk u hu)
    have hg : ∀ {c : EvalContext U} {d b : Bool}, decides o c t = .ok d → ts ≠ [] →
        d = decide (op = .and) → decides o c (.boolOp op ts) = .ok b →
          decides o c (.boolOp op (t :: ts)) = .ok b := by
      intro c d b hd he hand hb
      refine decides_boolOp.mpr ⟨d, hd, ?_⟩
      rw [if_neg (by rintro (h | h); exacts [he h, h hand])]
      exact hb
    have hstop : ∀ {c : EvalContext U} {d : Bool}, decides o c t = .ok d →
        (ts = [] ∨ d ≠ decide (op = .and)) → decides o c (.boolOp op (t :: ts)) = .ok d := by
      intro c d hd hor
      exact decides_boolOp.mpr ⟨d, hd, by rw [if_pos hor]⟩
    by_cases hm : positive = decide (op = .and)
    · rw [decide_eq_false (not_not.mpr hm), Bool.false_and, Bool.or_false] at hh
      refine ⟨fun hr => ?_, fun hst hr => ?_⟩
      · obtain ⟨d, hd, ha⟩ := decides_boolOp.mp hr
        split_ifs at ha with hs
        · subst ha
          exact hstop (hh.1 hd) hs
        · obtain ⟨he, hand⟩ := not_or.mp hs
          cases hm.trans (not_not.mp hand).symm
          exact hg (hh.1 hd) he hm (hrs.1 ha)
      · obtain ⟨d, hd, ha⟩ := decides_boolOp.mp hr
        split_ifs at ha with hs
        · subst ha
          obtain ⟨b, hb⟩ := hh.2 hst hd
          by_cases hl : ts = []
          · exact ⟨b, hstop hb (.inl hl)⟩
          by_cases hturn : b = positive
          · subst hturn
            obtain ⟨d', hd'⟩ := hlt hm hst hd hb hl
            exact ⟨d', hg hb hl hm hd'⟩
          · exact ⟨b, hstop hb (.inr (hm ▸ hturn))⟩
        · obtain ⟨he, hand⟩ := not_or.mp hs
          cases hm.trans (not_not.mp hand).symm
          obtain ⟨b, hb⟩ := hrs.2 hst ha
          exact ⟨b, hg (hh.1 hd) he hm hb⟩
    · have hn : decide (op = .and) = !positive := by
        cases positive <;> cases hop : decide (op = .and) <;> simp_all
      -- an operand before the last may be passed over, so its value must exist
      have ht : ts ≠ [] → decides o c t = .ok (!positive) → ∃ b, decides o c' t = .ok b := by
        intro he
        refine hh.2 ?_
        rw [decide_eq_true hm, Bool.true_and]
        cases ts with
        | nil => exact absurd rfl he
        | cons => rw [isEmpty_cons, Bool.not_false, Bool.or_true]
      refine ⟨fun hr => ?_, fun hst hr => ?_⟩
      · obtain ⟨d, hd, ha⟩ := decides_boolOp.mp hr
        split_ifs at ha with hs
        · subst ha
          exact hstop (hh.1 hd) hs
        · obtain ⟨he, hand⟩ := not_or.mp hs
          have hd' : d = !positive := (not_not.mp hand).trans hn
          subst hd'
          obtain ⟨b, hb⟩ := ht he hd
          by_cases hturn : b = positive
          · subst hturn
            exact hstop hb (.inr hm)
          · have hb' : b = !positive := by cases b <;> cases positive <;> simp_all
            exact hg hb he (hb'.trans hn.symm) (hrs.1 ha)
      · obtain ⟨d, hd, ha⟩ := decides_boolOp.mp hr
        split_ifs at ha with hs
        · subst ha
          have hl : ts = [] := hs.resolve_right (not_not.mpr hn.symm)
          obtain ⟨b, hb⟩ := hh.2 (by rw [hst, Bool.true_or]) hd
          exact ⟨b, hstop hb (.inl hl)⟩
        · obtain ⟨he, hand⟩ := not_or.mp hs
          have hd' : d = !positive := (not_not.mp hand).trans hn
          subst hd'
          obtain ⟨b, hb⟩ := ht he hd
          by_cases hturn : b = positive
          · subst hturn
            exact ⟨b, hstop hb (.inr hm)⟩
          · have hb' : b = !positive := by cases b <;> cases positive <;> simp_all
            obtain ⟨b', hru⟩ := hrs.2 hst ha
            exact ⟨b', hg hb he (hb'.trans hn.symm) hru⟩

theorem Tuned.follows (h : Tuned order names moved bounds c c') (hc : Checked t)
    (hs : t.names ⊆ names) (hh : historyName ∉ t.names)
    (hl : ∀ key, moved key → placed quiet key positive strict t)
    (ho : ∀ key b m, moved key → Within m t → compareDirectionForKey key m = some b →
      b ∈ bounds key) (hq : ∀ m, Within m t → quiet m → ∃ b, decides o c' m = .ok b) :
    Follows positive strict (decides o c t) (decides o c' t) := by
  induction t using Ast.sizeInduction generalizing positive strict with
  | h t ih =>
    have hch : ∀ u ∈ t.children, ∀ p s, (∀ key, moved key → placed quiet key p s u) →
        Follows p s (decides o c u) (decides o c' u) := fun u hu p s hp =>
      ih u (size_child_lt hu) (hc.child hu) (fun id hd => hs (names_child hu hd))
        (fun hi => hh (names_child hu hi)) hp
        (fun key b m hk hm => ho key b m hk (.child hu hm))
        (fun m hm => hq m (.child hu hm))
    have hleaf : (∀ key, moved key → key ∈ t.names → positive = true ∧
        (compareDirectionForKey key t).isSome = true ∧ t.soleSide key) →
        Follows positive strict (decides o c t) (decides o c' t) := fun hp =>
      h.leaf hc hs hh hp (fun key b hk => ho key b t hk .self)
    cases t with
    | boolOp op values =>
      have hi : ∀ u ∈ values, u ∈ children (.boolOp op values) := fun u hu => mem_cons_of_mem _ hu
      have hplaceAll : ∀ key, moved key → placedAll quiet key positive strict op values := hl
      refine Tuned.boolOp hplaceAll ?_ ?_ ?_
      · exact fun u hu => hq u (.child (hi u hu) .self)
      · exact fun u hu hfr => h.carries (hc.child (hi u hu))
          (fun id hd => hs (names_child (hi u hu) hd))
          (fun hd => hh (names_child (hi u hu) hd)) hfr
      · exact fun u hu s hp => hch u (hi u hu) positive s hp
    | unaryOp op operand =>
      cases op with
      | not =>
        obtain ⟨htr, hf⟩ := hch operand (by simp [children]) (!positive) strict hl
        refine ⟨fun hr => ?_, fun ht hr => ?_⟩
        · exact (decides_not order).mpr (htr ((decides_not order).mp hr))
        · obtain ⟨b, hb⟩ := hf ht ((decides_not order).mp hr)
          exact ⟨!b, (decides_not order).mpr (by rwa [Bool.not_not])⟩
      | _ => exact hleaf hl
    | _ => exact hleaf hl

end

end OriRuntime
