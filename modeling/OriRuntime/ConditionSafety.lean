import OriRuntime.RuleEvaluation

/-!
# What a checked condition can do

The check walks every node of a condition, so a checked one is built of the whitelisted classes,
with attributes of the history object only. Its calls are the helpers of that object, since the second
pass names them; an attribute that is not called it does not look at.
-/

namespace OriRuntime

open List

namespace Ast

/-! ### Nodes -/

theorem size_pos (t : Ast) : 0 < t.size := by
  cases t <;> simp only [size] <;> omega

theorem sizes_append (ts us : List Ast) : sizes (ts ++ us) = sizes ts + sizes us := by
  induction ts with
  | nil => simp [sizes]
  | cons t ts ih =>
    rw [cons_append, sizes, sizes]
    omega

variable {t : Ast}

theorem size_le_sizes {ts : List Ast} (h : t ∈ ts) : t.size ≤ sizes ts := by
  induction ts with
  | nil => cases h
  | cons u ts ih =>
    rw [sizes]
    rcases mem_cons.mp h with rfl | h
    · omega
    · have := ih h
      omega

theorem sizes_symbols (ops : List CmpOperator) :
    sizes (ops.map (fun op => Ast.symbol (.compare op))) = ops.length := by
  induction ops with
  | nil => rfl
  | cons op ops ih =>
    rw [map_cons, sizes, length_cons, size]
    omega

theorem size_eq (t : Ast) : t.size = sizes t.children + 1 := by
  cases t <;> simp only [size, children, sizes, sizes_append, sizes_symbols] <;> omega

theorem size_child_lt {u : Ast} (h : u ∈ t.children) : u.size < t.size := by
  have := size_le_sizes h
  rw [size_eq t]
  omega

/-- The nodes of a tree. -/
inductive Within (m : Ast) : Ast → Prop where
  | self : Within m m
  | child {t u : Ast} : u ∈ t.children → Within m u → Within m t

variable {m : Ast}

theorem within_iff : Within m t ↔ m = t ∨ ∃ u ∈ t.children, Within m u := by
  constructor
  · rintro (_ | ⟨hu, h⟩)
    · exact .inl rfl
    · exact .inr ⟨_, hu, h⟩
  · rintro (rfl | ⟨u, hu, h⟩)
    · exact .self
    · exact .child hu h

theorem mem_walkFrom (fuel : ℕ) (queue : List Ast) (h : sizes queue ≤ fuel) :
    m ∈ walkFrom fuel queue ↔ ∃ t ∈ queue, Within m t := by
  induction fuel generalizing queue with
  | zero =>
    cases queue with
    | nil => simp [walkFrom]
    | cons t queue =>
      rw [sizes] at h
      have := size_pos t
      omega
  | succ fuel ih =>
    cases queue with
    | nil => simp [walkFrom]
    | cons t queue =>
      have hs : sizes (queue ++ t.children) ≤ fuel := by
        rw [sizes, size_eq] at h
        rw [sizes_append]
        omega
      rw [walkFrom, mem_cons, ih _ hs]
      constructor
      · rintro (rfl | ⟨u, hu, hm⟩)
        · exact ⟨m, mem_cons_self, .self⟩
        rcases mem_append.mp hu with hu | hu
        · exact ⟨u, mem_cons_of_mem _ hu, hm⟩
        · exact ⟨t, mem_cons_self, .child hu hm⟩
      · rintro ⟨u, hu, hm⟩
        rcases mem_cons.mp hu with rfl | hu
        · rcases within_iff.mp hm with rfl | ⟨v, hv, hm⟩
          · exact .inl rfl
          · exact .inr ⟨v, mem_append_right _ hv, hm⟩
        · exact .inr ⟨u, mem_append_left _ hu, hm⟩

theorem mem_walk : m ∈ t.walk ↔ Within m t := by
  unfold walk
  rw [mem_walkFrom]
  · simp
  · simp [sizes]

end Ast

open Ast

/-! ### Checked conditions -/

/-- Every node passes, and every history call is valid. -/
def Checked (t : Ast) : Prop :=
  ∀ m, Within m t → m.refusal = none ∧
    ∀ r, m.historyCall = some r → ∃ key, r = .ok key

variable {t : Ast} {a : Access}

theorem Checked.child {u : Ast} (h : Checked t) (hu : u ∈ t.children) : Checked u :=
  fun m hm => h m (.child hu hm)

theorem mapM_id_ok {α ε : Type*} {xs : List (Except ε α)} {ys : List α} (h : xs.mapM id = .ok ys) :
    ∀ x ∈ xs, ∃ y, x = .ok y := by
  induction xs generalizing ys with
  | nil => intro x hx; cases hx
  | cons x xs ih =>
    rw [mapM_cons] at h
    cases x with
    | error e => cases h
    | ok y =>
      cases hr : xs.mapM id with
      | error e =>
        rw [hr] at h
        cases h
      | ok zs =>
        intro z hz
        rcases mem_cons.mp hz with rfl | hz
        · exact ⟨y, rfl⟩
        · exact ih hr z hz

theorem checked_of_validated {parse : Text → Except ParseFailure Ast} {condition : Text}
    {calls : List HistoryKey} (hp : parse condition = .ok t)
    (h : validatedHistoryCalls parse condition = .ok calls) : Checked t := by
  unfold validatedHistoryCalls at h
  split_ifs at h
  rw [hp] at h
  dsimp only at h
  unfold checkSafetyAst extractHistoryCalls at h
  cases hf : t.walk.findSome? Ast.refusal with
  | some error =>
    rw [hf] at h
    cases h
  | none =>
    rw [hf] at h
    intro m hm
    have hwalk := mem_walk.mpr hm
    refine ⟨List.findSome?_eq_none_iff.mp hf m hwalk, ?_⟩
    intro r hr
    exact mapM_id_ok h r (mem_filterMap.mpr ⟨m, hwalk, hr⟩)

theorem Checked.call {func : Ast} {args keywords : List Ast}
    (h : Checked (.call func args keywords)) :
    ∃ value attr ctx, func = .attribute value attr ctx ∧ value.isHistory = true ∧
      (attr = text "avg_24h" ∨ attr = text "last_n") ∧ keywords = [] ∧
      (args.mapM literalEval).isSome = true := by
  obtain ⟨hr, hc⟩ := h _ .self
  cases func with
  | «attribute» value attr ctx =>
    have hh : value.isHistory = true := by
      have hr : (if value.isHistory then none else some SafetyError.forbiddenCall) = none := hr
      by_contra hn
      rw [if_neg hn] at hr
      cases hr
    have hk : (Ast.call (.attribute value attr ctx) args keywords).historyCall =
        some (historyKey attr args keywords) := if_pos hh
    obtain ⟨key, ho⟩ := hc _ hk
    refine ⟨value, attr, ctx, rfl, hh, ?_⟩
    unfold historyKey at ho
    split at ho <;> rename_i hattr
    · cases ho
    split at ho <;> rename_i hkeyw
    · cases ho
    refine ⟨?_, not_not.mp hkeyw, ?_⟩
    · by_contra hn
      exact hattr (not_or.mp hn)
    · cases hm : args.mapM literalEval with
      | none =>
        rw [hm] at ho
        cases ho
      | some literals => rfl
  | _ => cases hr

theorem Checked.attribute {value : Ast} {attr : Text} {ctx : ExprContext}
    (h : Checked (.attribute value attr ctx)) : value.isHistory = true := by
  have hr : (if value.isHistory then none else some SafetyError.forbiddenAttribute) = none :=
    (h _ .self).1
  by_contra hn
  rw [if_neg hn] at hr
  cases hr

theorem Checked.construct {kind : Construct} {children : List Ast}
    (h : Checked (.construct kind children)) : False := by
  have hr := (h _ .self).1
  cases hr

theorem Checked.load {id : Text} {ctx : ExprContext} (h : Checked (.name id ctx)) :
    ctx = .load := by
  have hs := (h (.symbol (.context ctx)) (.child mem_cons_self .self)).1
  cases ctx with
  | load => rfl
  | store | del => cases hs

/-! ### Accesses of an evaluation -/

variable {U : Type*} {o : Objects U} {c : EvalContext U}

variable {ts : List Ast}

theorem mem_performsAll : a ∈ performsAll c ts ↔ ∃ t ∈ ts, a ∈ performs c t := by
  induction ts with
  | nil => simp [performsAll]
  | cons t ts ih => simp [performsAll, ih]

namespace Evaluation

variable {α β : Type*}

theorem mem_andThen {e : Evaluation α} {f : α → Evaluation β} {a : Access}
    (h : a ∈ (e.andThen f).accesses) : a ∈ e.accesses ∨ ∃ v, a ∈ (f v).accesses := by
  unfold andThen at h
  split at h
  · rename_i v _
    rcases mem_append.mp h with h | h
    · exact .inl h
    · exact .inr ⟨v, h⟩
  · exact .inl h

end Evaluation

open Evaluation

theorem evalBool_performs {op : BoolOperator}
    (h : ∀ t ∈ ts, ∀ a ∈ (eval o c t).accesses, a ∈ performs c t)
    (ha : a ∈ (evalBool o c op ts).accesses) : a ∈ performsAll c ts := by
  induction ts with
  | nil => cases ha
  | cons t ts ih =>
    rcases mem_andThen ha with ha | ⟨v, ha⟩
    · exact mem_performsAll.mpr ⟨t, mem_cons_self, h t mem_cons_self a ha⟩
    split_ifs at ha
    · cases ha
    rcases mem_andThen ha with ha | ⟨b, ha⟩
    · cases ha
    split_ifs at ha
    · rw [performsAll]
      exact mem_append_right _ (ih (fun u hu => h u (mem_cons_of_mem _ hu)) ha)
    · cases ha

theorem evalCompare_performs (h : ∀ t ∈ ts, ∀ a ∈ (eval o c t).accesses, a ∈ performs c t)
    {left : Operand U} {ops : List CmpOperator} (ha : a ∈ (evalCompare o c left ops ts).accesses) :
    a ∈ performsAll c ts := by
  induction ts generalizing left ops with
  | nil => cases ops <;> cases ha
  | cons t ts ih =>
    cases ops with
    | nil => cases ha
    | cons op ops =>
      rcases mem_andThen ha with ha | ⟨right, ha⟩
      · exact mem_performsAll.mpr ⟨t, mem_cons_self, h t mem_cons_self a ha⟩
      rcases mem_andThen ha with ha | ⟨v, ha⟩
      · cases ha
      split_ifs at ha
      · cases ha
      rcases mem_andThen ha with ha | ⟨b, ha⟩
      · cases ha
      split_ifs at ha
      · rw [performsAll]
        exact mem_append_right _ (ih (fun u hu => h u (mem_cons_of_mem _ hu)) ha)
      · cases ha

theorem evalAll_performs (h : ∀ t ∈ ts, ∀ a ∈ (eval o c t).accesses, a ∈ performs c t)
    (ha : a ∈ (evalAll o c ts).accesses) : a ∈ performsAll c ts := by
  induction ts with
  | nil => cases ha
  | cons t ts ih =>
    rcases mem_andThen ha with ha | ⟨v, ha⟩
    · exact mem_append_left _ (h t mem_cons_self a ha)
    rcases mem_andThen ha with ha | ⟨vs, ha⟩
    · exact mem_append_right _ (ih (fun u hu => h u (mem_cons_of_mem _ hu)) ha)
    · cases ha

theorem Ast.sizeInduction {P : Ast → Prop}
    (h : ∀ t : Ast, (∀ u : Ast, u.size < t.size → P u) → P t) (t : Ast) : P t :=
  (measure Ast.size).wf.induction t h

theorem Ast.size_callee_lt (value : Ast) (attr : Text) (ctx : ExprContext)
    (args keywords : List Ast) :
    value.size < (Ast.call (.attribute value attr ctx) args keywords).size := by
  rw [size, size]
  omega

theorem eval_performs (o : Objects U) (c : EvalContext U) (t : Ast) :
    ∀ a ∈ (eval o c t).accesses, a ∈ performs c t := by
  induction t using Ast.sizeInduction with
  | h t ih =>
    have hc : ∀ u ∈ t.children, ∀ a ∈ (eval o c u).accesses, a ∈ performs c u :=
      fun u hu => ih u (size_child_lt hu)
    intro a ha
    cases t with
    | constant value | symbol s => cases ha
    | name id ctx | construct kind children => exact ha
    | boolOp op values =>
      exact evalBool_performs (fun u hu => hc u (mem_cons_of_mem _ hu)) ha
    | binOp left op right =>
      rw [performs, mem_append]
      rcases mem_andThen ha with ha | ⟨l, ha⟩
      · exact .inl (hc left (by simp [children]) a ha)
      rcases mem_andThen ha with ha | ⟨r, ha⟩
      · exact .inr (hc right (by simp [children]) a ha)
      · cases ha
    | unaryOp op operand =>
      rcases mem_andThen ha with ha | ⟨v, ha⟩
      · exact hc operand (by simp [children]) a ha
      · cases ha
    | compare left ops comparators =>
      rw [performs, mem_append]
      rcases mem_andThen ha with ha | ⟨l, ha⟩
      · exact .inl (hc left (by simp [children]) a ha)
      · refine .inr (evalCompare_performs (fun u hu => hc u ?_) ha)
        exact mem_cons_of_mem _ (mem_append_right _ hu)
    | «attribute» value attr ctx =>
      rw [performs, mem_append]
      rcases mem_andThen ha with ha | ⟨v, ha⟩
      · exact .inl (hc value (by simp [children]) a ha)
      · exact .inr ha
    | call func args keywords =>
      have hargs : ∀ b, b ∈ (evalAll o c args).accesses → b ∈ performsAll c args := by
        intro b hb
        refine evalAll_performs (fun u hu => hc u ?_) hb
        exact mem_cons_of_mem _ (mem_append_left _ hu)
      by_cases hfunc : ∃ value attr ctx, func = .attribute value attr ctx
      · obtain ⟨value, attr, ctx, rfl⟩ := hfunc
        rw [performs, mem_append, mem_append, mem_cons]
        rcases mem_andThen ha with ha | ⟨receiver, ha⟩
        · exact .inl (.inl (ih value (size_callee_lt value attr ctx args keywords) a ha))
        rcases mem_andThen ha with ha | ⟨method, ha⟩
        · exact .inl (.inr (.inl (mem_singleton.mp ha)))
        rcases mem_andThen ha with ha | ⟨vs, ha⟩
        · exact .inl (.inr (.inr (hargs a ha)))
        split_ifs at ha ⊢ with hk
        · cases ha
        · exact .inr ha
      · have ho : ∀ value attr ctx, func = .attribute value attr ctx → False :=
          fun value attr ctx h => hfunc ⟨value, attr, ctx, h⟩
        rw [eval.eq_8 o c func args keywords ho] at ha
        rw [performs.eq_8 c func args keywords ho, mem_append, mem_append, mem_cons]
        rcases mem_andThen ha with ha | ⟨f, ha⟩
        · exact .inl (.inl (hc func (by simp [children]) a ha))
        rcases mem_andThen ha with ha | ⟨vs, ha⟩
        · exact .inl (.inr (.inr (hargs a ha)))
        split_ifs at ha ⊢ with hk
        · exact .inl (.inr (.inl (mem_singleton.mp ha)))
        · exact .inr ha

theorem evalCheckedCondition_performs (o : Objects U) (c : EvalContext U) (t : Ast) :
    ∀ a ∈ (evalCheckedCondition o c t).accesses, a ∈ performs c t := by
  intro a ha
  rcases mem_andThen ha with ha | ⟨v, ha⟩
  · exact eval_performs o c t a ha
  · cases ha

/-! ### Permitted accesses -/

/-- A name the reading or the context gives, the history object, or a call of one of its helpers
with literal arguments; a name nothing gives is not read. -/
def Permitted (reading : Option (EventReading U)) (context : Dict Text U) : Access → Prop
  | .name id => id = historyName ∨ (reading.isSome = true ∧ id ∈ reservedContextNames) ∨
      (context.get? id).isSome = true
  | .unresolved _ => True
  | .methodCall value attr args => value.isHistory = true ∧
      (attr = text "avg_24h" ∨ attr = text "last_n") ∧ (args.mapM literalEval).isSome = true
  | _ => False

mutual

/-- Whether an attribute is read that is not the function of a call. -/
def readsAttribute : Ast → Bool
  | .boolOp _ values => anyReadsAttribute values
  | .binOp left _ right => readsAttribute left || readsAttribute right
  | .unaryOp _ operand => readsAttribute operand
  | .compare left _ comparators => readsAttribute left || anyReadsAttribute comparators
  | .call (.attribute value _ _) args keywords =>
    readsAttribute value || anyReadsAttribute args || anyReadsAttribute keywords
  | .call func args keywords =>
    readsAttribute func || anyReadsAttribute args || anyReadsAttribute keywords
  | .attribute _ _ _ => true
  | .construct _ children => anyReadsAttribute children
  | .constant _ | .name _ _ | .symbol _ => false

def anyReadsAttribute : List Ast → Bool
  | [] => false
  | t :: ts => readsAttribute t || anyReadsAttribute ts

end

/-- No name of the condition is `__debug__`, or is `__builtins__` without the context giving it. -/
def NamesSupplied (context : Dict Text U) (t : Ast) : Prop :=
  ∀ id ctx, Within (.name id ctx) t → id ≠ debugName ∧
    (id = builtinsName → (context.get? id).isSome = true)

theorem anyReadsAttribute_eq_false :
    anyReadsAttribute ts = false ↔ ∀ t ∈ ts, readsAttribute t = false := by
  induction ts with
  | nil => simp [anyReadsAttribute]
  | cons t ts ih => simp [anyReadsAttribute, ih]

theorem isHistory_iff : t.isHistory = true ↔ ∃ ctx, t = .name historyName ctx := by
  cases t with
  | name id ctx | _ => simp [Ast.isHistory]

theorem namesSupplied_iff {context : Dict Text U} : NamesSupplied context t ↔
    (∀ id ctx, t = .name id ctx → id ≠ debugName ∧
      (id = builtinsName → (context.get? id).isSome = true)) ∧
    ∀ u ∈ t.children, NamesSupplied context u := by
  constructor
  · intro h
    exact ⟨fun id ctx ht => h id ctx (ht ▸ .self), fun u hu id ctx hm => h id ctx (.child hu hm)⟩
  · rintro ⟨hself, hc⟩ id ctx hm
    rcases within_iff.mp hm with rfl | ⟨u, hu, hm⟩
    · exact hself id ctx rfl
    · exact hc u hu id ctx hm

theorem namesSupplied_symbol (context : Dict Text U) (s : Symbol) :
    NamesSupplied context (.symbol s) := by
  intro id ctx h
  rcases within_iff.mp h with h | ⟨u, hu, -⟩
  · cases h
  · cases hu

theorem namesSupplied_symbols (context : Dict Text U) (ops : List CmpOperator) (ts : List Ast) :
    (∀ u ∈ ops.map (fun op => Ast.symbol (.compare op)) ++ ts, NamesSupplied context u) ↔
      ∀ u ∈ ts, NamesSupplied context u := by
  constructor
  · exact fun h u hu => h u (mem_append_right _ hu)
  intro h u hu
  rcases mem_append.mp hu with hu | hu
  · obtain ⟨op, -, rfl⟩ := mem_map.mp hu
    exact namesSupplied_symbol context _
  · exact h u hu

section

variable (reading : Option (EventReading U)) (context : Dict Text U) (cache : Dict HistoryKey U)

/-- The namespace a condition is evaluated in. -/
def evalContext : EvalContext U := ⟨baseContext reading context, cache⟩

theorem asDict_evalContext (id : Text) :
    ((evalContext reading context cache).asDict id).isSome = true ↔
      id = historyName ∨ (reading.isSome = true ∧ id ∈ reservedContextNames) ∨
        (context.get? id).isSome = true := by
  rw [EvalContext.asDict]
  split_ifs with hi
  · simp [hi]
  · rw [Option.isSome_map, evalContext, baseContext_get?_isSome]
    simp [hi]

theorem permitted_nameAccess (id : Text) :
    Permitted reading context (nameAccess (evalContext reading context cache) id .load) ↔
      id ≠ debugName ∧ (id = builtinsName → (context.get? id).isSome = true) := by
  unfold nameAccess
  by_cases hd : id = debugName
  · rw [if_pos hd]
    exact ⟨fun h => h.elim, fun h => absurd hd h.1⟩
  rw [if_neg hd]
  by_cases hn : ((evalContext reading context cache).asDict id).isSome = true
  · rw [if_pos hn]
    have hg := (asDict_evalContext reading context cache id).mp hn
    refine ⟨fun _ => ⟨hd, ?_⟩, fun _ => hg⟩
    rintro rfl
    rcases hg with h | ⟨-, h⟩ | h
    · exact absurd h (by decide)
    · exact absurd h (by decide)
    · exact h
  rw [if_neg hn]
  by_cases hb : id = builtinsName
  · rw [if_pos hb]
    refine ⟨fun h => h.elim, fun h => hn ?_⟩
    exact (asDict_evalContext reading context cache id).mpr (.inr (.inr (h.2 hb)))
  · rw [if_neg hb]
    exact ⟨fun _ => ⟨hd, fun h => absurd h hb⟩, fun _ => trivial⟩

theorem permitted_iff {t : Ast} (h : Checked t) :
    (∀ a ∈ performs (evalContext reading context cache) t, Permitted reading context a) ↔
      readsAttribute t = false ∧ NamesSupplied context t := by
  induction t using Ast.sizeInduction with
  | h t ih =>
    have hc : ∀ u ∈ t.children,
        ((∀ a ∈ performs (evalContext reading context cache) u, Permitted reading context a) ↔
          readsAttribute u = false ∧ NamesSupplied context u) :=
      fun u hu => ih u (size_child_lt hu) (h.child hu)
    have hal : ∀ ts : List Ast, (∀ u ∈ ts, u ∈ t.children) →
        ((∀ a ∈ performsAll (evalContext reading context cache) ts, Permitted reading context a) ↔
          anyReadsAttribute ts = false ∧ ∀ u ∈ ts, NamesSupplied context u) := by
      intro ts ht
      rw [anyReadsAttribute_eq_false, ← forall₂_and]
      constructor
      · intro hp u hu
        exact (hc u (ht u hu)).mp (fun a ha => hp a (mem_performsAll.mpr ⟨u, hu, ha⟩))
      · intro hsafe a ha
        obtain ⟨u, hu, ha⟩ := mem_performsAll.mp ha
        exact (hc u (ht u hu)).mpr (hsafe u hu) a ha
    cases t with
    | constant value =>
      rw [namesSupplied_iff]
      simp [performs, readsAttribute, children]
    | symbol s =>
      simp [performs, readsAttribute, namesSupplied_symbol]
    | construct kind children => exact h.construct.elim
    | name id ctx =>
      obtain rfl := h.load
      rw [namesSupplied_iff]
      simp [performs, readsAttribute, children, permitted_nameAccess, namesSupplied_symbol]
    | boolOp op values =>
      rw [namesSupplied_iff, performs, hal values (fun u hu => mem_cons_of_mem _ hu)]
      simp [readsAttribute, children, namesSupplied_symbol]
    | binOp left op right =>
      rw [namesSupplied_iff, performs]
      have hlf := hc left (by simp [children])
      have hr := hc right (by simp [children])
      simp only [mem_append, or_imp, forall_and]
      simp [readsAttribute, children, namesSupplied_symbol]
      tauto
    | unaryOp op operand =>
      rw [namesSupplied_iff, performs, hc operand (by simp [children])]
      simp [readsAttribute, children, namesSupplied_symbol]
    | compare left ops comparators =>
      rw [namesSupplied_iff, performs]
      have hlf := hc left (by simp [children])
      have hr := hal comparators (fun u hu => mem_cons_of_mem _ (mem_append_right _ hu))
      simp only [mem_append, or_imp, forall_and]
      rw [children, forall_mem_cons, namesSupplied_symbols]
      simp [readsAttribute]
      tauto
    | «attribute» value attr ctx =>
      simp only [performs, mem_append, mem_singleton]
      exact ⟨fun hp => (hp _ (.inr rfl)).elim, fun hf => by cases hf.1⟩
    | call func args keywords =>
      obtain ⟨value, attr, ctx, rfl, hh, hattr, rfl, hl⟩ := h.call
      have hargs := hal args (fun u hu => mem_cons_of_mem _ (mem_append_left _ hu))
      obtain ⟨ctx', rfl⟩ := isHistory_iff.mp hh
      have hfunc : Checked (.attribute (.name historyName ctx') attr ctx) := h.child mem_cons_self
      obtain rfl := (hfunc.child (u := .name historyName ctx') mem_cons_self).load
      have hn : NamesSupplied context (.name historyName .load) := by
        rw [namesSupplied_iff]
        refine ⟨?_, by simp [children, namesSupplied_symbol]⟩
        rintro _ _ ⟨⟩
        exact ⟨by decide, fun h => absurd h (by decide)⟩
      have hca : NamesSupplied context (.attribute (.name historyName .load) attr ctx) := by
        rw [namesSupplied_iff]
        refine ⟨?_, by simp [children, namesSupplied_symbol, hn]⟩
        rintro _ _ ⟨⟩
      have hhistoryName : Permitted reading context
          (nameAccess (evalContext reading context cache) historyName .load) := by
        rw [permitted_nameAccess]
        exact ⟨by decide, fun h => absurd h (by decide)⟩
      have hm : Permitted reading context
          (.methodCall (.name historyName .load) attr args) := ⟨hh, hattr, hl⟩
      rw [namesSupplied_iff]
      simp only [performs, if_pos, append_nil, mem_append, mem_cons, or_imp,
        forall_and, forall_eq, not_mem_nil, IsEmpty.forall_iff, implies_true, hargs,
        hhistoryName, hm, true_and]
      simp [readsAttribute, anyReadsAttribute, children, hca]

/-- Of an accepted condition, everything it can do is permitted exactly when it reads no attribute
but to call it and its names are supplied; its evaluation does nothing else. -/
theorem condition_permitted {parse : Text → Except ParseFailure Ast} {condition : Text}
    {calls : List HistoryKey} {t : Ast} (hparse : parse condition = .ok t)
    (hchecked : validatedHistoryCalls parse condition = .ok calls) :
    ((∀ a ∈ performs (evalContext reading context cache) t, Permitted reading context a) ↔
      readsAttribute t = false ∧ NamesSupplied context t) ∧
    ∀ o : Objects U, ∀ a ∈ (evalCheckedCondition o (evalContext reading context cache) t).accesses,
        a ∈ performs (evalContext reading context cache) t :=
  ⟨permitted_iff reading context cache (checked_of_validated hparse hchecked),
    fun o => evalCheckedCondition_performs o _ t⟩

end

/-! ### Two conditions -/

namespace Conditions

/-- Objects of one kind, on which every operator gives an answer. -/
def unitObjects : Objects Unit where
  constant _ := ()
  emptyDict := ()
  unary _ _ := .ok (.object ())
  binary _ _ _ := .ok (.object ())
  compare _ _ _ := .ok (.object ())
  truth _ := .ok true
  call _ _ := .error .other
  getattr _ _ := .error .other
  historyAttr _ := .ok (.object ())
  number? _ := none
  isBool _ := false
  float _ := .error .other
  list? _ := none
  ofList _ := ()
  text? _ := none
  integer? _ := none

/-- `history.avg_24h('load') > value` and `history._values`. -/
def parse (condition : Text) : Except ParseFailure Ast :=
  if condition = text "history.avg_24h('load') > value" then
    .ok (.compare (.call (.attribute (.name historyName .load) (text "avg_24h") .load)
      [.constant (.str (text "load"))] []) [.gt] [.name (text "value") .load])
  else if condition = text "history._values" then
    .ok (.attribute (.name historyName .load) (text "_values") .load)
  else .error .syntaxError

/-- An accepted condition that reads the history object's own table. -/
theorem condition_reads_values : ∃ t, parse (text "history._values") = .ok t ∧
      validatedHistoryCalls parse (text "history._values") = .ok [] ∧
      ∃ a ∈ (evalCheckedCondition unitObjects (evalContext none Dict.empty Dict.empty) t).accesses,
        ¬ Permitted none (Dict.empty : Dict Text Unit) a :=
  ⟨.attribute (.name historyName .load) (text "_values") .load, rfl, rfl,
    .attribute (.name historyName .load) (text "_values"),
    mem_cons_of_mem _ mem_cons_self,
    fun h => h⟩

theorem condition_permitted_avg24h : ∃ t, parse (text "history.avg_24h('load') > value") = .ok t ∧
      ∀ a ∈ performs (evalContext none (Dict.empty : Dict Text Unit) Dict.empty) t,
        Permitted none (Dict.empty : Dict Text Unit) a := by
  have hchecked : validatedHistoryCalls parse (text "history.avg_24h('load') > value") =
      .ok [.avg24h (text "load")] := by decide
  refine ⟨_, rfl, (condition_permitted none Dict.empty Dict.empty rfl hchecked).1.mpr ⟨rfl, ?_⟩⟩
  intro id ctx h
  have hwalk := mem_walk.mpr h
  simp only [walk, walkFrom, size, sizes, children, map_cons, map_nil, length_cons,
    length_nil, nil_append, cons_append, mem_cons, not_mem_nil,
    Ast.name.injEq, reduceCtorEq, false_or, or_false] at hwalk
  rcases hwalk with ⟨rfl, -⟩ | ⟨rfl, -⟩ <;> exact ⟨by decide, fun h => absurd h (by decide)⟩

end Conditions

end OriRuntime
