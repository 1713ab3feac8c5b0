import Mathlib.Tactic

/-!
# Executions of a labelled transition function

A system is a partial step function on states and labels; a label that is not enabled gives `none`.
`run` performs a list of labels. The rules below carry an invariant along every run, and along
every run whose steps all meet a side condition on the state before the step.
-/

namespace OriRuntime.Execution

open Option

variable {σ α : Type*} {step : σ → α → Option σ}

def run (step : σ → α → Option σ) : σ → List α → Option σ
  | s, [] => some s
  | s, a :: as => (step s a).bind (fun t => run step t as)

@[simp] theorem run_nil (s : σ) : run step s [] = some s := rfl

theorem run_cons_eq_some_iff {s u : σ} {a : α} {as : List α} :
    run step s (a :: as) = some u ↔ ∃ t, step s a = some t ∧ run step t as = some u := by
  simp only [run, bind_eq_some_iff]

theorem run_append_eq_some_iff {s u : σ} {as bs : List α} :
    run step s (as ++ bs) = some u ↔ ∃ t, run step s as = some t ∧ run step t bs = some u := by
  induction as generalizing s with
  | nil => simp
  | cons a as ih =>
    simp only [List.cons_append, run_cons_eq_some_iff, ih]
    constructor
    · rintro ⟨t, ht, v, hv, hu⟩
      exact ⟨v, ⟨t, ht, hv⟩, hu⟩
    · rintro ⟨v, ⟨t, ht, hv⟩, hu⟩
      exact ⟨t, ht, v, hv, hu⟩

def Reaches (step : σ → α → Option σ) (s t : σ) : Prop := ∃ as, run step s as = some t

/-- Every step of the run `as` from `s` meets `C` in the state it is taken in. -/
def Meets (step : σ → α → Option σ) (C : σ → α → Prop) : σ → List α → Prop
  | _, [] => True
  | s, a :: as => C s a ∧ ∀ t, step s a = some t → Meets step C t as

theorem meets_cons {C : σ → α → Prop} {s t : σ} {a : α} {as : List α} (ha : C s a)
    (hs : step s a = some t) (h : Meets step C t as) : Meets step C s (a :: as) :=
  ⟨ha, fun _ hu => mem_unique hs hu ▸ h⟩

/-- A condition that is computed is checked along a run by running it. -/
def meetsCheck (step : σ → α → Option σ) (c : σ → α → Bool) : σ → List α → Bool
  | _, [] => true
  | s, a :: as =>
    c s a &&
      match step s a with
      | none => true
      | some t => meetsCheck step c t as

theorem meets_of_check {C : σ → α → Prop} {c : σ → α → Bool} (hc : ∀ s a, c s a = true → C s a)
    {s : σ} {as : List α} (h : meetsCheck step c s as = true) : Meets step C s as := by
  induction as generalizing s with
  | nil => trivial
  | cons a as ih =>
    obtain ⟨ha, hr⟩ := Bool.and_eq_true_iff.mp h
    refine ⟨hc s a ha, fun t ht => ih ?_⟩
    rwa [ht] at hr

theorem run_invariant_of_meets {C : σ → α → Prop} {Inv : σ → Prop}
    (ht : ∀ s a t, Inv s → C s a → step s a = some t → Inv t) {s t : σ} {as : List α}
    (hs : Inv s) (hC : Meets step C s as) (h : run step s as = some t) : Inv t := by
  induction as generalizing s with
  | nil => simpa using (some.inj h) ▸ hs
  | cons a as ih =>
    obtain ⟨u, hu, hr⟩ := run_cons_eq_some_iff.mp h
    exact ih (ht s a u hs hC.1 hu) (hC.2 u hu) hr

theorem meets_of_forall {C : α → Prop} {as : List α} (h : ∀ a ∈ as, C a) (s : σ) :
    Meets step (fun _ a => C a) s as := by
  induction as generalizing s with
  | nil => trivial
  | cons a as ih =>
    exact ⟨h a List.mem_cons_self, fun t _ => ih (fun b hb => h b (List.mem_cons_of_mem _ hb)) t⟩

theorem meets_true (s : σ) (as : List α) : Meets step (fun _ _ => True) s as :=
  meets_of_forall (fun _ _ => trivial) s

theorem run_invariant {Inv : σ → Prop}
    (ht : ∀ s a t, Inv s → step s a = some t → Inv t) {s t : σ} {as : List α}
    (hs : Inv s) (h : run step s as = some t) : Inv t :=
  run_invariant_of_meets (fun u a v hu _ hv => ht u a v hu hv) hs (meets_true s as) h

theorem Reaches.invariant {Inv : σ → Prop}
    (ht : ∀ s a t, Inv s → step s a = some t → Inv t) {s t : σ}
    (hs : Inv s) (h : Reaches step s t) : Inv t := by
  obtain ⟨as, ha⟩ := h
  exact run_invariant ht hs ha

theorem bind_eq_ok_iff {α β ε : Type} {x : Except ε α} {f : α → Except ε β} {b : β} :
    x >>= f = .ok b ↔ ∃ a, x = .ok a ∧ f a = .ok b := by
  cases x with
  | error e =>
    constructor
    · intro h
      cases h
    · rintro ⟨a, h, -⟩
      cases h
  | ok a =>
    constructor
    · exact fun h => ⟨a, rfl, h⟩
    · rintro ⟨_, ⟨⟩, h⟩
      exact h

/-- What a run comes to is found by running it. -/
theorem exists_of_check {o : Option σ} {P : σ → Prop} [DecidablePred P]
    (h : o.any (fun s => decide (P s)) = true) : ∃ s, o = some s ∧ P s := by
  obtain ⟨s, hs, hp⟩ := (any_eq_true _ _).mp h
  exact ⟨s, hs, of_decide_eq_true hp⟩

/-- One entry of a table of parallel calls is replaced: what the table counts changes by it. -/
theorem countP_set_add {β : Type*} {l : List β} {i : ℕ} {x : β} (h : l[i]? = some x) (y : β)
    (q : β → Bool) : (l.set i y).countP q + (q x).toNat = l.countP q + (q y).toNat := by
  obtain ⟨hi, hg⟩ := List.getElem?_eq_some_iff.mp h
  rw [List.countP_set hi, hg]
  cases hq : q x with
  | false => cases q y <;> simp
  | true =>
    have hp : 0 < l.countP q := List.countP_pos_iff.mpr ⟨x, hg ▸ List.getElem_mem hi, hq⟩
    cases q y <;> simp <;> omega

end OriRuntime.Execution
