import OriRuntime.CommandReplay

/-!
# What the safety-mutation guard sees

`_contains_forbidden_safety_disable` folds the members of an object by their normalised names and
reads what is left. A ground is seen where its member, and every member it lies in, is the last of
its object under its name.
-/

namespace OriRuntime

open List Option

open Execution

namespace CommandText

variable {t : CommandText} {item : Option Text × Json} {items : List (Option Text × Json)} {v : Json}

/-- Nothing under the same name comes after the member. -/
def Remains (t : CommandText) (items : List (Option Text × Json)) (item : Option Text × Json) :
    Prop :=
  ∃ before after, items = before ++ item :: after ∧
    ∀ later ∈ after, t.normalizeKey later.1 ≠ t.normalizeKey item.1

/-- The same of the members that remain, where a tier that counts is read after the folding. -/
inductive Shown (t : CommandText) : Json → Prop
  | name {items : List (Option Text × Json)} {item : Option Text × Json}
      (hitem : t.Remains items item)
      (hdisables : t.disablesSafety (t.normalizeKey item.1) item.2 = true) : Shown t (.dict items)
  | tier {items : List (Option Text × Json)} (htier : t.disablesTierD items = true) :
      Shown t (.dict items)
  | member {items : List (Option Text × Json)} {item : Option Text × Json}
      (hitem : t.Remains items item) (hin : Shown t item.2) : Shown t (.dict items)
  | element {xs : List Json} {v : Json} (hv : v ∈ xs) (hin : Shown t v) : Shown t (.list xs)

theorem remains_cons {head : Option Text × Json} : t.Remains (head :: items) item ↔
      (item = head ∧ ∀ later ∈ items, t.normalizeKey later.1 ≠ t.normalizeKey head.1) ∨
        t.Remains items item := by
  constructor
  · rintro ⟨before, after, hs, hl⟩
    cases before with
    | nil =>
      obtain ⟨rfl, rfl⟩ := List.cons.inj hs
      exact .inl ⟨rfl, hl⟩
    | cons first before =>
      obtain ⟨rfl, rfl⟩ := List.cons.inj hs
      exact .inr ⟨before, after, rfl, hl⟩
  · rintro (⟨rfl, hl⟩ | ⟨before, after, rfl, hl⟩)
    · exact ⟨[], items, rfl, hl⟩
    · exact ⟨head :: before, after, rfl, hl⟩

theorem forbiddenItems_eq_true_iff : t.forbiddenItems items = true ↔ ∃ item, t.Remains items item ∧
    (t.disablesSafety (t.normalizeKey item.1) item.2 = true ∨
      t.containsForbiddenSafetyDisable item.2 = true) := by
  induction items with
  | nil =>
    refine ⟨nofun, ?_⟩
    rintro ⟨item, ⟨before, after, hs, -⟩, -⟩
    cases before <;> cases hs
  | cons head items ih =>
    rw [forbiddenItems, Bool.or_eq_true, ih, Bool.and_eq_true, Bool.or_eq_true, Bool.not_eq_true',
      List.any_eq_false]
    simp only [decide_eq_true_eq, remains_cons]
    constructor
    · rintro (⟨hl, hg⟩ | ⟨item, hr, hg⟩)
      · exact ⟨head, .inl ⟨rfl, hl⟩, hg⟩
      · exact ⟨item, .inr hr, hg⟩
    · rintro ⟨item, ⟨rfl, hl⟩ | hr, hg⟩
      · exact .inl ⟨hl, hg⟩
      · exact .inr ⟨item, hr, hg⟩

theorem forbiddenList_eq_true_iff {xs : List Json} :
    t.forbiddenList xs = true ↔ ∃ v ∈ xs, t.containsForbiddenSafetyDisable v = true := by
  induction xs with
  | nil => exact ⟨nofun, fun ⟨_, hv, _⟩ => absurd hv not_mem_nil⟩
  | cons v xs ih => rw [forbiddenList, Bool.or_eq_true, ih, exists_mem_cons_iff]

theorem Shown.contains (h : t.Shown v) : t.containsForbiddenSafetyDisable v = true := by
  induction h with
  | name hitem hd =>
    exact Bool.or_eq_true_iff.mpr (.inr (forbiddenItems_eq_true_iff.mpr ⟨_, hitem, .inl hd⟩))
  | tier htier => exact Bool.or_eq_true_iff.mpr (.inl htier)
  | member hitem hi ih =>
    exact Bool.or_eq_true_iff.mpr (.inr (forbiddenItems_eq_true_iff.mpr ⟨_, hitem, .inr ih⟩))
  | element hv hi ih => exact forbiddenList_eq_true_iff.mpr ⟨_, hv, ih⟩

mutual

theorem shown_of_contains : ∀ v, t.containsForbiddenSafetyDisable v = true → t.Shown v
  | .dict items, h => by
    rcases Bool.or_eq_true_iff.mp h with htier | hi
    · exact .tier htier
    obtain ⟨item, hitem, hd | hn⟩ := shown_of_items items hi
    · exact .name hitem hd
    · exact .member hitem hn
  | .list xs, h =>
    have ⟨_, hv, hn⟩ := shown_of_list xs h
    .element hv hn

theorem shown_of_items : ∀ items, t.forbiddenItems items = true → ∃ item, t.Remains items item ∧
    (t.disablesSafety (t.normalizeKey item.1) item.2 = true ∨ t.Shown item.2)
  | (key, v) :: items, h => by
    rw [forbiddenItems, Bool.or_eq_true, Bool.and_eq_true, Bool.or_eq_true, Bool.not_eq_true',
      List.any_eq_false] at h
    simp only [decide_eq_true_eq] at h
    obtain ⟨hl, hg⟩ | hi := h
    · exact ⟨(key, v), remains_cons.mpr (.inl ⟨rfl, hl⟩), hg.imp_right (shown_of_contains v)⟩
    · obtain ⟨item, hitem, hg⟩ := shown_of_items items hi
      exact ⟨item, remains_cons.mpr (.inr hitem), hg⟩

theorem shown_of_list : ∀ xs, t.forbiddenList xs = true → ∃ v ∈ xs, t.Shown v
  | v :: xs, h => by
    rcases Bool.or_eq_true_iff.mp h with hv | hx
    · exact ⟨v, mem_cons_self, shown_of_contains v hv⟩
    · obtain ⟨w, hw, hi⟩ := shown_of_list xs hx
      exact ⟨w, mem_cons_of_mem v hw, hi⟩

end

end CommandText

/-! ### The commands answered accepted -/

namespace CommandDesk

variable {t : CommandText} {s s' : CommandDesk} {stage stage' : VerifyStage}

/-- The guard let the arguments of the command pass. -/
def Passed (t : CommandText) (c : RemoteCommand) : Prop :=
  t.containsForbiddenSafetyDisable c.args = false

/-- A command that may still be accepted passed the guard. -/
def Cleared (t : CommandText) : VerifyStage → Prop
  | .checking c _ => Passed t c
  | .writing row c _ | .written row c _ => row.accepted = true → ∀ c' ∈ c, Passed t c'
  | .abandoned _ | .done => True

/-- So did every command answered accepted. -/
structure Guarded (t : CommandText) (s : CommandDesk) : Prop where
  calls : ∀ call ∈ s.calls, Cleared t call.stage
  returned : ∀ c ∈ s.returned, Passed t c

theorem passed_check {α : Type} {p : Prop} [Decidable p] {reason : String} {next : Except String α}
    {answer : α} (h : (if p then .error reason else next) = .ok answer) :
    ¬ p ∧ next = .ok answer := by
  split_ifs at h with hp
  exact ⟨hp, h⟩

theorem passed_of_judge {v : RemoteCommandVerifier} {c : RemoteCommand} {nowMs : ℤ} {reason : String}
    (h : t.judge v c nowMs = .ok reason) : Passed t c := by
  unfold CommandText.judge at h
  iterate 6 replace h := (passed_check h).2
  exact Bool.eq_false_iff.mpr (passed_check h).1

theorem cleared_refused {row : CommandAttempt} (h : row.accepted = false) (c : Option RemoteCommand)
    (outer : Bool) : Cleared t (.writing row c outer) :=
  fun ha => absurd (h.symm.trans ha) nofun

theorem cleared_begin (v : RemoteCommandVerifier) (payload : Json) (nowMs : ℤ) :
    Cleared t (begin t v payload nowMs) := by
  unfold begin
  cases t.parseCommand payload with
  | error reason => exact cleared_refused rfl none false
  | ok c =>
    dsimp only
    cases hj : t.judge v c nowMs with
    | error reason => exact cleared_refused rfl (some c) false
    | ok reason => exact passed_of_judge hj

theorem cleared_checked {log : List CommandAttempt} {c : RemoteCommand} (h : Passed t c)
    (reason : String) : Cleared t (checked log c reason) := by
  unfold checked
  split_ifs
  · exact cleared_refused rfl (some c) false
  · rintro - c' ⟨⟩
    exact h

theorem cleared_failed {payload : Json} (h : failed t payload stage = some stage') :
    Cleared t stage' := by
  unfold failed at h
  split at h
  all_goals first
    | cases h; exact cleared_refused rfl none true
    | cases h; exact trivial
    | cases h

theorem cleared_cancelled (h : cancelled stage = some stage') : Cleared t stage' := by
  unfold cancelled at h
  split at h
  all_goals cases h
  all_goals exact trivial

namespace Guarded

theorem setStage (stage : VerifyStage) (h : Guarded t s) {i : ℕ} {call : VerifyCall}
    (hs : Cleared t stage) :
    Guarded t (s.setStage i call stage) := by
  refine ⟨fun call' hc' => ?_, h.returned⟩
  rcases mem_or_eq_of_mem_set hc' with hm | rfl
  · exact h.calls call' hm
  · exact hs

theorem step (h : Guarded t s) {a : Step} (hs : s.step t a = some s') : Guarded t s' := by
  cases a with
  | call v payload nowMs =>
    cases hs
    refine ⟨fun call hl => ?_, h.returned⟩
    rcases mem_append.mp hl with hm | hm
    · exact h.calls call hm
    · rw [mem_singleton.mp hm]
      exact cleared_begin v payload nowMs
  | restart =>
    cases hs
    exact ⟨nofun, h.returned⟩
  | check i =>
    simp only [CommandDesk.step] at hs
    split at hs
    · cases hs
    rename_i call hl
    have hc := h.calls call (mem_of_getElem? hl)
    split at hs <;> cases hs
    rename_i hg
    rw [hg] at hc
    exact h.setStage _ (cleared_checked hc _)
  | land i =>
    simp only [CommandDesk.step] at hs
    split at hs
    · cases hs
    rename_i call hl
    have hc := h.calls call (mem_of_getElem? hl)
    split at hs <;> cases hs
    · rename_i hg
      rw [hg] at hc
      exact { h.setStage (.written _ _ _) hc with }
    · exact { h.setStage .done trivial with }
  | resume i =>
    simp only [CommandDesk.step] at hs
    split at hs
    · cases hs
    rename_i call hl
    have hc := h.calls call (mem_of_getElem? hl)
    split at hs <;> cases hs
    rename_i row c _ hg
    rw [hg] at hc
    refine ⟨(h.setStage .done trivial).calls, fun c' hc' => ?_⟩
    dsimp only at hc'
    split_ifs at hc' with ha
    · rcases mem_append.mp hc' with hold | hn
      · exact h.returned c' hold
      · exact hc ha c' (mem_toList.mp hn)
    · exact h.returned c' hc'
  | fail i =>
    simp only [CommandDesk.step] at hs
    split at hs
    · cases hs
    · obtain ⟨stage, hg, rfl⟩ := map_eq_some_iff.mp hs
      exact h.setStage _ (cleared_failed hg)
  | cancel i =>
    simp only [CommandDesk.step] at hs
    split at hs
    · cases hs
    · obtain ⟨stage, hg, rfl⟩ := map_eq_some_iff.mp hs
      exact h.setStage _ (cleared_cancelled hg)

end Guarded

/-- What is required of the guard for arguments that ask for a protection to be turned off. -/
def Refused (t : CommandText) (v : Json) : Prop :=
  t.containsForbiddenSafetyDisable v = true ∧
    ∀ s : CommandDesk, Reaches (fun s a => CommandDesk.step t s a) {} s → ∀ c ∈ s.returned, c.args ≠ v

section Bench

end Bench

end CommandDesk

end OriRuntime
