import Mathlib.Data.List.TakeWhile
import Mathlib.Tactic

/-!
# Bisection of a sorted list

`bisectLoop` is the halving search for the first position of a list whose element is no longer
`before` the sought one. On a list where `before` holds of a front part only, it finds the length
of that part. `insort` and `delAt` insert and delete at the position found; on a strictly sorted
list they keep the order, and the elements change by the one inserted or deleted.
-/

namespace OriRuntime.Bisect

open List

variable {α : Type*}

def bisectLoop (before : α → Bool) (xs : List α) : Nat → Nat → Nat → Nat
  | 0, lo, _ => lo
  | fuel + 1, lo, hi =>
    if lo < hi then
      let mid := (lo + hi) / 2
      if (xs[mid]?).any before then bisectLoop before xs fuel (mid + 1) hi
      else bisectLoop before xs fuel lo mid
    else lo

/-- The search halves an interval of at most the list's length, which is fuel enough for it. -/
def bisectBy (before : α → Bool) (xs : List α) : Nat :=
  bisectLoop before xs xs.length 0 xs.length

variable {before : α → Bool} {xs : List α}

theorem bisectLoop_eq {n : Nat} (hl : ∀ i < n, (xs[i]?).any before = true)
    (hhigh : ∀ i, n ≤ i → (xs[i]?).any before = false) (fuel lo hi : Nat) (ho : lo ≤ n)
    (hh : n ≤ hi) (hfuel : hi - lo ≤ fuel) : bisectLoop before xs fuel lo hi = n := by
  induction fuel generalizing lo hi with
  | zero =>
    simp only [bisectLoop]
    omega
  | succ fuel ih =>
    rw [bisectLoop]
    split_ifs with ht
    · by_cases hm : (lo + hi) / 2 < n
      · rw [if_pos (hl _ hm)]
        apply ih <;> omega
      · have hf := hhigh ((lo + hi) / 2) (by omega)
        rw [if_neg (by simp [hf])]
        apply ih <;> omega
    · omega

theorem dropWhile_head {b : α} {rest : List α} (h : xs.dropWhile before = b :: rest) :
    before b = false := by
  have hn : xs.dropWhile before ≠ [] := by simp [h]
  have hh := head_dropWhile_not before hn
  simpa only [h, head_cons] using hh

theorem dropWhile_all (hmono : xs.Pairwise fun a b => before b = true → before a = true) :
    ∀ a ∈ xs.dropWhile before, before a = false := by
  intro a ha
  have hd := hmono.sublist (dropWhile_sublist before)
  cases hr : xs.dropWhile before with
  | nil => simp [hr] at ha
  | cons b rest =>
    have hb := dropWhile_head hr
    rw [hr] at ha hd
    obtain rfl | ha := mem_cons.mp ha
    · exact hb
    by_contra hn
    have he := rel_of_pairwise_cons hd ha (by simpa using hn)
    simp [hb] at he

theorem bisectBy_eq (hmono : xs.Pairwise fun a b => before b = true → before a = true) :
    bisectBy before xs = (xs.takeWhile before).length := by
  have hs := takeWhile_append_dropWhile (p := before) (l := xs)
  have hl := ( takeWhile_prefix before (l := xs)).length_le
  apply bisectLoop_eq
  · intro i hi
    rw [← hs, List.getElem?_append_left hi, List.getElem?_eq_getElem hi]
    exact mem_takeWhile_imp (p := before) (getElem_mem hi)
  · intro i hi
    rw [← hs, List.getElem?_append_right hi]
    cases hg : (xs.dropWhile before)[i - (xs.takeWhile before).length]? with
    | none => rfl
    | some a => exact dropWhile_all hmono a (mem_of_getElem? hg)
  · exact Nat.zero_le _
  · exact hl
  · omega

theorem take_takeWhile (before : α → Bool) (xs : List α) :
    xs.take (xs.takeWhile before).length = xs.takeWhile before :=
  (prefix_iff_eq_take.mp ( takeWhile_prefix before)).symm

theorem drop_takeWhile (before : α → Bool) (xs : List α) :
    xs.drop (xs.takeWhile before).length = xs.dropWhile before := by
  conv_lhs => arg 2; rw [← takeWhile_append_dropWhile (p := before) (l := xs)]
  exact drop_left

variable [LinearOrder α]

def bisectLeft (xs : List α) (x : α) : Nat := bisectBy (fun a => decide (a < x)) xs

def bisectRight (xs : List α) (x : α) : Nat := bisectBy (fun a => !decide (x < a)) xs

/-- Insert at the right bisection point. -/
def insort (xs : List α) (x : α) : List α :=
  let index := bisectRight xs x
  xs.take index ++ x :: xs.drop index

/-- Delete what is at the left bisection point, if it is the element sought. -/
def delAt (xs : List α) (x : α) : List α :=
  let index := bisectLeft xs x
  if xs[index]? = some x then xs.eraseIdx index else xs

theorem before_mono (hs : xs.Pairwise (· < ·)) (x : α) :
    xs.Pairwise fun a b => decide (b < x) = true → decide (a < x) = true :=
  hs.imp fun ha hb => decide_eq_true (ha.trans (of_decide_eq_true hb))

theorem after_mono (hs : xs.Pairwise (· < ·)) (x : α) :
    xs.Pairwise fun a b => (!decide (x < b)) = true → (!decide (x < a)) = true := by
  refine hs.imp fun {a b} ha hb => ?_
  simp only [Bool.not_eq_true', decide_eq_false_iff_not, not_lt] at hb ⊢
  exact ha.le.trans hb

theorem insort_eq (hs : xs.Pairwise (· < ·)) (x : α) :
    insort xs x = (xs.takeWhile fun a => !decide (x < a)) ++
      x :: xs.dropWhile fun a => !decide (x < a) := by
  simp only [insort, bisectRight, bisectBy_eq (after_mono hs x), take_takeWhile, drop_takeWhile]

theorem perm_insort (hs : xs.Pairwise (· < ·)) (x : α) : (insort xs x).Perm (x :: xs) := by
  rw [insort_eq hs]
  refine perm_middle.trans (List.Perm.cons x ?_)
  rw [takeWhile_append_dropWhile]

theorem pairwise_insort (hs : xs.Pairwise (· < ·)) {x : α} (hn : x ∉ xs) :
    (insort xs x).Pairwise (· < ·) := by
  have hsp := takeWhile_append_dropWhile (p := fun a => !decide (x < a)) (l := xs)
  have hp := hs
  rw [← hsp, pairwise_append] at hp
  obtain ⟨hf, hback, hc⟩ := hp
  rw [insort_eq hs, pairwise_append, pairwise_cons]
  have he : ∀ a ∈ xs.takeWhile (fun a => !decide (x < a)), a < x := by
    intro a ha
    have hl : a ≤ x := by simpa using mem_takeWhile_imp ha
    exact lt_of_le_of_ne hl fun heq => hn (heq ▸ (takeWhile_sublist _).subset ha)
  refine ⟨hf, ⟨?_, hback⟩, ?_⟩
  · intro a ha
    simpa using dropWhile_all (after_mono hs x) a ha
  · intro a ha b hb
    obtain rfl | hb := mem_cons.mp hb
    · exact he a ha
    · exact hc a ha b hb

theorem delAt_eq (hsr : xs.Pairwise (· < ·)) (x : α) :
    delAt xs x = xs.filter fun a => decide (a ≠ x) := by
  have hs := takeWhile_append_dropWhile (p := fun a => decide (a < x)) (l := xs)
  have hf : ∀ a ∈ xs.takeWhile (fun a => decide (a < x)), a ≠ x := by
    intro a ha
    have hl : a < x := by simpa using mem_takeWhile_imp ha
    exact hl.ne
  have hback := hsr.sublist (dropWhile_sublist fun a => decide (a < x))
  have hhigh := dropWhile_all (before_mono hsr x)
  have hkeep : (xs.takeWhile fun a => decide (a < x)).filter (fun a => decide (a ≠ x)) =
      xs.takeWhile fun a => decide (a < x) :=
    filter_eq_self.mpr fun a ha => decide_eq_true (hf a ha)
  simp only [delAt, bisectLeft, bisectBy_eq (before_mono hsr x)]
  conv_rhs => rw [← hs, filter_append, hkeep]
  cases hr : xs.dropWhile (fun a => decide (a < x)) with
  | nil =>
    rw [hr, append_nil] at hs
    rw [if_neg (by rw [hs]; simp), filter_nil, append_nil, hs]
  | cons b rest =>
    rw [hr] at hs hback hhigh
    have hg : xs[(xs.takeWhile fun a => decide (a < x)).length]? = some b := by
      conv_lhs => arg 1; rw [← hs]
      simp
    have hr : ∀ a ∈ rest, a ≠ x := by
      intro a ha heq
      have hl := rel_of_pairwise_cons hback ha
      have hn := of_decide_eq_false (hhigh b mem_cons_self)
      exact hn (heq ▸ hl)
    have hkeepRest : rest.filter (fun a => decide (a ≠ x)) = rest :=
      filter_eq_self.mpr fun a ha => decide_eq_true (hr a ha)
    rw [hg]
    by_cases hb : b = x
    · rw [if_pos (congrArg some hb), filter_cons_of_neg (by simpa using hb), hkeepRest]
      conv_lhs => arg 1; rw [← hs]
      rw [eraseIdx_append_of_length_le le_rfl, Nat.sub_self, eraseIdx_cons_zero]
    · rw [if_neg (fun h => hb (Option.some.inj h)),
        filter_cons_of_pos (by simpa using hb), hkeepRest, hs]

end OriRuntime.Bisect
