import Mathlib.Tactic

/-!
# Insertion-ordered dictionaries

A dictionary holds each key at most once and lists its items in the order in which the keys were
first stored. Storing under a present key keeps the key's place; storing under a new key appends.
The uniqueness of keys is part of the type, so lookups, iteration and counting agree.
-/

namespace OriRuntime

open List Option

structure Dict (κ ν : Type*) where
  items : List (κ × ν)
  nodup : (items.map Prod.fst).Nodup
  deriving DecidableEq

namespace Dict

variable {κ ν : Type*}

def empty : Dict κ ν := ⟨[], List.nodup_nil⟩

instance : Inhabited (Dict κ ν) := ⟨empty⟩

def keys (d : Dict κ ν) : List κ := d.items.map Prod.fst

def values (d : Dict κ ν) : List ν := d.items.map Prod.snd

variable [DecidableEq κ]

def get? (d : Dict κ ν) (k : κ) : Option ν :=
  (d.items.find? (fun p => decide (p.1 = k))).map Prod.snd

variable {d : Dict κ ν} {k k' : κ} {v : ν}

theorem get?_eq_some_iff : d.get? k = some v ↔ (k, v) ∈ d.items := by
  obtain ⟨items, hd⟩ := d
  simp only [get?]
  induction items with
  | nil => simp
  | cons p items ih =>
    obtain ⟨k', v'⟩ := p
    simp only [map_cons, nodup_cons] at hd
    by_cases hk : k' = k
    · subst k'
      have hn : (k, v) ∉ items := fun hm => hd.1 (mem_map_of_mem hm)
      simp only [List.find?_cons, decide_true, map_some, some.injEq,
        mem_cons, Prod.mk.injEq, true_and, hn, or_false]
      exact eq_comm
    · rw [List.find?_cons_of_neg (by simpa using hk), ih hd.2]
      simp [Ne.symm hk]

theorem get?_eq_none_iff : d.get? k = none ↔ k ∉ d.keys := by
  rw [Option.eq_none_iff_forall_ne_some]
  simp only [ne_eq, get?_eq_some_iff, keys, List.mem_map, Prod.exists, exists_and_right,
    exists_eq_right, not_exists]

theorem mem_values_iff : v ∈ d.values ↔ ∃ k, d.get? k = some v := by
  simp only [values, List.mem_map, get?_eq_some_iff, Prod.exists, exists_eq_right]

@[simp] theorem get?_empty (k : κ) : (empty : Dict κ ν).get? k = none := rfl

/-- Replace the value under `k` in place, or append the pair when `k` is new. -/
def set (d : Dict κ ν) (k : κ) (v : ν) : Dict κ ν where
  items := if k ∈ d.keys then d.items.map (fun p => if p.1 = k then (k, v) else p)
    else d.items ++ [(k, v)]
  nodup := by
    split_ifs with hk
    · have hmap : (d.items.map (fun p => if p.1 = k then (k, v) else p)).map Prod.fst =
          d.items.map Prod.fst := by
        rw [List.map_map]
        apply List.map_congr_left
        intro p _
        by_cases hp : p.1 = k <;> simp [hp]
      rw [hmap]
      exact d.nodup
    · rw [List.map_append, List.nodup_append]
      refine ⟨d.nodup, by simp, ?_⟩
      intro a ha b hb hab
      have hbk : b = k := by simpa using hb
      exact hk (hbk ▸ hab ▸ ha)

theorem mem_items_set {v' : ν} :
    (k', v') ∈ (d.set k v).items ↔ (k' = k ∧ v' = v) ∨ (k' ≠ k ∧ (k', v') ∈ d.items) := by
  simp only [set]
  split_ifs with hk
  · obtain ⟨⟨a, b⟩, ha, rfl⟩ := List.mem_map.mp hk
    simp only [List.mem_map, Prod.exists]
    constructor
    · rintro ⟨a', b', hm, he⟩
      split_ifs at he with h
      · exact .inl ⟨(congrArg Prod.fst he).symm, (congrArg Prod.snd he).symm⟩
      · obtain ⟨rfl, rfl⟩ := Prod.mk.inj he
        exact .inr ⟨h, hm⟩
    · rintro (⟨rfl, rfl⟩ | ⟨hne, hm⟩)
      · exact ⟨_, b, ha, if_pos rfl⟩
      · exact ⟨k', v', hm, if_neg hne⟩
  · have hn : ∀ u, (k, u) ∉ d.items := fun u hm => hk (List.mem_map_of_mem hm)
    simp only [List.mem_append, List.mem_singleton, Prod.mk.injEq]
    constructor
    · rintro (hm | h)
      · exact .inr ⟨fun he => hn v' (he ▸ hm), hm⟩
      · exact .inl h
    · rintro (h | ⟨_, hm⟩)
      · exact .inr h
      · exact .inl hm

@[simp] theorem get?_set_self (d : Dict κ ν) (k : κ) (v : ν) : (d.set k v).get? k = some v :=
  get?_eq_some_iff.mpr (mem_items_set.mpr (.inl ⟨rfl, rfl⟩))

theorem get?_set_of_ne (d : Dict κ ν) (v : ν) (h : k' ≠ k) : (d.set k v).get? k' = d.get? k' := by
  apply Option.ext
  intro u
  rw [get?_eq_some_iff, get?_eq_some_iff, mem_items_set]
  simp [h]

theorem get?_set (d : Dict κ ν) (k k' : κ) (v : ν) :
    (d.set k v).get? k' = if k' = k then some v else d.get? k' := by
  split_ifs with h
  · rw [h, get?_set_self]
  · exact d.get?_set_of_ne v h

def pop (d : Dict κ ν) (k : κ) : Dict κ ν where
  items := d.items.filter (fun p => decide (p.1 ≠ k))
  nodup := d.nodup.sublist (List.filter_sublist.map Prod.fst)

theorem get?_pop (d : Dict κ ν) (k k' : κ) :
    (d.pop k).get? k' = if k' = k then none else d.get? k' := by
  apply Option.ext
  intro u
  rw [get?_eq_some_iff]
  simp only [pop, ne_eq, decide_not, mem_filter, Bool.not_eq_eq_eq_not, Bool.not_true,
    decide_eq_false_iff_not, ← get?_eq_some_iff]
  split_ifs with h <;> simp [h]

@[simp] theorem get?_pop_self (d : Dict κ ν) (k : κ) : (d.pop k).get? k = none := by
  rw [get?_pop, if_pos rfl]

theorem get?_pop_of_ne (d : Dict κ ν) (h : k' ≠ k) : (d.pop k).get? k' = d.get? k' := by
  rw [get?_pop, if_neg h]

theorem get?_foldl_pop (ks : List κ) (d : Dict κ ν) (k : κ) :
    (ks.foldl (fun d k => d.pop k) d).get? k = if k ∈ ks then none else d.get? k := by
  induction ks generalizing d with
  | nil => simp
  | cons k' ks ih =>
    rw [foldl_cons, ih, get?_pop]
    by_cases hk : k = k' <;> simp [hk]

/-- The dictionary with `k` present: unchanged when it was, else extended by `k ↦ v`. -/
def setdefault (d : Dict κ ν) (k : κ) (v : ν) : Dict κ ν :=
  if (d.get? k).isSome then d else d.set k v

theorem get?_setdefault (d : Dict κ ν) (k k' : κ) (v : ν) :
    (d.setdefault k v).get? k' = if k' = k then some ((d.get? k).getD v) else d.get? k' := by
  unfold setdefault
  cases hk : d.get? k with
  | none => simp only [isSome_none, Bool.false_eq_true, if_false, get?_set, getD_none]
  | some u =>
    simp only [isSome_some, if_true, getD_some]
    split_ifs with h
    · rw [h, hk]
    · rfl

theorem items_set_of_get?_eq_none (h : d.get? k = none) (v : ν) :
    (d.set k v).items = d.items ++ [(k, v)] := by
  simp only [set, if_neg (get?_eq_none_iff.mp h)]

theorem items_foldl_set {α : Type*} {key : α → κ} {val : α → ν} {l : List α}
    (hn : (l.map key).Nodup) (hf : ∀ a ∈ l, key a ∉ d.keys) :
    (l.foldl (fun d a => d.set (key a) (val a)) d).items =
      d.items ++ l.map fun a => (key a, val a) := by
  induction l generalizing d with
  | nil => simp
  | cons a l ih =>
    obtain ⟨hh, hn⟩ := nodup_cons.mp hn
    have hi := items_set_of_get?_eq_none (get?_eq_none_iff.mpr (hf a mem_cons_self)) (val a)
    rw [foldl_cons, ih hn, hi, append_assoc, map_cons, singleton_append]
    intro b hb
    simp only [keys, hi, map_append, map_cons, map_nil, mem_append, mem_singleton, not_or]
    refine ⟨hf b (mem_cons_of_mem _ hb), ?_⟩
    intro hk
    exact hh (hk ▸ mem_map_of_mem hb)

theorem filterMap_eq_of_sublist {α β : Type*} {f : α → Option β} {as bs : List α}
    (hs : as.Sublist bs) (hd : bs.Nodup) (ho : ∀ b ∈ bs, b ∉ as → f b = none) :
    bs.filterMap f = as.filterMap f := by
  induction hs with
  | slnil => rfl
  | @cons as bs b hs ih =>
    obtain ⟨hb, hd⟩ := nodup_cons.mp hd
    have hno : f b = none := ho b mem_cons_self (fun hm => hb (hs.subset hm))
    rw [filterMap_cons_none hno]
    exact ih hd (fun c hc => ho c (mem_cons_of_mem _ hc))
  | @cons_cons as bs b hs ih =>
    obtain ⟨hb, hd⟩ := nodup_cons.mp hd
    have hr : bs.filterMap f = as.filterMap f := by
      refine ih hd (fun c hc hn => ho c (mem_cons_of_mem _ hc) ?_)
      intro hm
      rcases mem_cons.mp hm with rfl | hm
      · exact hb hc
      · exact hn hm
    rw [filterMap_cons, filterMap_cons, hr]

theorem filterMap_get?_of_sublist {ks : List κ} (hs : d.keys.Sublist ks) (hn : ks.Nodup) :
    ks.filterMap d.get? = d.values := by
  rw [filterMap_eq_of_sublist hs hn (fun k _ hk => get?_eq_none_iff.mpr hk), keys, values,
    filterMap_map, ← filterMap_eq_map]
  refine filterMap_congr ?_
  intro p hp
  exact get?_eq_some_iff.mpr hp

theorem countP_values_set_of_get?_eq_none (h : d.get? k = none) (v : ν) (p : ν → Bool) :
    (d.set k v).values.countP p = d.values.countP p + if p v then 1 else 0 := by
  simp only [values, items_set_of_get?_eq_none h, map_append, countP_append,
    map_cons, map_nil, countP_singleton]

theorem countP_values_set_of_get?_eq_some {u : ν} (h : d.get? k = some u) (v : ν) (p : ν → Bool) :
    (d.set k v).values.countP p + (if p u then 1 else 0) =
      d.values.countP p + if p v then 1 else 0 := by
  have hme := get?_eq_some_iff.mp h
  have hk : k ∈ d.keys := mem_map_of_mem hme
  simp only [values, set, if_pos hk]
  obtain ⟨items, hn⟩ := d
  induction items with
  | nil => simp at hme
  | cons q items ih =>
    obtain ⟨k', w⟩ := q
    simp only [map_cons, nodup_cons] at hn
    by_cases hkk : k' = k
    · subst k'
      have hw : w = u := by
        rcases mem_cons.mp hme with he | hm
        · exact (congrArg Prod.snd he).symm
        · exact absurd (mem_map_of_mem hm) hn.1
      have ht : items.map (fun p => if p.1 = k then (k, v) else p) = items := by
        refine (map_congr_left ?_).trans (map_id items)
        intro q hq
        have hne : q.1 ≠ k := by
          rintro rfl
          exact hn.1 (mem_map_of_mem hq)
        simp only [if_neg hne, id_eq]
      subst hw
      simp only [map_cons, if_true, ht, countP_cons]
      omega
    · have hm : (k, u) ∈ items := by
        rcases mem_cons.mp hme with he | hm
        · exact absurd (congrArg Prod.fst he).symm hkk
        · exact hm
      have hr := ih hn.2 (get?_eq_some_iff.mpr hm) hm (mem_map_of_mem hm)
      simp only [map_cons, if_neg hkk, countP_cons]
      simp only at hr
      omega

end Dict

end OriRuntime
