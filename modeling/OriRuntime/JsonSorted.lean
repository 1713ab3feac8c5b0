import OriRuntime.JsonRoundTrip

/-!
# Sorted members

Sorting the members of every dict keeps what each key reads, gives the same value when done twice,
and keeps a value readable; a readable value equals itself.
-/

namespace OriRuntime

open List Option

namespace Json

theorem keyLe_total (k l : Option Text) : keyLe k l = true ∨ keyLe l k = true := by
  cases k with
  | none => exact .inl rfl
  | some s =>
    cases l with
    | none => exact .inr rfl
    | some t => simpa [keyLe] using le_total s t

theorem keyLe_trans {k l m : Option Text} (hk : keyLe k l = true) (hl : keyLe l m = true) :
    keyLe k m = true := by
  cases k with
  | none => rfl
  | some s =>
    cases l with
    | none => cases hk
    | some t =>
      cases m with
      | none => cases hl
      | some u =>
        simp only [keyLe, decide_eq_true_eq] at hk hl ⊢
        exact le_trans hk hl

abbrev itemLe (i j : Option Text × Json) : Prop := keyLe i.1 j.1 = true

instance : Std.Total itemLe := ⟨fun i j => keyLe_total i.1 j.1⟩

instance : IsTrans (Option Text × Json) itemLe := ⟨fun _ _ _ h h' => keyLe_trans h h'⟩

theorem sortedItems_eq (items : List (Option Text × Json)) :
    sortedItems items = items.map (fun item => (item.1, sorted item.2)) := by
  induction items with
  | nil => rfl
  | cons item items ih => rw [sortedItems, map_cons, ih]

theorem sorted_dict (items : List (Option Text × Json)) :
    sorted (.dict items) = .dict ((items.map (fun item => (item.1, sorted item.2))).insertionSort
      itemLe) := by
  rw [sorted, sortedItems_eq]

variable {items : List (Option Text × Json)} {v : Json}

theorem readableItems_iff :
    ReadableItems items ↔ ∀ item ∈ items, item.1.isSome = true ∧ Readable item.2 := by
  induction items with
  | nil => simp [ReadableItems]
  | cons item items ih => rw [ReadableItems, ih, forall_mem_cons, and_assoc]

theorem keys_sorted (items : List (Option Text × Json)) :
    (((items.map (fun item => (item.1, sorted item.2))).insertionSort itemLe).map (·.1)).Perm
      (items.map (·.1)) := by
  refine ((List.perm_insertionSort _ _).map _).trans ?_
  rw [List.map_map]
  exact List.Perm.refl _

/-! ### What a key reads -/

theorem find?_eq_some_iff (h : (items.map (·.1)).Nodup) {key : Option Text} :
    find? items key = some v ↔ (key, v) ∈ items := by
  induction items with
  | nil => simp [find?]
  | cons item items ih =>
    rw [map_cons, nodup_cons] at h
    rw [find?, List.find?_cons]
    by_cases hk : item.1 = key
    · subst hk
      simp only [decide_true, map_some, some.injEq, mem_cons]
      constructor
      · rintro rfl
        exact .inl rfl
      · rintro (hm | hm)
        · exact (congrArg Prod.snd hm).symm
        · exact absurd (mem_map_of_mem hm) h.1
    · simp only [hk, decide_false, mem_cons]
      refine (ih h.2).trans ⟨.inr, ?_⟩
      rintro (hm | hm)
      · exact absurd (congrArg Prod.fst hm).symm hk
      · exact hm

theorem find?_sorted (h : (items.map (·.1)).Nodup) (key : Option Text) :
    find? ((items.map (fun item => (item.1, sorted item.2))).insertionSort itemLe) key =
      (find? items key).map sorted := by
  have hn := (keys_sorted items).nodup_iff.mpr h
  apply Option.ext
  intro v
  rw [find?_eq_some_iff hn, List.mem_insertionSort, List.mem_map, Option.map_eq_some_iff]
  constructor
  · rintro ⟨⟨k, w⟩, hm, heq⟩
    obtain ⟨rfl, rfl⟩ := Prod.mk.inj heq
    exact ⟨w, (find?_eq_some_iff h).mpr hm, rfl⟩
  · rintro ⟨w, hw, rfl⟩
    exact ⟨(key, w), (find?_eq_some_iff h).mp hw, rfl⟩

theorem get?_sorted (h : (items.map (·.1)).Nodup) (key : String) :
    (sorted (.dict items)).get? key = ((Json.dict items).get? key).map sorted := by
  rw [sorted_dict]
  exact find?_sorted h _

theorem get?_sorted_obj {items : List (String × Json)} (h : (items.map (·.1)).Nodup)
    (key : String) : (obj items).sorted.get? key = ((obj items).get? key).map sorted := by
  refine get?_sorted ?_ key
  rw [List.map_map]
  have hm : items.map ((·.1) ∘ fun item => (some (text item.1), item.2)) =
      (items.map (·.1)).map (fun k => some (text k)) := by
    rw [List.map_map]
    rfl
  rw [hm]
  exact h.map (fun _ _ heq => text_injective (Option.some.inj heq))

/-! ### Sorting once -/

theorem insertionSort_map_sorted (items : List (Option Text × Json)) :
    (items.insertionSort itemLe).map (fun item => (item.1, sorted item.2)) =
      (items.map (fun item => (item.1, sorted item.2))).insertionSort itemLe :=
  map_insertionSort _ _ _ _ (fun _ _ _ _ => Iff.rfl)

mutual

theorem sorted_sorted : ∀ v : Json, v.sorted.sorted = v.sorted
  | .null | .bool _ | .int _ | .float _ | .str _ | .other _ => rfl
  | .list xs => by
      have h := sortedList_sorted xs
      simp only [sorted, h]
  | .dict items => by
      have h := sortedItems_sorted items
      rw [sortedItems_eq, sortedItems_eq] at h
      rw [sorted_dict, sorted_dict, insertionSort_map_sorted, h]
      exact congrArg Json.dict (List.Pairwise.insertionSort_eq (pairwise_insertionSort _ _))

theorem sortedList_sorted : ∀ xs : List Json, sortedList (sortedList xs) = sortedList xs
  | [] => rfl
  | v :: vs => by
      have hv := sorted_sorted v
      have hs := sortedList_sorted vs
      simp only [sortedList, hv, hs]

theorem sortedItems_sorted : ∀ items : List (Option Text × Json),
    sortedItems (sortedItems items) = sortedItems items
  | [] => rfl
  | (key, v) :: rest => by
      have hv := sorted_sorted v
      have hr := sortedItems_sorted rest
      simp only [sortedItems, hv, hr]

end

mutual

theorem readable_sorted : ∀ v : Json, Readable v → Readable v.sorted
  | .null, h | .bool _, h | .int _, h | .float _, h | .str _, h | .other _, h => h
  | .list xs, h => readableList_sorted xs h
  | .dict items, h => by
      have hi := readableItems_sorted items h.1
      rw [sorted_dict]
      rw [sortedItems_eq, readableItems_iff] at hi
      refine ⟨readableItems_iff.mpr ?_, (keys_sorted items).nodup_iff.mpr h.2⟩
      intro item hitem
      exact hi item ((mem_insertionSort itemLe).mp hitem)

theorem readableList_sorted : ∀ xs : List Json, ReadableList xs → ReadableList (sortedList xs)
  | [], h => h
  | v :: vs, h => ⟨readable_sorted v h.1, readableList_sorted vs h.2⟩

theorem readableItems_sorted : ∀ items : List (Option Text × Json),
    ReadableItems items → ReadableItems (sortedItems items)
  | [], h => h
  | (_, v) :: rest, h => ⟨h.1, readable_sorted v h.2.1, readableItems_sorted rest h.2.2⟩

end

theorem loads_dumps {hook : PairsHook} (hk : Keeps hook) (h : Readable v) :
    loads hook (dumps v) = some v.sorted :=
  loads_render hk (readable_sorted v h)

/-! ### A value equals itself -/

theorem pyEqItems_of {ys : List (Option Text × Json)} :
    ∀ items : List (Option Text × Json), (∀ item ∈ items, find? ys item.1 = some item.2) →
      (∀ item ∈ items, pyEq item.2 item.2 = true) → pyEqItems items ys = true
  | [], _, _ => rfl
  | (key, v) :: rest, hf, hself => by
      rw [forall_mem_cons] at hf hself
      have hv : pyEq v v = true := hself.1
      rw [pyEqItems, hf.1, Bool.and_eq_true]
      exact ⟨hv, pyEqItems_of rest hf.2 hself.2⟩

mutual

theorem pyEq_self : ∀ v : Json, Readable v → pyEq v v = true
  | .null, _ => rfl
  | .bool b, _ | .int n, _ | .float (.finite d), _ => by simp [pyEq, number]
  | .float .nan, h | .float (.infinity _), h | .other _, h => absurd h (by simp [Readable])
  | .str s, _ => by simp [pyEq]
  | .list xs, h => pyEqList_self xs h
  | .dict items, h => by
      rw [pyEq, Bool.and_eq_true]
      refine ⟨decide_eq_true rfl, pyEqItems_of items ?_ (pyEqItems_self items h.1)⟩
      intro item hitem
      exact (find?_eq_some_iff h.2).mpr hitem

theorem pyEqList_self : ∀ xs : List Json, ReadableList xs → pyEqList xs xs = true
  | [], _ => rfl
  | v :: vs, h => by rw [pyEqList, pyEq_self v h.1, pyEqList_self vs h.2, Bool.and_self]

theorem pyEqItems_self : ∀ items : List (Option Text × Json), ReadableItems items →
    ∀ item ∈ items, pyEq item.2 item.2 = true
  | [], _ => nofun
  | (_, v) :: rest, h =>
    forall_mem_cons.mpr ⟨pyEq_self v h.2.1, pyEqItems_self rest h.2.2⟩

end

end Json

end OriRuntime
