import OriRuntime.Canonical

/-!
# What canonical bytes say

Two accepted values have the same bytes exactly when they are the same JSON value: a boolean is not
an integer, and the order in which an object's members stand says nothing.
-/

namespace OriRuntime

open List

namespace Json

/-! ### The same value -/

mutual

/-- Equality of JSON values, whatever the order of the members of an object. -/
def Same : Json → Json → Prop
  | .null, .null => True
  | .bool a, .bool b => a = b
  | .int m, .int n => m = n
  | .float f, .float g => f = g
  | .str s, .str t => s = t
  | .list xs, .list ys => SameList xs ys
  | .dict items, .dict items' =>
    SameItems items items' ∧ ∀ key ∈ items'.map (·.1), key ∈ items.map (·.1)
  | _, _ => False

def SameList : List Json → List Json → Prop
  | [], [] => True
  | v :: vs, w :: ws => Same v w ∧ SameList vs ws
  | _, _ => False

def SameItems : List (Option Text × Json) → List (Option Text × Json) → Prop
  | [], _ => True
  | (key, v) :: rest, items => (∃ w, find? items key = some w ∧ Same v w) ∧ SameItems rest items

end

theorem mem_sorted_dict {items : List (Option Text × Json)} {key : Option Text} {w : Json} :
    (key, w) ∈ (items.map (fun i => (i.1, sorted i.2))).insertionSort itemLe ↔
      ∃ v, (key, v) ∈ items ∧ sorted v = w := by
  rw [mem_insertionSort, mem_map]
  constructor
  · rintro ⟨⟨k, v⟩, hm, heq⟩
    obtain ⟨rfl, rfl⟩ := Prod.mk.inj heq
    exact ⟨v, hm, rfl⟩
  · rintro ⟨v, hm, rfl⟩
    exact ⟨_, hm, rfl⟩

theorem itemLe_antisymm {i j : Option Text × Json} (hi : itemLe i j) (hj : itemLe j i) :
    i.1 = j.1 := by
  obtain ⟨k, v⟩ := i
  obtain ⟨l, w⟩ := j
  cases k with
  | none =>
    cases l with
    | none => rfl
    | some t => cases hj
  | some s =>
    cases l with
    | none => cases hi
    | some t =>
      simp only [itemLe, keyLe, decide_eq_true_eq] at hi hj
      exact congrArg some (le_antisymm hi hj)

theorem insertionSort_eq {xs ys : List (Option Text × Json)} (hx : (xs.map (·.1)).Nodup)
    (hy : (ys.map (·.1)).Nodup) (h : ∀ item, item ∈ xs ↔ item ∈ ys) :
    xs.insertionSort itemLe = ys.insertionSort itemLe := by
  have hperm : (xs.insertionSort itemLe).Perm (ys.insertionSort itemLe) :=
    ((perm_insertionSort _ _).trans ((perm_ext_iff_of_nodup hx.of_map hy.of_map).mpr
      h)).trans (perm_insertionSort _ _).symm
  refine hperm.eq_of_pairwise ?_ (pairwise_insertionSort _ _) (pairwise_insertionSort _ _)
  intro i j hi hj hij hji
  rw [mem_insertionSort] at hi hj
  have hk : i.1 = j.1 := itemLe_antisymm hij hji
  exact inj_on_of_nodup_map hy ((h i).mp hi) hj hk

mutual

theorem sorted_of_same : ∀ v w : Json, Readable v → Readable w → Same v w → v.sorted = w.sorted
  | .null, .null, _, _, _ => rfl
  | .bool _, .bool _, _, _, h => congrArg Json.bool h
  | .int _, .int _, _, _, h => congrArg Json.int h
  | .float _, .float _, _, _, h => congrArg Json.float h
  | .str _, .str _, _, _, h => congrArg Json.str h
  | .list xs, .list ys, hv, hw, h => congrArg Json.list (sortedList_of_same xs ys hv hw h)
  | .dict items, .dict items', hv, hw, h => by
      have hr := sortedItems_of_same items items' hv.1 hw h.1
      rw [sorted_dict, sorted_dict]
      refine congrArg Json.dict (insertionSort_eq ?_ ?_ ?_)
      · rw [map_map]
        exact hv.2
      · rw [map_map]
        exact hw.2
      · rintro ⟨key, u⟩
        rw [← mem_insertionSort itemLe, mem_sorted_dict, ← mem_insertionSort itemLe,
          mem_sorted_dict]
        constructor
        · rintro ⟨v, hm, hs⟩
          obtain ⟨w, hw', heq⟩ := hr _ hm
          exact ⟨w, (find?_eq_some_iff hw.2).mp hw', heq.symm.trans hs⟩
        · rintro ⟨w, hm, hs⟩
          obtain ⟨⟨k, v⟩, hm', hk⟩ := mem_map.mp (h.2 _ (mem_map_of_mem hm))
          obtain rfl : k = key := hk
          obtain ⟨w', hw', heq⟩ := hr _ hm'
          obtain rfl : w' = w := Option.some.inj (hw'.symm.trans ((find?_eq_some_iff hw.2).mpr hm))
          exact ⟨v, hm', heq.trans hs⟩

theorem sortedList_of_same : ∀ xs ys : List Json, ReadableList xs → ReadableList ys →
    SameList xs ys → sortedList xs = sortedList ys
  | [], [], _, _, _ => rfl
  | v :: vs, w :: ws, hv, hw, h => by
      rw [sortedList, sortedList, sorted_of_same v w hv.1 hw.1 h.1,
        sortedList_of_same vs ws hv.2 hw.2 h.2]

theorem sortedItems_of_same : ∀ items items' : List (Option Text × Json), ReadableItems items →
    Readable (.dict items') → SameItems items items' →
    ∀ item ∈ items, ∃ w, find? items' item.1 = some w ∧ sorted item.2 = sorted w
  | [], _, _, _, _ => nofun
  | (key, v) :: rest, items', hv, hw, h => by
      obtain ⟨⟨w, hf, hsm⟩, hs⟩ := h
      have hm := (find?_eq_some_iff hw.2).mp hf
      have hr := (readableItems_iff.mp hw.1 _ hm).2
      exact forall_mem_cons.mpr ⟨⟨w, hf, sorted_of_same v w hv.2.1 hr hsm⟩,
        sortedItems_of_same rest items' hv.2.2 hw hs⟩

end

mutual

theorem same_of_sorted : ∀ v w : Json, Readable v → Readable w → v.sorted = w.sorted → Same v w
  | .null, .null, _, _, _ => trivial
  | .bool _, .bool _, _, _, h => Json.bool.inj h
  | .int _, .int _, _, _, h => Json.int.inj h
  | .float _, .float _, _, _, h => Json.float.inj h
  | .str _, .str _, _, _, h => Json.str.inj h
  | .list xs, .list ys, hv, hw, h => sameList_of_sorted xs ys hv hw (Json.list.inj h)
  | .dict items, .dict items', hv, hw, h => by
      rw [sorted_dict, sorted_dict] at h
      have heq := Json.dict.inj h
      constructor
      · refine sameItems_of_sorted items items' hv.1 hw ?_
        intro item hm
        have hs := mem_sorted_dict.mpr ⟨item.2, hm, rfl⟩
        rw [heq] at hs
        obtain ⟨w, hw', hsm⟩ := mem_sorted_dict.mp hs
        exact ⟨w, (find?_eq_some_iff hw.2).mpr hw', hsm.symm⟩
      · intro key hk
        obtain ⟨item, hm, rfl⟩ := mem_map.mp hk
        have hs := mem_sorted_dict.mpr ⟨item.2, hm, rfl⟩
        rw [← heq] at hs
        obtain ⟨v, hv', -⟩ := mem_sorted_dict.mp hs
        exact mem_map.mpr ⟨_, hv', rfl⟩

theorem sameList_of_sorted : ∀ xs ys : List Json, ReadableList xs → ReadableList ys →
    sortedList xs = sortedList ys → SameList xs ys
  | [], [], _, _, _ => trivial
  | v :: vs, w :: ws, hv, hw, h => by
      obtain ⟨hh, ht⟩ := List.cons.inj h
      exact ⟨same_of_sorted v w hv.1 hw.1 hh, sameList_of_sorted vs ws hv.2 hw.2 ht⟩

theorem sameItems_of_sorted : ∀ items items' : List (Option Text × Json), ReadableItems items →
    Readable (.dict items') →
    (∀ item ∈ items, ∃ w, find? items' item.1 = some w ∧ sorted item.2 = sorted w) →
    SameItems items items'
  | [], _, _, _, _ => trivial
  | (key, v) :: rest, items', hv, hw, h => by
      rw [forall_mem_cons] at h
      obtain ⟨⟨w, hf, hs⟩, hrs⟩ := h
      have hm := (find?_eq_some_iff hw.2).mp hf
      have hr := (readableItems_iff.mp hw.1 _ hm).2
      exact ⟨⟨w, hf, same_of_sorted v w hv.2.1 hr hs⟩,
        sameItems_of_sorted rest items' hv.2.2 hw hrs⟩

end

/-! ### Strings -/

mutual

/-- No string in the value, and no key, holds a surrogate. -/
def Plain : Json → Prop
  | .str s => s.any isSurrogate = false
  | .list xs => PlainList xs
  | .dict items => PlainItems items
  | _ => True

def PlainList : List Json → Prop
  | [] => True
  | v :: vs => Plain v ∧ PlainList vs

def PlainItems : List (Option Text × Json) → Prop
  | [] => True
  | (key, v) :: rest => (key.getD []).any isSurrogate = false ∧ Plain v ∧ PlainItems rest

end

theorem isSurrogate_of_isDigit {c : CodePoint} (h : isDigit c = true) : isSurrogate c = false := by
  simp only [isDigit, decide_eq_true_eq] at h
  simp only [isSurrogate, decide_eq_false_iff_not]
  omega

theorem any_natText (n : ℕ) : (natText n).any isSurrogate = false := by
  rw [any_eq_false]
  intro c hc
  simp [isSurrogate_of_isDigit (natText_digits n c hc)]

theorem any_intText (n : ℤ) : (intText n).any isSurrogate = false := by
  unfold intText
  split_ifs
  · rw [any_cons, any_natText]
    decide
  · exact any_natText _

theorem any_decimalText (d : Decimal) : (decimalText d).any isSurrogate = false := by
  have hz : ∀ k, (List.replicate k (codePoint '0')).any isSurrogate = false := by
    intro k
    rw [any_eq_false]
    intro c hc
    rw [eq_of_mem_replicate hc]
    decide
  have hsign : (if d.neg then [codePoint '-'] else []).any isSurrogate = false := by
    cases d.neg <;> decide
  rw [decimalText, any_append, hsign, Bool.false_or]
  split_ifs
  · rw [any_append, any_natText]
    decide
  · have hd : ∀ k, (List.replicate k (codePoint '0') ++
        natText d.digits).any isSurrogate = false := by
      intro k
      rw [any_append, hz, any_natText, Bool.false_or]
    simp only [any_append, any_cons, Bool.or_eq_false_iff]
    refine ⟨?_, by decide, ?_⟩
    · rw [any_eq_false]
      intro c hc
      exact any_eq_false.mp (hd _) c (mem_of_mem_take hc)
    · rw [any_eq_false]
      intro c hc
      exact any_eq_false.mp (hd _) c (mem_of_mem_drop hc)

theorem any_escapeChar (c : CodePoint) : (escapeChar c).any isSurrogate = isSurrogate c := by
  unfold escapeChar
  split_ifs with h₁ h₂ h₃ h₄ h₅ h₆ h₇ h₈
  all_goals first | (subst_vars; decide) | skip
  · have hh : ∀ d < 16, isSurrogate (hexDigit d) = false := by decide
    have hl : c.val < 32 := h₈
    rw [any_append, any_cons, any_cons, hh _ (by omega), hh _ (by omega)]
    have hc : isSurrogate c = false := by
      simp only [isSurrogate, decide_eq_false_iff_not]
      omega
    rw [hc]
    decide
  · simp

theorem any_quoted (s : Text) : (quoted s).any isSurrogate = s.any isSurrogate := by
  have he : (escaped s).any isSurrogate = s.any isSurrogate := by
    rw [escaped, any_flatten, any_map]
    induction s with
    | nil => rfl
    | cons c cs ih => rw [any_cons, any_cons, ih, Function.comp_apply, any_escapeChar]
  have hq : isSurrogate (codePoint '"') = false := by decide
  rw [quoted, cons_append, any_cons, any_append, he, any_cons, any_nil, hq]
  simp

mutual

theorem any_render : ∀ v : Json, (render v).any isSurrogate = false ↔ Plain v
  | .null | .bool true | .bool false => iff_of_true (by decide) trivial
  | .int n => iff_of_true (any_intText n) trivial
  | .float .nan | .float (.infinity true) | .float (.infinity false) =>
    iff_of_true (by decide) trivial
  | .float (.finite d) => iff_of_true (any_decimalText d) trivial
  | .other _ => iff_of_true rfl trivial
  | .str s => by rw [render, any_quoted, Plain]
  | .list [] => iff_of_true (by decide) trivial
  | .list (v :: vs) => by
      have ho : isSurrogate (codePoint '[') = false := by decide
      rw [render, any_cons, any_append, ho, Bool.false_or, Bool.or_eq_false_iff,
        any_render v, any_renderList vs, Plain, PlainList]
  | .dict [] => iff_of_true (by decide) trivial
  | .dict ((key, v) :: rest) => by
      have ho : isSurrogate (codePoint '\x7b') = false := by decide
      have hc : isSurrogate (codePoint ':') = false := by decide
      rw [render, any_cons, any_append, any_cons, any_append, ho, hc,
        Bool.false_or, Bool.false_or, Bool.or_eq_false_iff, Bool.or_eq_false_iff, any_quoted,
        any_render v, any_renderItems rest, Plain, PlainItems]

theorem any_renderList : ∀ xs : List Json, (renderList xs).any isSurrogate = false ↔ PlainList xs
  | [] => iff_of_true (by decide) trivial
  | v :: vs => by
      have hc : isSurrogate (codePoint ',') = false := by decide
      rw [renderList, any_cons, any_append, hc, Bool.false_or, Bool.or_eq_false_iff,
        any_render v, any_renderList vs, PlainList]

theorem any_renderItems : ∀ items : List (Option Text × Json),
    (renderItems items).any isSurrogate = false ↔ PlainItems items
  | [] => iff_of_true (by decide) trivial
  | (key, v) :: rest => by
      have hc : isSurrogate (codePoint ',') = false := by decide
      have ho : isSurrogate (codePoint ':') = false := by decide
      rw [renderItems, any_cons, any_append, any_cons, any_append, hc,
        ho, Bool.false_or, Bool.false_or, Bool.or_eq_false_iff, Bool.or_eq_false_iff,
        any_quoted, any_render v, any_renderItems rest, PlainItems]

end

theorem plainItems_iff {items : List (Option Text × Json)} :
    PlainItems items ↔ ∀ item ∈ items, (item.1.getD []).any isSurrogate = false ∧ Plain item.2 := by
  induction items with
  | nil => simp [PlainItems]
  | cons item items ih => rw [PlainItems, ih, forall_mem_cons, and_assoc]

mutual

theorem plain_sorted : ∀ v : Json, Plain v.sorted ↔ Plain v
  | .null | .bool _ | .int _ | .float _ | .str _ | .other _ => Iff.rfl
  | .list xs => plainList_sorted xs
  | .dict items => by
      have hi := plainItems_sorted items
      rw [sortedItems_eq, plainItems_iff] at hi
      rw [sorted_dict, Plain, Plain, ← hi, plainItems_iff]
      simp only [mem_insertionSort]

theorem plainList_sorted : ∀ xs : List Json, PlainList (sortedList xs) ↔ PlainList xs
  | [] => Iff.rfl
  | v :: vs => by rw [sortedList, PlainList, PlainList, plain_sorted v, plainList_sorted vs]

theorem plainItems_sorted : ∀ items : List (Option Text × Json),
    PlainItems (sortedItems items) ↔ PlainItems items
  | [] => Iff.rfl
  | (_, v) :: rest => by
      rw [sortedItems, PlainItems, PlainItems, plain_sorted v, plainItems_sorted rest]

end

/-! ### Canonical values -/

/-- A value built of dicts, which hold no key twice. -/
structure Value where
  json : Json
  distinct : json.DistinctKeys

theorem canonicalJson_accepts_iff (v : Json) :
    (∃ b, canonicalJson v = .ok b) ↔ InZone v ∧ Plain v := by
  constructor
  · rintro ⟨b, hb⟩
    obtain ⟨hz, hp, -⟩ := canonicalJson_eq_ok_iff.mp hb
    exact ⟨hz, (plain_sorted v).mp ((any_render _).mp hp)⟩
  · rintro ⟨hz, hp⟩
    exact ⟨_, canonicalJson_eq_ok_iff.mpr ⟨hz, (any_render _).mpr ((plain_sorted v).mpr hp), rfl⟩⟩

theorem same_of_canonicalJson {v w : Value} {b : Text} (hv : canonicalJson v.json = .ok b)
    (hw : canonicalJson w.json = .ok b) : Same v.json w.json := by
  have hr := loads_canonicalJson dictOf_keeps v.distinct hv
  rw [loads_canonicalJson dictOf_keeps w.distinct hw] at hr
  exact same_of_sorted _ _ (readable_of_inZone _ (canonicalJson_eq_ok_iff.mp hv).1 v.distinct)
    (readable_of_inZone _ (canonicalJson_eq_ok_iff.mp hw).1 w.distinct) (Option.some.inj hr).symm

theorem canonicalJson_of_same {v w : Value} {b : Text} (hv : canonicalJson v.json = .ok b)
    (hw : InZone w.json) (hm : Same v.json w.json) : canonicalJson w.json = .ok b := by
  obtain ⟨hz, hp, rfl⟩ := canonicalJson_eq_ok_iff.mp hv
  have hs := sorted_of_same _ _ (readable_of_inZone _ hz v.distinct)
    (readable_of_inZone _ hw w.distinct) hm
  have hd : dumps w.json = dumps v.json := by rw [dumps, ← hs, dumps]
  exact canonicalJson_eq_ok_iff.mpr ⟨hw, hd ▸ hp, hd⟩

/-- Canonical bytes read back, by either reader, as a value with the same canonical bytes; two
accepted values have the same bytes exactly when they are the same value; and a value is accepted
exactly when it lies in the zone at every depth. -/
theorem canonicalJson_canonical (v : Value) :
    (∀ b, canonicalJson v.json = .ok b → ∃ w, loads dictOf b = some w ∧
      loads uniqueMembers b = some w ∧ Same v.json w ∧ canonicalJson w = .ok b) ∧
    (∀ (w : Value) (b b' : Text), canonicalJson v.json = .ok b → canonicalJson w.json = .ok b' →
      (b = b' ↔ Same v.json w.json)) ∧
    ((∃ b, canonicalJson v.json = .ok b) ↔ InZone v.json ∧ Plain v.json) := by
  refine ⟨?_, ?_, canonicalJson_accepts_iff v.json⟩
  · intro b hb
    have hreadable := readable_of_inZone _ (canonicalJson_eq_ok_iff.mp hb).1 v.distinct
    refine ⟨v.json.sorted, loads_canonicalJson dictOf_keeps v.distinct hb,
      loads_canonicalJson uniqueMembers_keeps v.distinct hb, ?_, canonicalJson_sorted hb⟩
    exact same_of_sorted _ _ hreadable (readable_sorted _ hreadable) (sorted_sorted _).symm
  · intro w b b' hb hb'
    constructor
    · rintro rfl
      exact same_of_canonicalJson hb hb'
    · intro hsame
      have hb'' := canonicalJson_of_same hb (canonicalJson_eq_ok_iff.mp hb').1 hsame
      exact Except.ok.inj (hb''.symm.trans hb')

/-- An object of a boolean, an integer and a string, its members out of order. -/
theorem canonicalJson_canonical_object :
    ∃ w, loads dictOf (text "\x7b\"a\":1,\"b\":[true,\"x\"]\x7d") = some w ∧
      canonicalJson w = .ok (text "\x7b\"a\":1,\"b\":[true,\"x\"]\x7d") := by
  have hdistinct : (obj [("b", .list [.bool true, .str (text "x")]), ("a", .int 1)]).DistinctKeys :=
    ⟨by decide, ⟨trivial, trivial, trivial⟩, trivial, trivial⟩
  have hbytes : (canonicalJson (obj [("b", .list [.bool true, .str (text "x")]),
      ("a", .int 1)])) = .ok (text "\x7b\"a\":1,\"b\":[true,\"x\"]\x7d") := by
    rfl
  obtain ⟨w, hread, -, -, hw⟩ := (canonicalJson_canonical ⟨_, hdistinct⟩).1 _ hbytes
  exact ⟨w, hread, hw⟩

end Json

end OriRuntime
