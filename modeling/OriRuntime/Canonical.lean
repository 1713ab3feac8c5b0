import OriRuntime.JsonSorted

/-!
# Canonical JSON of the evidence chain

`ori/security/evidence/canonical.py`. Bytes are held as the text they encode: a text with a lone
surrogate has no UTF-8 form and is refused. A refusal names where in the value it was met.
-/

namespace OriRuntime

open List

def integerMax : ℤ := 9007199254740991

inductive PathStep where
  | member (key : Text)
  | index (i : ℕ)
  deriving DecidableEq

inductive CanonicalFault where
  | integerMagnitude
  | nonFinite
  | floatZone
  | keyType
  | noForm (typeName : String)
  | loneSurrogate
  deriving DecidableEq

structure CanonicalisationError where
  path : List PathStep
  fault : CanonicalFault
  deriving DecidableEq

/-- Zero, or a magnitude from `1e-4` up to `1e16`. -/
def Decimal.inZone (d : Decimal) : Bool :=
  if d.digits = 0 then true
  else if 0 ≤ d.exponent then decide (d.digits * 10 ^ d.exponent.toNat < 10 ^ 16)
  else
    let places := (-d.exponent).toNat
    decide (10 ^ places ≤ d.digits * 10 ^ 4 ∧ d.digits < 10 ^ 16 * 10 ^ places)

def isSurrogate (c : CodePoint) : Bool := decide (0xD800 ≤ c.val ∧ c.val ≤ 0xDFFF)

namespace Json

mutual

/-- `_reject`: refuses a value some serialiser would write otherwise, at any depth. -/
def reject (path : List PathStep) : Json → Except CanonicalisationError Unit
  | .null => .ok ()
  | .bool _ => .ok ()
  | .int n => if integerMax < |n| then .error ⟨path, .integerMagnitude⟩ else .ok ()
  | .float .nan => .error ⟨path, .nonFinite⟩
  | .float (.infinity _) => .error ⟨path, .nonFinite⟩
  | .float (.finite d) => if d.inZone then .ok () else .error ⟨path, .floatZone⟩
  | .str _ => .ok ()
  | .dict items => rejectItems path items
  | .list xs => rejectList path 0 xs
  | .other typeName => .error ⟨path, .noForm typeName⟩

def rejectList (path : List PathStep) : ℕ → List Json → Except CanonicalisationError Unit
  | _, [] => .ok ()
  | i, v :: vs =>
    match reject (path ++ [.index i]) v with
    | .error e => .error e
    | .ok () => rejectList path (i + 1) vs

def rejectItems (path : List PathStep) :
    List (Option Text × Json) → Except CanonicalisationError Unit
  | [] => .ok ()
  | (none, _) :: _ => .error ⟨path, .keyType⟩
  | (some key, v) :: rest =>
    match reject (path ++ [.member key]) v with
    | .error e => .error e
    | .ok () => rejectItems path rest

end

/-- `canonical_json`: the exact bytes a row is signed and hashed over. -/
def canonicalJson (v : Json) : Except CanonicalisationError Text :=
  match reject [] v with
  | .error e => .error e
  | .ok () =>
    if (dumps v).any isSurrogate then .error ⟨[], .loneSurrogate⟩ else .ok (dumps v)

/-! ### The zone -/

mutual

/-- The values `_reject` accepts. -/
def InZone : Json → Prop
  | .int n => |n| ≤ integerMax
  | .float (.finite d) => d.inZone = true
  | .float _ => False
  | .other _ => False
  | .list xs => InZoneList xs
  | .dict items => InZoneItems items
  | _ => True

def InZoneList : List Json → Prop
  | [] => True
  | v :: vs => InZone v ∧ InZoneList vs

def InZoneItems : List (Option Text × Json) → Prop
  | [] => True
  | (key, v) :: rest => key.isSome = true ∧ InZone v ∧ InZoneItems rest

end

mutual

theorem reject_eq_ok_iff : ∀ (v : Json) (path : List PathStep), reject path v = .ok () ↔ InZone v
  | .null, _ | .bool _, _ => by simp [reject, InZone]
  | .int n, path => by
      rw [reject, InZone, ← not_lt]
      split_ifs with h
      · simp [h]
      · simp [h]
  | .float (.finite d), path => by
      rw [reject, InZone]
      split_ifs with h
      · simp [h]
      · simp [h]
  | .float .nan, _ | .float (.infinity _), _ | .str _, _ | .other _, _ => by simp [reject, InZone]
  | .list xs, path => rejectList_eq_ok_iff xs path 0
  | .dict items, path => rejectItems_eq_ok_iff items path

theorem rejectList_eq_ok_iff : ∀ (xs : List Json) (path : List PathStep) (i : ℕ),
    rejectList path i xs = .ok () ↔ InZoneList xs
  | [], _, _ => by simp [rejectList, InZoneList]
  | v :: vs, path, i => by
      have hv := reject_eq_ok_iff v (path ++ [.index i])
      have hs := rejectList_eq_ok_iff vs path (i + 1)
      rw [rejectList, InZoneList, ← hv, ← hs]
      split <;> simp_all

theorem rejectItems_eq_ok_iff : ∀ (items : List (Option Text × Json)) (path : List PathStep),
    rejectItems path items = .ok () ↔ InZoneItems items
  | [], _ | (none, _) :: _, _ => by simp [rejectItems, InZoneItems]
  | (some key, v) :: rest, path => by
      have hv := reject_eq_ok_iff v (path ++ [.member key])
      have hr := rejectItems_eq_ok_iff rest path
      rw [rejectItems, InZoneItems, ← hv, ← hr]
      split <;> simp_all

end

mutual

/-- No dict holds a key twice, as no dict of Python can. -/
def DistinctKeys : Json → Prop
  | .list xs => DistinctKeysList xs
  | .dict items => (items.filterMap (·.1)).Nodup ∧ DistinctKeysItems items
  | _ => True

def DistinctKeysList : List Json → Prop
  | [] => True
  | v :: vs => DistinctKeys v ∧ DistinctKeysList vs

def DistinctKeysItems : List (Option Text × Json) → Prop
  | [] => True
  | (_, v) :: rest => DistinctKeys v ∧ DistinctKeysItems rest

end

variable {items : List (Option Text × Json)} {b : Text} {v : Json}

theorem distinctKeysItems_iff : DistinctKeysItems items ↔ ∀ item ∈ items, DistinctKeys item.2 := by
  induction items with
  | nil => simp [DistinctKeysItems]
  | cons item items ih => rw [DistinctKeysItems, ih, forall_mem_cons]

theorem distinctKeys_obj {items : List (String × Json)} (h : (items.map (·.1)).Nodup)
    (ht : ∀ item ∈ items, DistinctKeys item.2) : DistinctKeys (obj items) := by
  refine ⟨?_, distinctKeysItems_iff.mpr ?_⟩
  · rw [filterMap_map]
    have hkeys : items.filterMap ((·.1) ∘ fun item => (some (text item.1), item.2)) =
        (items.map (·.1)).map text := by
      rw [map_map]
      exact congrFun filterMap_eq_map items
    rw [hkeys]
    exact h.map (fun _ _ heq => text_injective heq)
  · intro item hitem
    obtain ⟨i, hi, rfl⟩ := mem_map.mp hitem
    exact ht i hi

theorem keys_eq (h : ∀ item ∈ items, item.1.isSome = true) :
    items.map (·.1) = (items.filterMap (·.1)).map some := by
  induction items with
  | nil => rfl
  | cons item items ih =>
    rw [forall_mem_cons] at h
    obtain ⟨key, hk⟩ := Option.isSome_iff_exists.mp h.1
    rw [map_cons, filterMap_cons, hk, map_cons, ih h.2]

mutual

theorem readable_of_inZone : ∀ v : Json, InZone v → DistinctKeys v → Readable v
  | .null, _, _ | .bool _, _, _ | .int _, _, _ | .float (.finite _), _, _ => trivial
  | .float .nan, h, _ => h
  | .float (.infinity _), h, _ => h
  | .str _, _, _ => trivial
  | .other _, h, _ => h
  | .list xs, h, hd => readableList_of_inZone xs h hd
  | .dict items, h, hd => by
      have hi := readableItems_of_inZone items h hd.2
      refine ⟨hi, ?_⟩
      rw [keys_eq (fun item hitem => (readableItems_iff.mp hi item hitem).1)]
      exact hd.1.map (Option.some_injective _)

theorem readableList_of_inZone : ∀ xs : List Json, InZoneList xs → DistinctKeysList xs →
    ReadableList xs
  | [], _, _ => trivial
  | v :: vs, h, hd => ⟨readable_of_inZone v h.1 hd.1, readableList_of_inZone vs h.2 hd.2⟩

theorem readableItems_of_inZone : ∀ items : List (Option Text × Json), InZoneItems items →
    DistinctKeysItems items → ReadableItems items
  | [], _, _ => trivial
  | (_, v) :: rest, h, hd =>
    ⟨h.1, readable_of_inZone v h.2.1 hd.1, readableItems_of_inZone rest h.2.2 hd.2⟩

end

theorem inZoneItems_iff :
    InZoneItems items ↔ ∀ item ∈ items, item.1.isSome = true ∧ InZone item.2 := by
  induction items with
  | nil => simp [InZoneItems]
  | cons item items ih => rw [InZoneItems, ih, forall_mem_cons, and_assoc]

mutual

theorem inZone_sorted : ∀ v : Json, InZone v → InZone v.sorted
  | .null, h | .bool _, h | .int _, h | .float _, h | .str _, h | .other _, h => h
  | .list xs, h => inZoneList_sorted xs h
  | .dict items, h => by
      have hi := inZoneItems_sorted items h
      rw [sortedItems_eq, inZoneItems_iff] at hi
      rw [sorted_dict]
      refine inZoneItems_iff.mpr ?_
      intro item hitem
      exact hi item ((mem_insertionSort itemLe).mp hitem)

theorem inZoneList_sorted : ∀ xs : List Json, InZoneList xs → InZoneList (sortedList xs)
  | [], h => h
  | v :: vs, h => ⟨inZone_sorted v h.1, inZoneList_sorted vs h.2⟩

theorem inZoneItems_sorted : ∀ items : List (Option Text × Json), InZoneItems items →
    InZoneItems (sortedItems items)
  | [], h => h
  | (_, v) :: rest, h => ⟨h.1, inZone_sorted v h.2.1, inZoneItems_sorted rest h.2.2⟩

end

/-! ### Canonical bytes -/

theorem canonicalJson_eq_ok_iff : canonicalJson v = .ok b ↔
    InZone v ∧ (dumps v).any isSurrogate = false ∧ dumps v = b := by
  rw [← reject_eq_ok_iff v []]
  unfold canonicalJson
  split
  · rename_i e he
    simp [he]
  · rename_i ho
    rw [ho]
    split_ifs with h
    · simp [h]
    · simp [Bool.eq_false_iff.mpr h]

theorem loads_canonicalJson {hook : PairsHook} (hk : Keeps hook) (hd : DistinctKeys v)
    (h : canonicalJson v = .ok b) : loads hook b = some v.sorted := by
  obtain ⟨hz, -, rfl⟩ := canonicalJson_eq_ok_iff.mp h
  exact loads_dumps hk (readable_of_inZone v hz hd)

theorem canonicalJson_sorted (h : canonicalJson v = .ok b) : canonicalJson v.sorted = .ok b := by
  obtain ⟨hz, hp, rfl⟩ := canonicalJson_eq_ok_iff.mp h
  have hd : dumps v.sorted = dumps v := by rw [dumps, sorted_sorted, dumps]
  refine canonicalJson_eq_ok_iff.mpr ⟨inZone_sorted v hz, ?_, hd⟩
  rw [hd]
  exact hp

end Json

end OriRuntime
