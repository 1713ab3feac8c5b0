import OriRuntime.GatewayExport

/-!
# Export paging

A page ends where the next begins, so the pages of an export are its list cut into pieces.
-/

namespace OriRuntime

open List Option

namespace Export

variable {x : Export} {size : ExportResponse → ℕ}

/-! ### The fitting count -/

variable {f : ℕ → Bool} {n total : ℕ} {rows : List ExportItem}

theorem fittingLoop_spec (hmono : ∀ n m, 1 ≤ n → n ≤ m → m ≤ total → f m = true → f n = true) :
    ∀ fuel low high, high - low ≤ fuel → low ≤ high → high ≤ total → (low = 0 ∨ f low = true) →
      (∀ n, high < n → n ≤ total → f n = false) →
      fittingLoop f fuel low high ≤ total ∧
        (fittingLoop f fuel low high = 0 ∨ f (fittingLoop f fuel low high) = true) ∧
        ∀ n, fittingLoop f fuel low high < n → n ≤ total → f n = false := by
  intro fuel
  induction fuel with
  | zero =>
    intro low high hfuel he ht hl hhigh
    obtain rfl : low = high := by omega
    exact ⟨ht, hl, hhigh⟩
  | succ fuel ih =>
    intro low high hfuel he ht hl hhigh
    simp only [fittingLoop]
    split <;> rename_i hlt
    · split_ifs with hm
      · exact ih _ _ (by omega) (by omega) ht (.inr hm) hhigh
      refine ih _ _ (by omega) (by omega) (by omega) hl (fun n hn hnt => ?_)
      by_cases hh : high < n
      · exact hhigh n hh hnt
      · rw [Bool.eq_false_iff]
        exact fun hf => hm (hmono _ _ (by omega) (by omega) hnt hf)
    · obtain rfl : low = high := by omega
      exact ⟨ht, hl, hhigh⟩

theorem fittingCount_spec (hmono : ∀ n m, 1 ≤ n → n ≤ m → m ≤ total → f m = true → f n = true) :
    fittingCount total f ≤ total ∧ (fittingCount total f = 0 ∨ f (fittingCount total f) = true) ∧
      ∀ n, fittingCount total f < n → n ≤ total → f n = false :=
  fittingLoop_spec hmono total 0 total (by omega) (Nat.zero_le _) le_rfl (.inl rfl)
    (fun n hn hl => absurd hn (by omega))

theorem fittingLoop_fits (fuel low high : ℕ) (h : low = 0 ∨ f low = true) :
    fittingLoop f fuel low high = 0 ∨ f (fittingLoop f fuel low high) = true := by
  induction fuel generalizing low high with
  | zero => exact h
  | succ fuel ih =>
    simp only [fittingLoop]
    split_ifs with hlt hm
    · exact ih _ _ (.inr hm)
    · exact ih _ _ h
    · exact h

/-- What is published is within the maximum, whatever the lengths, or is the refusal. -/
theorem encode_fits (size : ExportResponse → ℕ) (r : ExportResponse) :
    size (encode size r) ≤ payloadMaximum ∨
      encode size r = { exportType := r.exportType, error := some itemExceedsPayloadMaximum } := by
  simp only [encode]
  split_ifs with hr hc
  · exact .inl (of_decide_eq_true hr)
  · exact .inr rfl
  · exact .inl (of_decide_eq_true ((fittingLoop_fits _ _ _ (.inl rfl)).resolve_left hc))

/-! ### The list an export serves -/

/-- The whole result. -/
def full : Export → List ExportItem
  | .health snapshot => [.record snapshot]
  | .log _ rows => rows.map .record
  | .sensorHistory rows bucketMs => bucketSensorRows rows bucketMs

/-- What pages are cut from: the source gives a log's first 1000 rows, and buckets the first 10000
of history. -/
def served : Export → List ExportItem
  | .health snapshot => [.record snapshot]
  | .log _ rows => (rows.map .record).take maxExportLimit
  | .sensorHistory rows bucketMs =>
    bucketSensorRows (rows.take maxSensorHistorySourceRows) bucketMs

variable {exportType : String} {limit offset : ℕ}

theorem pagedResponse_eq {rows' : List ExportItem}
    (hpage : (rows.drop offset).take limit = (rows'.drop offset).take limit)
    (ht : (offset + ((rows'.drop offset).take limit).length < rows.length ∨
        maxExportLimit ≤ rows.length ∧
          offset + ((rows'.drop offset).take limit).length = rows.length) ↔
      (offset + ((rows'.drop offset).take limit).length < rows'.length ∨
        maxExportLimit ≤ rows'.length ∧
          offset + ((rows'.drop offset).take limit).length = rows'.length)) :
    pagedResponse exportType rows limit offset = pagedResponse exportType rows' limit offset := by
  unfold pagedResponse
  rw [hpage]
  simp only [ht]

theorem pagedResponse_take :
    pagedResponse exportType (rows.take (min maxExportLimit (limit + offset + 1))) limit offset =
      pagedResponse exportType (rows.take maxExportLimit) limit offset := by
  by_cases hm : maxExportLimit ≤ limit + offset + 1
  · rw [min_eq_left hm]
  apply pagedResponse_eq
  · rw [drop_take, drop_take, take_take, take_take]
    congr 1
    omega
  · simp only [length_take, length_drop]
    omega

theorem length_served_log {rows : List Json} :
    (served (.log exportType rows)).length = min maxExportLimit rows.length := by
  simp only [served, length_take, length_map]

def Asked (x : Export) (offset : ℕ) : Prop :=
  offset < (served x).length ∨
    offset = (served x).length ∧ (maxExportLimit ≤ (served x).length ∨ offset = 0)

theorem respond_eq (hi : 1 ≤ limit) (ha : Asked x offset) :
    x.respond limit offset = pagedResponse x.exportType (served x) limit offset := by
  cases x with
  | health snapshot =>
    have ho : offset = 0 := by
      unfold Asked served maxExportLimit at ha
      simp only [length_singleton] at ha
      omega
    subst ho
    obtain ⟨n, rfl⟩ : ∃ n, limit = n + 1 := ⟨limit - 1, by omega⟩
    simp [respond, pagedResponse, served, maxExportLimit]
  | log exportType rows =>
    have hl : logLimit (min maxExportLimit (limit + offset + 1)) =
        min maxExportLimit (limit + offset + 1) := by
      unfold logLimit maxExportLimit
      omega
    simp only [respond, hl, map_take]
    exact pagedResponse_take
  | sensorHistory rows bucketMs => rfl

theorem length_set_le {κ ν : Type} [DecidableEq κ] (d : Dict κ ν) (k : κ) (v : ν) :
    (d.set k v).items.length ≤ d.items.length + 1 := by
  simp only [Dict.set]
  split_ifs
  · rw [length_map]
    exact Nat.le_succ _
  · rw [length_append, length_singleton]

theorem length_fillBuckets_le (bucketMs : ℤ) (rows : List ExportRow)
    (d : Dict (ℤ × ProducerTime) FillingBucket) :
    (fillBuckets bucketMs rows d).items.length ≤ rows.length + d.items.length := by
  induction rows generalizing d with
  | nil =>
    exact Nat.le_add_left _ _
  | cons r rs ih =>
    calc _ ≤ rs.length + _ := ih _
      _ ≤ rs.length + (d.items.length + 1) := Nat.add_le_add_left (length_set_le ..) _
      _ = rs.length + 1 + d.items.length := by omega

theorem length_bucketSensorRows_le (rows : List ExportRow) (bucketMs : ℤ) :
    (bucketSensorRows rows bucketMs).length ≤ rows.length := by
  unfold bucketSensorRows
  split_ifs
  · rw [length_map]
  · have hfill := length_fillBuckets_le bucketMs rows Dict.empty
    simpa [length_mergeSort, Dict.empty] using hfill

theorem length_served_le : (served x).length ≤ maxSensorHistorySourceRows := by
  cases x with
  | health snapshot =>
    unfold maxSensorHistorySourceRows
    simp [served]
  | log exportType rows =>
    rw [length_served_log]
    unfold maxExportLimit maxSensorHistorySourceRows
    omega
  | sensorHistory rows bucketMs =>
    refine (length_bucketSensorRows_le _ _).trans ?_
    rw [length_take]
    exact min_le_left _ _

/-! ### The lengths of pages -/

/-- The pages a response may be published as: each page whole, and each cut of it. -/
def candidates (x : Export) (limit : ℕ) : List ExportResponse :=
  (List.range ((served x).length + 1)).flatMap (fun offset =>
    x.respond limit offset ::
      (List.range (x.respond limit offset).items.length).map (fun n =>
        firstItems (x.respond limit offset) (n + 1)))

/-- Fewer items never make a payload longer, and neither does a page whole make it longer than the
same page marked as cut; a reply of no items always fits. -/
structure PageSizes (size : ExportResponse → ℕ) (x : Export) (limit : ℕ) : Prop where
  fewer : ∀ r ∈ candidates x limit, ∀ r' ∈ candidates x limit, r'.pageOffset ≤ r.pageOffset →
    r.pageOffset + r.items.length ≤ r'.pageOffset + r'.items.length →
    r.items.length < r'.items.length → size r ≤ size r'
  whole : ∀ offset ≤ (served x).length, size (x.respond limit offset) ≤
    size (firstItems (x.respond limit offset) (x.respond limit offset).items.length)
  empty : ∀ offset ≤ (served x).length, (x.respond limit offset).items = [] →
    fits (size (x.respond limit offset)) = true

/-- The item at an offset is in no page that fits: not in the page it starts, nor alone. -/
def Exceeds (size : ExportResponse → ℕ) (x : Export) (limit offset : ℕ) : Prop :=
  offset < (served x).length ∧ fits (size (x.respond limit offset)) = false ∧
    fits (size (firstItems (x.respond limit offset) 1)) = false

theorem fits_mono {m : ℕ} (h : m ≤ n) (hn : fits n = true) : fits m = true :=
  decide_eq_true (h.trans (of_decide_eq_true hn))

theorem mem_candidates_respond (h : offset ≤ (served x).length) :
    x.respond limit offset ∈ candidates x limit :=
  mem_flatMap.mpr ⟨offset, mem_range.mpr (by omega), mem_cons_self⟩

theorem mem_candidates_first (h : offset ≤ (served x).length) (hn : 1 ≤ n)
    (hl : n ≤ (x.respond limit offset).items.length) :
    firstItems (x.respond limit offset) n ∈ candidates x limit := by
  refine mem_flatMap.mpr ⟨offset, mem_range.mpr (by omega), mem_cons_of_mem _ ?_⟩
  refine mem_map.mpr ⟨n - 1, mem_range.mpr (by omega), ?_⟩
  rw [Nat.sub_add_cancel hn]

section Paging

variable {limit : ℕ}

variable {n offset : ℕ} {requested : ℤ} {token : Option ℕ}

theorem respond_items (hl : 1 ≤ limit) (ha : Asked x offset) :
    (x.respond limit offset).items = ((served x).drop offset).take limit ∧
      (x.respond limit offset).pageOffset = offset ∧ (x.respond limit offset).error = none := by
  rw [respond_eq hl ha]
  exact ⟨rfl, rfl, rfl⟩

theorem length_respond (hl : 1 ≤ limit) (ha : Asked x offset) :
    (x.respond limit offset).items.length = min limit ((served x).length - offset) := by
  rw [(respond_items hl ha).1, length_take, length_drop]

theorem asked_of_lt (h : offset < (served x).length) : Asked x offset := .inl h

variable {j m : ℕ}

theorem cut_mono (hs : PageSizes size x limit) (h : offset < (served x).length) (hn : 1 ≤ n)
    (hnm : n ≤ m) (hm : m ≤ (x.respond limit offset).items.length)
    (hfits : fits (size (firstItems (x.respond limit offset) m)) = true) :
    fits (size (firstItems (x.respond limit offset) n)) = true := by
  rcases hnm.eq_or_lt with rfl | ht
  · exact hfits
  refine fits_mono ?_ hfits
  have hl : (firstItems (x.respond limit offset) n).items.length = n := by
    rw [firstItems, length_take]
    omega
  have hleng : (firstItems (x.respond limit offset) m).items.length = m := by
    rw [firstItems, length_take]
    omega
  refine hs.fewer _ (mem_candidates_first h.le hn (by omega)) _
    (mem_candidates_first h.le (by omega) hm) le_rfl ?_ ?_
  · rw [hl, hleng]
    exact Nat.add_le_add_left hnm _
  · rw [hl, hleng]
    exact ht

theorem exceeds_within (hl : 1 ≤ limit) (hi : PageSizes size x limit)
    (hj : Exceeds size x limit j) {r : ExportResponse} (hr : r ∈ candidates x limit)
    (hf : r.pageOffset = offset) (ht : offset < j) (hpast : j < offset + r.items.length) :
    fits (size r) = false := by
  rw [Bool.eq_false_iff]
  intro hfits
  have hn := length_respond hl (asked_of_lt hj.1)
  have ho : (firstItems (x.respond limit j) 1).items.length = 1 := by
    rw [firstItems, length_take]
    have hs := hj.1
    omega
  have ha : (firstItems (x.respond limit j) 1).pageOffset = j :=
    (respond_items hl (asked_of_lt hj.1)).2.1
  have he : size (firstItems (x.respond limit j) 1) ≤ size r := by
    refine hi.fewer _ (mem_candidates_first hj.1.le le_rfl ?_) _ hr ?_ ?_ ?_
    · have hs := hj.1
      omega
    · rw [ha, hf]
      exact ht.le
    · rw [ha, hf, ho]
      omega
    · rw [ho]
      omega
  exact Bool.eq_false_iff.mp hj.2.2 (fits_mono he hfits)

/-! ### One page -/

theorem encode_respond (hl : 1 ≤ limit) (hs : PageSizes size x limit)
    (h : offset < (served x).length) :
    (encode size (x.respond limit offset) = x.respond limit offset ∧
        fits (size (x.respond limit offset)) = true) ∨
      (∃ n, 1 ≤ n ∧ n < (x.respond limit offset).items.length ∧
        encode size (x.respond limit offset) = firstItems (x.respond limit offset) n ∧
        fits (size (firstItems (x.respond limit offset) n)) = true) ∨
      (Exceeds size x limit offset ∧ encode size (x.respond limit offset) =
        { exportType := (x.respond limit offset).exportType
          error := some itemExceedsPayloadMaximum }) := by
  have hp : 1 ≤ (x.respond limit offset).items.length := by
    rw [length_respond hl (asked_of_lt h)]
    omega
  unfold encode
  by_cases hfits : fits (size (x.respond limit offset)) = true
  · exact .inl ⟨if_pos hfits, hfits⟩
  rw [if_neg hfits]
  obtain ⟨he, hc, hpast⟩ := fittingCount_spec (fun n m hn hnm hm hf => cut_mono hs h hn hnm hm hf)
  generalize hn : fittingCount (x.respond limit offset).items.length
    (fun n => fits (size (firstItems (x.respond limit offset) n))) = n at he hc hpast
  by_cases hzero : n = 0
  · subst hzero
    exact .inr (.inr ⟨⟨h, Bool.eq_false_iff.mpr hfits, hpast 1 Nat.one_pos hp⟩, if_pos rfl⟩)
  · have hnf := hc.resolve_left hzero
    refine .inr (.inl ⟨n, by omega, lt_of_le_of_ne he ?_, if_neg hzero, hnf⟩)
    rintro rfl
    exact hfits (fits_mono (hs.whole offset h.le) hnf)

theorem respond_token (hl : 1 ≤ limit) (ha : Asked x offset) :
    (x.respond limit offset).nextPageToken =
        (if offset + (x.respond limit offset).items.length < (served x).length ∨
            maxExportLimit ≤ (served x).length ∧
              offset + (x.respond limit offset).items.length = (served x).length then
          some (offset + (x.respond limit offset).items.length) else none) ∧
      (x.respond limit offset).complete = (x.respond limit offset).nextPageToken.isNone := by
  rw [respond_eq hl ha]
  exact ⟨rfl, rfl⟩

/-! ### Page after page -/

/-- A token the export gives, and the offset it stands for. -/
def Stands (token : Option ℕ) (offset : ℕ) : Prop :=
  (token = none ∧ offset = 0) ∨ token = some offset

theorem page_eq {size : ExportResponse → ℕ} (hr : 1 ≤ requested)
    (ht : Stands token offset) (ho : offset ≤ (served x).length) :
    x.page size requested token =
      encode size (x.respond (min requested.toNat maxExportLimit) offset) := by
  unfold page handleRequest boundedLimit
  rw [if_neg (by omega)]
  rcases ht with ⟨rfl, rfl⟩ | rfl
  · rfl
  have hs := length_served_le (x := x)
  unfold maxSensorHistorySourceRows at hs
  have hb : ¬ 2 ^ 63 - 1 < offset := by omega
  unfold pageOffset
  dsimp only
  rw [if_neg hb]

theorem pages_succ : pages x size requested (n + 1) token =
      if (x.page size requested token).complete then some [x.page size requested token]
      else (pages x size requested n (x.page size requested token).nextPageToken).map
        (x.page size requested token :: ·) := rfl

theorem pages_mono : ∀ {n m : ℕ} {token : Option ℕ} {rs : List ExportResponse},
    pages x size requested n token = some rs → n ≤ m → pages x size requested m token = some rs := by
  intro n
  induction n with
  | zero =>
    intro m token rs h
    cases h
  | succ n ih =>
    intro m token rs h hl
    obtain ⟨m, rfl⟩ : ∃ m', m = m' + 1 := ⟨m - 1, by omega⟩
    rw [pages_succ] at h ⊢
    split_ifs at h ⊢
    · exact h
    obtain ⟨rs', hr', rfl⟩ := map_eq_some_iff.mp h
    rw [ih hr' (by omega)]
    rfl

theorem pages_unique {rs rs' : List ExportResponse} (h : pages x size requested n token = some rs)
    (h' : pages x size requested m token = some rs') : rs = rs' := by
  have hn := pages_mono h (Nat.le_max_left n m)
  have hm := pages_mono h' (Nat.le_max_right n m)
  exact mem_unique hn hm

theorem page_cases (hr : 1 ≤ requested)
    (hs : PageSizes size x (min requested.toNat maxExportLimit)) (ht : Stands token offset)
    (h : offset < (served x).length) :
    (∃ n, 1 ≤ n ∧ offset + n ≤ (served x).length ∧ (x.page size requested token).error = none ∧
        (x.page size requested token).items = ((served x).drop offset).take n ∧
        (offset + n < (served x).length ∨ maxExportLimit ≤ (served x).length →
          (x.page size requested token).complete = false ∧
            (x.page size requested token).nextPageToken = some (offset + n)) ∧
        (offset + n = (served x).length → (served x).length < maxExportLimit →
          (x.page size requested token).complete = true) ∧
        ∀ j, Exceeds size x (min requested.toNat maxExportLimit) j → offset ≤ j → offset + n ≤ j) ∨
      (Exceeds size x (min requested.toNat maxExportLimit) offset ∧
        (x.page size requested token).complete = true ∧
        (x.page size requested token).items = [] ∧
        (x.page size requested token).error = some itemExceedsPayloadMaximum) := by
  have hl : 1 ≤ min requested.toNat maxExportLimit := by
    unfold maxExportLimit
    omega
  rw [page_eq hr ht h.le]
  generalize min requested.toNat maxExportLimit = limit at hl hs ⊢
  have ha := asked_of_lt h
  have hln := length_respond hl ha
  obtain ⟨hi, hat, he⟩ := respond_items hl ha
  obtain ⟨hx, hc⟩ := respond_token hl ha
  rcases encode_respond hl hs h with ⟨heq, hfits⟩ | ⟨n, hn, hlt, heq, hfits⟩ | ⟨hex, heq⟩
  · left
    refine ⟨(x.respond limit offset).items.length, by omega, by omega, ?_, ?_, ?_, ?_, ?_⟩
    · rw [heq, he]
    · rw [heq, hi, length_take, ← take_eq_take_min]
    · intro hm
      rw [heq, hc, hx]
      rw [if_pos (by omega)]
      exact ⟨rfl, rfl⟩
    · intro hen hh
      rw [heq, hc, hx, if_neg (by omega)]
      rfl
    · intro j hj hle
      by_contra hpast
      rcases hle.eq_or_lt with rfl | hlt
      · exact Bool.eq_false_iff.mp hj.2.1 hfits
      · exact Bool.eq_false_iff.mp (exceeds_within hl hs hj (mem_candidates_respond h.le)
          hat hlt (by omega)) hfits
  · left
    have hu : (firstItems (x.respond limit offset) n).items.length = n := by
      rw [firstItems, length_take]
      omega
    refine ⟨n, hn, by omega, ?_, ?_, ?_, ?_, ?_⟩
    · rw [heq]
      exact he
    · rw [heq]
      show (x.respond limit offset).items.take n = _
      rw [hi, take_take]
      congr 1
      omega
    · intro _
      rw [heq]
      refine ⟨rfl, ?_⟩
      show some ((x.respond limit offset).pageOffset + n) = _
      rw [hat]
    · intro hen
      omega
    · intro j hj hle
      by_contra hpast
      rcases hle.eq_or_lt with rfl | hlj
      · exact Bool.eq_false_iff.mp hj.2.2 (cut_mono hs h le_rfl hn hlt.le hfits)
      · exact Bool.eq_false_iff.mp (exceeds_within hl hs hj
          (mem_candidates_first h.le hn hlt.le) hat hlj (by omega)) hfits
  · right
    rw [heq]
    exact ⟨hex, rfl, rfl, rfl⟩

theorem pages_short (hre : 1 ≤ requested)
    (hsi : PageSizes size x (min requested.toNat maxExportLimit))
    (hno : ∀ j, ¬ Exceeds size x (min requested.toNat maxExportLimit) j)
    (hs : (served x).length < maxExportLimit) :
    ∀ k offset token, Stands token offset → offset + k = (served x).length → 1 ≤ k →
      ∃ n rs, pages x size requested n token = some rs ∧ (∀ r ∈ rs, r.error = none) ∧
        rs.flatMap (·.items) = (served x).drop offset := by
  intro k
  induction k using Nat.strong_induction_on with
  | _ k ih =>
    intro offset token ht hk hp
    have h : offset < (served x).length := by omega
    rcases page_cases hre hsi ht h with
      ⟨n, hn, hle, he, hi, hm, hen, -⟩ | ⟨hex, -⟩
    · by_cases hl : offset + n = (served x).length
      · refine ⟨1, [x.page size requested token], ?_, ?_, ?_⟩
        · rw [pages_succ, if_pos (hen hl hs)]
        · intro r hr
          rw [mem_singleton.mp hr]
          exact he
        · rw [flatMap_singleton, hi, take_of_length_le]
          rw [length_drop]
          omega
      · obtain ⟨ho, hx⟩ := hm (.inl (by omega))
        obtain ⟨m, rs, hrs, hc, hrest⟩ := ih (k - n) (by omega) (offset + n)
          (some (offset + n)) (.inr rfl) (by omega) (by omega)
        refine ⟨m + 1, x.page size requested token :: rs, ?_, ?_, ?_⟩
        · rw [pages_succ, if_neg (by simp [ho]), hx, hrs]
          rfl
        · intro r hr
          rcases mem_cons.mp hr with rfl | hr
          · exact he
          · exact hc r hr
        · rw [flatMap_cons, hi, hrest, ← drop_drop, take_append_drop]
    · exact absurd hex (hno offset)

theorem pages_long (hr : 1 ≤ requested) (hs : PageSizes size x (min requested.toNat maxExportLimit))
    (ho : ∀ j, ¬ Exceeds size x (min requested.toNat maxExportLimit) j)
    (hlong : maxExportLimit ≤ (served x).length) :
    ∀ n offset token, Stands token offset → offset ≤ (served x).length →
      pages x size requested n token = none := by
  intro n
  induction n with
  | zero => exact fun _ _ _ _ => rfl
  | succ n ih =>
    intro offset token ht hle
    rcases hle.eq_or_lt with he | hlt
    · have hl : 1 ≤ min requested.toNat maxExportLimit := by
        unfold maxExportLimit
        omega
      have ha : Asked x offset := .inr ⟨he, .inl hlong⟩
      have hi : (x.respond (min requested.toNat maxExportLimit) offset).items = [] := by
        rw [(respond_items hl ha).1, he, drop_length, take_nil]
      obtain ⟨hn, hc⟩ := respond_token hl ha
      have hpage : x.page size requested token =
          x.respond (min requested.toNat maxExportLimit) offset := by
        rw [page_eq hr ht hle, encode, if_pos (hs.empty offset hle hi)]
      rw [hi, length_nil, Nat.add_zero, if_pos (.inr ⟨hlong, he⟩)] at hn
      rw [pages_succ, hpage, hc, hn, if_neg (by simp), ih offset (some offset) (.inr rfl) hle]
      rfl
    · rcases page_cases hr hs ht hlt with
        ⟨m, hm, hl', her, hi, hmr, he, -⟩ | ⟨hex, -⟩
      · obtain ⟨hc, hn⟩ := hmr (.inr hlong)
        rw [pages_succ, if_neg (by simp [hc]), hn,
          ih (offset + m) (some (offset + m)) (.inr rfl) hl']
        rfl
      · exact absurd hex (ho offset)

theorem pages_exceeding (hre : 1 ≤ requested)
    (hs : PageSizes size x (min requested.toNat maxExportLimit))
    (hj : Exceeds size x (min requested.toNat maxExportLimit) j)
    (hf : ∀ i, i < j → ¬ Exceeds size x (min requested.toNat maxExportLimit) i) :
    ∀ k offset token, Stands token offset → offset + k = j →
      ∃ n rs last, pages x size requested n token = some (rs ++ [last]) ∧
        (∀ r ∈ rs, r.error = none) ∧ last.error = some itemExceedsPayloadMaximum ∧
        last.items = [] ∧ rs.flatMap (·.items) = ((served x).drop offset).take k := by
  intro k
  induction k using Nat.strong_induction_on with
  | _ k ih =>
    intro offset token ht hk
    have h : offset < (served x).length := lt_of_le_of_lt (by omega) hj.1
    rcases page_cases hre hs ht h with
      ⟨n, hn, hle, he, hi, hm, hen, hb⟩ | ⟨hex, hc, hem, he⟩
    · have hnj : offset + n ≤ j := hb j hj (by omega)
      have hse := hj.1
      obtain ⟨hc, hx⟩ := hm (.inl (by omega))
      obtain ⟨m, rs, last, hrs, hl, hls, hni, hrest⟩ := ih (k - n) (by omega) (offset + n)
        (some (offset + n)) (.inr rfl) (by omega)
      refine ⟨m + 1, x.page size requested token :: rs, last, ?_, ?_, hls, hni, ?_⟩
      · rw [pages_succ, if_neg (by simp [hc]), hx, hrs]
        rfl
      · intro r hr
        rcases mem_cons.mp hr with rfl | hr
        · exact he
        · exact hl r hr
      · rw [flatMap_cons, hi, hrest, ← drop_drop, ← take_add]
        congr 1
        omega
    · have hk0 : k = 0 := by
        by_contra hne
        exact hf offset (by omega) hex
      subst hk0
      refine ⟨1, [], x.page size requested token, ?_, by simp, he, hem, by simp⟩
      rw [pages_succ, if_pos hc]
      rfl

theorem pages_served (hre : 1 ≤ requested)
    (hs : PageSizes size x (min requested.toNat maxExportLimit))
    (hno : ∀ j, ¬ Exceeds size x (min requested.toNat maxExportLimit) j)
    (hh : (served x).length < maxExportLimit) :
    ∃ n rs, pages x size requested n none = some rs ∧ (∀ r ∈ rs, r.error = none) ∧
      rs.flatMap (·.items) = served x := by
  by_cases hp : 1 ≤ (served x).length
  · obtain ⟨n, rs, hrs, hc, hal⟩ := pages_short hre hs hno hh _ 0 none
      (.inl ⟨rfl, rfl⟩) (Nat.zero_add _) hp
    exact ⟨n, rs, hrs, hc, hal.trans drop_zero⟩
  have hzero : (served x).length = 0 := by omega
  have hl : 1 ≤ min requested.toNat maxExportLimit := by
    omega
  have ha : Asked x 0 := .inr ⟨hzero.symm, .inr rfl⟩
  obtain ⟨hi, -, he⟩ := respond_items hl ha
  obtain ⟨hx, ho⟩ := respond_token hl ha
  have hn : (x.respond (min requested.toNat maxExportLimit) 0).items = [] := by
    rw [hi, length_eq_zero_iff.mp hzero]
    simp
  have hpage : x.page size requested none = x.respond (min requested.toNat maxExportLimit) 0 := by
    rw [page_eq hre (.inl ⟨rfl, rfl⟩) (Nat.zero_le _), encode,
      if_pos (hs.empty 0 (Nat.zero_le _) hn)]
  rw [hn, hzero, if_neg (by unfold maxExportLimit; simp)] at hx
  refine ⟨1, [x.page size requested none], ?_, ?_, ?_⟩
  · rw [pages_succ, hpage, ho, hx]
    rfl
  · intro r hr
    rw [mem_singleton.mp hr, hpage]
    exact he
  · rw [flatMap_singleton, hpage, hn, length_eq_zero_iff.mp hzero]

/-! ### The export -/

/-- Page after page ends with the whole list, or with the error of an item that exceeds the payload
maximum by itself, after the items before it. -/
def Exported (size : ExportResponse → ℕ) (x : Export) (requested : ℤ) : Prop :=
  ∃ n rs, pages x size requested n none = some rs ∧
    ((∀ r ∈ rs, r.error = none) ∧ rs.flatMap (·.items) = full x ∨
      ∃ j rs' last, rs = rs' ++ [last] ∧ (∀ r ∈ rs', r.error = none) ∧
        last.error = some itemExceedsPayloadMaximum ∧
        Exceeds size x (min requested.toNat maxExportLimit) j ∧
        rs'.flatMap (·.items) = (served x).take j)

/-- Every row comes once, in order, exactly where fewer than 1000 are served and none is left out at
the source, or an item ends the export by its size. -/
theorem exported_iff (size : ExportResponse → ℕ) (x : Export) (requested : ℤ)
    (hrequested : 1 ≤ requested)
    (hsizes : PageSizes size x (min requested.toNat maxExportLimit)) :
    Exported size x requested ↔ (served x).length < maxExportLimit ∧ served x = full x ∨
        ∃ j, Exceeds size x (min requested.toNat maxExportLimit) j := by
  classical
  by_cases hex : ∃ j, Exceeds size x (min requested.toNat maxExportLimit) j
  · refine ⟨fun _ => .inr hex, fun _ => ?_⟩
    obtain ⟨n, rs, last, hrs, hclean, hlast, -, hbefore⟩ := pages_exceeding hrequested hsizes
      (Nat.find_spec hex) (fun i hi => Nat.find_min hex hi) (Nat.find hex) 0 none
      (.inl ⟨rfl, rfl⟩) (Nat.zero_add _)
    exact ⟨n, rs ++ [last], hrs, .inr ⟨_, rs, last, rfl, hclean, hlast, Nat.find_spec hex, hbefore⟩⟩
  have hnone := not_exists.mp hex
  constructor
  · rintro ⟨n, rs, hrs, hends⟩
    left
    have hshort : (served x).length < maxExportLimit := by
      by_contra hlong
      have hloops := pages_long hrequested hsizes hnone (not_lt.mp hlong) n 0 none
        (.inl ⟨rfl, rfl⟩) (Nat.zero_le _)
      cases hloops.symm.trans hrs
    refine ⟨hshort, ?_⟩
    rcases hends with ⟨-, hfull⟩ | ⟨j, -, -, -, -, -, hj, -⟩
    · obtain ⟨m, rs', hrs', -, hall⟩ := pages_served hrequested hsizes hnone hshort
      rw [← hfull, pages_unique hrs hrs', hall]
    · exact absurd hj (hnone j)
  · rintro (⟨hshort, hfull⟩ | hj)
    · obtain ⟨n, rs, hrs, hclean, hall⟩ := pages_served hrequested hsizes hnone hshort
      exact ⟨n, rs, hrs, .inl ⟨hclean, hall.trans hfull⟩⟩
    · exact absurd hj hex

end Paging

section Bench

def alertRow : Json := .obj [("action_name", .str (text "alert")), ("tier", .str (text "A"))]

def tokenLength : Option ℕ → ℕ
  | none => 0
  | some t => if t < 10 then 1 else if t < 100 then 2 else if t < 1000 then 3 else 4

/-- The bytes of an unsigned action log page of such rows, their commas between them. -/
def wireLength (r : ExportResponse) : ℕ :=
  127 + (if r.complete then 4 else 5) + tokenLength r.nextPageToken + 34 * r.items.length +
    (r.items.length - 1)

theorem tokenLength_le (t : Option ℕ) : tokenLength t ≤ 4 := by
  unfold tokenLength
  split
  · omega
  · split_ifs <;> omega

theorem wireLength_bounds (r : ExportResponse) :
    131 + 34 * r.items.length + (r.items.length - 1) ≤ wireLength r ∧
      wireLength r ≤ 136 + 34 * r.items.length + (r.items.length - 1) := by
  have ht := tokenLength_le r.nextPageToken
  unfold wireLength
  split_ifs <;> omega

theorem wireLength_whole {r : ExportResponse} (hc : r.complete = r.nextPageToken.isNone)
    (ht : r.nextPageToken = none ∨ r.nextPageToken = some (r.pageOffset + r.items.length)) :
    wireLength r ≤ wireLength (firstItems r r.items.length) := by
  unfold wireLength firstItems
  rw [hc, take_length]
  rcases ht with h | h
  · rw [h]
    simp only [isNone_none, if_true, tokenLength, Bool.false_eq_true, if_false]
    omega
  · rw [h]
    exact le_rfl

theorem pagedResponse_token (exportType : String) (rows : List ExportItem) (limit offset : ℕ) :
    (pagedResponse exportType rows limit offset).nextPageToken = none ∨
      (pagedResponse exportType rows limit offset).nextPageToken =
        some ((pagedResponse exportType rows limit offset).pageOffset +
          (pagedResponse exportType rows limit offset).items.length) := by
  unfold pagedResponse
  dsimp only
  split_ifs
  · exact .inr rfl
  · exact .inl rfl

theorem pageSizes_wireLength (rows : List Json) (limit : ℕ) :
    PageSizes wireLength (.log "action_log" rows) limit := by
  refine ⟨?_, ?_, ?_⟩
  · intro r _ r' _ _ _ hl
    have hr := wireLength_bounds r
    have hr' := wireLength_bounds r'
    omega
  · intro offset _
    exact wireLength_whole rfl (pagedResponse_token _ _ _ _)
  · intro offset _ he
    have hb := wireLength_bounds ((log "action_log" rows).respond limit offset)
    rw [he, length_nil] at hb
    apply decide_eq_true
    unfold payloadMaximum
    omega

theorem not_exceeds_wireLength (rows : List Json) {limit : ℕ} (hl : 1 ≤ limit) (j : ℕ) :
    ¬ Exceeds wireLength (.log "action_log" rows) limit j := by
  rintro ⟨hj, hfits, -⟩
  have hb := wireLength_bounds ((log "action_log" rows).respond limit j)
  have hn := length_respond hl (asked_of_lt hj)
  have hs := @length_served_log "action_log" rows
  unfold maxExportLimit at hs
  have he := of_decide_eq_false hfits
  unfold payloadMaximum at he
  omega

/-- An action log of exactly 1000 rows is paged for ever. -/
theorem export_never_ends :
    ¬ Exported wireLength (.log "action_log" (List.replicate 1000 alertRow)) 100 := by
  rintro ⟨n, rs, hrs, -⟩
  have hlong : maxExportLimit ≤
      (served (.log "action_log" (List.replicate 1000 alertRow))).length := by
    rw [length_served_log, length_replicate]
    exact le_rfl
  have hrequested : (1 : ℤ) ≤ 100 := by decide
  have hloops := pages_long hrequested (pageSizes_wireLength _ _)
    (not_exceeds_wireLength _ (by decide)) hlong n 0 none (.inl ⟨rfl, rfl⟩) (Nat.zero_le _)
  cases hloops.symm.trans hrs

theorem exported_iff_three : (served (.log "action_log" (List.replicate 3 alertRow))).length = 3 ∧
    Exported wireLength (.log "action_log" (List.replicate 3 alertRow)) 2 := by
  refine ⟨rfl, (exported_iff wireLength _ 2 (by decide) (pageSizes_wireLength _ _)).mpr
    (.inl ⟨?_, ?_⟩)⟩
  · decide
  · rfl

end Bench

end Export

end OriRuntime
