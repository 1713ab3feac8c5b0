import OriRuntime.Execution
import OriRuntime.SensorHistory

/-!
# Compaction conserves readings

A compacted row stands for a list of readings: it counts them, averages them and holds their
greatest receipt. Each pair of statements moves such lists from one table to another, so every
reading stands in exactly one row, in the bucket its timestamp is in.
-/

namespace OriRuntime

open List Option

open Execution

namespace HistoryStore

/-! ### What a row stands for -/

/-- A row that stands for these readings. -/
structure Summarises (row : BucketRow) (readings : List HistoryRow) : Prop where
  nonempty : readings ≠ []
  count : row.sampleCount = readings.length
  total : row.avgValue * (row.sampleCount : ℚ) = (readings.map (·.value)).sum
  receipt : ∀ x ∈ readings, x.receivedAtMs ≤ row.maxReceivedAtMs
  attained : ∃ x ∈ readings, x.receivedAtMs = row.maxReceivedAtMs

theorem Summarises.length_pos {row : BucketRow} {readings : List HistoryRow}
    (h : Summarises row readings) : 0 < readings.length :=
  length_pos_iff.mpr h.nonempty

theorem Summarises.merge {old new : BucketRow} {xs ys : List HistoryRow} (hold : Summarises old xs)
    (hn : Summarises new ys) : Summarises (merge old new) (xs ++ ys) := by
  have hxs := hold.length_pos
  refine ⟨?_, ?_, ?_, ?_, ?_⟩
  · exact append_ne_nil_of_left_ne_nil hold.nonempty ys
  · simp only [HistoryStore.merge, length_append, Nat.cast_add, hold.count, hn.count]
  · have hs : (old.sampleCount : ℚ) + (new.sampleCount : ℚ) ≠ 0 := by
      rw [hold.count, hn.count]
      positivity
    simp only [HistoryStore.merge, Int.cast_add, map_append, sum_append]
    rw [div_mul_cancel₀ _ hs, hold.total, hn.total]
  · intro x hx
    rcases mem_append.mp hx with hx | hx
    · exact (hold.receipt x hx).trans (le_max_left _ _)
    · exact (hn.receipt x hx).trans (le_max_right _ _)
  · obtain ⟨x, hx, hr⟩ := hold.attained
    obtain ⟨y, hy, hyr⟩ := hn.attained
    rcases le_total old.maxReceivedAtMs new.maxReceivedAtMs with hl | hl
    · exact ⟨y, mem_append_right _ hy, hyr.trans (max_eq_right hl).symm⟩
    · exact ⟨x, mem_append_left _ hx, hr.trans (max_eq_left hl).symm⟩

variable {κ ρ : Type} {width : ℤ}

theorem greatest_mem (receipt : ρ → ℤ) (r : ρ) (rs : List ρ) : greatest receipt r rs ∈ r :: rs := by
  induction rs generalizing r with
  | nil => exact mem_singleton_self r
  | cons s rest ih =>
    rw [greatest]
    have hm := ih (if receipt r < receipt s then s else r)
    rcases mem_cons.mp hm with heq | hr
    · rw [heq]
      split_ifs
      · exact mem_cons_of_mem _ mem_cons_self
      · exact mem_cons_self
    · exact mem_cons_of_mem _ (mem_cons_of_mem _ hr)

theorem le_greatest (receipt : ρ → ℤ) (r : ρ) (rs : List ρ) :
    ∀ x ∈ r :: rs, receipt x ≤ receipt (greatest receipt r rs) := by
  induction rs generalizing r with
  | nil =>
    intro x hx
    rw [mem_singleton.mp hx]
    exact le_rfl
  | cons s rest ih =>
    intro x hx
    have hbest := ih (if receipt r < receipt s then s else r) _ mem_cons_self
    rcases mem_cons.mp hx with rfl | hx
    · refine le_trans ?_ hbest
      split_ifs with hl
      · exact hl.le
      · exact le_rfl
    · rcases mem_cons.mp hx with rfl | hx
      · refine le_trans ?_ hbest
        split_ifs with hl
        · exact le_rfl
        · exact not_lt.mp hl
      · exact ih _ x (mem_cons_of_mem _ hx)

theorem summarises_raw (r : HistoryRow) (rs : List HistoryRow) :
    Summarises (aggregateRaw r rs) (r :: rs) := by
  refine ⟨cons_ne_nil r rs, rfl, ?_, le_greatest _ r rs, _, greatest_mem _ r rs, rfl⟩
  have hn : (((r :: rs).length : ℤ) : ℚ) ≠ 0 := by
    rw [length_cons]
    positivity
  exact div_mul_cancel₀ _ hn

theorem sum_counts {readings : κ → List HistoryRow} (ps : List (κ × BucketRow))
    (h : ∀ p ∈ ps, Summarises p.2 (readings p.1)) :
    (ps.map (·.2.sampleCount)).sum = ((ps.flatMap (fun p => readings p.1)).length : ℤ) ∧
      (ps.map (fun p => p.2.avgValue * (p.2.sampleCount : ℚ))).sum =
        ((ps.flatMap (fun p => readings p.1)).map (·.value)).sum := by
  induction ps with
  | nil => exact ⟨rfl, rfl⟩
  | cons p ps ih =>
    have hp := h p mem_cons_self
    obtain ⟨hc, ht⟩ := ih (fun q hq => h q (mem_cons_of_mem p hq))
    constructor
    · rw [map_cons, sum_cons, flatMap_cons, length_append, hc, hp.count]
      rfl
    · rw [map_cons, sum_cons, flatMap_cons, map_append, sum_append, ht, hp.total]

theorem summarises_buckets {readings : κ → List HistoryRow} (p : κ × BucketRow)
    (ps : List (κ × BucketRow)) (h : ∀ q ∈ p :: ps, Summarises q.2 (readings q.1)) :
    Summarises (aggregateBuckets p ps) ((p :: ps).flatMap (fun q => readings q.1)) := by
  obtain ⟨hc, ho⟩ := sum_counts (p :: ps) h
  have hm : ∀ {q x}, q ∈ p :: ps → x ∈ readings q.1 →
      x ∈ (p :: ps).flatMap (fun q => readings q.1) :=
    fun hq hx => mem_flatMap.mpr ⟨_, hq, hx⟩
  have hp := h p mem_cons_self
  obtain ⟨x₀, hx₀⟩ := exists_mem_of_ne_nil _ hp.nonempty
  have hpo : 0 < ((p :: ps).flatMap (fun q => readings q.1)).length :=
    length_pos_of_mem (hm mem_cons_self hx₀)
  refine ⟨ne_nil_of_mem (hm mem_cons_self hx₀), hc, ?_, ?_, ?_⟩
  · show ((p :: ps).map (fun p => p.2.avgValue * (p.2.sampleCount : ℚ))).sum /
      ((((p :: ps).map (·.2.sampleCount)).sum : ℤ) : ℚ) *
        ((((p :: ps).map (·.2.sampleCount)).sum : ℤ) : ℚ) = _
    rw [hc, ho, div_mul_cancel₀]
    exact_mod_cast hpo.ne'
  · intro x hx
    obtain ⟨q, hq, hxq⟩ := mem_flatMap.mp hx
    exact ((h q hq).receipt x hxq).trans
      (le_greatest (fun p : κ × BucketRow => p.2.maxReceivedAtMs) p ps q hq)
  · have ht := greatest_mem (fun p : κ × BucketRow => p.2.maxReceivedAtMs) p ps
    obtain ⟨x, hx, hr⟩ := (h _ ht).attained
    exact ⟨x, hm ht hx, hr⟩

/-! ### A table and its readings -/

/-- Every row of a table stands for the readings under its key, each in the key's bucket. -/
structure Accounts (width : ℤ) (table : Dict BasisKey BucketRow)
    (readings : BasisKey → List HistoryRow) : Prop where
  absent : ∀ k, table.get? k = none → readings k = []
  present : ∀ k row, table.get? k = some row → Summarises row (readings k)
  keyed : ∀ k x, x ∈ readings k → HistoryRow.key width x = k

theorem accounts_empty (width : ℤ) : Accounts width Dict.empty (fun _ => []) :=
  ⟨fun _ _ => rfl, (fun _ _ h => by cases h), (fun _ _ h => by cases h)⟩

def added (readings : BasisKey → List HistoryRow) (key : BasisKey) (new : List HistoryRow) :
    BasisKey → List HistoryRow :=
  fun k => if k = key then readings k ++ new else readings k

theorem Accounts.upsert {table : Dict BasisKey BucketRow} {readings : BasisKey → List HistoryRow}
    (h : Accounts width table readings) {key : BasisKey} {row : BucketRow} {new : List HistoryRow}
    (ho : Summarises row new) (he : ∀ x ∈ new, HistoryRow.key width x = key) :
    Accounts width (upsert table key row) (added readings key new) := by
  have hg : ∀ k, (HistoryStore.upsert table key row).get? k = if k = key then
      some ((table.get? key).elim row fun old => merge old row) else table.get? k := by
    intro k
    unfold HistoryStore.upsert
    cases table.get? key with
    | none => exact Dict.get?_set table key k row
    | some old => exact Dict.get?_set table key k _
  refine ⟨?_, ?_, ?_⟩
  · intro k hk
    rw [hg] at hk
    split at hk <;> rename_i heq
    · cases hk
    · rw [added, if_neg heq]
      exact h.absent k hk
  · intro k r hr
    rw [hg] at hr
    by_cases heq : k = key
    · subst heq
      rw [if_pos rfl] at hr
      cases hr
      rw [added, if_pos rfl]
      cases hold : table.get? k with
      | none =>
        rw [h.absent k hold]
        exact ho
      | some old => exact (h.present k old hold).merge ho
    · rw [if_neg heq] at hr
      rw [added, if_neg heq]
      exact h.present k r hr
  · intro k x hx
    unfold added at hx
    by_cases heq : k = key
    · subst heq
      rw [if_pos rfl] at hx
      rcases mem_append.mp hx with hx | hx
      · exact h.keyed k x hx
      · exact he x hx
    · rw [if_neg heq] at hx
      exact h.keyed k x hx

theorem Accounts.insertGroups (aggregate : ρ → List ρ → BucketRow) (contents : ρ → List HistoryRow)
    (groups : List (BasisKey × List ρ)) (hs : ∀ g ∈ groups, ∀ r rs, g.2 = r :: rs →
      Summarises (aggregate r rs) (g.2.flatMap contents))
    (he : ∀ g ∈ groups, ∀ x ∈ g.2.flatMap contents, HistoryRow.key width x = g.1)
    {table : Dict BasisKey BucketRow} {readings : BasisKey → List HistoryRow}
    (h : Accounts width table readings) :
    Accounts width (insertGroups aggregate table groups) (fun k => readings k ++
      groups.flatMap (fun g => if k = g.1 then g.2.flatMap contents else [])) := by
  induction groups generalizing table readings with
  | nil =>
    simp only [flatMap_nil, append_nil]
    exact h
  | cons g groups ih =>
    obtain ⟨key, rows⟩ := g
    have hr := @ih (fun g hg => hs g (mem_cons_of_mem _ hg))
      (fun g hg => he g (mem_cons_of_mem _ hg))
    cases rows with
    | nil =>
      have hn : (fun k => readings k ++ ((key, []) :: groups).flatMap (fun g =>
          if k = g.1 then g.2.flatMap contents else [])) = fun k => readings k ++
            groups.flatMap (fun g => if k = g.1 then g.2.flatMap contents else []) := by
        simp
      rw [hn]
      exact hr h
    | cons r rs =>
      have hh := hs (key, r :: rs) mem_cons_self r rs rfl
      have hi := hr (h.upsert hh (he (key, r :: rs) mem_cons_self))
      have heq : (fun k => readings k ++ ((key, r :: rs) :: groups).flatMap (fun g =>
          if k = g.1 then g.2.flatMap contents else [])) = fun k =>
            added readings key ((r :: rs).flatMap contents) k ++
              groups.flatMap (fun g => if k = g.1 then g.2.flatMap contents else []) := by
        funext k
        unfold added
        rw [flatMap_cons]
        by_cases hk : k = key
        · rw [if_pos hk, if_pos hk, append_assoc]
        · rw [if_neg hk, if_neg hk, nil_append]
      rw [heq]
      exact hi

theorem flatMap_key {α : Type} [DecidableEq κ] {ks : List κ} (hs : ks.Nodup) (k : κ)
    (f : κ → List α) :
    ks.flatMap (fun k' => if k = k' then f k' else []) = if k ∈ ks then f k else [] := by
  induction ks with
  | nil => rfl
  | cons k' ks ih =>
    rw [nodup_cons] at hs
    rw [flatMap_cons, ih hs.2]
    by_cases hk : k = k'
    · subst hk
      rw [if_pos rfl, if_neg hs.1, if_pos mem_cons_self, append_nil]
    · rw [if_neg hk, nil_append]
      simp only [mem_cons, hk, false_or]

theorem groupBy_flatMap {α : Type} [DecidableEq κ] (key : ρ → κ) (rows : List ρ)
    (contents : ρ → List α) (k : κ) :
    (groupBy key rows).flatMap (fun g => if k = g.1 then g.2.flatMap contents else []) =
      (rows.filter (fun r => decide (key r = k))).flatMap contents := by
  unfold groupBy
  rw [flatMap_map, flatMap_key (nodup_dedup _) k
    (fun k' => (rows.filter (fun r => decide (key r = k'))).flatMap contents)]
  by_cases hk : k ∈ (rows.map key).dedup
  · rw [if_pos hk]
  · rw [if_neg hk]
    have hn : rows.filter (fun r => decide (key r = k)) = [] := by
      rw [filter_eq_nil_iff]
      intro r hr he
      exact hk (mem_dedup.mpr (mem_map.mpr ⟨r, hr, of_decide_eq_true he⟩))
    rw [hn, flatMap_nil]

theorem mem_groupBy [DecidableEq κ] {key : ρ → κ} {rows : List ρ} {g : κ × List ρ}
    (hg : g ∈ groupBy key rows) : ∀ r ∈ g.2, r ∈ rows ∧ key r = g.1 := by
  obtain ⟨k, -, rfl⟩ := mem_map.mp hg
  intro r hr
  obtain ⟨hm, hk⟩ := mem_filter.mp hr
  exact ⟨hm, of_decide_eq_true hk⟩

/-! ### The three movements -/

variable {table target : Dict BasisKey BucketRow} {readings readings' : BasisKey → List HistoryRow}
  {cutoff : ℤ}

theorem bucketOf_neg (width time : ℤ) : bucketOf width (-time) = -bucketOf width time := by
  unfold bucketOf
  rw [Int.neg_tdiv, neg_mul]

theorem bucketOf_up (time : ℤ) : bucketOf hourMs (bucketOf fiveMinMs time) = bucketOf hourMs time ∧
      bucketOf dayMs (bucketOf hourMs time) = bucketOf dayMs time := by
  wlog ht : 0 ≤ time
  · simpa only [bucketOf_neg, neg_inj] using this (-time) (by omega)
  unfold bucketOf fiveMinMs hourMs dayMs
  rw [Int.tdiv_eq_ediv_of_nonneg ht, Int.tdiv_eq_ediv_of_nonneg ht,
    Int.tdiv_eq_ediv_of_nonneg ht, Int.tdiv_eq_ediv_of_nonneg (by omega),
    Int.tdiv_eq_ediv_of_nonneg (by omega)]
  constructor
  · omega
  · omega

theorem bucketOf_contains {time : ℤ} (hw : 0 < width) (ht : 0 ≤ time) :
    bucketOf width time ≤ time ∧ time < bucketOf width time + width := by
  unfold bucketOf
  rw [Int.tdiv_eq_ediv_of_nonneg ht]
  have hm := Int.emod_lt_of_pos time hw
  have hn := Int.emod_nonneg time hw.ne'
  have hs := Int.emod_add_mul_ediv time width
  rw [mul_comm] at hs
  constructor
  · omega
  · omega

theorem accounts_rollUpRaw {raw : List HistoryRow} (h : Accounts fiveMinMs target readings) :
    Accounts fiveMinMs (rollUpRaw raw target cutoff) (fun k => readings k ++
      ((raw.filter (fun r => decide (r.receivedAtMs < cutoff))).filter
        (fun r => decide (HistoryRow.key fiveMinMs r = k)))) := by
  have hs : ∀ l : List HistoryRow, l.flatMap (fun r => [r]) = l := flatMap_singleton'
  have hr := h.insertGroups aggregateRaw (fun r => [r]) (groupBy (HistoryRow.key fiveMinMs)
      (raw.filter (fun r => decide (r.receivedAtMs < cutoff)))) ?_ ?_
  · have heq : ∀ k, (groupBy (HistoryRow.key fiveMinMs)
        (raw.filter (fun r => decide (r.receivedAtMs < cutoff)))).flatMap
          (fun g => if k = g.1 then g.2.flatMap (fun r => [r]) else []) =
            (raw.filter (fun r => decide (r.receivedAtMs < cutoff))).filter
              (fun r => decide (HistoryRow.key fiveMinMs r = k)) := by
      intro k
      rw [groupBy_flatMap, hs]
    simp only [heq] at hr
    exact hr
  · intro g _ r rs hg
    rw [hs, hg]
    exact summarises_raw r rs
  · intro g hg x hx
    rw [hs] at hx
    exact (mem_groupBy hg x hx).2

/-- The readings of the rows a table's cutoff selects, under the keys they move to. -/
def movedTo (up : BasisKey → BasisKey) (table : Dict BasisKey BucketRow)
    (readings : BasisKey → List HistoryRow) (cutoff : ℤ) (k : BasisKey) : List HistoryRow :=
  ((received table cutoff).filter (fun p => decide (up p.1 = k))).flatMap (fun p => readings p.1)

theorem accounts_rollUp {width' : ℤ} {up : BasisKey → BasisKey}
    (hup : ∀ x, up (HistoryRow.key width x) = HistoryRow.key width' x)
    (hs : Accounts width table readings) (h : Accounts width' target readings') :
    Accounts width' (rollUp up table target cutoff) (fun k => readings' k ++
      movedTo up table readings cutoff k) := by
  have hu : ∀ p ∈ received table cutoff, Summarises p.2 (readings p.1) := by
    intro p hp
    exact hs.present p.1 p.2 (Dict.get?_eq_some_iff.mpr (mem_of_mem_filter hp))
  have hgr := h.insertGroups aggregateBuckets (fun p : BasisKey × BucketRow => readings p.1)
    (groupBy (fun p : BasisKey × BucketRow => up p.1) (received table cutoff)) ?_ ?_
  · have heq : ∀ k, (groupBy (fun p : BasisKey × BucketRow => up p.1)
        (received table cutoff)).flatMap (fun g =>
          if k = g.1 then g.2.flatMap (fun p => readings p.1) else []) =
            movedTo up table readings cutoff k :=
      fun k => groupBy_flatMap _ _ _ k
    simp only [heq] at hgr
    exact hgr
  · intro g hg r rs hr
    rw [hr]
    exact summarises_buckets r rs (fun q hq => hu q (mem_groupBy hg q (hr ▸ hq)).1)
  · intro g hg x hx
    obtain ⟨p, hp, hxp⟩ := mem_flatMap.mp hx
    obtain ⟨-, hk⟩ := mem_groupBy hg p hp
    rw [← hk, ← hup x, hs.keyed p.1 x hxp]

/-- What is left under each key once the moved rows are deleted. -/
def left (table : Dict BasisKey BucketRow) (readings : BasisKey → List HistoryRow) (cutoff : ℤ)
    (k : BasisKey) : List HistoryRow :=
  if (table.get? k).any (fun r => decide (r.maxReceivedAtMs < cutoff)) then [] else readings k

theorem get?_deleteBefore (k : BasisKey) : (deleteBefore table cutoff).get? k =
    (table.get? k).filter (fun r => decide (¬ r.maxReceivedAtMs < cutoff)) := by
  apply Option.ext
  intro r
  rw [Dict.get?_eq_some_iff, filter_eq_some_iff, Dict.get?_eq_some_iff]
  exact mem_filter

theorem accounts_deleteBefore (h : Accounts width table readings) :
    Accounts width (deleteBefore table cutoff) (left table readings cutoff) := by
  refine ⟨?_, ?_, ?_⟩
  · intro k hk
    rw [get?_deleteBefore, filter_eq_none_iff] at hk
    unfold left
    cases hg : table.get? k with
    | none =>
      rw [h.absent k hg, ite_self]
    | some r =>
      have he : r.maxReceivedAtMs < cutoff := by
        simpa using hk r hg
      rw [any_some, if_pos (decide_eq_true he)]
  · intro k r hr
    rw [get?_deleteBefore, filter_eq_some_iff] at hr
    obtain ⟨hg, hp⟩ := hr
    unfold left
    rw [hg, if_neg]
    · exact h.present k r hg
    · exact fun hl => of_decide_eq_true hp (of_decide_eq_true hl)
  · intro k x hx
    unfold left at hx
    split_ifs at hx
    · cases hx
    · exact h.keyed k x hx

theorem Accounts.count_flatMap (h : Accounts width table readings) (x : HistoryRow)
    {ps : List (BasisKey × BucketRow)} (hs : (ps.map Prod.fst).Nodup) :
    (ps.flatMap (fun p => readings p.1)).count x =
      if HistoryRow.key width x ∈ ps.map Prod.fst then
        (readings (HistoryRow.key width x)).count x else 0 := by
  have hzero : ∀ k, k ≠ HistoryRow.key width x → (readings k).count x = 0 := by
    intro k hk
    rw [count_eq_zero]
    exact fun hm => hk (h.keyed k x hm).symm
  induction ps with
  | nil => rfl
  | cons p ps ih =>
    rw [map_cons, nodup_cons] at hs
    rw [flatMap_cons, count_append, ih hs.2, map_cons]
    by_cases hp : p.1 = HistoryRow.key width x
    · rw [if_neg (hp ▸ hs.1), if_pos (mem_cons.mpr (.inl hp.symm)), hp, Nat.add_zero]
    · rw [hzero p.1 hp, Nat.zero_add]
      simp only [mem_cons, Ne.symm hp, false_or]

theorem count_movedTo (cutoff : ℤ) {width' : ℤ} {up : BasisKey → BasisKey}
    (hu : ∀ x, up (HistoryRow.key width x) = HistoryRow.key width' x)
    (h : Accounts width table readings) (x : HistoryRow) :
    (movedTo up table readings cutoff (HistoryRow.key width' x)).count x +
      (left table readings cutoff (HistoryRow.key width x)).count x =
        (readings (HistoryRow.key width x)).count x := by
  have hn : (((received table cutoff).filter
      (fun p => decide (up p.1 = HistoryRow.key width' x))).map Prod.fst).Nodup :=
    table.nodup.sublist ((List.filter_sublist.trans List.filter_sublist).map Prod.fst)
  unfold movedTo left
  rw [h.count_flatMap x hn]
  have he : HistoryRow.key width x ∈ ((received table cutoff).filter
      (fun p => decide (up p.1 = HistoryRow.key width' x))).map Prod.fst ↔
        (table.get? (HistoryRow.key width x)).any (fun r => decide (r.maxReceivedAtMs < cutoff)) =
          true := by
    rw [Option.any_eq_true]
    constructor
    · intro hk
      obtain ⟨⟨k, r⟩, hp, rfl⟩ := List.mem_map.mp hk
      obtain ⟨hitem, hl⟩ := List.mem_filter.mp (List.mem_of_mem_filter hp)
      exact ⟨r, Dict.get?_eq_some_iff.mpr hitem, hl⟩
    · rintro ⟨r, hg, hl⟩
      refine List.mem_map.mpr ⟨(_, r), List.mem_filter.mpr ⟨List.mem_filter.mpr
        ⟨Dict.get?_eq_some_iff.mp hg, hl⟩, ?_⟩, rfl⟩
      exact decide_eq_true (hu x)
  by_cases hm : (table.get? (HistoryRow.key width x)).any
      (fun r => decide (r.maxReceivedAtMs < cutoff)) = true
  · rw [if_pos (he.mpr hm), if_pos hm, List.count_nil, Nat.add_zero]
  · rw [if_neg (fun hk => hm (he.mp hk)), if_neg hm, Nat.zero_add]

/-! ### Every reading in its place -/

/-- The readings each compacted table stands for, under its keys. -/
structure Placement where
  fiveMin : BasisKey → List HistoryRow
  hourly : BasisKey → List HistoryRow
  daily : BasisKey → List HistoryRow

structure Placed (st : HistoryStore) (inserted : List HistoryRow) (pl : Placement) : Prop where
  fiveMin : Accounts fiveMinMs st.basisFiveMin pl.fiveMin
  hourly : Accounts hourMs st.basisHourly pl.hourly
  daily : Accounts dayMs st.basisDaily pl.daily
  count : ∀ x, st.raw.count x +
    (pl.fiveMin (HistoryRow.key fiveMinMs x)).count x +
    (pl.hourly (HistoryRow.key hourMs x)).count x +
    (pl.daily (HistoryRow.key dayMs x)).count x = inserted.count x
  legacy : st.fiveMin = Dict.empty ∧ st.hourly = Dict.empty ∧ st.daily = Dict.empty

theorem placed_empty : Placed {} [] ⟨fun _ => [], fun _ => [], fun _ => []⟩ where
  fiveMin := accounts_empty fiveMinMs
  hourly := accounts_empty hourMs
  daily := accounts_empty dayMs
  count _ := rfl
  legacy := ⟨rfl, rfl, rfl⟩

theorem key_up_hour (x : HistoryRow) :
    BasisKey.up hourMs (HistoryRow.key fiveMinMs x) = HistoryRow.key hourMs x := by
  unfold BasisKey.up HistoryRow.key
  rw [(bucketOf_up _).1]

theorem key_up_day (x : HistoryRow) :
    BasisKey.up dayMs (HistoryRow.key hourMs x) = HistoryRow.key dayMs x := by
  unfold BasisKey.up HistoryRow.key
  rw [(bucketOf_up _).2]

variable {st : HistoryStore} {inserted : List HistoryRow} {pl : Placement}

theorem Placed.compactRaw (h : Placed st inserted pl) (cutoff : ℤ) :
    Placed { st with basisFiveMin := rollUpRaw st.raw st.basisFiveMin cutoff
                     raw := deleteRaw st.raw cutoff } inserted
      { pl with fiveMin := fun k => pl.fiveMin k ++
          ((st.raw.filter (fun r => decide (r.receivedAtMs < cutoff))).filter
            (fun r => decide (HistoryRow.key fiveMinMs r = k))) } where
  fiveMin := accounts_rollUpRaw h.fiveMin
  hourly := h.hourly
  daily := h.daily
  count x := by
    have hc := h.count x
    have hs : (deleteRaw st.raw cutoff).count x + ((st.raw.filter (fun r =>
        decide (r.receivedAtMs < cutoff))).filter (fun r =>
          decide (HistoryRow.key fiveMinMs r = HistoryRow.key fiveMinMs x))).count x =
            st.raw.count x := by
      unfold deleteRaw
      rw [count_filter (a := x) (p := fun r => decide
        (HistoryRow.key fiveMinMs r = HistoryRow.key fiveMinMs x)) (decide_eq_true rfl)]
      by_cases hl : x.receivedAtMs < cutoff
      · have hn : (st.raw.filter (fun r => decide (¬ r.receivedAtMs < cutoff))).count x = 0 :=
          count_eq_zero.mpr (fun hm => of_decide_eq_true (mem_filter.mp hm).2 hl)
        rw [hn, count_filter (a := x) (p := fun r => decide (r.receivedAtMs < cutoff))
          (decide_eq_true hl), Nat.zero_add]
      · have hn : (st.raw.filter (fun r => decide (r.receivedAtMs < cutoff))).count x = 0 :=
          count_eq_zero.mpr (fun hm => hl (of_decide_eq_true (mem_filter.mp hm).2))
        rw [hn, count_filter (a := x) (p := fun r => decide (¬ r.receivedAtMs < cutoff))
          (decide_eq_true hl), Nat.add_zero]
    dsimp only
    rw [count_append]
    omega
  legacy := h.legacy

theorem Placed.compactFiveMin (h : Placed st inserted pl) (cutoff : ℤ) :
    Placed { st with basisHourly := rollUp (BasisKey.up hourMs) st.basisFiveMin st.basisHourly cutoff
                     basisFiveMin := deleteBefore st.basisFiveMin cutoff } inserted
      { pl with hourly := fun k => pl.hourly k ++
          movedTo (BasisKey.up hourMs) st.basisFiveMin pl.fiveMin cutoff k
                fiveMin := left st.basisFiveMin pl.fiveMin cutoff } where
  fiveMin := accounts_deleteBefore h.fiveMin
  hourly := accounts_rollUp key_up_hour h.fiveMin h.hourly
  daily := h.daily
  count x := by
    have hc := h.count x
    have hm := count_movedTo cutoff key_up_hour h.fiveMin x
    dsimp only
    rw [count_append]
    omega
  legacy := h.legacy

theorem Placed.compactHourly (h : Placed st inserted pl) (cutoff : ℤ) :
    Placed { st with basisDaily := rollUp (BasisKey.up dayMs) st.basisHourly st.basisDaily cutoff
                     basisHourly := deleteBefore st.basisHourly cutoff } inserted
      { pl with daily := fun k => pl.daily k ++
          movedTo (BasisKey.up dayMs) st.basisHourly pl.hourly cutoff k
                hourly := left st.basisHourly pl.hourly cutoff } where
  fiveMin := h.fiveMin
  hourly := accounts_deleteBefore h.hourly
  daily := accounts_rollUp key_up_day h.hourly h.daily
  count x := by
    have hc := h.count x
    have hm := count_movedTo cutoff key_up_day h.hourly x
    dsimp only
    rw [count_append]
    omega
  legacy := h.legacy

theorem compact_legacy (h : st.fiveMin = Dict.empty ∧ st.hourly = Dict.empty ∧ st.daily = Dict.empty)
    (c : Cutoffs) :
    (statements c).foldl (fun s f => f s) st =
      [fun s : HistoryStore => { s with basisFiveMin := rollUpRaw s.raw s.basisFiveMin c.raw
                                        raw := deleteRaw s.raw c.raw },
        fun s => { s with
          basisHourly := rollUp (BasisKey.up hourMs) s.basisFiveMin s.basisHourly c.fiveMin
          basisFiveMin := deleteBefore s.basisFiveMin c.fiveMin },
        fun s => { s with
          basisDaily := rollUp (BasisKey.up dayMs) s.basisHourly s.basisDaily c.hourly
          basisHourly := deleteBefore s.basisHourly c.hourly }].foldl (fun s f => f s) st := by
  obtain ⟨hfive, hhour, hd⟩ := h
  obtain ⟨raw, nextId, fiveMin, hourly, daily, basisFiveMin, basisHourly, basisDaily⟩ := st
  subst hfive hhour hd
  rfl

theorem Placed.compact (h : Placed st inserted pl) (c : Cutoffs) :
    ∃ pl', Placed ((statements c).foldl (fun s f => f s) st) inserted pl' := by
  rw [compact_legacy h.legacy]
  exact ⟨_, ((h.compactRaw c.raw).compactFiveMin c.fiveMin).compactHourly c.hourly⟩

theorem Placed.insert (h : Placed st inserted pl) (row : HistoryRow) (nextId : ℕ) :
    Placed { st with raw := st.raw ++ [row], nextId := nextId } (inserted ++ [row]) pl where
  fiveMin := h.fiveMin
  hourly := h.hourly
  daily := h.daily
  count x := by
    have hc := h.count x
    rw [count_append, count_append]
    omega
  legacy := h.legacy

end HistoryStore

namespace HistoryConnection

variable {c : HistoryConnection}

theorem transact_none (fs : List (HistoryStore → HistoryStore)) : c.transact fs none =
      ⟨fs.foldl (fun s f => f s) c.working, fs.foldl (fun s f => f s) c.working⟩ := by
  induction fs generalizing c with
  | nil => rfl
  | cons f fs ih =>
    rw [transact, ih]
    rfl

theorem transact_some (fs : List (HistoryStore → HistoryStore)) (n : ℕ) :
    (c.transact fs (some n)).committed = c.committed := by
  induction fs generalizing c n with
  | nil => rfl
  | cons f fs ih =>
    cases n with
    | zero => rfl
    | succ n =>
      rw [transact, ih]
      rfl

end HistoryConnection

/-! ### Runs -/

/-- The store, and the rows inserted into it so far. -/
structure HistoryRun where
  connection : HistoryConnection := {}
  inserted : List HistoryRow := []

namespace HistoryRun

inductive Step where
  | insert (r : SensorReading) (nowMs : ℤ) (raises : Option ℕ)
  | compact (nowMs maxBackwardSkewMs : ℤ) (raises : Option ℕ)

def step (s : HistoryRun) : Step → Option HistoryRun
  | .insert r nowMs raises =>
    some { connection := s.connection.insertReading r nowMs raises
           inserted :=
             if 0 < nowMs ∧ raises = none then
               s.inserted ++ [{ r with id := s.connection.working.nextId, receivedAtMs := nowMs }]
             else s.inserted }
  | .compact nowMs maxBackwardSkewMs raises =>
    some { s with connection := s.connection.compactHistory nowMs maxBackwardSkewMs raises }

/-- A reading inserted has a timestamp that is not negative. -/
def Timed : Step → Prop
  | .insert r _ _ => 0 ≤ r.timestamp
  | .compact _ _ _ => True

/-- No transaction is open, and every reading is in its place. -/
def Sound (s : HistoryRun) : Prop :=
  s.connection.working = s.connection.committed ∧
    ∃ pl, HistoryStore.Placed s.connection.committed s.inserted pl

variable {c : HistoryConnection} {readings : BasisKey → List HistoryRow}
  {table : Dict BasisKey BucketRow} {width : ℤ}

theorem settled_of_transact (hc : c.working = c.committed) (fs : List (HistoryStore → HistoryStore))
    (raises : Option ℕ) :
    (c.transact fs raises).settled =
      if raises = none then
        ⟨fs.foldl (fun s f => f s) c.committed, fs.foldl (fun s f => f s) c.committed⟩
      else c := by
  cases raises with
  | none =>
    rw [HistoryConnection.transact_none, hc]
    rfl
  | some n =>
    rw [HistoryConnection.settled, HistoryConnection.transact_some]
    obtain ⟨committed, working⟩ := c
    obtain rfl : working = committed := hc
    rfl

theorem settled_eq (hc : c.working = c.committed) : c.settled = c := by
  obtain ⟨committed, working⟩ := c
  obtain rfl : working = committed := hc
  rfl

theorem compactHistory_eq (hc : c.working = c.committed) (nowMs skew : ℤ) (raises : Option ℕ) :
    c.compactHistory nowMs skew raises =
      if 0 ≤ skew ∧ raises = none then
        ⟨(HistoryStore.statements (HistoryConnection.cutoffsAt nowMs)).foldl (fun s f => f s)
            c.committed,
          (HistoryStore.statements (HistoryConnection.cutoffsAt nowMs)).foldl (fun s f => f s)
            c.committed⟩
      else c := by
  unfold HistoryConnection.compactHistory HistoryConnection.compactSync
  split <;> rename_i hskew
  · rw [if_neg (by omega)]
    exact settled_eq hc
  rw [if_pos]
  · rw [settled_of_transact hc]
    simp only [not_lt.mp hskew, true_and]
  · unfold HistoryConnection.cutoffsAt
    dsimp only
    omega

theorem insertReading_eq (hc : c.working = c.committed) (r : SensorReading) (nowMs : ℤ)
    (raises : Option ℕ) : c.insertReading r nowMs raises =
      if 0 < nowMs ∧ raises = none then
        ⟨{ c.committed with
            raw := c.committed.raw ++ [{ r with id := c.committed.nextId, receivedAtMs := nowMs }]
            nextId := c.committed.nextId + 1 },
          { c.committed with
            raw := c.committed.raw ++ [{ r with id := c.committed.nextId, receivedAtMs := nowMs }]
            nextId := c.committed.nextId + 1 }⟩
      else c := by
  unfold HistoryConnection.insertReading
  split <;> rename_i hn
  · rw [settled_of_transact hc]
    simp only [hn, true_and]
    rfl
  · rw [settled_eq hc, if_neg (fun hboth => hn hboth.1)]

theorem Sound.step {s s' : HistoryRun} (h : Sound s) {a : Step} (hs : s.step a = some s') :
    Sound s' := by
  obtain ⟨hc, pl, hp⟩ := h
  cases a with
  | insert r nowMs raises =>
    cases hs
    rw [insertReading_eq hc]
    split_ifs
    · rw [hc]
      exact ⟨rfl, pl, hp.insert _ _⟩
    · exact ⟨hc, pl, hp⟩
  | compact nowMs skew raises =>
    cases hs
    rw [compactHistory_eq hc]
    split_ifs
    · exact ⟨rfl, hp.compact _⟩
    · exact ⟨hc, pl, hp⟩

theorem sound_of_run {steps : List Step} {s : HistoryRun} (hr : run step {} steps = some s) :
    Sound s :=
  run_invariant (fun _ _ _ hs ht => Sound.step hs ht) ⟨rfl, _, HistoryStore.placed_empty⟩ hr

theorem timed_of_run {steps : List Step} {s : HistoryRun} (ht : ∀ a ∈ steps, Timed a)
    (hr : run step {} steps = some s) : ∀ x ∈ s.inserted, 0 ≤ x.timestamp := by
  refine @run_invariant_of_meets _ _ step _ (fun u => ∀ x ∈ u.inserted, 0 ≤ x.timestamp)
    (fun u a v hu ha hs => ?_) {} _ _ (fun x hx => absurd hx not_mem_nil)
    (meets_of_forall ht _) hr
  cases a with
  | insert r nowMs raises =>
    cases hs
    intro x hx
    dsimp only at hx
    split_ifs at hx
    · rcases mem_append.mp hx with hx | hx
      · exact hu x hx
      · rw [mem_singleton.mp hx]
        exact ha
    · exact hu x hx
  | compact nowMs skew raises =>
    cases hs
    exact hu

/-! ### The sums -/

open HistoryStore

def ofBasis (sensorId : Text) (basis : ProducerTime) (p : BasisKey × BucketRow) : Bool :=
  decide (p.1.sensorId = sensorId ∧ p.1.producerTime = basis)

def tableCount (sensorId : Text) (basis : ProducerTime) (table : Dict BasisKey BucketRow) : ℤ :=
  ((table.items.filter (ofBasis sensorId basis)).map (·.2.sampleCount)).sum

def tableTotal (sensorId : Text) (basis : ProducerTime) (table : Dict BasisKey BucketRow) : ℚ :=
  ((table.items.filter (ofBasis sensorId basis)).map
    (fun p => p.2.avgValue * (p.2.sampleCount : ℚ))).sum

def readingsOf (sensorId : Text) (basis : ProducerTime) (rows : List HistoryRow) :
    List HistoryRow :=
  rows.filter (fun r => decide (r.sensorId = sensorId ∧ r.producerTime = basis))

/-- The readings all rows of a table stand for. -/
def standing (table : Dict BasisKey BucketRow) (readings : BasisKey → List HistoryRow) :
    List HistoryRow :=
  table.items.flatMap (fun p => readings p.1)

theorem readingsOf_standing (h : Accounts width table readings) (sensorId : Text)
    (basis : ProducerTime) :
    readingsOf sensorId basis (standing table readings) =
      (table.items.filter (ofBasis sensorId basis)).flatMap (fun p => readings p.1) := by
  unfold readingsOf standing
  generalize table.items = items
  induction items with
  | nil => rfl
  | cons p items ih =>
    rw [flatMap_cons, filter_append, ih, filter_cons]
    have hk : ∀ x ∈ readings p.1, (x.sensorId = sensorId ∧ x.producerTime = basis) ↔
        ofBasis sensorId basis p = true := by
      intro x hx
      unfold ofBasis
      rw [decide_eq_true_iff, ← h.keyed p.1 x hx]
      rfl
    split_ifs with hp
    · rw [flatMap_cons, filter_eq_self.mpr]
      exact fun x hx => decide_eq_true ((hk x hx).mpr hp)
    · rw [filter_eq_nil_iff.mpr, nil_append]
      exact fun x hx hm => hp ((hk x hx).mp (of_decide_eq_true hm))

theorem table_sums (h : Accounts width table readings) (sensorId : Text) (basis : ProducerTime) :
    tableCount sensorId basis table =
        ((readingsOf sensorId basis (standing table readings)).length : ℤ) ∧
      tableTotal sensorId basis table =
        ((readingsOf sensorId basis (standing table readings)).map (·.value)).sum := by
  rw [readingsOf_standing h]
  refine sum_counts _ (fun p hp => h.present p.1 p.2 (Dict.get?_eq_some_iff.mpr ?_))
  exact mem_of_mem_filter hp

theorem perm_of_placed {st : HistoryStore} {inserted : List HistoryRow} {pl : Placement}
    (h : Placed st inserted pl) :
    (st.raw ++ standing st.basisFiveMin pl.fiveMin ++ standing st.basisHourly pl.hourly ++
      standing st.basisDaily pl.daily).Perm inserted := by
  have hc : ∀ {width : ℤ} {table : Dict BasisKey BucketRow}
      {readings : BasisKey → List HistoryRow}, Accounts width table readings → ∀ x,
      (standing table readings).count x = (readings (HistoryRow.key width x)).count x := by
    intro width table readings ha x
    unfold standing
    rw [ha.count_flatMap x table.nodup]
    split_ifs with hm
    · rfl
    · rw [ha.absent _ (Dict.get?_eq_none_iff.mpr hm)]
      rfl
  rw [perm_iff_count]
  intro x
  rw [count_append, count_append, count_append, hc h.fiveMin, hc h.hourly, hc h.daily]
  exact h.count x

/-- A row stands for readings of its own sensor and basis, each in its bucket's interval. -/
def RowHolds (width : ℤ) (readings : BasisKey → List HistoryRow) (p : BasisKey × BucketRow) : Prop :=
  Summarises p.2 (readings p.1) ∧ ∀ x ∈ readings p.1,
    x.sensorId = p.1.sensorId ∧ x.producerTime = p.1.producerTime ∧
      p.1.bucketMs ≤ x.timestamp ∧ x.timestamp < p.1.bucketMs + width

theorem rowHolds_of_accounts (hw : 0 < width) (h : Accounts width table readings)
    (ht : ∀ k, ∀ x ∈ readings k, 0 ≤ x.timestamp) :
    ∀ p ∈ table.items, RowHolds width readings p := by
  intro p hp
  refine ⟨h.present p.1 p.2 (Dict.get?_eq_some_iff.mpr hp), fun x hx => ?_⟩
  obtain ⟨hfrom, ho⟩ := bucketOf_contains hw (ht p.1 x hx)
  rw [← h.keyed p.1 x hx]
  exact ⟨rfl, rfl, hfrom, ho⟩

/-- What is true of the tables after any run. -/
structure Conserved (s : HistoryRun) : Prop where
  /-- Each reading inserted is in exactly one row, whose bucket it is in. -/
  placed : ∃ pl : Placement, (s.connection.committed.raw ++
      standing s.connection.committed.basisFiveMin pl.fiveMin ++
      standing s.connection.committed.basisHourly pl.hourly ++
      standing s.connection.committed.basisDaily pl.daily).Perm s.inserted ∧
    (∀ p ∈ s.connection.committed.basisFiveMin.items, RowHolds fiveMinMs pl.fiveMin p) ∧
    (∀ p ∈ s.connection.committed.basisHourly.items, RowHolds hourMs pl.hourly p) ∧
    ∀ p ∈ s.connection.committed.basisDaily.items, RowHolds dayMs pl.daily p
  counts : ∀ sensorId basis,
    ((readingsOf sensorId basis s.connection.committed.raw).length : ℤ) +
      tableCount sensorId basis s.connection.committed.basisFiveMin +
      tableCount sensorId basis s.connection.committed.basisHourly +
      tableCount sensorId basis s.connection.committed.basisDaily =
        ((readingsOf sensorId basis s.inserted).length : ℤ)
  totals : ∀ sensorId basis,
    ((readingsOf sensorId basis s.connection.committed.raw).map (·.value)).sum +
      tableTotal sensorId basis s.connection.committed.basisFiveMin +
      tableTotal sensorId basis s.connection.committed.basisHourly +
      tableTotal sensorId basis s.connection.committed.basisDaily =
        ((readingsOf sensorId basis s.inserted).map (·.value)).sum
  /-- Nothing is in the pyramid without a basis. -/
  legacy : s.connection.committed.fiveMin = Dict.empty ∧
    s.connection.committed.hourly = Dict.empty ∧ s.connection.committed.daily = Dict.empty
  /-- A reading received at or after the cutoff stays in raw, and a failed run changes nothing. -/
  kept : ∀ nowMs skew raises, ((s.connection.compactHistory nowMs skew raises).committed.raw.filter
      (fun r => decide (nowMs - 48 * 3600 * 1000 ≤ r.receivedAtMs))) =
        s.connection.committed.raw.filter
          (fun r => decide (nowMs - 48 * 3600 * 1000 ≤ r.receivedAtMs))
  failed : ∀ nowMs skew n, s.connection.compactHistory nowMs skew (some n) = s.connection

theorem history_conserved {steps : List Step} {s : HistoryRun} (htimed : ∀ a ∈ steps, Timed a)
    (hrun : run step {} steps = some s) : Conserved s := by
  obtain ⟨hc, pl, hpl⟩ := sound_of_run hrun
  have hperm := perm_of_placed hpl
  have htim : ∀ x, 0 < s.inserted.count x → 0 ≤ x.timestamp := fun x hx =>
    timed_of_run htimed hrun x (count_pos_iff.mp hx)
  have hof := fun sensorId basis => hperm.filter
    (fun r => decide (r.sensorId = sensorId ∧ r.producerTime = basis))
  refine ⟨⟨pl, hperm, rowHolds_of_accounts (by decide) hpl.fiveMin fun k x hx => htim x ?_,
    rowHolds_of_accounts (by decide) hpl.hourly fun k x hx => htim x ?_,
    rowHolds_of_accounts (by decide) hpl.daily fun k x hx => htim x ?_⟩, ?_, ?_, hpl.legacy, ?_, ?_⟩
  · have hpos := count_pos_iff.mpr (hpl.fiveMin.keyed k x hx ▸ hx)
    have hcnt := hpl.count x
    omega
  · have hpos := count_pos_iff.mpr (hpl.hourly.keyed k x hx ▸ hx)
    have hcnt := hpl.count x
    omega
  · have hpos := count_pos_iff.mpr (hpl.daily.keyed k x hx ▸ hx)
    have hcnt := hpl.count x
    omega
  · intro sensorId basis
    rw [(table_sums hpl.fiveMin sensorId basis).1, (table_sums hpl.hourly sensorId basis).1,
      (table_sums hpl.daily sensorId basis).1]
    have hlength := (hof sensorId basis).length_eq
    simp only [filter_append, length_append] at hlength
    exact_mod_cast hlength
  · intro sensorId basis
    rw [(table_sums hpl.fiveMin sensorId basis).2, (table_sums hpl.hourly sensorId basis).2,
      (table_sums hpl.daily sensorId basis).2]
    have hsum := ((hof sensorId basis).map (·.value)).sum_eq
    simp only [filter_append, map_append, sum_append] at hsum
    exact hsum
  · intro nowMs skew raises
    rw [compactHistory_eq hc]
    split_ifs
    · show (deleteRaw s.connection.committed.raw (nowMs - 48 * 3600 * 1000)).filter _ = _
      unfold deleteRaw
      simp
    · rfl
  · intro nowMs skew n
    rw [compactHistory_eq hc, if_neg]
    rintro ⟨-, h⟩
    cases h

/-! ### A run -/

def celsius (value : ℚ) (timestamp : ℤ) : SensorReading where
  sensorId := text "room-1"
  sensorType := text "temperature"
  value := value
  unit := text "C"
  timestamp := timestamp
  quality := 1
  producerTime := .reported

/-- Two readings of one bucket, the second late, compacted twice with a failed run between. -/
def lateRun : List Step :=
  [.insert (celsius 20 60000) 100000 none, .compact 200000000 3600000 none,
    .insert (celsius 23 90000) 250000000 none, .compact 600000000 3600000 (some 3),
    .compact 600000000 3600000 none]

theorem history_conserved_late : ∃ s : HistoryRun,
    (s.connection.committed.raw, s.connection.committed.basisFiveMin.items.map
      (fun p => (p.1.bucketMs, p.2.avgValue, p.2.sampleCount))) = ([], [(0, 43 / 2, 2)]) ∧
    Conserved s := by
  obtain ⟨s, hs, hrows⟩ : ∃ s, run step {} lateRun = some s ∧ (s.connection.committed.raw,
    s.connection.committed.basisFiveMin.items.map (fun p => (p.1.bucketMs, p.2.avgValue,
    p.2.sampleCount))) = ([], [(0, 43 / 2, 2)]) := exists_of_check (by decide +kernel)
  refine ⟨s, hrows, history_conserved ?_ hs⟩
  intro a ha
  simp only [lateRun, mem_cons, not_mem_nil, or_false] at ha
  rcases ha with rfl | rfl | rfl | rfl | rfl
  · show (0 : ℤ) ≤ 60000
    decide
  · trivial
  · show (0 : ℤ) ≤ 90000
    decide
  · trivial
  · trivial

end HistoryRun

end OriRuntime
