import OriRuntime.GatewayExport
import OriRuntime.HistoryCompaction

/-!
# Range reads

`get_timeseries` and `export_sensor_history` of `ori/state/_history.py`. Each answer is made of the
rows its query selects, and a row stands for the readings that compaction has put under its key.
-/

namespace OriRuntime

open Execution List HistoryStore

/-- A row of a history table; one of the pyramid without a basis reads as unknown. -/
inductive HistorySource
  | raw (r : HistoryRow)
  | legacy (tier : HistoryTier) (key : LegacyKey) (row : BucketRow)
  | basis (tier : HistoryTier) (key : BasisKey) (row : BucketRow)

namespace HistorySource

def timestamp : HistorySource → ℤ
  | raw r => r.timestamp
  | legacy _ key _ => key.bucketMs
  | basis _ key _ => key.bucketMs

def value : HistorySource → ℚ
  | raw r => r.value
  | legacy _ _ row | basis _ _ row => row.avgValue

def sampleCount : HistorySource → ℤ
  | raw _ => 1
  | legacy _ _ row | basis _ _ row => row.sampleCount

def exportedProducerTime (r : HistoryRow) : ProducerTime :=
  if r.producerTime = .notReported ∧ ¬ (1 ≤ r.receivedAtMs ∧ r.receivedAtMs ≤ 9007199254740991) then
    .unknown
  else r.producerTime

def bucketRow (tier : HistoryTier) (sensorId : Text) (bucketMs : ℤ) (basis : ProducerTime)
    (row : BucketRow) : ExportRow where
  sensorId := sensorId
  sensorType := row.sensorType
  timestamp := bucketMs
  value := row.avgValue
  unit := row.unit
  quality := none
  sampleCount := row.sampleCount
  tier := tier
  receivedAtMs := row.maxReceivedAtMs
  producerTime := basis

def exportRow : HistorySource → ExportRow
  | raw r =>
    { sensorId := r.sensorId, sensorType := r.sensorType, timestamp := r.timestamp
      value := r.value, unit := r.unit, quality := some r.quality, sampleCount := 1, tier := .raw
      receivedAtMs := r.receivedAtMs, producerTime := exportedProducerTime r }
  | legacy tier key row => bucketRow tier key.sensorId key.bucketMs .unknown row
  | basis tier key row => bucketRow tier key.sensorId key.bucketMs key.producerTime row

end HistorySource

namespace HistoryStore

section Reads

variable (st : HistoryStore) (sensorId : Text) (startMs endMs : ℤ)

def rawBetween : List HistorySource :=
  (st.raw.filter (fun r => decide (r.sensorId = sensorId ∧
    startMs ≤ r.timestamp ∧ r.timestamp ≤ endMs))).map .raw

def legacyBetween (tier : HistoryTier) (table : Dict LegacyKey BucketRow) : List HistorySource :=
  (table.items.filter (fun p => decide (p.1.sensorId = sensorId ∧
    startMs ≤ p.1.bucketMs ∧ p.1.bucketMs ≤ endMs))).map (fun p => .legacy tier p.1 p.2)

def basisBetween (tier : HistoryTier) (table : Dict BasisKey BucketRow) : List HistorySource :=
  (table.items.filter (fun p => decide (p.1.sensorId = sensorId ∧
    startMs ≤ p.1.bucketMs ∧ p.1.bucketMs ≤ endMs))).map (fun p => .basis tier p.1 p.2)

/-- The rows of every table, in the order of `_COMPACTED_TIERS`. -/
def sourcesBetween : List HistorySource :=
  st.rawBetween sensorId startMs endMs ++
    legacyBetween sensorId startMs endMs .fiveMin st.fiveMin ++
    legacyBetween sensorId startMs endMs .hourly st.hourly ++
    legacyBetween sensorId startMs endMs .daily st.daily ++
    basisBetween sensorId startMs endMs .fiveMin st.basisFiveMin ++
    basisBetween sensorId startMs endMs .hourly st.basisHourly ++
    basisBetween sensorId startMs endMs .daily st.basisDaily

def byTime (a b : HistorySource) : Bool := decide (a.timestamp ≤ b.timestamp)

def exportLimit (limit : ℤ) : ℕ := (max 1 (min limit 10000)).toNat

def exportSources (limit : ℤ) : List HistorySource :=
  if endMs < startMs then []
  else ((st.sourcesBetween sensorId startMs endMs).mergeSort byTime).take (exportLimit limit)

def exportSensorHistory (limit : ℤ) : List ExportRow :=
  (st.exportSources sensorId startMs endMs limit).map (·.exportRow)

def tierOf (durationMs : ℤ) : HistoryTier :=
  if durationMs ≤ 48 * 3600 * 1000 then .raw
  else if durationMs ≤ 30 * 86400 * 1000 then .fiveMin
  else if durationMs ≤ 365 * 86400 * 1000 then .hourly
  else .daily

/-- The rows one tier's tables hold of the range, of both pyramids. -/
def tierBetween : HistoryTier → List HistorySource
  | .fiveMin => legacyBetween sensorId startMs endMs .fiveMin st.fiveMin ++
      basisBetween sensorId startMs endMs .fiveMin st.basisFiveMin
  | .hourly => legacyBetween sensorId startMs endMs .hourly st.hourly ++
      basisBetween sensorId startMs endMs .hourly st.basisHourly
  | .daily => legacyBetween sensorId startMs endMs .daily st.daily ++
      basisBetween sensorId startMs endMs .daily st.basisDaily
  | .raw | .bucketed => st.rawBetween sensorId startMs endMs

/-- A point of a chart with the rows it is made of: one of each raw row, or of each bucket. -/
def chartGroups : List (ℤ × List HistorySource) :=
  let tier := tierOf (endMs - startMs)
  let rows := st.tierBetween sensorId startMs endMs tier
  let groups := if tier = .raw then rows.map (fun q => (q.timestamp, [q]))
    else groupBy (·.timestamp) rows
  groups.mergeSort (fun a b => decide (a.1 ≤ b.1))

def chartPoint (g : ℤ × List HistorySource) : ℤ × ℚ :=
  (g.1, (g.2.map (fun q => q.value * (q.sampleCount : ℚ))).sum /
    ((g.2.map (·.sampleCount)).sum : ℤ))

def getTimeseries : List (ℤ × ℚ) := (st.chartGroups sensorId startMs endMs).map chartPoint

end Reads

/-! ### What a row stands for -/

namespace Placement

def held (pl : Placement) : HistorySource → List HistoryRow
  | .raw r => [r]
  | .legacy _ _ _ => []
  | .basis .fiveMin key _ => pl.fiveMin key
  | .basis .hourly key _ => pl.hourly key
  | .basis .daily key _ => pl.daily key
  | .basis _ _ _ => []

/-- How often a reading stands in a tier. -/
def standsIn (pl : Placement) (st : HistoryStore) (x : HistoryRow) : HistoryTier → ℕ
  | .fiveMin => (pl.fiveMin (HistoryRow.key fiveMinMs x)).count x
  | .hourly => (pl.hourly (HistoryRow.key hourMs x)).count x
  | .daily => (pl.daily (HistoryRow.key dayMs x)).count x
  | .raw | .bucketed => st.raw.count x

end Placement

variable {st : HistoryStore} {inserted : List HistoryRow} {pl : Placement} {x : HistoryRow}
  {sensorId : Text} {startMs endMs width : ℤ}

theorem groupBy_perm {ρ κ : Type} [DecidableEq κ] (key : ρ → κ) (rows : List ρ) :
    ((groupBy key rows).flatMap (·.2)).Perm rows := by
  classical
  rw [perm_iff_count]
  intro a
  have hr := groupBy_flatMap key rows (fun r => [r]) (key a)
  simp only [flatMap_singleton'] at hr
  have hc : ∀ g ∈ groupBy key rows, g.2.count a = count a (if key a = g.1 then g.2 else []) := by
    intro g hg
    split_ifs with hk
    · rfl
    · exact count_eq_zero.mpr (fun hm => hk (mem_groupBy hg a hm).2)
  rw [count_flatMap, map_congr_left (g := fun g => count a (if key a = g.1 then g.2 else [])) hc]
  show (map (count a ∘ fun g : κ × List ρ => if key a = g.1 then g.2 else []) _).sum = _
  rw [← count_flatMap, hr]
  exact count_filter (p := fun r => decide (key r = key a)) (decide_eq_true rfl)

theorem bucketOf_between {time : ℤ} (hw : 0 < width) (hd : width ∣ dayMs)
    (hstart : dayMs ∣ startMs) (hend : dayMs ∣ endMs ∨ 0 ≤ endMs) (hfrom : startMs ≤ time)
    (hto : time ≤ endMs) : startMs ≤ bucketOf width time ∧ bucketOf width time ≤ endMs := by
  have he : ∀ {a : ℤ}, dayMs ∣ a → a / width * width = a := fun ha =>
    Int.ediv_mul_cancel (hd.trans ha)
  by_cases ht : 0 ≤ time
  · obtain ⟨hle, -⟩ := bucketOf_contains hw ht
    refine ⟨?_, hle.trans hto⟩
    unfold bucketOf
    rw [Int.tdiv_eq_ediv_of_nonneg ht, ← he hstart]
    exact Int.mul_le_mul_of_nonneg_right (Int.ediv_le_ediv hw hfrom) hw.le
  · have hn : 0 ≤ -time := by omega
    have hback : bucketOf width time = -((-time) / width * width) := by
      rw [← neg_eq_iff_eq_neg, ← bucketOf_neg, bucketOf, Int.tdiv_eq_ediv_of_nonneg hn]
    have hl := Int.ediv_mul_le (-time) hw.ne'
    have hp := Int.mul_nonneg (Int.ediv_nonneg hn hw.le) hw.le
    refine ⟨by omega, ?_⟩
    rcases hend with hend | hend
    · have hmono := Int.mul_le_mul_of_nonneg_right (Int.ediv_le_ediv hw (neg_le_neg hto)) hw.le
      rw [he (dvd_neg.mpr hend)] at hmono
      omega
    · omega

theorem count_basisBetween {table : Dict BasisKey BucketRow} {readings : BasisKey → List HistoryRow}
    (ha : Accounts width table readings) (tier : HistoryTier)
    (hh : ∀ key row, pl.held (.basis tier key row) = readings key)
    (hsensor : x.sensorId = sensorId) (hi : startMs ≤ bucketOf width x.timestamp ∧
      bucketOf width x.timestamp ≤ endMs) :
    ((basisBetween sensorId startMs endMs tier table).flatMap pl.held).count x =
      (readings (HistoryRow.key width x)).count x := by
  unfold basisBetween
  rw [flatMap_map, funext (fun p : BasisKey × BucketRow => hh p.1 p.2),
    ha.count_flatMap x (table.nodup.sublist (filter_sublist.map Prod.fst))]
  split_ifs with hm
  · rfl
  rw [ha.absent, count_nil]
  rw [Dict.get?_eq_none_iff]
  intro hk
  obtain ⟨p, hp, heq⟩ := mem_map.mp hk
  refine hm (mem_map.mpr ⟨p, mem_filter.mpr ⟨hp, decide_eq_true ?_⟩, heq⟩)
  rw [heq]
  exact ⟨hsensor, hi⟩

theorem count_rawBetween (hsensor : x.sensorId = sensorId) (hfrom : startMs ≤ x.timestamp)
    (hto : x.timestamp ≤ endMs) :
    ((st.rawBetween sensorId startMs endMs).flatMap pl.held).count x = st.raw.count x := by
  unfold rawBetween
  rw [flatMap_map]
  show (flatMap (fun r => [r]) _).count x = _
  rw [flatMap_singleton', count_filter]
  exact decide_eq_true ⟨hsensor, hfrom, hto⟩

section Placed

variable (h : Placed st inserted pl) (hstart : dayMs ∣ startMs) (hend : dayMs ∣ endMs ∨ 0 ≤ endMs)
  (hsensor : x.sensorId = sensorId) (hfrom : startMs ≤ x.timestamp) (hto : x.timestamp ≤ endMs)

include h hstart hend hsensor hfrom hto

theorem count_tierBetween (tier : HistoryTier) :
    ((st.tierBetween sensorId startMs endMs tier).flatMap pl.held).count x =
      pl.standsIn st x tier := by
  have hi : ∀ {width : ℤ}, 0 < width → width ∣ dayMs → startMs ≤ bucketOf width x.timestamp ∧
      bucketOf width x.timestamp ≤ endMs := fun hw hd =>
    bucketOf_between hw hd hstart hend hfrom hto
  obtain ⟨hfive, hhour, hd⟩ := h.legacy
  cases tier with
  | fiveMin =>
    unfold tierBetween
    rw [hfive]
    exact count_basisBetween h.fiveMin .fiveMin (fun _ _ => rfl) hsensor
      (hi (by decide) (by decide))
  | hourly =>
    unfold tierBetween
    rw [hhour]
    exact count_basisBetween h.hourly .hourly (fun _ _ => rfl) hsensor (hi (by decide) (by decide))
  | daily =>
    unfold tierBetween
    rw [hd]
    exact count_basisBetween h.daily .daily (fun _ _ => rfl) hsensor (hi (by decide) (by decide))
  | raw | bucketed => exact count_rawBetween hsensor hfrom hto

theorem count_sourcesBetween :
    ((st.sourcesBetween sensorId startMs endMs).flatMap pl.held).count x = inserted.count x := by
  have htier := count_tierBetween h hstart hend hsensor hfrom hto
  have hs : st.sourcesBetween sensorId startMs endMs = st.tierBetween sensorId startMs endMs .raw ++
        st.tierBetween sensorId startMs endMs .fiveMin ++
        st.tierBetween sensorId startMs endMs .hourly ++
          st.tierBetween sensorId startMs endMs .daily := by
    obtain ⟨hfive, hhour, hd⟩ := h.legacy
    have hn : ∀ tier, legacyBetween sensorId startMs endMs tier Dict.empty = [] := fun _ => rfl
    simp only [sourcesBetween, tierBetween, hfive, hhour, hd, hn, append_nil, nil_append]
  rw [hs]
  simp only [flatMap_append, count_append, htier]
  exact h.count x

theorem count_chartGroups :
    ((st.chartGroups sensorId startMs endMs).flatMap (fun g => g.2.flatMap pl.held)).count x =
      pl.standsIn st x (tierOf (endMs - startMs)) := by
  unfold chartGroups
  rw [((mergeSort_perm _ _).flatMap_right _).count_eq,
    ← count_tierBetween h hstart hend hsensor hfrom hto]
  split_ifs with hr
  · rw [flatMap_map]
    simp only [flatMap_singleton]
  · rw [← flatMap_assoc, ((groupBy_perm _ _).flatMap_right _).count_eq]

end Placed

end HistoryStore

namespace HistoryRun

/-- After any run the rows of an export short of its limit hold each reading of the range once, and
the rows of a chart the readings that stand in the tier of the range's length. -/
theorem range_reads {steps : List Step} {s : HistoryRun} (hrun : run step {} steps = some s) :
    ∃ pl, Placed s.connection.committed s.inserted pl ∧
      ∀ (sensorId : Text) (startMs endMs limit : ℤ) (x : HistoryRow), dayMs ∣ startMs →
        dayMs ∣ endMs ∨ 0 ≤ endMs → x.sensorId = sensorId → startMs ≤ x.timestamp →
        x.timestamp ≤ endMs →
        ((s.connection.committed.sourcesBetween sensorId startMs endMs).length ≤ exportLimit limit →
          ((s.connection.committed.exportSources sensorId startMs endMs limit).flatMap
            pl.held).count x = s.inserted.count x) ∧
        ((s.connection.committed.chartGroups sensorId startMs endMs).flatMap
          (fun g => g.2.flatMap pl.held)).count x =
            pl.standsIn s.connection.committed x (tierOf (endMs - startMs)) := by
  obtain ⟨-, pl, hpl⟩ := sound_of_run hrun
  refine ⟨pl, hpl, fun sensorId startMs endMs limit x hstart hend hsensor hfrom hto =>
    ⟨fun hlimit => ?_, count_chartGroups hpl hstart hend hsensor hfrom hto⟩⟩
  unfold exportSources
  rw [if_neg (not_lt.mpr (hfrom.trans hto)), take_of_length_le (by rwa [length_mergeSort]),
    ((mergeSort_perm _ _).flatMap_right _).count_eq]
  exact count_sourcesBetween hpl hstart hend hsensor hfrom hto

theorem range_reads_late : ∃ s, run step {} lateRun = some s ∧ ∃ pl,
    Placed s.connection.committed s.inserted pl := by
  have hany : (run step {} lateRun).isSome = true := by decide +kernel
  obtain ⟨s, hs⟩ := Option.isSome_iff_exists.mp hany
  obtain ⟨pl, hpl, -⟩ := range_reads hs
  exact ⟨s, hs, pl, hpl⟩

/-- A reading not yet compacted is in a chart of a day and missing from one of three. -/
theorem range_reads_recent : ∃ s, run step {} [.insert (celsius 20 60000) 100000 none] = some s ∧
    s.inserted.map (·.timestamp) = [60000] ∧
    s.connection.committed.getTimeseries (text "room-1") 0 (1 * dayMs) = [(60000, 20)] ∧
    s.connection.committed.getTimeseries (text "room-1") 0 (3 * dayMs) = [] := by
  exact exists_of_check (by decide +kernel)

end HistoryRun

end OriRuntime
