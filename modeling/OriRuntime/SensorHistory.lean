import OriRuntime.Dict
import OriRuntime.Json

/-!
# Sensor history

The history tables of `ori/state/_history.py`: raw readings, and two pyramids of buckets, one by
basis and the one an earlier release compacts into. Values are rational, so an average is exact.
Integer division is SQLite's, which truncates.
-/

namespace OriRuntime

/-- What a reading's timestamp is, in the order a bucket exports its rows. -/
inductive ProducerTime where
  | reported
  | notReported
  | unknown
  deriving DecidableEq

structure SensorReading where
  sensorId : Text
  sensorType : Text
  value : ℚ
  unit : Text
  timestamp : ℤ
  quality : ℚ
  producerTime : ProducerTime
  deriving DecidableEq

structure HistoryRow extends SensorReading where
  id : ℕ
  receivedAtMs : ℤ
  deriving DecidableEq

structure BucketRow where
  sensorType : Text
  unit : Text
  avgValue : ℚ
  sampleCount : ℤ
  maxReceivedAtMs : ℤ
  deriving DecidableEq

/-- The unique columns of a table by basis. -/
structure BasisKey where
  sensorId : Text
  bucketMs : ℤ
  producerTime : ProducerTime
  deriving DecidableEq

structure LegacyKey where
  sensorId : Text
  bucketMs : ℤ
  deriving DecidableEq

structure HistoryStore where
  raw : List HistoryRow := []
  nextId : ℕ := 1
  fiveMin : Dict LegacyKey BucketRow := Dict.empty
  hourly : Dict LegacyKey BucketRow := Dict.empty
  daily : Dict LegacyKey BucketRow := Dict.empty
  basisFiveMin : Dict BasisKey BucketRow := Dict.empty
  basisHourly : Dict BasisKey BucketRow := Dict.empty
  basisDaily : Dict BasisKey BucketRow := Dict.empty

namespace HistoryStore

/-! ### Statements -/

section Groups

variable {ρ κ : Type} [DecidableEq κ]

/-- `GROUP BY`: the rows of each key. -/
def groupBy (key : ρ → κ) (rows : List ρ) : List (κ × List ρ) :=
  (rows.map key).dedup.map (fun k => (k, rows.filter (fun r => decide (key r = k))))

/-- `MAX`, and the row it is of, which the bare columns are read from. -/
def greatest (receipt : ρ → ℤ) : ρ → List ρ → ρ
  | r, [] => r
  | r, s :: rest => greatest receipt (if receipt r < receipt s then s else r) rest

/-- `ON CONFLICT … DO UPDATE`: the weighted average of the two rows. -/
def merge (old excluded : BucketRow) : BucketRow :=
  { old with
    avgValue := (old.avgValue * (old.sampleCount : ℚ) +
        excluded.avgValue * (excluded.sampleCount : ℚ)) /
      ((old.sampleCount : ℚ) + (excluded.sampleCount : ℚ))
    sampleCount := old.sampleCount + excluded.sampleCount
    maxReceivedAtMs := max old.maxReceivedAtMs excluded.maxReceivedAtMs }

def upsert (table : Dict κ BucketRow) (key : κ) (row : BucketRow) : Dict κ BucketRow :=
  match table.get? key with
  | none => table.set key row
  | some old => table.set key (merge old row)

def insertGroups (aggregate : ρ → List ρ → BucketRow) (table : Dict κ BucketRow) :
    List (κ × List ρ) → Dict κ BucketRow
  | [] => table
  | (_, []) :: rest => insertGroups aggregate table rest
  | (key, r :: rs) :: rest => insertGroups aggregate (upsert table key (aggregate r rs)) rest

/-- The rows of a table whose greatest receipt is before the cutoff. -/
def received (table : Dict κ BucketRow) (cutoff : ℤ) : List (κ × BucketRow) :=
  table.items.filter (fun p => decide (p.2.maxReceivedAtMs < cutoff))

def deleteBefore (table : Dict κ BucketRow) (cutoff : ℤ) : Dict κ BucketRow where
  items := table.items.filter (fun p => decide (¬ p.2.maxReceivedAtMs < cutoff))
  nodup := table.nodup.sublist (List.filter_sublist.map Prod.fst)

end Groups

/-- `AVG`, `COUNT` and `MAX` over raw rows. -/
def aggregateRaw (r : HistoryRow) (rs : List HistoryRow) : BucketRow :=
  let top := greatest (·.receivedAtMs) r rs
  { sensorType := top.sensorType
    unit := top.unit
    avgValue := ((r :: rs).map (·.value)).sum / (r :: rs).length
    sampleCount := (r :: rs).length
    maxReceivedAtMs := top.receivedAtMs }

/-- `SUM(avg_value * sample_count) / SUM(sample_count)` and `MAX` over buckets. -/
def aggregateBuckets {κ : Type} (r : κ × BucketRow) (rs : List (κ × BucketRow)) : BucketRow :=
  let top := greatest (fun p : κ × BucketRow => p.2.maxReceivedAtMs) r rs
  { sensorType := top.2.sensorType
    unit := top.2.unit
    avgValue := ((r :: rs).map (fun p => p.2.avgValue * (p.2.sampleCount : ℚ))).sum /
      (((r :: rs).map (·.2.sampleCount)).sum : ℤ)
    sampleCount := ((r :: rs).map (·.2.sampleCount)).sum
    maxReceivedAtMs := top.2.maxReceivedAtMs }

def fiveMinMs : ℤ := 300000

def hourMs : ℤ := 3600000

def dayMs : ℤ := 86400000

def bucketOf (width time : ℤ) : ℤ := time.tdiv width * width

def HistoryRow.key (width : ℤ) (r : HistoryRow) : BasisKey :=
  ⟨r.sensorId, bucketOf width r.timestamp, r.producerTime⟩

def BasisKey.up (width : ℤ) (k : BasisKey) : BasisKey :=
  { k with bucketMs := bucketOf width k.bucketMs }

def LegacyKey.up (width : ℤ) (k : LegacyKey) : LegacyKey :=
  { k with bucketMs := bucketOf width k.bucketMs }

structure Cutoffs where
  raw : ℤ
  fiveMin : ℤ
  hourly : ℤ

def rollUp {κ : Type} [DecidableEq κ] (up : κ → κ) (source target : Dict κ BucketRow) (cutoff : ℤ) :
    Dict κ BucketRow :=
  insertGroups aggregateBuckets target
    (groupBy (fun p : κ × BucketRow => up p.1) (received source cutoff))

/-- The five-minute buckets of the raw rows received before the cutoff. -/
def rollUpRaw (raw : List HistoryRow) (target : Dict BasisKey BucketRow) (cutoff : ℤ) :
    Dict BasisKey BucketRow :=
  insertGroups aggregateRaw target
    (groupBy (HistoryRow.key fiveMinMs) (raw.filter (fun r => decide (r.receivedAtMs < cutoff))))

def deleteRaw (raw : List HistoryRow) (cutoff : ℤ) : List HistoryRow :=
  raw.filter (fun r => decide (¬ r.receivedAtMs < cutoff))

/-- The statements of a compaction, each insert before the delete of what it moved. -/
def statements (c : Cutoffs) : List (HistoryStore → HistoryStore) :=
  [fun s => { s with basisFiveMin := rollUpRaw s.raw s.basisFiveMin c.raw },
    fun s => { s with raw := deleteRaw s.raw c.raw },
    fun s => { s with hourly := rollUp (LegacyKey.up hourMs) s.fiveMin s.hourly c.fiveMin },
    fun s => { s with fiveMin := deleteBefore s.fiveMin c.fiveMin },
    fun s => { s with
      basisHourly := rollUp (BasisKey.up hourMs) s.basisFiveMin s.basisHourly c.fiveMin },
    fun s => { s with basisFiveMin := deleteBefore s.basisFiveMin c.fiveMin },
    fun s => { s with daily := rollUp (LegacyKey.up dayMs) s.hourly s.daily c.hourly },
    fun s => { s with hourly := deleteBefore s.hourly c.hourly },
    fun s => { s with
      basisDaily := rollUp (BasisKey.up dayMs) s.basisHourly s.basisDaily c.hourly },
    fun s => { s with basisHourly := deleteBefore s.basisHourly c.hourly }]

end HistoryStore

/-! ### Operations -/

/-- What is on disk, and what the writer's open transaction has made of it. -/
structure HistoryConnection where
  committed : HistoryStore := {}
  working : HistoryStore := {}

namespace HistoryConnection

def execute (c : HistoryConnection) (f : HistoryStore → HistoryStore) : HistoryConnection :=
  { c with working := f c.working }

def commit (c : HistoryConnection) : HistoryConnection := { c with committed := c.working }

/-- `_settled`: whatever an operation did not commit is rolled back, however it ends. -/
def settled (c : HistoryConnection) : HistoryConnection := { c with working := c.committed }

def cutoffsAt (nowMs : ℤ) : HistoryStore.Cutoffs where
  raw := nowMs - 48 * 3600 * 1000
  fiveMin := nowMs - 30 * 86400 * 1000
  hourly := nowMs - 365 * 86400 * 1000

/-- Statements up to the one that raises, if one does; the commit is the last. -/
def transact (c : HistoryConnection) : List (HistoryStore → HistoryStore) → Option ℕ →
    HistoryConnection
  | [], none => c.commit
  | [], some _ => c
  | _ :: _, some 0 => c
  | f :: fs, some (n + 1) => (c.execute f).transact fs (some n)
  | f :: fs, none => (c.execute f).transact fs none

/-- `_compact_sync`, which raises before any statement on a negative skew or unordered cutoffs. -/
def compactSync (c : HistoryConnection) (cutoffs : HistoryStore.Cutoffs)
    (nowMs maxBackwardSkewMs : ℤ) (raises : Option ℕ) : HistoryConnection :=
  if maxBackwardSkewMs < 0 then c
  else if cutoffs.hourly < cutoffs.fiveMin ∧ cutoffs.fiveMin < cutoffs.raw ∧
      cutoffs.raw < nowMs then c.transact (HistoryStore.statements cutoffs) raises
  else c

def compactHistory (c : HistoryConnection) (nowMs maxBackwardSkewMs : ℤ) (raises : Option ℕ) :
    HistoryConnection :=
  (c.compactSync (cutoffsAt nowMs) nowMs maxBackwardSkewMs raises).settled

/-- `_insert_reading_sync`, which the receipt's CHECK can refuse. -/
def insertReading (c : HistoryConnection) (r : SensorReading) (nowMs : ℤ) (raises : Option ℕ) :
    HistoryConnection :=
  if 0 < nowMs then
    (c.transact [fun st => { st with raw := st.raw ++ [{ r with id := st.nextId
                                                                receivedAtMs := nowMs }]
                                     nextId := st.nextId + 1 }] raises).settled
  else c.settled

end HistoryConnection

end OriRuntime
