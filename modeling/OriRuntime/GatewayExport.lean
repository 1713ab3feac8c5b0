import OriRuntime.SensorHistory

/-!
# Gateway export

`GatewayExportResponder` of `ori/gateway/export.py`. A page token is held as the offset whose text
it is. The bytes of a response enter by their length, which the topic's maximum bounds.
-/

namespace OriRuntime

/-! ### Rows and buckets -/

inductive HistoryTier where
  | raw
  | fiveMin
  | hourly
  | daily
  | bucketed
  deriving DecidableEq

/-- A row of `export_sensor_history`. -/
structure ExportRow where
  sensorId : Text
  sensorType : Text
  timestamp : ℤ
  value : ℚ
  unit : Text
  quality : Option ℚ
  sampleCount : ℤ
  tier : HistoryTier
  receivedAtMs : ℤ
  producerTime : ProducerTime

structure SensorBucket where
  sensorId : Text
  sensorType : Text
  startMs : ℤ
  endMs : ℤ
  value : ℚ
  minValue : ℚ
  maxValue : ℚ
  unit : Text
  sampleCount : ℤ
  bucketMs : ℤ
  receivedAtMs : ℤ
  producerTime : ProducerTime

inductive ExportItem where
  | record (v : Json)
  | row (r : ExportRow)
  | bucket (b : SensorBucket)

/-- A bucket being filled, with the weighted total its average is read from. -/
structure FillingBucket where
  bucket : SensorBucket
  weightedTotal : ℚ

namespace FillingBucket

/-- The bucket a row opens, empty. -/
def opened (r : ExportRow) (bucketMs start : ℤ) : FillingBucket where
  bucket :=
    { sensorId := r.sensorId, sensorType := r.sensorType, startMs := start
      endMs := start + bucketMs, value := 0, minValue := r.value, maxValue := r.value
      unit := r.unit, sampleCount := 0, bucketMs := bucketMs, receivedAtMs := 0
      producerTime := r.producerTime }
  weightedTotal := 0

def add (f : FillingBucket) (r : ExportRow) : FillingBucket :=
  let samples := max 1 r.sampleCount
  { bucket :=
      { f.bucket with
        sampleCount := f.bucket.sampleCount + samples
        minValue := min f.bucket.minValue r.value
        maxValue := max f.bucket.maxValue r.value
        receivedAtMs := max f.bucket.receivedAtMs r.receivedAtMs }
    weightedTotal := f.weightedTotal + r.value * (samples : ℚ) }

def closed (f : FillingBucket) : SensorBucket :=
  { f.bucket with value := f.weightedTotal / ((max 1 f.bucket.sampleCount : ℤ) : ℚ) }

end FillingBucket

def ProducerTime.index : ProducerTime → ℕ
  | .reported => 0
  | .notReported => 1
  | .unknown => 2

def fillBuckets (bucketMs : ℤ) :
    List ExportRow → Dict (ℤ × ProducerTime) FillingBucket → Dict (ℤ × ProducerTime) FillingBucket
  | [], d => d
  | r :: rs, d =>
    let key := (r.timestamp / bucketMs * bucketMs, r.producerTime)
    let held := (d.get? key).getD (FillingBucket.opened r bucketMs key.1)
    fillBuckets bucketMs rs (d.set key (held.add r))

/-- `_bucket_sensor_rows`: one row a bucket and basis, in time order. -/
def bucketSensorRows (rows : List ExportRow) (bucketMs : ℤ) : List ExportItem :=
  if bucketMs ≤ 0 then rows.map .row
  else
    let buckets := (fillBuckets bucketMs rows Dict.empty).items
    let before (p q : (ℤ × ProducerTime) × FillingBucket) : Bool :=
      decide (p.1.1 < q.1.1 ∨ p.1.1 = q.1.1 ∧ p.1.2.index ≤ q.1.2.index)
    (buckets.mergeSort before).map (fun p => .bucket p.2.closed)

/-! ### Responses -/

structure ExportResponse where
  exportType : String
  items : List ExportItem := []
  nextPageToken : Option ℕ := none
  complete : Bool := true
  error : Option String := none
  /-- The index of the first item in the export. -/
  pageOffset : ℕ := 0

def maxExportLimit : ℕ := 1000

def maxSensorHistorySourceRows : ℕ := 10000

/-- What a request asks of an unchanged store: the rows its query matches, in the query's order. -/
inductive Export where
  | health (snapshot : Json)
  | log (exportType : String) (rows : List Json)
  | sensorHistory (rows : List ExportRow) (bucketMs : ℤ)

namespace Export

variable (x : Export)

def exportType : Export → String
  | .health _ => "health"
  | .log exportType _ => exportType
  | .sensorHistory _ _ => "sensor_history"

/-- A log query's `LIMIT`, which the store bounds again. -/
def logLimit (limit : ℕ) : ℕ := max 1 (min limit 1000)

/-- The history query's `LIMIT`, bounded likewise. -/
def historyLimit (limit : ℕ) : ℕ := max 1 (min limit 10000)

def pagedResponse (exportType : String) (rows : List ExportItem) (limit offset : ℕ) :
    ExportResponse :=
  let page := (rows.drop offset).take limit
  let nextOffset := offset + page.length
  let token := if nextOffset < rows.length ∨ maxExportLimit ≤ rows.length ∧ nextOffset = rows.length
    then some nextOffset else none
  { exportType := exportType, items := page, nextPageToken := token, complete := token.isNone
    pageOffset := offset }

/-- `_handle_request` past its checks. -/
def respond (limit offset : ℕ) : ExportResponse :=
  match x with
  | .health snapshot => { exportType := x.exportType, items := [.record snapshot] }
  | .log exportType rows =>
    pagedResponse exportType ((rows.take (logLimit (min maxExportLimit (limit + offset + 1)))).map
      .record) limit offset
  | .sensorHistory rows bucketMs =>
    pagedResponse x.exportType
      (bucketSensorRows (rows.take (historyLimit maxSensorHistorySourceRows)) bucketMs) limit offset

/-! ### Requests -/

def boundedLimit (limit : ℤ) : Except String ℕ :=
  if limit < 1 then .error "limit must be >= 1" else .ok (min limit.toNat maxExportLimit)

/-- `_page_offset`: the first page carries no token. -/
def pageOffset (token : Option ℕ) : Except String ℕ :=
  match token with
  | none => .ok 0
  | some offset => if 2 ^ 63 - 1 < offset then .error "page_token is out of range" else .ok offset

def errorResponse (error : String) : ExportResponse :=
  { exportType := x.exportType, error := some error }

def handleRequest (limit : ℤ) (token : Option ℕ) : ExportResponse :=
  match boundedLimit limit, pageOffset token with
  | .error e, _ => x.errorResponse e
  | .ok _, .error e => x.errorResponse e
  | .ok limit, .ok offset => x.respond limit offset

/-! ### Encoding -/

/-- `PAYLOAD_MAXIMA[EXPORT_RESPONSE]`. -/
def payloadMaximum : ℕ := 4194304

def fits (length : ℕ) : Bool := decide (length ≤ payloadMaximum)

def fittingLoop (fitsFirst : ℕ → Bool) : ℕ → ℕ → ℕ → ℕ
  | 0, low, _ => low
  | fuel + 1, low, high =>
    if low < high then
      let middle := (low + high + 1) / 2
      if fitsFirst middle then fittingLoop fitsFirst fuel middle high
      else fittingLoop fitsFirst fuel low (middle - 1)
    else low

/-- `fitting_count`; each turn of its loop brings the bounds closer, so `total` turns end it. -/
def fittingCount (total : ℕ) (fitsFirst : ℕ → Bool) : ℕ := fittingLoop fitsFirst total 0 total

def firstItems (r : ExportResponse) (count : ℕ) : ExportResponse :=
  { r with items := r.items.take count, nextPageToken := some (r.pageOffset + count)
           complete := false }

def itemExceedsPayloadMaximum : String := "item_exceeds_payload_maximum"

/-- `encode`: the response as published, under the length `size` gives each as it is encrypted,
encoded and signed. -/
def encode (size : ExportResponse → ℕ) (r : ExportResponse) : ExportResponse :=
  if fits (size r) then r
  else
    let count := fittingCount r.items.length (fun n => fits (size (firstItems r n)))
    if count = 0 then { exportType := r.exportType, error := some itemExceedsPayloadMaximum }
    else firstItems r count

/-- One request answered. -/
def page (size : ExportResponse → ℕ) (limit : ℤ) (token : Option ℕ) : ExportResponse :=
  encode size (x.handleRequest limit token)

/-- Page after page under the returned token, for at most so many requests. -/
def pages (size : ExportResponse → ℕ) (limit : ℤ) : ℕ → Option ℕ → Option (List ExportResponse)
  | 0, _ => none
  | n + 1, token =>
    let r := x.page size limit token
    if r.complete then some [r] else (pages size limit n r.nextPageToken).map (r :: ·)

end Export

end OriRuntime
