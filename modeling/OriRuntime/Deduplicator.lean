import OriRuntime.JsonRoundTrip
import OriRuntime.ThresholdSensitivity

/-!
# Suppressing duplicate readings

`ori/network/deduplicator.py` and `compute_fingerprint`. A reading is fingerprinted by its
identifiers and its value rounded to one decimal, put one after another; one of the fingerprint of
an event forwarded less than five seconds before is suppressed.
-/

namespace OriRuntime.Deduplicator

open List Option

open Execution

def WINDOW_MS : ℤ := 5000

def TTL_MS : ℤ := 30000

/-! ### Readings -/

/-- A float, with the sign of its zero. -/
inductive FloatValue where
  | finite (negative : Bool) (magnitude : ℚ≥0)
  | infinite (negative : Bool)
  | nan
  deriving DecidableEq

/-- `round(value, 1)`: a float a whole number of tenths is nearest to. -/
inductive Rounded where
  | tenths (negative : Bool) (n : ℕ)
  | infinite (negative : Bool)
  | nan
  deriving DecidableEq, Repr

/-- The tenths nearest to a magnitude, of two the even one. -/
def nearestTenths (magnitude : ℚ≥0) : ℕ :=
  let n := ⌊10 * (magnitude : ℚ)⌋₊
  let rest := 10 * (magnitude : ℚ) - n
  if rest < 1 / 2 then n else if 1 / 2 < rest then n + 1 else if n % 2 = 0 then n else n + 1

def FloatValue.round : FloatValue → Rounded
  | .finite negative magnitude => .tenths negative (nearestTenths magnitude)
  | .infinite negative => .infinite negative
  | .nan => .nan

structure SensorReading where
  sensorId : Text
  sensorType : Text
  value : FloatValue
  deriving DecidableEq

structure OriEvent where
  eventId : Text
  deviceId : Text
  reading : Option SensorReading
  fingerprint : Text := []
  deriving DecidableEq

/-- `hashlib.sha256(…).hexdigest()` and `str` of a rounded float. -/
structure FingerprintCodec where
  sha256 : Text → Text
  floatText : Rounded → Text

variable (c : FingerprintCodec)

def rawFingerprint (reading : SensorReading) (deviceId : Text) : Text :=
  deviceId ++ reading.sensorId ++ reading.sensorType ++ c.floatText reading.value.round

def computeFingerprint (reading : SensorReading) (deviceId : Text) : Text :=
  c.sha256 (rawFingerprint c reading deviceId)

/-! ### The deduplicator -/

structure OccurrenceRecord where
  firstSeen : ℤ
  lastSeen : ℤ
  count : ℕ
  event : OriEvent

structure EventDeduplicator where
  records : Dict Text OccurrenceRecord := Dict.empty
  totalProcessed : ℕ := 0
  totalSuppressed : ℕ := 0

namespace EventDeduplicator

variable (d : EventDeduplicator)

def fingerprintOf (event : OriEvent) : Text :=
  match event.reading with
  | some reading => computeFingerprint c reading event.deviceId
  | none => if event.fingerprint = [] then event.eventId else event.fingerprint

/-- `process`, by whether the event is forwarded. -/
def process (event : OriEvent) (now : ℤ) : Bool × EventDeduplicator :=
  let fp := fingerprintOf c event
  let d := { d with totalProcessed := d.totalProcessed + 1 }
  let forwarded := fun count =>
    (true, { d with records := d.records.set fp ⟨now, now, count, event⟩ })
  match d.records.get? fp with
  | none => forwarded 1
  | some record =>
    if now - record.firstSeen < WINDOW_MS then
      (false,
        { d with
          records := d.records.set fp { record with lastSeen := now, count := record.count + 1 }
          totalSuppressed := d.totalSuppressed + 1 })
    else forwarded (record.count + 1)

theorem process_cases (event : OriEvent) (now : ℤ) : (∃ count, d.process c event now =
      (true, { d with
        totalProcessed := d.totalProcessed + 1
        records := d.records.set (fingerprintOf c event) ⟨now, now, count, event⟩ })) ∨
    ∃ record, d.records.get? (fingerprintOf c event) = some record ∧
      now - record.firstSeen < WINDOW_MS ∧
      d.process c event now =
        (false, { d with
          totalProcessed := d.totalProcessed + 1
          records := d.records.set (fingerprintOf c event)
            { record with lastSeen := now, count := record.count + 1 }
          totalSuppressed := d.totalSuppressed + 1 }) := by
  unfold process
  cases hr : d.records.get? (fingerprintOf c event) with
  | none => exact .inl ⟨1, by simp only [hr]⟩
  | some record =>
    by_cases hw : now - record.firstSeen < WINDOW_MS
    · exact .inr ⟨record, rfl, hw, by simp only [hr, if_pos hw]⟩
    · exact .inl ⟨record.count + 1, by simp only [hr, if_neg hw]⟩

def stale (now : ℤ) : List Text :=
  (d.records.items.filter fun item => decide (item.2.lastSeen < now - TTL_MS)).map Prod.fst

def cleanup (now : ℤ) : EventDeduplicator :=
  { d with records := (d.stale now).foldl (fun records fp => records.pop fp) d.records }

end EventDeduplicator

/-! ### Runs -/

structure Processed where
  at' : ℤ
  event : OriEvent
  forwarded : Bool

/-- The deduplicator with the last reading of the clock and what it has been given. -/
structure DedupState where
  dedup : EventDeduplicator := {}
  clock : ℤ := 0
  log : List Processed := []

inductive DedupStep where
  | process (event : OriEvent) (now : ℤ)
  | cleanup (now : ℤ)

def dedupStep (s : DedupState) : DedupStep → Option DedupState
  | .process event now =>
    if now < s.clock then none
    else
      let (forwarded, dedup) := s.dedup.process c event now
      some { dedup := dedup, clock := now, log := s.log ++ [⟨now, event, forwarded⟩] }
  | .cleanup now =>
    if now < s.clock then none else some { s with dedup := s.dedup.cleanup now, clock := now }

def DedupStep.CarriesReading : DedupStep → Prop
  | .process event _ => event.reading ≠ none
  | .cleanup _ => True

/-! ### What is suppressed -/

/-- An event of the log that was forwarded, and its record. -/
def DedupState.Forwarded (s : DedupState) (fp : Text) (at' : ℤ) : Prop :=
  ∃ (i : ℕ) (q : Processed), s.log[i]? = some q ∧ q.forwarded = true ∧ q.at' = at' ∧
    q.event.reading ≠ none ∧ EventDeduplicator.fingerprintOf c q.event = fp

structure DedupSound (s : DedupState) : Prop where
  records : ∀ fp record, s.dedup.records.get? fp = some record →
    s.Forwarded c fp record.firstSeen ∧ record.firstSeen ≤ s.clock
  suppressed : ∀ (i : ℕ) (p : Processed), s.log[i]? = some p → p.event.reading ≠ none ∧
    (p.forwarded = false → ∃ (j : ℕ) (q : Processed), j < i ∧ s.log[j]? = some q ∧
      q.forwarded = true ∧ q.event.reading ≠ none ∧ q.at' ≤ p.at' ∧ p.at' - q.at' < WINDOW_MS ∧
      EventDeduplicator.fingerprintOf c q.event = EventDeduplicator.fingerprintOf c p.event)

variable {c} {s t : DedupState}

theorem DedupState.Forwarded.append {fp : Text} {at' : ℤ} (h : s.Forwarded c fp at')
    {p : Processed} (hl : t.log = s.log ++ [p]) : t.Forwarded c fp at' := by
  obtain ⟨i, q, hq, hr⟩ := h
  obtain ⟨ht, -⟩ := List.getElem?_eq_some_iff.mp hq
  exact ⟨i, q, by rw [hl, List.getElem?_append_left ht, hq], hr⟩

namespace DedupSound

theorem extend (hs : DedupSound c s) {p : Processed} (hl : t.log = s.log ++ [p])
    (hr : p.event.reading ≠ none) (hc : s.clock ≤ t.clock)
    (hrc : ∀ fp record, t.dedup.records.get? fp = some record →
      (∃ old, s.dedup.records.get? fp = some old ∧ old.firstSeen = record.firstSeen) ∨
        (p.forwarded = true ∧ p.at' = record.firstSeen ∧ p.at' ≤ t.clock ∧
          EventDeduplicator.fingerprintOf c p.event = fp))
    (hu : p.forwarded = false → ∃ (j : ℕ) (q : Processed), s.log[j]? = some q ∧
      q.forwarded = true ∧ q.event.reading ≠ none ∧ q.at' ≤ p.at' ∧ p.at' - q.at' < WINDOW_MS ∧
      EventDeduplicator.fingerprintOf c q.event = EventDeduplicator.fingerprintOf c p.event) :
    DedupSound c t where
  records fp record h := by
    rcases hrc fp record h with ⟨old, hold, hm⟩ | ⟨hf, ha, he, hp⟩
    · obtain ⟨hlogg, hb⟩ := hs.records fp old hold
      rw [← hm]
      exact ⟨hlogg.append hl, le_trans hb hc⟩
    · refine ⟨⟨s.log.length, p, ?_, hf, ha, hr, hp⟩, ha ▸ he⟩
      rw [hl, List.getElem?_concat_length]
  suppressed i p' hp' := by
    rw [hl] at hp'
    by_cases ht : i < s.log.length
    · rw [List.getElem?_append_left ht] at hp'
      obtain ⟨hca, hsn⟩ := hs.suppressed i p' hp'
      refine ⟨hca, fun hn => ?_⟩
      obtain ⟨j, q, hj, hq, hrs⟩ := hsn hn
      exact ⟨j, q, hj, by rw [hl, List.getElem?_append_left (lt_trans hj ht), hq], hrs⟩
    · obtain ⟨hl', -⟩ := List.getElem?_eq_some_iff.mp hp'
      rw [length_append, length_singleton] at hl'
      obtain rfl : i = s.log.length := by omega
      rw [List.getElem?_concat_length] at hp'
      cases hp'
      refine ⟨hr, fun hn => ?_⟩
      obtain ⟨j, q, hq, hrs⟩ := hu hn
      obtain ⟨hj, -⟩ := List.getElem?_eq_some_iff.mp hq
      exact ⟨j, q, hj, by rw [hl, List.getElem?_append_left hj, hq], hrs⟩

theorem process (hs : DedupSound c s) {event : OriEvent} {now : ℤ}
    (he : event.reading ≠ none) (ht : dedupStep c s (.process event now) = some t) :
    DedupSound c t := by
  rw [dedupStep] at ht
  split at ht <;> rename_i hback
  · cases ht
  · have hc : s.clock ≤ now := not_lt.mp hback
    cases ht
    have hforw : ∀ count fp (record : OccurrenceRecord),
        (s.dedup.records.set (EventDeduplicator.fingerprintOf c event)
          ⟨now, now, count, event⟩).get? fp = some record →
        (∃ old, s.dedup.records.get? fp = some old ∧ old.firstSeen = record.firstSeen) ∨
          (now = record.firstSeen ∧ EventDeduplicator.fingerprintOf c event = fp) := by
      intro count fp record hr
      by_cases hm : fp = EventDeduplicator.fingerprintOf c event
      · rw [hm, Dict.get?_set_self] at hr
        cases hr
        exact .inr ⟨rfl, hm.symm⟩
      · rw [Dict.get?_set_of_ne _ _ hm] at hr
        exact .inl ⟨record, hr, rfl⟩
    change DedupSound c
      { dedup := (s.dedup.process c event now).2, clock := now
        log := s.log ++ [⟨now, event, (s.dedup.process c event now).1⟩] }
    rcases EventDeduplicator.process_cases c s.dedup event now with
      ⟨count, hp⟩ | ⟨record, hr, hw, hp⟩
    · rw [hp]
      refine hs.extend rfl he hc (fun fp record hr => ?_) fun h => (by cases h)
      exact (hforw count fp record hr).imp id fun h => ⟨rfl, h.1, le_refl _, h.2⟩
    · rw [hp]
      obtain ⟨⟨j, q, hq, hf, ha, hca, hfp⟩, hb⟩ := hs.records _ record hr
      refine hs.extend rfl he hc (fun fp other ho => .inl ?_) fun _ =>
        ⟨j, q, hq, hf, hca, le_trans (ha ▸ hb) hc, ha ▸ hw, hfp⟩
      by_cases hm : fp = EventDeduplicator.fingerprintOf c event
      · rw [hm, Dict.get?_set_self] at ho
        cases ho
        exact ⟨record, hm ▸ hr, rfl⟩
      · rw [Dict.get?_set_of_ne _ _ hm] at ho
        exact ⟨other, ho, rfl⟩

theorem cleanup (hs : DedupSound c s) {now : ℤ} (ht : dedupStep c s (.cleanup now) = some t) :
    DedupSound c t := by
  rw [dedupStep] at ht
  split at ht <;> rename_i hback
  · cases ht
  · cases ht
    refine ⟨fun fp record h => ?_, hs.suppressed⟩
    change ((s.dedup.stale now).foldl (fun records fp => Dict.pop records fp)
      s.dedup.records).get? fp = some record at h
    rw [Dict.get?_foldl_pop] at h
    split_ifs at h
    obtain ⟨hf, hb⟩ := hs.records fp record h
    exact ⟨hf, le_trans hb (not_lt.mp hback)⟩

end DedupSound

/-! ### Readings that round alike -/

/-- The reading of the same sensor, with a value that rounds to the same tenth. -/
structure SensorReading.RoundsTo (r r' : SensorReading) : Prop where
  sensorId : r.sensorId = r'.sensorId
  sensorType : r.sensorType = r'.sensorType
  value : r.value.round = r'.value.round

theorem suppressed_rounds_to_forwarded (hsha : Function.Injective c.sha256)
    (hfloat : Function.Injective c.floatText) {as : List DedupStep}
    (h : run (dedupStep c) {} as = some s)
    (hreadings : ∀ a ∈ as, a.CarriesReading) {i : ℕ} {p : Processed} (hp : s.log[i]? = some p)
    (hsuppressed : p.forwarded = false) :
    ∃ (j : ℕ) (q : Processed) (r r' : SensorReading), j < i ∧ s.log[j]? = some q ∧
      q.forwarded = true ∧ q.at' ≤ p.at' ∧ p.at' - q.at' < WINDOW_MS ∧
      q.event.reading = some r ∧ p.event.reading = some r' ∧
      rawFingerprint c r q.event.deviceId = rawFingerprint c r' p.event.deviceId ∧
      (q.event.deviceId = p.event.deviceId → r.sensorId = r'.sensorId →
        r.sensorType = r'.sensorType → r.RoundsTo r' ∧
          ∀ holds : SensorReading → Bool, (∀ a b, a.RoundsTo b → holds a = holds b) →
            holds r = holds r') := by
  have hstep : ∀ (u : DedupState) (a : DedupStep) (v : DedupState), DedupSound c u →
      a.CarriesReading → dedupStep c u a = some v → DedupSound c v := by
    intro u a v hu ha hv
    cases a with
    | process event now => exact hu.process ha hv
    | cleanup now => exact hu.cleanup hv
  have hsound : DedupSound c s := run_invariant_of_meets hstep
    ⟨fun _ _ h => (by cases h), fun _ _ h => (by cases h)⟩ (meets_of_forall hreadings _) h
  obtain ⟨hcarries, hseen⟩ := hsound.suppressed i p hp
  obtain ⟨j, q, hj, hq, hforwarded, hcarries', hbefore, hwindow, hfp⟩ := hseen hsuppressed
  obtain ⟨r, hr⟩ := ne_none_iff_exists'.mp hcarries'
  obtain ⟨r', hr'⟩ := ne_none_iff_exists'.mp hcarries
  have hraw : rawFingerprint c r q.event.deviceId = rawFingerprint c r' p.event.deviceId := by
    unfold EventDeduplicator.fingerprintOf at hfp
    rw [hr, hr'] at hfp
    exact hsha hfp
  refine ⟨j, q, r, r', hj, hq, hforwarded, hbefore, hwindow, hr, hr', hraw,
    fun hdevice hsensor htype => ?_⟩
  have hround : r.RoundsTo r' := by
    refine ⟨hsensor, htype, hfloat ?_⟩
    unfold rawFingerprint at hraw
    rw [hdevice, hsensor, htype] at hraw
    exact append_cancel_left hraw
  exact ⟨hround, fun holds hholds => hholds r r' hround⟩

/-! ### A reading over a limit -/

def FloatValue.toPyFloat : FloatValue → PyFloat
  | .finite negative magnitude => .finite (if negative then -magnitude else magnitude)
  | .infinite negative => if negative then .negInf else .posInf
  | .nan => .nan

def roundedText : Rounded → Text
  | .tenths negative n =>
    (if negative then text "-" else []) ++
      (Json.natText (n / 10) ++ codePoint '.' :: Json.natText (n % 10))
  | .infinite negative => (if negative then text "-" else []) ++ text "inf"
  | .nan => text "nan"

theorem takeWhile_tenths (n : ℕ) (rest : Text) :
    (Json.natText n ++ codePoint '.' :: rest).takeWhile Json.isDigit = Json.natText n ∧
      (Json.natText n ++ codePoint '.' :: rest).dropWhile Json.isDigit = codePoint '.' :: rest :=
  Json.takeWhile_digits (Json.natText_digits n) fun c cs h => by
    obtain ⟨rfl, -⟩ := List.cons.inj h
    decide

theorem splitSign_roundedText (negative : Bool) (n : ℕ) :
    Json.splitSign (roundedText (.tenths negative n)) =
      (negative, Json.natText (n / 10) ++ codePoint '.' :: Json.natText (n % 10)) := by
  cases negative with
  | true => rfl
  | false => exact Json.splitSign_natText _ _

theorem natText_injective : Function.Injective Json.natText := fun n m h => by
  rw [← Json.natOf_natText n, h, Json.natOf_natText]

theorem roundedText_injective : Function.Injective roundedText := by
  have htent : ∀ {negative n} {x : Text}, roundedText (.tenths negative n) = x →
      ((Json.splitSign x).2.takeWhile Json.isDigit) ≠ [] := by
    rintro negative n x rfl
    rw [splitSign_roundedText, (takeWhile_tenths _ _).1]
    exact Json.natText_ne_nil _
  intro x y h
  cases x with
  | tenths negative n =>
    cases y with
    | tenths negative' n' =>
      have hs := congrArg Json.splitSign h
      rw [splitSign_roundedText, splitSign_roundedText] at hs
      obtain ⟨rfl, hbody⟩ := Prod.mk.inj hs
      have hw := congrArg (List.takeWhile Json.isDigit) hbody
      have ht := congrArg (List.dropWhile Json.isDigit) hbody
      rw [(takeWhile_tenths _ _).1, (takeWhile_tenths _ _).1] at hw
      rw [(takeWhile_tenths _ _).2, (takeWhile_tenths _ _).2] at ht
      have hd := natText_injective hw
      have hm := natText_injective (List.cons.inj ht).2
      rw [← Nat.div_add_mod n 10, hd, hm, Nat.div_add_mod]
    | infinite negative' => exact absurd (by cases negative' <;> decide) (htent h)
    | nan => exact absurd (by decide) (htent h)
  | infinite negative =>
    cases y with
    | tenths negative' n' => exact absurd (by cases negative <;> decide) (htent h.symm)
    | infinite negative' =>
      revert h
      cases negative <;> cases negative' <;> decide
    | nan =>
      revert h
      cases negative <;> decide
  | nan =>
    cases y with
    | tenths negative' n' => exact absurd (by decide) (htent h.symm)
    | infinite negative' =>
      revert h
      cases negative' <;> decide
    | nan => rfl

/-- A digest that tells the text it is taken of. -/
def benchCodec : FingerprintCodec where
  sha256 raw := text "sha256 of " ++ raw
  floatText := roundedText

def pressure (sensorId sensorType : String) (value : ℚ≥0) : OriEvent where
  eventId := text "event"
  deviceId := text "site"
  reading := some ⟨text sensorId, text sensorType, .finite false value⟩

/-- The verdict of `value > limit` at a limit of 100. -/
def aboveHundred (reading : SensorReading) : Bool :=
  RuleEngine.conditionHolds Plain.parse Plain.objects
    ⟨baseContext
        (some
          { value := .number reading.value.toPyFloat, sensorId := .str reading.sensorId,
            sensorType := .str reading.sensorType, unit := .str (text "bar"),
            quality := .number (.finite 1) })
        (Dict.empty.set (text "limit") (.number (.finite 100))), Dict.empty⟩
    (text "value > limit")

/-- A reading that crosses the limit is withheld, and so is one of another sensor. -/
theorem crossing_withheld : (∃ s, run (dedupStep benchCodec) {}
        [.process (pressure "line" "pressure" 99.96) 0,
          .process (pressure "line" "pressure" 100.04) 1000] = some s ∧
      s.log.map Processed.forwarded = [true, false]) ∧
    (pressure "line" "pressure" 99.96).reading.map aboveHundred = some false ∧
    (pressure "line" "pressure" 100.04).reading.map aboveHundred = some true ∧
    ∃ s, run (dedupStep benchCodec) {} [.process (pressure "line" "1_pressure" 2) 0,
          .process (pressure "line1" "_pressure" 2) 1000] = some s ∧
      s.log.map Processed.forwarded = [true, false] := by
  refine ⟨?_, by decide +kernel, by decide +kernel, ?_⟩ <;>
    exact exists_of_check (by decide +kernel)

theorem suppressed_rounds_to_forwarded_of_crossing : ∃ s, run (dedupStep benchCodec) {}
        [.process (pressure "line" "pressure" 99.96) 0,
          .process (pressure "line" "pressure" 100.04) 1000] = some s ∧
      ∃ (q : Processed) (r r' : SensorReading), s.log[0]? = some q ∧ q.event.reading = some r ∧
        (pressure "line" "pressure" 100.04).reading = some r' ∧ r.RoundsTo r' := by
  have hreadings : ∀ a ∈ ([.process (pressure "line" "pressure" 99.96) 0,
      .process (pressure "line" "pressure" 100.04) 1000] : List DedupStep), a.CarriesReading := by
    intro a ha
    rcases mem_pair.mp ha with rfl | rfl <;> exact nofun
  obtain ⟨s, hrun, hlog⟩ : ∃ s, run (dedupStep benchCodec) {}
      [.process (pressure "line" "pressure" 99.96) 0,
        .process (pressure "line" "pressure" 100.04) 1000] = some s ∧
      s.log.map (fun p => (p.forwarded, p.event)) =
        [(true, pressure "line" "pressure" 99.96), (false, pressure "line" "pressure" 100.04)] :=
    exists_of_check (by decide +kernel)
  obtain ⟨q, p, hlog', hq, hp⟩ : ∃ q p, s.log = [q, p] ∧
      (q.forwarded, q.event) = (true, pressure "line" "pressure" 99.96) ∧
      (p.forwarded, p.event) = (false, pressure "line" "pressure" 100.04) := by
    obtain ⟨q, rest, hcons, hq, hrest⟩ := map_eq_cons_iff.mp hlog
    obtain ⟨p, rest', hcons', hp, hnil⟩ := map_eq_cons_iff.mp hrest
    obtain rfl := map_eq_nil_iff.mp hnil
    exact ⟨q, p, hcons ▸ hcons' ▸ rfl, hq, hp⟩
  obtain ⟨hqf, hqe⟩ := Prod.mk.inj hq
  obtain ⟨hpf, hpe⟩ := Prod.mk.inj hp
  obtain ⟨j, q', r, r', hj, hq', -, -, -, hr, hr', -, hround⟩ := suppressed_rounds_to_forwarded
    (c := benchCodec) (fun _ _ h => append_cancel_left h) roundedText_injective hrun hreadings
    (show s.log[1]? = some p by rw [hlog']; rfl) hpf
  obtain rfl : j = 0 := by omega
  rw [hlog'] at hq'
  cases hq'
  rw [hpe] at hr' hround
  rw [hqe] at hr hround
  cases hr
  cases hr'
  exact ⟨s, hrun, q, _, _, by rw [hlog']; rfl, by rw [hqe]; rfl, rfl, (hround rfl rfl rfl).1⟩

end OriRuntime.Deduplicator
