import OriRuntime.ControllerProfile

/-!
# Decoding through an accepted profile

A measurement channel of an accepted document decodes every raw count of its range within the bounds
the grammar checks at the two ends, and in exact arithmetic a value is in range where it is the
decode of one count, and of one only.
-/

namespace OriRuntime

open List Option

namespace ControllerProfile

open Execution (bind_eq_ok_iff)

/-! ### What the grammar leaves -/

structure MeasurementChannel.Valid (c : MeasurementChannel) : Prop where
  ordered : c.rawMin ≤ c.rawMax
  scale : c.scale.1 ≠ 0
  within : decodeWithinBounds c.rawMin c.rawMax c.scale c.offset = true

structure AlarmChannel.Valid (c : AlarmChannel) : Prop where
  bits : (c.alarms.map (·.bit)).Nodup
  ids : (c.alarms.map (·.id)).Nodup
  inWord : ∀ a ∈ c.alarms, a.bit < c.width

theorem require_eq_ok_iff {ok : Bool} {rule : String} {u : Unit} :
    require ok rule = .ok u ↔ ok = true := by
  unfold require
  split_ifs with h
  · simp [h]
  · simp [h]

theorem requireSome_eq_ok_iff {α : Type} {value : Option α} {rule : String} {v : α} :
    requireSome value rule = .ok v ↔ value = some v := by
  cases value with
  | none =>
    constructor
    all_goals
      intro h
      cases h
  | some w =>
    constructor
    · intro h
      exact congrArg some (Except.ok.inj h)
    · intro h
      exact congrArg Except.ok (some.inj h)

theorem decimal_spec {value : Option Json} {nonzero : Bool} {p : ℤ × ℤ}
    (h : decimal value nonzero = some p) :
    mantissaExponent value = some p ∧ (nonzero = true → p.1 ≠ 0) := by
  unfold decimal at h
  split at h
  · rename_i v
    split_ifs at h
    split at h
    · rename_i mantissa exponent hm he
      split_ifs at h with hb
      cases h
      refine ⟨?_, fun hn hzero => hb.2.2.1 ⟨hn, hzero⟩⟩
      simp [mantissaExponent, hm, he]
    · cases h
  · cases h

variable {channel : Json} {count : ℕ} {raw : ℤ} {c : MeasurementChannel}

theorem validateMeasurement_spec (h : validateMeasurement channel count = .ok ()) :
    ∃ c, MeasurementChannel.read channel = some c ∧ c.Valid := by
  unfold validateMeasurement at h
  simp only [bind_eq_ok_iff, requireSome_eq_ok_iff, require_eq_ok_iff, decide_eq_true_eq] at h
  obtain ⟨signed, -, rawMin, hi, rawMax, hm, _, hr, scale, hs, offset, ho, _, -, _, -, hd⟩ := h
  obtain ⟨hs, hn⟩ := decimal_spec hs
  obtain ⟨ho, -⟩ := decimal_spec ho
  refine ⟨⟨rawMin, rawMax, scale, offset⟩, ?_, ⟨hr.2.1, hn rfl, hd⟩⟩
  simp [MeasurementChannel.read, hi, hm, hs, ho]

theorem validateAlarm_spec {seen seen' : AlarmsSeen} {alarm : Json}
    (h : validateAlarm count seen alarm = .ok seen') :
    ∃ a, Alarm.read alarm = some a ∧ a.bit < 16 * count ∧ (a.bit : ℤ) ∉ seen.bits ∧
      a.id ∉ seen.ids ∧ seen' = { bits := a.bit :: seen.bits, ids := a.id :: seen.ids } := by
  unfold validateAlarm at h
  simp only [bind_eq_ok_iff, requireSome_eq_ok_iff, require_eq_ok_iff, decide_eq_true_eq,
    Bool.and_eq_true] at h
  obtain ⟨_, -, bit, hi, _, hb, _, -, id, hd, _, hu, _, hm, hsn⟩ := h
  obtain ⟨meaning, hm⟩ : ∃ m, strOf (alarm.get? "meaning") = some m := by
    unfold isPrintableText at hm
    split at hm
    · rename_i s hs
      exact ⟨s, by rw [hs]; rfl⟩
    · cases hm
  have hn : ((bit.toNat : ℕ) : ℤ) = bit := Int.toNat_of_nonneg hb.1
  refine ⟨⟨bit.toNat, isStr (alarm.get? "active") "set", id, meaning⟩, ?_, ?_, ?_, hu.2, ?_⟩
  · simp [Alarm.read, hi, hd, hm]
  · dsimp only
    omega
  · rw [hn]
    exact hb.2.2
  · rw [hn]
    exact (Except.ok.inj hsn).symm

theorem validateAlarmList_spec {alarms : List Json} :
    ∀ {seen seen' : AlarmsSeen}, validateAlarmList count seen alarms = .ok seen' →
      ∃ as, alarms.mapM Alarm.read = some as ∧ (as.map (·.bit)).Nodup ∧ (as.map (·.id)).Nodup ∧
        ∀ a ∈ as, a.bit < 16 * count ∧ (a.bit : ℤ) ∉ seen.bits ∧ a.id ∉ seen.ids := by
  induction alarms with
  | nil =>
    intro seen seen' _
    exact ⟨[], rfl, nodup_nil, nodup_nil, nofun⟩
  | cons alarm rest ih =>
    intro seen seen' h
    obtain ⟨next, hn, hr⟩ := bind_eq_ok_iff.mp h
    obtain ⟨a, ha, hb, hnewBit, hnewId, rfl⟩ := validateAlarm_spec hn
    obtain ⟨as, hs, hbits, hi, hl⟩ := ih hr
    refine ⟨a :: as, ?_, ?_, ?_, ?_⟩
    · rw [mapM_cons, ha, hs]
      rfl
    · rw [map_cons, nodup_cons]
      refine ⟨fun hm => ?_, hbits⟩
      obtain ⟨a', ha', heq⟩ := mem_map.mp hm
      exact (hl a' ha').2.1 (by rw [heq]; exact mem_cons_self)
    · rw [map_cons, nodup_cons]
      refine ⟨fun hm => ?_, hi⟩
      obtain ⟨a', ha', heq⟩ := mem_map.mp hm
      exact (hl a' ha').2.2 (by rw [heq]; exact mem_cons_self)
    · intro a' ha'
      obtain rfl | ha' := mem_cons.mp ha'
      · exact ⟨hb, hnewBit, hnewId⟩
      · obtain ⟨ht, hbits', hi'⟩ := hl a' ha'
        exact ⟨ht, fun hm => hbits' (mem_cons_of_mem _ hm), fun hm => hi' (mem_cons_of_mem _ hm)⟩

theorem validateAlarms_spec {count : ℤ} {ids ids' : List Text}
    (hc : intOf (channel.get? "register_count") = some count)
    (h : validateAlarms channel count.toNat ids = .ok ids') :
    ∃ c, AlarmChannel.read channel = some c ∧ c.Valid := by
  unfold validateAlarms at h
  split at h
  · rename_i alarm rest haa
    obtain ⟨seen, hn, -⟩ := bind_eq_ok_iff.mp h
    obtain ⟨as, hs, hbits, hi, hl⟩ := validateAlarmList_spec hn
    refine ⟨⟨16 * count.toNat, as⟩, ?_, ⟨hbits, hi, fun a ha => (hl a ha).1⟩⟩
    simp [AlarmChannel.read, hc, haa, hs]
  · cases h

/-- A channel of a document, read as its kind says. -/
def ReadsAsItsKind (channel : Json) : Prop :=
  (kindOf channel = some .measurement →
      ∃ c, MeasurementChannel.read channel = some c ∧ c.Valid) ∧
    (kindOf channel = some .alarmWord → ∃ c, AlarmChannel.read channel = some c ∧ c.Valid)

theorem validateChannel_spec {ids : List Text} {out : Text × List Text}
    (h : validateChannel channel ids = .ok out) : ReadsAsItsKind channel := by
  unfold validateChannel at h
  simp only [bind_eq_ok_iff, requireSome_eq_ok_iff, require_eq_ok_iff] at h
  obtain ⟨_, -, _, -, name, -, kind, hk, _, -, _, -, start, -, _, -, count, hc, _, -, _, -, _, -,
    _, -, hr⟩ := h
  constructor
  · intro hm
    rw [hk, some.injEq] at hm
    subst hm
    obtain ⟨_, hv, -⟩ := bind_eq_ok_iff.mp hr
    exact validateMeasurement_spec hv
  · intro ha
    rw [hk, some.injEq] at ha
    subst ha
    obtain ⟨ids', hv, -⟩ := bind_eq_ok_iff.mp hr
    exact validateAlarms_spec hc hv

theorem validateChannels_spec {channels : List Json} : ∀ {seen seen' : ChannelsSeen},
    (∀ c ∈ seen.channels, ReadsAsItsKind c.2) → validateChannels seen channels = .ok seen' →
      ∀ c ∈ seen'.channels, ReadsAsItsKind c.2 := by
  induction channels with
  | nil =>
    intro seen seen' hs h
    cases h
    exact hs
  | cons channel rest ih =>
    intro seen seen' hs h
    obtain ⟨⟨name, ids⟩, hh, hr⟩ := bind_eq_ok_iff.mp h
    obtain ⟨_, -, hr⟩ := bind_eq_ok_iff.mp hr
    refine ih ?_ hr
    intro c hc
    obtain hc | hc := mem_append.mp hc
    · exact hs c hc
    · obtain rfl := mem_singleton.mp hc
      exact validateChannel_spec hh

theorem validateProfileDocument_spec {document : Json} {channels : List (Text × Json)}
    (h : validateProfileDocument document = .ok channels) :
    ∀ c ∈ channels, ReadsAsItsKind c.2 := by
  unfold validateProfileDocument at h
  simp only [bind_eq_ok_iff] at h
  obtain ⟨_, -, _, -, _, -, _, -, _, -, poll, -, _, -, list, -, _, -, seen, hs, _, -, ho⟩ := h
  cases ho
  exact validateChannels_spec (fun c hc => absurd hc not_mem_nil) hs

/-! ### Measurements -/

theorem abs_le_ends {low high : ℤ} (hl : low ≤ raw) (hhigh : raw ≤ high) (s o : ℤ) :
    |raw * s + o| ≤ |low * s + o| ∨ |raw * s + o| ≤ |high * s + o| := by
  obtain hs | hs := le_total 0 s
  · have hf := add_le_add_left (mul_le_mul_of_nonneg_right hl hs) o
    have hr := add_le_add_left (mul_le_mul_of_nonneg_right hhigh hs) o
    exact le_max_iff.mp (abs_le_max_abs_abs hf hr)
  · have hf := add_le_add_left (mul_le_mul_of_nonpos_right hl hs) o
    have hr := add_le_add_left (mul_le_mul_of_nonpos_right hhigh hs) o
    exact (le_max_iff.mp (abs_le_max_abs_abs hr hf)).symm

/-- What the grammar checks of a count. -/
def DecodesWithin (c : MeasurementChannel) (raw : ℤ) : Prop :=
  |raw * c.terms.s| ≤ decodeTermMax ∧ |raw * c.terms.s + c.terms.o| ≤ decodeTermMax ∧
    |c.decode raw| ≤ decodedMax

theorem MeasurementChannel.Valid.ends (h : c.Valid) :
    DecodesWithin c c.rawMin ∧ DecodesWithin c c.rawMax := by
  have hw := h.within
  simp only [decodeWithinBounds, all_cons, all_nil, Bool.and_true, Bool.and_eq_true,
    decide_eq_true_eq] at hw
  obtain ⟨-, ⟨⟨hterm, ht⟩, hd⟩, ⟨hterm', ht'⟩, hd'⟩ := hw
  exact ⟨⟨hterm, ht, hd⟩, ⟨hterm', ht', hd'⟩⟩

theorem abs_decode_le {raw' : ℤ}
    (h : |raw * c.terms.s + c.terms.o| ≤ |raw' * c.terms.s + c.terms.o|)
    (hd : |c.decode raw'| ≤ decodedMax) : |c.decode raw| ≤ decodedMax := by
  refine le_trans ?_ hd
  unfold MeasurementChannel.decode
  rw [abs_mul, abs_mul, ← Int.cast_abs, ← Int.cast_abs]
  exact mul_le_mul_of_nonneg_right (by exact_mod_cast h) (abs_nonneg _)

theorem MeasurementChannel.Valid.within_range (h : c.Valid) (hl : c.rawMin ≤ raw)
    (hhigh : raw ≤ c.rawMax) : DecodesWithin c raw := by
  obtain ⟨⟨hterm, ht, hd⟩, ⟨hterm', ht', hd'⟩⟩ := h.ends
  refine ⟨?_, ?_, ?_⟩
  · have hends := abs_le_ends hl hhigh c.terms.s 0
    simp only [add_zero] at hends
    exact hends.elim (fun he => he.trans hterm) (fun he => he.trans hterm')
  · exact (abs_le_ends hl hhigh c.terms.s c.terms.o).elim (fun he => he.trans ht)
      (fun he => he.trans ht')
  · exact (abs_le_ends hl hhigh c.terms.s c.terms.o).elim (fun he => abs_decode_le he hd)
      (fun he => abs_decode_le he hd')

theorem MeasurementChannel.Valid.scale_ne_zero (h : c.Valid) : c.terms.s ≠ 0 :=
  mul_ne_zero h.scale (pow_ne_zero _ (by decide))

theorem unit_ne_zero (f : ℤ) : (10 : ℚ) ^ f ≠ 0 := zpow_ne_zero f (by norm_num)

theorem MeasurementChannel.Valid.decode_injective (h : c.Valid) : Function.Injective c.decode := by
  intro raw raw' heq
  have ht := mul_right_cancel₀ (unit_ne_zero _) heq
  have hterm : raw * c.terms.s = raw' * c.terms.s := by
    have hcast : raw * c.terms.s + c.terms.o = raw' * c.terms.s + c.terms.o := by exact_mod_cast ht
    omega
  exact mul_right_cancel₀ h.scale_ne_zero hterm

theorem roundHalfEven_intCast (n : ℤ) : roundHalfEven (n : ℚ) = n := by
  simp [roundHalfEven]

theorem MeasurementChannel.Valid.inRange_iff {value : Json} (h : c.Valid)
    (hrd : MeasurementChannel.read channel = some c) :
    measurementInRange id channel value = some true ↔
      ∃ raw, (c.rawMin ≤ raw ∧ raw ≤ c.rawMax) ∧ Telemetry.finiteNumber value = some (c.decode raw) := by
  unfold measurementInRange
  cases hv : Telemetry.finiteNumber value with
  | none => simp
  | some exact =>
    simp only [hrd, map_some, some.injEq, id_eq]
    constructor
    · intro htr
      split_ifs at htr with ht hs
      rw [not_not] at ht hs
      refine ⟨_, of_decide_eq_true htr, ?_⟩
      have hd := Int.mul_fdiv_add_fmod
        (roundHalfEven (exact / 10 ^ c.terms.f) - c.terms.o) c.terms.s
      rw [hs, add_zero, mul_comm] at hd
      rw [MeasurementChannel.decode, hd, sub_add_cancel]
      exact ht.symm
    · rintro ⟨raw, hr, he⟩
      have ho : roundHalfEven (exact / 10 ^ c.terms.f) = raw * c.terms.s + c.terms.o := by
        rw [he, MeasurementChannel.decode, mul_div_cancel_right₀ _ (unit_ne_zero _),
          roundHalfEven_intCast]
      rw [ho, add_sub_cancel_right, Int.mul_fdiv_cancel _ h.scale_ne_zero, Int.mul_fmod_left]
      rw [if_neg (by rw [not_not, he]; rfl), if_neg (by decide)]
      exact decide_eq_true hr

/-! ### Alarm words -/

/-- `ids` and `others` hold each alarm id of the channel once, and no other. -/
def Partitions (c : AlarmChannel) (ids others : List Text) : Prop :=
  (ids ++ others).Perm (c.alarms.map (·.id))

theorem interpretWord_partitions (c : AlarmChannel) (word : ℕ) :
    Partitions c (interpretWord c word).asserted (interpretWord c word).notAsserted := by
  unfold Partitions interpretWord
  rw [← map_append]
  exact (filter_append_perm _ c.alarms).map _

theorem mem_asserted_iff {c : AlarmChannel} (h : c.Valid) {a : Alarm} (ha : a ∈ c.alarms)
    (word : ℕ) : a.id ∈ (interpretWord c word).asserted ↔ a.asserted word = true := by
  simp only [interpretWord, List.mem_map, List.mem_filter]
  constructor
  · rintro ⟨a', ⟨ha', hs⟩, hi⟩
    rwa [← List.inj_on_of_nodup_map h.ids ha' ha hi]
  · intro hs
    exact ⟨a, ⟨ha, hs⟩, rfl⟩

theorem mem_unmapped_iff {c : AlarmChannel} {bit word : ℕ} (hb : bit < c.width)
    (hu : bit ∉ c.alarms.map (·.bit)) :
    bit ∈ (interpretWord c word).unmappedSetBits ↔ word.testBit bit = true := by
  simp only [interpretWord, mem_filter, mem_range, hb, true_and, Bool.and_eq_true,
    Bool.not_eq_true', contains_eq_mem, decide_eq_false_iff_not, hu, not_false_eq_true,
    and_true]

theorem word_determined {c : AlarmChannel} (h : c.Valid) {word word' : ℕ} (hword : word < 2 ^ c.width)
    (hword' : word' < 2 ^ c.width)
    (has : ∀ id, id ∈ (interpretWord c word).asserted ↔ id ∈ (interpretWord c word').asserted)
    (hu : ∀ bit, bit ∈ (interpretWord c word).unmappedSetBits ↔
      bit ∈ (interpretWord c word').unmappedSetBits) : word = word' := by
  apply Nat.eq_of_testBit_eq
  intro bit
  by_cases hb : bit < c.width
  · by_cases hm : bit ∈ c.alarms.map (·.bit)
    · obtain ⟨a, ha, rfl⟩ := mem_map.mp hm
      have hsm := has a.id
      rw [mem_asserted_iff h ha, mem_asserted_iff h ha, Bool.coe_iff_coe] at hsm
      unfold Alarm.asserted at hsm
      cases hs : a.activeSet <;> simpa [hs] using hsm
    · have hsm := hu bit
      rwa [mem_unmapped_iff hb hm, mem_unmapped_iff hb hm, Bool.coe_iff_coe] at hsm
  · have hhigh := Nat.pow_le_pow_right (by decide : 0 < 2) (not_lt.mp hb)
    rw [Nat.testBit_lt_two_pow (hword.trans_le hhigh), Nat.testBit_lt_two_pow (hword'.trans_le hhigh)]

def ReadsWords (channel : Json) (c : AlarmChannel) : Prop :=
  (∀ value word, wordOf value = some word → 0 ≤ word → word < 2 ^ c.width →
      ∃ i, interpretAlarmWord channel value = some (some i) ∧ (i.word : ℤ) = word ∧
        Partitions c i.asserted i.notAsserted) ∧
    ∀ value value' i i', interpretAlarmWord channel value = some (some i) →
      interpretAlarmWord channel value' = some (some i') →
      (∀ id, id ∈ i.asserted ↔ id ∈ i'.asserted) →
      (∀ bit, bit ∈ i.unmappedSetBits ↔ bit ∈ i'.unmappedSetBits) → i.word = i'.word

theorem interpretAlarmWord_spec {value : Json} {c : AlarmChannel} {i : AlarmInterpretation}
    (hd : AlarmChannel.read channel = some c)
    (h : interpretAlarmWord channel value = some (some i)) :
    ∃ word, word < 2 ^ c.width ∧ i = interpretWord c word := by
  unfold interpretAlarmWord at h
  split at h
  · cases some.inj h
  rename_i word hword
  rw [hd, map_some, some.injEq] at h
  split_ifs at h with hr
  refine ⟨word.toNat, ?_, (some.inj h).symm⟩
  have hcast : ((2 ^ c.width : ℕ) : ℤ) = 2 ^ c.width := by push_cast; rfl
  omega

theorem AlarmChannel.Valid.readsWords {c : AlarmChannel} (h : c.Valid)
    (hr : AlarmChannel.read channel = some c) : ReadsWords channel c := by
  constructor
  · intro value word hword hl hhigh
    refine ⟨interpretWord c word.toNat, ?_, Int.toNat_of_nonneg hl, interpretWord_partitions _ _⟩
    rw [interpretAlarmWord, hword]
    dsimp only
    rw [hr, map_some, if_pos ⟨hl, hhigh⟩]
  · intro value value' i i' hi hi' ha hu
    obtain ⟨word, hword, rfl⟩ := interpretAlarmWord_spec hr hi
    obtain ⟨word', hword', rfl⟩ := interpretAlarmWord_spec hr hi'
    exact word_determined h hword hword' ha hu

/-- Every channel of an accepted document decodes within bounds and is read back: a measurement from
one count only, an alarm word from its alarm ids and the bits left over. -/
theorem profile_reads {document : Json} {channels : List (Text × Json)}
    (h : validateProfileDocument document = .ok channels) {name : Text} {channel : Json}
    (hmem : (name, channel) ∈ channels) :
    (kindOf channel = some .measurement → ∃ c, MeasurementChannel.read channel = some c ∧
      (∀ raw, c.rawMin ≤ raw → raw ≤ c.rawMax → DecodesWithin c raw) ∧
      (∀ value, measurementInRange id channel value = some true ↔
        ∃ raw, (c.rawMin ≤ raw ∧ raw ≤ c.rawMax) ∧
          Telemetry.finiteNumber value = some (c.decode raw)) ∧
      Function.Injective c.decode) ∧
    (kindOf channel = some .alarmWord → ∃ c, AlarmChannel.read channel = some c ∧
      ReadsWords channel c) := by
  obtain ⟨hmeasurement, halarm⟩ := validateProfileDocument_spec h _ hmem
  constructor
  · intro hkind
    obtain ⟨c, hread, hvalid⟩ := hmeasurement hkind
    exact ⟨c, hread, fun raw hlow hhigh => hvalid.within_range hlow hhigh,
      fun value => hvalid.inRange_iff hread, hvalid.decode_injective⟩
  · intro hkind
    obtain ⟨c, hread, hvalid⟩ := halarm hkind
    exact ⟨c, hread, hvalid.readsWords hread⟩

/-- A thermometer of tenths of a degree that counts down, offset by a hundredth. -/
def benchDocument : Json :=
  .obj [("v", .int 1), ("id", .str (text "chiller-7")), ("source", .str (text "manual, p. 12")),
    ("baud_rate", .int 9600), ("poll_interval_ms", .int 1000),
    ("channels", .list [.obj [("name", .str (text "outlet")), ("kind", .str (text "measurement")),
      ("function", .str (text "read_input_registers")), ("start_register", .int 4),
      ("register_count", .int 1), ("word_order", .null), ("raw_signed", .bool true),
      ("raw_min", .int (-400)), ("raw_max", .int 1250),
      ("scale", .obj [("mantissa", .int (-1)), ("exponent", .int (-1))]),
      ("offset", .obj [("mantissa", .int 5), ("exponent", .int (-2))]),
      ("sensor_type", .str (text "temperature")), ("unit", .str (text "celsius"))]])]

theorem profile_reads_bench : ∃ channels name channel c,
    validateProfileDocument benchDocument = .ok channels ∧ (name, channel) ∈ channels ∧
      MeasurementChannel.read channel = some c ∧
      ∀ raw, c.rawMin ≤ raw → raw ≤ c.rawMax → DecodesWithin c raw := by
  have hany : (validateProfileDocument benchDocument).toOption.any (fun channels =>
      channels.any (fun c => decide (kindOf c.2 = some .measurement))) = true := by decide +kernel
  cases hvalid : validateProfileDocument benchDocument with
  | error rule =>
    rw [hvalid] at hany
    cases hany
  | ok channels =>
    rw [hvalid] at hany
    obtain ⟨⟨name, channel⟩, hmem, hkind⟩ := any_eq_true.mp hany
    obtain ⟨c, hread, hwithin, -⟩ := (profile_reads hvalid hmem).1 (of_decide_eq_true hkind)
    exact ⟨channels, name, channel, c, rfl, hmem, hread, hwithin⟩

end ControllerProfile

end OriRuntime
