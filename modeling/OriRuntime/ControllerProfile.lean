import OriRuntime.FirmwareTelemetry

/-!
# Controller profile documents

The grammar of `ori/security/firmware/controller_profiles.py` (`validate_profile_document`), and the
two readings of a value through a channel it accepts: `measurement_in_range` and
`interpret_alarm_word`. A document is a value its JSON was read into, and a refusal is held by the
rule it names. `float` rounds a rational to the double nearest it.
-/

namespace OriRuntime

namespace ControllerProfile

open Telemetry (keys isDict hasExactly fleetTokenChars finiteNumber)

/-! ### Constants -/

def topFields : List String := ["v", "id", "source", "baud_rate", "poll_interval_ms", "channels"]

def commonFields : List String :=
  ["name", "kind", "function", "start_register", "register_count", "word_order"]

def measurementFields : List String :=
  commonFields ++ ["raw_signed", "raw_min", "raw_max", "scale", "offset", "sensor_type", "unit"]

def alarmWordFields : List String := commonFields ++ ["alarms"]

def alarmFields : List String := ["bit", "active", "id", "meaning"]

def decimalFields : List String := ["mantissa", "exponent"]

def baudRates : List ℤ := [1200, 2400, 4800, 9600, 19200, 38400, 57600, 115200]

def functions : List String := ["read_holding_registers", "read_input_registers"]

def pollMinMs : ℤ := 100

def pollMaxMs : ℤ := 3600000

def alarmPollMaxMs : ℤ := 1190000

def maxChannels : ℕ := 16

def textMaxLen : ℕ := 256

def mantissaMax : ℤ := 2147483647

def exponentMin : ℤ := -4

def exponentMax : ℤ := 6

def decodeTermMax : ℤ := 999999999999999

def decodedMax : ℚ := 10 ^ 15

def alarmWordSensorType : String := "controller_alarm_word"

def alarmWordUnit : String := "bitmask"

/-! ### Values -/

def intOf : Option Json → Option ℤ
  | some (.int n) => some n
  | _ => none

def strOf : Option Json → Option Text
  | some (.str s) => some s
  | _ => none

def isFleetIdentifier (value : Option Json) : Bool :=
  match value with
  | some (.str s) =>
    decide (1 ≤ s.length ∧ s.length ≤ 48) &&
      s.all (fun c => fleetTokenChars.any (fun f => decide (f = c)))
  | _ => false

def isPrintableText (value : Option Json) : Bool :=
  match value with
  | some (.str s) =>
    decide (1 ≤ s.length ∧ s.length ≤ textMaxLen) &&
      s.all (fun c => decide (32 ≤ c.val ∧ c.val ≤ 126))
  | _ => false

def isStr (value : Option Json) (s : String) : Bool := decide (strOf value = some (text s))

def isIntWith (value : Option Json) (p : ℤ → Bool) : Bool := (intOf value).any p

/-- A document that breaks the grammar, by the rule it breaks. -/
abbrev Ruled := Except String

def require (ok : Bool) (rule : String) : Ruled Unit := if ok then .ok () else .error rule

def requireSome {α : Type} (value : Option α) (rule : String) : Ruled α :=
  match value with
  | some v => .ok v
  | none => .error rule

/-! ### Measurements -/

/-- `_decimal`: the mantissa and the exponent. -/
def decimal (value : Option Json) (nonzero : Bool) : Option (ℤ × ℤ) :=
  match value with
  | some v =>
    if hasExactly v decimalFields = true ∧ isDict v = true then
      match intOf (v.get? "mantissa"), intOf (v.get? "exponent") with
      | some mantissa, some exponent =>
        if -mantissaMax ≤ mantissa ∧ mantissa ≤ mantissaMax ∧ ¬ (nonzero = true ∧ mantissa = 0) ∧
            exponentMin ≤ exponent ∧ exponent ≤ exponentMax then
          some (mantissa, exponent)
        else none
      | _, _ => none
    else none
  | none => none

structure DecodeTerms where
  s : ℤ
  o : ℤ
  f : ℤ
  deriving DecidableEq

/-- `_decode_terms`: scale and offset as integers over `10 ^ f`, `f` the smaller exponent. -/
def decodeTerms (scale offset : ℤ × ℤ) : DecodeTerms :=
  let f := min scale.2 offset.2
  { s := scale.1 * 10 ^ (scale.2 - f).toNat, o := offset.1 * 10 ^ (offset.2 - f).toNat, f := f }

def decodeWithinBounds (rawMin rawMax : ℤ) (scale offset : ℤ × ℤ) : Bool :=
  let t := decodeTerms scale offset
  decide (|t.s| ≤ decodeTermMax) && decide (|t.o| ≤ decodeTermMax) &&
    [rawMin, rawMax].all fun raw =>
      decide (|raw * t.s| ≤ decodeTermMax) && decide (|raw * t.s + t.o| ≤ decodeTermMax) &&
        decide (|((raw * t.s + t.o : ℤ) : ℚ) * 10 ^ t.f| ≤ decodedMax)

/-- The counts `bits` register bits hold. -/
def rawBounds (signed : Bool) (bits : ℕ) : ℤ × ℤ :=
  if signed then (-(2 ^ (bits - 1)), 2 ^ (bits - 1) - 1) else (0, 2 ^ bits - 1)

def boolOf : Option Json → Option Bool
  | some (.bool b) => some b
  | _ => none

def isMeasurementIdentifier (value : Option Json) : Bool :=
  isFleetIdentifier value && !isStr value alarmWordSensorType && !isStr value alarmWordUnit

def validateMeasurement (channel : Json) (count : ℕ) : Ruled Unit := do
  let signed ← requireSome (boolOf (channel.get? "raw_signed")) "raw_signed"
  let (low, high) := rawBounds signed (16 * count)
  let rawMin ← requireSome (intOf (channel.get? "raw_min")) "raw_range"
  let rawMax ← requireSome (intOf (channel.get? "raw_max")) "raw_range"
  require (decide (low ≤ rawMin ∧ rawMin ≤ rawMax ∧ rawMax ≤ high)) "raw_range"
  let scale ← requireSome (decimal (channel.get? "scale") true) "scale"
  let offset ← requireSome (decimal (channel.get? "offset") false) "offset"
  require (isMeasurementIdentifier (channel.get? "sensor_type")) "sensor_type"
  require (isMeasurementIdentifier (channel.get? "unit")) "unit"
  require (decodeWithinBounds rawMin rawMax scale offset) "decode"

/-! ### Alarms -/

/-- The bits of one channel and the alarm ids of the profile met so far. -/
structure AlarmsSeen where
  bits : List ℤ
  ids : List Text
  deriving DecidableEq

def validateAlarm (count : ℕ) (seen : AlarmsSeen) (alarm : Json) : Ruled AlarmsSeen := do
  require (isDict alarm && hasExactly alarm alarmFields) "alarm_fields"
  let bit ← requireSome (intOf (alarm.get? "bit")) "alarm_bit"
  require (decide (0 ≤ bit ∧ bit < 16 * count ∧ bit ∉ seen.bits)) "alarm_bit"
  require (isStr (alarm.get? "active") "set" || isStr (alarm.get? "active") "clear") "alarm_active"
  let id ← requireSome (strOf (alarm.get? "id")) "alarm_id"
  require (isFleetIdentifier (alarm.get? "id") && decide (id ∉ seen.ids)) "alarm_id"
  require (isPrintableText (alarm.get? "meaning")) "alarm_meaning"
  return { bits := bit :: seen.bits, ids := id :: seen.ids }

def validateAlarmList (count : ℕ) : AlarmsSeen → List Json → Ruled AlarmsSeen
  | seen, [] => .ok seen
  | seen, alarm :: rest => do
    let seen ← validateAlarm count seen alarm
    validateAlarmList count seen rest

/-- `_validate_alarms`: the alarm ids of the profile with those of the channel. -/
def validateAlarms (channel : Json) (count : ℕ) (ids : List Text) : Ruled (List Text) :=
  match channel.get? "alarms" with
  | some (.list (alarm :: rest)) => do
    let seen ← validateAlarmList count { bits := [], ids := ids } (alarm :: rest)
    return seen.ids
  | _ => .error "alarms"

/-! ### Channels and documents -/

inductive Kind where
  | measurement
  | alarmWord
  deriving DecidableEq

def kindOf (channel : Json) : Option Kind :=
  if isStr (channel.get? "kind") "measurement" then some .measurement
  else if isStr (channel.get? "kind") "alarm_word" then some .alarmWord
  else none

def fieldsOf : Kind → List String
  | .measurement => measurementFields
  | .alarmWord => alarmWordFields

def isNull : Option Json → Bool
  | some .null => true
  | _ => false

/-- `_validate_channel`: the channel's name, and the alarm ids of the profile so far. -/
def validateChannel (channel : Json) (ids : List Text) : Ruled (Text × List Text) := do
  require (isDict channel) "channel_fields"
  require (isFleetIdentifier (channel.get? "name")) "channel_name"
  let name ← requireSome (strOf (channel.get? "name")) "channel_name"
  let kind ← requireSome (kindOf channel) "kind"
  require (hasExactly channel (fieldsOf kind)) "channel_fields"
  require (functions.any (isStr (channel.get? "function"))) "function"
  let start ← requireSome (intOf (channel.get? "start_register")) "start_register"
  require (decide (0 ≤ start ∧ start ≤ 65535)) "start_register"
  let count ← requireSome (intOf (channel.get? "register_count")) "register_count"
  require (decide (count = 1 ∨ count = 2)) "register_count"
  require (decide (start + count ≤ 65536)) "register_span"
  let order := channel.get? "word_order"
  require (decide (count ≠ 1) || isNull order) "word_order"
  require (decide (count ≠ 2) || isStr order "high_first" || isStr order "low_first") "word_order"
  match kind with
  | .measurement => do
    validateMeasurement channel count.toNat
    return (name, ids)
  | .alarmWord => do
    let ids ← validateAlarms channel count.toNat ids
    return (name, ids)

/-- The channels accepted so far, by name, and the alarm ids of the profile. -/
structure ChannelsSeen where
  channels : List (Text × Json)
  ids : List Text

def validateChannels : ChannelsSeen → List Json → Ruled ChannelsSeen
  | seen, [] => .ok seen
  | seen, channel :: rest => do
    let (name, ids) ← validateChannel channel seen.ids
    require (decide (name ∉ seen.channels.map (·.1))) "channel_name"
    validateChannels { channels := seen.channels ++ [(name, channel)], ids := ids } rest

def channelList (document : Json) : Option (List Json) :=
  match document.get? "channels" with
  | some (.list channels) => some channels
  | _ => none

def validateProfileDocument (document : Json) : Ruled (List (Text × Json)) := do
  require (isDict document && hasExactly document topFields) "top_fields"
  require (isIntWith (document.get? "v") (fun n => decide (n = 1))) "version"
  require (isFleetIdentifier (document.get? "id")) "id"
  require (isPrintableText (document.get? "source")) "source"
  require (isIntWith (document.get? "baud_rate") (fun n => decide (n ∈ baudRates))) "baud_rate"
  let poll ← requireSome (intOf (document.get? "poll_interval_ms")) "poll_interval_ms"
  require (decide (pollMinMs ≤ poll ∧ poll ≤ pollMaxMs)) "poll_interval_ms"
  let channels ← requireSome (channelList document) "channels"
  require (decide (1 ≤ channels.length ∧ channels.length ≤ maxChannels)) "channels"
  let seen ← validateChannels { channels := [], ids := [] } channels
  require (!(seen.channels.any (fun c => decide (kindOf c.2 = some .alarmWord)) &&
    decide (alarmPollMaxMs < poll))) "poll_interval_ms"
  return seen.channels

/-! ### Readings -/

/-- What `measurement_in_range` reads of a channel. -/
structure MeasurementChannel where
  rawMin : ℤ
  rawMax : ℤ
  scale : ℤ × ℤ
  offset : ℤ × ℤ
  deriving DecidableEq

def mantissaExponent (value : Option Json) : Option (ℤ × ℤ) := do
  let mantissa ← intOf (value.bind (·.get? "mantissa"))
  let exponent ← intOf (value.bind (·.get? "exponent"))
  return (mantissa, exponent)

/-- Nothing where the source would raise `KeyError`. -/
def MeasurementChannel.read (channel : Json) : Option MeasurementChannel := do
  let rawMin ← intOf (channel.get? "raw_min")
  let rawMax ← intOf (channel.get? "raw_max")
  let scale ← mantissaExponent (channel.get? "scale")
  let offset ← mantissaExponent (channel.get? "offset")
  return { rawMin := rawMin, rawMax := rawMax, scale := scale, offset := offset }

def MeasurementChannel.terms (c : MeasurementChannel) : DecodeTerms := decodeTerms c.scale c.offset

def MeasurementChannel.decode (c : MeasurementChannel) (raw : ℤ) : ℚ :=
  ((raw * c.terms.s + c.terms.o : ℤ) : ℚ) * 10 ^ c.terms.f

/-- `round` of a `Fraction`: to the nearest integer, a half to the even one. -/
def roundHalfEven (q : ℚ) : ℤ :=
  let floor := ⌊q⌋
  let rest := q - floor
  if rest < 1 / 2 then floor
  else if 1 / 2 < rest then floor + 1
  else if floor % 2 = 0 then floor
  else floor + 1

/-- Nothing where the channel is no measurement. -/
def measurementInRange {φ : Type} [DecidableEq φ] (float : ℚ → φ) (channel value : Json) :
    Option Bool :=
  match finiteNumber value with
  | none => some false
  | some exact =>
    (MeasurementChannel.read channel).map fun c =>
    let unit : ℚ := 10 ^ c.terms.f
    let total := roundHalfEven (exact / unit)
    if float (total * unit) ≠ float exact then false
    else if (total - c.terms.o).fmod c.terms.s ≠ 0 then false
    else
      let raw := (total - c.terms.o).fdiv c.terms.s
      decide (c.rawMin ≤ raw ∧ raw ≤ c.rawMax)

structure Alarm where
  bit : ℕ
  activeSet : Bool
  id : Text
  meaning : Text
  deriving DecidableEq

def Alarm.read (alarm : Json) : Option Alarm := do
  let bit ← intOf (alarm.get? "bit")
  let id ← strOf (alarm.get? "id")
  let meaning ← strOf (alarm.get? "meaning")
  return { bit := bit.toNat, activeSet := isStr (alarm.get? "active") "set", id := id
           meaning := meaning }

structure AlarmChannel where
  width : ℕ
  alarms : List Alarm
  deriving DecidableEq

def AlarmChannel.read (channel : Json) : Option AlarmChannel := do
  let count ← intOf (channel.get? "register_count")
  match channel.get? "alarms" with
  | some (.list alarms) =>
    let alarms ← alarms.mapM Alarm.read
    return { width := 16 * count.toNat, alarms := alarms }
  | _ => none

structure AlarmInterpretation where
  word : ℕ
  asserted : List Text
  notAsserted : List Text
  unmappedSetBits : List ℕ
  meanings : List (Text × Text)
  deriving DecidableEq

def Alarm.asserted (word : ℕ) (a : Alarm) : Bool := word.testBit a.bit == a.activeSet

def interpretWord (c : AlarmChannel) (word : ℕ) : AlarmInterpretation where
  word := word
  asserted := (c.alarms.filter (Alarm.asserted word)).map (·.id)
  notAsserted := (c.alarms.filter (fun a => !a.asserted word)).map (·.id)
  unmappedSetBits := (List.range c.width).filter (fun bit =>
    word.testBit bit && !(c.alarms.map (·.bit)).contains bit)
  meanings := c.alarms.map fun a => (a.id, a.meaning)

/-- The value read by value: an integer, however it is written. -/
def wordOf (value : Json) : Option ℤ :=
  (finiteNumber value).bind fun q => if q.den = 1 then some q.num else none

/-- Nothing where the channel is no alarm word; then nothing where the value is none of its words. -/
def interpretAlarmWord (channel value : Json) : Option (Option AlarmInterpretation) :=
  match wordOf value with
  | none => some none
  | some word =>
    (AlarmChannel.read channel).map fun c =>
    if 0 ≤ word ∧ word < 2 ^ c.width then some (interpretWord c word.toNat) else none

end ControllerProfile

end OriRuntime
