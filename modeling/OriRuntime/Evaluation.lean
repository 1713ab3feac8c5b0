import Mathlib.Tactic

/-!
# One reading against one active profile

`ori/safety/evaluation.py`. Readings arrive as untyped values, so the decision starts from the
dynamic values a driver can hand over. The comparison with the trip point is decided before the
range test: a sensor saturating on the hazard side still trips.
-/

namespace OriRuntime

/-- A float by its exact value. Finite floats are rationals and compare exactly with integers of
any size. -/
inductive PyFloat where
  | finite (q : ℚ)
  | posInf
  | negInf
  | nan
  deriving DecidableEq

namespace PyFloat

def lt : PyFloat → PyFloat → Bool
  | finite a, finite b => decide (a < b)
  | finite _, posInf => true
  | negInf, finite _ => true
  | negInf, posInf => true
  | _, _ => false

def le : PyFloat → PyFloat → Bool
  | finite a, finite b => decide (a ≤ b)
  | finite _, posInf => true
  | negInf, finite _ => true
  | negInf, posInf => true
  | posInf, posInf => true
  | negInf, negInf => true
  | _, _ => false

def isFinite : PyFloat → Bool
  | finite _ => true
  | _ => false

end PyFloat

/-- A value of unknown type, as far as the checks below tell types apart. -/
inductive PyValue where
  | none
  | bool (b : Bool)
  | int (n : ℤ)
  | float (f : PyFloat)
  | str (s : String)
  | other
  deriving DecidableEq

/-- The numeric value of an int or a float; a boolean is not a number here. -/
def PyValue.number? : PyValue → Option PyFloat
  | .int n => some (.finite n)
  | .float f => some f
  | _ => Option.none

inductive Verdict where
  | trip
  | noTrip
  | rejectedInput
  | unknown (name : String)
  deriving DecidableEq, Repr

inductive Reason where
  | boolean
  | nonNumeric
  | nonFinite
  | unitMismatch
  | zeroQuality
  | outOfRange
  | unknown (name : String)
  deriving DecidableEq, Repr

/-- The closed rejection vocabulary, in its decided order. -/
def reasonOrder : List Reason :=
  [.boolean, .nonNumeric, .nonFinite, .unitMismatch, .zeroQuality, .outOfRange]

structure EvaluationVerdict where
  verdict : Verdict
  reason : Option Reason := none
  deriving DecidableEq, Repr

def rejected (reason : Reason) : EvaluationVerdict := ⟨.rejectedInput, some reason⟩

def evaluateReading (value unit quality : PyValue) (expectedUnit : String)
    (tripPoint rangeMin rangeMax : PyFloat) : EvaluationVerdict :=
  match value with
  | .bool _ => rejected .boolean
  | .int _ | .float _ =>
    match value.number? with
    | none => rejected .nonNumeric
    | some v =>
      if v.isFinite = false then rejected .nonFinite
      else if unit ≠ .str expectedUnit then rejected .unitMismatch
      else if quality.number?.all (fun q => !(PyFloat.finite 0).lt q) then rejected .zeroQuality
      else if tripPoint.lt v then ⟨.trip, none⟩
      else if rangeMin.le v && v.le rangeMax then ⟨.noTrip, none⟩
      else rejected .outOfRange
  | _ => rejected .nonNumeric

/-- A verdict the trip machine accepts: a trip or a clear with no reason, or a rejection for a
reason of the closed vocabulary. -/
def EvaluationVerdict.InVocabulary (v : EvaluationVerdict) : Prop :=
  v = ⟨.trip, none⟩ ∨ v = ⟨.noTrip, none⟩ ∨ ∃ r ∈ reasonOrder, v = rejected r

theorem rejected_inVocabulary {r : Reason} (h : r ∈ reasonOrder) : (rejected r).InVocabulary :=
  .inr (.inr ⟨r, h, rfl⟩)

theorem evaluateReading_inVocabulary (value unit quality : PyValue) (expectedUnit : String)
    (tripPoint rangeMin rangeMax : PyFloat) :
    (evaluateReading value unit quality expectedUnit tripPoint rangeMin rangeMax).InVocabulary := by
  have hc : ∀ v : PyFloat, EvaluationVerdict.InVocabulary
      (if v.isFinite = false then rejected .nonFinite
      else if unit ≠ .str expectedUnit then rejected .unitMismatch
      else if quality.number?.all (fun q => !(PyFloat.finite 0).lt q) then rejected .zeroQuality
      else if tripPoint.lt v then ⟨.trip, none⟩
      else if rangeMin.le v && v.le rangeMax then ⟨.noTrip, none⟩
      else rejected .outOfRange) := by
    intro v
    split_ifs
    · exact rejected_inVocabulary (by decide)
    · exact rejected_inVocabulary (by decide)
    · exact rejected_inVocabulary (by decide)
    · exact .inl rfl
    · exact .inr (.inl rfl)
    · exact rejected_inVocabulary (by decide)
  cases value with
  | none | bool b => exact rejected_inVocabulary (by decide)
  | int n => exact hc (.finite n)
  | float f => exact hc f
  | str s | other => exact rejected_inVocabulary (by decide)

end OriRuntime
