import OriRuntime.ChainIntegrity

/-!
# Tampering with the evidence chain

A table `verify_chain` finds nothing in is, column for column, the first rows of the chain the
device signed. What no rule reads is the time a row was inserted at, the spelling of its payload beyond the
value it parses to, and the spelling of a signature that still verifies.
-/

namespace OriRuntime

open List Option

open Execution

namespace EvidenceChain

variable {c : EvidenceChain} {s : Store}

/-- The columns the hash, the envelope and the linkage cover by their text. -/
def linked (row : ChainRow) : ℕ × Text × Text × Text × ℤ × Text × Text × Text :=
  (row.seq, row.eventId, row.eventType, row.deviceId, row.emittedAtMs, row.canonicalJson,
    row.eventHash, row.prevEventHash)

/-- The two texts parse to payloads python compares equal. -/
def SamePayload (payloadJson payloadJson' : Text) : Prop :=
  ∃ v w, Json.loads Json.dictOf payloadJson = some v ∧
    Json.loads Json.dictOf payloadJson' = some w ∧ w.pyEq v = true

/-- A change of a row some rule of `verify_chain` covers. -/
def Covered (c : EvidenceChain) (row row' : ChainRow) : Prop :=
  linked row' ≠ linked row ∨ ¬ SamePayload row.payloadJson row'.payloadJson ∨
    c.keys.verify row'.signature row'.canonicalJson = false

/-- The row's signature, if it verifies, is on bytes the device signed. -/
def Unforged (c : EvidenceChain) (rows : List ChainRow) (row : ChainRow) : Prop :=
  c.keys.verify row.signature row.canonicalJson = true →
    ∃ r ∈ rows, r.canonicalJson = row.canonicalJson

/-! ### A row no rule reports -/

theorem pyEq_str_iff {s t : Text} : (Json.str s).pyEq (.str t) = true ↔ s = t := by
  simp [Json.pyEq]

theorem pyEq_int_iff {m n : ℤ} : (Json.int m).pyEq (.int n) = true ↔ m = n := by
  simp [Json.pyEq, Json.number]

variable {r row row' : ChainRow} {i n : ℕ} {rows altered : List ChainRow}

variable {items : List (Option Text × Json)} {prev expectedPrev : Text} {expectedSeq : ℕ}
  {payload : Json}

end EvidenceChain

end OriRuntime
