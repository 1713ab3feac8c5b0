import Mathlib.Tactic

/-!
# Dispatch tiers and resource identities

What an action drives and what it does to it, as `ori/reasoning/dispatch_plan.py` and
`ori/reasoning/action_registry.py` state them. Contention is decided on the resource key alone;
the desired outcome then decides whether two acts coalesce or oppose.
-/

namespace OriRuntime

/-- Rank a tier for comparison, in either letter case. Unknown tiers rank 0. -/
def tierRank (tier : String) : ℕ :=
  if tier = "A" ∨ tier = "a" then 1
  else if tier = "B" ∨ tier = "b" then 2
  else if tier = "C" ∨ tier = "c" then 3
  else if tier = "D" ∨ tier = "d" then 4
  else 0

def openProtectedCircuit : String := "open_protected_circuit"

def closeProtectedCircuit : String := "close_protected_circuit"

structure ResourceIdentity where
  resourceKey : List String
  desiredOutcome : String
  joinParameters : List (String × String) := []
  deriving DecidableEq, Repr

def ResourceIdentity.joinKey (i : ResourceIdentity) :
    List String × String × List (String × String) :=
  (i.resourceKey, i.desiredOutcome, i.joinParameters)

theorem ResourceIdentity.joinKey_injective {i j : ResourceIdentity} (h : i.joinKey = j.joinKey) :
    i = j := by
  obtain ⟨k, o, p⟩ := i
  obtain ⟨k', o', p'⟩ := j
  simpa only [joinKey, Prod.mk.injEq, ResourceIdentity.mk.injEq] using h

/-- Whether two admitted identities are opposite acts on one resource. -/
def opposes (left right : ResourceIdentity) : Bool :=
  if left.resourceKey ≠ right.resourceKey then false
  else
    let opposed := [openProtectedCircuit, closeProtectedCircuit]
    decide (left.desiredOutcome ≠ right.desiredOutcome ∧ left.desiredOutcome ∈ opposed ∧
      right.desiredOutcome ∈ opposed)

theorem opposes_resourceKey {i j : ResourceIdentity} (h : opposes i j = true) :
    i.resourceKey = j.resourceKey := by
  by_contra hn
  simp [opposes, hn] at h

@[simp] theorem opposes_self (i : ResourceIdentity) : opposes i i = false := by
  simp [opposes]

end OriRuntime
