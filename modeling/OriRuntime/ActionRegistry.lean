import OriRuntime.ResourceIdentity
import Mathlib

/-!
# The runtime-owned action registry

`ori/reasoning/action_registry.py`: the lowest tier each executable action may be dispatched at,
whether it is physical, and whether it may stand as a safe default. A skill's declaration is
untrusted, so the registry is applied wherever a tier is decided. An action with no entry is
ungoverned.
-/

namespace OriRuntime

open List Option

/-! ### Tier letters -/

/-- Upper case. No character outside ASCII has a tier letter for its upper case. -/
def upper (s : String) : String := String.ofList (s.toList.map Char.toUpper)

theorem toUpper_eq_iff {c k : Char} (hk : 'A'.val ≤ k.val ∧ k.val ≤ 'Z'.val) :
    c.toUpper = k ↔ c = k ∨ c = k.toLower := by
  have hA : 'A'.val.toNat = 65 := rfl
  have hZ : 'Z'.val.toNat = 90 := rfl
  have ha : 'a'.val.toNat = 97 := rfl
  have hz : 'z'.val.toNat = 122 := rfl
  have hdown : ('A'.val - 'a'.val).toNat = 4294967264 := rfl
  have hu : ('a'.val - 'A'.val).toNat = 32 := rfl
  simp only [Char.toUpper, Char.toLower, UInt32.le_iff_toNat_le, ha, hz] at hk ⊢
  by_cases h : 97 ≤ c.val.toNat ∧ c.val.toNat ≤ 122
  · simp only [dif_pos h, dif_pos hk, Char.ext_iff, ← UInt32.toNat_inj, UInt32.toNat_add, hdown, hu]
    omega
  · simp only [dif_neg h, dif_pos hk, Char.ext_iff, ← UInt32.toNat_inj, UInt32.toNat_add, hu]
    omega

variable {s tier floor action : String}

theorem upper_eq_iff {k : Char} (hk : 'A'.val ≤ k.val ∧ k.val ≤ 'Z'.val) :
    upper s = String.singleton k ↔ s = String.singleton k ∨ s = String.singleton k.toLower := by
  simp only [upper, ← String.toList_inj, String.toList_ofList, String.toList_singleton,
    map_eq_singleton_iff]
  constructor
  · rintro ⟨c, hs, hc⟩
    rw [hs]
    obtain rfl | rfl := (toUpper_eq_iff hk).mp hc
    · exact .inl rfl
    · exact .inr rfl
  · rintro (hs | hs)
    · exact ⟨k, hs, (toUpper_eq_iff hk).mpr (.inl rfl)⟩
    · exact ⟨_, hs, (toUpper_eq_iff hk).mpr (.inr rfl)⟩

theorem upper_eq_A : upper s = "A" ↔ s = "A" ∨ s = "a" := upper_eq_iff (k := 'A') (by decide)

theorem upper_eq_B : upper s = "B" ↔ s = "B" ∨ s = "b" := upper_eq_iff (k := 'B') (by decide)

theorem upper_eq_C : upper s = "C" ↔ s = "C" ∨ s = "c" := upper_eq_iff (k := 'C') (by decide)

theorem upper_eq_D : upper s = "D" ↔ s = "D" ∨ s = "d" := upper_eq_iff (k := 'D') (by decide)

theorem upper_upper (s : String) : upper (upper s) = upper s := by
  have hchar : ∀ c : Char, c.toUpper.toUpper = c.toUpper := by
    intro c
    have ha : 'a'.val.toNat = 97 := rfl
    have hz : 'z'.val.toNat = 122 := rfl
    have hdown : ('A'.val - 'a'.val).toNat = 4294967264 := rfl
    by_cases h : 'a'.val ≤ c.val ∧ c.val ≤ 'z'.val
    · have hu : ¬('a'.val ≤ c.toUpper.val ∧ c.toUpper.val ≤ 'z'.val) := by
        simp only [Char.toUpper, dif_pos h]
        simp only [UInt32.le_iff_toNat_le, UInt32.toNat_add] at h ⊢
        omega
      rw [Char.toUpper, dif_neg hu]
    · have hs : c.toUpper = c := by rw [Char.toUpper, dif_neg h]
      rw [hs, hs]
  simp only [upper, String.toList_ofList, List.map_map]
  congr 1
  exact List.map_congr_left (fun c _ => hchar c)

def tiers : List String := ["A", "B", "C", "D"]

def isValidTier (tier : String) : Bool := decide (upper tier ∈ tiers)

theorem tierRank_eq (tier : String) : tierRank tier =
    if upper tier = "A" then 1 else if upper tier = "B" then 2 else if upper tier = "C" then 3
    else if upper tier = "D" then 4 else 0 := by
  simp only [tierRank, upper_eq_A, upper_eq_B, upper_eq_C, upper_eq_D]

theorem tierRank_pos_iff : 0 < tierRank tier ↔ upper tier ∈ tiers := by
  rw [tierRank_eq]
  simp only [tiers]
  split_ifs with hA hB hC hD <;> simp [*]

theorem eq_C_or_D_of_rank (h : tier ∈ tiers) (hrank : 3 ≤ tierRank tier) :
    tier = "C" ∨ tier = "D" := by
  simp only [tiers, mem_cons, not_mem_nil, or_false] at h
  rcases h with rfl | rfl | rfl | rfl
  · exact absurd hrank (by decide)
  · exact absurd hrank (by decide)
  · exact .inl rfl
  · exact .inr rfl

/-! ### The registry -/

/-- The dispatcher's safe default of an act that names none. -/
def defaultSafeDefaultAction : String := "log_to_dashboard"

def consequenceClasses : List String := ["informational", "soft", "hard"]

structure ActionCapability where
  minimumTier : String
  physical : Bool
  safeDefaultEligible : Bool
  consequenceClass : String
  knownClass : consequenceClass ∈ consequenceClasses
  physicalIneligible : physical = true → safeDefaultEligible = false
  informationalOnly : consequenceClass ≠ "informational" → safeDefaultEligible = false

def informationalCapability : ActionCapability where
  minimumTier := "A"
  physical := false
  safeDefaultEligible := true
  consequenceClass := "informational"
  knownClass := by decide
  physicalIneligible := by decide
  informationalOnly := by decide

def hostCapability : ActionCapability where
  minimumTier := "B"
  physical := false
  safeDefaultEligible := false
  consequenceClass := "soft"
  knownClass := by decide
  physicalIneligible := by decide
  informationalOnly := by decide

def coapCapability : ActionCapability where
  minimumTier := "B"
  physical := true
  safeDefaultEligible := false
  consequenceClass := "soft"
  knownClass := by decide
  physicalIneligible := by decide
  informationalOnly := by decide

def circuitCapability : ActionCapability where
  minimumTier := "C"
  physical := true
  safeDefaultEligible := false
  consequenceClass := "hard"
  knownClass := by decide
  physicalIneligible := by decide
  informationalOnly := by decide

def actionRegistry : List (String × ActionCapability) :=
  [("alert_whatsapp", informationalCapability), ("alert_sms", informationalCapability),
   ("log_to_dashboard", informationalCapability), ("terminate_process", hostCapability),
   ("reset_kernel_subsystem", hostCapability), ("coap_command", coapCapability),
   ("trip_relay", circuitCapability), ("release_relay", circuitCapability),
   ("close_gas_valve", circuitCapability)]

def capability (action : String) : Option ActionCapability :=
  (actionRegistry.find? (fun p => decide (p.1 = action))).map Prod.snd

theorem mem_registry {e : ActionCapability} (h : capability action = some e) :
    (action, e) ∈ actionRegistry := by
  obtain ⟨p, hp, rfl⟩ := map_eq_some_iff.mp h
  have hn : p.1 = action := by simpa using List.find?_some hp
  exact hn ▸ mem_of_find?_eq_some hp

def minimumTier (action : String) : Option String := (capability action).map (·.minimumTier)

/-- Raise a tier to the action's minimum, never lower it. -/
def enforceMinimumTier (action tier : String) : String :=
  match minimumTier action with
  | none => tier
  | some floor => if tierRank tier < tierRank floor then floor else tier

def isSafeDefaultEligible (action : String) : Bool :=
  match capability action with
  | none => true
  | some e => e.safeDefaultEligible

def isPhysical (action : String) : Bool := (capability action).any (·.physical)

/-- The registry's floor for an action, A where it is ungoverned. -/
def registryFloor (action : String) : String := (minimumTier action).getD "A"

theorem floor_mem {e : ActionCapability} (h : capability action = some e) :
    e.minimumTier ∈ ["A", "B", "C"] := by
  have ha : ∀ p ∈ actionRegistry, p.2.minimumTier ∈ ["A", "B", "C"] := by decide
  exact ha _ (mem_registry h)

theorem minimumTier_mem (h : minimumTier action = some floor) : floor ∈ ["A", "B", "C"] := by
  obtain ⟨e, he, rfl⟩ := map_eq_some_iff.mp h
  exact floor_mem he

theorem registryFloor_mem (action : String) : registryFloor action ∈ ["A", "B", "C"] := by
  unfold registryFloor
  cases h : minimumTier action with
  | none => decide
  | some floor => exact minimumTier_mem h

theorem rank_of_mem_ABC (h : tier ∈ ["A", "B", "C"]) :
    1 ≤ tierRank tier ∧ tierRank tier ≤ 3 ∧ tier ∈ tiers := by
  simp only [mem_cons, not_mem_nil, or_false] at h
  rcases h with rfl | rfl | rfl <;> decide

theorem floor_le_enforceMinimumTier (h : minimumTier action = some floor) (tier : String) :
    tierRank floor ≤ tierRank (enforceMinimumTier action tier) := by
  unfold enforceMinimumTier
  simp only [h]
  split_ifs with hl
  · exact le_refl _
  · omega

theorem enforceMinimumTier_mem (h : tier ∈ tiers) : enforceMinimumTier action tier ∈ tiers := by
  unfold enforceMinimumTier
  split
  · exact h
  rename_i floor hf
  split_ifs
  · exact (rank_of_mem_ABC (minimumTier_mem hf)).2.2
  · exact h

theorem enforceMinimumTier_eq_D (h : enforceMinimumTier action tier = "D") : tier = "D" := by
  unfold enforceMinimumTier at h
  split at h
  · exact h
  rename_i floor hf
  split_ifs at h
  · have hm := minimumTier_mem hf
    rw [h] at hm
    exact absurd hm (by decide)
  · exact h

theorem floor_of_eligible (h : isSafeDefaultEligible action = true)
    (hf : minimumTier action = some floor) : floor = "A" := by
  obtain ⟨e, he, rfl⟩ := map_eq_some_iff.mp hf
  have ha : ∀ p ∈ actionRegistry, p.2.safeDefaultEligible = true → p.2.minimumTier = "A" := by
    decide
  refine ha _ (mem_registry he) ?_
  simpa only [isSafeDefaultEligible, he] using h

end OriRuntime
