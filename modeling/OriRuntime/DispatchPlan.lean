import OriRuntime.ActionRegistry
import OriRuntime.Dict

/-!
# The authority one matched action runs under

`ori/reasoning/dispatch_plan.py`: Tier D is granted to one commissioned outcome on one zone, an
informational action runs at A, and every other action between the floor the registry and the
binding compose into and C.
-/

namespace OriRuntime

open Option

def commissionedOutcome (action : String) : Option String :=
  if action = "trip_relay" then some openProtectedCircuit
  else if action = "close_gas_valve" then some openProtectedCircuit
  else if action = "release_relay" then some closeProtectedCircuit
  else none

def hostScopedActions : List String := ["terminate_process", "reset_kernel_subsystem"]

def protectiveOutcome : String := openProtectedCircuit

/-- Whether the registry itself proves the action inert. -/
def isInformational (action : String) : Bool :=
  match capability action with
  | none => false
  | some e => decide (e.minimumTier = "A") && !e.physical

/-- What names the target of an action chosen at dispatch time. -/
structure ResourceParts where
  target : String := ""
  coapUri : String := ""
  coapParameters : List (String × String) := []

/-- The resource an action drives, or none when it holds none. -/
def resourceIdentity (action : String) (zoneIdentityKey : Option (String × String))
    (bindingRevision : String) (parts : ResourceParts) : Option ResourceIdentity :=
  if isInformational action then none
  else
    match commissionedOutcome action with
    | some outcome => zoneIdentityKey.map (fun zone =>
      { resourceKey := [zone.1, zone.2], desiredOutcome := outcome,
        joinParameters := [("binding_revision", bindingRevision)] })
    | none =>
      if action = "coap_command" then
        if parts.coapUri = "" then none
        else some { resourceKey := ["coap", parts.coapUri], desiredOutcome := action,
                    joinParameters := parts.coapParameters }
      else if action ∈ hostScopedActions then
        if parts.target = "" then none
        else some { resourceKey := ["host", action, parts.target], desiredOutcome := action }
      else
        match capability action with
        | none => none
        | some e =>
          if e.physical then some { resourceKey := ["action", action], desiredOutcome := action }
          else none

/-- What the commissioned binding establishes for this device. -/
structure BindingView where
  zoneIdentityKey : Option (String × String) := none
  bindingRevision : String := ""
  consequenceByOutcome : Dict String String := Dict.empty

def BindingView.consequenceFor (b : BindingView) (outcome : String) : Option String :=
  b.consequenceByOutcome.get? outcome

def consequenceFloor (consequence : String) : Option String :=
  if consequence = "informational" then some "A"
  else if consequence = "soft" then some "B"
  else if consequence = "hard" then some "C"
  else none

/-- The floor the registry and the binding compose into, or none to refuse dispatch. -/
def effectiveFloor (action : String) (binding : Option BindingView) : Option String :=
  match commissionedOutcome action with
  | none => some (registryFloor action)
  | some outcome =>
    match binding with
    | none => none
    | some b =>
      if b.zoneIdentityKey = none then none
      else
        match b.consequenceFor outcome with
        | none => none
        | some resolved =>
          match consequenceFloor resolved with
          | none => some (registryFloor action)
          | some bindingFloor =>
            if tierRank bindingFloor < tierRank (registryFloor action) then
              some (registryFloor action)
            else some bindingFloor

structure TierDGrant where
  granted : Bool
  refusal : String := ""
  deriving DecidableEq

/-- One action of a matched trigger, as the plan's builder reads it. -/
structure PlanInput where
  action : String
  incidentTier : String
  declaredTier : String
  bypassLlm : Bool
  firstParty : Bool
  declaredActions : List String
  binding : Option BindingView
  hasExecutor : Bool
  zoneIdentityKey : Option (String × String) := none
  bindingRevision : String := ""
  parts : ResourceParts := {}

/-- Whether every clause of the Tier D grant holds, and the first that does not. -/
def tierDGrant (x : PlanInput) : TierDGrant :=
  if upper x.incidentTier ≠ "D" then ⟨false, "incident is not Tier D"⟩
  else if !x.bypassLlm then ⟨false, "Tier D trigger does not bypass the model"⟩
  else if !x.firstParty then ⟨false, "trigger does not belong to a first-party skill"⟩
  else
    match commissionedOutcome x.action with
    | none => ⟨false, "action resolves to no commissioned outcome"⟩
    | some outcome =>
      if outcome ≠ protectiveOutcome then
        ⟨false, outcome ++ " is not the protective outcome for a safety condition"⟩
      else
        match x.binding with
        | none => ⟨false, "no commissioned zone covers this action"⟩
        | some b =>
          if b.zoneIdentityKey = none then ⟨false, "no commissioned zone covers this action"⟩
          else if b.consequenceFor outcome = none then
            ⟨false, "the zone establishes no meaning for this outcome"⟩
          else if x.action ∉ x.declaredActions then
            ⟨false, "action is not named in the trigger's defaults"⟩
          else if !x.hasExecutor then
            ⟨false, "no registered executor to attach the authority to"⟩
          else ⟨true, ""⟩

def ungovernedAction : String := "ungoverned_action"

def unboundActuator : String := "unbound_actuator"

/-- What a trigger's action reached. A pending one has not been resolved yet. -/
inductive DispatchOutcome where
  | pending
  | attempted
  | joinedAttempt
  | proposalOpened
  | preempted
  | fullyRefused
  | conditionFalse
  deriving DecidableEq, Repr

def outcomeOrder : List DispatchOutcome :=
  [.attempted, .joinedAttempt, .proposalOpened, .preempted, .fullyRefused, .conditionFalse]

def strongestOutcome (outcomes : List DispatchOutcome) : DispatchOutcome :=
  (outcomeOrder.find? (fun candidate => decide (candidate ∈ outcomes))).getD .fullyRefused

def consumesCooldown (outcome : DispatchOutcome) : Bool :=
  decide (outcome ∈ [DispatchOutcome.attempted, .joinedAttempt, .proposalOpened])

structure PlannedAction where
  action : String
  dispatchTier : String
  identity : Option ResourceIdentity
  tierDGranted : Bool
  refusal : String := ""
  outcome : DispatchOutcome := .pending

def PlannedAction.admitted (p : PlannedAction) : Bool := decide (p.refusal = "")

/-- The declared tier, raised to the registry's and the binding's floor and capped at C. -/
def ordinaryTier (action declaredTier floor : String) : String :=
  let declared := enforceMinimumTier action (upper (if declaredTier = "" then floor else declaredTier))
  let raised := if tierRank declared < tierRank floor then floor else declared
  if tierRank "C" < tierRank raised then "C" else raised

def assignActionTier (x : PlanInput) : PlannedAction :=
  match capability x.action with
  | none =>
    { action := x.action, dispatchTier := "A", identity := none, tierDGranted := false,
      refusal := ungovernedAction }
  | some _ =>
    if isInformational x.action then
      { action := x.action, dispatchTier := "A", identity := none, tierDGranted := false }
    else
      let identity := resourceIdentity x.action x.zoneIdentityKey x.bindingRevision x.parts
      if (tierDGrant x).granted then
        { action := x.action, dispatchTier := "D", identity := identity, tierDGranted := true }
      else
        match effectiveFloor x.action x.binding with
        | none =>
          { action := x.action, dispatchTier := "A", identity := identity, tierDGranted := false,
            refusal := unboundActuator }
        | some floor =>
          { action := x.action, dispatchTier := ordinaryTier x.action x.declaredTier floor,
            identity := identity, tierDGranted := false }

/-! ### The floor -/

theorem consequenceFloor_mem {consequence floor : String}
    (h : consequenceFloor consequence = some floor) : floor ∈ ["A", "B", "C"] := by
  unfold consequenceFloor at h
  split_ifs at h <;> obtain rfl := some.inj h <;> decide

theorem registryFloor_le_effectiveFloor {action floor : String} {binding : Option BindingView}
    (h : effectiveFloor action binding = some floor) :
    tierRank (registryFloor action) ≤ tierRank floor ∧ floor ∈ ["A", "B", "C"] := by
  have hr := registryFloor_mem action
  unfold effectiveFloor at h
  split at h
  · cases h
    exact ⟨le_refl _, hr⟩
  · split at h
    · cases h
    split_ifs at h
    split at h
    · cases h
    split at h
    · cases h
      exact ⟨le_refl _, hr⟩
    · rename_i hf
      split_ifs at h with hl
      · cases h
        exact ⟨le_refl _, hr⟩
      · cases h
        exact ⟨Nat.le_of_not_lt hl, consequenceFloor_mem hf⟩

theorem commissioned_governed {action outcome : String}
    (h : commissionedOutcome action = some outcome) :
    (capability action).isSome = true ∧ isInformational action = false := by
  unfold commissionedOutcome at h
  split_ifs at h with h₁ h₂ h₃
  · exact h₁ ▸ by decide
  · exact h₂ ▸ by decide
  · exact h₃ ▸ by decide

/-! ### The grant -/

/-- Every clause of the grant. -/
structure Licensed (x : PlanInput) : Prop where
  incident : upper x.incidentTier = "D"
  bypass : x.bypassLlm = true
  firstParty : x.firstParty = true
  protective : commissionedOutcome x.action = some protectiveOutcome
  zone : ∃ b, x.binding = some b ∧ b.zoneIdentityKey ≠ none ∧
    b.consequenceFor protectiveOutcome ≠ none
  declared : x.action ∈ x.declaredActions
  executor : x.hasExecutor = true

theorem granted_iff (x : PlanInput) : (tierDGrant x).granted = true ↔ Licensed x := by
  constructor
  · intro h
    unfold tierDGrant at h
    split at h
    · cases h
    rename_i hi
    split at h
    · cases h
    rename_i hy
    split at h
    · cases h
    rename_i hf
    split at h
    · cases h
    rename_i outcome ho
    split at h
    · cases h
    rename_i hp
    split at h
    · cases h
    rename_i b hb
    split at h
    · cases h
    rename_i hz
    split at h
    · cases h
    rename_i hc
    split at h
    · cases h
    rename_i hd
    split at h
    · cases h
    rename_i he
    rw [not_not] at hp
    subst hp
    exact ⟨by simpa using hi, by simpa using hy, by simpa using hf, ho,
      ⟨b, hb, hz, hc⟩, by simpa using hd, by simpa using he⟩
  · rintro ⟨hi, hy, hf, hp, ⟨b, hb, hz, hc⟩, hd, he⟩
    simp [tierDGrant, *]

/-! ### The assigned tier -/

theorem ordinaryTier_bounds {action declaredTier floor : String} (hf : floor ∈ ["A", "B", "C"])
    (hg : (capability action).isSome = true) :
    tierRank floor ≤ tierRank (ordinaryTier action declaredTier floor) ∧
      tierRank (ordinaryTier action declaredTier floor) ≤ tierRank "C" ∧
      ordinaryTier action declaredTier floor ∈ ["A", "B", "C"] := by
  obtain ⟨e, he⟩ := isSome_iff_exists.mp hg
  have hm : minimumTier action = some e.minimumTier := by rw [minimumTier, he]; rfl
  obtain ⟨hp, hle, hme⟩ := rank_of_mem_ABC hf
  have hC : tierRank "C" = 3 := by decide
  -- the enforced tier is a letter: the floor, or a declaration that ranks as high as it
  have hn : ∀ s, enforceMinimumTier action (upper s) ∈ tiers := by
    intro s
    have hf' := floor_le_enforceMinimumTier hm (upper s)
    have hp' := (rank_of_mem_ABC (floor_mem he)).1
    unfold enforceMinimumTier at hf' ⊢
    simp only [hm] at hf' ⊢
    split_ifs at hf' ⊢
    · exact (rank_of_mem_ABC (floor_mem he)).2.2
    · rw [← upper_upper]
      exact tierRank_pos_iff.mp (by omega)
  have hl : ∀ t ∈ tiers, tierRank t ≤ 3 → t ∈ ["A", "B", "C"] := by decide
  have hr : ∀ declared ∈ tiers,
      (if tierRank declared < tierRank floor then floor else declared) ∈ tiers := by
    intro declared hd
    split_ifs
    · exact hme
    · exact hd
  unfold ordinaryTier
  simp only
  generalize hd : enforceMinimumTier action _ = declared
  have hd' : declared ∈ tiers := hd ▸ hn _
  have hi := hr declared hd'
  split_ifs at hi ⊢ with ho hc hc
  · omega
  · exact ⟨le_refl _, by omega, hf⟩
  · exact ⟨by omega, le_refl _, by decide⟩
  · exact ⟨by omega, by omega, hl _ hd' (by omega)⟩

/-- The tier of a planned action: D exactly under the grant, A where the registry proves the action
inert, and otherwise between its floor and C; an actuator without a floor is refused. -/
theorem assigned_tier (x : PlanInput) : ((assignActionTier x).dispatchTier = "D" ↔ Licensed x) ∧
    (isInformational x.action = true →
      (assignActionTier x).dispatchTier = "A" ∧ (assignActionTier x).admitted = true) ∧
    (isInformational x.action = false → ¬ Licensed x →
      match effectiveFloor x.action x.binding with
      | some floor => tierRank (registryFloor x.action) ≤ tierRank floor ∧
          tierRank floor ≤ tierRank (assignActionTier x).dispatchTier ∧
          tierRank (assignActionTier x).dispatchTier ≤ tierRank "C"
      | none => (assignActionTier x).refusal = unboundActuator) := by
  have hA : ("A" : String) ≠ "D" := by decide
  have hl : Licensed x → (capability x.action).isSome = true ∧
      isInformational x.action = false := fun h => commissioned_governed h.protective
  unfold assignActionTier
  cases hc : capability x.action with
  | none =>
    have hn : ¬ Licensed x := by
      intro h
      have hs := (hl h).1
      rw [hc] at hs
      cases hs
    have hp : commissionedOutcome x.action = none := by
      by_contra he
      obtain ⟨outcome, ho⟩ := ne_none_iff_exists'.mp he
      have hs := (commissioned_governed ho).1
      rw [hc] at hs
      cases hs
    have hf : effectiveFloor x.action x.binding = some "A" := by
      simp [effectiveFloor, hp, registryFloor, minimumTier, hc]
    refine ⟨⟨fun h => absurd h hA, fun h => absurd h hn⟩, ?_, ?_⟩
    · intro hi
      simp [isInformational, hc] at hi
    · intro _ _
      rw [hf]
      simp only [registryFloor, minimumTier, hc]
      decide
  | some e =>
    by_cases hi : isInformational x.action = true
    · rw [if_pos hi]
      refine ⟨⟨fun h => absurd h hA, fun h => ?_⟩, fun _ => ⟨rfl, by simp [PlannedAction.admitted]⟩, fun h => ?_⟩
      · rw [(hl h).2] at hi
        cases hi
      · rw [hi] at h
        cases h
    · rw [if_neg hi]
      split_ifs with hg
      · refine ⟨⟨fun _ => (granted_iff x).mp hg, fun _ => rfl⟩,
          fun h => absurd h hi, fun _ hn => ?_⟩
        exact absurd ((granted_iff x).mp hg) hn
      · have hn : ¬ Licensed x := fun h => hg ((granted_iff x).mpr h)
        cases hf : effectiveFloor x.action x.binding with
        | none =>
          exact ⟨⟨fun h => absurd h hA, fun h => absurd h hn⟩, fun h => absurd h hi, fun _ _ => rfl⟩
        | some floor =>
          obtain ⟨hr, hm⟩ := registryFloor_le_effectiveFloor hf
          have hgo : (capability x.action).isSome = true := by rw [hc]; rfl
          have hb : tierRank floor ≤ tierRank (ordinaryTier x.action x.declaredTier floor) ∧
              tierRank (ordinaryTier x.action x.declaredTier floor) ≤ tierRank "C" ∧
              ordinaryTier x.action x.declaredTier floor ∈ ["A", "B", "C"] :=
            ordinaryTier_bounds hm hgo
          have hnotD : ∀ t ∈ ["A", "B", "C"], t ≠ "D" := by decide
          refine ⟨⟨fun h => absurd h (hnotD _ hb.2.2), fun h => absurd h hn⟩,
            fun h => absurd h hi, fun _ _ => ⟨hr, hb.1, hb.2.1⟩⟩

end OriRuntime
