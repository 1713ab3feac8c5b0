import OriRuntime.DispatchPlan
import OriRuntime.ResourceGate

/-!
# The dispatcher's own tier

`ActionDispatcher.dispatch` of `ori/reasoning/action_dispatcher.py`: the requested tier is
normalised, refused when unknown, lowered when the skill has no provenance for D, raised by the
skill's capability list and then by the registry; `_admit_and_run` admits the act at the gate and
`_execute_immediately` alone runs executors. An approval workflow's own steps are a parameter: it
asks `_execute_immediately` for the act or for a safe default, in any order and number.
-/

namespace OriRuntime

open List

structure DevicePolicy where
  relayBEnabled : Bool
  relayCEnabled : Bool
  isExpired : Bool

def DevicePolicy.permitsAction (p : DevicePolicy) (actionTier : String) : Bool :=
  if actionTier = "D" ∨ actionTier = "A" then true
  else if p.isExpired then false
  else if actionTier = "B" then p.relayBEnabled
  else if actionTier = "C" then p.relayCEnabled
  else false

structure SkillAction where
  name : String
  tier : String := ""

structure SkillTrigger where
  name : String
  requiresApproval : Bool := false

/-- A skill-like object. `firstParty` is none where the attribute is missing or is not a Boolean. -/
structure Skill where
  name : String := ""
  firstParty : Option Bool := none
  available : List SkillAction := []
  triggers : List SkillTrigger := []
  requiresApproval : Bool := false

/-- What a dispatch carries; `scope` is the arbitration scope of its task. -/
structure SkillContext where
  skill : Option Skill := none
  triggerName : String := ""
  correlationId : String := ""
  recordKey : String := ""
  scope : String := ""

def holdsTierDAuthority (context : SkillContext) : Bool :=
  match context.skill with
  | none => false
  | some skill => decide (skill.firstParty = some true)

def tierBRequiresApproval (context : SkillContext) : Bool :=
  match context.skill with
  | none => false
  | some skill =>
    if context.triggerName = "" then skill.requiresApproval
    else
      match skill.triggers.find? (fun trigger => decide (trigger.name = context.triggerName)) with
      | some trigger => trigger.requiresApproval
      | none => skill.requiresApproval

/-- What an executor answers; `ran` is any answer the source does not name. -/
inductive ExecutorReport where
  | suppressed
  | notPerformed
  | refused
  | raised
  | ran
  deriving DecidableEq

structure ActionResult where
  actionName : String
  tier : String
  executed : Bool
  approved : Option Bool := none
  actionTaken : String
  operatorResponse : Option String := none
  safeDefaultUsed : Bool := false

/-- An executor that was run, for its action and at the tier it was run at. -/
structure Invocation where
  action : String
  tier : String
  deriving DecidableEq

/-- The dispatcher with its registered executors, every one of which the registry governs. -/
structure ActionDispatcher where
  executors : Dict String ExecutorReport
  governed : ∀ action report, executors.get? action = some report → (capability action).isSome
  relayEnabled : Bool := false
  policy : DevicePolicy := { relayBEnabled := true, relayCEnabled := true, isExpired := false }
  gate : Option Gate := none
  binding : Option BindingView := none
  resolvers : Dict String ResourceParts := Dict.empty

def actionTaken (action : String) (executed suppressed missingExecutor : Bool) : String :=
  if executed then action
  else if suppressed then "suppressed"
  else if missingExecutor then "no_executor"
  else ""

def refusalReasonText : RefusalReason → String
  | .opposingEqualTier => "opposing_equal_tier"
  | .opposingHigherTierHolds => "opposing_higher_tier_holds"
  | .opposingActRunning => "opposing_act_running"
  | .opposingCommandUncertain => "opposing_command_uncertain"
  | .foreclosedByCompletedAct => "foreclosed_by_completed_act"
  | .proposalInvalidated => "proposal_invalidated"
  | .proposalNoLongerHeld => "proposal_no_longer_held"
  | .unresolvedSafetyConflict => "unresolved_safety_conflict"

/-- `governed_outcome` of `ori/reasoning/tier_c_admission.py`. -/
def governedOutcome (action : String) : Option String :=
  if action = openProtectedCircuit ∨ action = closeProtectedCircuit then some action
  else commissionedOutcome action

def physicality (action : String) : String :=
  if action ∈ ["alert_whatsapp", "alert_sms", "log_to_dashboard"] then "informational"
  else if action ∈ ["terminate_process", "reset_kernel_subsystem"] then "host_state"
  else if action ∈ ["coap_command", "trip_relay", "release_relay", "close_gas_valve",
      openProtectedCircuit, closeProtectedCircuit] then "physical"
  else "unclassified"

def safeDefaultAdmitted (action : String) : Bool :=
  if physicality action ≠ "informational" then false
  else
    match capability action with
    | none => false
    | some e => decide (e.consequenceClass = "informational") && e.safeDefaultEligible && !e.physical

/-- What an approval workflow asks for: the act, the safe default, or the safe default it carries
after admitting it again. -/
inductive WorkflowStep where
  | act
  | safeDefault
  | admittedDefault
  deriving DecidableEq

structure Workflow where
  steps : List WorkflowStep
  result : ActionResult

namespace ActionDispatcher

variable (d : ActionDispatcher) (context : SkillContext)

def registerExecutor (action : String) (report : ExecutorReport) : Except String ActionDispatcher :=
  if h : (capability action).isSome then
    .ok { d with
      executors := d.executors.set action report
      governed := by
        intro a r hr
        rw [Dict.get?_set] at hr
        split_ifs at hr with ha
        · exact ha ▸ h
        · exact d.governed a r hr }
  else .error "UngovernedActionError"

def permitsRelayAction (actionTier : String) : Bool :=
  if actionTier = "D" then true
  else if actionTier = "A" then true
  else d.relayEnabled && d.policy.permitsAction actionTier

def resourceFor (action : String) : Option ResourceIdentity :=
  match d.gate with
  | none => none
  | some _ => resourceIdentity action (d.binding.bind (·.zoneIdentityKey))
      ((d.binding.map (·.bindingRevision)).getD "") ((d.resolvers.get? action).getD {})

def vetSafeDefault (safeDefaultAction : String) : String :=
  if isSafeDefaultEligible safeDefaultAction then safeDefaultAction else defaultSafeDefaultAction

/-- Run the action's executor, the only place one is run. -/
def executeImmediately (action tier : String) : List Invocation × ActionResult :=
  if tier = "D" ∧ holdsTierDAuthority context = false then
    ([], { actionName := action, tier := tier, executed := false,
           actionTaken := "refused_tier_d_without_provenance" })
  else if enforceMinimumTier action tier ≠ tier then
    ([], { actionName := action, tier := tier, executed := false,
           actionTaken := "refused_below_minimum_tier" })
  else
    match d.executors.get? action with
    | none =>
      ([], { actionName := action, tier := tier, executed := false,
             actionTaken := actionTaken action false false true })
    | some report =>
      let executed := decide (report = .ran)
      let suppressed := decide (report = .suppressed ∧ tier ≠ "D")
      ([⟨action, tier⟩],
        { actionName := action, tier := tier, executed := executed,
          actionTaken := if report = .notPerformed then "not_performed"
            else actionTaken action executed suppressed false })

/-- What the workflow for `action` at `tier` runs; a governed one runs its safe default at A. -/
def runWorkflow (action tier safeDefaultAction : String) (governed : Bool) (w : Workflow) :
    List Invocation × ActionResult :=
  let defaultTier := if governed then "A" else tier
  (w.steps.flatMap (fun step =>
    match step with
    | .act => (d.executeImmediately context action tier).1
    | .safeDefault =>
      (d.executeImmediately context (vetSafeDefault safeDefaultAction) defaultTier).1
    | .admittedDefault =>
      (d.executeImmediately context (if safeDefaultAdmitted safeDefaultAction then safeDefaultAction
        else defaultSafeDefaultAction) defaultTier).1), w.result)

/-- The branch of `_admit_and_run` an admitted action takes by its tier. -/
def runAdmitted (action tier safeDefaultAction : String) (w : Workflow) :
    List Invocation × ActionResult :=
  if tier = "D" then d.executeImmediately context action tier
  else if tier = "A" then d.executeImmediately context action tier
  else if tier = "B" then
    if tierBRequiresApproval context then
      d.runWorkflow context action tier safeDefaultAction false w
    else d.executeImmediately context action tier
  else if tier = "C" then
    d.runWorkflow context action tier safeDefaultAction (isPhysical action) w
  else d.executeImmediately context action tier

def contributor (action tier : String) : Contributor where
  skillName := (context.skill.map (·.name)).getD ""
  triggerName := context.triggerName
  action := action
  dispatchTier := tier
  correlationId := context.correlationId
  tierDGranted := decide (tier = "D")
  recordKey := context.recordKey
  scope := context.scope

def admitAndRun (action tier safeDefaultAction : String) (w : Workflow) :
    List Invocation × ActionResult :=
  match d.resourceFor action, d.gate with
  | none, some _ =>
    if isInformational action then d.runAdmitted context action tier safeDefaultAction w
    else ([], { actionName := action, tier := tier, executed := false,
                actionTaken := "refused_unresolved_resource" })
  | some identity, some gate =>
    let awaitsOperator := decide (tier = "C" ∨ tier = "B" ∧ tierBRequiresApproval context = true)
    let decision :=
      (gate.request context.scope identity tier (contributor context action tier) awaitsOperator).2
    if decision.admission = .joined then
      ([], { actionName := action, tier := tier, executed := false, actionTaken := "coalesced" })
    else if !decision.mayExecute then
      ([], { actionName := action, tier := tier, executed := false,
             actionTaken := "refused_" ++ (decision.reason.map refusalReasonText).getD "None" })
    else d.runAdmitted context action tier safeDefaultAction w
  | _, none => d.runAdmitted context action tier safeDefaultAction w

/-- The escalation from the skill's own capability list: raised by it, to C at most. -/
def declaredTier (action tier : String) : String :=
  let available := (context.skill.map (·.available)).getD []
  match available.find? (fun entry => decide (entry.name = action) && decide (entry.tier ≠ "")) with
  | none => tier
  | some entry =>
    if tier = "D" then tier
    else
      let defined := if upper entry.tier = "D" then "C" else upper entry.tier
      if tierRank tier < tierRank defined then defined else tier

/-- The tier a known request runs at, before any suppression. -/
def effectiveTier (action tier : String) : String :=
  let provenTier := if tier = "D" ∧ holdsTierDAuthority context = false then "C" else tier
  enforceMinimumTier action (declaredTier context action provenTier)

def dispatch (action tier safeDefaultAction : String) (w : Workflow) :
    List Invocation × ActionResult :=
  if !isValidTier (upper tier) then
    ([], { actionName := action, tier := upper tier, executed := false,
           actionTaken := "refused_unknown_tier" })
  else
    let effective := effectiveTier context action (upper tier)
    let safeDefault := vetSafeDefault safeDefaultAction
    if (governedOutcome action).isSome ∧ (effective = "B" ∨ effective = "C") ∧
        d.permitsRelayAction effective = false then
      d.admitAndRun context safeDefault "A" safeDefault w
    else d.admitAndRun context action effective safeDefault w

/-! ### What an executor runs at -/

variable {d context} {action tier safeDefaultAction : String} {w : Workflow} {i : Invocation}

/-- What holds of every executor that runs: it is registered, at or above its action's floor, and at
D only for proven provenance. -/
structure Authorised (d : ActionDispatcher) (context : SkillContext) (i : Invocation) : Prop where
  registered : (d.executors.get? i.action).isSome = true
  floor : enforceMinimumTier i.action i.tier = i.tier
  proven : i.tier = "D" → holdsTierDAuthority context = true

theorem executeImmediately_authorised (h : i ∈ (d.executeImmediately context action tier).1) :
    i = ⟨action, tier⟩ ∧ d.Authorised context i := by
  unfold executeImmediately at h
  split at h
  · cases h
  rename_i hp
  split at h
  · cases h
  rename_i hf
  split at h
  · cases h
  rename_i report hr
  obtain rfl := mem_singleton.mp h
  refine ⟨rfl, by simp [hr], not_not.mp hf, ?_⟩
  intro hD
  by_contra hn
  exact hp ⟨hD, by simpa using hn⟩

theorem vetSafeDefault_eligible (action : String) :
    isSafeDefaultEligible (vetSafeDefault action) = true := by
  unfold vetSafeDefault
  split_ifs with h
  · exact h
  · decide

theorem safeDefaultAdmitted_eligible (h : safeDefaultAdmitted action = true) :
    isSafeDefaultEligible action = true := by
  unfold safeDefaultAdmitted at h
  unfold isSafeDefaultEligible
  split at h
  · cases h
  split at h
  · cases h
  rename_i e he
  simp only [Bool.and_eq_true] at h
  simpa only [he] using h.1.2

theorem runWorkflow_authorised {governed : Bool}
    (h : i ∈ (d.runWorkflow context action tier safeDefaultAction governed w).1) :
    d.Authorised context i ∧ (i = ⟨action, tier⟩ ∧ .act ∈ w.steps ∨
      isSafeDefaultEligible i.action = true ∧ (i.tier = "A" ∨ i.tier = tier)) := by
  simp only [runWorkflow, mem_flatMap] at h
  obtain ⟨step, hs, hi⟩ := h
  have htier : (if governed then "A" else tier) = "A" ∨ (if governed then "A" else tier) = tier := by
    cases governed
    · exact .inr rfl
    · exact .inl rfl
  cases step with
  | act =>
    obtain ⟨heq, ha⟩ := executeImmediately_authorised hi
    exact ⟨ha, .inl ⟨heq, hs⟩⟩
  | safeDefault =>
    obtain ⟨rfl, ha⟩ := executeImmediately_authorised hi
    exact ⟨ha, .inr ⟨vetSafeDefault_eligible _, htier⟩⟩
  | admittedDefault =>
    obtain ⟨rfl, ha⟩ := executeImmediately_authorised hi
    refine ⟨ha, .inr ⟨?_, htier⟩⟩
    by_cases hd : safeDefaultAdmitted safeDefaultAction = true
    · simpa only [if_pos hd] using safeDefaultAdmitted_eligible hd
    · simp only [if_neg hd]
      decide

theorem runAdmitted_authorised (ht : tier ∈ tiers)
    (h : i ∈ (d.runAdmitted context action tier safeDefaultAction w).1) :
    d.Authorised context i ∧ (i = ⟨action, tier⟩ ∧ (tier = "C" → .act ∈ w.steps) ∨
      isSafeDefaultEligible i.action = true ∧ i.tier ≠ "D" ∧ i.tier ∈ tiers) := by
  have hd : tier ≠ "C" → i ∈ (d.executeImmediately context action tier).1 →
      d.Authorised context i ∧ (i = ⟨action, tier⟩ ∧ (tier = "C" → .act ∈ w.steps) ∨
        isSafeDefaultEligible i.action = true ∧ i.tier ≠ "D" ∧ i.tier ∈ tiers) := by
    intro hC hi
    obtain ⟨heq, ha⟩ := executeImmediately_authorised hi
    exact ⟨ha, .inl ⟨heq, fun hC' => absurd hC' hC⟩⟩
  have hw : ∀ governed, tier ≠ "D" →
      i ∈ (d.runWorkflow context action tier safeDefaultAction governed w).1 →
      d.Authorised context i ∧ (i = ⟨action, tier⟩ ∧ (tier = "C" → .act ∈ w.steps) ∨
        isSafeDefaultEligible i.action = true ∧ i.tier ≠ "D" ∧ i.tier ∈ tiers) := by
    intro governed hD hi
    obtain ⟨ha, ⟨heq, hc⟩ | ⟨he, htier⟩⟩ := runWorkflow_authorised hi
    · exact ⟨ha, .inl ⟨heq, fun _ => hc⟩⟩
    obtain hA | hs := htier
    · exact ⟨ha, .inr ⟨he, by rw [hA]; decide, by rw [hA]; decide⟩⟩
    · exact ⟨ha, .inr ⟨he, hs ▸ hD, hs ▸ ht⟩⟩
  unfold runAdmitted at h
  simp only [tiers, mem_cons, not_mem_nil, or_false] at ht
  rcases ht with rfl | rfl | rfl | rfl
  · exact hd (by decide) h
  · simp only [show ("B" : String) ≠ "D" by decide, show ("B" : String) ≠ "A" by decide,
      if_false, if_true] at h
    split_ifs at h
    · exact hw false (by decide) h
    · exact hd (by decide) h
  · simp only [show ("C" : String) ≠ "D" by decide, show ("C" : String) ≠ "A" by decide,
      show ("C" : String) ≠ "B" by decide, if_false, if_true] at h
    exact hw _ (by decide) h
  · exact hd (by decide) h

theorem admitAndRun_subset (h : i ∈ (d.admitAndRun context action tier safeDefaultAction w).1) :
    i ∈ (d.runAdmitted context action tier safeDefaultAction w).1 := by
  unfold admitAndRun at h
  split at h
  · split_ifs at h with hi
    · exact h
    · cases h
  · simp only at h
    split_ifs at h
    · cases h
    · cases h
    · exact h
  · exact h

/-! ### The tier a request runs at -/

theorem declaredTier_mem (ht : tier ∈ tiers) : declaredTier context action tier ∈ tiers := by
  unfold declaredTier
  simp only
  split
  · exact ht
  rename_i entry _
  split_ifs with h₁ h₂ h₃ h₄
  · exact ht
  · decide
  · exact ht
  · rw [← upper_upper]
    exact tierRank_pos_iff.mp (by omega)
  · exact ht

theorem declaredTier_eq_D (h : declaredTier context action tier = "D") : tier = "D" := by
  unfold declaredTier at h
  simp only at h
  split at h
  · exact h
  rename_i entry _
  split_ifs at h with h₁ h₂ h₃ h₄
  · exact h
  · exact absurd h (by decide)
  · exact h
  · exact absurd h h₂
  · exact h

/-- A known request runs at a tier, at or above its action's floor, and at D only when it asked for D
with proven provenance. -/
theorem effectiveTier_spec (ht : tier ∈ tiers) : effectiveTier context action tier ∈ tiers ∧
    (∀ floor, minimumTier action = some floor →
      tierRank floor ≤ tierRank (effectiveTier context action tier)) ∧
    (effectiveTier context action tier = "D" →
      tier = "D" ∧ holdsTierDAuthority context = true) := by
  have hp : (if tier = "D" ∧ holdsTierDAuthority context = false then "C" else tier) ∈ tiers := by
    split_ifs
    · decide
    · exact ht
  refine ⟨enforceMinimumTier_mem (declaredTier_mem hp), ?_, ?_⟩
  · intro floor hf
    exact floor_le_enforceMinimumTier hf _
  · intro hD
    have htier := declaredTier_eq_D (enforceMinimumTier_eq_D hD)
    split_ifs at htier with hl
    · exact absurd htier (by decide)
    refine ⟨htier, ?_⟩
    by_contra hn
    exact hl ⟨htier, by simpa using hn⟩

/-- Whatever tier string a dispatch is called with: an unknown one runs nothing; every executor that
runs is registered for a governed action and runs at one of the four tiers, at or above that action's
floor; it runs at D only for the requested action of a D request with proven provenance; and an action
whose floor is C runs below D only after an approval workflow decided to act. -/
theorem dispatch_authorised (d : ActionDispatcher) (context : SkillContext)
    (action tier safeDefaultAction : String) (w : Workflow) :
    (upper tier ∉ tiers → (d.dispatch context action tier safeDefaultAction w).1 = []) ∧
    ∀ i ∈ (d.dispatch context action tier safeDefaultAction w).1, i.tier ∈ tiers ∧
      (∃ floor, minimumTier i.action = some floor ∧ tierRank floor ≤ tierRank i.tier) ∧
      (i.tier = "D" → i.action = action ∧ upper tier = "D" ∧ holdsTierDAuthority context = true) ∧
      (minimumTier i.action = some "C" → i.tier ≠ "D" → .act ∈ w.steps) := by
  have hv : isValidTier (upper tier) = true ↔ upper tier ∈ tiers := by
    simp only [isValidTier, upper_upper, decide_eq_true_eq]
  refine ⟨?_, ?_⟩
  · intro hu
    have hiv : isValidTier (upper tier) = false := by
      rw [← Bool.not_eq_true, hv]
      exact hu
    simp [dispatch, hiv]
  · intro i hi
    unfold dispatch at hi
    simp only at hi
    split at hi
    · cases hi
    rename_i hk
    have ht : upper tier ∈ tiers := hv.mp (by simpa using hk)
    have hspec : effectiveTier context action (upper tier) ∈ tiers ∧
        (∀ floor, minimumTier action = some floor →
          tierRank floor ≤ tierRank (effectiveTier context action (upper tier))) ∧
        (effectiveTier context action (upper tier) = "D" →
          upper tier = "D" ∧ holdsTierDAuthority context = true) := effectiveTier_spec ht
    obtain ⟨hm, hf, hD⟩ := hspec
    -- the registered executor makes its action governed
    have hg : d.Authorised context i →
        ∃ floor, minimumTier i.action = some floor ∧ tierRank floor ≤ tierRank i.tier := by
      intro ha
      obtain ⟨report, hr⟩ := Option.isSome_iff_exists.mp ha.registered
      obtain ⟨e, he⟩ := Option.isSome_iff_exists.mp (d.governed i.action report hr)
      have hmi : minimumTier i.action = some e.minimumTier := by rw [minimumTier, he]; rfl
      refine ⟨e.minimumTier, hmi, ?_⟩
      have hle := floor_le_enforceMinimumTier hmi i.tier
      rwa [ha.floor] at hle
    have hn : isSafeDefaultEligible i.action = true → minimumTier i.action ≠ some "C" := by
      intro hl hC
      exact absurd (floor_of_eligible hl hC) (by decide)
    split at hi
    · have hve := vetSafeDefault_eligible safeDefaultAction
      obtain ⟨ha, ⟨rfl, -⟩ | ⟨hl, hD', htier⟩⟩ :=
        runAdmitted_authorised (by decide) (admitAndRun_subset hi)
      · exact ⟨by simp [tiers], hg ha, fun h => absurd h (by decide : ("A" : String) ≠ "D"),
          fun hC => absurd hC (hn hve)⟩
      · exact ⟨htier, hg ha, fun h => absurd h hD', fun hC => absurd hC (hn hl)⟩
    · obtain ⟨ha, ⟨rfl, hc⟩ | ⟨hl, hD', htier⟩⟩ := runAdmitted_authorised hm (admitAndRun_subset hi)
      · refine ⟨hm, hg ha, fun h => ⟨rfl, hD h⟩, ?_⟩
        intro hC hne
        apply hc
        have hle := hf "C" hC
        have hh : tierRank "C" = 3 := by decide
        exact (eq_C_or_D_of_rank hm (by omega)).resolve_right hne
      · exact ⟨htier, hg ha, fun h => absurd h hD', fun hC => absurd hC (hn hl)⟩

/-- Authority is never below the floor and Tier D is never assumed, in the plan and again in the
dispatcher. -/
theorem authority_of_dispatch (x : PlanInput) (d : ActionDispatcher) (context : SkillContext)
    (action tier safeDefaultAction : String) (w : Workflow) :
    (((assignActionTier x).dispatchTier = "D" ↔ Licensed x) ∧
    (isInformational x.action = true →
      (assignActionTier x).dispatchTier = "A" ∧ (assignActionTier x).admitted = true) ∧
    (isInformational x.action = false → ¬ Licensed x →
      match effectiveFloor x.action x.binding with
      | some floor => tierRank (registryFloor x.action) ≤ tierRank floor ∧
          tierRank floor ≤ tierRank (assignActionTier x).dispatchTier ∧
          tierRank (assignActionTier x).dispatchTier ≤ tierRank "C"
      | none => (assignActionTier x).refusal = unboundActuator)) ∧
    (upper tier ∉ tiers → (d.dispatch context action tier safeDefaultAction w).1 = []) ∧
    ∀ i ∈ (d.dispatch context action tier safeDefaultAction w).1, i.tier ∈ tiers ∧
      (∃ floor, minimumTier i.action = some floor ∧ tierRank floor ≤ tierRank i.tier) ∧
      (i.tier = "D" → i.action = action ∧ upper tier = "D" ∧ holdsTierDAuthority context = true) ∧
      (minimumTier i.action = some "C" → i.tier ≠ "D" → .act ∈ w.steps) :=
  ⟨assigned_tier x, dispatch_authorised d context action tier safeDefaultAction w⟩

/-- A trip no zone covers is planned at A, refused, though its floor is C. -/
theorem unbound_trip_below_floor : ∃ x : PlanInput, isInformational x.action = false ∧
      (assignActionTier x).dispatchTier ≠ "D" ∧
      ¬ tierRank (registryFloor x.action) ≤ tierRank (assignActionTier x).dispatchTier :=
  ⟨{ action := "trip_relay", incidentTier := "C", declaredTier := "C", bypassLlm := false,
     firstParty := true, declaredActions := ["trip_relay"], binding := none, hasExecutor := true },
   by decide, by decide, by decide⟩

end ActionDispatcher

end OriRuntime
