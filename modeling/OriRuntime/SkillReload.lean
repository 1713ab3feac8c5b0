import OriRuntime.SkillHandlers

/-!
# Reloading skills

Startup builds the event bus and the loader and loads the skills `skills:` names; a reload loads
them again and swaps the handlers. The body of a reload awaits nothing, so concurrent reloads run
one after the other whatever the lock's queue is.
-/

namespace OriRuntime

open List Option

open Execution

namespace SkillReload

structure SkillRuntime where
  eventBus : Option EventBus
  skillLoader : Option SkillLoader
  skillsDir : List String
  skillSelection : List (String × String)
  loadedSkills : List Skill
  skillSubscriptions : List (String × Handler)
  nextHandler : ℕ
  deriving DecidableEq

inductive ReloadOutcome
  | returned (reloaded : Bool)
  | raised (failure : LoadFailure)
  | registrationFailed (error : RegisterError)
  deriving DecidableEq

/-- The listed skills, or none when `skills:` cannot be honoured and no error is to be raised. -/
def loadSelection (disk : SkillDisk) (selection : List (String × String)) (root : List String)
    (refuseUnresolved : Bool) : Except LoadFailure (Option (List Skill)) :=
  match loadSelected disk selection root with
  | .ok skills => .ok (some skills)
  | .error (.selection faults) =>
    if refuseUnresolved then .error (.selection faults) else .ok none
  | .error .osError => .error .osError

def plannedSubscriptionCost (skills : List Skill) : ℕ := (skills.map Skill.subscriptionCost).sum

namespace SkillRuntime

def initial : SkillRuntime := ⟨none, none, [], [], [], [], 0⟩

def wiring (rt : SkillRuntime) (bus : EventBus) (loader : SkillLoader) : Wiring :=
  ⟨bus, loader, rt.skillSubscriptions, rt.nextHandler⟩

def rewired (rt : SkillRuntime) (w : Wiring) : SkillRuntime :=
  { rt with
    eventBus := some w.eventBus
    skillLoader := some w.loader
    skillSubscriptions := w.subscriptions
    nextHandler := w.nextHandler }

def reloadSkills (rt : SkillRuntime) (disk : SkillDisk) (refuseUnresolved : Bool) :
    ReloadOutcome × SkillRuntime :=
  match rt.eventBus, rt.skillLoader with
  | some bus, some loader =>
    match loadSelection disk rt.skillSelection rt.skillsDir refuseUnresolved with
    | .error failure => (.raised failure, rt)
    | .ok none => (.returned false, rt)
    | .ok (some loaded) =>
      if loaded = [] ∧ rt.loadedSkills ≠ [] then (.returned false, rt)
      else if plannedSubscriptionCost loaded > maxTotalSubscriptions then (.returned false, rt)
      else
        match registerAll (unregister (rt.wiring bus loader)) loaded with
        | (w, some e) => (.registrationFailed e, rt.rewired w)
        | (w, none) => (.returned true, { rt.rewired w with loadedSkills := loaded })
  | _, _ => (.returned false, rt)

/-- What shutdown does to the skills: their handlers are removed and none is loaded. -/
def unregisterSkillHandlers (rt : SkillRuntime) : SkillRuntime :=
  match rt.eventBus, rt.skillLoader with
  | some bus, some loader => rt.rewired (unregister (rt.wiring bus loader))
  | some bus, none =>
    { rt with
      eventBus := some (bus.unsubscribeAll rt.skillSubscriptions)
      skillSubscriptions := [] }
  | none, _ => { rt with skillSubscriptions := [] }

end SkillRuntime

/-! ### Runs -/

/-- The steps of a run, in the order in which they take the event loop. A runtime starts once: the
bus is built, then the loader with its discovery set, and the skills are loaded. Other parts of the
runtime subscribe handlers of their own. -/
inductive SkillCall
  | eventPath
  | stageSkills (disk : SkillDisk) (skillsDir : List String) (selection : List (String × String))
  | reloadSkills (disk : SkillDisk) (refuseUnresolved : Bool)
  | subscribe (sensorType : String) (id : ℕ)
  | unsubscribe (sensorType : String) (id : ℕ)
  | stop

namespace SkillRuntime

/-- The reload a call makes and the runtime it finds: at startup, with a loader just built. -/
def entering (rt : SkillRuntime) : SkillCall → Option (SkillRuntime × SkillDisk × Bool)
  | .stageSkills disk skillsDir selection =>
    if rt.eventBus.isSome ∧ rt.skillLoader = none then
      some ({ rt with skillsDir, skillSelection := selection, skillLoader := some ⟨0, []⟩ },
        disk, true)
    else none
  | .reloadSkills disk refuseUnresolved => some (rt, disk, refuseUnresolved)
  | _ => none

def step (rt : SkillRuntime) (call : SkillCall) : Option SkillRuntime :=
  match call with
  | .eventPath =>
    if rt.eventBus = none then some { rt with eventBus := some .empty } else none
  | .subscribe sensorType id =>
    rt.eventBus.map fun bus =>
    { rt with eventBus := some (bus.subscribe sensorType (.other id)) }
  | .unsubscribe sensorType id =>
    rt.eventBus.map fun bus =>
    { rt with eventBus := some (bus.unsubscribe sensorType (.other id)) }
  | .stop => some { rt.unregisterSkillHandlers with loadedSkills := [] }
  | call => (rt.entering call).map fun entered => (entered.1.reloadSkills entered.2.1 entered.2.2).2

def skillHandlers (rt : SkillRuntime) : List (String × Handler) :=
  match rt.eventBus with
  | none => []
  | some bus => bus.skillHandlers

def activeSubscriptions (rt : SkillRuntime) : ℕ :=
  match rt.skillLoader with
  | none => 0
  | some loader => loader.registeredSubscriptions

def discoverySet (rt : SkillRuntime) : List Skill :=
  match rt.skillLoader with
  | none => []
  | some loader => loader.coordinator

/-! ### The invariant -/

/-- Before a loader is built there is no skill; after, its records agree on the skills loaded. -/
structure Sound (rt : SkillRuntime) : Prop where
  names : (rt.loadedSkills.map Skill.name).Nodup
  admitted : ∀ skill ∈ rt.loadedSkills, skill.Admitted
  budget : (rt.loadedSkills.map Skill.subscriptionCost).sum ≤ maxTotalSubscriptions
  agrees : ∀ bus loader, rt.eventBus = some bus → rt.skillLoader = some loader →
    (rt.wiring bus loader).Agrees rt.loadedSkills
  unbuilt : rt.skillLoader = none → rt.loadedSkills = [] ∧ rt.skillSubscriptions = [] ∧
    rt.skillHandlers = []
  ordered : rt.eventBus = none → rt.skillLoader = none

theorem Sound.initial : Sound .initial where
  names := nodup_nil
  admitted := fun _ h => absurd h not_mem_nil
  budget := Nat.zero_le _
  agrees := by
    intro bus loader hb
    cases hb
  unbuilt := fun _ => ⟨rfl, rfl, rfl⟩
  ordered := fun _ => rfl

/-- Nothing of what a reload swaps has moved. -/
def SameCoverage (rt rt' : SkillRuntime) : Prop :=
  rt'.eventBus = rt.eventBus ∧ rt'.discoverySet = rt.discoverySet ∧
    rt'.loadedSkills = rt.loadedSkills ∧ rt'.activeSubscriptions = rt.activeSubscriptions

theorem SameCoverage.refl (rt : SkillRuntime) : SameCoverage rt rt := ⟨rfl, rfl, rfl, rfl⟩

/-- Whether the call gets an answer about the skills directory, where it asks for one: it does not
ask before startup has built the bus and the loader, nor when the selection does not resolve. -/
def Answered (disk : SkillDisk) (rt : SkillRuntime) : Prop :=
  rt.eventBus = none ∨ rt.skillLoader = none ∨
    (∃ faults, resolveSelection disk rt.skillSelection rt.skillsDir = .error faults) ∨
    disk.isDir rt.skillsDir ≠ none

end SkillRuntime

theorem loadSelected_osError_iff {disk : SkillDisk} {selection : List (String × String)}
    {root : List String} :
    loadSelected disk selection root = .error .osError ↔
      (∃ resolved, resolveSelection disk selection root = .ok resolved) ∧
        disk.isDir root = none := by
  unfold loadSelected
  cases hr : resolveSelection disk selection root with
  | error faults => simp
  | ok resolved =>
    dsimp only
    split_ifs with hroot hf
    all_goals simp [hroot]

namespace SkillRuntime

variable {rt : SkillRuntime} {call : SkillCall}

theorem Sound.reloadSkills_cases (h : rt.Sound) (disk : SkillDisk) (refuseUnresolved : Bool) :
    (Answered disk rt ∧ ((rt.reloadSkills disk refuseUnresolved).1 = .returned false ∨
        ∃ faults, (rt.reloadSkills disk refuseUnresolved).1 = .raised (.selection faults)) ∧
      (rt.reloadSkills disk refuseUnresolved).2 = rt) ∨
    (¬ Answered disk rt ∧ rt.reloadSkills disk refuseUnresolved = (.raised .osError, rt)) ∨
    (Answered disk rt ∧ ∃ loaded w,
      loadSelected disk rt.skillSelection rt.skillsDir = .ok loaded ∧ w.Agrees loaded ∧
      rt.reloadSkills disk refuseUnresolved =
        (.returned true, { rt.rewired w with loadedSkills := loaded })) := by
  unfold reloadSkills
  split
  · next bus loader hb hl =>
    have ha : Answered disk rt ↔
        loadSelected disk rt.skillSelection rt.skillsDir ≠ .error .osError := by
      rw [ne_eq, loadSelected_osError_iff, Answered, hb, hl]
      cases resolveSelection disk rt.skillSelection rt.skillsDir <;> simp
    rw [ha]
    unfold loadSelection
    cases hload : loadSelected disk rt.skillSelection rt.skillsDir with
    | error failure =>
      cases failure with
      | osError => simp
      | selection faults => cases refuseUnresolved <;> simp
    | ok loaded =>
      dsimp only
      split_ifs with he hover
      · simp
      · simp
      · have hh := loadSelected_whole hload
        obtain ⟨w, hr, hw⟩ := ((h.agrees bus loader hb hl).unregister
          h.admitted).registerAll hh.admitted hh.names hh.budget
        refine .inr (.inr ⟨by simp, loaded, w, rfl, hw, ?_⟩)
        rw [hr]
  · next hu =>
    refine .inl ⟨?_, .inl rfl, rfl⟩
    cases hb : rt.eventBus with
    | none => exact .inl hb
    | some bus =>
      cases hl : rt.skillLoader with
      | none => exact .inr (.inl hl)
      | some loader => exact absurd hl (hu bus loader hb)

theorem Sound.reloadSkills (h : rt.Sound) (disk : SkillDisk) (refuseUnresolved : Bool) :
    (rt.reloadSkills disk refuseUnresolved).2.Sound := by
  rcases h.reloadSkills_cases disk refuseUnresolved with
    ⟨-, -, hs⟩ | ⟨-, heq⟩ | ⟨-, loaded, w, hload, hw, heq⟩
  · rw [hs]
    exact h
  · rw [heq]
    exact h
  · rw [heq]
    have hh := loadSelected_whole hload
    refine ⟨hh.names, hh.admitted, hh.budget, ?_, ?_, ?_⟩
    · intro bus loader hb hl
      cases hb
      cases hl
      exact hw
    · intro hl
      cases hl
    · intro hb
      cases hb

theorem Sound.entering {entered : SkillRuntime} {disk : SkillDisk} {refuseUnresolved : Bool}
    (h : rt.Sound) (he : rt.entering call = some (entered, disk, refuseUnresolved)) :
    entered.Sound ∧ SameCoverage rt entered := by
  cases call with
  | stageSkills disk skillsDir selection =>
    unfold SkillRuntime.entering at he
    dsimp only at he
    split_ifs at he with hr
    cases he
    obtain ⟨hb, hl⟩ := hr
    obtain ⟨hload, hs, hh⟩ := h.unbuilt hl
    refine ⟨⟨h.names, h.admitted, h.budget, ?_, ?_, ?_⟩, rfl, ?_, rfl, ?_⟩
    · intro bus loader hb' hl'
      cases hl'
      change rt.eventBus = some bus at hb'
      simp only [SkillRuntime.skillHandlers, hb'] at hh
      refine ⟨?_, ?_, ?_, hload.symm⟩
      · change bus.skillHandlers.Perm rt.skillSubscriptions
        rw [hs, hh]
      · change rt.skillSubscriptions.map covers = (coverageOf rt.loadedSkills).map some
        rw [hs, hload]
        rfl
      · change 0 = rt.skillSubscriptions.length
        rw [hs, length_nil]
    · intro hn
      cases hn
    · intro hn
      change rt.eventBus = none at hn
      rw [hn] at hb
      cases hb
    · simp only [discoverySet, hl]
    · simp only [activeSubscriptions, hl]
  | reloadSkills disk refuseUnresolved =>
    cases he
    exact ⟨h, SameCoverage.refl rt⟩
  | eventPath | subscribe sensorType id | unsubscribe sensorType id | stop => cases he

theorem Sound.withBus (h : rt.Sound) {bus bus' : EventBus} (hb : rt.eventBus = some bus)
    (hperm : bus'.skillHandlers.Perm bus.skillHandlers) :
    Sound { rt with eventBus := some bus' } := by
  refine ⟨h.names, h.admitted, h.budget, ?_, ?_, ?_⟩
  · intro other loader ho hl
    cases ho
    have ha := h.agrees bus loader hb hl
    exact { ha with onBus := hperm.trans ha.onBus }
  · intro hl
    obtain ⟨hload, hs, hh⟩ := h.unbuilt hl
    simp only [skillHandlers, hb] at hh
    refine ⟨hload, hs, ?_⟩
    change bus'.skillHandlers = []
    exact (hperm.trans (by rw [hh])).eq_nil
  · intro hn
    cases hn

theorem Sound.stopped (h : rt.Sound) :
    Sound { rt.unregisterSkillHandlers with loadedSkills := [] } := by
  have hn : ∀ skill ∈ ([] : List Skill), skill.Admitted := fun _ h => absurd h not_mem_nil
  unfold unregisterSkillHandlers
  split
  · next bus loader hb hl =>
    have ha := (h.agrees bus loader hb hl).unregister h.admitted
    refine ⟨nodup_nil, hn, Nat.zero_le _, ?_, ?_, ?_⟩
    · intro bus' loader' hb' hl'
      cases hb'
      cases hl'
      exact ha
    all_goals
      intro hc
      cases hc
  · next bus hb hl =>
    obtain ⟨-, hs, hh⟩ := h.unbuilt hl
    simp only [skillHandlers, hb] at hh
    refine ⟨nodup_nil, hn, Nat.zero_le _, ?_, ?_, ?_⟩
    · intro bus' loader' _ hl'
      change rt.skillLoader = some loader' at hl'
      rw [hl] at hl'
      cases hl'
    · intro _
      refine ⟨rfl, rfl, ?_⟩
      change (bus.unsubscribeAll rt.skillSubscriptions).skillHandlers = []
      rw [hs]
      exact hh
    · intro hc
      cases hc
  · next hb =>
    have hl := h.ordered hb
    refine ⟨nodup_nil, hn, Nat.zero_le _, ?_, ?_, fun _ => hl⟩
    · intro bus' loader' hb' _
      change rt.eventBus = some bus' at hb'
      rw [hb] at hb'
      cases hb'
    · intro _
      refine ⟨rfl, rfl, ?_⟩
      simp only [skillHandlers, hb]

theorem Sound.step {rt' : SkillRuntime} (h : rt.Sound) (ht : rt.step call = some rt') :
    rt'.Sound := by
  have hr : (rt.entering call).map
      (fun entered => (entered.1.reloadSkills entered.2.1 entered.2.2).2) = some rt' →
      rt'.Sound := by
    intro hm
    obtain ⟨⟨entered, disk, refuseUnresolved⟩, he, rfl⟩ := map_eq_some_iff.mp hm
    exact (h.entering he).1.reloadSkills disk refuseUnresolved
  cases call with
  | eventPath =>
    unfold SkillRuntime.step at ht
    dsimp only at ht
    split_ifs at ht with hb
    cases ht
    have hl := h.ordered hb
    obtain ⟨hload, hs, -⟩ := h.unbuilt hl
    refine ⟨h.names, h.admitted, h.budget, ?_, fun _ => ⟨hload, hs, rfl⟩, ?_⟩
    · intro bus loader _ hl'
      change rt.skillLoader = some loader at hl'
      rw [hl] at hl'
      cases hl'
    · intro hc
      cases hc
  | stageSkills disk skillsDir selection | reloadSkills disk refuseUnresolved => exact hr ht
  | subscribe sensorType id =>
    obtain ⟨bus, hb, rfl⟩ := map_eq_some_iff.mp ht
    exact h.withBus hb (EventBus.skillHandlers_subscribe_other bus sensorType id)
  | unsubscribe sensorType id =>
    obtain ⟨bus, hb, rfl⟩ := map_eq_some_iff.mp ht
    exact h.withBus hb (EventBus.skillHandlers_unsubscribe_other bus sensorType id)
  | stop =>
    cases ht
    exact h.stopped

theorem sound_of_run {calls : List SkillCall} (hr : run step initial calls = some rt) : rt.Sound :=
  run_invariant (fun _ _ _ h hs => h.step hs) Sound.initial hr

end SkillRuntime

end SkillReload

end OriRuntime
