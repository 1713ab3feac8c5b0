import OriRuntime.SkillSelection

/-!
# The handlers of the loaded skills

Registering a skill puts one handler on the event bus for each of its triggers and distinct sensor
types, adds it to the coordinator's discovery set and charges the loader; unregistering removes the
handlers it is given, empties the discovery set when there are any, and credits the loader.
-/

namespace OriRuntime

open List

namespace SkillReload

/-! ### The event bus -/

/-- A subscriber: the closure made for one trigger of a skill, known by its identity, or one that
is not a skill's. -/
inductive Handler
  | skill (id : ℕ) (skill : Skill) (trigger : Trigger)
  | other (id : ℕ)
  deriving DecidableEq

def Handler.isSkill : Handler → Bool
  | skill _ _ _ => true
  | other _ => false

abbrev EventBus := Dict String (List Handler)

namespace EventBus

def handlers (bus : EventBus) (sensorType : String) : List Handler :=
  (bus.get? sensorType).getD []

def subscribe (bus : EventBus) (sensorType : String) (handler : Handler) : EventBus :=
  bus.set sensorType (bus.handlers sensorType ++ [handler])

def unsubscribe (bus : EventBus) (sensorType : String) (handler : Handler) : EventBus :=
  if handler ∈ bus.handlers sensorType then
    bus.set sensorType ((bus.handlers sensorType).erase handler)
  else bus

def subscriptions (bus : EventBus) : List (String × Handler) :=
  bus.items.flatMap fun item => item.2.map fun handler => (item.1, handler)

def skillHandlers (bus : EventBus) : List (String × Handler) :=
  bus.subscriptions.filter (·.2.isSkill)

theorem count_subscriptions (bus : EventBus) (sensorType : String) (handler : Handler) :
    bus.subscriptions.count (sensorType, handler) = (bus.handlers sensorType).count handler := by
  obtain ⟨items, hd⟩ := bus
  unfold subscriptions handlers
  induction items with
  | nil => rfl
  | cons item items ih =>
    obtain ⟨sensorType', ha'⟩ := item
    obtain ⟨hn, hn'⟩ := nodup_cons.mp hd
    have hr := ih hn'
    rw [flatMap_cons, count_append]
    by_cases hs : sensorType' = sensorType
    · subst hs
      have ho : Dict.get? ⟨items, hn'⟩ sensorType' = none := Dict.get?_eq_none_iff.mpr hn
      have hh : Dict.get? ⟨(sensorType', ha') :: items, hd⟩ sensorType' =
          some ha' := Dict.get?_eq_some_iff.mpr mem_cons_self
      rw [ho] at hr
      rw [hh, hr]
      have hi : Function.Injective fun h : Handler => (sensorType', h) :=
        fun _ _ h => congrArg Prod.snd h
      simp [count_map_of_injective _ _ hi]
    · have hskip : Dict.get? ⟨(sensorType', ha') :: items, hd⟩ sensorType =
          Dict.get? ⟨items, hn'⟩ sensorType := by
        simp only [Dict.get?, List.find?_cons, decide_eq_false hs]
      have hzero : (ha'.map fun h => (sensorType', h)).count (sensorType, handler) = 0 := by
        refine count_eq_zero.mpr fun hm => ?_
        obtain ⟨h, -, heq⟩ := mem_map.mp hm
        exact hs (congrArg Prod.fst heq)
      rw [hzero, hskip, Nat.zero_add]
      exact hr

theorem handlers_set (bus : EventBus) (sensorType sensorType' : String) (hs : List Handler) :
    EventBus.handlers (bus.set sensorType hs) sensorType' =
      if sensorType' = sensorType then hs else bus.handlers sensorType' := by
  unfold handlers
  rw [Dict.get?_set]
  split_ifs <;> rfl

theorem subscriptions_subscribe (bus : EventBus) (sensorType : String) (handler : Handler) :
    (bus.subscribe sensorType handler).subscriptions.Perm
      (bus.subscriptions ++ [(sensorType, handler)]) := by
  refine perm_iff_count.mpr fun entry => ?_
  obtain ⟨sensorType', ha'⟩ := entry
  rw [count_append, count_subscriptions, count_subscriptions, subscribe, handlers_set]
  split_ifs with hs
  · subst hs
    simp [count_append, count_singleton, Prod.ext_iff]
  · simp [Prod.ext_iff, Ne.symm hs]

theorem subscriptions_unsubscribe (bus : EventBus) (sensorType : String) (handler : Handler) :
    (bus.unsubscribe sensorType handler).subscriptions.Perm
      (bus.subscriptions.erase (sensorType, handler)) := by
  refine perm_iff_count.mpr fun entry => ?_
  obtain ⟨sensorType', ha'⟩ := entry
  rw [count_erase, count_subscriptions, count_subscriptions]
  by_cases hm : handler ∈ bus.handlers sensorType
  · rw [unsubscribe, if_pos hm, handlers_set]
    by_cases hs : sensorType' = sensorType
    · subst hs
      simp [count_erase]
    · simp [hs, Ne.symm hs]
  · rw [unsubscribe, if_neg hm]
    by_cases hs : (sensorType, handler) = (sensorType', ha')
    · cases hs
      simp [count_eq_zero.mpr hm]
    · simp only [beq_eq_false_iff_ne.mpr hs, Bool.false_eq_true, if_false, Nat.sub_zero]

def subscribeAll (bus : EventBus) (hs : List (String × Handler)) : EventBus :=
  hs.foldl (fun bus entry => bus.subscribe entry.1 entry.2) bus

def unsubscribeAll (bus : EventBus) (hs : List (String × Handler)) : EventBus :=
  hs.foldl (fun bus entry => bus.unsubscribe entry.1 entry.2) bus

theorem subscriptions_subscribeAll (bus : EventBus) (hs : List (String × Handler)) :
    (bus.subscribeAll hs).subscriptions.Perm (bus.subscriptions ++ hs) := by
  induction hs generalizing bus with
  | nil => simp [subscribeAll]
  | cons entry hs ih =>
    have ht := (subscriptions_subscribe bus entry.1 entry.2).append_right hs
    rw [append_assoc, singleton_append] at ht
    exact (ih (bus.subscribe entry.1 entry.2)).trans ht

theorem subscriptions_unsubscribeAll (bus : EventBus) (hs : List (String × Handler)) :
    (bus.unsubscribeAll hs).subscriptions.Perm (bus.subscriptions.diff hs) := by
  induction hs generalizing bus with
  | nil => simp [unsubscribeAll]
  | cons entry hs ih =>
    rw [diff_cons]
    exact (ih (bus.unsubscribe entry.1 entry.2)).trans
      ((subscriptions_unsubscribe bus entry.1 entry.2).diff_right hs)

theorem skillHandlers_unsubscribeAll {bus : EventBus} {hs : List (String × Handler)}
    (h : bus.skillHandlers.Perm hs) : (bus.unsubscribeAll hs).skillHandlers = [] := by
  refine filter_eq_nil_iff.mpr fun entry hm hk => ?_
  have hl := count_pos_iff.mpr ((subscriptions_unsubscribeAll bus hs).mem_iff.mp hm)
  have ha : bus.subscriptions.count entry = hs.count entry := by
    rw [← h.count_eq, skillHandlers]
    exact (count_filter (p := fun e : String × Handler => e.2.isSkill) hk).symm
  rw [count_diff, ha, Nat.sub_self] at hl
  exact Nat.lt_irrefl 0 hl

theorem skillHandlers_subscribe_other (bus : EventBus) (sensorType : String) (id : ℕ) :
    (bus.subscribe sensorType (.other id)).skillHandlers.Perm bus.skillHandlers := by
  have hperm := (subscriptions_subscribe bus sensorType (.other id)).filter (·.2.isSkill)
  rw [filter_append] at hperm
  exact hperm.trans (List.Perm.of_eq (append_nil _))

theorem skillHandlers_unsubscribe_other (bus : EventBus) (sensorType : String) (id : ℕ) :
    (bus.unsubscribe sensorType (.other id)).skillHandlers.Perm bus.skillHandlers := by
  refine ((subscriptions_unsubscribe bus sensorType (.other id)).filter (·.2.isSkill)).trans ?_
  refine perm_iff_count.mpr fun entry => ?_
  by_cases hs : entry.2.isSkill = true
  · have ho : (sensorType, Handler.other id) ≠ entry := by
      rintro rfl
      cases hs
    rw [skillHandlers, count_filter (p := fun e : String × Handler => e.2.isSkill) hs,
      count_filter (p := fun e : String × Handler => e.2.isSkill) hs,
      count_erase_of_ne ho.symm]
  · have hn : ∀ l : List (String × Handler), (l.filter (·.2.isSkill)).count entry = 0 :=
      fun l => count_eq_zero.mpr fun hm => hs (mem_filter.mp hm).2
    rw [skillHandlers, hn, hn]

end EventBus

/-! ### The discovery set and the loader -/

structure SkillLoader where
  registeredSubscriptions : ℕ
  coordinator : List Skill
  deriving DecidableEq

def addSkill (skills : List Skill) (skill : Skill) : List Skill :=
  skills.filter (·.name ≠ skill.name) ++ [skill]

/-- The records a registration moves, and the identities of the handlers not yet made. -/
structure Wiring where
  eventBus : EventBus
  loader : SkillLoader
  subscriptions : List (String × Handler)
  nextHandler : ℕ

/-- One handler for each trigger and distinct sensor type, in the order of the two loops. -/
def coverage (skill : Skill) : List (Trigger × String) :=
  skill.triggers.flatMap fun trigger =>
    (uniqueSensorTypes skill.sensorsRequired).map fun sensorType => (trigger, sensorType)

def makeHandlers (skill : Skill) : ℕ → List (Trigger × String) → List (String × Handler)
  | _, [] => []
  | id, (trigger, sensorType) :: pairs =>
    (sensorType, .skill id skill trigger) :: makeHandlers skill (id + 1) pairs

inductive RegisterError
  | perSkill (skill : Skill) (cost : ℕ)
  | cumulative (skill : Skill) (cost registered : ℕ)
  deriving DecidableEq

def register (w : Wiring) (skill : Skill) : Except RegisterError Wiring :=
  if skill.subscriptionCost > maxSubscriptionsPerSkill then
    .error (.perSkill skill skill.subscriptionCost)
  else if w.loader.registeredSubscriptions + skill.subscriptionCost > maxTotalSubscriptions then
    .error (.cumulative skill skill.subscriptionCost w.loader.registeredSubscriptions)
  else
    let subscriptions := makeHandlers skill w.nextHandler (coverage skill)
    .ok { eventBus := w.eventBus.subscribeAll subscriptions
          loader :=
            { coordinator := addSkill w.loader.coordinator skill
              registeredSubscriptions :=
                w.loader.registeredSubscriptions + subscriptions.length }
          subscriptions := w.subscriptions ++ subscriptions
          nextHandler := w.nextHandler + subscriptions.length }

/-- The loop over the skills loaded; an error leaves what was registered before it. -/
def registerAll (w : Wiring) : List Skill → Wiring × Option RegisterError
  | [] => (w, none)
  | skill :: skills =>
    match register w skill with
    | .ok w => registerAll w skills
    | .error e => (w, some e)

def unregister (w : Wiring) : Wiring :=
  { w with
    loader :=
      { coordinator := if w.subscriptions = [] then w.loader.coordinator else []
        registeredSubscriptions := w.loader.registeredSubscriptions - w.subscriptions.length }
    eventBus := w.eventBus.unsubscribeAll w.subscriptions
    subscriptions := [] }

/-! ### What a registration leaves -/

/-- The skill, the trigger and the sensor type a subscription is for. -/
def covers : String × Handler → Option (Skill × Trigger × String)
  | (sensorType, .skill _ skill trigger) => some (skill, trigger, sensorType)
  | (_, .other _) => none

/-- One for each skill, trigger and distinct sensor type. -/
def coverageOf (skills : List Skill) : List (Skill × Trigger × String) :=
  skills.flatMap fun skill => (coverage skill).map fun pair => (skill, pair.1, pair.2)

theorem length_coverage (skill : Skill) : (coverage skill).length = skill.subscriptionCost := by
  simp [coverage, Skill.subscriptionCost, length_flatMap]

theorem length_coverageOf (skills : List Skill) :
    (coverageOf skills).length = (skills.map Skill.subscriptionCost).sum := by
  simp [coverageOf, length_flatMap, length_coverage]

theorem map_covers_makeHandlers (skill : Skill) (id : ℕ) (pairs : List (Trigger × String)) :
    (makeHandlers skill id pairs).map covers =
      pairs.map fun pair => some (skill, pair.1, pair.2) := by
  induction pairs generalizing id with
  | nil => rfl
  | cons pair pairs ih =>
    simp only [makeHandlers, map_cons, ih, covers]

theorem isSkill_of_covers {entry : String × Handler} {c : Skill × Trigger × String}
    (h : covers entry = some c) : entry.2.isSkill = true := by
  obtain ⟨sensorType, handler⟩ := entry
  cases handler with
  | skill id skill trigger => rfl
  | other id => cases h

/-- The four records agree on the skills `loaded`: its handlers are the skill handlers on the bus
and the subscriptions held, there is one for each of its triggers and distinct sensor types, they
are what the loader is charged for, and its skills are the discovery set. -/
structure Wiring.Agrees (w : Wiring) (loaded : List Skill) : Prop where
  onBus : w.eventBus.skillHandlers.Perm w.subscriptions
  covered : w.subscriptions.map covers = (coverageOf loaded).map some
  charged : w.loader.registeredSubscriptions = w.subscriptions.length
  discovered : w.loader.coordinator = loaded

variable {loaded skills : List Skill} {w : Wiring} {skill : Skill}

theorem Wiring.Agrees.length_eq (h : w.Agrees loaded) :
    w.subscriptions.length = (loaded.map Skill.subscriptionCost).sum := by
  rw [← length_coverageOf]
  simpa using congrArg List.length h.covered

theorem addSkill_of_new (h : skill.name ∉ skills.map Skill.name) :
    addSkill skills skill = skills ++ [skill] := by
  have hkeep : skills.filter (·.name ≠ skill.name) = skills := by
    refine filter_eq_self.mpr fun other ho => ?_
    refine decide_eq_true fun hn => h ?_
    exact hn ▸ mem_map_of_mem ho
  rw [addSkill, hkeep]

theorem Wiring.Agrees.register (h : w.Agrees loaded) (hs : skill.Admitted)
    (hn : skill.name ∉ loaded.map Skill.name)
    (hfits : ((loaded ++ [skill]).map Skill.subscriptionCost).sum ≤ maxTotalSubscriptions) :
    ∃ w', SkillReload.register w skill = .ok w' ∧ w'.Agrees (loaded ++ [skill]) := by
  have hl := h.length_eq
  rw [map_append, sum_append, map_singleton, sum_singleton, ← hl, ← h.charged] at hfits
  unfold SkillReload.register
  rw [if_neg (Nat.not_lt_of_le hs.bounded), if_neg (Nat.not_lt_of_le hfits)]
  refine ⟨_, rfl, ?_, ?_, ?_, ?_⟩
  · have ha : ∀ entry ∈ makeHandlers skill w.nextHandler (coverage skill),
        entry.2.isSkill = true := by
      intro entry he
      have hc := mem_map_of_mem (f := covers) he
      rw [map_covers_makeHandlers] at hc
      obtain ⟨pair, -, hp⟩ := mem_map.mp hc
      exact isSkill_of_covers hp.symm
    have hperm := (w.eventBus.subscriptions_subscribeAll
      (makeHandlers skill w.nextHandler (coverage skill))).filter (·.2.isSkill)
    rw [filter_append, filter_eq_self.mpr ha] at hperm
    exact hperm.trans (h.onBus.append_right _)
  · rw [map_append, h.covered, map_covers_makeHandlers, coverageOf, coverageOf,
      flatMap_append, map_append, flatMap_singleton, map_map]
    rfl
  · rw [length_append, h.charged]
  · rw [h.discovered]
    exact addSkill_of_new hn

theorem Wiring.Agrees.registerAll (h : w.Agrees loaded) (hk : ∀ skill ∈ skills, skill.Admitted)
    (hn : ((loaded ++ skills).map Skill.name).Nodup)
    (hfits : ((loaded ++ skills).map Skill.subscriptionCost).sum ≤ maxTotalSubscriptions) :
    ∃ w', SkillReload.registerAll w skills = (w', none) ∧ w'.Agrees (loaded ++ skills) := by
  induction skills generalizing w loaded with
  | nil => exact ⟨w, rfl, by rwa [append_nil]⟩
  | cons skill skills ih =>
    rw [append_cons] at hn hfits ⊢
    have he : skill.name ∉ loaded.map Skill.name := by
      intro hm
      have hh := hn
      rw [map_append, map_append] at hh
      exact (nodup_append.mp (nodup_append.mp hh).1).2.2 _ hm _ (mem_map_of_mem mem_cons_self) rfl
    have hh : ((loaded ++ [skill]).map Skill.subscriptionCost).sum ≤ maxTotalSubscriptions := by
      rw [map_append, sum_append] at hfits
      omega
    obtain ⟨w', hr, hw'⟩ := h.register (hk skill mem_cons_self) he hh
    obtain ⟨w'', hrs, hw''⟩ := ih hw' (fun s hs => hk s (mem_cons_of_mem _ hs)) hn hfits
    refine ⟨w'', ?_, hw''⟩
    simp only [SkillReload.registerAll, hr]
    exact hrs

theorem Wiring.Agrees.unregister (h : w.Agrees loaded) (hl : ∀ skill ∈ loaded, skill.Admitted) :
    (SkillReload.unregister w).Agrees [] := by
  refine ⟨?_, rfl, ?_, ?_⟩
  · rw [SkillReload.unregister]
    dsimp only
    rw [EventBus.skillHandlers_unsubscribeAll h.onBus]
  · rw [SkillReload.unregister]
    dsimp only
    rw [h.charged, Nat.sub_self, length_nil]
  · rw [SkillReload.unregister]
    dsimp only
    split_ifs with hn
    · -- with nothing to remove there is no skill: each is charged for at least one handler
      rw [h.discovered]
      refine eq_nil_iff_forall_not_mem.mpr fun skill hs => ?_
      have hcost := single_le_sum (fun _ _ => Nat.zero_le _) _
        (mem_map_of_mem (f := Skill.subscriptionCost) hs)
      rw [← h.length_eq, hn] at hcost
      exact absurd (hl skill hs).positive (Nat.not_lt_of_le hcost)
    · rfl

end SkillReload

end OriRuntime
