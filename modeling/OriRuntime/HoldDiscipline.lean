import OriRuntime.DispatchHolds

/-!
# At most one live plan of a trigger

`Held` is what every step keeps of the plans and the in-flight set; `Phased` relates a plan to the
phase of its event. A trigger's cooldown is charged only while its own plan holds it, so what a plan
found when it took its hold still stands when it is scheduled.
-/

namespace OriRuntime

open List Option

open Execution

variable {site : Site} {s s' : Coordinator} {p q : TriggerPlan} {i j : ℕ}

namespace TriggerPlan

/-- What every plan keeps, against the cooldowns charged so far. -/
structure Sound (site : Site) (fired : Dict (String × String) ℕ) (p : TriggerPlan) : Prop where
  counted : p.taken = p.released + if p.holdsInFlight then 1 else 0
  once : p.taken ≤ 1
  limits : p.holdsInFlight = true → p.limited = true
  cooldown : p.cooldownSeconds = site.cooldownFor p.skillName p.triggerName
  turn : p.limited = true → p.remainderHeld = false → p.taken = 1
  running : p.scheduled = true → p.charged = false → p.limited = true → p.holdsInFlight = true
  quiet : p.scheduled = false → ∀ a ∈ p.actions, a.tierDGranted = false → a.outcome = .pending
  waits : p.holdsInFlight = true → inCooldown fired p.heldAt p = false
  settles : p.settled = true → p.scheduled = true
  charges : p.charged = true → p.settled = true
  remainder : p.remainderHeld = true → p.scheduled = false
  refused : ∀ j a, p.actions[j]? = some a → a.tierDGranted = true → a.admitted = false →
    j ∈ p.attempted

/-- A plan as it is built from its match. -/
structure Fresh (site : Site) (p : TriggerPlan) : Prop where
  idle : p.taken = 0 ∧ p.released = 0 ∧ p.holdsInFlight = false ∧ p.remainderHeld = false
  unscheduled : p.scheduled = false ∧ p.settled = false ∧ p.charged = false
  cooldown : p.cooldownSeconds = site.cooldownFor p.skillName p.triggerName
  pending : ∀ a ∈ p.actions, a.outcome = .pending
  granted : ∀ a ∈ p.actions, a.tierDGranted = true → a.admitted = true

variable {fired : Dict (String × String) ℕ}

theorem inCooldown_congr {fired' : Dict (String × String) ℕ} {now : ℕ}
    (h : fired'.get? p.key = fired.get? p.key) :
    inCooldown fired' now p = inCooldown fired now p := by
  simp only [inCooldown, h]

theorem Sound.quiet_outcome (h : p.Sound site fired) (hs : p.scheduled = false) :
    consumesCooldown p.cooldownOutcome = false := by
  have hp : ∀ o ∈ (p.actions.filter (fun a => !a.tierDGranted)).map (·.outcome), o = .pending := by
    intro o ho
    obtain ⟨a, ha, rfl⟩ := mem_map.mp ho
    rw [mem_filter] at ha
    exact h.quiet hs a ha.1 (by simpa using ha.2)
  have hn : outcomeOrder.find? (fun candidate => decide (candidate ∈
      (p.actions.filter (fun a => !a.tierDGranted)).map (·.outcome))) = none := by
    rw [List.find?_eq_none]
    intro candidate hc hm
    have hpend := hp candidate (by simpa using hm)
    subst hpend
    exact absurd hc (by decide)
  rw [cooldownOutcome, strongestOutcome, hn]
  decide

end TriggerPlan

theorem assigned_outcome (x : PlanInput) : (assignActionTier x).outcome = .pending ∧
    ((assignActionTier x).tierDGranted = true → (assignActionTier x).admitted = true) := by
  unfold assignActionTier
  split
  · exact ⟨rfl, fun h => by cases h⟩
  split_ifs
  · exact ⟨rfl, fun h => by cases h⟩
  · exact ⟨rfl, fun _ => by simp [PlannedAction.admitted]⟩
  · split
    all_goals exact ⟨rfl, fun h => by cases h⟩

theorem fresh_planFor (site : Site) (event : ℕ) (m : RuleMatch) :
    (planFor site event m).Fresh site := by
  refine ⟨⟨rfl, rfl, rfl, rfl⟩, ⟨rfl, rfl, rfl⟩, rfl, ?_, ?_⟩
  · intro a ha
    obtain ⟨action, -, rfl⟩ := mem_map.mp ha
    exact (assigned_outcome _).1
  · intro a ha hg
    obtain ⟨action, -, rfl⟩ := mem_map.mp ha
    exact (assigned_outcome _).2 hg

theorem planFor_grants {event : ℕ} {m : RuleMatch} (h : (planFor site event m).grantsTierD = true) :
    isTierD m = true := by
  simp only [TriggerPlan.grantsTierD, planFor, List.any_map, List.any_eq_true] at h
  obtain ⟨action, -, hr⟩ := h
  have hD : ∀ x : PlanInput, (assignActionTier x).tierDGranted = true →
      upper x.incidentTier = "D" := by
    intro x hx
    unfold assignActionTier at hx
    split at hx
    · cases hx
    simp only at hx
    split_ifs at hx with hn hg
    · exact ((granted_iff x).mp hg).incident
    · split at hx <;> cases hx
  have hi := hD _ hr
  simp only [upper_upper] at hi
  split_ifs at hi with he
  · exact absurd hi (by decide)
  · simp [isTierD, hi]

namespace Coordinator

/-- The plans and the in-flight set agree: one live holder for each key held, and each plan sound. -/
structure Held (site : Site) (s : Coordinator) : Prop where
  plan : ∀ (i : ℕ) (p : TriggerPlan), s.plans[i]? = some p → p.Sound site s.fired
  held : ∀ (i : ℕ) (p : TriggerPlan), s.plans[i]? = some p → p.holdsInFlight = true → p.key ∈ s.inFlight
  exact : ∀ k ∈ s.inFlight, ∃ (i : ℕ) (p : TriggerPlan), s.plans[i]? = some p ∧
    p.holdsInFlight = true ∧ p.key = k
  distinct : ∀ (i j : ℕ) (p q : TriggerPlan), s.plans[i]? = some p → s.plans[j]? = some q → p.holdsInFlight = true →
    q.holdsInFlight = true → p.key = q.key → i = j

/-! ### Holding -/

/-- `q` is `p` with its hold decided. -/
structure Marked (p q : TriggerPlan) : Prop where
  event : q.event = p.event
  key : q.key = p.key
  actions : q.actions = p.actions
  released : q.released = p.released
  scheduled : q.scheduled = p.scheduled

theorem holdPlan_plans (s : Coordinator) (p : TriggerPlan) :
    ∃ kept, (s.holdPlan p).plans = s.plans ++ kept ∧ (∀ q ∈ kept, Marked p q) ∧
      (p.grantsTierD = true → ∃ q ∈ kept, Marked p q) := by
  unfold holdPlan
  split_ifs with hl hw hg
  · exact ⟨_, rfl, by simpa using ⟨rfl, rfl, rfl, rfl, rfl⟩,
      fun _ => ⟨_, mem_singleton_self _, ⟨rfl, rfl, rfl, rfl, rfl⟩⟩⟩
  · exact ⟨[], by simp, nofun, fun h => absurd h hg⟩
  all_goals exact ⟨_, rfl, by simpa using ⟨rfl, rfl, rfl, rfl, rfl⟩,
      fun _ => ⟨_, mem_singleton_self _, ⟨rfl, rfl, rfl, rfl, rfl⟩⟩⟩

theorem holdPlan_rest (s : Coordinator) (p : TriggerPlan) : (s.holdPlan p).fired = s.fired ∧
    (s.holdPlan p).now = s.now ∧ (s.holdPlan p).runs = s.runs := by
  unfold holdPlan
  split_ifs <;> exact ⟨rfl, rfl, rfl⟩

theorem holdInFlight_plans (s : Coordinator) (plans : List TriggerPlan) :
    ∃ kept, (s.holdInFlight plans).plans = s.plans ++ kept ∧ (∀ q ∈ kept, ∃ p ∈ plans, Marked p q) ∧
      ∀ p ∈ plans, p.grantsTierD = true → ∃ q ∈ kept, Marked p q := by
  induction plans generalizing s with
  | nil => exact ⟨[], by simp [holdInFlight], nofun, nofun⟩
  | cons p plans ih =>
    obtain ⟨kept, hk, ha, hgran⟩ := s.holdPlan_plans p
    obtain ⟨rest, hr, hrestMarked, hrestGrants⟩ := ih (s.holdPlan p)
    refine ⟨kept ++ rest, ?_, ?_, ?_⟩
    · change ((s.holdPlan p).holdInFlight plans).plans = _
      rw [hr, hk, append_assoc]
    · intro q hq
      obtain hq | hq := mem_append.mp hq
      · exact ⟨p, mem_cons_self, ha q hq⟩
      · obtain ⟨p', hp', hm⟩ := hrestMarked q hq
        exact ⟨p', mem_cons_of_mem _ hp', hm⟩
    · intro p' hp' hg
      obtain rfl | hp' := mem_cons.mp hp'
      · obtain ⟨q, hq, hm⟩ := hgran hg
        exact ⟨q, mem_append_left _ hq, hm⟩
      · obtain ⟨q, hq, hm⟩ := hrestGrants p' hp' hg
        exact ⟨q, mem_append_right _ hq, hm⟩

theorem holdInFlight_rest (s : Coordinator) (plans : List TriggerPlan) :
    (s.holdInFlight plans).fired = s.fired ∧ (s.holdInFlight plans).now = s.now ∧
      (s.holdInFlight plans).runs = s.runs := by
  induction plans generalizing s with
  | nil => exact ⟨rfl, rfl, rfl⟩
  | cons p plans ih =>
    obtain ⟨hf, hn, hruns⟩ := ih (s.holdPlan p)
    obtain ⟨hf', hn', hruns'⟩ := s.holdPlan_rest p
    exact ⟨hf.trans hf', hn.trans hn', hruns.trans hruns'⟩

variable {l : List TriggerPlan} {selected : ℕ → TriggerPlan → Bool} {k : String × String} {now : ℕ}

theorem getElem?_append_singleton (h : (l ++ [q])[i]? = some p) :
    l[i]? = some p ∨ i = l.length ∧ p = q := by
  rw [List.getElem?_append] at h
  split_ifs at h with hl
  · exact .inl h
  right
  have hzero : i - l.length = 0 := by
    by_contra hn
    simp [hn] at h
  rw [hzero] at h
  exact ⟨by omega, (some.inj h).symm⟩

theorem Held.append (h : Held site s) (hq : q.Sound site s.fired) (hidle : q.holdsInFlight = false) :
    Held site { s with plans := s.plans ++ [q] } where
  plan i p hp := by
    obtain hold | ⟨-, rfl⟩ := getElem?_append_singleton hp
    · exact h.plan i p hold
    · exact hq
  held i p hp hh := by
    obtain hold | ⟨-, rfl⟩ := getElem?_append_singleton hp
    · exact h.held i p hold hh
    · rw [hidle] at hh
      cases hh
  exact k hk := by
    obtain ⟨i, p, hp, hr⟩ := h.exact k hk
    exact ⟨i, p, by rw [List.getElem?_append_left (List.getElem?_eq_some_iff.mp hp).1, hp], hr⟩
  distinct i j p q' hp hq' hh hh' he := by
    obtain hold | ⟨-, rfl⟩ := getElem?_append_singleton hp
    · obtain ho' | ⟨-, rfl⟩ := getElem?_append_singleton hq'
      · exact h.distinct i j p q' hold ho' hh hh' he
      · rw [hidle] at hh'
        cases hh'
    · rw [hidle] at hh
      cases hh

theorem Held.hold (h : Held site s) (hq : q.Sound site s.fired) (hd : q.holdsInFlight = true)
    (hf : q.key ∉ s.inFlight) :
    Held site { s with inFlight := insert q.key s.inFlight, plans := s.plans ++ [q] } where
  plan i p hp := by
    obtain hold | ⟨-, rfl⟩ := getElem?_append_singleton hp
    · exact h.plan i p hold
    · exact hq
  held i p hp hh := by
    obtain hold | ⟨-, rfl⟩ := getElem?_append_singleton hp
    · exact Finset.mem_insert_of_mem (h.held i p hold hh)
    · exact Finset.mem_insert_self _ _
  exact k hk := by
    obtain rfl | hk := Finset.mem_insert.mp hk
    · exact ⟨s.plans.length, q, by simp, hd, rfl⟩
    · obtain ⟨i, p, hp, hr⟩ := h.exact k hk
      exact ⟨i, p, by rw [List.getElem?_append_left (List.getElem?_eq_some_iff.mp hp).1, hp], hr⟩
  distinct i j p q' hp hq' hh hh' he := by
    obtain hold | ⟨hi, rfl⟩ := getElem?_append_singleton hp
    · obtain ho' | ⟨-, rfl⟩ := getElem?_append_singleton hq'
      · exact h.distinct i j p q' hold ho' hh hh' he
      · exact absurd (he ▸ h.held i p hold hh) hf
    · obtain ho' | ⟨hj, -⟩ := getElem?_append_singleton hq'
      · exact absurd (he ▸ h.held j q' ho' hh') hf
      · rw [hi, hj]

theorem Held.holdPlan (h : Held site s) (hp : p.Fresh site) : Held site (s.holdPlan p) := by
  obtain ⟨⟨ht, hre, hidle, hm⟩, ⟨hs, hst, hh⟩, hc, he, hgr⟩ := hp
  have hr : ∀ j a, p.actions[j]? = some a → a.tierDGranted = true → a.admitted = false →
      j ∈ p.attempted := by
    intro j a ha hg hn
    rw [hgr a (mem_of_getElem? ha) hg] at hn
    cases hn
  unfold Coordinator.holdPlan
  split_ifs with hi hw hgran
  · refine h.append ?_ hidle
    refine ⟨?_, ?_, ?_, hc, nofun, ?_, fun _ a ha _ => he a ha, ?_, ?_, ?_, fun _ => hs, hr⟩
    all_goals simp [*]
  · exact h
  · rw [not_or, Bool.not_eq_true] at hw
    refine h.hold (q := { p with holdsInFlight := true, heldAt := s.now, taken := p.taken + 1 })
      ?_ rfl hw.1
    refine ⟨?_, ?_, fun _ => hi, hc, ?_, fun _ _ _ => rfl,
      fun _ a ha _ => he a ha, fun _ => hw.2, ?_, ?_, ?_, hr⟩
    all_goals simp [*]
  · refine h.append ?_ hidle
    refine ⟨?_, ?_, ?_, hc, fun hl => absurd hl hi, ?_, fun _ a ha _ => he a ha, ?_, ?_, ?_, ?_, hr⟩
    all_goals simp [*]

variable {plans : List TriggerPlan} {event : ℕ}

theorem Held.holdInFlight (h : Held site s) (hp : ∀ p ∈ plans, p.Fresh site) :
    Held site (s.holdInFlight plans) := by
  induction plans generalizing s with
  | nil => exact h
  | cons p plans ih =>
    exact ih (h.holdPlan (hp p mem_cons_self)) (fun q hq => hp q (mem_cons_of_mem _ hq))

/-! ### Changing plans in place -/

variable {f : ℕ → TriggerPlan → TriggerPlan} {fired : Dict (String × String) ℕ} {t : Coordinator}
  {a : PlannedAction} {matched : List RuleMatch}

theorem getElem?_mapIdx_eq (h : (l.mapIdx f)[i]? = some q) : ∃ p, l[i]? = some p ∧ f i p = q := by
  rw [List.getElem?_mapIdx] at h
  exact map_eq_some_iff.mp h

theorem Held.mapIdx (h : Held site s) (he : ∀ i p, s.plans[i]? = some p → (f i p).key = p.key)
    (hh : ∀ i p, s.plans[i]? = some p → (f i p).holdsInFlight = p.holdsInFlight)
    (hs : ∀ i p, s.plans[i]? = some p → (f i p).Sound site s.fired) :
    Held site { s with plans := s.plans.mapIdx f } where
  plan i q hq := by
    obtain ⟨p, hp, rfl⟩ := getElem?_mapIdx_eq hq
    exact hs i p hp
  held i q hq hd := by
    obtain ⟨p, hp, rfl⟩ := getElem?_mapIdx_eq hq
    rw [he i p hp]
    exact h.held i p hp (by rwa [hh i p hp] at hd)
  exact k hk := by
    obtain ⟨i, p, hp, hd, hpk⟩ := h.exact k hk
    refine ⟨i, f i p, ?_, (hh i p hp).trans hd, (he i p hp).trans hpk⟩
    simp only [List.getElem?_mapIdx, hp, map_some]
  distinct i j q q' hq hq' hd hh' heq := by
    obtain ⟨p, hp, rfl⟩ := getElem?_mapIdx_eq hq
    obtain ⟨p', hp', rfl⟩ := getElem?_mapIdx_eq hq'
    rw [hh i p hp] at hd
    rw [hh j p' hp'] at hh'
    rw [he i p hp, he j p' hp'] at heq
    exact h.distinct i j p p' hp hp' hd hh' heq

theorem Held.set (h : Held site s) (hp : s.plans[i]? = some p) (hk : q.key = p.key)
    (hh : q.holdsInFlight = p.holdsInFlight) (hq : q.Sound site s.fired) :
    Held site { s with plans := s.plans.set i q } := by
  have hs : s.plans.set i q = s.plans.mapIdx (fun j p' => if j = i then q else p') := by
    apply ext_getElem?
    intro j
    by_cases hi : i = j
    · subst hi
      simp [(List.getElem?_eq_some_iff.mp hp).1]
    · simp [hi, Ne.symm hi]
  rw [hs]
  refine h.mapIdx ?_ ?_ ?_
  · intro j p' hp'
    by_cases hj : j = i
    · subst hj
      obtain rfl := mem_unique hp hp'
      rw [if_pos rfl, hk]
    · rw [if_neg hj]
  · intro j p' hp'
    by_cases hj : j = i
    · subst hj
      obtain rfl := mem_unique hp hp'
      rw [if_pos rfl, hh]
    · rw [if_neg hj]
  · intro j p' hp'
    split_ifs with hj
    · exact hq
    · exact h.plan j p' hp'

theorem scheduleRemainder_sound (h : p.Sound site fired) (hu : p.released = 0) :
    p.scheduleRemainder.Sound site fired := by
  unfold TriggerPlan.scheduleRemainder
  split_ifs with hw
  · exact h
  rw [not_or, Bool.not_eq_true] at hw
  refine { h with running := ?_, quiet := nofun, settles := fun _ => rfl, remainder := ?_ }
  · intro _ _ hl
    have ho := h.turn hl hw.1
    have hc := h.counted
    by_contra hn
    rw [if_neg hn] at hc
    omega
  · intro hr
    rw [hw.1] at hr
    cases hr

theorem scheduleRemainder_keeps (p : TriggerPlan) : p.scheduleRemainder.key = p.key ∧
    p.scheduleRemainder.holdsInFlight = p.holdsInFlight := by
  unfold TriggerPlan.scheduleRemainder
  split_ifs <;> exact ⟨rfl, rfl⟩

theorem Held.schedule (h : Held site s)
    (hu : ∀ i p, s.plans[i]? = some p → selected i p = true → p.released = 0) :
    Held site (s.schedule selected) := by
  refine h.mapIdx ?_ ?_ ?_
  · intro i p _
    split_ifs
    · exact (scheduleRemainder_keeps p).1
    · rfl
  · intro i p _
    split_ifs
    · exact (scheduleRemainder_keeps p).2
    · rfl
  · intro i p hp
    split_ifs with hs
    · exact scheduleRemainder_sound (h.plan i p hp) (hu i p hp hs)
    · exact h.plan i p hp

/-! ### Releasing -/

theorem mem_foldl_erase (l : List (String × String)) (f : Finset (String × String)) :
    k ∈ l.foldl Finset.erase f ↔ k ∈ f ∧ k ∉ l := by
  induction l generalizing f with
  | nil => simp
  | cons a l ih =>
    rw [foldl_cons, ih, Finset.mem_erase, mem_cons, not_or]
    constructor
    · rintro ⟨⟨hn, hf⟩, hl⟩
      exact ⟨hf, hn, hl⟩
    · rintro ⟨hf, hn, hl⟩
      exact ⟨⟨hn, hf⟩, hl⟩

theorem mem_release_inFlight :
    k ∈ (s.release selected).inFlight ↔ k ∈ s.inFlight ∧ ¬ ∃ (i : ℕ) (p : TriggerPlan),
      s.plans[i]? = some p ∧ selected i p = true ∧ p.holdsInFlight = true ∧ p.key = k := by
  unfold Coordinator.release
  rw [mem_foldl_erase, mem_flatten]
  apply and_congr_right
  intro _
  apply not_congr
  constructor
  · rintro ⟨keys, hkeys, hk⟩
    obtain ⟨i, hi⟩ := mem_iff_getElem?.mp hkeys
    rw [List.getElem?_mapIdx] at hi
    obtain ⟨p, hp, rfl⟩ := map_eq_some_iff.mp hi
    split_ifs at hk with hs
    · rw [Bool.and_eq_true] at hs
      exact ⟨i, p, hp, hs.1, hs.2, (mem_singleton.mp hk).symm⟩
    · cases hk
  · rintro ⟨i, p, hp, hs, hh, rfl⟩
    refine ⟨[p.key], mem_iff_getElem?.mpr ⟨i, ?_⟩, mem_singleton_self _⟩
    simp [List.getElem?_mapIdx, hp, hs, hh]

theorem release_sound (h : p.Sound site fired) (hh : p.scheduled = true → p.charged = true) :
    p.release.Sound site fired := by
  unfold TriggerPlan.release
  split_ifs with hd
  · refine { h with counted := ?_, limits := nofun, running := ?_, waits := nofun }
    · have hc := h.counted
      rw [if_pos hd] at hc
      simp only [Bool.false_eq_true, if_false]
      omega
    · intro hs hu
      rw [hh hs] at hu
      cases hu
  · exact h

theorem release_keeps (p : TriggerPlan) : p.release.key = p.key ∧ p.release.event = p.event ∧
    p.release.scheduled = p.scheduled ∧ p.release.charged = p.charged ∧
    p.release.actions = p.actions ∧ p.release.attempted = p.attempted ∧
    p.release.holdsInFlight = false := by
  unfold TriggerPlan.release
  split_ifs with h
  · exact ⟨rfl, rfl, rfl, rfl, rfl, rfl, rfl⟩
  · exact ⟨rfl, rfl, rfl, rfl, rfl, rfl, by simpa using h⟩

theorem Held.release (h : Held site s) (selected : ℕ → TriggerPlan → Bool)
    (hc : ∀ i p, s.plans[i]? = some p → selected i p = true → p.scheduled = true →
      p.charged = true) : Held site (s.release selected) where
  plan i q hq := by
    obtain ⟨p, hp, rfl⟩ := getElem?_mapIdx_eq hq
    split_ifs with hs
    · exact release_sound (h.plan i p hp) (hc i p hp hs)
    · exact h.plan i p hp
  held i q hq hh := by
    obtain ⟨p, hp, rfl⟩ := getElem?_mapIdx_eq hq
    split_ifs at hh ⊢ with hs
    · rw [(release_keeps p).2.2.2.2.2.2] at hh
      cases hh
    · refine mem_release_inFlight.mpr ⟨h.held i p hp hh, ?_⟩
      rintro ⟨j, p', hp', hs', hh', he⟩
      obtain rfl := h.distinct j i p' p hp' hp hh' hh he
      obtain rfl := mem_unique hp hp'
      exact hs hs'
  exact k hk := by
    obtain ⟨hi, hf⟩ := mem_release_inFlight.mp hk
    obtain ⟨i, p, hp, hh, hpk⟩ := h.exact k hi
    have hs : ¬ selected i p = true := fun hs => hf ⟨i, p, hp, hs, hh, hpk⟩
    refine ⟨i, p, ?_, hh, hpk⟩
    simp only [Coordinator.release, List.getElem?_mapIdx, hp, map_some, if_neg hs]
  distinct i j q q' hq hq' hh hh' he := by
    obtain ⟨p, hp, rfl⟩ := getElem?_mapIdx_eq hq
    obtain ⟨p', hp', rfl⟩ := getElem?_mapIdx_eq hq'
    split_ifs at hh with hs
    · rw [(release_keeps p).2.2.2.2.2.2] at hh
      cases hh
    split_ifs at hh' with hs'
    · rw [(release_keeps p').2.2.2.2.2.2] at hh'
      cases hh'
    rw [if_neg hs, if_neg hs'] at he
    exact h.distinct i j p p' hp hp' hh hh' he

theorem Held.fire (h : Held site s) (fired : Dict (String × String) ℕ)
    (hf : ∀ (i : ℕ) (p : TriggerPlan), s.plans[i]? = some p → p.holdsInFlight = true →
      fired.get? p.key = s.fired.get? p.key) : Held site { s with fired := fired } where
  plan i p hp := by
    have hs := h.plan i p hp
    refine { hs with waits := ?_ }
    intro hh
    rw [TriggerPlan.inCooldown_congr (hf i p hp hh)]
    exact hs.waits hh
  held := h.held
  exact := h.exact
  distinct := h.distinct

theorem recordFire_other (hk : q.key ≠ p.key) :
    (recordFire now fired p).get? q.key = fired.get? q.key := by
  unfold recordFire
  split_ifs
  · exact Dict.get?_set_of_ne _ _ hk
  · rfl

theorem recordFire_quiet (h : consumesCooldown p.cooldownOutcome = false) :
    recordFire now fired p = fired := by
  unfold recordFire
  simp [h]

theorem chargeCooldowns_fired (h : Held site s) (event : ℕ) :
    (s.chargeCooldowns event).fired = s.fired := by
  have hu : ∀ p ∈ s.plans.filter (fun p => decide (p.event = event) && !p.scheduled),
      consumesCooldown p.cooldownOutcome = false := by
    intro p hp
    rw [mem_filter, Bool.and_eq_true] at hp
    obtain ⟨i, hi⟩ := mem_iff_getElem?.mp hp.1
    exact (h.plan i p hi).quiet_outcome (by simpa using hp.2.2)
  change (s.plans.filter _).foldl (recordFire s.now) s.fired = s.fired
  generalize s.plans.filter (fun p => decide (p.event = event) && !p.scheduled) = l at hu
  induction l with
  | nil => rfl
  | cons p l ih =>
    rw [foldl_cons, recordFire_quiet (hu p mem_cons_self)]
    exact ih (fun q hq => hu q (mem_cons_of_mem _ hq))

theorem Held.chargeCooldowns (h : Held site s) (event : ℕ) :
    Held site (s.chargeCooldowns event) := by
  refine Held.release (h.fire (s.chargeCooldowns event).fired ?_) _ ?_
  · intro i p _ _
    rw [chargeCooldowns_fired h event]
  · intro i p _ he hs
    simp only [Bool.and_eq_true, Bool.not_eq_true'] at he
    rw [he.2] at hs
    cases hs

/-! ### Charging a settled plan -/

theorem settlePending_sound (h : p.Sound site fired) (hs : p.settled = true) :
    p.settlePending.Sound site fired := by
  have hc := h.settles hs
  refine { h with running := nofun, quiet := ?_, charges := fun _ => hs, refused := ?_ }
  · intro hn
    rw [show p.settlePending.scheduled = p.scheduled from rfl, hc] at hn
    cases hn
  · intro j a ha hg hr
    simp only [TriggerPlan.settlePending] at ha
    split_ifs at ha with hm
    · exact h.refused j a ha hg hr
    rw [List.getElem?_map] at ha
    obtain ⟨b, hb, rfl⟩ := map_eq_some_iff.mp ha
    refine h.refused j b hb ?_ ?_
    · split_ifs at hg <;> exact hg
    · split_ifs at hr <;> exact hr

theorem recordFire_waits (h : Held site s) (hp : s.plans[i]? = some p) (hst : p.settled = true)
    (hu : p.charged = false) (hq : s.plans[j]? = some q) (hd : q.holdsInFlight = true)
    (hi : j ≠ i) :
    (recordFire s.now s.fired p.settlePending).get? q.key = s.fired.get? q.key := by
  by_cases hk : q.key = p.key
  · have hs := h.plan i p hp
    have hl := (h.plan j q hq).limits hd
    have hc := (h.plan j q hq).cooldown
    have hsk : q.skillName = p.skillName := congrArg Prod.fst hk
    have ht : q.triggerName = p.triggerName := congrArg Prod.snd hk
    have hlimi : p.limited = true := by
      simp only [TriggerPlan.limited] at hl ⊢
      rw [hc, hsk, ht, ← hs.cooldown] at hl
      exact hl
    have hh := hs.running (hs.settles hst) hu hlimi
    exact absurd (h.distinct j i q p hq hp hd hh hk) hi
  · exact recordFire_other hk

theorem Held.chargePlan (h : Held site s) (hp : s.plans[i]? = some p) (hs : p.settled = true)
    (hu : p.charged = false) : Held site (s.chargePlan i p) := by
  have he := h.set (i := i) (p := p) (q := p.settlePending) hp rfl rfl
    (settlePending_sound (h.plan i p hp) hs)
  have ht := (List.getElem?_eq_some_iff.mp hp).1
  have hre := he.release (fun j _ => decide (j = i)) (by
    intro j q hq hl _
    obtain rfl : j = i := by simpa using hl
    rw [List.getElem?_set_self ht] at hq
    cases hq
    rfl)
  refine hre.fire (recordFire s.now s.fired p.settlePending) ?_
  intro j q hq hh
  obtain ⟨r, hr, rfl⟩ := getElem?_mapIdx_eq hq
  by_cases hi : j = i
  · rw [if_pos (by simpa using hi), (release_keeps r).2.2.2.2.2.2] at hh
    cases hh
  · rw [if_neg (by simpa using hi)] at hh ⊢
    rw [List.getElem?_set_ne (Ne.symm hi)] at hr
    exact recordFire_waits h hp hs hu hr hh hi

/-! ### A plan and the phase of its event -/

/-- What a plan has reached in each phase of its event. -/
structure Fits (run : EventRun) (p : TriggerPlan) : Prop where
  discovering : run.phase ≠ .discovering
  attempting : run.phase = .attempting → p.released = 0 ∧ p.scheduled = false
  ended : run.phase = .ended → p.holdsInFlight = false ∧ (p.scheduled = true → p.charged = true)
  attempted : run.cutShort = false → run.phase ≠ .attempting → ∀ (j : ℕ) (a : PlannedAction),
    p.actions[j]? = some a → a.tierDGranted = true → j ∈ p.attempted

def Phased (s : Coordinator) : Prop :=
  ∀ (i : ℕ) (p : TriggerPlan), s.plans[i]? = some p →
    ∃ run, s.runs.get? p.event = some run ∧ Fits run p

theorem Phased.fits (h : Phased s) (hp : s.plans[i]? = some p) {run : EventRun}
    (hr : s.runs.get? p.event = some run) : Fits run p := by
  obtain ⟨run', hr', hfits⟩ := h i p hp
  obtain rfl := mem_unique hr hr'
  exact hfits

theorem Phased.set (h : Phased s) (hp : s.plans[i]? = some p) (he : q.event = p.event)
    (hfits : ∀ run, s.runs.get? p.event = some run → Fits run p → Fits run q) :
    Phased { s with plans := s.plans.set i q } := by
  intro j r hr
  obtain ⟨run, hu, hf⟩ := h i p hp
  simp only [List.getElem?_set] at hr
  split_ifs at hr with hi hl
  · cases hr
    exact ⟨run, by rw [he]; exact hu, hfits run hu hf⟩
  · exact h j r hr

theorem Phased.mapIdx (h : Phased s) (he : ∀ i p, s.plans[i]? = some p → (f i p).event = p.event)
    (hfits : ∀ (i : ℕ) (p : TriggerPlan), s.plans[i]? = some p → ∀ run,
      s.runs.get? p.event = some run → Fits run p → Fits run (f i p))
    (hl : t.plans = s.plans.mapIdx f) (hruns : t.runs = s.runs) : Phased t := by
  intro i q hq
  rw [hl] at hq
  obtain ⟨p, hp, rfl⟩ := getElem?_mapIdx_eq hq
  obtain ⟨run, hr, hf⟩ := h i p hp
  exact ⟨run, by rw [hruns, he i p hp]; exact hr, hfits i p hp run hr hf⟩

theorem Phased.setPhase (h : Phased s) {run : EventRun}
    (hfits : ∀ (i : ℕ) (p : TriggerPlan), s.plans[i]? = some p → p.event = event → Fits run p) :
    Phased (s.setPhase event run) := by
  intro i p hp
  by_cases he : p.event = event
  · refine ⟨run, ?_, hfits i p hp he⟩
    rw [he]
    exact s.runs.get?_set_self event run
  · obtain ⟨run', hr', hf⟩ := h i p hp
    exact ⟨run', (s.runs.get?_set_of_ne run he).trans hr', hf⟩

theorem Phased.holdInFlight (h : Phased s) {run : EventRun} (hr : s.runs.get? event = some run)
    (hfits : ∀ p ∈ plans, ∀ q, Marked p q → q.event = event ∧ Fits run q) :
    Phased (s.holdInFlight plans) := by
  obtain ⟨kept, hl, ha, -⟩ := s.holdInFlight_plans plans
  intro i q hq
  rw [hl] at hq
  rw [(s.holdInFlight_rest plans).2.2]
  by_cases hi : i < s.plans.length
  · rw [List.getElem?_append_left hi] at hq
    exact h i q hq
  · rw [List.getElem?_append_right (Nat.le_of_not_lt hi)] at hq
    obtain ⟨p, hp, hm⟩ := ha q (mem_of_getElem? hq)
    obtain ⟨he, hf⟩ := hfits p hp q hm
    exact ⟨run, by rw [he]; exact hr, hf⟩

/-- A step on a plan that leaves it in its event, with its actions' grants and attempts. -/
structure Carries (p q : TriggerPlan) : Prop where
  event : q.event = p.event
  key : q.key = p.key
  grants : q.actions.map (fun a => (a.action, a.tierDGranted)) =
    p.actions.map (fun a => (a.action, a.tierDGranted))
  attempted : ∀ j ∈ p.attempted, j ∈ q.attempted

theorem Carries.refl (p : TriggerPlan) : Carries p p := ⟨rfl, rfl, rfl, fun _ h => h⟩

theorem Carries.trans {r : TriggerPlan} (h : Carries p q) (h' : Carries q r) : Carries p r :=
  ⟨h'.event.trans h.event, h'.key.trans h.key, h'.grants.trans h.grants,
    fun j hj => h'.attempted j (h.attempted j hj)⟩

theorem Carries.granted (h : Carries p q) (ha : q.actions[j]? = some a) :
    ∃ b, p.actions[j]? = some b ∧ b.action = a.action ∧ b.tierDGranted = a.tierDGranted := by
  have hm := congrArg (·[j]?) h.grants
  simp only [List.getElem?_map, ha] at hm
  obtain ⟨b, hb, heq⟩ := map_eq_some_iff.mp hm.symm
  exact ⟨b, hb, congrArg Prod.fst heq, congrArg Prod.snd heq⟩

theorem carries_scheduleRemainder (p : TriggerPlan) : Carries p p.scheduleRemainder := by
  unfold TriggerPlan.scheduleRemainder
  split_ifs <;> exact ⟨rfl, rfl, rfl, fun _ h => h⟩

theorem carries_release (p : TriggerPlan) : Carries p p.release := by
  unfold TriggerPlan.release
  split_ifs <;> exact ⟨rfl, rfl, rfl, fun _ h => h⟩

theorem carries_settlePending (p : TriggerPlan) : Carries p p.settlePending := by
  refine ⟨rfl, rfl, ?_, fun _ h => h⟩
  simp only [TriggerPlan.settlePending]
  split_ifs
  · rfl
  rw [List.map_map]
  apply List.map_congr_left
  intro a _
  simp only [Function.comp_apply]
  split_ifs <;> rfl

theorem recordOutcomes_map {β : Type} (f : PlannedAction → β)
    (hf : ∀ a o, f { a with outcome := o } = f a) (actions : List PlannedAction)
    (outcomes : List DispatchOutcome) :
    (recordOutcomes actions outcomes).map f = actions.map f := by
  induction actions, outcomes using recordOutcomes.induct with
  | case1 a as o os ih =>
    simp only [recordOutcomes, map_cons, ih]
    split_ifs
    · rfl
    · rw [hf]
  | case2 as => cases as <;> rfl
  | case3 os _ => cases os <;> rfl

theorem attemptAnswer_grant (a : PlannedAction) (taken : String) :
    (attemptAnswer a taken).action = a.action ∧
      (attemptAnswer a taken).tierDGranted = a.tierDGranted := by
  unfold attemptAnswer
  split_ifs <;> exact ⟨rfl, rfl⟩

theorem carries_answer (ha : p.actions[j]? = some a) (taken : String) :
    Carries p { p with actions := p.actions.set j (attemptAnswer a taken) } := by
  refine ⟨rfl, rfl, ?_, fun _ h => h⟩
  obtain ⟨hc, hg⟩ := attemptAnswer_grant a taken
  obtain ⟨hl, rfl⟩ := List.getElem?_eq_some_iff.mp ha
  simp only [map_set, hc, hg]
  rw [← getElem_map (fun a : PlannedAction => (a.action, a.tierDGranted)), set_getElem_self]
  rwa [length_map]

theorem Fits.carries {run : EventRun} (h : Fits run p) (hq : Carries p q)
    (ht : run.phase = .attempting → q.released = 0 ∧ q.scheduled = false)
    (he : run.phase = .ended → q.holdsInFlight = false ∧
      (q.scheduled = true → q.charged = true)) : Fits run q := by
  refine ⟨h.discovering, ht, he, ?_⟩
  intro hw hp j a ha hr
  obtain ⟨b, hb, -, hg⟩ := hq.granted ha
  exact hq.attempted j (h.attempted hw hp j b hb (hg.trans hr))

/-! ### Steps -/

/-- Every plan of `s` is carried into `t`. -/
def Grows (s t : Coordinator) : Prop :=
  ∀ (i : ℕ) (p : TriggerPlan), s.plans[i]? = some p → ∃ q, t.plans[i]? = some q ∧ Carries p q

theorem Grows.trans {r : Coordinator} (h : Grows r s) (h' : Grows s t) : Grows r t := by
  intro i p hp
  obtain ⟨q, hq, hc⟩ := h i p hp
  obtain ⟨q', hq', hc'⟩ := h' i q hq
  exact ⟨q', hq', hc.trans hc'⟩

theorem grows_of_plans (h : t.plans = s.plans) : Grows s t :=
  fun i p hp => ⟨p, by rw [h]; exact hp, Carries.refl p⟩

theorem grows_mapIdx (h : t.plans = s.plans.mapIdx f) (hf : ∀ i p, Carries p (f i p)) :
    Grows s t := by
  intro i p hp
  exact ⟨f i p, by rw [h, List.getElem?_mapIdx, hp, map_some], hf i p⟩

theorem grows_set (hp : s.plans[i]? = some p) (h : t.plans = s.plans.set i q) (hq : Carries p q) :
    Grows s t := by
  intro j r hr
  by_cases hi : i = j
  · subst hi
    obtain rfl := mem_unique hp hr
    refine ⟨q, ?_, hq⟩
    rw [h, List.getElem?_set_self (List.getElem?_eq_some_iff.mp hp).1]
  · refine ⟨r, ?_, Carries.refl r⟩
    rw [h, List.getElem?_set_ne hi]
    exact hr

theorem grows_holdInFlight (s : Coordinator) (plans : List TriggerPlan) :
    Grows s (s.holdInFlight plans) := by
  obtain ⟨kept, hl, -, -⟩ := s.holdInFlight_plans plans
  intro i p hp
  refine ⟨p, ?_, Carries.refl p⟩
  rw [hl, List.getElem?_append_left (List.getElem?_eq_some_iff.mp hp).1]
  exact hp

theorem grows_schedule (s : Coordinator) (selected : ℕ → TriggerPlan → Bool) :
    Grows s (s.schedule selected) := by
  refine grows_mapIdx rfl ?_
  intro i p
  split_ifs
  · exact carries_scheduleRemainder p
  · exact Carries.refl p

theorem grows_release (s : Coordinator) (selected : ℕ → TriggerPlan → Bool) :
    Grows s (s.release selected) := by
  refine grows_mapIdx rfl ?_
  intro i p
  split_ifs
  · exact carries_release p
  · exact Carries.refl p

theorem grows_chargeCooldowns (s : Coordinator) (event : ℕ) : Grows s (s.chargeCooldowns event) :=
  (grows_of_plans rfl).trans (grows_release _ _)

theorem grows_dispatchRest (s : Coordinator) (event : ℕ) (rest : List TriggerPlan) :
    Grows s (s.dispatchRest event rest) :=
  ((grows_holdInFlight s rest).trans (grows_schedule _ _)).trans (grows_chargeCooldowns _ event)

theorem grows_chargePlan (hp : s.plans[i]? = some p) : Grows s (s.chargePlan i p) :=
  (grows_set hp rfl (carries_settlePending p)).trans (grows_release _ _)

/-- What each label does where it is enabled. -/
inductive Advance (site : Site) (s : Coordinator) : Coordinator → Prop
  | clock (now : ℕ) : Advance site s { s with now := now }
  | nothing (event : ℕ) (hnew : s.runs.get? event = none) :
      Advance site s (s.setPhase event { phase := .discovering })
  | tierD (event : ℕ) (matched : List RuleMatch) (hnew : s.runs.get? event = none)
      (hD : ∀ m ∈ matched, isTierD m = true) :
      Advance site s ((s.setPhase event { phase := .attempting, tierDMatches := matched }).holdInFlight
        (matched.map (planFor site event)))
  | attempt (i j : ℕ) (p : TriggerPlan) (hp : s.plans[i]? = some p) :
      Advance site s { s with plans := s.plans.set i { p with attempted := j :: p.attempted } }
  | answer (i j : ℕ) (p : TriggerPlan) (a : PlannedAction) (taken : String)
      (hp : s.plans[i]? = some p) (ha : p.actions[j]? = some a) (hgranted : a.tierDGranted = true)
      (hattempted : j ∈ p.attempted) :
      Advance site s { s with
        plans := s.plans.set i { p with actions := p.actions.set j (attemptAnswer a taken) } }
  | attemptsReturn (event : ℕ) (run : EventRun) (hrun : s.runs.get? event = some run)
      (hphase : run.phase = .attempting) (hanswered : s.attemptsAnswered event = true) :
      Advance site s ((s.setPhase event { run with phase := .discoveringRest }).schedule
        (fun _ p => decide (p.event = event)))
  | unmatched (event : ℕ) (run : EventRun) (hrun : s.runs.get? event = some run)
      (hphase : run.phase = .discovering) :
      Advance site s (s.setPhase event { run with phase := .ended })
  | rest (event : ℕ) (matched : List RuleMatch) (run : EventRun) (hrun : s.runs.get? event = some run)
      (hphase : run.phase = .discovering ∨ run.phase = .discoveringRest)
      (hD : ∀ m ∈ matched, isTierD m = false) :
      Advance site s ((s.setPhase event { run with phase := .settling }).dispatchRest event
        (matched.map (planFor site event)))
  | settle (i : ℕ) (p : TriggerPlan) (outcomes : List DispatchOutcome) (hp : s.plans[i]? = some p)
      (hscheduled : p.scheduled = true) (hsettled : p.settled = false) :
      Advance site s { s with plans := s.plans.set i (p.settle outcomes) }
  | charge (i : ℕ) (p : TriggerPlan) (hp : s.plans[i]? = some p) (hsettled : p.settled = true)
      (huncharged : p.charged = false) : Advance site s (s.chargePlan i p)
  | cutShort (event : ℕ) (run : EventRun) (hrun : s.runs.get? event = some run)
      (hphase : run.phase = .attempting) :
      Advance site s (s.setPhase event { run with phase := .settling, cutShort := true })
  | cut (event : ℕ) (run : EventRun) (hrun : s.runs.get? event = some run)
      (hphase : run.phase = .discoveringRest) :
      Advance site s (s.setPhase event { run with phase := .settling })
  | settling : Advance site s s
  | finish (event : ℕ) (run : EventRun) (hrun : s.runs.get? event = some run)
      (hphase : run.phase = .settling) (hcharged : ∀ p ∈ s.plans, p.event = event →
        p.scheduled = true → p.charged = true) :
      Advance site s ((s.release (fun _ p => decide (p.event = event))).setPhase event
        { run with phase := .ended })

theorem step_advance {l : Label} (h : step site s l = some s') : Advance site s s' := by
  cases l with
  | clock now =>
    cases h
    exact .clock now
  | discoverTierD event matched =>
    simp only [step] at h
    split at h
    · cases h
    rename_i hn
    split at h
    · cases h
      exact .nothing event hn
    · cases h
      exact .tierD event _ hn (fun m hm => (mem_filter.mp hm).2)
  | attempt i j =>
    simp only [step] at h
    split at h
    · cases h
    rename_i p hp
    split at h
    · cases h
    split at h
    · cases h
      exact .attempt i j p hp
    · cases h
  | answer i j taken =>
    simp only [step] at h
    split at h
    · cases h
    rename_i p hp
    split at h
    · cases h
    rename_i a ha
    split at h
    · rename_i hg
      cases h
      exact .answer i j p a taken hp ha hg.1 hg.2.1
    · cases h
  | attemptsReturn event =>
    simp only [step] at h
    split at h
    · cases h
    rename_i run hr
    split at h
    · rename_i hg
      cases h
      exact .attemptsReturn event run hr hg.1 hg.2
    · cases h
  | discoverRest event matched =>
    simp only [step] at h
    split at h
    · cases h
    rename_i run hr
    split at h
    · rename_i hg
      cases h
      exact .unmatched event run hr hg.1
    · split at h
      · rename_i hg
        cases h
        refine .rest event _ run hr hg ?_
        intro m hm
        simpa using (mem_filter.mp hm).2
      · cases h
  | settle i outcomes =>
    simp only [step] at h
    split at h
    · cases h
    rename_i p hp
    split at h
    · rename_i hg
      cases h
      exact .settle i p outcomes hp hg.1 hg.2
    · cases h
  | charge i =>
    simp only [step] at h
    split at h
    · cases h
    rename_i p hp
    split at h
    · rename_i hg
      cases h
      exact .charge i p hp hg.1 hg.2
    · cases h
  | interrupt event =>
    simp only [step] at h
    split at h
    · cases h
    rename_i run hr
    split at h
    · rename_i hh
      cases h
      exact .unmatched event run hr hh
    · rename_i hh
      cases h
      exact .cutShort event run hr hh
    · rename_i hh
      cases h
      exact .cut event run hr hh
    · cases h
      exact .settling
    · cases h
  | finish event =>
    simp only [step] at h
    split at h
    · cases h
    rename_i run hr
    split at h
    · rename_i hg
      cases h
      refine .finish event run hr hg.1 ?_
      intro p hp he hs
      have hl := all_eq_true.mp hg.2 p hp
      simpa [he, hs] using hl
    · cases h

theorem Advance.grows (h : Advance site s s') : Grows s s' := by
  cases h with
  | clock now | nothing event hn => exact grows_of_plans rfl
  | tierD event matched hn hD => exact grows_holdInFlight (s.setPhase event _) _
  | attempt i j p hp => exact grows_set hp rfl ⟨rfl, rfl, rfl, fun k hk => mem_cons_of_mem _ hk⟩
  | answer i j p a taken hp ha hg ht => exact grows_set hp rfl (carries_answer ha taken)
  | attemptsReturn event run hr hh han => exact grows_schedule (s.setPhase event _) _
  | unmatched event run hr hh => exact grows_of_plans rfl
  | rest event matched run hr hh hD => exact grows_dispatchRest (s.setPhase event _) _ _
  | settle i p outcomes hp hsc hs =>
    exact grows_set hp rfl ⟨rfl, rfl, recordOutcomes_map _ (fun _ _ => rfl) _ _, fun _ hk => hk⟩
  | charge i p hp hs hu => exact grows_chargePlan hp
  | cutShort event run hr hh | cut event run hr hh | settling =>
    exact grows_of_plans rfl
  | finish event run hr hh hc => exact (grows_release s _).trans (grows_of_plans rfl)

theorem Held.setPhase (h : Held site s) (event : ℕ) (run : EventRun) :
    Held site (s.setPhase event run) :=
  { h with }

theorem attempt_sound (h : p.Sound site fired) (j : ℕ) :
    TriggerPlan.Sound site fired { p with attempted := j :: p.attempted } :=
  ⟨h.counted, h.once, h.limits, h.cooldown, h.turn, h.running, h.quiet, h.waits, h.settles,
    h.charges, h.remainder,
    fun k a ha hg hr => mem_cons_of_mem _ (h.refused k a ha hg hr)⟩

theorem answer_sound (h : p.Sound site fired) (hg : a.tierDGranted = true)
    (ha : j ∈ p.attempted) (taken : String) :
    TriggerPlan.Sound site fired { p with actions := p.actions.set j (attemptAnswer a taken) } := by
  refine { h with quiet := ?_, refused := ?_ }
  · intro hs b hb he
    obtain hold | rfl := mem_or_eq_of_mem_set hb
    · exact h.quiet hs b hold he
    · rw [(attemptAnswer_grant a taken).2, hg] at he
      cases he
  · intro k b hb hbg hr
    by_cases hj : j = k
    · subst hj
      exact ha
    · rw [List.getElem?_set_ne hj] at hb
      exact h.refused k b hb hbg hr

theorem settle_sound (h : p.Sound site fired) (hs : p.scheduled = true)
    (outcomes : List DispatchOutcome) : (p.settle outcomes).Sound site fired := by
  refine ⟨h.counted, h.once, h.limits, h.cooldown, h.turn, h.running, ?_, h.waits,
    fun _ => hs, fun _ => rfl, h.remainder, ?_⟩
  · intro hn
    rw [show (p.settle outcomes).scheduled = p.scheduled from rfl, hs] at hn
    cases hn
  · intro k a ha hg hr
    have hm := congrArg (·[k]?) (recordOutcomes_map (fun a => (a.tierDGranted, a.admitted))
      (fun _ _ => rfl) p.actions outcomes)
    simp only [List.getElem?_map, TriggerPlan.settle] at hm ha
    rw [ha] at hm
    obtain ⟨b, hb, heq⟩ := map_eq_some_iff.mp hm.symm
    exact h.refused k b hb ((congrArg Prod.fst heq).trans hg) ((congrArg Prod.snd heq).trans hr)

theorem fresh_of_mem (hp : p ∈ matched.map (planFor site event)) : p.Fresh site := by
  obtain ⟨m, -, rfl⟩ := mem_map.mp hp
  exact fresh_planFor site event m

theorem holdInFlight_new (hq : (s.holdInFlight plans).plans[i]? = some q) (hi : s.plans.length ≤ i) :
    ∃ p ∈ plans, Marked p q := by
  obtain ⟨kept, hp, hm, -⟩ := s.holdInFlight_plans plans
  rw [hp, List.getElem?_append_right hi] at hq
  exact hm q (mem_of_getElem? hq)

theorem Held.dispatchRest (h : Held site s) (event : ℕ) {rest : List TriggerPlan}
    (hr : ∀ p ∈ rest, p.Fresh site) : Held site (s.dispatchRest event rest) := by
  refine ((h.holdInFlight hr).schedule ?_).chargeCooldowns event
  intro i q hq hs
  obtain ⟨p, hp, hm⟩ := holdInFlight_new hq (of_decide_eq_true hs)
  rw [hm.released]
  exact (hr p hp).idle.2.1

theorem Advance.held (h : Advance site s s') (hh : Held site s) (hpa : Phased s) :
    Held site s' := by
  cases h with
  | clock now => exact { hh with }
  | nothing event hn => exact hh.setPhase event _
  | tierD event matched hn hD =>
    exact (hh.setPhase event _).holdInFlight (fun p hp => fresh_of_mem hp)
  | attempt i j p hp => exact hh.set hp rfl rfl (attempt_sound (hh.plan i p hp) j)
  | answer i j p a taken hp ha hg hat =>
    exact hh.set hp rfl rfl (answer_sound (hh.plan i p hp) hg hat taken)
  | attemptsReturn event run hr hph han =>
    refine (hh.setPhase event _).schedule ?_
    intro i p hp he
    rw [← of_decide_eq_true he] at hr
    exact ((hpa.fits hp hr).attempting hph).1
  | unmatched event run hr hph => exact hh.setPhase event _
  | rest event matched run hr hph hD =>
    exact (hh.setPhase event _).dispatchRest event (fun p hp => fresh_of_mem hp)
  | settle i p outcomes hp hs ht =>
    exact hh.set hp rfl rfl (settle_sound (hh.plan i p hp) hs outcomes)
  | charge i p hp ht hu => exact hh.chargePlan hp ht hu
  | cutShort event run hr hph | cut event run hr hph => exact hh.setPhase event _
  | settling => exact hh
  | finish event run hr hph hc =>
    refine Held.setPhase (hh.release _ ?_) event _
    intro i p hp he hs
    exact hc p (mem_of_getElem? hp) (of_decide_eq_true he) hs

theorem fits_scheduleRemainder {run : EventRun} (h : Fits run p)
    (hp : run.phase ≠ .attempting ∧ run.phase ≠ .ended) : Fits run p.scheduleRemainder :=
  h.carries (carries_scheduleRemainder p) (fun ha => absurd ha hp.1) (fun he => absurd he hp.2)

theorem fits_release {run : EventRun} (h : Fits run p) (hp : run.phase ≠ .attempting) :
    Fits run p.release := by
  refine h.carries (carries_release p) (fun ha => absurd ha hp) ?_
  intro he
  obtain ⟨-, -, hs, hc, -, -, hidle⟩ := release_keeps p
  rw [hs, hc]
  exact ⟨hidle, (h.ended he).2⟩

theorem granted_rest {m : RuleMatch} (hm : isTierD m = false)
    (ha : (planFor site event m).actions[j]? = some a) : a.tierDGranted = false := by
  by_contra hr
  have hg : (planFor site event m).grantsTierD = true :=
    any_eq_true.mpr ⟨a, mem_of_getElem? ha, by simpa using hr⟩
  rw [planFor_grants hg] at hm
  cases hm

theorem Phased.dispatchRest (h : Phased s) {run : EventRun} (hr : s.runs.get? event = some run)
    (hh : run.phase = .settling) (hD : ∀ m ∈ matched, isTierD m = false) :
    Phased (s.dispatchRest event (matched.map (planFor site event))) := by
  have hk : Phased (s.holdInFlight (matched.map (planFor site event))) := by
    refine h.holdInFlight hr ?_
    intro p hp q hm
    obtain ⟨m, hme, rfl⟩ := mem_map.mp hp
    refine ⟨hm.event, by simp [hh], by simp [hh], by simp [hh], ?_⟩
    intro _ _ j a ha hg
    rw [hm.actions] at ha
    rw [granted_rest (hD m hme) ha] at hg
    cases hg
  have he : (s.holdInFlight (matched.map (planFor site event))).runs.get? event = some run := by
    rw [(s.holdInFlight_rest _).2.2]
    exact hr
  have hn : ∀ (i : ℕ) (p : TriggerPlan),
      (s.holdInFlight (matched.map (planFor site event))).plans[i]? = some p →
      s.plans.length ≤ i → p.event = event := by
    intro i p hp hi
    obtain ⟨q, hq, hm⟩ := holdInFlight_new hp hi
    obtain ⟨m, -, rfl⟩ := mem_map.mp hq
    exact hm.event
  have hc := hk.mapIdx (t := (s.holdInFlight (matched.map (planFor site event))).schedule
      (fun i _ => decide (s.plans.length ≤ i)))
    (by
      intro i p _
      split_ifs
      · exact (carries_scheduleRemainder p).event
      · rfl)
    (by
      intro i p hp run' hr' hf
      split_ifs with hi
      · rw [hn i p hp (of_decide_eq_true hi), he] at hr'
        cases hr'
        exact fits_scheduleRemainder hf (by simp [hh])
      · exact hf)
    rfl rfl
  refine hc.mapIdx
    (f := fun _ p => if decide (p.event = event) && !p.scheduled then p.release else p) ?_ ?_ rfl rfl
  · intro i p _
    split_ifs
    · exact (carries_release p).event
    · rfl
  · intro i p hp run' hr' hf
    split_ifs with hs
    · rw [Bool.and_eq_true] at hs
      rw [of_decide_eq_true hs.1] at hr'
      obtain rfl := mem_unique he hr'
      exact fits_release hf (by simp [hh])
    · exact hf

theorem attemptsAnswered_attempted (hh : Held site s) (hp : s.plans[i]? = some p)
    (hn : s.attemptsAnswered p.event = true) (ha : p.actions[j]? = some a)
    (hg : a.tierDGranted = true) : j ∈ p.attempted := by
  have hl := all_eq_true.mp hn p (mem_of_getElem? hp)
  simp only [ne_eq] at hl
  have hm : (a, j) ∈ p.actions.zipIdx := mem_zipIdx_iff_getElem?.mpr ha
  have hc := all_eq_true.mp hl (a, j) hm
  by_cases hd : a.admitted = true
  · simp only [hg, hd, Bool.and_self, Bool.not_true, Bool.false_or,
      Bool.and_eq_true, decide_eq_true_eq] at hc
    exact hc.1
  · exact (hh.plan i p hp).refused j a ha hg (by simpa using hd)

theorem Advance.phased (h : Advance site s s') (hd : Held site s) (hpa : Phased s) : Phased s' := by
  cases h with
  | clock now => exact hpa
  | nothing event hn =>
    refine hpa.setPhase ?_
    intro i p hp hv
    obtain ⟨run, hr, -⟩ := hpa i p hp
    rw [hv, hn] at hr
    cases hr
  | tierD event matched hn hD =>
    have ho : Phased (s.setPhase event { phase := .attempting, tierDMatches := matched }) := by
      refine hpa.setPhase ?_
      intro i p hp hv
      obtain ⟨run, hr, -⟩ := hpa i p hp
      rw [hv, hn] at hr
      cases hr
    refine ho.holdInFlight (s.runs.get?_set_self event _) ?_
    intro p hp q hm
    obtain ⟨m, -, rfl⟩ := mem_map.mp hp
    refine ⟨hm.event, by simp, fun _ => ⟨hm.released, hm.scheduled⟩, by simp, by simp⟩
  | attempt i j p hp =>
    refine hpa.set hp rfl ?_
    intro run _ hf
    exact ⟨hf.discovering, hf.attempting, hf.ended, fun hw hh k a ha hg =>
      mem_cons_of_mem _ (hf.attempted hw hh k a ha hg)⟩
  | answer i j p a taken hp ha hg hat =>
    refine hpa.set hp rfl ?_
    intro run _ hf
    exact hf.carries (carries_answer ha taken) hf.attempting hf.ended
  | attemptsReturn event run hr hh han =>
    have hrt : Phased (s.setPhase event { run with phase := .discoveringRest }) := by
      refine hpa.setPhase ?_
      intro i p hp hv
      subst hv
      exact ⟨by simp, by simp, by simp, fun _ _ j a ha hg =>
        attemptsAnswered_attempted hd hp han ha hg⟩
    refine hrt.mapIdx ?_ ?_ rfl rfl
    · intro i p _
      split_ifs
      · exact (carries_scheduleRemainder p).event
      · rfl
    · intro i p hp run' hr' hf
      split_ifs with hs
      · rw [of_decide_eq_true hs] at hr'
        obtain rfl := mem_unique (s.runs.get?_set_self event _) hr'
        exact fits_scheduleRemainder hf (by simp)
      · exact hf
  | unmatched event run hr hh =>
    refine hpa.setPhase ?_
    intro i p hp hv
    subst hv
    exact absurd hh (hpa.fits hp hr).discovering
  | rest event matched run hr hh hD =>
    have hse : Phased (s.setPhase event { run with phase := .settling }) := by
      refine hpa.setPhase ?_
      intro i p hp hv
      subst hv
      have hf := hpa.fits hp hr
      have hrs : run.phase = .discoveringRest := hh.resolve_left hf.discovering
      exact ⟨by simp, by simp, by simp, fun hw _ => hf.attempted hw (by simp [hrs])⟩
    exact hse.dispatchRest (s.runs.get?_set_self event _) rfl hD
  | settle i p outcomes hp hsc hl =>
    refine hpa.set hp rfl ?_
    intro run _ hf
    exact hf.carries ⟨rfl, rfl, recordOutcomes_map _ (fun _ _ => rfl) _ _, fun _ hk => hk⟩
      hf.attempting hf.ended
  | charge i p hp hl hu =>
    have hsc := (hd.plan i p hp).settles hl
    have ht : ∀ run, Fits run p → run.phase ≠ .attempting ∧ run.phase ≠ .ended := by
      refine fun run hf => ⟨fun ha => ?_, fun he => ?_⟩
      · rw [(hf.attempting ha).2] at hsc
        cases hsc
      · rw [(hf.ended he).2 hsc] at hu
        cases hu
    have hc : Phased { s with plans := s.plans.set i p.settlePending } := by
      refine hpa.set hp rfl ?_
      intro run _ hf
      exact hf.carries (carries_settlePending p) (fun ha => absurd ha (ht run hf).1)
        (fun he => absurd he (ht run hf).2)
    refine hc.mapIdx (f := fun j q => if decide (j = i) then q.release else q) ?_ ?_ rfl rfl
    · intro j q _
      split_ifs
      · exact (carries_release q).event
      · rfl
    · intro j q hq run hr hf
      split_ifs with hj
      · rw [of_decide_eq_true hj, List.getElem?_set_self (List.getElem?_eq_some_iff.mp hp).1] at hq
        cases hq
        exact fits_release hf (ht run (hpa.fits hp hr)).1
      · exact hf
  | cutShort event run hr hh =>
    refine hpa.setPhase ?_
    intro i p hp hv
    exact ⟨by simp, by simp, by simp, by simp⟩
  | cut event run hr hh =>
    refine hpa.setPhase ?_
    intro i p hp hv
    subst hv
    exact ⟨by simp, by simp, by simp, fun hw _ =>
      (hpa.fits hp hr).attempted hw (by simp [hh])⟩
  | settling => exact hpa
  | finish event run hr hh hc =>
    have hre : Phased (s.release (fun _ p => decide (p.event = event))) := by
      refine hpa.mapIdx (f := fun _ p => if decide (p.event = event) then p.release else p)
        ?_ ?_ rfl rfl
      · intro i p _
        split_ifs
        · exact (carries_release p).event
        · rfl
      · intro i p hp run' hr' hf
        split_ifs with hs
        · rw [of_decide_eq_true hs] at hr'
          obtain rfl := mem_unique hr hr'
          exact fits_release hf (by simp [hh])
        · exact hf
    refine hre.setPhase ?_
    intro i q hq hv
    have hf := hre.fits hq (by rw [hv]; exact hr)
    obtain ⟨p, hp, rfl⟩ := getElem?_mapIdx_eq hq
    split_ifs at hv hf ⊢ with hs
    · obtain ⟨-, -, hsc, hi, -, -, hidle⟩ := release_keeps p
      refine ⟨by simp, by simp, fun _ => ⟨hidle, ?_⟩, fun hw _ =>
        hf.attempted hw (by simp [hh])⟩
      rw [hsc, hi]
      exact hc p (mem_of_getElem? hp) (of_decide_eq_true hs)
    · exact absurd hv (by simpa using hs)

/-- Every match that grants Tier D was kept as a plan of its event. -/
def Kept (site : Site) (s : Coordinator) : Prop :=
  ∀ (event : ℕ) (run : EventRun), s.runs.get? event = some run → ∀ m ∈ run.tierDMatches,
    (planFor site event m).grantsTierD = true →
    ∃ (i : ℕ) (p : TriggerPlan), s.plans[i]? = some p ∧ Carries (planFor site event m) p

/-- A run of `t` is a run of `s`, with the matches it had there. -/
def RunsFrom (s t : Coordinator) : Prop :=
  ∀ (event : ℕ) (run : EventRun), t.runs.get? event = some run → run.tierDMatches = [] ∨
    ∃ run', s.runs.get? event = some run' ∧ run'.tierDMatches = run.tierDMatches

theorem Kept.step (h : Kept site s) (hgr : Grows s s') (hruns : RunsFrom s s') : Kept site s' := by
  intro event run hr m hm hg
  obtain hn | ⟨run', hr', ha⟩ := hruns event run hr
  · rw [hn] at hm
    cases hm
  · obtain ⟨i, p, hp, hc⟩ := h event run' hr' m (by rwa [ha]) hg
    obtain ⟨q, hq, hc'⟩ := hgr i p hp
    exact ⟨i, q, hq, hc.trans hc'⟩

theorem runsFrom_refl (h : s'.runs = s.runs) : RunsFrom s s' :=
  fun _ run hr => .inr ⟨run, by rw [← h]; exact hr, rfl⟩

theorem runsFrom_setPhase {run run' : EventRun} (h : t.runs = s.runs.set event run')
    (hu : s.runs.get? event = some run) (hm : run'.tierDMatches = run.tierDMatches) :
    RunsFrom s t := by
  intro event' r hr
  rw [h, Dict.get?_set] at hr
  split_ifs at hr with heq
  · cases hr
    exact .inr ⟨run, by rw [heq]; exact hu, hm.symm⟩
  · exact .inr ⟨r, hr, rfl⟩

theorem Kept.tierD (h : Kept site s) :
    Kept site ((s.setPhase event { phase := .attempting, tierDMatches := matched }).holdInFlight
      (matched.map (planFor site event))) := by
  intro event' run hr m hm hg
  rw [(holdInFlight_rest _ _).2.2] at hr
  by_cases heq : event' = event
  · subst heq
    obtain rfl := mem_unique (s.runs.get?_set_self event' _) hr
    obtain ⟨kept, hl, -, hk⟩ := holdInFlight_plans
      (s.setPhase event' { phase := .attempting, tierDMatches := matched })
      (matched.map (planFor site event'))
    obtain ⟨q, hq, ha⟩ := hk _ (mem_map_of_mem hm) hg
    obtain ⟨i, hi⟩ := mem_iff_getElem?.mp hq
    refine ⟨s.plans.length + i, q, ?_, ha.event, ha.key, by rw [ha.actions], nofun⟩
    rw [hl]
    exact (List.getElem?_append_right (Nat.le_add_right _ _)).trans (by simpa [setPhase] using hi)
  · have hold : s.runs.get? event' = some run := (s.runs.get?_set_of_ne _ heq).symm.trans hr
    obtain ⟨i, p, hp, hc⟩ := h event' run hold m hm hg
    obtain ⟨q, hq, hc'⟩ := grows_holdInFlight
      (s.setPhase event { phase := .attempting, tierDMatches := matched }) _ i p hp
    exact ⟨i, q, hq, hc.trans hc'⟩

theorem Advance.kept (h : Advance site s s') (hk : Kept site s) : Kept site s' := by
  have hg := h.grows
  cases h with
  | clock now => exact hk.step hg (runsFrom_refl rfl)
  | nothing event hn =>
    refine hk.step hg ?_
    intro event' run hr
    by_cases heq : event' = event
    · subst heq
      obtain rfl := mem_unique (s.runs.get?_set_self event' _) hr
      exact .inl rfl
    · exact .inr ⟨run, (s.runs.get?_set_of_ne _ heq).symm.trans hr, rfl⟩
  | tierD event matched hn hD => exact hk.tierD
  | attempt i j p hp | answer i j p a taken hp ha hgr ht =>
    exact hk.step hg (runsFrom_refl rfl)
  | attemptsReturn event run hr hh han =>
    exact hk.step hg (runsFrom_setPhase rfl hr rfl)
  | unmatched event run hr hh => exact hk.step hg (runsFrom_setPhase rfl hr rfl)
  | rest event matched run hr hh hD =>
    have hruns := (holdInFlight_rest (s.setPhase event { run with phase := .settling })
      (matched.map (planFor site event))).2.2
    exact hk.step hg (runsFrom_setPhase hruns hr rfl)
  | settle i p outcomes hp hsc hs | charge i p hp hs hu =>
    exact hk.step hg (runsFrom_refl rfl)
  | cutShort event run hr hh | cut event run hr hh =>
    exact hk.step hg (runsFrom_setPhase rfl hr rfl)
  | settling => exact hk
  | finish event run hr hh hc =>
    exact hk.step hg (runsFrom_setPhase rfl hr rfl)

/-! ### Runs -/

structure Disciplined (site : Site) (s : Coordinator) : Prop where
  held : Held site s
  phased : Phased s
  kept : Kept site s

theorem disciplined_of_reaches (h : Reaches (step site) {} s) : Disciplined site s := by
  refine Reaches.invariant ?_ ?_ h
  · intro t l u ht hs
    have ha := step_advance hs
    exact ⟨ha.held ht.held ht.phased, ha.phased ht.held ht.phased, ha.kept ht.kept⟩
  · have hn : ∀ (i : ℕ) (p : TriggerPlan), ({} : Coordinator).plans[i]? ≠ some p := by
      intro i p hp
      simp at hp
    refine ⟨⟨?_, ?_, ?_, ?_⟩, ?_, ?_⟩
    · exact fun i p hp => absurd hp (hn i p)
    · exact fun i p hp => absurd hp (hn i p)
    · exact fun k hk => absurd hk (Finset.notMem_empty k)
    · exact fun i j p q hp => absurd hp (hn i p)
    · exact fun i p hp => absurd hp (hn i p)
    · exact fun event run hr => nomatch hr

theorem inCooldown_later {earlier later : ℕ} (h : inCooldown fired earlier p = false)
    (hl : earlier ≤ later) : inCooldown fired later p = false := by
  unfold inCooldown at h ⊢
  split at h
  · rfl
  · simp only [decide_eq_false_iff_not, not_and, not_lt] at h ⊢
    omega

/-- A trigger with a cooldown has one live plan, which holds it until it is released once; no plan is
scheduled below Tier D while another plan of its key is live, or inside its cooldown unless the
clock ran back; and a plan granting Tier D is kept, and its Tier D actions handed to the dispatcher
unless its event is cancelled before they return. -/
theorem in_flight_hold_discipline (h : Reaches (step site) {} s) :
    (∀ (i j : ℕ) (p q : TriggerPlan), s.plans[i]? = some p → s.plans[j]? = some q →
      p.holdsInFlight = true → q.holdsInFlight = true → p.key = q.key → i = j) ∧
    (∀ k, k ∈ s.inFlight ↔ ∃ (i : ℕ) (p : TriggerPlan), s.plans[i]? = some p ∧
      p.holdsInFlight = true ∧ p.key = k) ∧
    (∀ (i : ℕ) (p : TriggerPlan), s.plans[i]? = some p →
      (p.holdsInFlight = true → 0 < site.cooldownFor p.skillName p.triggerName) ∧
      p.taken = p.released + (if p.holdsInFlight then 1 else 0) ∧ p.taken ≤ 1 ∧
      ∃ run, s.runs.get? p.event = some run ∧ (run.phase = .ended → p.released = p.taken)) ∧
    (∀ (i : ℕ) (p : TriggerPlan), s.plans[i]? = some p → p.scheduled = true →
      p.charged = false → 0 < site.cooldownFor p.skillName p.triggerName → p.triggerName ≠ "" →
      p.holdsInFlight = true ∧ (p.heldAt ≤ s.now → inCooldown s.fired s.now p = false) ∧
      ∀ (j : ℕ) (q : TriggerPlan), s.plans[j]? = some q → q.key = p.key →
        q.holdsInFlight = true ∨ (q.scheduled = true ∧ q.charged = false) → j = i) ∧
    (∀ (i : ℕ) (p : TriggerPlan), s.plans[i]? = some p →
      (p.charged = true → p.settled = true) ∧ (p.settled = true → p.scheduled = true)) ∧
    ∀ (event : ℕ) (run : EventRun), s.runs.get? event = some run → ∀ m ∈ run.tierDMatches,
      (planFor site event m).grantsTierD = true → ∃ (i : ℕ) (p : TriggerPlan),
        s.plans[i]? = some p ∧ Carries (planFor site event m) p ∧
        (run.cutShort = false → run.phase ≠ .attempting → ∀ (j : ℕ) (a : PlannedAction),
          (planFor site event m).actions[j]? = some a → a.tierDGranted = true →
          j ∈ p.attempted) := by
  obtain ⟨hheld, hphased, hkept⟩ := disciplined_of_reaches h
  have hlimited : ∀ (i : ℕ) (p : TriggerPlan), s.plans[i]? = some p →
      (p.limited = true ↔ 0 < site.cooldownFor p.skillName p.triggerName ∧ p.triggerName ≠ "") := by
    intro i p hp
    simp only [TriggerPlan.limited, decide_eq_true_eq, (hheld.plan i p hp).cooldown]
  have hlive : ∀ (i : ℕ) (p : TriggerPlan), s.plans[i]? = some p → p.limited = true →
      p.holdsInFlight = true ∨ (p.scheduled = true ∧ p.charged = false) →
      p.holdsInFlight = true := by
    rintro i p hp hl (hholds | ⟨hscheduled, huncharged⟩)
    · exact hholds
    · exact (hheld.plan i p hp).running hscheduled huncharged hl
  refine ⟨hheld.distinct, fun k => ⟨hheld.exact k, ?_⟩, ?_, ?_, ?_, ?_⟩
  · rintro ⟨i, p, hp, hholds, rfl⟩
    exact hheld.held i p hp hholds
  · intro i p hp
    have hs := hheld.plan i p hp
    obtain ⟨run, hrun, hfit⟩ := hphased i p hp
    refine ⟨fun hholds => ((hlimited i p hp).mp (hs.limits hholds)).1, hs.counted, hs.once, run,
      hrun, ?_⟩
    intro hended
    have hcounted := hs.counted
    rw [(hfit.ended hended).1] at hcounted
    simpa using hcounted.symm
  · intro i p hp hscheduled huncharged hpositive hnamed
    have hs := hheld.plan i p hp
    have hl := (hlimited i p hp).mpr ⟨hpositive, hnamed⟩
    have hholds := hs.running hscheduled huncharged hl
    refine ⟨hholds, inCooldown_later (hs.waits hholds), ?_⟩
    intro j q hq hkey hstands
    have hskill : q.skillName = p.skillName := congrArg Prod.fst hkey
    have htrigger : q.triggerName = p.triggerName := congrArg Prod.snd hkey
    have hlq := (hlimited j q hq).mpr (by rw [hskill, htrigger]; exact ⟨hpositive, hnamed⟩)
    exact hheld.distinct j i q p hq hp (hlive j q hq hlq hstands) hholds hkey
  · intro i p hp
    exact ⟨(hheld.plan i p hp).charges, (hheld.plan i p hp).settles⟩
  · intro event run hrun m hm hgrants
    obtain ⟨i, p, hp, hcarries⟩ := hkept event run hrun m hm hgrants
    refine ⟨i, p, hp, hcarries, ?_⟩
    intro hwhole hphase j a ha hgranted
    rw [← show p.event = event from hcarries.event] at hrun
    have hfit := hphased.fits hp hrun
    have hmap := congrArg (·[j]?) hcarries.grants
    simp only [List.getElem?_map, ha] at hmap
    obtain ⟨b, hb, heq⟩ := map_eq_some_iff.mp hmap
    exact hfit.attempted hwhole hphase j b hb ((congrArg Prod.snd heq).trans hgranted)

/-- A commissioned breaker whose overcurrent rule trips it and logs, once in five minutes. -/
def breakerSite : Site where
  firstParty := fun _ => true
  declaredActions := fun _ _ => ["trip_relay", "log_to_dashboard"]
  declaredTier := fun _ _ => "A"
  cooldownFor := fun _ _ => 300
  binding := some
    { zoneIdentityKey := some ("site", "breaker"), bindingRevision := "1"
      consequenceByOutcome := Dict.empty.set openProtectedCircuit "hard" }
  hasExecutor := fun _ => true

def overcurrent : RuleMatch where
  skillName := "breaker"
  ruleName := "overcurrent"
  actionTier := "D"
  bypassLlm := true
  sensorId := "current"

theorem in_flight_hold_discipline_trip :
    ∃ s r, Reaches (step breakerSite) {} s ∧ s.runs.get? 0 = some r ∧ r.phase = .ended ∧
      ∃ (i : ℕ) (p : TriggerPlan), s.plans[i]? = some p ∧
        Carries (planFor breakerSite 0 overcurrent) p ∧ 0 ∈ p.attempted := by
  have hrun : ∃ s, run (step breakerSite) {} [.discoverTierD 0 [overcurrent], .attempt 0 0,
      .answer 0 0 "executed", .attemptsReturn 0, .discoverRest 0 [], .settle 0 [.attempted],
      .charge 0, .finish 0] = some s ∧
      s.runs.get? 0 = some { phase := .ended, tierDMatches := [overcurrent] } := ⟨_, rfl, rfl⟩
  obtain ⟨s, hs, hended⟩ := hrun
  have hgrants : (planFor breakerSite 0 overcurrent).grantsTierD = true := by decide
  obtain ⟨i, p, hp, hcarries, hattempted⟩ := (in_flight_hold_discipline ⟨_, hs⟩).2.2.2.2.2 0 _
    hended overcurrent (mem_singleton_self _) hgrants
  exact ⟨s, _, ⟨_, hs⟩, hended, rfl, i, p, hp, hcarries,
    hattempted rfl (by decide) 0 _ rfl (by decide)⟩

/-- An event cancelled before its attempts start ends with its trip never handed over. -/
theorem cancelled_trip_unattempted :
    ∃ s r, run (step breakerSite) {} [.discoverTierD 0 [overcurrent], .interrupt 0, .finish 0] =
        some s ∧ s.runs.get? 0 = some r ∧ r.phase = .ended ∧ overcurrent ∈ r.tierDMatches ∧
      (planFor breakerSite 0 overcurrent).grantsTierD = true ∧ ∀ p ∈ s.plans, p.attempted = [] := by
  refine ⟨_, _, rfl, rfl, rfl, mem_singleton_self _, by decide, ?_⟩
  intro p hp
  obtain rfl := mem_singleton.mp hp
  rfl

end Coordinator

end OriRuntime
