import OriRuntime.Evaluation

/-!
# Which profiles protect which zones

`activate` of `ori/safety/activation.py`, and what it leaves the evaluation of an activated pair. A
profile's condition carries the numbers of its kind. Ranges, capacities and trip points are exact.
-/

namespace OriRuntime

open List Option

namespace Activation

inductive ProfileStatus where
  | ratified
  | candidate
  deriving DecidableEq

inductive Condition where
  | upperCapacityMultiplier (capacityParameter : String) (multiplier : ℚ)
  | upperBound (threshold : ℚ)
  deriving DecidableEq

structure Profile where
  id : String
  status : ProfileStatus
  quantity : String
  unit : String
  condition : Condition
  outcome : String
  deriving DecidableEq

/-- The commissioned facts activation consults. -/
structure ZoneFacts where
  zoneId : String
  sensorId : String
  quantity : String
  unit : String
  direction : String
  rangeMin : ℚ
  rangeMax : ℚ
  ratedCapacityParameter : String
  ratedCapacityValue : ℚ
  proofMethod : String
  deriving DecidableEq

structure ActivatedProfile where
  zoneId : String
  sensorId : String
  profileId : String
  tripPoint : ℚ
  outcome : String
  profileStatus : ProfileStatus
  deriving DecidableEq

inductive RefusalReason where
  | unitMismatch
  | directionUnsupported
  | parameterMismatch
  | tripPointUnobservable
  | undemonstratedBinding
  deriving DecidableEq

structure ActivationRefusal where
  zoneId : String
  profileId : String
  reason : RefusalReason
  deriving DecidableEq

structure PendingProfile where
  zoneId : String
  profileId : String
  deriving DecidableEq

structure ActivationResult where
  activated : List ActivatedProfile := []
  refused : List ActivationRefusal := []
  pending : List PendingProfile := []
  uncoveredZones : List String := []
  deriving DecidableEq

/-- What the checks of one eligible pair come to. -/
inductive PairVerdict where
  | activates
  | pendingRatification
  | refused (reason : RefusalReason)
  deriving DecidableEq

/-- The value the condition compares against, on this zone. -/
def tripPoint (profile : Profile) (zone : ZoneFacts) : ℚ :=
  match profile.condition with
  | .upperCapacityMultiplier _ multiplier => multiplier * zone.ratedCapacityValue
  | .upperBound threshold => threshold

def parameterMatches (profile : Profile) (zone : ZoneFacts) : Bool :=
  match profile.condition with
  | .upperCapacityMultiplier capacityParameter _ =>
    decide (zone.ratedCapacityParameter = capacityParameter)
  | .upperBound _ => true

def checkPair (profile : Profile) (zone : ZoneFacts) : PairVerdict :=
  if profile.status ≠ .ratified then .pendingRatification
  else if zone.unit ≠ profile.unit then .refused .unitMismatch
  else if zone.direction ≠ "positive_is_load_draw" then .refused .directionUnsupported
  else if parameterMatches profile zone = false then .refused .parameterMismatch
  else if ¬ (zone.rangeMin ≤ tripPoint profile zone ∧ tripPoint profile zone ≤ zone.rangeMax) then
    .refused .tripPointUnobservable
  else if zone.proofMethod = "undemonstrated" then .refused .undemonstratedBinding
  else .activates

def activatedPair (zone : ZoneFacts) (profile : Profile) : ActivatedProfile where
  zoneId := zone.zoneId
  sensorId := zone.sensorId
  profileId := profile.id
  tripPoint := tripPoint profile zone
  outcome := profile.outcome
  profileStatus := profile.status

/-- One eligible pair put where its checks say. -/
def placePair (zone : ZoneFacts) (r : ActivationResult) (profile : Profile) : ActivationResult :=
  match checkPair profile zone with
  | .activates => { r with activated := r.activated ++ [activatedPair zone profile] }
  | .pendingRatification =>
    { r with pending := r.pending ++ [{ zoneId := zone.zoneId, profileId := profile.id }] }
  | .refused reason =>
    { r with refused := r.refused ++ [{ zoneId := zone.zoneId, profileId := profile.id
                                        reason := reason }] }

def eligible (profiles : List Profile) (zone : ZoneFacts) : List Profile :=
  profiles.filter (fun p => decide (p.quantity = zone.quantity))

def placeZone (profiles : List Profile) (r : ActivationResult) (zone : ZoneFacts) :
    ActivationResult :=
  if eligible profiles zone = [] then
    { r with uncoveredZones := r.uncoveredZones ++ [zone.zoneId] }
  else (eligible profiles zone).foldl (placePair zone) r

def activate (profiles : List Profile) (zones : List ZoneFacts) : ActivationResult :=
  zones.foldl (placeZone profiles) {}

/-! ### The pairs and their places -/

def eligiblePairs (profiles : List Profile) (zones : List ZoneFacts) : List (ZoneFacts × Profile) :=
  zones.flatMap (fun zone => (eligible profiles zone).map (fun profile => (zone, profile)))

def activatedOf (x : ZoneFacts × Profile) : Option ActivatedProfile :=
  if checkPair x.2 x.1 = .activates then some (activatedPair x.1 x.2) else none

def refusalOf (x : ZoneFacts × Profile) : Option ActivationRefusal :=
  match checkPair x.2 x.1 with
  | .refused reason => some { zoneId := x.1.zoneId, profileId := x.2.id, reason := reason }
  | _ => none

def pendingOf (x : ZoneFacts × Profile) : Option PendingProfile :=
  if checkPair x.2 x.1 = .pendingRatification then
    some { zoneId := x.1.zoneId, profileId := x.2.id }
  else none

/-- The result of some pairs, over what was there. -/
def placed (r : ActivationResult) (xs : List (ZoneFacts × Profile)) : ActivationResult where
  activated := r.activated ++ xs.filterMap activatedOf
  refused := r.refused ++ xs.filterMap refusalOf
  pending := r.pending ++ xs.filterMap pendingOf
  uncoveredZones := r.uncoveredZones

theorem placePair_eq (zone : ZoneFacts) (r : ActivationResult) (profile : Profile) :
    placePair zone r profile = placed r [(zone, profile)] := by
  unfold placePair placed
  cases hc : checkPair profile zone with
  | activates | pendingRatification | refused reason =>
    simp [activatedOf, refusalOf, pendingOf, hc]

theorem placed_append (r : ActivationResult) (xs ys : List (ZoneFacts × Profile)) :
    placed (placed r xs) ys = placed r (xs ++ ys) := by
  simp only [placed, filterMap_append, append_assoc]

theorem foldl_placePair (zone : ZoneFacts) (profiles : List Profile) (r : ActivationResult) :
    profiles.foldl (placePair zone) r = placed r (profiles.map (fun p => (zone, p))) := by
  induction profiles generalizing r with
  | nil => simp [placed]
  | cons p ps ih =>
    rw [foldl_cons, ih, placePair_eq, placed_append]
    rfl

theorem foldl_placeZone (profiles : List Profile) (zones : List ZoneFacts) (r : ActivationResult) :
    (zones.foldl (placeZone profiles) r).activated =
        r.activated ++ (eligiblePairs profiles zones).filterMap activatedOf ∧
      (zones.foldl (placeZone profiles) r).refused =
        r.refused ++ (eligiblePairs profiles zones).filterMap refusalOf ∧
      (zones.foldl (placeZone profiles) r).pending =
        r.pending ++ (eligiblePairs profiles zones).filterMap pendingOf := by
  induction zones generalizing r with
  | nil => simp [eligiblePairs]
  | cons zone zones ih =>
    rw [foldl_cons]
    obtain ⟨ha, hr, he⟩ := ih (placeZone profiles r zone)
    have hp : eligiblePairs profiles (zone :: zones) =
        (eligible profiles zone).map (fun p => (zone, p)) ++ eligiblePairs profiles zones :=
      flatMap_cons
    rw [ha, hr, he, hp]
    unfold placeZone
    split_ifs with hn
    · rw [hn]
      exact ⟨rfl, rfl, rfl⟩
    · rw [foldl_placePair]
      simp only [placed, filterMap_append, append_assoc]
      exact ⟨trivial, trivial, trivial⟩

def pairId (x : ZoneFacts × Profile) : String × String := (x.1.zoneId, x.2.id)

def ExactlyOne (a b c : Prop) : Prop := a ∧ ¬ b ∧ ¬ c ∨ ¬ a ∧ b ∧ ¬ c ∨ ¬ a ∧ ¬ b ∧ c

theorem exactlyOne_of (x : ZoneFacts × Profile) :
    ExactlyOne ((activatedOf x).isSome = true) ((refusalOf x).isSome = true)
      ((pendingOf x).isSome = true) := by
  unfold ExactlyOne activatedOf refusalOf pendingOf
  cases checkPair x.2 x.1 with
  | activates | pendingRatification | refused reason => simp

theorem mem_ids_iff {β : Type} {f : ZoneFacts × Profile → Option β} (k : β → String × String)
    (hk : ∀ x b, f x = some b → k b = pairId x) {xs : List (ZoneFacts × Profile)}
    (hn : (xs.map pairId).Nodup) {x : ZoneFacts × Profile} (hx : x ∈ xs) :
    (∃ b ∈ xs.filterMap f, k b = pairId x) ↔ (f x).isSome = true := by
  constructor
  · rintro ⟨b, hb, he⟩
    obtain ⟨y, hy, hf⟩ := mem_filterMap.mp hb
    have hs : y = x := inj_on_of_nodup_map hn hy hx ((hk y b hf).symm.trans he)
    rw [← hs, hf]
    rfl
  · intro h
    obtain ⟨b, hb⟩ := isSome_iff_exists.mp h
    exact ⟨b, mem_filterMap.mpr ⟨x, hx, hb⟩, hk x b hb⟩

theorem activatedOf_id (x : ZoneFacts × Profile) (a : ActivatedProfile) (h : activatedOf x = some a) :
    (a.zoneId, a.profileId) = pairId x := by
  unfold activatedOf at h
  split_ifs at h
  cases h
  rfl

theorem refusalOf_id (x : ZoneFacts × Profile) (r : ActivationRefusal) (h : refusalOf x = some r) :
    (r.zoneId, r.profileId) = pairId x := by
  unfold refusalOf at h
  split at h
  · cases h
    rfl
  · cases h

theorem pendingOf_id (x : ZoneFacts × Profile) (p : PendingProfile) (h : pendingOf x = some p) :
    (p.zoneId, p.profileId) = pairId x := by
  unfold pendingOf at h
  split_ifs at h
  cases h
  rfl

theorem nodup_pairIds {profiles : List Profile} {zones : List ZoneFacts}
    (hz : (zones.map (·.zoneId)).Nodup) (hp : (profiles.map (·.id)).Nodup) :
    ((eligiblePairs profiles zones).map pairId).Nodup := by
  unfold eligiblePairs
  rw [List.map_flatMap, List.nodup_flatMap]
  constructor
  · intro zone _
    rw [List.map_map]
    have hs : ((eligible profiles zone).map (·.id)).Nodup :=
      (List.Sublist.map _ List.filter_sublist).nodup hp
    refine List.Nodup.of_map Prod.snd ?_
    rw [List.map_map]
    exact hs
  · rw [List.nodup_iff_pairwise_ne, List.pairwise_map] at hz
    refine hz.imp (fun hn => ?_)
    rw [Function.onFun, List.disjoint_left]
    intro key hk hk'
    obtain ⟨x, hx, rfl⟩ := List.mem_map.mp hk
    obtain ⟨y, hy, hm⟩ := List.mem_map.mp hk'
    obtain ⟨p, -, rfl⟩ := List.mem_map.mp hx
    obtain ⟨q, -, rfl⟩ := List.mem_map.mp hy
    exact hn (congrArg Prod.fst hm).symm

/-! ### An activated pair's readings -/

/-- A number that is finite, in the expected unit, with a quality above zero. -/
def Credible (value quality : PyValue) (q : ℚ) : Prop :=
  value.number? = some (.finite q) ∧ quality.number?.any (fun f => (PyFloat.finite 0).lt f) = true

/-- A reading in the profile's unit against an activated pair. -/
def evaluatePair (zone : ZoneFacts) (profile : Profile) (value quality : PyValue) :
    EvaluationVerdict :=
  evaluateReading value (.str profile.unit) quality profile.unit (.finite (tripPoint profile zone))
    (.finite zone.rangeMin) (.finite zone.rangeMax)

variable {profile : Profile} {zone : ZoneFacts}

theorem evaluatePair_credible {value quality : PyValue} {q : ℚ} (h : Credible value quality q) :
    evaluatePair zone profile value quality =
      if tripPoint profile zone < q then ⟨.trip, none⟩
      else if zone.rangeMin ≤ q ∧ q ≤ zone.rangeMax then ⟨.noTrip, none⟩
      else rejected .outOfRange := by
  obtain ⟨hv, hq⟩ := h
  have hn : ¬ quality.number?.all (fun f => !(PyFloat.finite 0).lt f) = true := by
    intro ha
    obtain ⟨f, hf, hp⟩ := (any_eq_true _ _).mp hq
    rw [hf] at ha
    change (!(PyFloat.finite 0).lt f) = true at ha
    rw [hp] at ha
    cases ha
  have hmain : ∀ v : PyFloat, v = .finite q → (if v.isFinite = false then rejected .nonFinite
      else if PyValue.str profile.unit ≠ .str profile.unit then rejected .unitMismatch
      else if quality.number?.all (fun f => !(PyFloat.finite 0).lt f) then rejected .zeroQuality
      else if (PyFloat.finite (tripPoint profile zone)).lt v then ⟨.trip, none⟩
      else if (PyFloat.finite zone.rangeMin).le v && v.le (.finite zone.rangeMax) then
        ⟨.noTrip, none⟩
      else rejected .outOfRange : EvaluationVerdict) =
        if tripPoint profile zone < q then ⟨.trip, none⟩
        else if zone.rangeMin ≤ q ∧ q ≤ zone.rangeMax then ⟨.noTrip, none⟩
        else rejected .outOfRange := by
    rintro v rfl
    rw [if_neg (show ¬ (PyFloat.finite q).isFinite = false by simp [PyFloat.isFinite]),
      if_neg (fun he => he rfl), if_neg hn]
    simp only [PyFloat.lt, PyFloat.le, Bool.and_eq_true, decide_eq_true_eq]
  cases value with
  | int n | float f => exact hmain _ (some.inj hv)
  | none | bool b | str s | other => cases hv

/-- What an activated pair's evaluation owes: monotone, strict at the trip point, and rejecting as
out of range only below the range. -/
structure Protects (zone : ZoneFacts) (profile : Profile) : Prop where
  unit_eq : zone.unit = profile.unit
  monotone : ∀ value quality value' quality' q q', Credible value quality q →
    Credible value' quality' q' → q ≤ q' → (evaluatePair zone profile value quality).verdict = .trip →
    (evaluatePair zone profile value' quality').verdict = .trip
  above : ∀ value quality q, Credible value quality q → tripPoint profile zone < q →
    (evaluatePair zone profile value quality).verdict = .trip
  at_trip_point : ∀ value quality, Credible value quality (tripPoint profile zone) →
    evaluatePair zone profile value quality = ⟨.noTrip, none⟩
  out_of_range : ∀ value quality q, Credible value quality q →
    evaluatePair zone profile value quality = rejected .outOfRange → q < zone.rangeMin

theorem checkPair_activates (h : checkPair profile zone = .activates) : profile.status = .ratified ∧
      zone.unit = profile.unit ∧ zone.direction = "positive_is_load_draw" ∧
      parameterMatches profile zone = true ∧ zone.rangeMin ≤ tripPoint profile zone ∧
      tripPoint profile zone ≤ zone.rangeMax ∧ zone.proofMethod ≠ "undemonstrated" := by
  unfold checkPair at h
  split_ifs at h with hs hu hd hpa hr hp
  obtain ⟨hm, ha⟩ := hr
  exact ⟨not_not.mp hs, not_not.mp hu, not_not.mp hd, Bool.eq_true_of_not_eq_false hpa, hm, ha, hp⟩

theorem protects_of_activates (h : checkPair profile zone = .activates) :
    Protects zone profile := by
  obtain ⟨-, hu, -, -, hi, hm, -⟩ := checkPair_activates h
  have htrip : ∀ {value quality : PyValue} {q : ℚ}, Credible value quality q →
      ((evaluatePair zone profile value quality).verdict = .trip ↔ tripPoint profile zone < q) := by
    intro value quality q hq
    rw [evaluatePair_credible hq]
    split_ifs with hl ha
    · exact ⟨fun _ => hl, fun _ => rfl⟩
    all_goals exact ⟨fun heq => (by cases heq), fun hl' => absurd hl' hl⟩
  refine ⟨hu, ?_, fun value quality q hq hl => (htrip hq).mpr hl, ?_, ?_⟩
  · intro value quality value' quality' q q' hq hq' he hv
    exact (htrip hq').mpr (((htrip hq).mp hv).trans_le he)
  · intro value quality hq
    rw [evaluatePair_credible hq, if_neg (lt_irrefl _), if_pos ⟨hi, hm⟩]
  · intro value quality q hq hr
    rw [evaluatePair_credible hq] at hr
    split_ifs at hr with hl ha
    · cases hr
    · cases hr
    · by_contra hg
      exact ha ⟨not_lt.mp hg, (not_lt.mp hl).trans hm⟩

/-- Activation puts every eligible pair in one place, and what it activates is protected. -/
theorem activation_protects (profiles : List Profile) (zones : List ZoneFacts) :
    ((activate profiles zones).activated = (eligiblePairs profiles zones).filterMap activatedOf ∧
      (activate profiles zones).refused = (eligiblePairs profiles zones).filterMap refusalOf ∧
      (activate profiles zones).pending = (eligiblePairs profiles zones).filterMap pendingOf ∧
      ∀ x ∈ eligiblePairs profiles zones, ExactlyOne ((activatedOf x).isSome = true)
        ((refusalOf x).isSome = true) ((pendingOf x).isSome = true)) ∧
    ((zones.map (·.zoneId)).Nodup → (profiles.map (·.id)).Nodup →
      ∀ x ∈ eligiblePairs profiles zones, ExactlyOne
        (∃ a ∈ (activate profiles zones).activated, (a.zoneId, a.profileId) = pairId x)
        (∃ r ∈ (activate profiles zones).refused, (r.zoneId, r.profileId) = pairId x)
        (∃ p ∈ (activate profiles zones).pending, (p.zoneId, p.profileId) = pairId x)) ∧
    ∀ a ∈ (activate profiles zones).activated, ∃ zone ∈ zones, ∃ profile ∈ profiles,
      profile.quantity = zone.quantity ∧ a = activatedPair zone profile ∧ Protects zone profile := by
  obtain ⟨hactivated, hrefused, hpending⟩ := foldl_placeZone profiles zones {}
  have hactivated' : (activate profiles zones).activated =
      (eligiblePairs profiles zones).filterMap activatedOf := hactivated
  have hrefused' : (activate profiles zones).refused =
      (eligiblePairs profiles zones).filterMap refusalOf := hrefused
  have hpending' : (activate profiles zones).pending =
      (eligiblePairs profiles zones).filterMap pendingOf := hpending
  rw [hactivated', hrefused', hpending']
  refine ⟨⟨rfl, rfl, rfl, fun x _ => exactlyOne_of x⟩, fun hzones hprofiles x hx => ?_, ?_⟩
  · have hnodup := nodup_pairIds hzones hprofiles
    rw [mem_ids_iff (fun a : ActivatedProfile => (a.zoneId, a.profileId)) activatedOf_id hnodup hx,
      mem_ids_iff (fun r : ActivationRefusal => (r.zoneId, r.profileId)) refusalOf_id hnodup hx,
      mem_ids_iff (fun p : PendingProfile => (p.zoneId, p.profileId)) pendingOf_id hnodup hx]
    exact exactlyOne_of x
  · intro a ha
    obtain ⟨x, hx, hax⟩ := mem_filterMap.mp ha
    obtain ⟨zone, hzone, hpair⟩ := mem_flatMap.mp hx
    obtain ⟨profile, hprofile, rfl⟩ := mem_map.mp hpair
    obtain ⟨hmem, hquantity⟩ := mem_filter.mp hprofile
    unfold activatedOf at hax
    split_ifs at hax with hcheck
    exact ⟨zone, hzone, profile, hmem, of_decide_eq_true hquantity, (some.inj hax).symm,
      protects_of_activates hcheck⟩

def overcurrent : Profile where
  id := "overcurrent"
  status := .ratified
  quantity := "current"
  unit := "ampere"
  condition := .upperCapacityMultiplier "rated_current" (5 / 4)
  outcome := "shed_load"

def mainCircuit : ZoneFacts where
  zoneId := "main"
  sensorId := "ct-1"
  quantity := "current"
  unit := "ampere"
  direction := "positive_is_load_draw"
  rangeMin := 0
  rangeMax := 100
  ratedCapacityParameter := "rated_current"
  ratedCapacityValue := 16
  proofMethod := "commissioned"

theorem activation_protects_of_mainCircuit :
    ∃ a ∈ (activate [overcurrent] [mainCircuit]).activated, ∃ zone ∈ [mainCircuit],
      ∃ profile ∈ [overcurrent], a = activatedPair zone profile ∧ Protects zone profile := by
  obtain ⟨a, ha, hid⟩ : ∃ a ∈ (activate [overcurrent] [mainCircuit]).activated,
      a.zoneId = "main" := by
    refine ⟨activatedPair mainCircuit overcurrent, ?_, rfl⟩
    decide +kernel
  obtain ⟨zone, hzone, profile, hprofile, -, heq, hprotects⟩ :=
    (activation_protects [overcurrent] [mainCircuit]).2.2 a ha
  have := (activation_protects [overcurrent] [mainCircuit]).2.1 (by decide) (by decide)
  exact ⟨a, ha, zone, hzone, profile, hprofile, heq, hprotects⟩

/-- A reading at the trip point of an activated pair does not trip. -/
theorem trip_point_held : ¬ ∀ (profiles : List Profile) (zones : List ZoneFacts),
    ∀ a ∈ (activate profiles zones).activated, ∀ zone ∈ zones, ∀ profile ∈ profiles,
      a = activatedPair zone profile → ∀ (value quality : PyValue) (q : ℚ),
        Credible value quality q → tripPoint profile zone ≤ q →
        (evaluatePair zone profile value quality).verdict = .trip := by
  intro h
  have htrip := h [overcurrent] [mainCircuit] (activatedPair mainCircuit overcurrent)
    (by decide +kernel) mainCircuit (mem_singleton.mpr rfl) overcurrent
    (mem_singleton.mpr rfl) rfl (.int 20) (.int 1) 20 ⟨rfl, by decide +kernel⟩
    (by decide +kernel)
  revert htrip
  decide +kernel

end Activation

end OriRuntime
