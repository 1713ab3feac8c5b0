import OriRuntime.BindingInForce

/-!
# Unambiguous bindings and fresh proofs

What the stages leave of a document they accept, and what the revision rule leaves of two bindings
in force one after the other. No stage compares the ids of two zones: the retained zones are kept
by id, so of two under one id the revision rule sees the later one.
-/

namespace OriRuntime

open Execution

variable {crypto : BindingCrypto} {t : CommissioningTables} {u : Startup} {e : BindingEnvelope}
  {ctx : VerifierContext} {b prev next : AcceptedBinding}

/-! ### One document -/

/-- An observation agrees with the mapping, the instrument and the polarity. -/
structure Agrees (zone : DocumentZone) (ob : ProofObservation) : Prop where
  coil : ob.coilState = zone.mapping.of ob.commanded
  terminal : ob.terminalStateObserved =
    if ob.commanded = .openProtectedCircuit then .opened else .closed
  load : (ob.loadPresentBefore, ob.loadPresentAfter) =
    if ob.commanded = .openProtectedCircuit then (true, false) else (false, true)
  polarity : ∀ high, ob.gpioHigh = some high → ∃ pin activeHigh,
    zone.identity = .localGpio pin activeHigh ∧
      (high = true ↔ (ob.coilState = .energised ↔ activeHigh = true))

def Demonstrates (zone : DocumentZone) (observations : List ProofObservation) : Prop :=
  (∀ outcome, ∃ ob ∈ observations, ob.commanded = outcome) ∧
    ∀ ob ∈ observations, Agrees zone ob

structure Unambiguous (b : BindingDocument) (ctx : VerifierContext) : Prop where
  zoneIds : (b.zones.map DocumentZone.zoneId).Nodup
  sensorIds : (b.zones.map fun zone => zone.sensor.sensorId).Nodup
  actuators : (b.zones.map fun zone => zone.identity.key).Nodup
  bound : ∀ key ∈ ctx.declaredActuators, (b.zones.map fun zone => zone.identity.key).count key = 1
  declared : ∀ zone ∈ b.zones,
    zone.identity.key ∈ ctx.declaredActuators ∧ zone.sensor.sensorId ∈ ctx.declaredSensorIds
  mapping : ∀ zone ∈ b.zones,
    zone.mapping.openProtectedCircuit ≠ zone.mapping.closeProtectedCircuit ∧
      zone.mapping.deEnergisedTerminalState =
        if zone.mapping.openProtectedCircuit = .deEnergised then .opened else .closed
  circuitLeg : ∀ zone ∈ b.zones, zone.proof.method ≠ .undemonstrated →
    Demonstrates zone zone.proof.observations
  controlLeg : ∀ zone ∈ b.zones, ∀ leg ∈ zone.proof.controlPath,
    leg.method ≠ .undemonstrated → Demonstrates zone leg.observations

variable {zone : DocumentZone} {was : AcceptedZone}

theorem agrees_of_observationAgrees {ob : ProofObservation} (h : observationAgrees zone ob = true) :
    Agrees zone ob := by
  unfold observationAgrees at h
  simp only [Bool.and_eq_true, decide_eq_true_eq] at h
  obtain ⟨⟨⟨⟨hcoil, ht⟩, hload⟩, -⟩, hp⟩ := h
  refine ⟨hcoil, ht, hload, fun high hhigh => ?_⟩
  rw [hhigh] at hp
  cases hi : zone.identity with
  | firmwareChannel device channel => rw [hi] at hp; cases hp
  | localGpio pin activeHigh =>
    rw [hi] at hp
    rw [beq_iff_eq] at hp
    rw [hp]
    cases activeHigh <;> simp

theorem demonstrates_of_ok {observations : List ProofObservation}
    (h : checkObservations zone observations = .ok ()) : Demonstrates zone observations := by
  unfold checkObservations at h
  split_ifs at h with ha
  · cases h
  rw [refuseIf_eq_ok, not_not] at h
  refine ⟨fun outcome => h outcome (by cases outcome <;> simp), fun ob ho => ?_⟩
  exact agrees_of_observationAgrees (List.all_eq_true.mp (Bool.not_eq_false _ ▸ ha) ob ho)

theorem legs_of_ok (h : checkLegs zone = .ok ()) :
    (zone.proof.method ≠ .undemonstrated → Demonstrates zone zone.proof.observations) ∧
      ∀ leg ∈ zone.proof.controlPath,
        leg.method ≠ .undemonstrated → Demonstrates zone leg.observations := by
  obtain ⟨hi, hc⟩ := bind_eq_ok.mp h
  refine ⟨fun hm => ?_, fun leg hl hm => ?_⟩
  · rw [if_neg hm] at hi
    exact demonstrates_of_ok hi
  · rw [Option.mem_def.mp hl] at hc
    dsimp only at hc
    rw [if_neg hm] at hc
    exact demonstrates_of_ok hc

theorem mapping_of_ok (h : checkMapping zone = .ok ()) :
    zone.mapping.openProtectedCircuit ≠ zone.mapping.closeProtectedCircuit ∧
      zone.mapping.deEnergisedTerminalState =
        if zone.mapping.openProtectedCircuit = .deEnergised then .opened else .closed := by
  unfold checkMapping at h
  split_ifs at h with hs
  · cases h
  rw [refuseIf_eq_ok, not_not] at h
  refine ⟨hs, ?_⟩
  split_ifs with ho
  · exact h.mp ho
  cases ht : zone.mapping.deEnergisedTerminalState with
  | opened => exact absurd (h.mpr ht) ho
  | closed => rfl

theorem unambiguous_iff (h : verifyBindingEnvelope crypto e ctx = .ok b) :
    Unambiguous e.binding ctx ↔ (e.binding.zones.map DocumentZone.zoneId).Nodup := by
  refine ⟨Unambiguous.zoneIds, fun hid => ?_⟩
  have hm : stMappingSelfConsistency e.binding = .ok () := stage_ok h (by simp [stages])
  have hp : stProofConsistency e.binding ctx = .ok () := stage_ok h (by simp [stages])
  have hds : stDisambiguation e.binding = .ok () := stage_ok h (by simp [stages])
  have hi : stInventory e.binding ctx = .ok () := stage_ok h (by simp [stages])
  obtain ⟨hsens, hkeys⟩ := not_or.mp (refuseIf_eq_ok.mp hds)
  obtain ⟨hd, hb⟩ := bind_eq_ok.mp hi
  have hlegs := eachZone_eq_ok.mp (bind_eq_ok.mp hp).1
  refine ⟨hid, not_not.mp hsens, not_not.mp hkeys, fun key hk => ?_, fun zone hz => ?_,
    fun zone hz => mapping_of_ok (eachZone_eq_ok.mp hm zone hz),
    fun zone hz => (legs_of_ok (hlegs zone hz)).1,
    fun zone hz => (legs_of_ok (hlegs zone hz)).2⟩
  · refine List.count_eq_one_of_mem (not_not.mp hkeys) ?_
    by_contra hu
    exact refuseIf_eq_ok.mp hb ⟨key, hk, hu⟩
  · obtain ⟨hs, hk⟩ := not_or.mp (refuseIf_eq_ok.mp (eachZone_eq_ok.mp hd zone hz))
    exact ⟨not_not.mp hk, not_not.mp hs⟩

/-! ### Two bindings, one after the other -/

/-- The zones share a name, an actuator or a sensor. -/
def Shares (was zone : AcceptedZone) : Prop :=
  was.zoneId = zone.zoneId ∨ sameActuator was.identity zone.identity = true ∨
    was.sensor.sensorId = zone.sensor.sensorId

def Differs (was zone : AcceptedZone) : Prop :=
  was.identity ≠ zone.identity ∨ was.mapping ≠ zone.mapping ∨ was.sensor ≠ zone.sensor

/-- Both legs of the zone were performed after the legs of the one before. -/
def LegsLater (was zone : AcceptedZone) : Prop :=
  was.proofPerformedAtMs < zone.proofPerformedAtMs ∧
    ∀ before ∈ was.controlProofPerformedAtMs,
      ∃ after ∈ zone.controlProofPerformedAtMs, before < after

def FreshAgainst (prev next : AcceptedBinding) : Prop :=
  ∀ zone ∈ next.zones, ∀ was ∈ prev.zones, Shares was zone → Differs was zone → LegsLater was zone

def ZoneIdsDistinct (b : AcceptedBinding) : Prop := (b.zones.map AcceptedZone.zoneId).Nodup

theorem mem_acceptedZoneState {zones : List AcceptedZone} {d : Dict Text ZoneState}
    (hi : (zones.map AcceptedZone.zoneId).Nodup)
    (hn : ∀ zone ∈ zones, zone.zoneId ∉ d.keys) {k : Text} {state : ZoneState}
    (h : (k, state) ∈ d.items ∨ ∃ zone ∈ zones, k = zone.zoneId ∧ state = zone.state) :
    (k, state) ∈ (zones.foldl (fun d zone => d.set zone.zoneId zone.state) d).items := by
  induction zones generalizing d with
  | nil =>
    rcases h with h | ⟨zone, hz, -⟩
    · exact h
    · cases hz
  | cons zone zones ih =>
    obtain ⟨hf, hr⟩ := List.nodup_cons.mp hi
    refine ih hr (fun zone' hz' he => ?_) ?_
    · obtain ⟨p, hp, hpkey⟩ := List.mem_map.mp he
      obtain ⟨k', state'⟩ := p
      obtain rfl : k' = zone'.zoneId := hpkey
      rcases Dict.mem_items_set.mp hp with ⟨hm, -⟩ | ⟨-, hold⟩
      · exact hf (hm ▸ List.mem_map_of_mem hz')
      · exact hn zone' (List.mem_cons_of_mem _ hz') (List.mem_map_of_mem hold)
    · rcases h with h | ⟨zone', hz', hk, hs⟩
      · refine .inl (Dict.mem_items_set.mpr (.inr ⟨?_, h⟩))
        rintro rfl
        exact hn zone List.mem_cons_self (List.mem_map_of_mem h)
      · rcases List.mem_cons.mp hz' with rfl | hz'
        · exact .inl (Dict.mem_items_set.mpr (.inl ⟨hk, hs⟩))
        · exact .inr ⟨zone', hz', hk, hs⟩

theorem mem_retainedMatches (hi : ZoneIdsDistinct prev) (hw : was ∈ prev.zones)
    (hs : Shares was zone.accepted) :
    was.state ∈ retainedMatches zone (acceptedZoneState prev.zones) := by
  have hm : (was.zoneId, was.state) ∈ (acceptedZoneState prev.zones).items :=
    mem_acceptedZoneState hi (fun _ _ h => List.not_mem_nil h) (.inr ⟨was, hw, rfl, rfl⟩)
  refine List.mem_map.mpr ⟨_, List.mem_filter.mpr ⟨hm, ?_⟩, rfl⟩
  rw [Bool.or_eq_true, Bool.or_eq_true, decide_eq_true_eq, decide_eq_true_eq, or_assoc]
  exact hs

theorem legsLater_of_not_stale (hp : zone.accepted.inForceEligible = true)
    (hd : Differs was zone.accepted) (h : staleAgainst zone was.state = false) :
    LegsLater was zone.accepted := by
  unfold AcceptedZone.inForceEligible at hp
  simp only [Bool.and_eq_true, decide_eq_true_eq] at hp
  obtain ⟨⟨-, hi⟩, hc⟩ := hp
  obtain ⟨leg, hl, hm⟩ := Option.map_eq_some_iff.mp hc
  have hh : zoneChanged was.state zone = true := decide_eq_true hd
  unfold staleAgainst at h
  rw [hh, Bool.true_and, Bool.or_eq_false_iff, decide_eq_false_iff_not] at h
  obtain ⟨ha, hcontrolLater⟩ := h
  refine ⟨not_le.mp fun he => ha ⟨hi, he⟩, fun before hb => ?_⟩
  refine ⟨leg.performedAtMs, Option.mem_def.mpr (congrArg (Option.map ControlLeg.performedAtMs) hl),
    ?_⟩
  have hs : was.state.controlProofAtMs = some before := hb
  rw [hl, hs] at hcontrolLater
  exact not_le.mp fun he => of_decide_eq_false hcontrolLater ⟨hm, he⟩

theorem freshAgainst_of_comesIntoForce (hi : ZoneIdsDistinct prev)
    (hprev : (reload t u).1.inForce = some prev) (hx : ComesIntoForce crypto t u next) :
    FreshAgainst prev next := by
  obtain ⟨⟨e, -, hv⟩, he, -⟩ := hx
  have hp : stProofConsistency e.binding
      (verifierContext u (reload t u).1.inForce e.binding) = .ok () :=
    stage_ok hv (by simp [stages])
  have hr := eachZone_eq_ok.mp (bind_eq_ok.mp hp).2
  obtain rfl := accepted_of_ok hv
  intro zone hz was hw hh hd
  obtain ⟨zone, hm, rfl⟩ := List.mem_map.mp hz
  refine legsLater_of_not_stale (List.all_eq_true.mp he _ hz) hd ?_
  have hn := refuseIf_eq_ok.mp (hr zone hm)
  rw [List.any_eq_true] at hn
  by_contra hs
  refine hn ⟨was.state, ?_, Bool.not_eq_false _ ▸ hs⟩
  rw [hprev]
  exact mem_retainedMatches hi hw hh

/-- What is asked of two bindings in force one after the other, as the store keeps them. -/
structure SuccessionSound (prev next : AcceptedBinding) : Prop where
  prevIds : ZoneIdsDistinct prev
  nextIds : ZoneIdsDistinct next
  fresh : FreshAgainst prev next

theorem accepted_ids (e : BindingEnvelope) : (e.accepted crypto).zones.map AcceptedZone.zoneId =
    e.binding.zones.map DocumentZone.zoneId := by
  unfold BindingEnvelope.accepted
  rw [List.map_map]
  rfl

/-- The presented document, if it is one, has no two zones of one id. -/
def PresentsDistinctIds (r : StartupRun) : Prop :=
  ∀ e, r.startup.presented = .envelope e → (e.binding.zones.map DocumentZone.zoneId).Nodup

def RowIdsDistinct (t : CommissioningTables) : Prop :=
  ∀ row ∈ t.contents, ∀ zones ∈ row.zones, (zones.map AcceptedZone.zoneId).Nodup

theorem comesIntoForce_ids (hpres : ∀ e, u.presented = .envelope e →
      (e.binding.zones.map DocumentZone.zoneId).Nodup)
    (hn : ComesIntoForce crypto t u next) : ZoneIdsDistinct next := by
  obtain ⟨⟨e, hp, hv⟩, -⟩ := hn
  obtain rfl := accepted_of_ok hv
  rw [ZoneIdsDistinct, accepted_ids]
  exact hpres e hp

theorem RowIdsDistinct.startup {t' : CommissioningTables} {r : StartupRun} (h : RowIdsDistinct t)
    (hp : PresentsDistinctIds r) (ht : runStartup crypto t r = some t') :
    RowIdsDistinct t' := by
  rcases runStartup_contents ht with hs | ⟨b, hb, hm⟩
  · unfold RowIdsDistinct
    rw [hs]
    exact h
  · intro row hr zones hz
    rw [hm, List.mem_append, List.mem_singleton] at hr
    rcases hr with hr | rfl
    · exact h row hr zones hz
    · obtain rfl : b.zones = zones := Option.some.inj hz
      exact comesIntoForce_ids hp hb

theorem RowIdsDistinct.adopted (h : RowIdsDistinct t) (hprev : (reload t u).1.inForce = some prev) :
    ZoneIdsDistinct prev := by
  obtain ⟨⟨row, ho, hr⟩, -⟩ := adopted_of_reload hprev
  have hm : row ∈ t.rows := by
    have hs := (List.perm_insertionSort _ _).mem_iff.mp (List.mem_of_mem_head? ho)
    exact List.mem_of_mem_filter hs
  have hz := congrArg BindingRow.zones (readable_row hr)
  exact h _ (List.mem_map_of_mem hm) _ hz.symm

/-- Every accepted document is unambiguous and every revision in force fresh, exactly where zone
ids are distinct; and so over every run that presents no two zones of one id. -/
theorem accepted_bindings_sound_iff (crypto : BindingCrypto) :
    (∀ e ctx b, verifyBindingEnvelope crypto e ctx = .ok b →
      (Unambiguous e.binding ctx ↔ ZoneIdsDistinct b)) ∧
    (∀ t u prev next, (reload t u).1.inForce = some prev → ComesIntoForce crypto t u next →
      (SuccessionSound prev next ↔ ZoneIdsDistinct prev ∧ ZoneIdsDistinct next)) ∧
    ∀ rs t, run (runStartup crypto) .empty rs = some t → (∀ r ∈ rs, PresentsDistinctIds r) →
      ∀ u prev next, PresentsDistinctIds ⟨u, 0⟩ → (reload t u).1.inForce = some prev →
        ComesIntoForce crypto t u next → SuccessionSound prev next := by
  refine ⟨fun e ctx b h => ?_, fun t u prev next hprev hnext => ?_,
    fun rs t hrun hpresents u prev next hu hprev hnext => ?_⟩
  · rw [unambiguous_iff h, accepted_of_ok h, ZoneIdsDistinct, accepted_ids]
  · exact ⟨fun h => ⟨h.prevIds, h.nextIds⟩,
      fun h => ⟨h.1, h.2, freshAgainst_of_comesIntoForce h.1 hprev hnext⟩⟩
  · have hids : RowIdsDistinct t := run_invariant_of_meets
      (fun _ _ _ h hr hstep => RowIdsDistinct.startup h hr hstep) (fun _ h => absurd h List.not_mem_nil)
      (meets_of_forall hpresents _) hrun
    have hprevIds := hids.adopted hprev
    exact ⟨hprevIds, comesIntoForce_ids hu hnext, freshAgainst_of_comesIntoForce hprevIds hprev hnext⟩

theorem accepted_bindings_sound_iff_site : ∃ b, verifyBindingEnvelope siteCrypto
      ⟨siteDocument "a" 1 none, text "k" ++ siteCrypto.canonicalBytes (siteDocument "a" 1 none)⟩
      (verifierContext (siteStartup "a" 1 none).startup none (siteDocument "a" 1 none)) = .ok b ∧
    ZoneIdsDistinct b ∧
    Unambiguous (siteDocument "a" 1 none)
      (verifierContext (siteStartup "a" 1 none).startup none (siteDocument "a" 1 none)) := by
  have hverify : verifyBindingEnvelope siteCrypto
      ⟨siteDocument "a" 1 none, text "k" ++ siteCrypto.canonicalBytes (siteDocument "a" 1 none)⟩
      (verifierContext (siteStartup "a" 1 none).startup none (siteDocument "a" 1 none)) =
        .ok (BindingEnvelope.accepted siteCrypto ⟨siteDocument "a" 1 none,
          text "k" ++ siteCrypto.canonicalBytes (siteDocument "a" 1 none)⟩) :=
    verifyBindingEnvelope_eq_ok.mpr ⟨by decide +kernel, rfl⟩
  have hids : ZoneIdsDistinct (BindingEnvelope.accepted siteCrypto ⟨siteDocument "a" 1 none,
      text "k" ++ siteCrypto.canonicalBytes (siteDocument "a" 1 none)⟩) :=
    List.nodup_singleton _
  exact ⟨_, hverify, hids, ((accepted_bindings_sound_iff siteCrypto).1 _ _ _ hverify).mpr hids⟩

/-! ### Two zones of one id -/

def twinZone (pin : ℤ) (sensorId calibrationRef : String) (performedAtMs : ℤ) : DocumentZone :=
  { siteZone with
    sensor := { siteZone.sensor with
      sensorId := text sensorId, calibrationRef := text calibrationRef }
    identity := .localGpio pin true
    proof := { siteZone.proof with
      performedAtMs := performedAtMs
      controlPath := some ⟨.commandedAndObserved, performedAtMs, siteObservations⟩ } }

/-- Two zones are called `main`; the first was proven at 100, the second at 5. -/
def twinDocument : BindingDocument :=
  { siteDocument "a" 1 none with
    zones := [twinZone 17 "ct1" "c1" 100, twinZone 18 "ct2" "c1" 5] }

/-- The first zone with its sensor calibrated anew, on a proof from 50. -/
def twinRevision : BindingDocument :=
  { siteDocument "a" 2 (some (text "sha256:a-")) with
    zones := [twinZone 17 "ct1" "c2" 50, twinZone 18 "ct2" "c1" 5] }

instance (was zone : AcceptedZone) : Decidable (Shares was zone) :=
  inferInstanceAs (Decidable (_ ∨ _ ∨ _))

instance (was zone : AcceptedZone) : Decidable (Differs was zone) :=
  inferInstanceAs (Decidable (_ ∨ _ ∨ _))

instance (was zone : AcceptedZone) : Decidable (LegsLater was zone) :=
  inferInstanceAs (Decidable (_ ∧ _))

instance : Decidable (FreshAgainst prev next) :=
  inferInstanceAs (Decidable (∀ zone ∈ next.zones, ∀ was ∈ prev.zones, _ → _ → _))

def twinRevisionStale (t : CommissioningTables) : Bool :=
  (reload t (siteStartupOf twinRevision).startup).1.inForce.any fun prev =>
    (loadCommissioningState siteCrypto t (siteStartupOf twinRevision).startup).1.inForce.any
      fun next => decide (prev.bindingSeq ≠ next.bindingSeq ∧ ¬ FreshAgainst prev next)

theorem revision_of_twin_zones_stale :
    ¬ ∀ crypto rs t u prev next, run (runStartup crypto) .empty rs = some t →
      (reload t u).1.inForce = some prev → ComesIntoForce crypto t u next →
        FreshAgainst prev next := by
  intro h
  have hstale : (run (runStartup siteCrypto) .empty [siteStartupOf twinDocument]).any
      twinRevisionStale = true := by decide +kernel
  obtain ⟨t, ht, hpair⟩ := (Option.any_eq_true _ _).mp hstale
  obtain ⟨prev, hprev, hpair⟩ := (Option.any_eq_true _ _).mp hpair
  obtain ⟨next, hnext, hpair⟩ := (Option.any_eq_true _ _).mp hpair
  obtain ⟨hseq, hnot⟩ := of_decide_eq_true hpair
  rcases load_inForce hnext with hadopted | hnew
  · exact hseq (congrArg AcceptedBinding.bindingSeq (Option.mem_unique hprev hadopted))
  · exact hnot (h _ _ t _ prev next ht hprev hnew)

end OriRuntime
