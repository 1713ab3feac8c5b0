import OriRuntime.BindingSuccession

/-!
# The binding in force after a startup

The binding a startup runs under is for its device and has both legs on every zone; it is the one
of the only unretired row. A document that is not accepted writes nothing, and a provisional
binding licenses nothing.
-/

namespace OriRuntime

open List Option

open Execution

variable {crypto : BindingCrypto} {t₀ t t' : CommissioningTables} {u : Startup} {nowMs : ℤ}

theorem applyWrites_append {ws ws' : List TableWrite}
    (h : applyWrites nowMs t (ws ++ ws') = (t', true)) :
    ∃ t₁, applyWrites nowMs t ws = (t₁, true) ∧ applyWrites nowMs t₁ ws' = (t', true) := by
  induction ws generalizing t with
  | nil => exact ⟨t, rfl, h⟩
  | cons w ws ih =>
    rw [cons_append, applyWrites] at h
    rw [applyWrites]
    split at h
    · cases h
    rename_i t₂ hw
    exact ih h

variable {b : AcceptedBinding} {s : CommissioningState}

theorem load_inForce (h : (loadCommissioningState crypto t u).1.inForce = some b) :
    (reload t u).1.inForce = some b ∨ ComesIntoForce crypto t u b := by
  rcases present_cases crypto u (reload t u).1 with ⟨-, hk⟩ |
    ⟨e, b', hp, hv, ⟨-, -, hk⟩ | ⟨he, -, ht⟩⟩
  · exact .inl (hk.symm.trans h)
  · exact .inl (hk.symm.trans h)
  · obtain rfl : b' = b := mem_unique ht h
    exact .inr (comesIntoForce hp hv he)

theorem inForce_proven (h : (loadCommissioningState crypto t u).1.inForce = some b) :
    b.deviceId = u.deviceId ∧ ∀ zone ∈ b.zones, zone.inForceEligible = true := by
  rcases load_inForce h with ha | hn
  · obtain ⟨-, hd, he, -⟩ := adopted_of_reload ha
    exact ⟨hd, all_eq_true.mp he⟩
  · exact ⟨hn.2.2.1, all_eq_true.mp hn.2.1⟩

theorem SoundTables.inForce_verified (hs : SoundTables crypto t₀ t)
    (h : (loadCommissioningState crypto t u).1.inForce = some b) :
    b.row ∈ t₀.contents ∨
      ∃ e ctx b', verifyBindingEnvelope crypto e ctx = .ok b' ∧ b.row = b'.row := by
  rcases load_inForce h with ha | ⟨⟨e, -, hv⟩, -⟩
  · obtain ⟨⟨row, ho, hr⟩, -⟩ := adopted_of_reload ha
    have hm := mem_of_getLast? (hs.inForce_iff.mp ho).1
    rw [readable_row hr]
    rcases hs.verified row hm with hl | ⟨e, ctx, b', hv, hc, -⟩
    · exact .inl hl
    · exact .inr ⟨e, ctx, b', hv, hc⟩
  · exact .inr ⟨e, _, b, hv, rfl⟩

theorem retained_inForce {row : BindingRow}
    (h : applyWrites nowMs t [.retainCommissioned row, .clearProvisional] = (t', true)) :
    t'.rows.getLast? = some { row with atMs := nowMs, retiredAtMs := none } := by
  unfold applyWrites at h
  split at h
  · cases h
  rename_i t₁ hr
  obtain rfl := (Prod.mk.inj h).1
  obtain ⟨hw, -, -⟩ := retainCommissionedBinding_cases hr
  exact (congrArg List.getLast? hw).trans List.getLast?_concat

theorem SoundTables.inForce_retained (hs : SoundTables crypto t₀ t)
    (h : (loadCommissioningState crypto t u).1.inForce = some b)
    (hl : applyWrites u.nowMs t (loadCommissioningState crypto t u).2 = (t', true)) :
    ∃ row, t'.getCommissionedBindingInForce = some row ∧ row.content = b.row := by
  have hs' : SoundTables crypto t₀ t' := by
    have hwrit : SoundTables crypto t₀
        (applyWrites u.nowMs t (loadCommissioningState crypto t u).2).1 :=
      hs.of_writes _ (load_verified crypto t u)
    rwa [hl] at hwrit
  unfold loadCommissioningState at h hl
  rcases present_cases crypto u (reload t u).1 with ⟨hw, hk⟩ |
    ⟨e, b', -, -, ⟨-, hw, hk⟩ | ⟨-, hw, ht⟩⟩
  · rw [hk] at h
    obtain ⟨⟨row, ho, hr⟩, -, -, hn⟩ := adopted_of_reload h
    rw [hw, hn] at hl
    obtain rfl := (Prod.mk.inj hl).1
    exact ⟨row, ho, (readable_row hr).symm⟩
  · rw [hk] at h
    obtain ⟨⟨row, ho, hr⟩, -, -, hn⟩ := adopted_of_reload h
    rw [hw, hn] at hl
    obtain rfl := (Prod.mk.inj hl).1
    exact ⟨row, ho, (readable_row hr).symm⟩
  · rw [hw] at hl
    obtain rfl : b' = b := mem_unique ht h
    obtain ⟨t₁, -, he⟩ := applyWrites_append hl
    exact ⟨_, hs'.inForce_iff.mpr ⟨retained_inForce he, rfl⟩, rfl⟩

theorem refused_writes_nothing
    (h : ∀ v ∈ (loadCommissioningState crypto t u).1.lastVerdict, v.stage ≠ text "accepted") :
    (loadCommissioningState crypto t u).2 = (reload t u).2 := by
  unfold loadCommissioningState at h ⊢
  suffices hp : (present crypto u (reload t u).1).2 = [] by rw [hp, append_nil]
  unfold present at h ⊢
  cases hpres : u.presented with
  | absent | unreadable | malformed seq | breaking seq => rfl
  | envelope e =>
    rw [hpres] at h
    dsimp only at h ⊢
    by_cases hs : (reload t u).1.inForce.any (isTheBindingInForce crypto e) = true
    · rw [if_pos hs]
    rw [if_neg hs] at h ⊢
    cases hv : verifyBindingEnvelope crypto e
        (verifierContext u (reload t u).1.inForce e.binding) with
    | error refusal => rfl
    | ok b =>
      rw [hv] at h
      unfold takeAccepted at h
      dsimp only at h
      split at h <;> exact absurd rfl (h _ rfl)

theorem zoneForLocalGpio_eq_some {pin : ℤ} {zone : AcceptedZone}
    (h : s.zoneForLocalGpio pin = some zone) :
    ∃ b, s.inForce = some b ∧ zone ∈ b.zones ∧ zone.inForceEligible = true ∧
      zone.identity.key = .localGpio pin := by
  unfold CommissioningState.zoneForLocalGpio at h
  cases hinForce : s.inForce with
  | none => rw [hinForce] at h; cases h
  | some b =>
    rw [hinForce] at h
    obtain ⟨hf, he⟩ := filter_eq_some_iff.mp h
    refine ⟨b, rfl, mem_of_find?_eq_some hf, he, ?_⟩
    simpa using List.find?_some hf

theorem licensed_inForce (h : s.actuationLicensed = true) {key : ActuatorKey}
    (hk : key ∈ s.actuators) :
    ∃ b, s.inForce = some b ∧
      ∃ zone ∈ b.zones, zone.inForceEligible = true ∧ zone.identity.key = key := by
  unfold CommissioningState.actuationLicensed at h
  cases hinForce : s.inForce with
  | none =>
    rw [hinForce, List.isEmpty_iff] at h
    rw [h] at hk
    cases hk
  | some b =>
    rw [hinForce] at h
    obtain ⟨zone, hz, hboth⟩ := List.any_eq_true.mp (List.all_eq_true.mp h key hk)
    obtain ⟨he, hs⟩ := Bool.and_eq_true_iff.mp hboth
    exact ⟨b, rfl, zone, hz, he, of_decide_eq_true hs⟩

/-! ### Startup after startup -/

/-- What holds of a startup on the tables `t`, reached from the tables `t₀`. -/
structure StartupSound (crypto : BindingCrypto) (t₀ t : CommissioningTables) (u : Startup) :
    Prop where
  /-- A crash after any of the writes leaves the bindings that came into force as they were, or
  with one more, verified against the one adopted. -/
  succession : ∀ writes t', runStartup crypto t ⟨u, writes⟩ = some t' →
    t'.contents = t.contents ∨
      ∃ b, ComesIntoForce crypto t u b ∧ t'.contents = t.contents ++ [b.row]
  adopted : ∀ b, (reload t u).1.inForce = some b →
    ∃ row, t.getCommissionedBindingInForce = some row ∧ row.content = b.row
  inForce : ∀ b, (loadCommissioningState crypto t u).1.inForce = some b →
    (b.deviceId = u.deviceId ∧ ∀ zone ∈ b.zones, zone.inForceEligible = true) ∧
    (b.row ∈ t₀.contents ∨
      ∃ e ctx b', verifyBindingEnvelope crypto e ctx = .ok b' ∧ b.row = b'.row) ∧
    ∀ t', applyWrites u.nowMs t (loadCommissioningState crypto t u).2 = (t', true) →
      ∃ row, t'.getCommissionedBindingInForce = some row ∧ row.content = b.row
  refused : (∀ v ∈ (loadCommissioningState crypto t u).1.lastVerdict,
    v.stage ≠ text "accepted") → (loadCommissioningState crypto t u).2 = (reload t u).2
  /-- Only the binding in force licenses, whatever the provisional one is. -/
  provisional : ∀ p, (loadCommissioningState crypto t u).1.inForce = none →
    (∀ pin, { (loadCommissioningState crypto t u).1 with provisional := p }.zoneForLocalGpio pin =
      none) ∧
    ({ (loadCommissioningState crypto t u).1 with provisional := p }.actuationLicensed = true →
      (loadCommissioningState crypto t u).1.actuators = [])

theorem SoundTables.startupSound (h : SoundTables crypto t₀ t) (u : Startup) :
    StartupSound crypto t₀ t u where
  succession _ _ hr := runStartup_contents hr
  adopted b hb := by
    obtain ⟨⟨row, ho, hd⟩, -⟩ := adopted_of_reload hb
    exact ⟨row, ho, (readable_row hd).symm⟩
  inForce b hb := ⟨inForce_proven hb, h.inForce_verified hb, fun _ hl => h.inForce_retained hb hl⟩
  refused he := refused_writes_nothing he
  provisional p hn := by
    refine ⟨fun pin => ?_, fun hi => ?_⟩
    · refine eq_none_iff_forall_ne_some.mpr fun zone hz => ?_
      obtain ⟨b, hb, -⟩ := zoneForLocalGpio_eq_some hz
      exact absurd (hn.symm.trans hb) (some_ne_none b).symm
    · refine eq_nil_iff_forall_not_mem.mpr fun key hk => ?_
      obtain ⟨b, hb, -⟩ := licensed_inForce hi hk
      exact absurd (hn.symm.trans hb) (some_ne_none b).symm

/-- Over every sequence of startups, each completing or cut off by a crash. -/
theorem binding_in_force_succession {rs : List StartupRun} (hstored : StoredTables t₀)
    (hrun : run (runStartup crypto) t₀ rs = some t) :
    ((t.rows.map BindingRow.bindingSeq).Nodup ∧ (t.rows.map BindingRow.canonicalHash).Nodup) ∧
    t.unretired.length ≤ 1 ∧
    (∀ u, StartupSound crypto t₀ t u) ∧
    (Meets (runStartup crypto) Adopts t₀ rs → GoesOn t₀ t) := by
  have hsound : SoundTables crypto t₀ t :=
    run_invariant (fun _ _ _ h hstep => h.startup hstep) hstored.sound hrun
  refine ⟨⟨hsound.seqs, hsound.hashes⟩, hsound.unretired_length, hsound.startupSound,
    fun hadopts => ?_⟩
  have hstep : ∀ s r s', SoundTables crypto t₀ s ∧ GoesOn t₀ s → Adopts s r →
      runStartup crypto s r = some s' → SoundTables crypto t₀ s' ∧ GoesOn t₀ s' :=
    fun _ _ _ h hadopted hrun => ⟨h.1.startup hrun, h.2.startup h.1.toStoredTables hadopted hrun⟩
  exact (run_invariant_of_meets hstep ⟨hstored.sound, goesOn_refl t₀⟩ hadopts hrun).2

/-! ### A store whose device changes -/

def siteCrypto : BindingCrypto where
  keyIdentity := id
  verifies key signature bytes := decide (signature = key ++ bytes)
  canonicalBytes b := b.deviceId ++ List.replicate b.bindingSeq.toNat 45
  sha256Hex := id

def siteObservation (outcome : ProtectedOutcome) (coil : CoilState) (after : Bool)
    (terminal : CircuitState) : ProofObservation where
  commanded := outcome
  coilState := coil
  loadPresentBefore := !after
  loadPresentAfter := after
  terminalStateObserved := terminal
  gpioHigh := some (decide (coil = .energised))

def siteObservations : List ProofObservation :=
  [siteObservation .openProtectedCircuit .deEnergised false .opened,
    siteObservation .closeProtectedCircuit .energised true .closed]

def siteZone : DocumentZone where
  zoneId := text "main"
  ratedCapacityParameter := text "rated_current"
  ratedCapacityValue := 10
  sensor :=
    { sensorId := text "ct1", quantity := text "current", unit := text "A", rangeMin := 0,
      rangeMax := 50, direction := text "import", noiseFloor := 1, calibrationRef := text "c1" }
  identity := .localGpio 17 true
  mapping := ⟨.deEnergised, .energised, .opened⟩
  proof :=
    { method := .actuateAndObserve, performedAtMs := 5, observations := siteObservations,
      controlPath := some ⟨.commandedAndObserved, 5, siteObservations⟩ }

def siteDocument (device : String) (bindingSeq : ℤ) (supersedes : Option Text) :
    BindingDocument where
  bindingSeq := bindingSeq
  deviceId := text device
  issuedAtMs := 5
  signerId := text "s"
  signingKey := text "k"
  inventoryGeneration := 1
  supersedes := supersedes
  actor := text "installer"
  reason := text "commissioning"
  zones := [siteZone]

/-- A startup that presents the document on a device that declares what it binds. -/
def siteStartupOf (b : BindingDocument) : StartupRun where
  startup :=
    { deviceId := b.deviceId, commissioningAnchorCurrent := some (text "k"),
      commissioningAnchorPrevious := none, provisioningAnchor := none,
      sensorIds := b.zones.map fun zone => zone.sensor.sensorId,
      actuators := b.zones.map fun zone => zone.identity.key, posture := .production,
      profiles := [], nowMs := 9,
      presented := .envelope ⟨b, text "k" ++ siteCrypto.canonicalBytes b⟩ }
  writes := 4

def siteStartup (device : String) (bindingSeq : ℤ) (supersedes : Option Text) : StartupRun :=
  siteStartupOf (siteDocument device bindingSeq supersedes)

instance : DecidableRel Succeeds := fun _ _ => inferInstanceAs (Decidable (_ ∧ _))

/-- After a binding for another device the succession starts anew, here at a lower number. -/
theorem binding_seq_not_increasing : ¬ ∀ crypto rs t, run (runStartup crypto) .empty rs = some t →
      t.contents.IsChain Succeeds := by
  intro h
  have hbroken : (run (runStartup siteCrypto) .empty
      [siteStartup "a" 2 none, siteStartup "b" 1 none]).any
        (fun t => decide (¬ t.contents.IsChain Succeeds)) = true := by decide +kernel
  obtain ⟨t, ht, hchain⟩ := (any_eq_true _ _).mp hbroken
  exact of_decide_eq_true hchain (h _ _ t ht)

theorem binding_in_force_succession_of_two : ∃ t, run (runStartup siteCrypto) .empty
      [siteStartup "a" 1 none, siteStartup "a" 2 (some (text "sha256:a-"))] = some t ∧
    t.contents.length = 2 ∧ GoesOn .empty t := by
  obtain ⟨t, ht, hlength⟩ : ∃ t, run (runStartup siteCrypto) .empty [siteStartup "a" 1 none,
    siteStartup "a" 2 (some (text "sha256:a-"))] = some t ∧ t.contents.length = 2 := exists_of_check
    (by decide +kernel)
  refine ⟨t, ht, hlength, (binding_in_force_succession storedTables_empty ht).2.2.2 ?_⟩
  refine meets_of_check (c := fun t r => t.rows.isEmpty || (reload t r.startup).1.inForce.isSome)
    (fun t r hc => ?_) (by decide +kernel)
  rcases Bool.or_eq_true_iff.mp hc with hempty | hadopted
  · exact .inl (isEmpty_iff.mp hempty)
  · exact .inr (isSome_iff_ne_none.mp hadopted)

end OriRuntime
