import OriRuntime.FirmwareReplay

/-!
# Replay safety of the gate

Over every interleaving of calls with the anchor lifecycle: the accepted messages of a device and
key epoch stand in the order of their sequences, each was verified against the columns in force
when it was accepted, and the faults stored are the faults accepted.
-/

namespace OriRuntime

open List Option

open Execution

namespace TelemetryGate

open FirmwareStore (DeviceRead AnchorOp Advanced Advance RowsKeyed Sound Behind faultRow)
open Telemetry (VerifiedAgainst)

variable {k : TelemetryKeys} {s s' : State}

/-! ### What was accepted -/

namespace Acceptance

variable (x y : Acceptance)

def deviceId : Text := x.verified.deviceId

def keyEpochId : Text := x.against.row.device.keyEpochId

def counters : Telemetry.Counters := x.verified.counters

/-- A message's identity. -/
def key : Text × Text × ℤ × ℤ := (x.deviceId, x.keyEpochId, x.counters.bootId, x.counters.seq)

def fault : Option FirmwareFault :=
  (recorded x.message x.receivedAtMs x.verified x.against).map
    (faultRow x.deviceId x.keyEpochId x.counters.bootId x.counters.seq)

/-- Of one device and key epoch: a later sequence, no earlier boot, and no earlier uptime in one
boot. -/
def Precedes : Prop :=
  x.deviceId = y.deviceId → x.keyEpochId = y.keyEpochId →
    x.counters.seq < y.counters.seq ∧ x.counters.bootId ≤ y.counters.bootId ∧
      (x.counters.bootId = y.counters.bootId → x.counters.uptimeMs ≤ y.counters.uptimeMs)

end Acceptance

/-! ### A resumption -/

namespace IngestPhase

def attempts : IngestPhase → ℕ
  | advancing _ _ n => n
  | rereading _ _ n => n
  | _ => 0

/-- The awaits a call may still make. -/
def awaits : IngestPhase → ℕ
  | reading => 2 * maxLostAdvances + 2
  | advancing _ _ n => 2 * (maxLostAdvances - n) + 1
  | rereading _ _ n => 2 * (maxLostAdvances - n) + 2
  | explaining _ => 1
  | done _ => 0

end IngestPhase

/-- A call's advances lost are bounded, and what it holds verified, it verified. -/
structure CallSound (k : TelemetryKeys) (c : IngestCall) : Prop where
  attempts_le : c.phase.attempts ≤ maxLostAdvances
  advancing : ∀ a v n, c.phase = .advancing a v n → n < maxLostAdvances ∧
    verify k c.family c.message a = .ok v
  rereading : ∀ a v n, c.phase = .rereading a v n → 0 < n

theorem callSound_of_settled (c : IngestCall) {phase : IngestPhase} (hzero : phase.attempts = 0)
    (hn : ∀ a v n, phase ≠ .advancing a v n ∧ phase ≠ .rereading a v n) :
    CallSound k { c with phase := phase } where
  attempts_le := by
    change phase.attempts ≤ maxLostAdvances
    rw [hzero]
    exact Nat.zero_le _
  advancing a v n hp := absurd hp (hn a v n).1
  rereading a v n hp := absurd hp (hn a v n).2

theorem callSound_done (c : IngestCall) (answer : IngestAnswer) :
    CallSound k { c with phase := .done answer } :=
  callSound_of_settled c rfl (fun _ _ _ => ⟨IngestPhase.noConfusion, IngestPhase.noConfusion⟩)

theorem judge_cases (k : TelemetryKeys) (policy : ManifestPolicy) (c : IngestCall)
    (row : Option VerifiedAgainst) (n : ℕ) :
    (∃ answer, (judge k policy c row n).1 = .done answer ∧ ∀ v a, answer ≠ .accepted v a) ∨
      ∃ a v, row = some a ∧ (judge k policy c row n).1 = .advancing a v n ∧ n < maxLostAdvances ∧
        verify k c.family c.message a = .ok v := by
  unfold judge
  cases row with
  | none => exact .inl ⟨_, rfl, fun v a => nofun⟩
  | some a =>
    dsimp only
    cases (storedManifestRefusal k policy a).1 with
    | some code => exact .inl ⟨_, rfl, fun v a => nofun⟩
    | none =>
      dsimp only
      cases hv : verify k c.family c.message a with
      | error e =>
        cases e with
        | refused e | raised => exact .inl ⟨_, rfl, fun v a => nofun⟩
      | ok v =>
        dsimp only
        split_ifs with hn
        · exact .inl ⟨_, rfl, fun v a => nofun⟩
        · exact .inr ⟨a, v, rfl, rfl, not_le.mp hn, hv⟩

/-- What a resumption does: only one whose advance lands accepts, or changes the store. -/
inductive Resumption (k : TelemetryKeys) (st : FirmwareStore) (c : IngestCall) :
    Resumed → Prop
  | landed (a : VerifiedAgainst) (v : VerifiedMessage) (n : ℕ) (st' : FirmwareStore)
      (policy : ManifestPolicy) (hphase : c.phase = .advancing a v n)
      (hadv : advance st c a v = .advanced st') :
      Resumption k st c { store := st', policy := policy, phase := .done (.accepted v a)
                          accepted := some { message := c.message, receivedAtMs := c.receivedAtMs
                                             verified := v, against := a } }
  | answered (policy : ManifestPolicy) (answer : IngestAnswer)
      (hcause : answer = .raised → ∀ a v n, c.phase = .advancing a v n → advance st c a v = .raised)
      (hnot : ∀ v a, answer ≠ .accepted v a) (hlive : 0 < c.phase.awaits) :
      Resumption k st c { store := st, policy := policy, phase := .done answer }
  | lost (a : VerifiedAgainst) (v : VerifiedMessage) (n : ℕ) (policy : ManifestPolicy)
      (hphase : c.phase = .advancing a v n) (hadv : advance st c a v = .lost) :
      Resumption k st c { store := st, policy := policy, phase := .rereading a v (n + 1) }
  | moved (a : VerifiedAgainst) (v : VerifiedMessage) (n : ℕ) (policy : ManifestPolicy)
      (hphase : c.phase = .rereading a v n) :
      Resumption k st c { store := st, policy := policy, phase := .explaining v }
  | verified (a : VerifiedAgainst) (v : VerifiedMessage) (n : ℕ) (policy : ManifestPolicy)
      (hphase : c.phase = .reading ∧ n = 0 ∨ ∃ a₀ v₀, c.phase = .rereading a₀ v₀ n)
      (hn : n < maxLostAdvances) (hverified : verify k c.family c.message a = .ok v) :
      Resumption k st c { store := st, policy := policy, phase := .advancing a v n }

variable {c : IngestCall} {policy : ManifestPolicy} {st : FirmwareStore} {r : Resumed} {i : ℕ}
  {a : VerifiedAgainst} {v : VerifiedMessage}

theorem resumption_judged {row : Option VerifiedAgainst} {n : ℕ}
    (hh : c.phase = .reading ∧ n = 0 ∨ ∃ a₀ v₀, c.phase = .rereading a₀ v₀ n) :
    Resumption k st c (judged st (judge k policy c row n)) := by
  have ho : ∀ a v m, c.phase ≠ .advancing a v m := by
    rintro a v m h
    rcases hh with ⟨hp, -⟩ | ⟨a₀, v₀, hp⟩
    all_goals cases hp.symm.trans h
  have hl : 0 < c.phase.awaits := by
    rcases hh with ⟨hp, -⟩ | ⟨a₀, v₀, hp⟩
    all_goals
      rw [hp]
      exact Nat.succ_pos _
  unfold judged
  rcases judge_cases k policy c row n with ⟨answer, h, ha⟩ | ⟨a, v, -, h, hn, hv⟩
  · rw [h]
    exact .answered _ answer (fun _ a v m hp => absurd hp (ho a v m)) ha hl
  · rw [h]
    exact .verified a v n _ hh hn hv

theorem resume_cases (h : resume k st policy c = some r) : Resumption k st c r := by
  unfold resume at h
  split at h
  · rename_i hh
    have hn : ∀ a v m, c.phase ≠ .advancing a v m := fun a v m hp => by cases hh.symm.trans hp
    split_ifs at h with hd
    · cases h
      exact resumption_judged (.inl ⟨hh, rfl⟩)
    · split at h
      · cases h
        refine .answered policy .raised (fun _ a v m hp => absurd hp (hn a v m)) (fun v a => nofun) ?_
        rw [hh]
        exact Nat.succ_pos _
      · cases h
        exact resumption_judged (.inl ⟨hh, rfl⟩)
  · rename_i a v n hh
    split at h
    · rename_i st' ha
      cases h
      exact .landed a v n st' policy hh ha
    · rename_i ha
      cases h
      exact .lost a v n policy hh ha
    · rename_i ha
      cases h
      refine .answered policy .raised ?_ (fun v a => nofun) ?_
      · intro _ a' v' n' hp
        cases hh.symm.trans hp
        exact ha
      · rw [hh]
        exact Nat.succ_pos _
  · rename_i a v n hh
    have hn : ∀ a v m, c.phase ≠ .advancing a v m := fun a v m hp => by cases hh.symm.trans hp
    split at h
    · cases h
      refine .answered policy .raised (fun _ a v m hp => absurd hp (hn a v m)) (fun v a => nofun) ?_
      rw [hh]
      exact Nat.succ_pos _
    · split_ifs at h with hs
      · cases h
        exact .moved a v n policy hh
      · cases h
        exact resumption_judged (.inr ⟨a, v, hh⟩)
  · rename_i v hh
    have hn : ∀ a v m, c.phase ≠ .advancing a v m := fun a v m hp => by cases hh.symm.trans hp
    have hl : 0 < c.phase.awaits := by
      rw [hh]
      exact Nat.one_pos
    split at h
    · cases h
      exact .answered policy .raised (fun _ a v m hp => absurd hp (hn a v m)) (fun v a => nofun) hl
    · cases h
      exact .answered policy _ (fun _ a v m hp => absurd hp (hn a v m)) (fun v a => nofun) hl
  · cases h

theorem resumed_of_step (h : step k s (.resume i) = some s') :
    ∃ c r, s.calls[i]? = some c ∧ resume k s.store s.policy c = some r ∧
      s' = { s with store := r.store, policy := r.policy
                    calls := s.calls.set i { c with phase := r.phase }
                    accepted := s.accepted ++ r.accepted.toList } := by
  unfold step at h
  dsimp only at h
  cases hc : s.calls[i]? with
  | none =>
    rw [hc] at h
    cases h
  | some c =>
    rw [hc] at h
    obtain ⟨r, hr, rfl⟩ := map_eq_some_iff.mp h
    exact ⟨c, r, rfl, hr, rfl⟩

theorem Resumption.awaits_lt (h : Resumption k st c r) (hc : CallSound k c) :
    r.phase.awaits < c.phase.awaits := by
  cases h with
  | landed a v n st' policy hh ha =>
    rw [hh]
    exact Nat.succ_pos _
  | answered policy answer hca ho hl => exact hl
  | lost a v n policy hh ha =>
    have hn := (hc.advancing a v n hh).1
    rw [hh]
    simp only [IngestPhase.awaits]
    omega
  | moved a v n policy hh =>
    rw [hh]
    simp only [IngestPhase.awaits]
    omega
  | verified a v n policy hh hn hv =>
    rcases hh with ⟨hp, rfl⟩ | ⟨a₀, v₀, hp⟩
    all_goals
      rw [hp]
      simp only [IngestPhase.awaits]
      omega

theorem Resumption.callSound (h : Resumption k st c r) (hc : CallSound k c) :
    CallSound k { c with phase := r.phase } := by
  cases h with
  | landed a v n st' policy hh ha => exact callSound_done c _
  | answered policy answer hca ho hl => exact callSound_done c answer
  | lost a v n policy hh ha =>
    refine ⟨(hc.advancing a v n hh).1, fun _ _ _ hp => IngestPhase.noConfusion hp,
      fun a' v' n' hp => ?_⟩
    obtain ⟨-, -, rfl⟩ := IngestPhase.rereading.inj hp
    exact Nat.succ_pos n
  | moved a v n policy hh =>
    exact callSound_of_settled c rfl
      (fun _ _ _ => ⟨IngestPhase.noConfusion, IngestPhase.noConfusion⟩)
  | verified a v n policy hh hn hv =>
    refine ⟨hn.le, fun a' v' n' hp => ?_, fun _ _ _ hp => IngestPhase.noConfusion hp⟩
    obtain ⟨rfl, rfl, rfl⟩ := IngestPhase.advancing.inj hp
    exact ⟨hn, hv⟩

/-! ### The invariant -/

structure GateSound (k : TelemetryKeys) (s : State) : Prop where
  anchors : Sound k.toFirmwareKeys s.store
  keyed : RowsKeyed k.toFirmwareKeys s.store
  calls : ∀ c ∈ s.calls, CallSound k c
  answered : ∀ c ∈ s.calls, ∀ v a, c.phase = .done (.accepted v a) →
    { message := c.message, receivedAtMs := c.receivedAtMs, verified := v, against := a } ∈ s.accepted
  verified : ∀ x ∈ s.accepted, ∃ family, verify k family x.message x.against = .ok x.verified
  epochs : ∀ x ∈ s.accepted, k.keyEpochId x.deviceId x.against.row.device.publicKeyB64 =
    some x.keyEpochId
  accounted : ∀ x ∈ s.accepted, FirmwareStore.Accounted k.toFirmwareKeys s.store x.deviceId
    x.against.row.device.publicKeyB64 x.counters.bootId x.counters.seq x.counters.uptimeMs
  ordered : s.accepted.Pairwise Acceptance.Precedes
  faults : s.store.faults = s.accepted.filterMap Acceptance.fault

theorem gateSound_empty : GateSound k {} := by
  refine ⟨FirmwareStore.sound_empty, ?_, ?_, ?_, ?_, ?_, ?_, List.Pairwise.nil, rfl⟩
  · intro d row h
    cases h
  all_goals
    intro x hx
    cases hx

theorem GateSound.behind (h : GateSound k s) (hs : Function.Injective k.sha256) {x : Acceptance}
    (hx : x ∈ s.accepted) {row : FirmwareDevice}
    (hr : s.store.registry.get? x.deviceId = some row) (he : row.keyEpochId = x.keyEpochId) :
    Behind row x.counters.bootId x.counters.seq x.counters.uptimeMs := by
  have hrowKey := h.keyed x.deviceId row hr
  rw [he] at hrowKey
  have hk := (FirmwareKeys.keyEpochId_inj hs hrowKey (h.epochs x hx)).2
  exact (h.accounted x hx).behind hr hk

theorem advanced_of_landed {st' : FirmwareStore} (h : advance st c a v = .advanced st') :
    ∃ row, Advanced st st' v.deviceId v.counters.bootId v.counters.seq v.counters.uptimeMs
      a.row.device.toAnchorColumns a.row.activationId (recorded c.message c.receivedAtMs v a) row :=
  FirmwareStore.advanced_of_advance h

theorem GateSound.landed (h : GateSound k s) (hs : Function.Injective k.sha256)
    (hc : s.calls[i]? = some c) {n : ℕ} {st' : FirmwareStore} (hh : c.phase = .advancing a v n)
    (ha : advance s.store c a v = .advanced st') :
    GateSound k { s with store := st', calls := s.calls.set i { c with phase := .done (.accepted v a) }
                         accepted := s.accepted ++ [{ message := c.message
                                                      receivedAtMs := c.receivedAtMs
                                                      verified := v, against := a }] } := by
  obtain ⟨row, hr⟩ := advanced_of_landed ha
  have hv := (((h.calls c (mem_of_getElem? hc)).advancing a v n hh).2)
  have hk : row.publicKeyB64 = a.row.device.publicKeyB64 := congrArg (·.publicKeyB64) hr.columns
  have he : row.keyEpochId = a.row.device.keyEpochId := congrArg (·.keyEpochId) hr.columns
  refine ⟨hr.sound h.anchors, hr.rowsKeyed h.keyed, ?_, ?_, ?_, ?_, ?_, ?_, ?_⟩
  · intro c' hc'
    rcases mem_or_eq_of_mem_set hc' with hm | rfl
    · exact h.calls c' hm
    · exact callSound_done c _
  · intro c' hc' v' a' hp
    rcases mem_or_eq_of_mem_set hc' with hm | rfl
    · exact mem_append_left _ (h.answered c' hm v' a' hp)
    · obtain ⟨rfl, rfl⟩ := IngestAnswer.accepted.inj (IngestPhase.done.inj hp)
      exact mem_append_right _ (mem_singleton.mpr rfl)
  · intro x hx
    rcases mem_append.mp hx with hm | hn
    · exact h.verified x hm
    · obtain rfl := mem_singleton.mp hn
      exact ⟨c.family, hv⟩
  · intro x hx
    rcases mem_append.mp hx with hm | hn
    · exact h.epochs x hm
    obtain rfl := mem_singleton.mp hn
    have hkeye := h.keyed v.deviceId row hr.registered
    rw [hk, he] at hkeye
    exact hkeye
  · intro x hx
    rcases mem_append.mp hx with hm | hn
    · exact (h.accounted x hm).advanced hr
    · obtain rfl := mem_singleton.mp hn
      exact .inl ⟨_, hr.registry.self, hk, FirmwareStore.behind_advancedDevice ..⟩
  · refine pairwise_append.mpr ⟨h.ordered, pairwise_singleton _ _, ?_⟩
    intro x hx y hy hd hkeys
    obtain rfl := mem_singleton.mp hy
    have hr' : s.store.registry.get? x.deviceId = some row := hd ▸ hr.registered
    exact (h.behind hs hx hr' (he.trans hkeys.symm)).lt_of_advances hr.advances
  · rw [filterMap_append, ← h.faults, hr.faults]
    rfl

theorem GateSound.resumed (h : GateSound k s) (i : ℕ) {phase : IngestPhase}
    (hs : CallSound k { c with phase := phase }) (hn : ∀ v a, phase ≠ .done (.accepted v a)) :
    GateSound k { s with policy := policy, calls := s.calls.set i { c with phase := phase } } := by
  refine { h with calls := ?_, answered := ?_ }
  · intro c' hc'
    rcases mem_or_eq_of_mem_set hc' with hm | rfl
    · exact h.calls c' hm
    · exact hs
  · intro c' hc' v a hp
    rcases mem_or_eq_of_mem_set hc' with hm | rfl
    · exact h.answered c' hm v a hp
    · exact absurd hp (hn v a)

theorem GateSound.step (h : GateSound k s) (hs : Function.Injective k.sha256) {l : Label}
    (hstep : step k s l = some s') : GateSound k s' := by
  cases l with
  | lifecycle op =>
    obtain ⟨st, ht, rfl⟩ := map_eq_some_iff.mp hstep
    have hc := FirmwareStore.perform_change ht
    exact ⟨h.anchors.change hs hc, hc.rowsKeyed hs h.anchors h.keyed, h.calls, h.answered,
      h.verified, h.epochs, fun x hx => (h.accounted x hx).change hs h.anchors h.keyed hc,
      h.ordered, (FirmwareStore.perform_faults ht).trans h.faults⟩
  | ingest family message receivedAtMs =>
    cases hstep
    refine ⟨h.anchors, h.keyed, ?_, ?_, h.verified, h.epochs, h.accounted, h.ordered, h.faults⟩
    · intro c hc
      rcases mem_append.mp hc with hm | he
      · exact h.calls c hm
      obtain rfl := mem_singleton.mp he
      exact ⟨Nat.zero_le _, fun _ _ _ hp => IngestPhase.noConfusion hp,
        fun _ _ _ hp => IngestPhase.noConfusion hp⟩
    · intro c hc v a hp
      rcases mem_append.mp hc with hm | he
      · exact h.answered c hm v a hp
      · obtain rfl := mem_singleton.mp he
        exact IngestPhase.noConfusion hp
  | resume i =>
    obtain ⟨c, r, hc, hr, rfl⟩ := resumed_of_step hstep
    have hre := resume_cases hr
    have hsn := h.calls c (mem_of_getElem? hc)
    have hkeep := hre.callSound hsn
    cases hre with
    | landed a v n st' policy hh ha =>
      obtain ⟨h₁, h₂, h₃, h₄, h₅, h₆, h₇, h₈, h₉⟩ := h.landed hs hc hh ha
      exact ⟨h₁, h₂, h₃, h₄, h₅, h₆, h₇, h₈, h₉⟩
    | answered policy answer hca ho hl =>
      have hn' : ∀ v a, IngestPhase.done answer ≠ .done (.accepted v a) :=
        fun v a hp => ho v a (IngestPhase.done.inj hp)
      rw [toList_none, append_nil]
      exact h.resumed i hkeep hn'
    | lost a v n policy hh ha | moved a v n policy hh
    | verified a v n policy hh hn hv =>
      rw [toList_none, append_nil]
      exact h.resumed i hkeep (fun _ _ hp => IngestPhase.noConfusion hp)
  | restart =>
    cases hstep
    refine ⟨h.anchors, h.keyed, ?_, ?_, h.verified, h.epochs, h.accounted, h.ordered, h.faults⟩
    all_goals
      intro c hc
      cases hc

theorem gateSound_of_reaches (hh : Function.Injective k.sha256)
    (h : Reaches (TelemetryGate.step k) {} s) : GateSound k s :=
  h.invariant (fun _ _ _ hs ht => hs.step hh ht) gateSound_empty

/-! ### The guard and the checks -/

theorem advances_of_verified {row : DeviceRead} {c : Telemetry.Counters}
    (hs : Telemetry.requireInService row.device = .ok ())
    (hf : Telemetry.requireFresh row c = .ok ())
    (hd : row.lastUptimeMs =
      if row.device.lastUptimeMark = some (FirmwareStore.uptimeMark row.device) then
        row.device.lastUptimeMs else none) :
    FirmwareStore.advances row.device c.bootId c.seq c.uptimeMs := by
  obtain ⟨hr, ha⟩ := Telemetry.inService_of_requireInService hs
  unfold Telemetry.requireFresh Telemetry.refuse at hf
  split_ifs at hf with hboot he hp
  refine ⟨hr, ha, not_lt.mp hboot, not_le.mp he, ?_⟩
  by_cases hn : row.device.lastBootId < c.bootId
  · exact .inl hn
  by_cases hmark : row.device.lastUptimeMark = some (FirmwareStore.uptimeMark row.device)
  · rw [if_pos hmark] at hd
    cases hu : row.device.lastUptimeMs with
    | none => exact .inr (.inl rfl)
    | some u =>
      refine .inr (.inr (.inr ⟨u, rfl, ?_⟩))
      have hm : c.bootId = row.device.lastBootId := by omega
      rw [hd, hu] at hp
      exact not_lt.mp (fun hl => hp ⟨hm, decide_eq_true hl⟩)
  · exact .inr (.inr (.inl hmark))

theorem verify_spec {family : MessageFamily} {message : Json}
    (h : verify k family message a = .ok v) :
    Telemetry.requireInService a.row.device = .ok () ∧
      Telemetry.requireFresh a.row v.counters = .ok () ∧ v.deviceId = a.deviceId := by
  cases family with
  | telemetry =>
    unfold verify at h
    cases hv : Telemetry.verifyTelemetryMessage k message a with
    | error e =>
      rw [hv] at h
      cases h
    | ok w =>
      rw [hv] at h
      cases h
      exact Telemetry.verifyTelemetryMessage_spec hv
  | fault =>
    unfold verify at h
    cases hv : Telemetry.verifyFaultMessage k message a with
    | error e =>
      rw [hv] at h
      cases h
    | ok w =>
      rw [hv] at h
      cases h
      exact Telemetry.verifyFaultMessage_spec hv

theorem ne_row_of_lost (hv : verify k c.family c.message a = .ok v) (h : advance st c a v = .lost) :
    st.getFirmwareDevice v.deviceId ≠ some a.row := by
  intro hd
  obtain ⟨row, hr, hr'⟩ := map_eq_some_iff.mp hd
  obtain ⟨hs, hf, -⟩ := verify_spec hv
  have ha := advances_of_verified hs hf (by rw [← hr'])
  rw [← hr'] at ha
  exact FirmwareStore.not_lost_of_guard hr ha (by rw [← hr']) (by rw [← hr']) h

theorem isSome_step_resume (hc : s.calls[i]? = some c) (hl : 0 < c.phase.awaits) :
    (step k s (.resume i)).isSome := by
  unfold step
  dsimp only
  rw [hc]
  dsimp only
  rw [isSome_map]
  unfold resume
  cases hp : c.phase with
  | reading =>
    dsimp only
    split
    · rfl
    · split <;> rfl
  | advancing a v n =>
    dsimp only
    split <;> rfl
  | rereading a v n =>
    dsimp only
    split
    · rfl
    · split <;> rfl
  | explaining v =>
    dsimp only
    split <;> rfl
  | done answer =>
    rw [hp] at hl
    exact absurd hl (lt_irrefl 0)

/-! ### Replay safety -/

structure ReplaySafe (k : TelemetryKeys) (s : State) : Prop where
  once : (s.accepted.map Acceptance.key).Nodup
  ordered : s.accepted.Pairwise Acceptance.Precedes
  in_force : ∀ l s', step k s l = some s' → s'.accepted = s.accepted ∨
    ∃ x row, s'.accepted = s.accepted ++ [x] ∧ s.store.registry.get? x.deviceId = some row ∧
      row.approved = true ∧ row.revoked = false ∧
      row.toAnchorColumns = x.against.row.device.toAnchorColumns ∧
      FirmwareStore.activationId s.store.transitions x.deviceId = x.against.row.activationId
  verified : ∀ x ∈ s.accepted, ∃ family, verify k family x.message x.against = .ok x.verified
  answered : ∀ c ∈ s.calls, ∀ v a, c.phase = .done (.accepted v a) →
    { message := c.message, receivedAtMs := c.receivedAtMs, verified := v, against := a } ∈ s.accepted
  faults : s.store.faults = s.accepted.filterMap Acceptance.fault
  unraised : ∀ c ∈ s.calls, ∀ a v n, c.phase = .advancing a v n → advance s.store c a v ≠ .raised
  attempts_le : ∀ c ∈ s.calls, c.phase.attempts ≤ maxLostAdvances
  lost : ∀ c ∈ s.calls, ∀ a v n, c.phase = .advancing a v n → advance s.store c a v = .lost →
    s.store.getFirmwareDevice v.deviceId ≠ some a.row
  resumes : ∀ i c, s.calls[i]? = some c → 0 < c.phase.awaits → (step k s (.resume i)).isSome
  ends : ∀ i s', step k s (.resume i) = some s' → ∃ c c', s.calls[i]? = some c ∧
    s'.calls[i]? = some c' ∧ c'.phase.awaits < c.phase.awaits

theorem in_force_of_step {l : Label} (hs : step k s l = some s') : s'.accepted = s.accepted ∨
    ∃ x row, s'.accepted = s.accepted ++ [x] ∧ s.store.registry.get? x.deviceId = some row ∧
      row.approved = true ∧ row.revoked = false ∧
      row.toAnchorColumns = x.against.row.device.toAnchorColumns ∧
      FirmwareStore.activationId s.store.transitions x.deviceId = x.against.row.activationId := by
  cases l with
  | lifecycle op =>
    obtain ⟨st, -, rfl⟩ := map_eq_some_iff.mp hs
    exact .inl rfl
  | ingest family message receivedAtMs | restart =>
    cases hs
    exact .inl rfl
  | resume i =>
    obtain ⟨c, r, hc, hr, rfl⟩ := resumed_of_step hs
    cases resume_cases hr with
    | landed a v n st' policy hp ha =>
      obtain ⟨row, ho⟩ := advanced_of_landed ha
      exact .inr ⟨_, row, rfl, ho.registered, ho.advances.2.1, ho.advances.1,
        ho.columns, ho.activation⟩
    | answered policy answer hca hno hl | lost a v n policy hp ha
    | moved a v n policy hp | verified a v n policy hp hn hv =>
      exact .inl (append_nil _)

theorem GateSound.unraised (h : GateSound k s) (hs : Function.Injective k.sha256)
    (hra : advance s.store c a v = .raised) : False := by
  obtain ⟨row, hr, ha, hc, f, hf, hd, he, hboot, hse⟩ := FirmwareStore.fault_of_raised hra
  rw [h.faults] at hf
  obtain ⟨x, hx, hfa⟩ := mem_filterMap.mp hf
  obtain ⟨event, -, rfl⟩ := map_eq_some_iff.mp hfa
  have hm : row.keyEpochId = x.keyEpochId := (congrArg (·.keyEpochId) hc).trans he.symm
  have hr' : s.store.registry.get? x.deviceId = some row := (show x.deviceId = v.deviceId from hd) ▸ hr
  have hl := ((h.behind hs hx hr' hm).lt_of_advances ha).1
  exact absurd hse hl.ne

theorem replay_safe (k : TelemetryKeys) (hsha : Function.Injective k.sha256) (s : State)
    (h : Reaches (TelemetryGate.step k) {} s) : ReplaySafe k s := by
  have hs := gateSound_of_reaches hsha h
  refine ⟨?_, hs.ordered, fun l s' hstep => in_force_of_step hstep, hs.verified, hs.answered,
    hs.faults, fun c _ a v n _ hraised => hs.unraised hsha hraised,
    fun c hc => (hs.calls c hc).attempts_le, ?_, ?_, ?_⟩
  · rw [nodup_iff_pairwise_ne, pairwise_map]
    refine hs.ordered.imp (fun hxy heq => ?_)
    obtain ⟨hdevice, hkeys, -, hseq⟩ : _ ∧ _ ∧ _ ∧ _ := by simpa [Acceptance.key] using heq
    exact (hxy hdevice hkeys).1.ne hseq
  · intro c hc a v n hphase hlost
    exact ne_row_of_lost ((hs.calls c hc).advancing a v n hphase).2 hlost
  · intro i c hc hlive
    exact isSome_step_resume hc hlive
  · intro i s' hstep
    obtain ⟨c, r, hc, hr, rfl⟩ := resumed_of_step hstep
    have hlt := (resume_cases hr).awaits_lt (hs.calls c (mem_of_getElem? hc))
    refine ⟨c, { c with phase := r.phase }, hc, ?_, hlt⟩
    obtain ⟨hi, -⟩ := List.getElem?_eq_some_iff.mp hc
    exact List.getElem?_set_self hi

section Bench

open Json (obj)

def benchSignature : List ℕ := List.replicate 64 7

/-- The anchor keys, with one more encoding: of a signature. -/
def benchTelemetryKeys : TelemetryKeys where
  sha256 := FirmwareStore.benchKeys.sha256
  b64decode s := if s = text "c2ln" then some benchSignature else FirmwareStore.benchKeys.b64decode s
  b64encode raw :=
    if raw = benchSignature then text "c2ln"
    else if raw = List.replicate 32 0 then text "AAAAAAAAAAAAAAAAAAAAAAAAAAAAAAAAAAAAAAAAAAA="
    else []
  refusedPublicKey _ := false
  verifies _ signature _ := decide (signature = benchSignature)
  str _ := []
  manifestPolicy _ := none

def pumpManifest : ManifestAnchor where
  deviceId := text "pump-1"
  publicKeyB64 := text "AAAAAAAAAAAAAAAAAAAAAAAAAAAAAAAAAAAAAAAAAAA="
  posture := text "sealed_flash"
  capabilityHash := text "sha256:cap"
  manifestJson := text "\x7b\x7d"
  channelMapJson := text "\x7b\x7d"
  boardProfile := text "esp32"

def heartbeat (bootId seq uptimeMs : ℤ) : Json :=
  obj [("envelope", obj [("v", .int 1), ("alg", .str (text "ed25519")),
      ("device_id", .str (text "pump-1")), ("boot_id", .int bootId), ("seq", .int seq),
      ("capability_hash", .str (text "sha256:cap")), ("posture", .str (text "sealed_flash")),
      ("device_uptime_ms", .int uptimeMs), ("emitted_at_ms", .null), ("readings", .list [])]),
    ("signature", .str (text "ed25519:c2ln"))]

def pumpFault (bootId seq uptimeMs : ℤ) : Json :=
  obj [("fault", obj [("v", .int 1), ("alg", .str (text "ed25519")),
      ("device_id", .str (text "pump-1")), ("boot_id", .int bootId), ("seq", .int seq),
      ("capability_hash", .str (text "sha256:cap")), ("posture", .str (text "sealed_flash")),
      ("device_uptime_ms", .int uptimeMs), ("code", .str (text "interlock_tripped")),
      ("subject", .str (text "overpressure")), ("detail", .str [])]),
    ("signature", .str (text "ed25519:c2ln"))]

def heartbeatTwice : List Label :=
  [.lifecycle (.upsert pumpManifest 1), .lifecycle (.approve (text "pump-1")
    (FirmwareStore.operator 2) none),
    .ingest .telemetry (heartbeat 1 1 500) 10, .ingest .telemetry (heartbeat 1 1 500) 11,
    .resume 0, .resume 1, .resume 0, .resume 1, .resume 1, .resume 1,
    .ingest .fault (pumpFault 1 2 900) 12, .resume 2, .resume 2]

def answerOf (c : IngestCall) : Option (Except TelemetryError Unit) :=
  match c.phase with
  | .done (.accepted _ _) => some (.ok ())
  | .done (.rejected e) => some (.error e)
  | _ => none

theorem replay_safe_of_heartbeatTwice : ∃ s : State,
    s.calls.map answerOf = [some (.ok ()), some (.error .sequenceReplay), some (.ok ())] ∧
    s.accepted.map (·.counters.seq) = [1, 2] ∧ s.store.faults.map (·.seq) = [2] ∧
    ReplaySafe benchTelemetryKeys s := by
  obtain ⟨s, hs, hanswers, haccepted, hfaults⟩ : ∃ s, run (TelemetryGate.step benchTelemetryKeys) {}
    heartbeatTwice = some s ∧ s.calls.map answerOf = [some (.ok ()), some (.error .sequenceReplay),
    some (.ok ())] ∧ s.accepted.map (·.counters.seq) = [1, 2] ∧ s.store.faults.map (·.seq) = [2] :=
    exists_of_check (by decide +kernel)
  have hsha : Function.Injective benchTelemetryKeys.sha256 := fun _ _ h => append_cancel_left h
  exact ⟨s, hanswers, haccepted, hfaults, replay_safe benchTelemetryKeys hsha s ⟨heartbeatTwice, hs⟩⟩

end Bench

end TelemetryGate

end OriRuntime
