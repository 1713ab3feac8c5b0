import OriRuntime.LedgerGrowth

/-!
# Sound rows

In every state the ledger reaches, sequences are distinct, held custody has its record time, and a
courier's answer is one of its closed set. A statement that would break one of these is refused.
-/

namespace OriRuntime

open List

open Execution

namespace Tables

variable {t t' : Tables} {l : EvidenceDeliveryLedger}

/-- Held custody has its record time, and a courier's answer is one of the closed set. -/
def SoundDelivery (d : Delivery) : Prop :=
  (d.custodyState = .held → d.custodyRecordedAtMs ≠ none) ∧
    d.courierAnswer.all (fun a => decide (a ∈ ["queued", "queue_full", "refused"])) = true

structure SoundRows (t : Tables) : Prop where
  distinct : (t.rows.map (·.localSeq)).Nodup
  deliveries : ∀ r ∈ t.rows, SoundDelivery r.delivery

theorem SoundRows.of_eq (h : SoundRows t) (hr : t'.rows = t.rows) : SoundRows t' :=
  ⟨hr ▸ h.distinct, hr ▸ h.deliveries⟩

variable {r : LedgerRow} {f : Delivery → Delivery} {localSeq : ℕ} {sealedAtMs : ℤ}

theorem SoundRows.append (h : SoundRows t) (hw : t'.rows = t.rows ++ [r])
    (hn : r.localSeq ∉ t.rows.map (·.localSeq)) (hr : SoundDelivery r.delivery) :
    SoundRows t' := by
  constructor
  · rw [hw, map_append]
    refine nodup_append.mpr ⟨h.distinct, nodup_singleton _, ?_⟩
    intro a ha b hb
    obtain rfl := mem_singleton.mp hb
    rintro rfl
    exact hn ha
  · intro q hq
    rw [hw] at hq
    rcases mem_append.mp hq with hq | hq
    · exact h.deliveries q hq
    · rw [mem_singleton.mp hq]
      exact hr

theorem checked_courierAnswer {d : Delivery} (h : checked d = true) :
    d.courierAnswer.all (fun a => decide (a ∈ ["queued", "queue_full", "refused"])) = true := by
  exact (Bool.and_eq_true_iff.mp h).2

theorem updateDelivery_checked (h : t.updateDelivery localSeq f = .ok t') (hr : r ∈ t.rows)
    (hs : r.localSeq = localSeq) : checked (f r.delivery) = true := by
  unfold updateDelivery at h
  split_ifs at h with ha
  have ho := all_eq_true.mp ha r hr
  simp only [hs, ne_eq, not_true_eq_false, decide_false, Bool.false_or, Bool.and_eq_true] at ho
  exact ho.2

theorem Updated.localSeqs (h : Updated t localSeq f t') :
    t'.rows.map (·.localSeq) = t.rows.map (·.localSeq) := by
  rw [h.eq, map_map]
  refine map_congr_left ?_
  intro r hr
  dsimp only [Function.comp_apply]
  split_ifs <;> rfl

/-- A held custody keeps its record time. -/
def KeepsCustody (f : Delivery → Delivery) : Prop :=
  ∀ d, (d.custodyState = .held → d.custodyRecordedAtMs ≠ none) →
    (f d).custodyState = .held → (f d).custodyRecordedAtMs ≠ none

theorem SoundRows.update (h : SoundRows t) (hu : t.updateDelivery localSeq f = .ok t')
    (hf : KeepsCustody f) : SoundRows t' := by
  have hupda := updateDelivery_updated hu
  constructor
  · rw [hupda.localSeqs]
    exact h.distinct
  · intro q hq
    rw [hupda.eq] at hq
    obtain ⟨r, hr, rfl⟩ := mem_map.mp hq
    split_ifs with hs
    · have hc := updateDelivery_checked hu hr hs
      exact ⟨hf _ (h.deliveries r hr).1, checked_courierAnswer hc⟩
    · exact h.deliveries r hr

/-- What holds of the rows through every statement on them. -/
structure RowInvariant (e : LedgerSetting) (P : Tables → Prop) : Prop where
  of_eq : ∀ {t t' : Tables}, P t → t'.rows = t.rows → P t'
  seals : ∀ {t t' : Tables} {w : ℕ} {row : CarriedRow} {sealedAtMs : ℤ}, P t →
    t.sealChainRow (e.ledgers.ledger w) row sealedAtMs = .ok t' → P t'
  update : ∀ {t t' : Tables} {localSeq : ℕ} {f : Delivery → Delivery}, P t →
    t.updateDelivery localSeq f = .ok t' → KeepsCustody f → P t'

namespace RowInvariant

variable {e : LedgerSetting} {P : Tables → Prop} (hP : RowInvariant e P)

include hP

theorem applyVerifiedCustody (h : P t) {v : VerifiedCustody} {recordedAtMs : ℤ}
    (ha : t.applyVerifiedCustody v recordedAtMs = .ok t') : P t' := by
  obtain ⟨held, -, -, ⟨-, -, ⟨-, rfl⟩ | ⟨-, hu⟩⟩ | ⟨-, hu⟩⟩ := applyVerifiedCustody_cases ha
  · exact h
  · refine hP.update h hu ?_
    intro d hd hh
    dsimp only at hh ⊢
    split_ifs at hh ⊢
    · exact Option.some_ne_none _
    · exact hd hh
  · exact hP.update h hu (fun d hd hh => Option.some_ne_none _)

theorem applyReceipts (h : P t) {atMs : ℤ} {keyId : Text} {ns applied : List ℕ}
    (ha : Tables.applyReceipts atMs keyId t ns = .ok (t', applied)) : P t' := by
  induction ns generalizing t applied with
  | nil =>
    cases ha
    exact h
  | cons n ns ih =>
    obtain ⟨held, -, -, ⟨-, hr⟩ | ⟨u, rest, -, hu, hr⟩⟩ := applyReceipts_cons ha
    · exact ih h hr
    · exact ih (hP.update h hu (fun d hd => hd)) hr

end RowInvariant

theorem sealChainRow_sound (h : SoundRows t) {row : CarriedRow}
    (ha : t.sealChainRow l row sealedAtMs = .ok t') : SoundRows t' := by
  obtain rfl | ⟨-, rows, raced, hseal, rfl⟩ := sealChainRow_cases ha
  · exact h
  obtain rfl | ⟨wire, localSeq, hr, hn, -⟩ := sealInTransaction_cases hseal
  · exact h.of_eq rfl
  · exact h.append hr hn ⟨nofun, rfl⟩

theorem insertArtifact_rows (t : Tables) (artifactType : ArtifactType) (wire digest : Text)
    (createdAtMs : ℤ) : (t.insertArtifact artifactType wire digest createdAtMs).rows = t.rows := by
  unfold insertArtifact
  split_ifs <;> rfl

theorem sealRegistration_rows {registration : Json}
    (h : t.sealRegistration l registration sealedAtMs = .ok t') : t'.rows = t.rows := by
  unfold sealRegistration at h
  split at h
  · cases h
  split at h
  · cases h
  dsimp only at h
  split at h
  · split at h
    · rw [← Except.ok.inj h]
    · split at h
      · cases h
      · rw [← Except.ok.inj h, insertArtifact_rows]
        split <;> rfl
  · cases h

theorem dispose_rows (t : Tables) (l : EvidenceDeliveryLedger) (d : VerifiedDisposition)
    (target : Option Obligation) (epoch : Text) (atMs : ℤ) :
    (t.dispose l d target epoch atMs).rows = t.rows := by
  unfold dispose
  split <;> rfl

theorem applyVerifiedDisposition_rows {d : VerifiedDisposition} {atMs : ℤ} {applied : Bool}
    (h : t.applyVerifiedDisposition l d atMs = .ok (t', applied)) : t'.rows = t.rows := by
  obtain ⟨rfl, -⟩ | ⟨kind, epoch, target, row, -, -, rfl⟩ := applyVerifiedDisposition_cases h
  · rfl
  · exact dispose_rows t l d target epoch atMs

theorem recordArtifactFault_rows (t : Tables) (holder : FaultHolder) (holderId : ℕ)
    (reason : FaultReason) (atMs : ℤ) :
    (t.recordArtifactFault holder holderId reason atMs).rows = t.rows := by
  unfold recordArtifactFault
  split_ifs <;> rfl

end Tables

namespace LedgerState

variable {e : LedgerSetting} {s s' : LedgerState}

open Tables

namespace RowInvariant

variable {P : Tables → Prop} (hP : Tables.RowInvariant e P)

include hP

theorem perform {w : ℕ} {t t' : Tables} {op : LedgerOp} (hs : P t)
    (h : LedgerState.perform e w t op = .ok t') : P t' := by
  cases op with
  | sealChainRow row sealedAtMs => exact hP.seals hs h
  | sealRegistration registration sealedAtMs => exact hP.of_eq hs (sealRegistration_rows h)
  | custody artifact recordedAtMs =>
    simp only [LedgerState.perform, acceptCustody] at h
    split at h
    · cases h
    · exact hP.applyVerifiedCustody hs h
  | receipt artifact =>
    obtain ⟨applied, hc⟩ := map_fst_eq_ok h
    obtain ⟨v, -, ha⟩ := acceptReceipt_cases hc
    exact hP.applyReceipts hs ha
  | confirmation artifact closedAtMs =>
    simp only [LedgerState.perform, acceptEpochConfirmation] at h
    split at h
    · cases h
    obtain ⟨rfl, -⟩ | ⟨-, hr, -⟩ := applyVerifiedEpochConfirmation_cases h
    · exact hs
    · exact hP.of_eq hs hr
  | disposition d atMs =>
    obtain ⟨applied, ha⟩ := map_fst_eq_ok h
    exact hP.of_eq hs (applyVerifiedDisposition_rows ha)
  | recordAttempt localSeq atMs failure =>
    exact hP.update hs (recordAttempt_cases h) (fun d hd => hd)
  | recordTransportFailure localSeq failure =>
    exact hP.update hs (recordTransportFailure_cases h) (fun d hd => hd)
  | courierAnswer localSeq answer atMs answeredAtMs =>
    obtain rfl | hu | hu := applyCourierAnswer_cases h
    · exact hs
    all_goals exact hP.update hs hu (fun d hd => hd)
  | recordArtifactFault holder holderId reason atMs =>
    cases h
    exact hP.of_eq hs (recordArtifactFault_rows t holder holderId reason atMs)
  | _ =>
    cases h
    exact hP.of_eq hs rfl

theorem apply (hs : P s.tables) (w : ℕ) (op : LedgerOp) :
    P (LedgerState.apply e s w op).1.tables := by
  obtain heq | hp | ⟨counter, t', rfl, heq | ⟨bootId, issuedAtMs, -, hi⟩⟩ :=
    apply_cases (e := e) s w op
  · rw [heq]
    exact hs
  · exact perform hP hs hp
  · rw [heq]
    exact hP.of_eq hs rfl
  · obtain ⟨wire, ht, -⟩ := issueCheckpoint_cases hi
    rw [ht]
    exact hP.of_eq hs (insertArtifact_rows _ _ _ _ _)

theorem of_reaches (he : P ({} : LedgerState).tables) (h : Reaches (step e) {} s) : P s.tables := by
  have hk : ∀ (u : LedgerState) (a : ℕ × LedgerOp) (v : LedgerState),
      P u.tables → step e u a = some v → P v.tables := by
    intro u a v hu hs
    cases hs
    exact apply hP hu a.1 a.2
  exact Reaches.invariant hk he h

end RowInvariant

theorem soundRows_invariant (e : LedgerSetting) : Tables.RowInvariant e SoundRows where
  of_eq h := h.of_eq
  seals h := sealChainRow_sound h
  update h := h.update

theorem apply_sound (hs : SoundRows s.tables) (w : ℕ) (op : LedgerOp) :
    SoundRows (apply e s w op).1.tables :=
  RowInvariant.apply (P := SoundRows) (soundRows_invariant e) hs w op

theorem sound_of_reaches (h : Reaches (step e) {} s) : SoundRows s.tables :=
  RowInvariant.of_reaches (P := SoundRows) (soundRows_invariant e)
    ⟨nodup_nil, fun _ hr => absurd hr not_mem_nil⟩ h

end LedgerState

end OriRuntime
