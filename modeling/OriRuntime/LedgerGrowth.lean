import OriRuntime.LedgerOps

/-!
# What every operation keeps

No operation withdraws or rewrites a recorded custody, receipt, confirmation, disposition or stop.
The statements that update a delivery pass the table's triggers, so this holds of them all at once.
-/

namespace OriRuntime

open List

open Execution

namespace Tables

variable {t t' u : Tables} {l : EvidenceDeliveryLedger} {k : IngestKeys}

theorem map_fst_eq_ok {ε α β : Type*} {x : Except ε (α × β)} {a : α}
    (h : x.map (·.1) = .ok a) : ∃ b, x = .ok (a, b) := by
  cases x with
  | error e => cases h
  | ok r =>
    cases h
    exact ⟨r.2, rfl⟩

/-- What a recorded custody and a recorded receipt keep. -/
structure Final (d d' : Delivery) : Prop where
  custody : d.custodyState = .held → d'.custodyState = .held ∧ d'.custodyAtMs = d.custodyAtMs ∧
    d'.custodyKeyId = d.custodyKeyId ∧
    (d.custodyRecordedAtMs ≠ none → d'.custodyRecordedAtMs = d.custodyRecordedAtMs)
  receipt : d.receiptState = .accepted → d'.receiptState = .accepted ∧
    d'.receiptAtMs = d.receiptAtMs ∧ d'.receiptKeyId = d.receiptKeyId

theorem Final.refl (d : Delivery) : Final d d := ⟨fun h => ⟨h, rfl, rfl, fun _ => rfl⟩,
  fun h => ⟨h, rfl, rfl⟩⟩

theorem Final.trans {d d' d'' : Delivery} (h : Final d d') (h' : Final d' d'') : Final d d'' where
  custody hh := by
    obtain ⟨hh', ht, hk, hr⟩ := h.custody hh
    obtain ⟨hh'', ht', hk', hr'⟩ := h'.custody hh'
    refine ⟨hh'', ht'.trans ht, hk'.trans hk, fun ho => ?_⟩
    have hs := hr ho
    rw [hr' (hs ▸ ho), hs]
  receipt ha := by
    obtain ⟨ha', ht, hk⟩ := h.receipt ha
    obtain ⟨ha'', ht', hk'⟩ := h'.receipt ha'
    exact ⟨ha'', ht'.trans ht, hk'.trans hk⟩

/-- Every row stands under its number with its sealed columns, and what it recorded is final. -/
def RowsGrow (t t' : Tables) : Prop :=
  ∀ n r, t.findSeq n = some r → ∃ r', t'.findSeq n = some r' ∧
    r'.toSealedColumns = r.toSealedColumns ∧ Final r.delivery r'.delivery

structure Grows (t t' : Tables) : Prop where
  rows : RowsGrow t t'
  confirmations : t.confirmations <+: t'.confirmations
  dispositions : t.dispositions <+: t'.dispositions
  stops : t.stops <+: t'.stops

theorem RowsGrow.refl (t : Tables) : RowsGrow t t := fun _ r h => ⟨r, h, rfl, .refl _⟩

theorem RowsGrow.of_eq (h : t'.rows = t.rows) : RowsGrow t t' := by
  intro n r hr
  refine ⟨r, ?_, rfl, .refl _⟩
  rw [findSeq, h]
  exact hr

theorem RowsGrow.trans (h : RowsGrow t t') (h' : RowsGrow t' u) : RowsGrow t u := by
  intro n r hr
  obtain ⟨r', hr', hcols, hf⟩ := h n r hr
  obtain ⟨r'', hr'', hcols', hf'⟩ := h' n r' hr'
  exact ⟨r'', hr'', hcols'.trans hcols, hf.trans hf'⟩

theorem Grows.refl (t : Tables) : Grows t t := ⟨.refl t, prefix_rfl, prefix_rfl, prefix_rfl⟩

theorem Grows.trans (h : Grows t t') (h' : Grows t' u) : Grows t u :=
  ⟨h.rows.trans h'.rows, h.confirmations.trans h'.confirmations,
    h.dispositions.trans h'.dispositions, h.stops.trans h'.stops⟩

theorem Grows.of_eq (hr : t'.rows = t.rows) (hc : t'.confirmations = t.confirmations)
    (hd : t'.dispositions = t.dispositions) (hs : t'.stops = t.stops) :
    Grows t t' :=
  ⟨.of_eq hr, by rw [hc], by rw [hd], by rw [hs]⟩

/-! ### Updates of a delivery -/

structure Updated (t : Tables) (localSeq : ℕ) (f : Delivery → Delivery) (t' : Tables) : Prop where
  eq : t' = { t with rows := t.rows.map (fun r =>
    if r.localSeq = localSeq then { r with delivery := f r.delivery } else r) }
  final : ∀ r ∈ t.rows, r.localSeq = localSeq → Final r.delivery (f r.delivery)

variable {f : Delivery → Delivery} {localSeq : ℕ} {applied : List ℕ} {atMs sealedAtMs : ℤ}
  {row : CarriedRow}

theorem updateDelivery_updated (h : t.updateDelivery localSeq f = .ok t') :
    Updated t localSeq f t' := by
  unfold updateDelivery at h
  split_ifs at h with ha
  refine ⟨(Except.ok.inj h).symm, ?_⟩
  intro r hr hs
  have ho := all_eq_true.mp ha r hr
  simp only [hs, ne_eq, not_true_eq_false, decide_false, Bool.false_or, Bool.and_eq_true,
    custodyFinal, receiptFinal, decide_eq_true_eq] at ho
  exact ⟨ho.1.1, ho.1.2⟩

theorem findSeq_map {f : LedgerRow → LedgerRow} (hf : ∀ r, (f r).localSeq = r.localSeq)
    (n : ℤ) : findSeq { t with rows := t.rows.map f } n = (t.findSeq n).map f := by
  unfold findSeq
  rw [List.find?_map]
  congr 2
  funext r
  simp only [Function.comp_apply, hf]

theorem mem_of_findSeq {n : ℤ} {r : LedgerRow} (h : t.findSeq n = some r) :
    r ∈ t.rows ∧ (r.localSeq : ℤ) = n :=
  ⟨mem_of_find?_eq_some h, by simpa using List.find?_some h⟩

theorem Updated.findSeq (h : Updated t localSeq f t') (n : ℤ) :
    t'.findSeq n = (t.findSeq n).map (fun r =>
      if r.localSeq = localSeq then { r with delivery := f r.delivery } else r) := by
  rw [h.eq]
  refine findSeq_map ?_ n
  intro r
  split_ifs <;> rfl

theorem Updated.grows (h : Updated t localSeq f t') : Grows t t' := by
  refine ⟨?_, ?_, ?_, ?_⟩
  · intro n r hr
    rw [h.findSeq, hr]
    refine ⟨_, rfl, ?_, ?_⟩
    · dsimp only
      split_ifs <;> rfl
    · dsimp only
      split_ifs with hs
      · exact h.final r (mem_of_findSeq hr).1 hs
      · exact .refl _
  all_goals rw [h.eq]

theorem updateDelivery_grows (h : t.updateDelivery localSeq f = .ok t') :
    Grows t t' := (updateDelivery_updated h).grows

/-! ### One lemma an operation -/

variable {closedAtMs issuedAtMs recordedAtMs : ℤ} {keyId : Text} {ns : List ℕ}
  {v : VerifiedEpochConfirmation} {bootId : ℕ} {d : VerifiedDisposition}

theorem applyVerifiedCustody_cases {v : VerifiedCustody}
    (h : t.applyVerifiedCustody v recordedAtMs = .ok t') :
    ∃ held, t.findSeq v.localSeq = some held ∧ heldDelivery held.delivery = true ∧
      ((held.delivery.custodyState = .held ∧ held.delivery.custodyAtMs = some v.custodyAtMs ∧
          ((held.delivery.custodyRecordedAtMs ≠ none ∧ t' = t) ∨
            (held.delivery.custodyRecordedAtMs = none ∧
              t.updateDelivery held.localSeq (fun d => if d.custodyRecordedAtMs = none then
                { d with custodyRecordedAtMs := some recordedAtMs } else d) = .ok t'))) ∨
        (held.delivery.custodyState = .none ∧ t.updateDelivery held.localSeq (fun d =>
          { d with custodyState := .held, custodyAtMs := some v.custodyAtMs
                   custodyKeyId := some v.keyId
                   custodyRecordedAtMs := some recordedAtMs }) = .ok t')) := by
  unfold applyVerifiedCustody at h
  split_ifs at h
  split at h
  · cases h
  rename_i held hf
  split_ifs at h with hd hh ht hr
  · exact ⟨held, hf, by simpa using hd, .inl ⟨hh, not_not.mp ht, .inr ⟨hr, h⟩⟩⟩
  · exact ⟨held, hf, by simpa using hd, .inl ⟨hh, not_not.mp ht, .inl ⟨hr, (Except.ok.inj h).symm⟩⟩⟩
  · refine ⟨held, hf, by simpa using hd, .inr ⟨?_, h⟩⟩
    cases hs : held.delivery.custodyState with
    | none => rfl
    | held => exact absurd hs hh

theorem applyVerifiedCustody_grows {v : VerifiedCustody}
    (h : t.applyVerifiedCustody v recordedAtMs = .ok t') : Grows t t' := by
  obtain ⟨held, -, -, ⟨-, -, ⟨-, rfl⟩ | ⟨-, hu⟩⟩ | ⟨-, hu⟩⟩ := applyVerifiedCustody_cases h
  · exact .refl _
  all_goals exact updateDelivery_grows hu

theorem applyReceipts_cons {n : ℕ} (h : applyReceipts atMs keyId t (n :: ns) = .ok (t', applied)) :
    ∃ held, t.findSeq n = some held ∧ heldDelivery held.delivery = true ∧
      ((held.delivery.receiptState = .accepted ∧
          applyReceipts atMs keyId t ns = .ok (t', applied)) ∨
        ∃ u rest, held.delivery.receiptState ≠ .accepted ∧ t.updateDelivery held.localSeq (fun d =>
            { d with receiptState := .accepted, receiptAtMs := some atMs
                     receiptKeyId := some keyId }) = .ok u ∧
          applyReceipts atMs keyId u ns = .ok (t', rest)) := by
  rw [applyReceipts] at h
  split at h
  · cases h
  rename_i held hf
  split_ifs at h with hd ha
  · exact ⟨held, hf, by simpa using hd, .inl ⟨ha, h⟩⟩
  refine ⟨held, hf, by simpa using hd, .inr ?_⟩
  split at h
  · cases h
  rename_i u hu
  cases hr : applyReceipts atMs keyId u ns with
  | error e => simp [hr, Except.map] at h
  | ok r =>
    simp only [hr] at h
    obtain ⟨rfl, -⟩ := h
    exact ⟨u, r.2, ha, hu, hr⟩

theorem applyReceipts_grows (h : applyReceipts atMs keyId t ns = .ok (t', applied)) :
    Grows t t' := by
  induction ns generalizing t applied with
  | nil =>
    cases h
    exact .refl _
  | cons n ns ih =>
    obtain ⟨held, -, -, ⟨-, hr⟩ | ⟨u, rest, -, hu, hr⟩⟩ := applyReceipts_cons h
    · exact ih hr
    · exact (updateDelivery_grows hu).trans (ih hr)

theorem acceptReceipt_cases {artifact : Json} (h : t.acceptReceipt k l artifact = .ok (t', applied)) :
    ∃ v, provenReceipt k l t artifact = .ok v ∧
      applyReceipts v.acceptedAtMs v.keyId t (v.sequences.dedup.insertionSort (· ≤ ·)) =
        .ok (t', applied) := by
  unfold acceptReceipt at h
  split at h
  · cases h
  rename_i v hp
  unfold applyVerifiedReceipts at h
  split_ifs at h
  exact ⟨v, hp, h⟩

theorem applyVerifiedEpochConfirmation_cases
    (h : t.applyVerifiedEpochConfirmation l v closedAtMs = .ok t') :
    (t' = t ∧ ∃ held, t.confirmations.find? (fun c => decide (c.anchorEpochId = v.anchorEpochId)) =
        some held ∧ (held.confirmedAtMs, held.actor, held.keyId) =
          (v.confirmedAtMs, v.actor, v.keyId)) ∨
      (t.confirmations.find? (fun c => decide (c.anchorEpochId = v.anchorEpochId)) = none ∧
        t'.rows = t.rows ∧ t'.dispositions = t.dispositions ∧ t'.stops = t.stops ∧
        t'.outbox = t.outbox ∧ t'.faults = t.faults ∧
        t'.confirmations = t.confirmations ++
          [{ anchorEpochId := v.anchorEpochId, deviceId := l.deviceId
             pubkeyHex := lower v.pubkeyHex, actor := v.actor, confirmedAtMs := v.confirmedAtMs
             keyId := v.keyId, appliedAtMs := closedAtMs }] ∧
        (v.anchorEpochId ≠ l.anchorEpochId → t'.epochs = t.epochs) ∧
        t'.obligations = t.obligations.map (fun o =>
          if o.anchorEpochId = v.anchorEpochId ∧ o.pubkeyHex = lower v.pubkeyHex ∧
              o.state = .opened then
            { o with state := .confirmed, closedAtMs := some closedAtMs }
          else o)) := by
  unfold applyVerifiedEpochConfirmation at h
  dsimp only at h
  split at h
  · cases h
  split at h
  · cases h
  split at h
  · rename_i held hf
    split_ifs at h with ho hz hd
    exact .inl ⟨(Except.ok.inj h).symm, held, hf, not_not.mp hd⟩
  · rename_i hf
    split at h
    · cases h
    cases h
    exact .inr ⟨hf, rfl, rfl, rfl, rfl, rfl, rfl, fun hn => if_neg hn, rfl⟩

theorem applyVerifiedEpochConfirmation_grows
    (h : t.applyVerifiedEpochConfirmation l v closedAtMs = .ok t') : Grows t t' := by
  obtain ⟨rfl, -⟩ | ⟨-, hr, hd, hs, -, -, hc, -, -⟩ := applyVerifiedEpochConfirmation_cases h
  · exact .refl _
  refine ⟨.of_eq hr, ?_, by rw [hd], by rw [hs]⟩
  rw [hc]
  exact prefix_append _ _

theorem sealChainRow_cases (h : t.sealChainRow l row sealedAtMs = .ok t') : t' = t ∨
      (EvidenceDeliveryLedger.find t.rows row.eventId = none ∧ ∃ rows raced,
        l.sealInTransaction t.rows row sealedAtMs = .ok (rows, raced) ∧
          t' = { t with rows := rows }) := by
  unfold sealChainRow at h
  split at h
  · cases h
  split at h
  · split at h
    · cases h
    · exact .inl (Except.ok.inj h).symm
  · rename_i hf
    split at h
    · cases h
    · rename_i rows raced hseal
      exact .inr ⟨hf, rows, raced, hseal, (Except.ok.inj h).symm⟩

theorem sealInTransaction_cases {rows rows' : List LedgerRow} {raced : Option LedgerRow}
    (h : l.sealInTransaction rows row sealedAtMs = .ok (rows', raced)) :
    rows' = rows ∨ ∃ wire localSeq, rows' = rows ++ [l.sealedRow row localSeq sealedAtMs wire] ∧
      localSeq ∉ rows.map (·.localSeq) ∧
      ∃ envelope, l.buildEnvelope row localSeq sealedAtMs = .ok envelope ∧
        Json.canonicalJson envelope = .ok wire := by
  unfold EvidenceDeliveryLedger.sealInTransaction at h
  split at h
  · exact .inl (Prod.mk.inj (Except.ok.inj h)).1.symm
  dsimp only at h
  generalize EvidenceDeliveryLedger.nextLocalSeq rows = localSeq at h
  split at h
  · cases h
  rename_i envelope hb
  split at h
  · cases h
  rename_i wire hwire
  unfold EvidenceDeliveryLedger.insert at h
  split_ifs at h with ha
  · cases h
  cases h
  refine .inr ⟨wire, localSeq, rfl, ?_, envelope, hb, hwire⟩
  intro hm
  obtain ⟨r, hr, hs⟩ := mem_map.mp hm
  exact ha (any_eq_true.mpr ⟨r, hr, decide_eq_true (.inl hs)⟩)

theorem RowsGrow.append {new : List LedgerRow} (h : t'.rows = t.rows ++ new) : RowsGrow t t' := by
  intro n r hr
  refine ⟨r, ?_, rfl, .refl _⟩
  unfold findSeq at hr ⊢
  rw [h, List.find?_append, hr]
  rfl

theorem sealChainRow_grows (h : t.sealChainRow l row sealedAtMs = .ok t') : Grows t t' := by
  obtain rfl | ⟨-, rows, raced, hseal, rfl⟩ := sealChainRow_cases h
  · exact .refl _
  obtain hr | ⟨wire, localSeq, hr, -⟩ := sealInTransaction_cases hseal
  · exact .of_eq hr rfl rfl rfl
  · exact ⟨.append hr, prefix_rfl, prefix_rfl, prefix_rfl⟩

theorem insertArtifact_grows (t : Tables) (artifactType : ArtifactType) (wire digest : Text)
    (createdAtMs : ℤ) : Grows t (t.insertArtifact artifactType wire digest createdAtMs) := by
  unfold insertArtifact
  split_ifs
  · exact .refl _
  · exact .of_eq rfl rfl rfl rfl

theorem sealRegistration_grows {registration : Json}
    (h : t.sealRegistration l registration sealedAtMs = .ok t') : Grows t t' := by
  unfold sealRegistration at h
  split at h
  · cases h
  split at h
  · cases h
  dsimp only at h
  split at h
  · rename_i epoch reference pubkey _ _ _
    split at h
    · cases h
      exact .refl _
    · split at h
      · cases h
      cases h
      refine Grows.trans ?_ (insertArtifact_grows _ _ _ _ _)
      split
      all_goals exact .of_eq rfl rfl rfl rfl
  · cases h

theorem issueCheckpoint_cases (h : t.issueCheckpoint l bootId issuedAtMs = .ok t') :
    ∃ wire, t' = t.insertArtifact .checkpoint wire (text "sha256:" ++ l.keys.sha256 wire)
      issuedAtMs ∧ ∃ signature, Json.canonicalJson (Json.obj (checkpointBody l t bootId issuedAtMs ++
        [("signature", .str signature)])) = .ok wire := by
  unfold issueCheckpoint at h
  dsimp only at h
  split at h
  · cases h
  split at h
  · cases h
  · rename_i wire hwire
    exact ⟨wire, (Except.ok.inj h).symm, _, hwire⟩

theorem issueCheckpoint_grows (h : t.issueCheckpoint l bootId issuedAtMs = .ok t') :
    Grows t t' := by
  obtain ⟨wire, rfl, -⟩ := issueCheckpoint_cases h
  exact insertArtifact_grows _ _ _ _ _

theorem applyVerifiedDisposition_cases {applied : Bool}
    (h : t.applyVerifiedDisposition l d atMs = .ok (t', applied)) :
    (t' = t ∧ applied = false ∧ ∃ r ∈ t.dispositions, r.digest = d.digest) ∨
      ∃ kind epoch target row, sealedArtifact l t d.triggeringDigest =
          .ok (some (kind, epoch, l.deviceId)) ∧ dispositionTarget t d kind = .ok target ∧
        t' = { t.dispose l d target epoch atMs with
          dispositions := (t.dispose l d target epoch atMs).dispositions ++ [row] } := by
  unfold applyVerifiedDisposition at h
  split at h
  · rename_i he
    cases h
    obtain ⟨r, hr, hd⟩ := any_eq_true.mp he
    exact .inl ⟨rfl, rfl, r, hr, of_decide_eq_true hd⟩
  right
  split at h
  · cases h
  split at h
  · cases h
  split at h
  · cases h
  split at h
  · cases h
  · cases h
  · rename_i kind epoch device hs
    split at h
    · cases h
    rename_i hde
    split at h
    · cases h
    split at h
    · cases h
    split at h
    · cases h
    rename_i target ht
    split at h
    · cases h
    split at h
    · cases h
    cases h
    exact ⟨kind, epoch, target, _, (not_not.mp hde) ▸ hs, ht, rfl⟩

theorem dispose_grows (t : Tables) (l : EvidenceDeliveryLedger) (d : VerifiedDisposition)
    (target : Option Obligation) (epoch : Text) (atMs : ℤ) :
    Grows t (t.dispose l d target epoch atMs) := by
  unfold dispose
  split
  · exact .of_eq rfl rfl rfl rfl
  · exact .of_eq rfl rfl rfl rfl
  · exact ⟨.of_eq rfl, prefix_rfl, prefix_rfl, prefix_append _ _⟩
  · exact ⟨.of_eq rfl, prefix_rfl, prefix_rfl, prefix_append _ _⟩
  · exact .refl _

theorem applyVerifiedDisposition_grows {applied : Bool}
    (h : t.applyVerifiedDisposition l d atMs = .ok (t', applied)) : Grows t t' := by
  obtain ⟨rfl, -⟩ | ⟨kind, epoch, target, row, -, -, rfl⟩ := applyVerifiedDisposition_cases h
  · exact .refl _
  · refine (dispose_grows t l d target epoch atMs).trans ?_
    exact ⟨.of_eq rfl, prefix_rfl, prefix_append _ _, prefix_rfl⟩

theorem recordAttempt_cases {failure : Option String}
    (h : t.recordAttempt localSeq atMs failure = .ok t') : t.updateDelivery localSeq (fun d =>
      { d with attempts := d.attempts + 1, lastAttemptMs := some atMs, lastFailure := failure }) =
        .ok t' := by
  unfold recordAttempt at h
  split at h
  · cases h
  split at h
  · cases h
  · exact h

theorem recordTransportFailure_cases {failure : String}
    (h : t.recordTransportFailure localSeq failure = .ok t') :
    t.updateDelivery localSeq (fun d => { d with lastFailure := some failure }) = .ok t' := by
  unfold recordTransportFailure at h
  split at h
  · cases h
  split at h
  · cases h
  · exact h

theorem applyCourierAnswer_cases {answer : String} {answeredAtMs : ℤ}
    (h : t.applyCourierAnswer localSeq answer atMs answeredAtMs = .ok t') : t' = t ∨
      t.updateDelivery localSeq (fun d => { d with courierAnswer := some answer
                                                   courierAnswerAtMs := some answeredAtMs }) =
        .ok t' ∨
      t.updateDelivery localSeq (fun d => { d with courierAnswer := some answer
                                                   courierAnswerAtMs := some answeredAtMs
                                                   attempts := d.attempts + 1
                                                   lastAttemptMs := some atMs }) = .ok t' := by
  unfold applyCourierAnswer at h
  split at h
  · cases h
  split at h
  · cases h
  split at h
  · cases h
  split at h
  · exact .inl (Except.ok.inj h).symm
  split at h
  · exact .inr (.inl h)
  · exact .inr (.inr h)

end Tables

namespace LedgerState

variable {e : LedgerSetting} {s s' : LedgerState}

theorem perform_grows {w : ℕ} {t t' : Tables} {op : LedgerOp} (h : perform e w t op = .ok t') :
    Tables.Grows t t' := by
  cases op with
  | sealChainRow row sealedAtMs => exact Tables.sealChainRow_grows h
  | sealRegistration registration sealedAtMs => exact Tables.sealRegistration_grows h
  | issueCheckpoint issuedAtMs =>
    cases h
    exact .refl _
  | custody artifact recordedAtMs =>
    simp only [perform, Tables.acceptCustody] at h
    split at h
    · cases h
    · exact Tables.applyVerifiedCustody_grows h
  | receipt artifact =>
    obtain ⟨applied, hc⟩ := Tables.map_fst_eq_ok h
    obtain ⟨v, -, ha⟩ := Tables.acceptReceipt_cases hc
    exact Tables.applyReceipts_grows ha
  | confirmation artifact closedAtMs =>
    simp only [perform, Tables.acceptEpochConfirmation] at h
    split at h
    · cases h
    · exact Tables.applyVerifiedEpochConfirmation_grows h
  | disposition d atMs =>
    obtain ⟨applied, ha⟩ := Tables.map_fst_eq_ok h
    exact Tables.applyVerifiedDisposition_grows ha
  | recordAttempt localSeq atMs failure =>
    exact Tables.updateDelivery_grows (Tables.recordAttempt_cases h)
  | recordTransportFailure localSeq failure =>
    exact Tables.updateDelivery_grows (Tables.recordTransportFailure_cases h)
  | courierAnswer localSeq answer atMs answeredAtMs =>
    obtain rfl | hu | hu := Tables.applyCourierAnswer_cases h
    · exact .refl _
    all_goals exact Tables.updateDelivery_grows hu
  | retireArtifact digest outcome atMs | noteArtifactAttempt digest atMs
  | noteRegistrationOffer digest atMs =>
    cases h
    exact .of_eq rfl rfl rfl rfl
  | recordArtifactFault holder holderId reason atMs =>
    cases h
    unfold Tables.recordArtifactFault
    split_ifs
    · exact .refl _
    · exact .of_eq rfl rfl rfl rfl
  | restart =>
    cases h
    exact .refl _

theorem apply_cases (s : LedgerState) (w : ℕ) (op : LedgerOp) :
    (apply e s w op).1.tables = s.tables ∨ perform e w s.tables op = .ok (apply e s w op).1.tables ∨
      ∃ counter t', { s.tables with bootCounter := counter } = t' ∧
        ((apply e s w op).1.tables = t' ∨ ∃ bootId issuedAtMs, op = .issueCheckpoint issuedAtMs ∧
          t'.issueCheckpoint (e.ledgers.ledger w) bootId issuedAtMs =
            .ok (apply e s w op).1.tables) := by
  have hl : ∀ op', (∀ issuedAtMs, op' ≠ .issueCheckpoint issuedAtMs) → op' ≠ .restart →
      (apply e s w op').1.tables = s.tables ∨
        perform e w s.tables op' = .ok (apply e s w op').1.tables := by
    intro op' hc hr
    cases op' with
    | issueCheckpoint issuedAtMs => exact absurd rfl (hc issuedAtMs)
    | restart => exact absurd rfl hr
    | _ =>
      simp only [apply]
      split
      · exact .inl rfl
      · exact .inr ‹_›
  by_cases hc : ∃ issuedAtMs, op = .issueCheckpoint issuedAtMs
  · obtain ⟨issuedAtMs, rfl⟩ := hc
    right
    right
    have hboot : ∃ counter, { s.tables with bootCounter := counter } = (s.bootId w).1.tables := by
      unfold bootId
      split
      · exact ⟨s.tables.bootCounter, rfl⟩
      · exact ⟨_, rfl⟩
    obtain ⟨counter, ho⟩ := hboot
    refine ⟨counter, (s.bootId w).1.tables, ho, ?_⟩
    simp only [apply]
    split
    · exact .inl rfl
    · rename_i t hi
      exact .inr ⟨(s.bootId w).2, issuedAtMs, rfl, hi⟩
  · by_cases hr : op = .restart
    · subst hr
      exact .inl rfl
    · exact (hl op (fun issuedAtMs h => hc ⟨issuedAtMs, h⟩) hr).imp_right .inl

theorem apply_grows (s : LedgerState) (w : ℕ) (op : LedgerOp) :
    Tables.Grows s.tables (apply e s w op).1.tables := by
  obtain heq | hp | ⟨counter, t', rfl, heq | ⟨bootId, issuedAtMs, -, hi⟩⟩ :=
    apply_cases (e := e) s w op
  · rw [heq]
    exact .refl _
  · exact perform_grows hp
  · rw [heq]
    exact .of_eq rfl rfl rfl rfl
  · have hg := Tables.issueCheckpoint_grows hi
    refine Tables.Grows.trans ?_ hg
    exact .of_eq rfl rfl rfl rfl

theorem grows_of_reaches (h : Reaches (step e) s s') : Tables.Grows s.tables s'.tables := by
  have hk : ∀ (u : LedgerState) (a : ℕ × LedgerOp) (v : LedgerState),
      Tables.Grows s.tables u.tables → step e u a = some v → Tables.Grows s.tables v.tables := by
    intro u a v hu hs
    cases hs
    exact hu.trans (apply_grows u a.1 a.2)
  exact Reaches.invariant hk (Tables.Grows.refl s.tables) h

end LedgerState

end OriRuntime
