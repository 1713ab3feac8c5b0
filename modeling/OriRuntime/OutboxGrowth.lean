import OriRuntime.OfferStops

/-!
# What becomes of a retained copy

Every operation on the ledger keeps the copies, obligations and rows there are, under the numbers
and bytes they were stored with. Attempts only add up; a retirement, a withdrawal, a fault, a stop
and a suspension stand; and a closed obligation is not opened again. A copy added later has a higher
number than any before it.
-/

namespace OriRuntime

open List Option

namespace Tables

/-- What an operation keeps of a copy in the outbox. Only a copy of the digest it retires can be
retired by it. -/
structure CopyKept (retiring : Option Text) (b b' : OutboxRow) : Prop where
  id : b'.id = b.id
  artifactType : b'.artifactType = b.artifactType
  artifactJson : b'.artifactJson = b.artifactJson
  artifactDigest : b'.artifactDigest = b.artifactDigest
  attempts : b.attempts ≤ b'.attempts
  retired : b.retiredAtMs ≠ none → b'.retiredAtMs ≠ none
  withdrawn : b.withdrawnAtMs ≠ none → b'.withdrawnAtMs ≠ none
  retires : b.retiredAtMs = none → b'.retiredAtMs ≠ none → retiring = some b.artifactDigest

structure ObligationKept (o o' : Obligation) : Prop where
  id : o'.id = o.id
  artifactJson : o'.artifactJson = o.artifactJson
  artifactDigest : o'.artifactDigest = o.artifactDigest
  offers : o.offers ≤ o'.offers
  suspended : o.suspendedAtMs ≠ none → o'.suspendedAtMs ≠ none
  opened : o'.state = .opened → o.state = .opened

structure RowKept (r r' : LedgerRow) : Prop where
  columns : r'.toSealedColumns = r.toSealedColumns
  attempts : r.delivery.attempts ≤ r'.delivery.attempts

variable {retiring : Option Text}

theorem CopyKept.refl (b : OutboxRow) : CopyKept retiring b b :=
  ⟨rfl, rfl, rfl, rfl, Nat.le_refl _, fun h => h, fun h => h, fun h h' => absurd h h'⟩

theorem CopyKept.trans {b b' b'' : OutboxRow} (h : CopyKept retiring b b')
    (h' : CopyKept retiring b' b'') : CopyKept retiring b b'' := by
  refine ⟨h'.id.trans h.id, h'.artifactType.trans h.artifactType,
    h'.artifactJson.trans h.artifactJson, h'.artifactDigest.trans h.artifactDigest,
    h.attempts.trans h'.attempts, fun hb => h'.retired (h.retired hb),
    fun hb => h'.withdrawn (h.withdrawn hb), ?_⟩
  intro hb hb''
  by_cases hb' : b'.retiredAtMs = none
  · rw [h'.retires hb' hb'', h.artifactDigest]
  · exact h.retires hb hb'

theorem ObligationKept.refl (o : Obligation) : ObligationKept o o :=
  ⟨rfl, rfl, rfl, Nat.le_refl _, fun h => h, fun h => h⟩

variable {o : Obligation} {f : Delivery → Delivery} {localSeq : ℕ} {atMs sealedAtMs : ℤ}

theorem ObligationKept.trans {o' o'' : Obligation} (h : ObligationKept o o')
    (h' : ObligationKept o' o'') : ObligationKept o o'' :=
  ⟨h'.id.trans h.id, h'.artifactJson.trans h.artifactJson,
    h'.artifactDigest.trans h.artifactDigest, h.offers.trans h'.offers,
    fun ho => h'.suspended (h.suspended ho), fun ho => h.opened (h'.opened ho)⟩

theorem RowKept.refl (r : LedgerRow) : RowKept r r := ⟨rfl, Nat.le_refl _⟩

theorem RowKept.trans {r r' r'' : LedgerRow} (h : RowKept r r') (h' : RowKept r' r'') :
    RowKept r r'' := ⟨h'.columns.trans h.columns, h.attempts.trans h'.attempts⟩

/-- The keys of the tables, which their constraints hold distinct; numbering starts at one. -/
structure Keyed (t : Tables) : Prop where
  copyIds : (t.outbox.map (·.id)).Nodup
  copyDigests : (t.outbox.map (·.artifactDigest)).Nodup
  positive : ∀ b ∈ t.outbox, 0 < b.id
  obligationIds : (t.obligations.map (·.id)).Nodup
  localSeqs : (t.rows.map (·.localSeq)).Nodup

/-- What every operation keeps of the tables the route reads. -/
structure RouteGrows (retiring : Option Text) (t t' : Tables) : Prop where
  copies : ∀ b ∈ t.outbox, ∃ b' ∈ t'.outbox, CopyKept retiring b b'
  later : ∀ b' ∈ t'.outbox, (∃ b ∈ t.outbox, CopyKept retiring b b') ∨
    ∀ b ∈ t.outbox, b.id < b'.id
  obligations : ∀ o ∈ t.obligations, ∃ o' ∈ t'.obligations, ObligationKept o o'
  rows : ∀ r ∈ t.rows, ∃ r' ∈ t'.rows, RowKept r r'
  faults : t.faults ⊆ t'.faults
  stops : t.stops ⊆ t'.stops
  keyed : Keyed t → Keyed t'

variable {t t' u : Tables} {l : EvidenceDeliveryLedger} {k : IngestKeys}

theorem RouteGrows.of_kept (hu : t'.outbox = t.outbox)
    (hob : t'.obligations = t.obligations) (hw : t'.rows = t.rows)
    (hf : t.faults ⊆ t'.faults) (hs : t.stops ⊆ t'.stops) : RouteGrows retiring t t' := by
  refine ⟨?_, ?_, ?_, ?_, hf, hs, ?_⟩
  · exact fun b hb => ⟨b, hu ▸ hb, .refl b⟩
  · exact fun b hb => .inl ⟨b, hu ▸ hb, .refl b⟩
  · exact fun o ho => ⟨o, hob ▸ ho, .refl o⟩
  · exact fun r hr => ⟨r, hw ▸ hr, .refl r⟩
  · exact fun h => ⟨hu ▸ h.copyIds, hu ▸ h.copyDigests, hu ▸ h.positive,
      hob ▸ h.obligationIds, hw ▸ h.localSeqs⟩

theorem RouteGrows.of_eq (hu : t'.outbox = t.outbox)
    (ho : t'.obligations = t.obligations) (hr : t'.rows = t.rows)
    (hf : t'.faults = t.faults) (hs : t'.stops = t.stops) : RouteGrows retiring t t' :=
  .of_kept hu ho hr (hf ▸ List.Subset.refl _) (hs ▸ List.Subset.refl _)

theorem RouteGrows.refl (t : Tables) : RouteGrows retiring t t := .of_eq rfl rfl rfl rfl rfl

theorem RouteGrows.trans (h : RouteGrows retiring t t') (h' : RouteGrows retiring t' u) :
    RouteGrows retiring t u := by
  refine ⟨?_, ?_, ?_, ?_, ?_, ?_, ?_⟩
  · intro b hb
    obtain ⟨b', hb', hp⟩ := h.copies b hb
    obtain ⟨b'', hb'', hk'⟩ := h'.copies b' hb'
    exact ⟨b'', hb'', hp.trans hk'⟩
  · intro b'' hb''
    rcases h'.later b'' hb'' with ⟨b', hb', hk'⟩ | hn
    · rcases h.later b' hb' with ⟨b, hb, hp⟩ | hn
      · exact .inl ⟨b, hb, hp.trans hk'⟩
      · exact .inr fun b hb => hk'.id ▸ hn b hb
    · refine .inr fun b hb => ?_
      obtain ⟨b', hb', hp⟩ := h.copies b hb
      exact hp.id ▸ hn b' hb'
  · intro o ho
    obtain ⟨o', ho', hp⟩ := h.obligations o ho
    obtain ⟨o'', ho'', hk'⟩ := h'.obligations o' ho'
    exact ⟨o'', ho'', hp.trans hk'⟩
  · intro r hr
    obtain ⟨r', hr', hp⟩ := h.rows r hr
    obtain ⟨r'', hr'', hk'⟩ := h'.rows r' hr'
    exact ⟨r'', hr'', hp.trans hk'⟩
  · exact List.Subset.trans h.faults h'.faults
  · exact List.Subset.trans h.stops h'.stops
  · exact fun hk => h'.keyed (h.keyed hk)

/-! ### One table at a time -/

theorem RouteGrows.mapOutbox {f : OutboxRow → OutboxRow} (hf : ∀ b, CopyKept retiring b (f b))
    (t : Tables) : RouteGrows retiring t { t with outbox := t.outbox.map f } := by
  refine ⟨?_, ?_, ?_, ?_, List.Subset.refl _, List.Subset.refl _, ?_⟩
  · exact fun b hb => ⟨f b, List.mem_map_of_mem hb, hf b⟩
  · intro b' hb'
    obtain ⟨b, hb, rfl⟩ := List.mem_map.mp hb'
    exact .inl ⟨b, hb, hf b⟩
  · exact fun o ho => ⟨o, ho, .refl o⟩
  · exact fun r hr => ⟨r, hr, .refl r⟩
  · intro h
    refine ⟨?_, ?_, ?_, h.obligationIds, h.localSeqs⟩
    · have hi : (fun b : OutboxRow => b.id) ∘ f = (·.id) := funext fun b => (hf b).id
      rw [List.map_map, hi]
      exact h.copyIds
    · have hd : (fun b : OutboxRow => b.artifactDigest) ∘ f = (·.artifactDigest) :=
        funext fun b => (hf b).artifactDigest
      rw [List.map_map, hd]
      exact h.copyDigests
    · intro b' hb'
      obtain ⟨b, hb, rfl⟩ := List.mem_map.mp hb'
      rw [(hf b).id]
      exact h.positive b hb

theorem RouteGrows.mapObligations {f : Obligation → Obligation}
    (hf : ∀ o ∈ t.obligations, ObligationKept o (f o)) :
    RouteGrows retiring t { t with obligations := t.obligations.map f } := by
  refine ⟨?_, ?_, ?_, ?_, List.Subset.refl _, List.Subset.refl _, ?_⟩
  · exact fun b hb => ⟨b, hb, .refl b⟩
  · exact fun b hb => .inl ⟨b, hb, .refl b⟩
  · exact fun o ho => ⟨f o, List.mem_map_of_mem ho, hf o ho⟩
  · exact fun r hr => ⟨r, hr, .refl r⟩
  · intro h
    refine { h with obligationIds := ?_ }
    have hi : t.obligations.map ((fun o : Obligation => o.id) ∘ f) = t.obligations.map (·.id) :=
      List.map_congr_left fun o ho => (hf o ho).id
    rw [List.map_map, hi]
    exact h.obligationIds

theorem Updated.routeGrows (h : Updated t localSeq f t') (hf : ∀ d, d.attempts ≤ (f d).attempts) :
    RouteGrows retiring t t' := by
  rw [h.eq]
  refine ⟨?_, ?_, ?_, ?_, List.Subset.refl _, List.Subset.refl _, ?_⟩
  · exact fun b hb => ⟨b, hb, .refl b⟩
  · exact fun b hb => .inl ⟨b, hb, .refl b⟩
  · exact fun o ho => ⟨o, ho, .refl o⟩
  · intro r hr
    refine ⟨_, List.mem_map_of_mem hr, ?_⟩
    split_ifs
    · exact ⟨rfl, hf r.delivery⟩
    · exact .refl r
  · intro hk
    refine { hk with localSeqs := ?_ }
    have hseqs : (fun r : LedgerRow => r.localSeq) ∘ (fun r : LedgerRow =>
        if r.localSeq = localSeq then { r with delivery := f r.delivery } else r) =
          (·.localSeq) := by
      funext r
      simp only [Function.comp_apply]
      split_ifs <;> rfl
    rw [List.map_map, hseqs]
    exact hk.localSeqs

theorem lt_nextId {ids : List ℕ} {id : ℕ} (h : id ∈ ids) : id < nextId ids := by
  have hl : ∀ (ids : List ℕ) (start : ℕ), start ≤ ids.foldl max start ∧
      ∀ id ∈ ids, id ≤ ids.foldl max start := by
    intro ids
    induction ids with
    | nil => simp
    | cons a ids ih =>
      intro start
      obtain ⟨hs, ha⟩ := ih (max start a)
      refine ⟨(le_max_left _ _).trans hs, ?_⟩
      intro id hi
      rcases mem_cons.mp hi with rfl | hi
      · exact (le_max_right _ _).trans hs
      · exact ha id hi
  exact Nat.lt_succ_of_le ((hl ids 0).2 id h)

theorem insertArtifact_routeGrows (t : Tables) (artifactType : ArtifactType) (wire digest : Text)
    (createdAtMs : ℤ) :
    RouteGrows retiring t (t.insertArtifact artifactType wire digest createdAtMs) := by
  unfold insertArtifact
  split_ifs with hn
  · exact .refl t
  refine ⟨?_, ?_, ?_, ?_, List.Subset.refl _, List.Subset.refl _, ?_⟩
  · exact fun b hb => ⟨b, mem_append_left _ hb, .refl b⟩
  · intro b' hb'
    rcases mem_append.mp hb' with hb' | hb'
    · exact .inl ⟨b', hb', .refl b'⟩
    refine .inr fun b hb => ?_
    rw [mem_singleton.mp hb']
    exact lt_nextId (mem_map_of_mem hb)
  · exact fun o ho => ⟨o, ho, .refl o⟩
  · exact fun r hr => ⟨r, hr, .refl r⟩
  · intro h
    refine ⟨?_, ?_, ?_, h.obligationIds, h.localSeqs⟩
    · rw [map_append, nodup_append]
      refine ⟨h.copyIds, nodup_singleton _, ?_⟩
      rintro a ha b hb rfl
      rw [map_singleton, mem_singleton] at hb
      exact absurd (lt_nextId ha) (hb ▸ Nat.lt_irrefl _)
    · rw [map_append, nodup_append]
      refine ⟨h.copyDigests, nodup_singleton _, ?_⟩
      rintro a ha b hb rfl
      rw [map_singleton, mem_singleton] at hb
      obtain ⟨c, hc, hd⟩ := mem_map.mp ha
      exact hn (any_eq_true.mpr ⟨c, hc, decide_eq_true (hd.trans hb)⟩)
    · intro b hb
      rcases mem_append.mp hb with hb | hb
      · exact h.positive b hb
      · rw [mem_singleton.mp hb]
        exact Nat.succ_pos _

theorem addObligation_routeGrows (t : Tables) (ho : o.id = nextId (t.obligations.map (·.id))) :
    RouteGrows retiring t { t with obligations := t.obligations ++ [o] } := by
  refine ⟨?_, ?_, ?_, ?_, List.Subset.refl _, List.Subset.refl _, ?_⟩
  · exact fun b hb => ⟨b, hb, .refl b⟩
  · exact fun b hb => .inl ⟨b, hb, .refl b⟩
  · exact fun p hp => ⟨p, mem_append_left _ hp, .refl p⟩
  · exact fun r hr => ⟨r, hr, .refl r⟩
  · intro h
    refine { h with obligationIds := ?_ }
    rw [map_append, nodup_append]
    refine ⟨h.obligationIds, nodup_singleton _, ?_⟩
    rintro a ha b hb rfl
    rw [map_singleton, mem_singleton, ho] at hb
    exact absurd (lt_nextId ha) (hb ▸ Nat.lt_irrefl _)

theorem withdraw_routeGrows (t : Tables) (digest : Text) (atMs : ℤ) :
    RouteGrows retiring t (t.withdraw digest atMs) := by
  refine RouteGrows.mapOutbox (fun b => ?_) t
  split_ifs
  · exact ⟨rfl, rfl, rfl, rfl, Nat.le_refl _, fun h => h, fun _ => some_ne_none _,
      fun h h' => absurd h h'⟩
  · exact .refl b

/-! ### One lemma an operation -/

theorem updateDelivery_routeGrows (h : t.updateDelivery localSeq f = .ok t')
    (hf : ∀ d, d.attempts ≤ (f d).attempts) :
    RouteGrows retiring t t' := (updateDelivery_updated h).routeGrows hf

theorem applyVerifiedCustody_routeGrows {v : VerifiedCustody} {recordedAtMs : ℤ}
    (h : t.applyVerifiedCustody v recordedAtMs = .ok t') : RouteGrows retiring t t' := by
  obtain ⟨held, -, -, ⟨-, -, ⟨-, rfl⟩ | ⟨-, hu⟩⟩ | ⟨-, hu⟩⟩ := applyVerifiedCustody_cases h
  · exact .refl t'
  · refine updateDelivery_routeGrows hu fun d => ?_
    split_ifs <;> exact Nat.le_refl _
  · exact updateDelivery_routeGrows hu fun d => Nat.le_refl _

theorem applyReceipts_routeGrows {keyId : Text} {ns applied : List ℕ}
    (h : applyReceipts atMs keyId t ns = .ok (t', applied)) : RouteGrows retiring t t' := by
  induction ns generalizing t applied with
  | nil =>
    obtain ⟨rfl, -⟩ := Prod.mk.inj (Except.ok.inj h)
    exact .refl t
  | cons n ns ih =>
    obtain ⟨held, -, -, ⟨-, hr⟩ | ⟨u, rest, -, hu, hr⟩⟩ := applyReceipts_cons h
    · exact ih hr
    · exact (updateDelivery_routeGrows hu fun d => Nat.le_refl _).trans (ih hr)

theorem sealChainRow_routeGrows {row : CarriedRow} (h : t.sealChainRow l row sealedAtMs = .ok t') :
    RouteGrows retiring t t' := by
  obtain rfl | ⟨-, rows, raced, hseal, rfl⟩ := sealChainRow_cases h
  · exact .refl t'
  obtain rfl | ⟨wire, localSeq, rfl, hn, -⟩ := sealInTransaction_cases hseal
  · exact .refl t
  refine ⟨?_, ?_, ?_, ?_, List.Subset.refl _, List.Subset.refl _, ?_⟩
  · exact fun b hb => ⟨b, hb, .refl b⟩
  · exact fun b hb => .inl ⟨b, hb, .refl b⟩
  · exact fun o ho => ⟨o, ho, .refl o⟩
  · exact fun r hr => ⟨r, mem_append_left _ hr, .refl r⟩
  · intro hk
    refine { hk with localSeqs := ?_ }
    rw [map_append, nodup_append]
    refine ⟨hk.localSeqs, nodup_singleton _, ?_⟩
    rintro a ha b hb rfl
    rw [map_singleton, mem_singleton] at hb
    subst hb
    exact hn ha

theorem sealRegistration_routeGrows {registration : Json}
    (h : t.sealRegistration l registration sealedAtMs = .ok t') : RouteGrows retiring t t' := by
  unfold sealRegistration at h
  split at h
  · cases h
  split at h
  · cases h
  dsimp only at h
  split at h
  · split at h
    · rw [← Except.ok.inj h]
      exact .refl t
    · split at h
      · cases h
      rw [← Except.ok.inj h]
      refine RouteGrows.trans (RouteGrows.trans ?_ (addObligation_routeGrows _ rfl))
        (insertArtifact_routeGrows _ _ _ _ _)
      split
      · exact .refl t
      refine (RouteGrows.mapObligations ?_).trans (withdraw_routeGrows _ _ _)
      intro o _
      split_ifs
      · exact ⟨rfl, rfl, rfl, Nat.le_refl _, fun h => h, fun h => by cases h⟩
      · exact .refl o
  · cases h

theorem dispose_routeGrows (t : Tables) (l : EvidenceDeliveryLedger) (d : VerifiedDisposition)
    (target : Option Obligation) (epoch : Text) (atMs : ℤ) :
    RouteGrows retiring t (t.dispose l d target epoch atMs) := by
  unfold dispose
  split
  · refine RouteGrows.mapObligations fun o _ => ?_
    split_ifs
    · exact ⟨rfl, rfl, rfl, Nat.le_refl _, fun _ => some_ne_none _, fun h => h⟩
    · exact .refl o
  · refine (RouteGrows.mapObligations fun o _ => ?_).trans (withdraw_routeGrows _ _ _)
    split_ifs
    · exact ⟨rfl, rfl, rfl, Nat.le_refl _, fun h => h, fun h => by cases h⟩
    · exact .refl o
  · exact .of_kept rfl rfl rfl (List.Subset.refl _) (subset_append_left _ _)
  · exact .of_kept rfl rfl rfl (List.Subset.refl _) (subset_append_left _ _)
  · exact .refl t

theorem applyVerifiedDisposition_routeGrows {d : VerifiedDisposition} {applied : Bool}
    (h : t.applyVerifiedDisposition l d atMs = .ok (t', applied)) : RouteGrows retiring t t' := by
  obtain ⟨rfl, -⟩ | ⟨kind, epoch, target, row, -, -, rfl⟩ := applyVerifiedDisposition_cases h
  · exact .refl t'
  · exact (dispose_routeGrows t l d target epoch atMs).trans (.of_eq rfl rfl rfl rfl rfl)

theorem applyVerifiedEpochConfirmation_routeGrows {v : VerifiedEpochConfirmation} {closedAtMs : ℤ}
    (h : t.applyVerifiedEpochConfirmation l v closedAtMs = .ok t') : RouteGrows retiring t t' := by
  obtain ⟨rfl, -⟩ | ⟨-, hr, -, hs, hu, hf, -, -, ho⟩ := applyVerifiedEpochConfirmation_cases h
  · exact .refl t'
  refine (RouteGrows.mapObligations (f := fun o => if o.anchorEpochId = v.anchorEpochId ∧
      o.pubkeyHex = lower v.pubkeyHex ∧ o.state = .opened then
        { o with state := .confirmed, closedAtMs := some closedAtMs }
      else o) fun o _ => ?_).trans (.of_eq hu ho hr hf hs)
  split_ifs
  · exact ⟨rfl, rfl, rfl, Nat.le_refl _, fun h => h, fun h => by cases h⟩
  · exact .refl o

theorem issueCheckpoint_routeGrows {bootId : ℕ} {issuedAtMs : ℤ}
    (h : t.issueCheckpoint l bootId issuedAtMs = .ok t') : RouteGrows retiring t t' := by
  obtain ⟨wire, rfl, -⟩ := issueCheckpoint_cases h
  exact insertArtifact_routeGrows _ _ _ _ _

theorem retireArtifact_routeGrows (t : Tables) (digest : Text) (outcome : RetireOutcome)
    (atMs : ℤ) : RouteGrows (some digest) t (t.retireArtifact digest outcome atMs) := by
  refine RouteGrows.mapOutbox (fun b => ?_) t
  split_ifs with hr
  · exact ⟨rfl, rfl, rfl, rfl, Nat.le_refl _, fun _ => some_ne_none _, fun h => h,
      fun _ _ => congrArg some hr.1.symm⟩
  · exact .refl b

theorem noteArtifactAttempt_routeGrows (t : Tables) (digest : Text) (atMs : ℤ) :
    RouteGrows retiring t (t.noteArtifactAttempt digest atMs) := by
  refine RouteGrows.mapOutbox (fun b => ?_) t
  split_ifs
  · exact ⟨rfl, rfl, rfl, rfl, Nat.le_succ _, fun h => h, fun h => h, fun h h' => absurd h h'⟩
  · exact .refl b

theorem noteRegistrationOffer_routeGrows (t : Tables) (digest : Text) (atMs : ℤ) :
    RouteGrows retiring t (t.noteRegistrationOffer digest atMs) := by
  refine RouteGrows.mapObligations fun o _ => ?_
  split_ifs
  · exact ⟨rfl, rfl, rfl, Nat.le_succ _, fun h => h, fun h => h⟩
  · exact .refl o

theorem recordArtifactFault_routeGrows (t : Tables) (holder : FaultHolder) (holderId : ℕ)
    (reason : FaultReason) (atMs : ℤ) :
    RouteGrows retiring t (t.recordArtifactFault holder holderId reason atMs) := by
  unfold recordArtifactFault
  split_ifs
  · exact .refl t
  · exact .of_kept rfl rfl rfl (subset_append_left _ _) (List.Subset.refl _)

end Tables

def LedgerOp.retiring : LedgerOp → Option Text
  | .retireArtifact digest _ _ => some digest
  | _ => none

namespace LedgerState

variable {e : LedgerSetting}

theorem perform_routeGrows {w : ℕ} {t t' : Tables} {op : LedgerOp} (h : perform e w t op = .ok t') :
    Tables.RouteGrows op.retiring t t' := by
  cases op with
  | sealChainRow row sealedAtMs => exact Tables.sealChainRow_routeGrows h
  | sealRegistration registration sealedAtMs => exact Tables.sealRegistration_routeGrows h
  | issueCheckpoint issuedAtMs =>
    cases h
    exact .refl _
  | custody artifact recordedAtMs =>
    simp only [perform, Tables.acceptCustody] at h
    split at h
    · cases h
    · exact Tables.applyVerifiedCustody_routeGrows h
  | receipt artifact =>
    obtain ⟨applied, hc⟩ := Tables.map_fst_eq_ok h
    obtain ⟨v, -, ha⟩ := Tables.acceptReceipt_cases hc
    exact Tables.applyReceipts_routeGrows ha
  | confirmation artifact closedAtMs =>
    simp only [perform, Tables.acceptEpochConfirmation] at h
    split at h
    · cases h
    · exact Tables.applyVerifiedEpochConfirmation_routeGrows h
  | disposition d atMs =>
    obtain ⟨applied, ha⟩ := Tables.map_fst_eq_ok h
    exact Tables.applyVerifiedDisposition_routeGrows ha
  | recordAttempt localSeq atMs failure =>
    exact Tables.updateDelivery_routeGrows (Tables.recordAttempt_cases h) fun d => Nat.le_succ _
  | recordTransportFailure localSeq failure =>
    exact Tables.updateDelivery_routeGrows (Tables.recordTransportFailure_cases h)
      fun d => Nat.le_refl _
  | courierAnswer localSeq answer atMs answeredAtMs =>
    obtain rfl | hu | hu := Tables.applyCourierAnswer_cases h
    · exact .refl _
    · exact Tables.updateDelivery_routeGrows hu fun d => Nat.le_refl _
    · exact Tables.updateDelivery_routeGrows hu fun d => Nat.le_succ _
  | retireArtifact digest outcome atMs =>
    cases h
    exact Tables.retireArtifact_routeGrows t digest outcome atMs
  | noteArtifactAttempt digest atMs =>
    cases h
    exact Tables.noteArtifactAttempt_routeGrows t digest atMs
  | noteRegistrationOffer digest atMs =>
    cases h
    exact Tables.noteRegistrationOffer_routeGrows t digest atMs
  | recordArtifactFault holder holderId reason atMs =>
    cases h
    exact Tables.recordArtifactFault_routeGrows t holder holderId reason atMs
  | restart =>
    cases h
    exact .refl _

theorem apply_routeGrows (s : LedgerState) (w : ℕ) (op : LedgerOp) :
    Tables.RouteGrows op.retiring s.tables (apply e s w op).1.tables := by
  obtain heq | hp | ⟨counter, t', rfl, heq | ⟨bootId, issuedAtMs, -, hi⟩⟩ :=
    apply_cases (e := e) s w op
  · rw [heq]
    exact .refl _
  · exact perform_routeGrows hp
  · rw [heq]
    exact .of_eq rfl rfl rfl rfl rfl
  · refine Tables.RouteGrows.trans ?_ (Tables.issueCheckpoint_routeGrows hi)
    exact .of_eq rfl rfl rfl rfl rfl

end LedgerState

end OriRuntime
