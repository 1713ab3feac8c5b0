import OriRuntime.Restatement

/-!
# What is offered, and what a stop ends

The three readers that choose what is handed to the courier: queued copies, envelopes awaiting
custody, and registrations due to be offered again. A stop is matched against the bytes of a copy
and against the columns of the other two, which name what their bytes name.
-/

namespace OriRuntime

open List Option

open Execution

namespace Tables

/-! ### Readers -/

/-- `LIMIT`, which a negative number lifts. -/
def limited {α : Type*} (limit : ℤ) (xs : List α) : List α :=
  if limit < 0 then xs else xs.take limit.toNat

def hasFault (t : Tables) (holder : FaultHolder) (holderId : ℕ) : Bool :=
  t.faults.any (fun f => decide (f.holder = holder ∧ f.holderId = holderId))

/-- A stop covers what the bytes of an artifact name. -/
def coversWire (s : OfferStop) (wire : Text) : Bool :=
  decide (wireMember wire "device_id" = some s.deviceId ∧
    (s.scope = .identity ∨ s.anchorEpochId ≠ none ∧
      wireMember wire "anchor_epoch_id" = s.anchorEpochId))

variable (l : EvidenceDeliveryLedger) (t : Tables)

def pendingArtifacts (limit : ℤ) (artifactType : Option ArtifactType) (afterId : ℤ)
    (onlyId : Option ℤ) : List OutboxRow :=
  limited limit ((t.outbox.filter (fun b =>
    decide (b.retiredAtMs = none ∧ b.withdrawnAtMs = none ∧ afterId < b.id) &&
      onlyId.all (fun n => decide ((b.id : ℤ) = n)) &&
      artifactType.all (fun kind => decide (b.artifactType = kind)) &&
      !t.hasFault .outbox b.id &&
      (wireMember b.artifactJson "device_id").all (fun device => decide (device = l.deviceId)) &&
      !t.stops.any (fun s => coversWire s b.artifactJson) &&
      !t.obligations.any (fun o => decide (o.artifactDigest = b.artifactDigest ∧
        o.suspendedAtMs ≠ none)))).insertionSort (fun a b => a.id ≤ b.id))

def awaitingCustody (limit : ℤ) (afterSeq : ℤ) (onlySeq : Option ℤ) : List LedgerRow :=
  limited limit ((t.rows.filter (fun r =>
    decide (r.delivery.custodyState = .none ∧ afterSeq < r.localSeq) &&
      onlySeq.all (fun n => decide ((r.localSeq : ℤ) = n)) &&
      !t.hasFault .envelope r.localSeq &&
      !t.offersStopped r.deviceId r.anchorEpochId)).insertionSort
        (fun a b => a.localSeq ≤ b.localSeq))

/-- The delay doubles with each offer up to an hour, and a clock behind the last offer ends it. -/
def reofferDue (offers : ℕ) (lastOfferMs atMs : ℤ) : Bool :=
  let elapsedMs := atMs - lastOfferMs
  decide (elapsedMs < 0 ∨ min (60 * 2 ^ min offers 16) 3600 * 1000 ≤ elapsedMs)

/-- The latest handoff attempt of the copies of an obligation. -/
def copyAttemptMs (o : Obligation) : Option ℤ :=
  (t.outbox.filterMap (fun b =>
    if b.artifactDigest = o.artifactDigest then b.lastAttemptMs else none)).max?

def reofferDueRow (o : Obligation) (atMs : ℤ) : Bool :=
  match o.lastOfferMs, t.copyAttemptMs o with
  | some last, _ => reofferDue o.offers last atMs
  | none, some last => reofferDue o.offers last atMs
  | none, none => true

/-- One page of open obligations whose courier copy is retired. -/
def reofferPage (limit : ℤ) (afterId : ℕ) (onlyId : Option ℤ) : List Obligation :=
  limited limit ((t.obligations.filter (fun o =>
    decide (o.state = .opened ∧ o.deviceId = l.deviceId ∧ o.suspendedAtMs = none ∧ afterId < o.id) &&
      onlyId.all (fun n => decide ((o.id : ℤ) = n)) &&
      !t.hasFault .obligation o.id &&
      !t.outbox.any (fun b => decide (b.artifactDigest = o.artifactDigest ∧
        b.retiredAtMs = none)) &&
      !t.offersStopped o.deviceId o.anchorEpochId)).insertionSort (fun a b => a.id ≤ b.id))

variable {l t}

variable {atMs limit sealedAtMs : ℤ} {afterId : ℕ} {o : Obligation}

theorem mem_limited {α : Type*} {xs : List α} {x : α} (h : x ∈ limited limit xs) : x ∈ xs := by
  unfold limited at h
  split_ifs at h
  · exact h
  · exact mem_of_mem_take h

variable {onlyId : Option ℤ} {f : Obligation → Obligation} {v : Json} {wire epoch : Text}
  {localSeq : ℕ} {row : CarriedRow}

theorem reofferPage_mem (h : o ∈ t.reofferPage l limit afterId onlyId) :
    o ∈ t.obligations ∧ afterId < o.id ∧ t.offersStopped o.deviceId o.anchorEpochId = false := by
  have hm := (mem_insertionSort _).mp (mem_limited h)
  obtain ⟨ho, hf⟩ := mem_filter.mp hm
  simp only [Bool.and_eq_true, Bool.not_eq_true', decide_eq_true_eq] at hf
  exact ⟨ho, hf.1.1.1.1.2.2.2, hf.2⟩

theorem length_filter_id_lt {os : List Obligation} (h : o ∈ os) (hi : afterId < o.id) :
    (os.filter (fun p => decide (o.id < p.id))).length <
      (os.filter (fun p => decide (afterId < p.id))).length := by
  have hs : os.filter (fun p => decide (o.id < p.id)) =
      (os.filter (fun p => decide (afterId < p.id))).filter (fun p => decide (o.id < p.id)) := by
    rw [List.filter_filter]
    refine List.filter_congr ?_
    intro p hp
    by_cases hl : o.id < p.id
    · simp only [hl, hi.trans hl, decide_true, Bool.and_self]
    · simp only [hl, decide_false, Bool.false_and]
  rw [hs]
  refine List.length_filter_lt_length_iff_exists.mpr ⟨o, ?_, ?_⟩
  · exact List.mem_filter.mpr ⟨h, decide_eq_true hi⟩
  · simp

variable (l t)

/-- Pages are read until `limit` obligations are due or none is left. -/
def reoffersFrom (atMs limit : ℤ) (onlyId : Option ℤ) (afterId : ℕ) (due : List Obligation) :
    List Obligation :=
  if limit ≤ due.length then due
  else
    match hlast : (t.reofferPage l limit afterId onlyId).getLast? with
    | none => due
    | some last => reoffersFrom atMs limit onlyId last.id (due ++
        (t.reofferPage l limit afterId onlyId).filter (fun o => t.reofferDueRow o atMs))
termination_by (t.obligations.filter (fun o => decide (afterId < o.id))).length
decreasing_by
  have hpage := reofferPage_mem (List.mem_of_getLast? hlast)
  exact length_filter_id_lt hpage.1 hpage.2.1

def registrationReoffersDue (atMs limit : ℤ) (onlyId : Option ℤ) : List Obligation :=
  (t.reoffersFrom l atMs limit onlyId 0 []).take limit.toNat

variable {l t}
variable {t' u : Tables}

theorem reoffersFrom_mem {due : List Obligation}
    (h : o ∈ t.reoffersFrom l atMs limit onlyId afterId due) :
    o ∈ due ∨ o ∈ t.obligations ∧ t.offersStopped o.deviceId o.anchorEpochId = false := by
  induction afterId, due using reoffersFrom.induct l t atMs limit onlyId with
  | case1 afterId due hl =>
    rw [reoffersFrom, if_pos hl] at h
    exact .inl h
  | case2 afterId due hl hls =>
    rw [reoffersFrom, if_neg hl] at h
    split at h
    · exact .inl h
    rename_i last hl'
    rw [hls] at hl'
    cases hl'
  | case3 afterId due hl last hls ih =>
    rw [reoffersFrom, if_neg hl] at h
    split at h
    · exact .inl h
    rename_i last' hl'
    obtain rfl := some.inj (hls.symm.trans hl')
    rcases ih h with hd | hf
    · rcases mem_append.mp hd with hd | hpage
      · exact .inl hd
      · obtain ⟨hm, -, hs⟩ := reofferPage_mem (mem_of_mem_filter hpage)
        exact .inr ⟨hm, hs⟩
    · exact .inr hf

/-! ### Names -/

def Names (wire deviceId anchorEpochId : Text) : Prop :=
  wireMember wire "device_id" = some deviceId ∧
    wireMember wire "anchor_epoch_id" = some anchorEpochId

def openEpochs (os : List Obligation) : List Text :=
  (os.filter (fun o => decide (o.state = .opened))).map (·.anchorEpochId)

/-- The columns the readers match name what the bytes name, and one obligation at most is open for
an epoch. -/
structure Named (t : Tables) : Prop where
  rows : ∀ r ∈ t.rows, Names r.envelopeJson r.deviceId r.anchorEpochId
  obligations : ∀ o ∈ t.obligations, Names o.artifactJson o.deviceId o.anchorEpochId
  opened : (openEpochs t.obligations).Nodup

theorem Named.of_eq (h : Named t) (hw : t'.rows.map (·.toSealedColumns) =
    t.rows.map (·.toSealedColumns)) (ho : t'.obligations = t.obligations) : Named t' := by
  refine ⟨?_, ho ▸ h.obligations, ho ▸ h.opened⟩
  intro r hr
  have hm : r.toSealedColumns ∈ t.rows.map (·.toSealedColumns) := hw ▸ mem_map_of_mem hr
  obtain ⟨q, hq, hcols⟩ := mem_map.mp hm
  rw [← hcols]
  exact h.rows q hq

/-- An update of obligations that opens none and leaves what names them. -/
structure Reworks (f : Obligation → Obligation) : Prop where
  names : ∀ o, (f o).deviceId = o.deviceId ∧ (f o).anchorEpochId = o.anchorEpochId ∧
    (f o).artifactJson = o.artifactJson
  opened : ∀ o, (f o).state = .opened → o.state = .opened

theorem Reworks.openEpochs_sublist (hf : Reworks f) (os : List Obligation) :
    (openEpochs (os.map f)).Sublist (openEpochs os) := by
  induction os with
  | nil => exact List.Sublist.slnil
  | cons o os ih =>
    unfold openEpochs at ih ⊢
    rw [map_cons]
    by_cases ho : (f o).state = .opened
    · rw [filter_cons_of_pos (by simpa using ho),
        filter_cons_of_pos (by simpa using hf.opened o ho), map_cons, map_cons,
        (hf.names o).2.1]
      exact ih.cons_cons _
    · rw [filter_cons_of_neg (by simpa using ho)]
      by_cases ho' : o.state = .opened
      · rw [filter_cons_of_pos (by simpa using ho'), map_cons]
        exact ih.cons _
      · rw [filter_cons_of_neg (by simpa using ho')]
        exact ih

theorem Named.rework (h : Named t) (hf : Reworks f) (hr : t'.rows = t.rows)
    (hb : t'.obligations = t.obligations.map f) : Named t' := by
  refine ⟨hr ▸ h.rows, ?_, ?_⟩
  · intro o ho
    rw [hb] at ho
    obtain ⟨p, hp, rfl⟩ := mem_map.mp ho
    obtain ⟨hd, he, hjson⟩ := hf.names p
    rw [hd, he, hjson]
    exact h.obligations p hp
  · rw [hb]
    exact h.opened.sublist (hf.openEpochs_sublist t.obligations)

theorem wireMember_canonicalJson (hd : v.DistinctKeys) (h : Json.canonicalJson v = .ok wire)
    (name : String) :
    wireMember wire name = match v.get? name with
      | some (.str s) => some s
      | _ => none := by
  unfold wireMember
  rw [Json.loads_canonicalJson Json.dictOf_keeps hd h, bind_some]
  have hr := Json.readable_of_inZone v (Json.canonicalJson_eq_ok_iff.mp h).1 hd
  cases v with
  | dict items =>
    rw [Json.get?_sorted hr.2]
    cases hg : (Json.dict items).get? name with
    | none => rfl
    | some w => cases w <;> rfl
  | _ => rfl

theorem names_sealedRow {envelope : Json}
    (hb : l.buildEnvelope row localSeq sealedAtMs = .ok envelope)
    (hwire : Json.canonicalJson envelope = .ok wire) : Names wire l.deviceId l.anchorEpochId := by
  obtain ⟨signature, rfl⟩ := EvidenceDeliveryLedger.buildEnvelope_ok hb
  have hd := EvidenceDeliveryLedger.signed_distinct (l := l) row localSeq sealedAtMs signature
  have hm := wireMember_canonicalJson hd hwire
  constructor
  · rw [hm, Json.get?_obj]
    rfl
  · rw [hm, Json.get?_obj]
    rfl

variable {k : IngestKeys}

/-! ### Operations and names -/

theorem updateDelivery_named (h : Named t) {f : Delivery → Delivery}
    (hu : t.updateDelivery localSeq f = .ok t') : Named t' := by
  have heq := (updateDelivery_updated hu).eq
  refine h.of_eq ?_ (by rw [heq])
  rw [heq, List.map_map]
  refine List.map_congr_left ?_
  intro r hr
  dsimp only [Function.comp_apply]
  split_ifs <;> rfl

theorem applyVerifiedCustody_named (h : Named t) {v : VerifiedCustody} {recordedAtMs : ℤ}
    (ha : t.applyVerifiedCustody v recordedAtMs = .ok t') : Named t' := by
  obtain ⟨held, -, -, ⟨-, -, ⟨-, rfl⟩ | ⟨-, hu⟩⟩ | ⟨-, hu⟩⟩ := applyVerifiedCustody_cases ha
  · exact h
  · exact updateDelivery_named h hu
  · exact updateDelivery_named h hu

theorem applyReceipts_named (h : Named t) {keyId : Text} {ns applied : List ℕ}
    (ha : applyReceipts atMs keyId t ns = .ok (t', applied)) : Named t' := by
  induction ns generalizing t applied with
  | nil =>
    obtain ⟨rfl, -⟩ := Prod.mk.inj (Except.ok.inj ha)
    exact h
  | cons n ns ih =>
    obtain ⟨held, -, -, ⟨-, hr⟩ | ⟨u, rest, -, hu, hr⟩⟩ := applyReceipts_cons ha
    · exact ih h hr
    · exact ih (updateDelivery_named h hu) hr

theorem sealChainRow_named (h : Named t) (ha : t.sealChainRow l row sealedAtMs = .ok t') :
    Named t' := by
  obtain rfl | ⟨-, rows, raced, hseal, rfl⟩ := sealChainRow_cases ha
  · exact h
  obtain rfl | ⟨wire, localSeq, rfl, -, envelope, hb, hwire⟩ := sealInTransaction_cases hseal
  · exact h
  refine { h with rows := ?_ }
  intro r hr
  rcases mem_append.mp hr with hr | hr
  · exact h.rows r hr
  · rw [mem_singleton.mp hr]
    exact names_sealedRow hb hwire

theorem insertArtifact_obligations (t : Tables) (artifactType : ArtifactType) (wire digest : Text)
    (createdAtMs : ℤ) :
    (t.insertArtifact artifactType wire digest createdAtMs).obligations = t.obligations := by
  unfold insertArtifact
  split_ifs <;> rfl

theorem not_mem_openEpochs_superseded (h : Named t)
    (ho : t.openRegistrationObligation epoch = some o) (sealedAtMs : ℤ) :
    epoch ∉ openEpochs (t.obligations.map (fun p =>
      if p.id = o.id then { p with state := .superseded, closedAtMs := some sealedAtMs } else p)) := by
  intro hm
  obtain ⟨q, hq, rfl⟩ := mem_map.mp hm
  obtain ⟨hqmem, hqo⟩ := mem_filter.mp hq
  obtain ⟨p, hp, rfl⟩ := mem_map.mp hqmem
  unfold openRegistrationObligation at ho
  have homem := mem_of_find?_eq_some ho
  have hf := of_decide_eq_true (List.find?_some (p := fun o : Obligation => decide
    (o.anchorEpochId = _ ∧ o.state = .opened)) ho)
  split_ifs at hqo hf with hi
  · cases of_decide_eq_true hqo
  have hpo : p ∈ t.obligations.filter (fun o => decide (o.state = .opened)) :=
    mem_filter.mpr ⟨hp, hqo⟩
  have hoo : o ∈ t.obligations.filter (fun o => decide (o.state = .opened)) :=
    mem_filter.mpr ⟨homem, decide_eq_true hf.2⟩
  exact hi (congrArg Obligation.id (inj_on_of_nodup_map h.opened hpo hoo hf.1.symm))

theorem not_mem_openEpochs_none (h : t.openRegistrationObligation epoch = none) :
    epoch ∉ openEpochs t.obligations := by
  intro hm
  obtain ⟨o, ho, rfl⟩ := mem_map.mp hm
  obtain ⟨homem, hp⟩ := mem_filter.mp ho
  unfold openRegistrationObligation at h
  have hn := List.find?_eq_none.mp h o homem
  simp only [decide_eq_true_eq, true_and] at hn hp
  exact hn hp

/-- What is superseded when a registration of the epoch is sealed. -/
def supersede (t : Tables) (current : Option Obligation) (sealedAtMs : ℤ) : List Obligation :=
  match current with
  | none => t.obligations
  | some o => t.obligations.map (fun p =>
    if p.id = o.id then { p with state := .superseded, closedAtMs := some sealedAtMs } else p)

theorem eq_str_of_pyEq {s : Text} (h : v.pyEq (.str s) = true) : v = .str s := by
  cases v with
  | str s' => rw [(EvidenceDeliveryLedger.pyEq_str_iff s' s).mp h]
  | float f => cases f <;> simp [Json.pyEq, Json.number] at h
  | _ => simp [Json.pyEq, Json.number] at h

theorem sealRegistration_cases {registration : Json}
    (h : t.sealRegistration l registration sealedAtMs = .ok t') : t' = t ∨
      ∃ epoch wire new, Json.canonicalJson registration = .ok wire ∧
        registration.get? "device_id" = some (.str l.deviceId) ∧
        registration.get? "anchor_epoch_id" = some (.str epoch) ∧ t'.rows = t.rows ∧
        t'.obligations = supersede t (t.openRegistrationObligation epoch) sealedAtMs ++ [new] ∧
        new.deviceId = l.deviceId ∧ new.anchorEpochId = epoch ∧ new.artifactJson = wire := by
  unfold sealRegistration at h
  split at h
  · cases h
  rename_i hd
  split at h
  · cases h
  rename_i wire hwire
  dsimp only at h
  split at h
  · rename_i epoch reference pubkey he _ _
    split at h
    · exact .inl (Except.ok.inj h).symm
    split at h
    · cases h
    have hn : registration.get? "device_id" = some (.str l.deviceId) := by
      have hv := eq_str_of_pyEq (Bool.not_eq_false _ ▸ hd)
      cases hg : registration.get? "device_id" with
      | none =>
        rw [hg] at hv
        cases hv
      | some v =>
        rw [hg] at hv
        rw [show v = _ from hv]
    have hr : t'.rows = t.rows := by
      rw [← Except.ok.inj h, insertArtifact_rows]
      split <;> rfl
    have ho := congrArg Tables.obligations (Except.ok.inj h)
    rw [insertArtifact_obligations] at ho
    refine .inr ⟨epoch, wire, _, hwire, hn, he, hr,
      ho.symm.trans (congrArg (· ++ _) ?_), rfl, rfl, rfl⟩
    cases t.openRegistrationObligation epoch <;> rfl
  · cases h

theorem superseded_reworks (o : Obligation) (sealedAtMs : ℤ) : Reworks (fun p =>
    if p.id = o.id then { p with state := .superseded, closedAtMs := some sealedAtMs } else p) := by
  constructor
  · intro p
    split_ifs <;> exact ⟨rfl, rfl, rfl⟩
  · intro p ho
    split_ifs at ho
    exact ho

theorem sealRegistration_named (h : Named t) (registration : Json.Value)
    (hp : t.sealRegistration l registration.json sealedAtMs = .ok t') : Named t' := by
  obtain rfl | ⟨epoch, wire, new, hwire, hd, he, hw, hob, hn, rfl, rfl⟩ := sealRegistration_cases hp
  · exact h
  have hna : Names new.artifactJson new.deviceId new.anchorEpochId := by
    have hm := wireMember_canonicalJson registration.distinct hwire
    constructor
    · rw [hm, hd, hn]
    · rw [hm, he]
  have hs : (∀ o ∈ supersede t (t.openRegistrationObligation new.anchorEpochId) sealedAtMs,
        Names o.artifactJson o.deviceId o.anchorEpochId) ∧
      (openEpochs (supersede t (t.openRegistrationObligation new.anchorEpochId) sealedAtMs)).Nodup ∧
      new.anchorEpochId ∉
        openEpochs (supersede t (t.openRegistrationObligation new.anchorEpochId) sealedAtMs) := by
    cases hc : t.openRegistrationObligation new.anchorEpochId with
    | none => exact ⟨h.obligations, h.opened, not_mem_openEpochs_none hc⟩
    | some o =>
      have hr : Named { t with obligations := supersede t (some o) sealedAtMs } :=
        h.rework (superseded_reworks o sealedAtMs) rfl rfl
      exact ⟨hr.obligations, hr.opened, not_mem_openEpochs_superseded h hc _⟩
  refine ⟨hw ▸ h.rows, ?_, ?_⟩
  · intro o ho
    rw [hob] at ho
    rcases mem_append.mp ho with ho | ho
    · exact hs.1 o ho
    · rw [mem_singleton.mp ho]
      exact hna
  · rw [hob]
    unfold openEpochs at hs ⊢
    rw [filter_append, map_append]
    refine nodup_append.mpr ⟨hs.2.1, ?_, ?_⟩
    · exact ((nodup_singleton new).filter _).map_on (by simp)
    intro a ha b hb
    obtain ⟨o, ho, rfl⟩ := mem_map.mp hb
    rw [mem_singleton.mp (mem_of_mem_filter ho)]
    rintro rfl
    exact hs.2.2 ha

theorem applyVerifiedEpochConfirmation_named (h : Named t) {v : VerifiedEpochConfirmation}
    {closedAtMs : ℤ} (ha : t.applyVerifiedEpochConfirmation l v closedAtMs = .ok t') :
    Named t' := by
  obtain ⟨rfl, -⟩ | ⟨-, hr, -, -, -, -, -, -, ho⟩ := applyVerifiedEpochConfirmation_cases ha
  · exact h
  refine h.rework ⟨?_, ?_⟩ hr ho
  · intro o
    split_ifs <;> exact ⟨rfl, rfl, rfl⟩
  · intro o hp
    split_ifs at hp
    exact hp

theorem dispose_named (h : Named t) (d : VerifiedDisposition) (target : Option Obligation)
    (epoch : Text) (atMs : ℤ) : Named (t.dispose l d target epoch atMs) := by
  unfold dispose
  split
  · refine h.rework (f := fun p => _) ⟨?_, ?_⟩ rfl rfl
    · intro o
      split_ifs <;> exact ⟨rfl, rfl, rfl⟩
    · intro o ho
      split_ifs at ho <;> exact ho
  · refine h.rework (f := fun p => _) ⟨?_, ?_⟩ rfl rfl
    · intro o
      split_ifs <;> exact ⟨rfl, rfl, rfl⟩
    · intro o ho
      split_ifs at ho
      exact ho
  · exact h.of_eq rfl rfl
  · exact h.of_eq rfl rfl
  · exact h

theorem applyVerifiedDisposition_named (h : Named t) {d : VerifiedDisposition} {applied : Bool}
    (ha : t.applyVerifiedDisposition l d atMs = .ok (t', applied)) : Named t' := by
  obtain ⟨rfl, -⟩ | ⟨kind, epoch, target, row, -, -, rfl⟩ := applyVerifiedDisposition_cases ha
  · exact h
  · exact (dispose_named h d target epoch atMs).of_eq rfl rfl

theorem noteRegistrationOffer_named (h : Named t) (digest : Text) (atMs : ℤ) :
    Named (t.noteRegistrationOffer digest atMs) := by
  refine h.rework (f := fun o => _) ⟨?_, ?_⟩ rfl rfl
  · intro o
    split_ifs <;> exact ⟨rfl, rfl, rfl⟩
  · intro o ho
    split_ifs at ho <;> exact ho

end Tables

namespace LedgerState

variable {e : LedgerSetting} {s s' : LedgerState}

open Tables

variable {t : Tables} {w : ℕ} {atMs limit : ℤ} {stop : OfferStop}

theorem perform_named {t' : Tables} {op : LedgerOp} (hs : Named t) (h : perform e w t op = .ok t') :
    Named t' := by
  cases op with
  | sealChainRow row sealedAtMs => exact sealChainRow_named hs h
  | sealRegistration registration sealedAtMs => exact sealRegistration_named hs registration h
  | custody artifact recordedAtMs =>
    simp only [perform, acceptCustody] at h
    split at h
    · cases h
    · exact applyVerifiedCustody_named hs h
  | receipt artifact =>
    obtain ⟨applied, hc⟩ := map_fst_eq_ok h
    obtain ⟨v, -, ha⟩ := acceptReceipt_cases hc
    exact applyReceipts_named hs ha
  | confirmation artifact closedAtMs =>
    simp only [perform, acceptEpochConfirmation] at h
    split at h
    · cases h
    · exact applyVerifiedEpochConfirmation_named hs h
  | disposition d atMs =>
    obtain ⟨applied, ha⟩ := map_fst_eq_ok h
    exact applyVerifiedDisposition_named hs ha
  | recordAttempt localSeq atMs failure => exact updateDelivery_named hs (recordAttempt_cases h)
  | recordTransportFailure localSeq failure =>
    exact updateDelivery_named hs (recordTransportFailure_cases h)
  | courierAnswer localSeq answer atMs answeredAtMs =>
    obtain rfl | hu | hu := applyCourierAnswer_cases h
    · exact hs
    · exact updateDelivery_named hs hu
    · exact updateDelivery_named hs hu
  | noteRegistrationOffer digest atMs =>
    obtain rfl := Except.ok.inj h
    exact noteRegistrationOffer_named hs digest atMs
  | recordArtifactFault holder holderId reason atMs =>
    obtain rfl := Except.ok.inj h
    unfold recordArtifactFault
    split_ifs
    · exact hs
    · exact hs.of_eq rfl rfl
  | _ =>
    obtain rfl := Except.ok.inj h
    exact hs.of_eq rfl rfl

theorem apply_named (hs : Named s.tables) (w : ℕ) (op : LedgerOp) :
    Named (apply e s w op).1.tables := by
  obtain heq | hp | ⟨counter, t', rfl, heq | ⟨bootId, issuedAtMs, -, hi⟩⟩ :=
    apply_cases (e := e) s w op
  · rw [heq]
    exact hs
  · exact perform_named hs hp
  · rw [heq]
    exact hs.of_eq rfl rfl
  · obtain ⟨wire, ht, -⟩ := issueCheckpoint_cases hi
    rw [ht]
    refine hs.of_eq ?_ ?_
    · rw [insertArtifact_rows]
    · rw [insertArtifact_obligations]

theorem named_of_reaches (h : Reaches (step e) {} s) : Named s.tables := by
  have hk : ∀ (u : LedgerState) (a : ℕ × LedgerOp) (v : LedgerState),
      Named u.tables → step e u a = some v → Named v.tables := by
    intro u a v hu hs
    obtain rfl := some.inj hs
    exact apply_named hu a.1 a.2
  have he : Named ({} : LedgerState).tables :=
    ⟨fun r hr => absurd hr not_mem_nil, fun o ho => absurd ho not_mem_nil, nodup_nil⟩
  exact Reaches.invariant hk he h

/-! ### Stops -/

variable {l : EvidenceDeliveryLedger} {onlyId : Option ℤ} {d : VerifiedDisposition}

theorem pendingArtifacts_not_covered (hstop : stop ∈ t.stops) {artifactType : Option ArtifactType}
    {afterId : ℤ} {b : OutboxRow} (hb : b ∈ t.pendingArtifacts l limit artifactType afterId onlyId) :
    coversWire stop b.artifactJson = false := by
  have hm := (List.mem_insertionSort _).mp (mem_limited hb)
  have hf := (List.mem_filter.mp hm).2
  simp only [Bool.and_eq_true, Bool.not_eq_true', List.any_eq_false] at hf
  exact Bool.not_eq_true _ ▸ hf.1.2 stop hstop

theorem not_covers_of_not_stopped (hstop : stop ∈ t.stops) {wire deviceId anchorEpochId : Text}
    (hn : Names wire deviceId anchorEpochId)
    (h : t.offersStopped deviceId anchorEpochId = false) : coversWire stop wire = false := by
  unfold offersStopped at h
  have ho := any_eq_false.mp h stop hstop
  rw [Bool.eq_false_iff]
  intro hc
  refine ho (decide_eq_true ?_)
  obtain ⟨hd, hs⟩ := of_decide_eq_true hc
  refine ⟨(some.inj (hn.1.symm.trans hd)).symm, ?_⟩
  rcases hs with hi | ⟨-, he⟩
  · exact .inl hi
  · exact .inr (he.symm.trans hn.2)

theorem awaitingCustody_not_covered (hn : Named t) (hstop : stop ∈ t.stops) {afterSeq : ℤ}
    {onlySeq : Option ℤ} {r : LedgerRow} (hr : r ∈ t.awaitingCustody limit afterSeq onlySeq) :
    coversWire stop r.envelopeJson = false := by
  have hm := (mem_insertionSort _).mp (mem_limited hr)
  obtain ⟨ho, hf⟩ := mem_filter.mp hm
  simp only [Bool.and_eq_true, Bool.not_eq_true'] at hf
  exact not_covers_of_not_stopped hstop (hn.rows r ho) hf.2

theorem reoffersDue_not_covered (ha : Named t) (hstop : stop ∈ t.stops) {o : Obligation}
    (ho : o ∈ t.registrationReoffersDue l atMs limit onlyId) :
    coversWire stop o.artifactJson = false := by
  obtain hn | ⟨hm, hs⟩ := reoffersFrom_mem (mem_of_mem_take ho)
  · exact absurd hn not_mem_nil
  · exact not_covers_of_not_stopped hstop (ha.obligations o hm) hs

theorem apply_disposition (s : LedgerState) (w : ℕ) (d : VerifiedDisposition) (atMs : ℤ) :
    apply e s w (.disposition d atMs) =
      match s.tables.applyVerifiedDisposition (e.ledgers.ledger w) d atMs with
      | .error fault => (s, some fault)
      | .ok r => ({ s with tables := r.1 }, none) := by
  simp only [apply, perform]
  cases s.tables.applyVerifiedDisposition (e.ledgers.ledger w) d atMs <;> rfl

theorem disposition_repeated (h : ∃ r ∈ s.tables.dispositions, r.digest = d.digest) :
    apply e s w (.disposition d atMs) = (s, none) := by
  obtain ⟨r, hr, hd⟩ := h
  have ha : s.tables.dispositions.any (fun r => decide (r.digest = d.digest)) = true :=
    any_eq_true.mpr ⟨r, hr, decide_eq_true hd⟩
  rw [apply_disposition, applyVerifiedDisposition, if_pos ha]

theorem disposition_refused {fault : LedgerFault}
    (h : (apply e s w (.disposition d atMs)).2 = some fault) :
    (apply e s w (.disposition d atMs)).1 = s := by
  rw [apply_disposition] at h ⊢
  cases ha : s.tables.applyVerifiedDisposition (e.ledgers.ledger w) d atMs with
  | error fault => rfl
  | ok r =>
    rw [ha] at h
    cases h

/-- From a state the ledger reaches: every stop stands in every later state, where no reader of any
process returns an artifact whose bytes name what the stop covers, sealed before it or after;
one obligation at most is open for an epoch; and a disposition repeated or refused leaves the
state as it was. -/
theorem stops_permanent (h : Reaches (step e) {} s) : (openEpochs s.tables.obligations).Nodup ∧
    (∀ (w : ℕ) (d : VerifiedDisposition) (atMs : ℤ),
      (∃ r ∈ s.tables.dispositions, r.digest = d.digest) →
        apply e s w (.disposition d atMs) = (s, none)) ∧
    (∀ (w : ℕ) (d : VerifiedDisposition) (atMs : ℤ) (fault : LedgerFault),
      (apply e s w (.disposition d atMs)).2 = some fault →
        (apply e s w (.disposition d atMs)).1 = s) ∧
    ∀ s', Reaches (step e) s s' →
      s.tables.stops <+: s'.tables.stops ∧ s.tables.dispositions <+: s'.tables.dispositions ∧
      ∀ stop ∈ s.tables.stops, ∀ wire, coversWire stop wire = true → ∀ w,
        (∀ limit artifactType afterId onlyId, ∀ b ∈ s'.tables.pendingArtifacts
          (e.ledgers.ledger w) limit artifactType afterId onlyId, b.artifactJson ≠ wire) ∧
        (∀ limit afterSeq onlySeq, ∀ r ∈ s'.tables.awaitingCustody limit afterSeq onlySeq,
          r.envelopeJson ≠ wire) ∧
        (∀ atMs limit onlyId, ∀ o ∈ s'.tables.registrationReoffersDue (e.ledgers.ledger w)
          atMs limit onlyId, o.artifactJson ≠ wire) := by
  refine ⟨(named_of_reaches h).opened, fun w d atMs => disposition_repeated,
    fun w d atMs fault => disposition_refused, ?_⟩
  intro s' hs'
  have hgrows := grows_of_reaches hs'
  have hnamed : Named s'.tables := by
    obtain ⟨as, has⟩ := h
    obtain ⟨bs, hbs⟩ := hs'
    exact named_of_reaches ⟨as ++ bs, run_append_eq_some_iff.mpr ⟨s, has, hbs⟩⟩
  refine ⟨hgrows.stops, hgrows.dispositions, ?_⟩
  intro stop hstop wire hcovers w
  have hstop' := hgrows.stops.subset hstop
  refine ⟨?_, ?_, ?_⟩
  · rintro limit artifactType afterId onlyId b hb rfl
    exact Bool.noConfusion (hcovers.symm.trans (pendingArtifacts_not_covered hstop' hb))
  · rintro limit afterSeq onlySeq r hr rfl
    exact Bool.noConfusion (hcovers.symm.trans (awaitingCustody_not_covered hnamed hstop' hr))
  · rintro atMs limit onlyId o ho rfl
    exact Bool.noConfusion (hcovers.symm.trans (reoffersDue_not_covered hnamed hstop' ho))

def benchDisposition : VerifiedDisposition where
  digest := text "disposition"
  triggeringDigest := sealedDigest
  deviceId := text "device"
  anchorEpochId := text "epoch"
  scope := .epoch
  value := .epochReprovisioningRequired
  decidedAtMs := 250
  keyId := text "authority"

/-- A sealed envelope, and a disposition that stops its epoch. -/
theorem stops_permanent_epoch : ∃ s, run (step benchSetting) {} [(0, .sealChainRow benchRow 5),
        (0, .disposition benchDisposition 300)] = some s ∧
      s.tables.stops.length = 1 ∧ s.tables.rows.length = 1 ∧
      ∀ s', Reaches (step benchSetting) s s' → s.tables.stops <+: s'.tables.stops := by
  obtain ⟨s, hs, hstops, hrows⟩ : ∃ s, run (step benchSetting) {} [(0, .sealChainRow benchRow 5),
    (0, .disposition benchDisposition 300)] = some s ∧ s.tables.stops.length = 1 ∧
    s.tables.rows.length = 1 := by
    refine exists_of_check ?_
    dsimp only [benchDisposition, sealedDigest, benchRow, EvidenceDeliveryLedger.heartbeatRow,
      EvidenceDeliveryLedger.heartbeatBytes, text]
    repeat rw [String.toList_ofList]
    decide +kernel
  exact ⟨s, hs, hstops, hrows, fun s' hs' => ((stops_permanent ⟨_, hs⟩).2.2.2 s' hs').1⟩

end LedgerState

end OriRuntime
