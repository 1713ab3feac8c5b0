import OriRuntime.OutboxGrowth

/-!
# What a page offers

A page read for the courier's route is strictly increasing in the number of what it holds and starts
after the number it was asked from. A copy of the outbox is in a page unless the route has passed it
over, and what is passed over stays so whatever the ledger is asked next.
-/

namespace OriRuntime

open List Option

namespace Tables

variable {l : EvidenceDeliveryLedger} {t t' : Tables} {retiring : Option Text}

variable {α : Type*} {b : OutboxRow} {limit afterId : ℤ} {artifactType : Option ArtifactType}
  {onlyId : Option ℤ}

theorem limited_sublist (limit : ℤ) (xs : List α) : (limited limit xs).Sublist xs := by
  unfold limited
  split_ifs
  · exact List.Sublist.refl xs
  · exact take_sublist _ _

variable {xs : List α}

theorem sorted_page (key : α → ℕ) (h : (xs.map key).Nodup) (p : α → Bool) (limit : ℤ) :
    (limited limit ((xs.filter p).insertionSort (fun a b => key a ≤ key b))).Pairwise
      (fun a b => key a < key b) := by
  refine List.Pairwise.sublist (limited_sublist _ _) ?_
  have hl := @List.pairwise_insertionSort α (fun a b => key a ≤ key b) _
    ⟨fun a b => Nat.le_total (key a) (key b)⟩ ⟨fun _ _ _ => Nat.le_trans⟩ (xs.filter p)
  have hn : ((xs.filter p).insertionSort (fun a b => key a ≤ key b)).Pairwise
      (fun a b => key a ≠ key b) := by
    refine pairwise_map.mp ?_
    refine (List.Perm.nodup_iff ((perm_insertionSort _ _).map key)).mpr ?_
    exact h.sublist ((filter_sublist (p := p)).map key)
  exact (hl.and hn).imp fun hboth => lt_of_le_of_ne hboth.1 hboth.2

theorem first_page_le {key : α → ℕ} {rest : List α} {a : α}
    (h : limited 1 (xs.insertionSort (fun a b => key a ≤ key b)) = a :: rest) :
    ∀ b ∈ xs, key a ≤ key b := by
  intro b hb
  have hs := @List.pairwise_insertionSort α (fun a b => key a ≤ key b) _
    ⟨fun a b => Nat.le_total (key a) (key b)⟩ ⟨fun _ _ _ => Nat.le_trans⟩ xs
  have hm := (mem_insertionSort (fun a b => key a ≤ key b)).mpr hb
  unfold limited at h
  rw [if_neg (by decide)] at h
  cases hpage : xs.insertionSort (fun a b => key a ≤ key b) with
  | nil =>
    rw [hpage] at hm
    exact absurd hm not_mem_nil
  | cons c page =>
    rw [hpage] at h hm hs
    obtain rfl : c = a := (List.cons.inj h).1
    rcases mem_cons.mp hm with rfl | hm
    · exact Nat.le_refl _
    · exact (pairwise_cons.mp hs).1 b hm

/-! ### Copies passed over -/

/-- A copy the route does not carry, now or later: retired, withdrawn, faulted, stopped, suspended
by a disposition of its digest, or sealed under another identity. -/
inductive PassedOver (l : EvidenceDeliveryLedger) (t : Tables) (b : OutboxRow) : Prop where
  | retired (h : b.retiredAtMs ≠ none)
  | withdrawn (h : b.withdrawnAtMs ≠ none)
  | faulted (h : t.hasFault .outbox b.id = true)
  | stopped {stop : OfferStop} (h : stop ∈ t.stops)
      (hcovers : coversWire stop b.artifactJson = true)
  | suspended {o : Obligation} (h : o ∈ t.obligations)
      (hdigest : o.artifactDigest = b.artifactDigest) (hsuspended : o.suspendedAtMs ≠ none)
  | foreign {device : Text} (h : wireMember b.artifactJson "device_id" = some device)
      (hother : device ≠ l.deviceId)

theorem hasFault_mono (h : t.faults ⊆ t'.faults) {holder : FaultHolder} {holderId : ℕ}
    (ha : t.hasFault holder holderId = true) : t'.hasFault holder holderId = true := by
  obtain ⟨f, hf, heq⟩ := any_eq_true.mp ha
  exact any_eq_true.mpr ⟨f, h hf, heq⟩

theorem PassedOver.grows (hg : RouteGrows retiring t t') {b' : OutboxRow}
    (hk : CopyKept retiring b b') (h : PassedOver l t b) : PassedOver l t' b' := by
  cases h with
  | retired h => exact .retired (hk.retired h)
  | withdrawn h => exact .withdrawn (hk.withdrawn h)
  | faulted h => exact .faulted (hk.id ▸ hasFault_mono hg.faults h)
  | stopped h hc => exact .stopped (hg.stops h) (hk.artifactJson ▸ hc)
  | suspended h hd hs =>
    obtain ⟨o', ho', ho⟩ := hg.obligations _ h
    refine .suspended ho' ?_ (ho.suspended hs)
    rw [ho.artifactDigest, hd, hk.artifactDigest]
  | foreign h ht => exact .foreign (hk.artifactJson ▸ h) ht

theorem carriable_iff (b : OutboxRow) :
    (b.retiredAtMs = none ∧ b.withdrawnAtMs = none ∧ t.hasFault .outbox b.id = false ∧
      (wireMember b.artifactJson "device_id").all (fun device =>
        decide (device = l.deviceId)) = true ∧
      t.stops.any (fun s => coversWire s b.artifactJson) = false ∧
      t.obligations.any (fun o => decide (o.artifactDigest = b.artifactDigest ∧
        o.suspendedAtMs ≠ none)) = false) ↔ ¬ PassedOver l t b := by
  constructor
  · rintro ⟨hr, hw, hf, he, hst, hb⟩ hp
    cases hp with
    | retired h => exact h hr
    | withdrawn h => exact h hw
    | faulted h => exact Bool.noConfusion (h.symm.trans hf)
    | stopped h hc => exact List.any_eq_false.mp hst _ h hc
    | suspended h hd hu =>
      exact List.any_eq_false.mp hb _ h (decide_eq_true ⟨hd, hu⟩)
    | foreign h ht =>
      rw [h] at he
      exact ht (of_decide_eq_true he)
  · intro hp
    refine ⟨?_, ?_, ?_, ?_, ?_, ?_⟩
    · exact not_not.mp fun h => hp (.retired h)
    · exact not_not.mp fun h => hp (.withdrawn h)
    · exact Bool.eq_false_iff.mpr fun h => hp (.faulted h)
    · rw [Option.all_eq_true]
      intro device he
      exact decide_eq_true (not_not.mp fun ht => hp (.foreign he ht))
    · exact List.any_eq_false.mpr fun s hs hc => hp (.stopped hs hc)
    · refine List.any_eq_false.mpr fun o ho hd => ?_
      obtain ⟨hd, hu⟩ := of_decide_eq_true hd
      exact hp (.suspended ho hd hu)

theorem pendingArtifacts_filter_iff (b : OutboxRow) :
    (decide (b.retiredAtMs = none ∧ b.withdrawnAtMs = none ∧ afterId < b.id) &&
      onlyId.all (fun n => decide ((b.id : ℤ) = n)) &&
      artifactType.all (fun kind => decide (b.artifactType = kind)) &&
      !t.hasFault .outbox b.id &&
      (wireMember b.artifactJson "device_id").all (fun device => decide (device = l.deviceId)) &&
      !t.stops.any (fun s => coversWire s b.artifactJson) &&
      !t.obligations.any (fun o => decide (o.artifactDigest = b.artifactDigest ∧
        o.suspendedAtMs ≠ none))) = true ↔
      ¬ PassedOver l t b ∧ afterId < b.id ∧ (∀ n, onlyId = some n → (b.id : ℤ) = n) ∧
        ∀ kind, artifactType = some kind → b.artifactType = kind := by
  rw [← carriable_iff]
  simp only [Bool.and_eq_true, Bool.not_eq_true', decide_eq_true_eq, Option.all_eq_true]
  constructor
  · rintro ⟨⟨⟨⟨⟨⟨⟨hr, hw, ha⟩, ho⟩, hk⟩, hf⟩, hd⟩, ht⟩, hs⟩
    exact ⟨⟨hr, hw, hf, hd, ht, hs⟩, ha, ho, hk⟩
  · rintro ⟨⟨hr, hw, hf, hd, ht, hs⟩, ha, ho, hk⟩
    exact ⟨⟨⟨⟨⟨⟨⟨hr, hw, ha⟩, ho⟩, hk⟩, hf⟩, hd⟩, ht⟩, hs⟩

theorem mem_pendingArtifacts (h : b ∈ t.pendingArtifacts l limit artifactType afterId onlyId) :
    b ∈ t.outbox ∧ ¬ PassedOver l t b ∧ afterId < b.id ∧ (∀ n, onlyId = some n → (b.id : ℤ) = n) ∧
      ∀ kind, artifactType = some kind → b.artifactType = kind := by
  obtain ⟨hb, hf⟩ := mem_filter.mp ((mem_insertionSort _).mp (mem_limited h))
  exact ⟨hb, (pendingArtifacts_filter_iff b).mp hf⟩

theorem pendingArtifacts_sorted (h : Keyed t) (limit : ℤ) (artifactType : Option ArtifactType)
    (afterId : ℤ) (onlyId : Option ℤ) :
    (t.pendingArtifacts l limit artifactType afterId onlyId).Pairwise (fun a b => a.id < b.id) :=
  sorted_page OutboxRow.id h.copyIds _ _

theorem pendingArtifacts_head (he : Keyed t) {kind : ArtifactType} {row : OutboxRow}
    {rest : List OutboxRow} (h : t.pendingArtifacts l 1 (some kind) 0 none = row :: rest) :
    row ∈ t.outbox ∧ row.artifactType = kind ∧ ¬ PassedOver l t row ∧
      ∀ b ∈ t.outbox, b.artifactType = kind → b.id < row.id → PassedOver l t b := by
  have hr := mem_pendingArtifacts (h ▸ mem_cons_self)
  refine ⟨hr.1, hr.2.2.2.2 kind rfl, hr.2.1, ?_⟩
  intro b hb hd hl
  by_contra hp
  refine absurd hl (Nat.not_lt.mpr (first_page_le h b (mem_filter.mpr ⟨hb, ?_⟩)))
  refine (pendingArtifacts_filter_iff b).mpr ⟨hp, ?_, ?_, ?_⟩
  · exact_mod_cast he.positive b hb
  · intro n hn
    cases hn
  · intro k hk
    rwa [← some.inj hk]

/-! ### Envelopes and registrations -/

theorem mem_awaitingCustody {afterSeq : ℤ} {onlySeq : Option ℤ} {r : LedgerRow}
    (h : r ∈ t.awaitingCustody limit afterSeq onlySeq) : r ∈ t.rows ∧ afterSeq < r.localSeq := by
  obtain ⟨hr, hf⟩ := mem_filter.mp ((mem_insertionSort _).mp (mem_limited h))
  simp only [Bool.and_eq_true, decide_eq_true_eq] at hf
  exact ⟨hr, hf.1.1.1.2⟩

theorem awaitingCustody_sorted (h : Keyed t) (limit afterSeq : ℤ) (onlySeq : Option ℤ) :
    (t.awaitingCustody limit afterSeq onlySeq).Pairwise (fun a b => a.localSeq < b.localSeq) :=
  sorted_page (fun r : LedgerRow => r.localSeq) h.localSeqs _ _

theorem reofferPage_sorted (h : Keyed t) (limit : ℤ) (afterId : ℕ) (onlyId : Option ℤ) :
    (t.reofferPage l limit afterId onlyId).Pairwise (fun a b => a.id < b.id) :=
  sorted_page Obligation.id h.obligationIds _ _

theorem reoffersFrom_sorted (h : Keyed t) (atMs limit : ℤ) (onlyId : Option ℤ) (afterId : ℕ)
    (due : List Obligation) (hd : due.Pairwise (fun a b => a.id < b.id))
    (hf : ∀ o ∈ due, o.id ≤ afterId) :
    (t.reoffersFrom l atMs limit onlyId afterId due).Pairwise (fun a b => a.id < b.id) := by
  induction afterId, due using reoffersFrom.induct l t atMs limit onlyId with
  | case1 afterId due hl => rwa [reoffersFrom, if_pos hl]
  | case2 afterId due hl hls =>
    rw [reoffersFrom, if_neg hl]
    split
    · exact hd
    rename_i last hl'
    rw [hls] at hl'
    cases hl'
  | case3 afterId due hl last hls ih =>
    rw [reoffersFrom, if_neg hl]
    split
    · exact hd
    rename_i last' hl'
    obtain rfl := mem_unique hls hl'
    have hpage := reofferPage_sorted (l := l) h limit afterId onlyId
    have he : ∀ o ∈ t.reofferPage l limit afterId onlyId, o.id ≤ last.id := by
      intro o ho
      obtain ⟨page, hs⟩ := List.getLast?_eq_some_iff.mp hls
      rw [hs] at ho hpage
      rcases mem_append.mp ho with ho | ho
      · exact ((pairwise_append.mp hpage).2.2 o ho last (mem_singleton_self _)).le
      · exact (congrArg (·.id) (mem_singleton.mp ho)).le
    refine ih ?_ ?_
    · refine pairwise_append.mpr ⟨hd, hpage.filter _, ?_⟩
      intro a ha b hb
      exact (hf a ha).trans_lt (reofferPage_mem (mem_of_mem_filter hb)).2.1
    · intro o ho
      rcases mem_append.mp ho with ho | ho
      · exact (hf o ho).trans (reofferPage_mem (mem_of_getLast? hls)).2.1.le
      · exact he o (mem_of_mem_filter ho)

theorem registrationReoffersDue_sorted (h : Keyed t) (atMs limit : ℤ) (onlyId : Option ℤ) :
    (t.registrationReoffersDue l atMs limit onlyId).Pairwise (fun a b => a.id < b.id) :=
  (reoffersFrom_sorted h atMs limit onlyId 0 [] List.Pairwise.nil
    fun _ ho => absurd ho not_mem_nil).sublist (take_sublist _ _)

theorem mem_registrationReoffersDue {atMs : ℤ} {o : Obligation}
    (h : o ∈ t.registrationReoffersDue l atMs limit onlyId) : o ∈ t.obligations := by
  rcases reoffersFrom_mem (mem_of_mem_take h) with h | ⟨h, -⟩
  · exact absurd h not_mem_nil
  · exact h

end Tables

end OriRuntime
