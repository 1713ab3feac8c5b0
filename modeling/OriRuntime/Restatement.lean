import OriRuntime.LedgerSequence
import OriRuntime.LedgerSound

/-!
# Restatements

Custody, receipts and confirmations arrive over a courier, in any order and any number of times. A
custody and a confirmation are held to the one recorded; a receipt agrees on the rows it covers.
-/

namespace OriRuntime

open Execution

namespace Tables

variable {t t' u : Tables} {l : EvidenceDeliveryLedger} {k : IngestKeys}

/-! ### Receipts -/

/-- The sequence is sealed here and has a receipt. -/
def Covered (t : Tables) (n : ℕ) : Prop :=
  ∃ r, t.findSeq n = some r ∧ r.delivery.receiptState = .accepted

def Intact (t : Tables) (n : ℕ) : Prop := ∃ r, t.findSeq n = some r ∧ heldDelivery r.delivery = true

/-- What a receipt is proven and applied by: the sealed columns, and whether each row is damaged. -/
def sealedRows (t : Tables) : List (SealedColumns × Bool) :=
  t.rows.map (fun r => (r.toSealedColumns, heldDelivery r.delivery))

theorem findSeq_sealedRows (t : Tables) (n : ℤ) :
    t.sealedRows.find? (fun c => decide ((c.1.localSeq : ℤ) = n)) =
      (t.findSeq n).map (fun r => (r.toSealedColumns, heldDelivery r.delivery)) := by
  unfold sealedRows findSeq
  rw [List.find?_map]
  rfl

theorem intact_congr (h : t'.sealedRows = t.sealedRows) (n : ℕ) : Intact t' n ↔ Intact t n := by
  have hf := findSeq_sealedRows t' n
  rw [h, findSeq_sealedRows] at hf
  unfold Intact
  cases hr : t.findSeq n <;> cases hr' : t'.findSeq n <;> simp [hr, hr'] at hf ⊢
  rw [hf.2]

theorem chainRowDigests_eq (t : Tables) (fromSeq toSeq : ℤ) : chainRowDigests l t fromSeq toSeq =
    (let cols := t.sealedRows.map Prod.fst
     let held := cols.filter (fun c => decide (fromSeq ≤ c.localSeq ∧ c.localSeq ≤ toSeq))
     if decide (cols.length = (cols.map (·.localSeq)).foldl max 0 ∧
         ∀ c ∈ cols, 1 ≤ c.localSeq) = false then .error .storeFault
     else if held.any (fun c => isSha256 c.chainRowDigest && !sealedDigests l c) then
       .error .storeFault
     else .ok (held.map (fun c => (c.localSeq, c.chainRowDigest)))) := by
  simp only [chainRowDigests, gapless, sealedRows, List.map_map, List.filter_map, List.any_map,
    List.length_map, List.forall_mem_map, Function.comp_def]
  congr

theorem provenReceipt_congr (h : t'.sealedRows = t.sealedRows) (artifact : Json) :
    provenReceipt k l t' artifact = provenReceipt k l t artifact := by
  have hd : chainRowDigests l t' = chainRowDigests l t := by
    funext fromSeq toSeq
    rw [chainRowDigests_eq, chainRowDigests_eq, h]
  unfold provenReceipt
  rw [hd]

def receipted (atMs : ℤ) (keyId : Text) (d : Delivery) : Delivery :=
  { d with receiptState := .accepted, receiptAtMs := some atMs, receiptKeyId := some keyId }

variable {d : Delivery}

theorem heldDelivery_receipted {atMs : ℤ} {keyId : Text} (ha : |atMs| ≤ integerMax)
    (hk : isSha256 keyId = true) (h : heldDelivery d = true) :
    heldDelivery (receipted atMs keyId d) = true := by
  have hc := (Bool.and_eq_true_iff.mp h).1
  refine Bool.and_eq_true_iff.mpr ⟨hc, ?_⟩
  simp [receipted, inZone, ha, hk]

variable {n : ℕ} {held : LedgerRow} {ns : List ℕ} {artifact : Json} {v : VerifiedReceipt}

theorem ne_nil_of_hexForm {scheme : String} {wire : Text} (hn : 0 < n)
    (h : hexForm scheme n wire = true) : wire ≠ [] := by
  rintro rfl
  simp only [hexForm, Bool.and_eq_true, decide_eq_true_eq, List.length_nil] at h
  omega

theorem checked_receipted (atMs : ℤ) {keyId : Text} (hk : isSha256 keyId = true)
    (h : heldDelivery d = true) (hs : SoundDelivery d) :
    checked (receipted atMs keyId d) = true := by
  have hc := (Bool.and_eq_true_iff.mp h).1
  have hn := ne_nil_of_hexForm (by decide) hk
  refine Bool.and_eq_true_iff.mpr ⟨Bool.and_eq_true_iff.mpr ⟨?_, ?_⟩, hs.2⟩
  · dsimp only [receipted]
    split at hc
    · rename_i ht
      rw [ht]
      simp only [Bool.and_eq_true] at hc ⊢
      refine ⟨hc.1.1.1, ?_⟩
      obtain ⟨key, hk, hform⟩ := (Option.any_eq_true _ _).mp hc.1.2
      rw [hk]
      simpa using ne_nil_of_hexForm (by decide) hform
    · rename_i ht
      rw [ht]
      simp only [Bool.and_eq_true] at hc ⊢
      exact hc.1
  · simpa [receipted] using hn

theorem findSeq_eq_some_iff (h : SoundRows t) {r : LedgerRow} :
    t.findSeq n = some r ↔ r ∈ t.rows ∧ r.localSeq = n := by
  constructor
  · intro hr
    obtain ⟨hm, hs⟩ := mem_of_findSeq hr
    exact ⟨hm, Nat.cast_injective hs⟩
  · rintro ⟨hm, rfl⟩
    cases hr : t.findSeq r.localSeq with
    | none => simpa using List.find?_eq_none.mp hr r hm
    | some q =>
      obtain ⟨hq, hs⟩ := mem_of_findSeq hr
      rw [List.inj_on_of_nodup_map h.distinct hq hm (Nat.cast_injective hs)]

variable {atMs : ℤ} {keyId : Text}

theorem updateDelivery_receipted (atMs : ℤ) (h : SoundRows t) (hk : isSha256 keyId = true)
    (hm : held ∈ t.rows) (hd : heldDelivery held.delivery = true)
    (ho : held.delivery.receiptState ≠ .accepted) :
    ∃ u, t.updateDelivery held.localSeq (receipted atMs keyId) = .ok u := by
  have ha : ∀ r ∈ t.rows, (decide (r.localSeq ≠ held.localSeq) ||
      custodyFinal r.delivery (receipted atMs keyId r.delivery) &&
        receiptFinal r.delivery (receipted atMs keyId r.delivery) &&
          checked (receipted atMs keyId r.delivery)) = true := by
    intro r hr
    by_cases hs : r.localSeq = held.localSeq
    · obtain rfl := List.inj_on_of_nodup_map h.distinct hr hm hs
      have hh := checked_receipted atMs hk hd (h.deliveries r hr)
      have hc : custodyFinal r.delivery (receipted atMs keyId r.delivery) = true :=
        decide_eq_true (fun ht => ⟨ht, rfl, rfl, fun _ => rfl⟩)
      have he : receiptFinal r.delivery (receipted atMs keyId r.delivery) = true :=
        decide_eq_true (fun ht => absurd ht ho)
      simp only [hh, hc, he, Bool.and_self, Bool.or_true]
    · simp only [ne_eq, hs, not_false_eq_true, decide_true, Bool.true_or]
  unfold updateDelivery
  rw [if_pos (List.all_eq_true.mpr ha)]
  exact ⟨_, rfl⟩

theorem Updated.sealedRows_receipted (h : SoundRows t) (ha : |atMs| ≤ integerMax)
    (hk : isSha256 keyId = true) (hm : held ∈ t.rows)
    (hh : heldDelivery held.delivery = true)
    (hu : Updated t held.localSeq (receipted atMs keyId) u) :
    u.sealedRows = t.sealedRows := by
  unfold sealedRows
  rw [hu.eq, List.map_map]
  refine List.map_congr_left ?_
  intro r hr
  dsimp only [Function.comp_apply]
  split_ifs with hs
  · obtain rfl := List.inj_on_of_nodup_map h.distinct hr hm hs
    rw [hh, heldDelivery_receipted ha hk hh]
  · rfl

theorem Updated.covered_receipted (h : SoundRows t) (hm : held ∈ t.rows)
    (hu : Updated t held.localSeq (receipted atMs keyId) u) (n : ℕ) :
    Covered u n ↔ Covered t n ∨ n = held.localSeq := by
  have hf := hu.findSeq n
  constructor
  · rintro ⟨r', hr', ha⟩
    rw [hf] at hr'
    obtain ⟨r, hr, rfl⟩ := Option.map_eq_some_iff.mp hr'
    split_ifs at ha with hs
    · exact .inr (((findSeq_eq_some_iff h).mp hr).2.symm.trans hs)
    · exact .inl ⟨r, hr, ha⟩
  · rintro (⟨r, hr, ha⟩ | rfl)
    · refine ⟨_, hf.trans (congrArg _ hr), ?_⟩
      dsimp only
      split_ifs
      · rfl
      · exact ha
    · refine ⟨_, hf.trans (congrArg _ ((findSeq_eq_some_iff h).mpr ⟨hm, rfl⟩)), ?_⟩
      dsimp only
      rw [if_pos rfl]
      rfl

theorem applyReceipts_covers (h : SoundRows t) (ht : |atMs| ≤ integerMax)
    (hk : isSha256 keyId = true) (hi : ∀ n ∈ ns, Intact t n) :
    ∃ t' applied, applyReceipts atMs keyId t ns = .ok (t', applied) ∧
      t'.sealedRows = t.sealedRows ∧ ∀ n, Covered t' n ↔ Covered t n ∨ n ∈ ns := by
  induction ns generalizing t with
  | nil => exact ⟨t, [], rfl, rfl, fun n => by simp⟩
  | cons m ns ih =>
    obtain ⟨held, hf, hh⟩ := hi m List.mem_cons_self
    obtain ⟨hm, rfl⟩ := (findSeq_eq_some_iff h).mp hf
    have hrs : ∀ n ∈ ns, Intact t n := fun n hn => hi n (List.mem_cons_of_mem _ hn)
    by_cases ha : held.delivery.receiptState = .accepted
    · obtain ⟨t', applied, hp, hr, hcove⟩ := ih h hrs
      refine ⟨t', applied, ?_, hr, ?_⟩
      · rw [applyReceipts, hf]
        simp only [hh, ha]
        exact hp
      · intro n
        rw [hcove n, List.mem_cons]
        constructor
        · rintro (hc | hn)
          · exact .inl hc
          · exact .inr (.inr hn)
        · rintro (hc | rfl | hn)
          · exact .inl hc
          · exact .inl ⟨held, hf, ha⟩
          · exact .inr hn
    · obtain ⟨u, hu⟩ := updateDelivery_receipted atMs h hk hm hh ha
      have hupda := updateDelivery_updated hu
      have hsm := hupda.sealedRows_receipted h ht hk hm hh
      have hs : SoundRows u := h.update hu (fun d hd => hd)
      obtain ⟨t', applied, hp, hr, hcove⟩ := ih hs (fun n hn => (intact_congr hsm n).mpr (hrs n hn))
      refine ⟨t', held.localSeq :: applied, ?_, hr.trans hsm, ?_⟩
      · rw [applyReceipts, hf]
        simp only [hh, ha]
        unfold receipted at hu
        rw [hu]
        dsimp only
        rw [hp]
        rfl
      · intro n
        rw [hcove n, hupda.covered_receipted h hm n, List.mem_cons, or_assoc]

theorem intact_of_applyReceipts (h : SoundRows t) (ht : |atMs| ≤ integerMax)
    (hk : isSha256 keyId = true) {applied : List ℕ}
    (ha : applyReceipts atMs keyId t ns = .ok (t', applied)) : ∀ n ∈ ns, Intact t n := by
  induction ns generalizing t applied with
  | nil => exact nofun
  | cons m ns ih =>
    obtain ⟨held, hf, hh, hc⟩ := applyReceipts_cons ha
    intro n hn
    rcases List.mem_cons.mp hn with rfl | hn
    · exact ⟨held, hf, hh⟩
    obtain ⟨-, hr⟩ | ⟨u, rest, -, hu, hr⟩ := hc
    · exact ih h hr n hn
    have hm := (updateDelivery_updated hu).sealedRows_receipted h ht hk (mem_of_findSeq hf).1 hh
    have hs : SoundRows u := h.update hu (fun d hd => hd)
    exact (intact_congr hm n).mp (ih hs hr n hn)

/-- The sequences a receipt covers here. -/
def Takes (k : IngestKeys) (l : EvidenceDeliveryLedger) (t : Tables) (artifact : Json) (n : ℕ) :
    Prop :=
  ∃ v, provenReceipt k l t artifact = .ok v ∧ (∀ m ∈ v.sequences, Intact t m) ∧ n ∈ v.sequences

theorem takes_congr (h : t'.sealedRows = t.sealedRows) (artifact : Json) (n : ℕ) :
    Takes k l t' artifact n ↔ Takes k l t artifact n := by
  unfold Takes
  simp only [provenReceipt_congr h, intact_congr h]

theorem takes_of_proven (h : provenReceipt k l t artifact = .ok v) (n : ℕ) :
    Takes k l t artifact n ↔ (∀ m ∈ v.sequences, Intact t m) ∧ n ∈ v.sequences := by
  constructor
  · rintro ⟨v', hp, hi, hn⟩
    obtain rfl := Except.ok.inj (h.symm.trans hp)
    exact ⟨hi, hn⟩
  · rintro ⟨hi, hn⟩
    exact ⟨v, h, hi, hn⟩

theorem chainRowDigests_mem {fromSeq toSeq : ℤ} {digests : List (ℕ × Text)}
    (h : chainRowDigests l t fromSeq toSeq = .ok digests) :
    ∀ d ∈ digests, ∃ r ∈ t.rows, r.localSeq = d.1 ∧ r.chainRowDigest = d.2 := by
  unfold chainRowDigests at h
  dsimp only at h
  split_ifs at h
  cases h
  intro d hd
  obtain ⟨r, hr, rfl⟩ := List.mem_map.mp hd
  exact ⟨r, List.mem_of_mem_filter hr, rfl, rfl⟩

theorem provenReceipt_digests (h : provenReceipt k l t artifact = .ok v) :
    ∃ digests, (∀ d ∈ digests, ∃ r ∈ t.rows, r.localSeq = d.1 ∧ r.chainRowDigest = d.2) ∧
      k.verifyReceipt artifact l.deviceId digests = .ok v := by
  unfold provenReceipt at h
  dsimp only at h
  split at h
  · cases h
  rename_i digests hr
  split at h
  · cases h
  rename_i hv
  cases h
  refine ⟨digests, ?_, hv⟩
  have he : ∀ d ∈ ([] : List (ℕ × Text)), ∃ r ∈ t.rows, r.localSeq = d.1 ∧
      r.chainRowDigest = d.2 := fun d hd => absurd hd List.not_mem_nil
  split at hr
  · split at hr
    · exact chainRowDigests_mem hr
    · exact (Except.ok.inj hr) ▸ he
  · exact (Except.ok.inj hr) ▸ he

theorem acceptReceipt_of_proven (h : provenReceipt k l t artifact = .ok v) :
    |v.acceptedAtMs| ≤ integerMax ∧ isSha256 v.keyId = true ∧ t.acceptReceipt k l artifact =
      applyReceipts v.acceptedAtMs v.keyId t (v.sequences.dedup.insertionSort (· ≤ ·)) := by
  obtain ⟨digests, -, hv⟩ := provenReceipt_digests h
  obtain ⟨ha, hk, -⟩ := IngestKeys.verifyReceipt_facts hv
  refine ⟨ha, hk, ?_⟩
  unfold acceptReceipt applyVerifiedReceipts
  rw [h]
  exact if_neg (ne_nil_of_hexForm (by decide) hk)

theorem mem_sequences : n ∈ ns.dedup.insertionSort (· ≤ ·) ↔ n ∈ ns := by
  rw [List.mem_insertionSort, List.mem_dedup]

end Tables

namespace LedgerState

variable {e : LedgerSetting} {s s' : LedgerState}

open Tables

/-- The state after one receipt, whether it was accepted or refused. -/
def receive (e : LedgerSetting) (s : LedgerState) (r : ℕ × Json) : LedgerState :=
  (apply e s r.1 (.receipt r.2)).1

theorem apply_receipt (s : LedgerState) (w : ℕ) (artifact : Json) :
    apply e s w (.receipt artifact) =
      match s.tables.acceptReceipt e.keys (e.ledgers.ledger w) artifact with
      | .error fault => (s, some fault)
      | .ok r => ({ s with tables := r.1 }, none) := by
  simp only [apply, perform]
  cases s.tables.acceptReceipt e.keys (e.ledgers.ledger w) artifact <;> rfl

theorem receive_covers (h : SoundRows s.tables) (r : ℕ × Json) :
    (receive e s r).tables.sealedRows = s.tables.sealedRows ∧
      ∀ n, Covered (receive e s r).tables n ↔
        Covered s.tables n ∨ Takes e.keys (e.ledgers.ledger r.1) s.tables r.2 n := by
  obtain ⟨w, artifact⟩ := r
  rw [receive, apply_receipt]
  cases hp : provenReceipt e.keys (e.ledgers.ledger w) s.tables artifact with
  | error fault =>
    have hno : s.tables.acceptReceipt e.keys (e.ledgers.ledger w) artifact = .error fault := by
      unfold acceptReceipt
      rw [hp]
    rw [hno]
    simp [Takes, hp]
  | ok v =>
    obtain ⟨ht, hk, ha⟩ := acceptReceipt_of_proven hp
    rw [ha]
    by_cases hi : ∀ m ∈ v.sequences, Intact s.tables m
    · obtain ⟨t', applied, ho, hw, hc⟩ := applyReceipts_covers h ht hk
        (fun n hn => hi n (mem_sequences.mp hn))
      rw [ho]
      refine ⟨hw, fun n => (hc n).trans ?_⟩
      rw [mem_sequences, takes_of_proven hp n, and_iff_right hi]
    · have hr : ∀ r, applyReceipts v.acceptedAtMs v.keyId s.tables
          (v.sequences.dedup.insertionSort (· ≤ ·)) ≠ .ok r := by
        rintro ⟨t', applied⟩ ho
        exact hi (fun m hm => intact_of_applyReceipts h ht hk ho m (mem_sequences.mpr hm))
      split
      · refine ⟨rfl, fun n => ?_⟩
        rw [takes_of_proven hp n]
        simp only [hi, false_and, or_false]
      · rename_i r ho
        exact absurd ho (hr r)

theorem receive_all_covers (h : SoundRows s.tables) (rs : List (ℕ × Json)) (n : ℕ) :
    Covered (rs.foldl (receive e) s).tables n ↔
      Covered s.tables n ∨ ∃ r ∈ rs, Takes e.keys (e.ledgers.ledger r.1) s.tables r.2 n := by
  induction rs generalizing s with
  | nil => simp
  | cons r rs ih =>
    obtain ⟨hr, hc⟩ := receive_covers (e := e) h r
    have hs : SoundRows (receive e s r).tables := apply_sound h r.1 (.receipt r.2)
    rw [List.foldl_cons, ih hs, hc n]
    simp only [takes_congr hr, List.mem_cons, exists_eq_or_imp, or_assoc]

end LedgerState

namespace Tables

variable {t t' u : Tables} {l : EvidenceDeliveryLedger} {k : IngestKeys}

/-! ### Agreement -/

variable {sealedAtMs recordedAtMs : ℤ} {v : VerifiedCustody} {ns applied : List ℕ} {keyId : Text}

theorem applyVerifiedCustody_agrees (h : SoundRows t) {r : LedgerRow}
    (hf : t.findSeq v.localSeq = some r) (hh : r.delivery.custodyState = .held)
    (ha : t.applyVerifiedCustody v recordedAtMs = .ok t') :
    r.delivery.custodyAtMs = some v.custodyAtMs ∧ t' = t := by
  obtain ⟨held, hf', -, hc⟩ := applyVerifiedCustody_cases ha
  obtain rfl := Option.mem_unique hf hf'
  obtain ⟨-, ht, ⟨-, rfl⟩ | ⟨hn, -⟩⟩ | ⟨hn, -⟩ := hc
  · exact ⟨ht, rfl⟩
  · exact absurd hn ((h.deliveries r (mem_of_findSeq hf).1).1 hh)
  · rw [hh] at hn
    cases hn

variable {atMs : ℤ}

theorem applyReceipts_agrees (hc : ∀ n ∈ ns, Covered t n)
    (h : applyReceipts atMs keyId t ns = .ok (t', applied)) : t' = t := by
  induction ns generalizing applied with
  | nil => exact (Prod.mk.inj (Except.ok.inj h)).1.symm
  | cons n ns ih =>
    have hs : ∀ m ∈ ns, Covered t m := fun m hm => hc m (List.mem_cons_of_mem _ hm)
    obtain ⟨r, hr, ha⟩ := hc n List.mem_cons_self
    rw [applyReceipts, hr] at h
    dsimp only at h
    split at h
    · cases h
    · exact ih hs h

theorem applyVerifiedEpochConfirmation_agrees {v : VerifiedEpochConfirmation} {closedAtMs : ℤ}
    {c : Confirmation}
    (hf : t.confirmations.find? (fun c => decide (c.anchorEpochId = v.anchorEpochId)) = some c)
    (h : t.applyVerifiedEpochConfirmation l v closedAtMs = .ok t') :
    (c.confirmedAtMs, c.actor, c.keyId) = (v.confirmedAtMs, v.actor, v.keyId) ∧ t' = t := by
  obtain ⟨rfl, held, hh, ha⟩ | ⟨hn, -⟩ := applyVerifiedEpochConfirmation_cases h
  · obtain rfl := Option.mem_unique hf hh
    exact ⟨ha, rfl⟩
  · rw [hf] at hn
    cases hn

/-- The digest of the range a receipt names, over the rows sealed here. -/
def sealedRangeDigest (k : IngestKeys) (t : Tables) (artifact : Json) : Text :=
  text "sha256:" ++ k.rangeHash ((List.range' (artifact.intMember "from_seq").toNat
    (artifact.intMember "to_seq" - artifact.intMember "from_seq" + 1).toNat).map (fun n : ℕ =>
      ((t.findSeq n).map (·.chainRowDigest)).getD []))

theorem provenReceipt_rangeDigest (hs : SoundRows t) {artifact : Json} {v : VerifiedReceipt}
    (h : provenReceipt k l t artifact = .ok v) :
    artifact.strMember "range_digest" = sealedRangeDigest k t artifact := by
  obtain ⟨digests, hm, hv⟩ := provenReceipt_digests h
  obtain ⟨-, -, hseqs, held, hh, hu, hi⟩ := IngestKeys.verifyReceipt_facts hv
  rw [hi, sealedRangeDigest, ← hseqs, ← hh, List.map_map]
  congr 2
  refine List.map_congr_left ?_
  intro d hd
  obtain ⟨r, hr, he, ho⟩ := hm d (hu d hd)
  simp only [Function.comp_apply, (findSeq_eq_some_iff hs).mpr ⟨hr, he⟩, Option.map_some,
    Option.getD_some, ho]

/-! ### The active epoch -/

theorem updateDelivery_epochs {localSeq : ℕ} {f : Delivery → Delivery}
    (h : t.updateDelivery localSeq f = .ok t') : t'.epochs = t.epochs := by
  rw [(updateDelivery_updated h).eq]

theorem applyVerifiedCustody_epochs (h : t.applyVerifiedCustody v recordedAtMs = .ok t') :
    t'.epochs = t.epochs := by
  obtain ⟨held, -, -, ⟨-, -, ⟨-, rfl⟩ | ⟨-, hu⟩⟩ | ⟨-, hu⟩⟩ := applyVerifiedCustody_cases h
  · rfl
  all_goals exact updateDelivery_epochs hu

theorem applyReceipts_epochs (h : applyReceipts atMs keyId t ns = .ok (t', applied)) :
    t'.epochs = t.epochs := by
  induction ns generalizing t applied with
  | nil => rw [(Prod.mk.inj (Except.ok.inj h)).1]
  | cons n ns ih =>
    obtain ⟨held, -, -, ⟨-, hr⟩ | ⟨u, rest, -, hu, hr⟩⟩ := applyReceipts_cons h
    · exact ih hr
    · exact (ih hr).trans (updateDelivery_epochs hu)

theorem sealChainRow_epochs {row : CarriedRow} (h : t.sealChainRow l row sealedAtMs = .ok t') :
    t'.epochs = t.epochs := by
  obtain rfl | ⟨-, rows, raced, -, rfl⟩ := sealChainRow_cases h <;> rfl

theorem insertArtifact_epochs (t : Tables) (artifactType : ArtifactType) (wire digest : Text)
    (createdAtMs : ℤ) :
    (t.insertArtifact artifactType wire digest createdAtMs).epochs = t.epochs := by
  unfold insertArtifact
  split_ifs <;> rfl

theorem sealRegistration_epochs {registration : Json}
    (h : t.sealRegistration l registration sealedAtMs = .ok t') : t'.epochs = t.epochs := by
  unfold sealRegistration at h
  split at h
  · cases h
  split at h
  · cases h
  dsimp only at h
  split at h
  · split at h
    · rw [← Except.ok.inj h]
    · split at h
      · cases h
      · rw [← Except.ok.inj h, insertArtifact_epochs]
        split <;> rfl
  · cases h

theorem applyVerifiedDisposition_epochs {d : VerifiedDisposition} {applied : Bool}
    (h : t.applyVerifiedDisposition l d atMs = .ok (t', applied)) : t'.epochs = t.epochs := by
  obtain ⟨rfl, -⟩ | ⟨kind, epoch, target, row, -, -, rfl⟩ := applyVerifiedDisposition_cases h
  · rfl
  dsimp only
  unfold dispose
  split <;> rfl

end Tables

namespace LedgerState

variable {e : LedgerSetting} {s s' : LedgerState}

open Tables

variable {w : ℕ} {artifact : Json}

theorem perform_epochs {t t' : Tables} {op : LedgerOp} (h : perform e w t op = .ok t') :
    t'.epochs = t.epochs ∨ ∃ artifact closedAtMs v, op = .confirmation artifact closedAtMs ∧
      e.keys.verifyEpochConfirmation artifact (e.ledgers.ledger w).deviceId = .ok v ∧
      v.anchorEpochId = (e.ledgers.ledger w).anchorEpochId ∧
      t.confirmations.find? (fun c => decide (c.anchorEpochId = v.anchorEpochId)) = none := by
  cases op with
  | sealChainRow row sealedAtMs => exact .inl (sealChainRow_epochs h)
  | sealRegistration registration sealedAtMs => exact .inl (sealRegistration_epochs h)
  | custody artifact recordedAtMs =>
    simp only [perform, acceptCustody] at h
    split at h
    · cases h
    · exact .inl (applyVerifiedCustody_epochs h)
  | receipt artifact =>
    obtain ⟨applied, hc⟩ := map_fst_eq_ok h
    obtain ⟨v, -, ha⟩ := acceptReceipt_cases hc
    exact .inl (applyReceipts_epochs ha)
  | confirmation artifact closedAtMs =>
    simp only [perform, acceptEpochConfirmation] at h
    split at h
    · cases h
    rename_i v hv
    obtain ⟨rfl, -⟩ | ⟨hn, -, -, -, -, -, -, ht, -⟩ := applyVerifiedEpochConfirmation_cases h
    · exact .inl rfl
    by_cases ho : v.anchorEpochId = (e.ledgers.ledger w).anchorEpochId
    · exact .inr ⟨artifact, closedAtMs, v, rfl, hv, ho, hn⟩
    · exact .inl (ht ho)
  | disposition d atMs =>
    obtain ⟨applied, ha⟩ := map_fst_eq_ok h
    exact .inl (applyVerifiedDisposition_epochs ha)
  | recordAttempt localSeq atMs failure =>
    exact .inl (updateDelivery_epochs (recordAttempt_cases h))
  | recordTransportFailure localSeq failure =>
    exact .inl (updateDelivery_epochs (recordTransportFailure_cases h))
  | courierAnswer localSeq answer atMs answeredAtMs =>
    obtain rfl | hu | hu := applyCourierAnswer_cases h
    · exact .inl rfl
    all_goals exact .inl (updateDelivery_epochs hu)
  | recordArtifactFault holder holderId reason atMs =>
    cases h
    unfold recordArtifactFault
    split_ifs <;> exact .inl rfl
  | _ =>
    cases h
    exact .inl rfl

theorem apply_epochs (s : LedgerState) (w : ℕ) (op : LedgerOp) :
    (apply e s w op).1.tables.epochs = s.tables.epochs ∨
      ∃ artifact closedAtMs v, op = .confirmation artifact closedAtMs ∧
        e.keys.verifyEpochConfirmation artifact (e.ledgers.ledger w).deviceId = .ok v ∧
        v.anchorEpochId = (e.ledgers.ledger w).anchorEpochId ∧
        s.tables.confirmations.find? (fun c => decide (c.anchorEpochId = v.anchorEpochId)) =
          none := by
  obtain heq | hp | ⟨counter, t', rfl, heq | ⟨bootId, issuedAtMs, -, hi⟩⟩ :=
    apply_cases (e := e) s w op
  · exact .inl (congrArg _ heq)
  · exact perform_epochs hp
  · exact .inl (by rw [heq])
  · obtain ⟨wire, ht, -⟩ := issueCheckpoint_cases hi
    left
    rw [ht, insertArtifact_epochs]

/-! ### Restatements -/

theorem apply_custody (s : LedgerState) (w : ℕ) (artifact : Json) (recordedAtMs : ℤ) :
    apply e s w (.custody artifact recordedAtMs) =
      match s.tables.acceptCustody e.keys (e.ledgers.ledger w) artifact recordedAtMs with
      | .error fault => (s, some fault)
      | .ok t => ({ s with tables := t }, none) := rfl

theorem apply_confirmation (s : LedgerState) (w : ℕ) (artifact : Json) (closedAtMs : ℤ) :
    apply e s w (.confirmation artifact closedAtMs) =
      match s.tables.acceptEpochConfirmation e.keys (e.ledgers.ledger w) artifact closedAtMs with
      | .error fault => (s, some fault)
      | .ok t => ({ s with tables := t }, none) := rfl

theorem custody_restated (h : SoundRows s.tables) {recordedAtMs : ℤ} {v : VerifiedCustody}
    {r : LedgerRow} (hp : provenCustody e.keys (e.ledgers.ledger w) s.tables artifact = .ok v)
    (hf : s.tables.findSeq v.localSeq = some r) (hh : r.delivery.custodyState = .held) :
    (r.delivery.custodyAtMs = some v.custodyAtMs →
      (apply e s w (.custody artifact recordedAtMs)).1 = s) ∧
    (r.delivery.custodyAtMs ≠ some v.custodyAtMs →
      ∃ fault, apply e s w (.custody artifact recordedAtMs) = (s, some fault)) := by
  rw [apply_custody, acceptCustody, hp]
  dsimp only
  cases ha : s.tables.applyVerifiedCustody v recordedAtMs with
  | error fault => exact ⟨fun _ => rfl, fun _ => ⟨fault, rfl⟩⟩
  | ok t =>
    obtain ⟨ht, rfl⟩ := applyVerifiedCustody_agrees h hf hh ha
    exact ⟨fun _ => rfl, fun ho => absurd ht ho⟩

theorem receipt_restated {v : VerifiedReceipt}
    (hp : provenReceipt e.keys (e.ledgers.ledger w) s.tables artifact = .ok v)
    (hc : ∀ n ∈ v.sequences, Covered s.tables n) :
    (apply e s w (.receipt artifact)).1 = s := by
  rw [apply_receipt]
  cases ha : s.tables.acceptReceipt e.keys (e.ledgers.ledger w) artifact with
  | error fault => rfl
  | ok r =>
    obtain ⟨v', hp', hap⟩ := acceptReceipt_cases ha
    obtain rfl := Except.ok.inj (hp.symm.trans hp')
    have hl : ∀ n ∈ v.sequences.dedup.insertionSort (· ≤ ·), Covered s.tables n :=
      fun n hn => hc n (mem_sequences.mp hn)
    dsimp only
    rw [applyReceipts_agrees hl hap]

theorem receipt_disagreeing (h : SoundRows s.tables)
    (ho : artifact.strMember "range_digest" ≠ sealedRangeDigest e.keys s.tables artifact) :
    ∃ fault, apply e s w (.receipt artifact) = (s, some fault) := by
  rw [apply_receipt]
  cases ha : s.tables.acceptReceipt e.keys (e.ledgers.ledger w) artifact with
  | error fault => exact ⟨fault, rfl⟩
  | ok r =>
    obtain ⟨v, hp, -⟩ := acceptReceipt_cases ha
    exact absurd (provenReceipt_rangeDigest h hp) ho

theorem confirmation_restated {closedAtMs : ℤ} {v : VerifiedEpochConfirmation} {c : Confirmation}
    (hv : e.keys.verifyEpochConfirmation artifact (e.ledgers.ledger w).deviceId = .ok v)
    (hf : s.tables.confirmations.find?
      (fun c => decide (c.anchorEpochId = v.anchorEpochId)) = some c) :
    ((c.confirmedAtMs, c.actor, c.keyId) = (v.confirmedAtMs, v.actor, v.keyId) →
      (apply e s w (.confirmation artifact closedAtMs)).1 = s) ∧
    ((c.confirmedAtMs, c.actor, c.keyId) ≠ (v.confirmedAtMs, v.actor, v.keyId) →
      ∃ fault, apply e s w (.confirmation artifact closedAtMs) = (s, some fault)) := by
  rw [apply_confirmation, acceptEpochConfirmation, hv]
  dsimp only
  cases hp : s.tables.applyVerifiedEpochConfirmation (e.ledgers.ledger w) v closedAtMs with
  | error fault => exact ⟨fun _ => rfl, fun _ => ⟨fault, rfl⟩⟩
  | ok t =>
    obtain ⟨ha, rfl⟩ := applyVerifiedEpochConfirmation_agrees hf hp
    exact ⟨fun _ => rfl, fun ho => absurd ha ho⟩

/-- In every state the ledger reaches: a recorded custody, receipt or confirmation stays as it was
first recorded in every later state; an artifact that agrees with what is recorded changes nothing,
and one that disagrees raises and changes nothing; the envelopes covered by receipts are the same
for any order and repetition of the same receipts; and the active epoch moves only to the epoch the
ledger seals under, on its first confirmation. -/
theorem restatement_final (h : Reaches (step e) {} s) :
    (∀ s', Reaches (step e) s s' → Grows s.tables s'.tables) ∧
    (∀ (w : ℕ) (artifact : Json) (recordedAtMs : ℤ) (v : VerifiedCustody) (r : LedgerRow),
      provenCustody e.keys (e.ledgers.ledger w) s.tables artifact = .ok v →
      s.tables.findSeq v.localSeq = some r → r.delivery.custodyState = .held →
      (r.delivery.custodyAtMs = some v.custodyAtMs →
        (apply e s w (.custody artifact recordedAtMs)).1 = s) ∧
      (r.delivery.custodyAtMs ≠ some v.custodyAtMs →
        ∃ fault, apply e s w (.custody artifact recordedAtMs) = (s, some fault))) ∧
    (∀ (w : ℕ) (artifact : Json) (v : VerifiedReceipt),
      provenReceipt e.keys (e.ledgers.ledger w) s.tables artifact = .ok v →
      (∀ n ∈ v.sequences, Covered s.tables n) → (apply e s w (.receipt artifact)).1 = s) ∧
    (∀ (w : ℕ) (artifact : Json),
      artifact.strMember "range_digest" ≠ sealedRangeDigest e.keys s.tables artifact →
      ∃ fault, apply e s w (.receipt artifact) = (s, some fault)) ∧
    (∀ (w : ℕ) (artifact : Json) (closedAtMs : ℤ) (v : VerifiedEpochConfirmation)
        (c : Confirmation),
      e.keys.verifyEpochConfirmation artifact (e.ledgers.ledger w).deviceId = .ok v →
      s.tables.confirmations.find? (fun c => decide (c.anchorEpochId = v.anchorEpochId)) = some c →
      ((c.confirmedAtMs, c.actor, c.keyId) = (v.confirmedAtMs, v.actor, v.keyId) →
        (apply e s w (.confirmation artifact closedAtMs)).1 = s) ∧
      ((c.confirmedAtMs, c.actor, c.keyId) ≠ (v.confirmedAtMs, v.actor, v.keyId) →
        ∃ fault, apply e s w (.confirmation artifact closedAtMs) = (s, some fault))) ∧
    (∀ rs rs' : List (ℕ × Json), (∀ r, r ∈ rs ↔ r ∈ rs') → ∀ n,
      Covered (rs.foldl (receive e) s).tables n ↔ Covered (rs'.foldl (receive e) s).tables n) ∧
    ∀ (w : ℕ) (op : LedgerOp), (apply e s w op).1.tables.epochs = s.tables.epochs ∨
      ∃ artifact closedAtMs v, op = .confirmation artifact closedAtMs ∧
        e.keys.verifyEpochConfirmation artifact (e.ledgers.ledger w).deviceId = .ok v ∧
        v.anchorEpochId = (e.ledgers.ledger w).anchorEpochId ∧
        s.tables.confirmations.find? (fun c => decide (c.anchorEpochId = v.anchorEpochId)) =
          none := by
  have hsound := sound_of_reaches h
  refine ⟨fun s' => grows_of_reaches, fun w artifact recordedAtMs v r => custody_restated hsound,
    fun w artifact v => receipt_restated, fun w artifact => receipt_disagreeing hsound,
    fun w artifact closedAtMs v c => confirmation_restated, ?_, apply_epochs s⟩
  intro rs rs' hsame n
  rw [receive_all_covers hsound rs n, receive_all_covers hsound rs' n]
  simp only [hsame]

/-- A checksum in the hash's place, in its 64 digits. -/
def checksum (b : Text) : Text :=
  let n := b.foldl (fun h c => (h * 257 + c.val + 1) % 16 ^ 64) 7
  (List.range 64).map (fun i =>
    let digit := n / 16 ^ i % 16
    Fin.ofNat 0x110000 (if digit < 10 then 48 + digit else 87 + digit))

def benchKeys : EvidenceKeys where
  sha256 := checksum
  sign := fun b => text "ed25519:" ++ checksum b
  verify := fun wire b => decide (wire = text "ed25519:" ++ checksum b)
  verify_sign := fun _ => decide_eq_true rfl

def custodyKeyId : Text := text "hkdf-sha256:" ++ (checksum []).take 32

/-- One process on one device, with one custody secret. -/
def benchSetting : LedgerSetting where
  ledgers :=
    { ledger := fun _ =>
        { keys := benchKeys, deviceId := text "device", anchorEpochId := text "epoch"
          keyId := text "key", named := EvidenceDeliveryLedger.named_bench }
      sha256 := checksum
      hash := fun _ => rfl }
  keys :=
    { registry := [], named := nofun, decodes := fun _ => false
      custody := some [{ keyId := custodyKeyId, secret := some (text "secret") }]
      hmac := fun secret signed => checksum (secret ++ signed)
      rangeHash := fun digests => checksum digests.flatten }

def benchRow : CarriedRow :=
  { EvidenceDeliveryLedger.heartbeatRow with
    eventHash := checksum EvidenceDeliveryLedger.heartbeatBytes
    signature := text "ed25519:" ++ checksum EvidenceDeliveryLedger.heartbeatBytes }

/-- The gateway's acknowledgement of the envelope with this digest. -/
def benchCustody (digest : Text) (custodyAtMs : ℤ) : Json :=
  let fields := [("v", .int 1), ("device_id", .str (text "device")), ("local_seq", .int 1),
    ("envelope_digest", .str digest), ("custody_at_ms", .int custodyAtMs),
    ("key_id", .str custodyKeyId)]
  let signed := match (Json.obj fields).canonicalJson with
    | .error _ => []
    | .ok body => text "ori.evidence_custody_ack.v1" ++ [0] ++ body
  Json.obj (fields ++ [("mac", .str (text "hmac-sha256:" ++ checksum (text "secret" ++ signed)))])

def sealedDigest : Text :=
  (((run (step benchSetting) {} [(0, .sealChainRow benchRow 5)]).bind
    (fun s => s.tables.findSeq 1)).map (·.envelopeDigest)).getD []

/-- Custody acknowledged once, and then with another time. -/
theorem restatement_final_custody : ∃ s, run (step benchSetting) {} [(0, .sealChainRow benchRow 5),
        (0, .custody (benchCustody sealedDigest 100) 200),
        (0, .custody (benchCustody sealedDigest 101) 201)] = some s ∧
      s.tables.rows.map (fun r => (r.delivery.custodyState, r.delivery.custodyAtMs)) =
        [(.held, some 100)] ∧
      ∀ s', Reaches (step benchSetting) s s' → Tables.Grows s.tables s'.tables := by
  obtain ⟨s, hs, hheld⟩ : ∃ s, run (step benchSetting) {} [(0, .sealChainRow benchRow 5), (0,
    .custody (benchCustody sealedDigest 100) 200), (0, .custody (benchCustody sealedDigest 101)
    201)] = some s ∧ s.tables.rows.map (fun r => (r.delivery.custodyState, r.delivery.custodyAtMs))
    = [(.held, some 100)] := by
    refine exists_of_check ?_
    dsimp only [sealedDigest, benchRow, EvidenceDeliveryLedger.heartbeatRow,
      EvidenceDeliveryLedger.heartbeatBytes, text]
    repeat rw [String.toList_ofList]
    decide +kernel
  exact ⟨s, hs, hheld, (restatement_final ⟨_, hs⟩).1⟩

end LedgerState

end OriRuntime
