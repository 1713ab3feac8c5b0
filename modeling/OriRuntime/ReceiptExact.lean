import OriRuntime.Restatement

/-!
# Receipts and the rows they describe

A receipt is accepted exactly when it names a closed interval of sealed numbers and the digest of
those rows in order. Applied, it marks the rows of the interval and no other.
-/

namespace OriRuntime

open Execution

namespace IngestKeys

variable {k : IngestKeys}

def heldDigests (digests : List (ℕ × Text)) (fromSeq toSeq : ℤ) : List (ℕ × Text) :=
  (digests.filter (fun d => decide (fromSeq ≤ d.1 ∧ d.1 ≤ toSeq))).insertionSort (fun d e => d.1 ≤ e.1)

/-- The shape, key, signature and device of a receipt. -/
def Authentic (k : IngestKeys) (artifact : Json) (deviceId : Text) : Prop :=
  k.verifySigned artifact receiptShape "evidence_authority_receipt"
    "ori.evidence_delivery_receipt.v1" deviceId = .ok ()

variable {digests : List (ℕ × Text)}

theorem verifyReceipt_eq_ok {artifact : Json} {deviceId : Text} {fromSeq toSeq : ℤ}
    (hu : k.Authentic artifact deviceId) (hfrom : artifact.intMember "from_seq" = fromSeq)
    (ht : artifact.intMember "to_seq" = toSeq) (he : 1 ≤ fromSeq ∧ fromSeq ≤ toSeq)
    (hl : ((heldDigests digests fromSeq toSeq).length : ℤ) = toSeq - fromSeq + 1)
    (hseqs : (heldDigests digests fromSeq toSeq).map (·.1) =
      List.range' fromSeq.toNat (heldDigests digests fromSeq toSeq).length)
    (ha : (heldDigests digests fromSeq toSeq).all (fun d => isSha256 d.2) = true)
    (hd : artifact.strMember "range_digest" =
      text "sha256:" ++ k.rangeHash ((heldDigests digests fromSeq toSeq).map (·.2))) :
    k.verifyReceipt artifact deviceId digests =
      .ok { sequences := (heldDigests digests fromSeq toSeq).map (·.1)
            acceptedAtMs := artifact.intMember "accepted_at_ms"
            keyId := artifact.strMember "key_id" } := by
  unfold heldDigests at hl hseqs ha hd ⊢
  subst hfrom ht
  unfold verifyReceipt
  rw [show k.verifySigned artifact receiptShape _ _ deviceId = .ok () from hu]
  have hr : ¬ (artifact.intMember "from_seq" < 1 ∨
      artifact.intMember "to_seq" < artifact.intMember "from_seq") := by omega
  simp only [bind, Except.bind, pure, Except.pure, hr, if_false, hl, hseqs, ha, hd,
    ne_eq, not_true_eq_false, or_self, Bool.true_eq_false]

theorem verifyReceipt_range {artifact : Json} {deviceId : Text} {v : VerifiedReceipt}
    (h : k.verifyReceipt artifact deviceId digests = .ok v) :
    k.Authentic artifact deviceId ∧ 1 ≤ artifact.intMember "from_seq" ∧
      artifact.intMember "from_seq" ≤ artifact.intMember "to_seq" ∧
      v.acceptedAtMs = artifact.intMember "accepted_at_ms" ∧ v.keyId = artifact.strMember "key_id" := by
  unfold verifyReceipt at h
  simp only [bind, Except.bind, throw, throwThe, MonadExceptOf.throw] at h
  split at h
  · cases h
  rename_i hs
  split_ifs at h with hr
  cases h
  rw [not_or, not_lt, not_lt] at hr
  exact ⟨hs, hr.1, hr.2, rfl, rfl⟩

theorem heldDigests_eq {fromSeq toSeq : ℤ} (hs : (digests.map (·.1)).Pairwise (· < ·))
    (hi : ∀ d ∈ digests, fromSeq ≤ d.1 ∧ d.1 ≤ toSeq) :
    heldDigests digests fromSeq toSeq = digests := by
  unfold heldDigests
  rw [List.filter_eq_self.mpr (fun d hd => decide_eq_true (hi d hd))]
  exact ((List.pairwise_map.mp hs).imp Nat.le_of_lt).insertionSort_eq

end IngestKeys

namespace Tables

variable {t t' : Tables} {e : LedgerSetting} {k : IngestKeys} {l : EvidenceDeliveryLedger}

/-! ### Sealed rows -/

/-- The columns a seal by one of the ledgers wrote. -/
def SealedAs (ls : EvidenceDeliveryLedger.Ledgers) (c : SealedColumns) : Prop :=
  ∃ w row localSeq sealedAtMs wire,
    c = ((ls.ledger w).sealedRow row localSeq sealedAtMs wire).toSealedColumns ∧
    ∃ envelope, (ls.ledger w).buildEnvelope row localSeq sealedAtMs = .ok envelope ∧
      Json.canonicalJson envelope = .ok wire

structure WholeRows (ls : EvidenceDeliveryLedger.Ledgers) (t : Tables) : Prop where
  sequenced : EvidenceDeliveryLedger.Sequenced ls (t.rows.map (·.toSealedColumns))
  sealed : ∀ c ∈ t.rows.map (·.toSealedColumns), SealedAs ls c

theorem Updated.cols {localSeq : ℕ} {f : Delivery → Delivery} (h : Updated t localSeq f t') :
    t'.rows.map (·.toSealedColumns) = t.rows.map (·.toSealedColumns) := by
  rw [h.eq, List.map_map]
  refine List.map_congr_left ?_
  intro r hr
  dsimp only [Function.comp_apply]
  split_ifs <;> rfl

variable {ls : EvidenceDeliveryLedger.Ledgers}

theorem WholeRows.of_cols (h : WholeRows ls t)
    (hcols : t'.rows.map (·.toSealedColumns) = t.rows.map (·.toSealedColumns)) : WholeRows ls t' :=
  ⟨hcols ▸ h.sequenced, hcols ▸ h.sealed⟩

theorem wholeRows_invariant (e : LedgerSetting) : RowInvariant e (WholeRows e.ledgers) where
  of_eq h hr := h.of_cols (by rw [hr])
  update h hu _ := h.of_cols (updateDelivery_updated hu).cols
  seals := by
    intro t t' w row sealedAtMs h hs
    obtain rfl | ⟨-, rows, raced, hseal, rfl⟩ := sealChainRow_cases hs
    · exact h
    refine ⟨?_, ?_⟩
    · exact (EvidenceDeliveryLedger.sealInTransaction_writes h.sequenced hseal).sequenced h.sequenced
    obtain rfl | ⟨wire, localSeq, rfl, -, hb⟩ := sealInTransaction_cases hseal
    · exact h.sealed
    intro c hc
    rw [List.map_append, List.mem_append] at hc
    obtain hc | hc := hc
    · exact h.sealed c hc
    · exact ⟨w, row, localSeq, sealedAtMs, wire, List.mem_singleton.mp hc, hb⟩

theorem wholeRows_empty : WholeRows ls {} :=
  ⟨⟨rfl, List.nodup_nil, fun _ hc => absurd hc List.not_mem_nil⟩,
    fun _ hc => absurd hc List.not_mem_nil⟩

theorem sealedDigests_of_sealedAs {c : SealedColumns}
    (hh : ∀ b, isSha256 (text "sha256:" ++ ls.sha256 b) = true) (h : SealedAs ls c) (w : ℕ) :
    isSha256 c.chainRowDigest = true ∧ sealedDigests (ls.ledger w) c = true := by
  obtain ⟨w', row, localSeq, sealedAtMs, wire, rfl, envelope, hb, hwire⟩ := h
  obtain ⟨signature, rfl⟩ := EvidenceDeliveryLedger.buildEnvelope_ok hb
  have hn := EvidenceDeliveryLedger.signed_nodup (l := ls.ledger w') row localSeq sealedAtMs
    signature
  have hl := Json.loads_canonicalJson Json.dictOf_keeps
    (EvidenceDeliveryLedger.signed_distinct row localSeq sealedAtMs signature) hwire
  obtain ⟨items, hi⟩ : ∃ items, (Json.obj ((ls.ledger w').envelopeBody row localSeq sealedAtMs ++
      [("signature", .str signature)])).sorted = .dict items := ⟨_, rfl⟩
  have hr : ∀ field, (Json.dict items).get? field = _ := fun field =>
    hi ▸ (Json.get?_sorted_obj hn field).trans (congrArg _ (Json.get?_obj _ field))
  have hc : isSha256 ((ls.ledger w').chainRowDigest row) = true := by
    unfold EvidenceDeliveryLedger.chainRowDigest
    rw [ls.hash]
    exact hh _
  refine ⟨hc, ?_⟩
  rw [hi] at hl
  unfold sealedDigests
  simp only [EvidenceDeliveryLedger.sealedRow, ls.hash, hh, hl, hr, decide_true,
    Bool.true_and, Bool.and_eq_true]
  refine ⟨⟨⟨?_, ?_⟩, ?_⟩, ?_⟩
  · exact (EvidenceDeliveryLedger.pyEq_str_iff _ _).mpr rfl
  · exact (EvidenceDeliveryLedger.pyEq_str_iff _ _).mpr rfl
  · exact (EvidenceDeliveryLedger.pyEq_str_iff _ _).mpr rfl
  · exact (EvidenceDeliveryLedger.pyEq_int_iff _ _).mpr rfl

/-! ### The range -/

/-- A closed interval of sealed numbers, not empty. -/
def SealedRange (t : Tables) (fromSeq toSeq : ℤ) : Prop :=
  fromSeq ≤ toSeq ∧ ∀ n, fromSeq ≤ n → n ≤ toSeq → ∃ r, t.findSeq n = some r

def rowsBetween (t : Tables) (fromSeq toSeq : ℤ) : List LedgerRow :=
  t.rows.filter (fun r => decide (fromSeq ≤ r.localSeq ∧ r.localSeq ≤ toSeq))

variable {fromSeq toSeq : ℤ}

theorem WholeRows.seqs (h : WholeRows ls t) :
    t.rows.map (·.localSeq) = List.range' 1 t.rows.length := by
  have hseqs := h.sequenced.seqs
  rw [List.map_map, List.length_map] at hseqs
  exact hseqs

theorem WholeRows.mem_range (h : WholeRows ls t) {r : LedgerRow} (hr : r ∈ t.rows) :
    1 ≤ r.localSeq ∧ r.localSeq ≤ t.rows.length := by
  have hs : r.localSeq ∈ t.rows.map (·.localSeq) := List.mem_map_of_mem hr
  rw [h.seqs, List.mem_range'_1] at hs
  omega

theorem WholeRows.rowsBetween (h : WholeRows ls t) (ha : SealedRange t fromSeq toSeq) :
    1 ≤ fromSeq ∧ (t.rowsBetween fromSeq toSeq).map (·.localSeq) =
        List.range' fromSeq.toNat (toSeq - fromSeq + 1).toNat := by
  have hs : ∀ n : ℤ, fromSeq ≤ n → n ≤ toSeq → 1 ≤ n ∧ n ≤ t.rows.length := by
    intro n hfrom ht
    obtain ⟨r, hr⟩ := ha.2 n hfrom ht
    obtain ⟨hm, rfl⟩ := mem_of_findSeq hr
    have hs := h.mem_range hm
    omega
  have hf := hs fromSeq le_rfl ha.1
  have hi : (t.rowsBetween fromSeq toSeq).map (·.localSeq) =
      (t.rows.map (·.localSeq)).filter (fun n : ℕ => decide (fromSeq ≤ n ∧ n ≤ toSeq)) := by
    rw [List.filter_map]
    rfl
  refine ⟨hf.1, ?_⟩
  rw [hi, h.seqs]
  have hsr : ∀ n m, (List.range' n m).Pairwise (· < ·) := fun _ _ => List.pairwise_lt_range'
  refine ((hsr _ _).filter _).eq_of_mem_iff (hsr _ _) ?_
  intro n
  rw [List.mem_filter, decide_eq_true_eq, List.mem_range'_1, List.mem_range'_1]
  constructor
  · rintro ⟨-, hfrom, ht⟩
    omega
  · intro hn
    have he := hs n (by omega) (by omega)
    omega

theorem chainRowDigests_whole (h : WholeRows ls t)
    (hh : ∀ b, isSha256 (text "sha256:" ++ ls.sha256 b) = true) (w : ℕ) (fromSeq toSeq : ℤ) :
    chainRowDigests (ls.ledger w) t fromSeq toSeq =
      .ok ((t.rowsBetween fromSeq toSeq).map (fun r => (r.localSeq, r.chainRowDigest))) := by
  have hg : gapless t.rows = true := by
    refine decide_eq_true ⟨?_, ?_⟩
    · rw [h.seqs, EvidenceDeliveryLedger.foldl_max_range']
    · exact fun r hr => (h.mem_range hr).1
  have hi : (t.rowsBetween fromSeq toSeq).any (fun r =>
      isSha256 r.chainRowDigest && !sealedDigests (ls.ledger w) r.toSealedColumns) = false := by
    rw [List.any_eq_false]
    intro r hr
    have hs := h.sealed _ (List.mem_map_of_mem (List.mem_of_mem_filter hr))
    rw [(sealedDigests_of_sealedAs hh hs w).2]
    simp
  unfold rowsBetween at hi
  unfold chainRowDigests
  simp only [hg, hi, Bool.true_eq_false, Bool.false_eq_true, if_false]
  rfl

theorem intField_of_shape {artifact : Json} {shape : List (String × FieldType)}
    (h : artifact.requireShape shape = .ok ()) (name : String) (hf : (name, .int) ∈ shape) :
    intField artifact name = some (artifact.intMember name) := by
  obtain ⟨v, hg, ht⟩ := Json.requireShape_member h hf
  unfold intField Json.intMember
  rw [hg]
  cases v with
  | int n => exact if_pos (of_decide_eq_true ht)
  | _ => cases ht

theorem provenReceipt_iff (hs : SoundRows t) (h : WholeRows e.ledgers t)
    (hh : ∀ b, isSha256 (text "sha256:" ++ e.ledgers.sha256 b) = true) (w : ℕ) (artifact : Json)
    (v : VerifiedReceipt) :
    provenReceipt k (e.ledgers.ledger w) t artifact = .ok v ↔
      k.Authentic artifact (e.ledgers.ledger w).deviceId ∧
        SealedRange t (artifact.intMember "from_seq") (artifact.intMember "to_seq") ∧
        artifact.strMember "range_digest" = sealedRangeDigest k t artifact ∧
        v = { sequences := List.range' (artifact.intMember "from_seq").toNat
                (artifact.intMember "to_seq" - artifact.intMember "from_seq" + 1).toNat
              acceptedAtMs := artifact.intMember "accepted_at_ms"
              keyId := artifact.strMember "key_id" } := by
  constructor
  · intro hp
    have hi := provenReceipt_rangeDigest hs hp
    obtain ⟨digests, hm, hv⟩ := provenReceipt_digests hp
    obtain ⟨ha, -, hle, ht, hk⟩ := IngestKeys.verifyReceipt_range hv
    obtain ⟨-, -, hseqs, held, hhd, hu, -⟩ := IngestKeys.verifyReceipt_facts hv
    refine ⟨ha, ⟨hle, fun n hfrom hto => ?_⟩, hi, ?_⟩
    · have hn : n.toNat ∈ held.map Prod.fst := by
        rw [hhd, hseqs, List.mem_range'_1]
        omega
      obtain ⟨d, hd, he⟩ := List.mem_map.mp hn
      obtain ⟨r, hr, ho, -⟩ := hm d (hu d hd)
      have hra := h.mem_range hr
      refine ⟨r, ?_⟩
      have hfd := (findSeq_eq_some_iff hs).mpr ⟨hr, ho⟩
      rwa [he, Int.toNat_of_nonneg (by omega)] at hfd
    · cases v
      cases hseqs
      cases ht
      cases hk
      rfl
  · rintro ⟨ha, hra, hi, rfl⟩
    obtain ⟨hfi, hseqs⟩ := h.rowsBetween hra
    have hsh := (IngestKeys.verifySigned_facts ha).1
    set digests := (t.rowsBetween (artifact.intMember "from_seq") (artifact.intMember "to_seq")).map
      (fun r => (r.localSeq, r.chainRowDigest)) with hdige
    have hf : digests.map (·.1) = _ := (List.map_map).trans hseqs
    have hm : ∀ d ∈ digests, ∃ r ∈ t.rows, r.localSeq = d.1 ∧ r.chainRowDigest = d.2 ∧
        artifact.intMember "from_seq" ≤ d.1 ∧ d.1 ≤ artifact.intMember "to_seq" := by
      intro d hd
      obtain ⟨r, hr, rfl⟩ := List.mem_map.mp hd
      obtain ⟨hr, hin⟩ := List.mem_filter.mp hr
      exact ⟨r, hr, rfl, rfl, of_decide_eq_true hin⟩
    have hhd : IngestKeys.heldDigests digests (artifact.intMember "from_seq")
        (artifact.intMember "to_seq") = digests := by
      refine IngestKeys.heldDigests_eq ?_ (fun d hd => ?_)
      · rw [hf]
        exact List.pairwise_lt_range'
      · obtain ⟨r, -, -, -, hin⟩ := hm d hd
        exact hin
    have hl : digests.length =
        (artifact.intMember "to_seq" - artifact.intMember "from_seq" + 1).toNat := by
      rw [← List.length_map (f := (·.1)), hf, List.length_range']
    have hrangeDigest : artifact.strMember "range_digest" =
        text "sha256:" ++ k.rangeHash (digests.map (·.2)) := by
      rw [hi, sealedRangeDigest, ← hf, List.map_map]
      congr 2
      refine List.map_congr_left fun d hd => ?_
      obtain ⟨r, hr, he, ho, -⟩ := hm d hd
      simp only [Function.comp_apply, (findSeq_eq_some_iff hs).mpr ⟨hr, he⟩, Option.map_some,
        Option.getD_some, ho]
    have hv := IngestKeys.verifyReceipt_eq_ok ha rfl rfl ⟨hfi, hra.1⟩
      (by rw [hhd, hl]; have := hra.1; omega)
      (by rw [hhd, hf, hl]) (by
        rw [hhd, List.all_eq_true]
        intro d hd
        obtain ⟨r, hr, -, ho, -⟩ := hm d hd
        rw [← ho]
        exact (sealedDigests_of_sealedAs hh (h.sealed _ (List.mem_map_of_mem hr)) w).1)
      (by rw [hhd]; exact hrangeDigest)
    unfold provenReceipt
    simp only [intField_of_shape hsh "from_seq" (by decide),
      intField_of_shape hsh "to_seq" (by decide), hra.1, if_true,
      chainRowDigests_whole h hh]
    rw [← hdige, hv, hhd, hf]

/-! ### The rows a receipt marks -/

/-- The rows of `ns` that have no receipt yet, each given this one. -/
def markRow (ns : List ℕ) (atMs : ℤ) (keyId : Text) (r : LedgerRow) : LedgerRow :=
  if r.localSeq ∈ ns ∧ r.delivery.receiptState ≠ .accepted then
    { r with delivery := receipted atMs keyId r.delivery }
  else r

theorem markRow_sequences (ns : List ℕ) :
    markRow (ns.dedup.insertionSort (· ≤ ·)) = markRow ns := by
  funext atMs keyId r
  simp only [markRow, mem_sequences]

theorem applyReceipts_rows (hs : SoundRows t) {atMs : ℤ} {keyId : Text} {ns applied : List ℕ}
    (h : applyReceipts atMs keyId t ns = .ok (t', applied)) :
    t' = { t with rows := t.rows.map (markRow ns atMs keyId) } := by
  induction ns generalizing t applied with
  | nil =>
    cases h
    have hsm : markRow [] atMs keyId = id := funext fun r => if_neg (fun hr => nomatch hr.1)
    rw [hsm, List.map_id]
  | cons n ns ih =>
    obtain ⟨held, hf, -, ⟨ha, hrs⟩ | ⟨u, rest, ho, hu, hrs⟩⟩ := applyReceipts_cons h
    · rw [ih hs hrs]
      congr 1
      refine List.map_congr_left fun r hr => ?_
      unfold markRow
      refine if_congr ⟨fun hm => ⟨List.mem_cons_of_mem _ hm.1, hm.2⟩, fun hm => ⟨?_, hm.2⟩⟩ rfl rfl
      rcases List.mem_cons.mp hm.1 with hn | hn
      · have hsm := (findSeq_eq_some_iff hs).mpr ⟨hr, hn⟩
        cases hf.symm.trans hsm
        exact absurd ha hm.2
      · exact hn
    · obtain ⟨hme, rfl⟩ := (findSeq_eq_some_iff hs).mp hf
      rw [ih (hs.update hu (fun d hd => hd)) hrs, (updateDelivery_updated hu).eq, List.map_map]
      congr 1
      refine List.map_congr_left fun r hr => ?_
      rw [Function.comp_apply]
      by_cases he : r.localSeq = held.localSeq
      · obtain rfl := List.inj_on_of_nodup_map hs.distinct hr hme he
        rw [if_pos rfl, markRow, if_neg (fun hm => hm.2 rfl), markRow,
          if_pos ⟨List.mem_cons_self, ho⟩]
        rfl
      · rw [if_neg he, markRow, markRow]
        simp only [List.mem_cons, he, false_or]

end Tables

namespace LedgerState

variable {e : LedgerSetting} {s : LedgerState}

open Tables

/-- In every state the ledger reaches a receipt is proven exactly when it is authentic, names a
closed interval of numbers sealed here, not empty, and gives the digest of those rows in order.
Applied, it marks the rows of that interval that had no receipt and changes nothing else; where it
is not applied nothing changes, and that is only where a row of the interval is damaged. -/
theorem receipt_exact (hhex : ∀ b, isSha256 (text "sha256:" ++ e.ledgers.sha256 b) = true)
    (h : Reaches (step e) {} s) (w : ℕ) (artifact : Json) :
    (∀ v, provenReceipt e.keys (e.ledgers.ledger w) s.tables artifact = .ok v ↔
      e.keys.Authentic artifact (e.ledgers.ledger w).deviceId ∧
        SealedRange s.tables (artifact.intMember "from_seq") (artifact.intMember "to_seq") ∧
        artifact.strMember "range_digest" = sealedRangeDigest e.keys s.tables artifact ∧
        v = { sequences := List.range' (artifact.intMember "from_seq").toNat
                (artifact.intMember "to_seq" - artifact.intMember "from_seq" + 1).toNat
              acceptedAtMs := artifact.intMember "accepted_at_ms"
              keyId := artifact.strMember "key_id" }) ∧
    ((∃ fault, apply e s w (.receipt artifact) = (s, some fault)) ∨
      ∃ v, provenReceipt e.keys (e.ledgers.ledger w) s.tables artifact = .ok v ∧
        apply e s w (.receipt artifact) = ({ s with tables := { s.tables with
          rows := s.tables.rows.map (markRow v.sequences v.acceptedAtMs v.keyId) } }, none)) ∧
    ∀ v, provenReceipt e.keys (e.ledgers.ledger w) s.tables artifact = .ok v →
      ((apply e s w (.receipt artifact)).2 = none ↔ ∀ n ∈ v.sequences, Intact s.tables n) := by
  have hs := sound_of_reaches h
  have hwhole : WholeRows e.ledgers s.tables := RowInvariant.of_reaches
    (P := WholeRows e.ledgers) (wholeRows_invariant e) wholeRows_empty h
  refine ⟨fun v => provenReceipt_iff hs hwhole hhex w artifact v, ?_, ?_⟩
  · rw [apply_receipt]
    cases hproven : provenReceipt e.keys (e.ledgers.ledger w) s.tables artifact with
    | error fault =>
      unfold acceptReceipt
      rw [hproven]
      exact .inl ⟨fault, rfl⟩
    | ok v =>
      obtain ⟨-, -, haccept⟩ := acceptReceipt_of_proven hproven
      rw [haccept]
      split
      · exact .inl ⟨_, rfl⟩
      rename_i r hok
      refine .inr ⟨v, rfl, ?_⟩
      rw [applyReceipts_rows hs hok, markRow_sequences]
  · intro v hproven
    obtain ⟨hat, hkey, haccept⟩ := acceptReceipt_of_proven hproven
    rw [apply_receipt, haccept]
    constructor
    · intro hnone n hn
      split at hnone
      · cases hnone
      · rename_i r hok
        exact intact_of_applyReceipts hs hat hkey hok n (mem_sequences.mpr hn)
    · intro hintact
      obtain ⟨t', applied, hok, -⟩ := applyReceipts_covers hs hat hkey
        (fun n hn => hintact n (mem_sequences.mp hn))
      rw [hok]

theorem checksum_hex (b : Text) : isSha256 (text "sha256:" ++ checksum b) = true := by
  have hd : ∀ c ∈ checksum b, isLowerHex c = true := by
    intro c hc
    obtain ⟨i, -, rfl⟩ := List.mem_map.mp hc
    dsimp only
    generalize hn : _ % 16 = digit
    have hl : digit < 16 := hn ▸ Nat.mod_lt _ (by decide)
    clear hn
    revert digit
    decide
  have hs : (text "sha256:").length = "sha256:".length := by decide
  unfold isSha256 hexForm
  rw [List.drop_left' hs, List.all_eq_true.mpr hd]
  simp [checksum, hs]

/-- An authority's key, with the toy signature of its receipts. -/
def authorityKey : AuthorityKey where
  keyId := text "sha256:" ++ checksum []
  purpose := "evidence_authority_receipt"
  verifies := true
  check := fun signature signed => decide (signature = text "ed25519:" ++ checksum signed)

def receiptSetting : LedgerSetting :=
  { benchSetting with
    keys := { benchSetting.keys with
      registry := [authorityKey]
      named := fun key hkey => by
        rw [List.mem_singleton.mp hkey]
        exact checksum_hex []
      decodes := fun _ => true } }

def benchReceipt : Json :=
  let digest := text "sha256:" ++ checksum (text "sha256:" ++ checksum benchRow.canonicalJson)
  let fields := [("v", .int 1), ("device_id", .str (text "device")), ("from_seq", .int 1),
    ("to_seq", .int 1), ("range_digest", .str digest), ("accepted_at_ms", .int 90),
    ("key_id", .str authorityKey.keyId)]
  let signed := match (Json.obj fields).canonicalJson with
    | .error _ => []
    | .ok body => text "ori.evidence_delivery_receipt.v1" ++ [0] ++ body
  Json.obj (fields ++ [("signature", .str (text "ed25519:" ++ checksum signed))])

theorem receipt_exact_bench : ∃ s, run (step receiptSetting) {} [(0, .sealChainRow benchRow 5)] =
    some s ∧ SealedRange s.tables 1 1 ∧
      (apply receiptSetting s 0 (.receipt benchReceipt)).1.tables.rows.map
        (fun r => (r.localSeq, r.delivery.receiptAtMs)) = [(1, some 90)] := by
  have hrun : (run (step receiptSetting) {} [(0, .sealChainRow benchRow 5)]).any (fun s =>
      (provenReceipt receiptSetting.keys (receiptSetting.ledgers.ledger 0) s.tables
        benchReceipt).toOption.isSome &&
      decide ((apply receiptSetting s 0 (.receipt benchReceipt)).1.tables.rows.map
        (fun r => (r.localSeq, r.delivery.receiptAtMs)) = [(1, some 90)])) = true := by
    unfold benchReceipt benchRow EvidenceDeliveryLedger.heartbeatRow
      EvidenceDeliveryLedger.heartbeatBytes text
    repeat rw [String.toList_ofList]
    decide +kernel
  obtain ⟨s, hs, hfacts⟩ := (Option.any_eq_true _ _).mp hrun
  obtain ⟨hsome, hrows⟩ := Bool.and_eq_true_iff.mp hfacts
  cases hproven : provenReceipt receiptSetting.keys (receiptSetting.ledgers.ledger 0) s.tables
      benchReceipt with
  | error fault =>
    rw [hproven] at hsome
    cases hsome
  | ok v =>
    have hexact := (receipt_exact (e := receiptSetting) checksum_hex ⟨_, hs⟩ 0 benchReceipt).1 v
    exact ⟨s, hs, (hexact.mp hproven).2.1, of_decide_eq_true hrows⟩

end LedgerState

end OriRuntime
