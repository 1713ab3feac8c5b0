import OriRuntime.ChainIntegrity
import OriRuntime.DeliveryLedger

/-!
# The sequence of the delivery ledger

The lock is held from the read of the highest number to the commit, so the working copy a writer
commits is the table with at most one envelope after it. A seal that is refused or raises before
its commit leaves no trace; one that raises after it leaves its envelope.
-/

namespace OriRuntime

open List Option

open Execution

namespace EvidenceDeliveryLedger

variable {l : EvidenceDeliveryLedger} {ls : Ledgers} {s s' : Store}

/-! ### What an envelope carries -/

theorem members_nodup (row : CarriedRow) : (row.members.map (·.1)).Nodup := by
  have hkeys : (["canonical_json", "created_at_ms", "device_id", "emitted_at_ms", "event_hash",
    "event_id", "event_type", "payload_json", "prev_event_hash", "seq", "signature"]).Nodup := by
    decide
  exact hkeys

theorem toJson_distinct (row : CarriedRow) : row.toJson.DistinctKeys := by
  refine Json.distinctKeys_obj (members_nodup row) ?_
  simp only [CarriedRow.members, forall_mem_cons, Json.DistinctKeys, not_mem_nil,
    false_imp_iff, implies_true, and_self]

variable {row : CarriedRow} {r : LedgerRow} {rows working : List LedgerRow} {w : ℕ}
  {raced : Option LedgerRow}

theorem buildEnvelope_ok {localSeq : ℕ} {sealedAtMs : ℤ} {envelope : Json}
    (h : l.buildEnvelope row localSeq sealedAtMs = .ok envelope) :
    ∃ signature, envelope = Json.obj (l.envelopeBody row localSeq sealedAtMs ++
      [("signature", .str signature)]) := by
  unfold buildEnvelope at h
  split at h
  · cases h
  · exact ⟨_, (Except.ok.inj h).symm⟩

theorem signed_nodup (row : CarriedRow) (localSeq : ℕ) (sealedAtMs : ℤ) (signature : Text) :
    ((l.envelopeBody row localSeq sealedAtMs ++
      [("signature", Json.str signature)]).map (·.1)).Nodup := by
  have hkeys : (["v", "device_id", "anchor_epoch_id", "key_id", "local_seq", "chain_row",
    "chain_row_digest", "sealed_at_ms", "signature"]).Nodup := by decide
  exact hkeys

theorem signed_distinct (row : CarriedRow) (localSeq : ℕ) (sealedAtMs : ℤ) (signature : Text) :
    (Json.obj (l.envelopeBody row localSeq sealedAtMs ++
      [("signature", .str signature)])).DistinctKeys := by
  refine Json.distinctKeys_obj (signed_nodup row localSeq sealedAtMs signature) ?_
  have hr := toJson_distinct row
  simp only [envelopeBody, cons_append, nil_append, forall_mem_cons,
    Json.DistinctKeys, hr, not_mem_nil, false_imp_iff, implies_true, and_self]

/-- The sealed columns of the row a seal of `row` inserted. -/
structure SealedOver (l : EvidenceDeliveryLedger) (r : SealedColumns) (row : CarriedRow) : Prop where
  wire : ∃ envelope, l.buildEnvelope row r.localSeq r.sealedAtMs = .ok envelope ∧
    Json.canonicalJson envelope = .ok r.envelopeJson
  digest : r.envelopeDigest = text "sha256:" ++ l.keys.sha256 r.envelopeJson
  eventId : r.eventId = row.eventId

theorem SealedOver.storedChainRow (h : SealedOver l r.toSealedColumns row) :
    storedChainRow r = some row.toJson.sorted := by
  obtain ⟨envelope, hb, hwire⟩ := h.wire
  obtain ⟨signature, rfl⟩ := buildEnvelope_ok hb
  have hd := signed_distinct (l := l) row r.localSeq r.sealedAtMs signature
  rw [EvidenceDeliveryLedger.storedChainRow, Json.loads_canonicalJson Json.dictOf_keeps hd
    hwire, bind_some]
  rw [Json.get?_sorted_obj (signed_nodup row _ _ signature), Json.get?_obj]
  rfl

theorem pyEq_str_iff (s t : Text) : (Json.str s).pyEq (.str t) = true ↔ s = t := by
  simp [Json.pyEq]

theorem pyEq_int_iff (m n : ℤ) : (Json.int m).pyEq (.int n) = true ↔ m = n := by
  simp [Json.pyEq, Json.number]

theorem differing_eq_nil_iff (stored row : CarriedRow) :
    differing stored.toJson.sorted row = [] ↔ stored = row := by
  have hr : ∀ key, stored.toJson.sorted.get? key = (stored.toJson.get? key).map Json.sorted :=
    fun key => Json.get?_sorted_obj (members_nodup stored) key
  have hc : ∀ column ∈ stored.columns, stored.toJson.get? column.1 = some column.2 := by
    intro column hm
    simp only [CarriedRow.columns, mem_cons, not_mem_nil, or_false] at hm
    obtain rfl | rfl | rfl | rfl | rfl | rfl | rfl | rfl | rfl | rfl | rfl := hm <;>
      exact Json.get?_obj _ _
  rw [differing, map_eq_nil_iff, filter_eq_nil_iff]
  simp only [CarriedRow.columns, forall_mem_cons, not_mem_nil, false_imp_iff,
    implies_true, and_true, hr]
  simp only [CarriedRow.columns, forall_mem_cons, not_mem_nil, false_imp_iff,
    implies_true, and_true] at hc
  obtain ⟨h₁, h₂, h₃, h₄, h₅, h₆, h₇, h₈, h₉, h₁₀, h₁₁⟩ := hc
  simp only [h₁, h₂, h₃, h₄, h₅, h₆, h₇, h₈, h₉, h₁₀, h₁₁, map_some, getD_some,
    Json.sorted, Bool.not_eq_true', Bool.not_eq_false, pyEq_str_iff, pyEq_int_iff]
  obtain ⟨seq, eventId, eventType, deviceId, emittedAtMs, payloadJson, canonicalJson, eventHash,
    prevEventHash, signature, createdAtMs⟩ := stored
  obtain ⟨seq', eventId', eventType', deviceId', emittedAtMs', payloadJson', canonicalJson',
    eventHash', prevEventHash', signature', createdAtMs'⟩ := row
  simp only [CarriedRow.mk.injEq]

theorem reconcileReseal_same (h : SealedOver l r.toSealedColumns row) :
    reconcileReseal r row = .ok r := by
  rw [reconcileReseal, h.storedChainRow]
  exact if_pos ((differing_eq_nil_iff row row).mpr rfl)

theorem reconcileReseal_other {row' : CarriedRow} (h : SealedOver l r.toSealedColumns row)
    (hn : row ≠ row') : ∃ e, reconcileReseal r row' = .error e := by
  rw [reconcileReseal, h.storedChainRow]
  exact ⟨_, if_neg (mt (differing_eq_nil_iff row row').mp hn)⟩

/-! ### The table -/

/-- The sealed columns are numbered from one without a gap, one row an event, each sealed by some
ledger over some chain row. -/
structure Sequenced (ls : Ledgers) (cols : List SealedColumns) : Prop where
  seqs : cols.map (·.localSeq) = List.range' 1 cols.length
  distinct : (cols.map (·.eventId)).Nodup
  sealed : ∀ c ∈ cols, ∃ w row, SealedOver (ls.ledger w) c row

abbrev Store.cols (s : Store) : List SealedColumns := s.rows.map (·.toSealedColumns)

theorem foldl_max_range' (n : ℕ) : (List.range' 1 n).foldl max 0 = n := by
  induction n with
  | zero => rfl
  | succ n ih =>
    rw [List.range'_1_concat, foldl_append, foldl_cons, foldl_nil]
    omega

theorem Sequenced.nextLocalSeq (h : Sequenced ls (rows.map (·.toSealedColumns))) :
    EvidenceDeliveryLedger.nextLocalSeq rows = rows.length + 1 := by
  have hseqs := h.seqs
  rw [List.map_map, List.length_map] at hseqs
  have hm : rows.map (·.localSeq) = List.range' 1 rows.length := hseqs
  rw [EvidenceDeliveryLedger.nextLocalSeq, hm, foldl_max_range']

theorem Sequenced.append {cols : List SealedColumns} (h : Sequenced ls cols) {c : SealedColumns}
    (he : c.localSeq = cols.length + 1) (hn : ∀ c' ∈ cols, c'.eventId ≠ c.eventId)
    (hs : SealedOver (ls.ledger w) c row) :
    Sequenced ls (cols ++ [c]) where
  seqs := by
    rw [map_append, h.seqs, map_singleton, length_append, length_singleton,
      List.range'_1_concat, he, Nat.add_comm 1]
  distinct := by
    rw [map_append, map_singleton, nodup_append]
    refine ⟨h.distinct, nodup_singleton _, ?_⟩
    intro a ha b hb
    obtain ⟨c', hc', rfl⟩ := mem_map.mp ha
    rw [mem_singleton] at hb
    rw [hb]
    exact hn c' hc'
  sealed := by
    intro c' hc'
    obtain hc' | hc' := mem_append.mp hc'
    · exact h.sealed c' hc'
    · rw [mem_singleton] at hc'
      exact ⟨w, row, hc' ▸ hs⟩

theorem find_eq_some {eventId : Text} (h : find rows eventId = some r) :
    r ∈ rows ∧ r.eventId = eventId :=
  ⟨mem_of_find?_eq_some h, by simpa using List.find?_some h⟩

theorem find_eq_none {eventId : Text} (h : find rows eventId = none) :
    ∀ r ∈ rows, r.eventId ≠ eventId := by
  intro r hr
  simpa using List.find?_eq_none.mp h r hr

theorem eq_of_eventId (h : Sequenced ls (rows.map (·.toSealedColumns))) {r' : LedgerRow}
    (hr : r ∈ rows) (hr' : r' ∈ rows) (heq : r.eventId = r'.eventId) : r = r' := by
  have hd := h.distinct
  rw [List.map_map] at hd
  exact List.inj_on_of_nodup_map hd hr hr' heq

theorem find_of_mem (h : Sequenced ls (rows.map (·.toSealedColumns))) (hr : r ∈ rows) :
    find rows r.eventId = some r := by
  cases hf : find rows r.eventId with
  | none => exact absurd rfl (find_eq_none hf r hr)
  | some r' =>
    obtain ⟨hr', heq⟩ := find_eq_some hf
    rw [eq_of_eventId h hr' hr heq]

/-- What a transaction's body does: nothing for a sealed event, or one envelope after the table. -/
inductive Writes (l : EvidenceDeliveryLedger) (rows : List LedgerRow) (row : CarriedRow) :
    Option LedgerRow → List LedgerRow → Prop where
  | raced (r : LedgerRow) (hmem : r ∈ rows) (hid : r.eventId = row.eventId) :
      Writes l rows row (some r) rows
  | sealed (r : LedgerRow) (hseq : r.localSeq = rows.length + 1)
      (hnew : ∀ r' ∈ rows, r'.eventId ≠ row.eventId)
      (hsealed : SealedOver l r.toSealedColumns row) : Writes l rows row none (rows ++ [r])

theorem sealInTransaction_writes {sealedAtMs : ℤ} (hr : Sequenced ls (rows.map (·.toSealedColumns)))
    (h : l.sealInTransaction rows row sealedAtMs = .ok (working, raced)) :
    Writes l rows row raced working := by
  unfold sealInTransaction at h
  split at h
  · rename_i r hf
    cases h
    obtain ⟨hm, hi⟩ := find_eq_some hf
    exact .raced r hm hi
  · rename_i hf
    simp only at h
    split at h
    · cases h
    rename_i envelope hb
    split at h
    · cases h
    rename_i wire hwire
    unfold insert at h
    split_ifs at h
    · cases h
    · cases h
      exact .sealed _ hr.nextLocalSeq (find_eq_none hf) ⟨⟨envelope, hb, hwire⟩, rfl, rfl⟩

theorem Writes.sequenced (hr : Sequenced ls (rows.map (·.toSealedColumns)))
    (h : Writes (ls.ledger w) rows row raced working) :
    Sequenced ls (working.map (·.toSealedColumns)) := by
  cases h with
  | raced r hm hi => exact hr
  | sealed r he hn hs =>
    rw [map_append]
    refine hr.append ?_ ?_ hs
    · rw [length_map]
      exact he
    · intro c hc
      obtain ⟨r', hr', rfl⟩ := mem_map.mp hc
      rw [hs.eventId]
      exact hn r' hr'

theorem Writes.prefix (h : Writes l rows row raced working) : rows ⊆ working := by
  cases h with
  | raced r hm hi => exact List.Subset.refl _
  | sealed r he hn hs => exact subset_append_left _ _

/-! ### Runs -/

/-- What the table holds of a call after its commit. -/
def Landed (l : EvidenceDeliveryLedger) (cols : List SealedColumns) (row : CarriedRow) :
    Option LedgerRow → Prop
  | some r => r.toSealedColumns ∈ cols ∧ r.eventId = row.eventId
  | none => ∃ c ∈ cols, SealedOver l c row

/-- Where a writer's call stands agrees with the lock and the table. -/
def Standing (ls : Ledgers) (s : Store) (w : ℕ) : Prop :=
  match s.calls.get? w with
  | some (.begun _ _) => s.lock = some w
  | some (.written row raced working) =>
    s.lock = some w ∧ Writes (ls.ledger w) s.rows row raced working
  | some (.committed row raced) => Landed (ls.ledger w) s.cols row raced
  | _ => True

structure Kept (ls : Ledgers) (s : Store) : Prop where
  sequenced : Sequenced ls s.cols
  standing : ∀ w, Standing ls s w

theorem Landed.mono {cols cols' : List SealedColumns} (h : Landed l cols row raced)
    (hs : cols ⊆ cols') : Landed l cols' row raced := by
  cases raced with
  | some r => exact ⟨hs h.1, h.2⟩
  | none =>
    obtain ⟨c, hc, he⟩ := h
    exact ⟨c, hs hc, he⟩

theorem Kept.move (h : Kept ls s) (ht : ∀ w', w' ≠ w → s'.calls.get? w' = s.calls.get? w')
    (he : Sequenced ls s'.cols) (hu : s.cols ⊆ s'.cols)
    (hl : ∀ w', w' ≠ w → s.lock = some w' → s'.lock = some w' ∧ s'.rows = s.rows)
    (ho : Standing ls s' w) : Kept ls s' where
  sequenced := he
  standing w' := by
    by_cases hw : w' = w
    · exact hw ▸ ho
    have hs := h.standing w'
    unfold Standing at hs ⊢
    rw [ht w' hw]
    split at hs
    · exact (hl w' hw hs).1
    · obtain ⟨hl', hr⟩ := hl w' hw hs.1
      exact ⟨hl', hr ▸ hs.2⟩
    · exact hs.mono hu
    · trivial

theorem unlock_of_ne {w' : ℕ} (hn : w' ≠ w) (h : s.lock = some w') : s.unlock w = some w' := by
  rw [Store.unlock, h, if_neg (fun heq => hn (some.inj heq))]

theorem Kept.respond (h : Kept ls s) (w : ℕ) (row : CarriedRow)
    (answer : Except DeliveryLedgerError LedgerRow) : Kept ls (s.respond w row answer) := by
  refine h.move (w := w) ?_ h.sequenced (List.Subset.refl _) ?_ ?_
  · intro w' hw
    exact Dict.get?_set_of_ne _ _ hw
  · intro w' hw hl
    exact ⟨unlock_of_ne hw hl, rfl⟩
  · unfold Standing
    rw [Store.respond, Dict.get?_set_self]
    trivial

theorem Kept.lookUp (h : Kept ls s) (w : ℕ) (row : CarriedRow) (sealedAtMs : ℤ) :
    Kept ls (lookUp ls s w row sealedAtMs) := by
  unfold EvidenceDeliveryLedger.lookUp
  split
  · exact h.respond w row _
  split
  · refine h.move (w := w) ?_ h.sequenced (List.Subset.refl _) ?_ ?_
    · intro w' hw
      exact Dict.get?_set_of_ne _ _ hw
    · intro w' _ hl
      exact ⟨hl, rfl⟩
    · unfold Standing
      rw [Dict.get?_set_self]
      trivial
  · exact h.respond w row _

theorem deliver_cols (rows : List LedgerRow) (localSeq : ℕ) (delivery : Delivery) :
    (deliver rows localSeq delivery).map (·.toSealedColumns) = rows.map (·.toSealedColumns) := by
  rw [deliver, List.map_map]
  apply List.map_congr_left
  intro row _
  simp only [Function.comp_apply]
  split_ifs <;> rfl

theorem kept_step {a : Label} (h : Kept ls s) (ht : step ls s a = some s') : Kept ls s' := by
  cases a with
  | call w row sealedAtMs =>
    simp only [step] at ht
    split at ht
    · cases ht
      exact h.lookUp w row sealedAtMs
    · cases ht
      exact h.lookUp w row sealedAtMs
    · cases ht
  | begin w =>
    simp only [step] at ht
    split at ht
    · split_ifs at ht with hf
      cases ht
      refine h.move (w := w) ?_ h.sequenced (List.Subset.refl _) ?_ ?_
      · intro w' hw
        exact Dict.get?_set_of_ne _ _ hw
      · intro w' _ hk
        rw [hf] at hk
        cases hk
      · unfold Standing
        rw [Dict.get?_set_self]
    · cases ht
  | write w =>
    simp only [step] at ht
    split at ht
    · rename_i row sealedAtMs hw
      split at ht
      · cases ht
        exact h.respond w row _
      · rename_i working raced hseal
        cases ht
        have hl := h.standing w
        unfold Standing at hl
        rw [hw] at hl
        refine h.move (w := w) ?_ h.sequenced (List.Subset.refl _) ?_ ?_
        · intro w' hw
          exact Dict.get?_set_of_ne _ _ hw
        · intro w' _ hk
          exact ⟨hk, rfl⟩
        · unfold Standing
          rw [Dict.get?_set_self]
          exact ⟨hl, sealInTransaction_writes h.sequenced hseal⟩
    · cases ht
  | commit w =>
    simp only [step] at ht
    split at ht
    · rename_i row raced working hw
      cases ht
      have hr := h.standing w
      unfold Standing at hr
      rw [hw] at hr
      obtain ⟨hl, hr⟩ := hr
      refine h.move (w := w) ?_ (hr.sequenced h.sequenced) (map_subset _ hr.prefix) ?_ ?_
      · intro w' hw
        exact Dict.get?_set_of_ne _ _ hw
      · intro w' hne hk
        exact absurd (mem_unique hk hl) hne
      · unfold Standing
        rw [Dict.get?_set_self]
        cases hr with
        | raced r hm hi => exact ⟨mem_map_of_mem hm, hi⟩
        | sealed r hq hn he =>
          exact ⟨_, mem_map_of_mem (mem_append_right _ (mem_singleton_self r)), he⟩
    · cases ht
  | answer w =>
    simp only [step] at ht
    split at ht
    · cases ht
      exact h.respond w _ _
    · cases ht
      exact h.respond w _ _
    · cases ht
  | raise w =>
    simp only [step] at ht
    split at ht
    · cases ht
      exact h.respond w _ _
    · cases ht
      exact h.respond w _ _
    · cases ht
      exact h.respond w _ _
    · cases ht
      exact h.respond w _ _
    · cases ht
  | crash w =>
    cases ht
    refine h.move (w := w) ?_ h.sequenced (List.Subset.refl _) ?_ ?_
    · intro w' hw
      exact Dict.get?_pop_of_ne _ hw
    · intro w' hw hk
      exact ⟨unlock_of_ne hw hk, rfl⟩
    · unfold Standing
      rw [Dict.get?_pop_self]
      trivial
  | deliver localSeq delivery =>
    simp only [step] at ht
    split_ifs at ht with hf
    cases ht
    have hcols := deliver_cols s.rows localSeq delivery
    refine ⟨?_, fun w => ?_⟩
    · rw [Store.cols, hcols]
      exact h.sequenced
    · have hs := h.standing w
      unfold Standing at hs ⊢
      dsimp only
      split at hs
      · exact hs
      · rw [hf] at hs
        cases hs.1
      · rw [Store.cols, hcols]
        exact hs
      · trivial

theorem kept_empty : Kept ls {} where
  sequenced := ⟨rfl, nodup_nil, nofun⟩
  standing _ := trivial

theorem kept_of_reaches (h : Reaches (step ls) {} s) : Kept ls s :=
  Reaches.invariant (fun _ _ _ hk hs => kept_step hk hs) kept_empty h

/-! ### The sequence -/

/-- A row was sealed over the chain row by one of the ledgers. -/
def SealedBy (ls : Ledgers) (c : SealedColumns) (row : CarriedRow) : Prop :=
  ∃ w, SealedOver (ls.ledger w) c row

/-- The writer has no call in progress. -/
def Store.Idle (s : Store) (w : ℕ) : Prop :=
  s.calls.get? w = none ∨ ∃ row answer, s.calls.get? w = some (.returned row answer)

/-- A reseal is answered with the stored envelope over the row it was sealed over, and refused over
any other. -/
def Reseals (answer : Except DeliveryLedgerError LedgerRow) (existing : LedgerRow)
    (accepted : Prop) : Prop :=
  (accepted → answer = .ok existing) ∧ (¬ accepted → ∃ e, answer = .error e)

theorem reconcileReseal_reseals (h : ∃ w row, SealedOver (ls.ledger w) r.toSealedColumns row)
    (row : CarriedRow) : Reseals (reconcileReseal r row) r (SealedBy ls r.toSealedColumns row) := by
  obtain ⟨w, row₀, hw⟩ := h
  constructor
  · rintro ⟨w', hw'⟩
    exact reconcileReseal_same hw'
  · intro ho
    refine reconcileReseal_other hw ?_
    rintro rfl
    exact ho ⟨w, hw⟩

theorem step_call_of_idle (h : s.Idle w) (row : CarriedRow) (sealedAtMs : ℤ) :
    step ls s (.call w row sealedAtMs) = some (lookUp ls s w row sealedAtMs) := by
  obtain hn | ⟨row', answer, hr⟩ := h
  · simp only [step, hn]
  · simp only [step, hr]

theorem lookUp_sealed (h : Kept ls s) (w : ℕ) (row : CarriedRow) (sealedAtMs : ℤ)
    {existing : LedgerRow} (hm : existing ∈ s.rows) (hi : existing.eventId = row.eventId) :
    ∃ answer, lookUp ls s w row sealedAtMs = s.respond w row answer ∧
      Reseals answer existing ((ls.ledger w).checkRow row = .ok () ∧
        SealedBy ls existing.toSealedColumns row) := by
  have hf : find s.rows row.eventId = some existing := hi ▸ find_of_mem h.sequenced hm
  have hr := reconcileReseal_reseals (h.sequenced.sealed _ (mem_map_of_mem hm)) row
  unfold EvidenceDeliveryLedger.lookUp
  cases hc : (ls.ledger w).checkRow row with
  | error e => exact ⟨_, rfl, by simp, fun _ => ⟨e, rfl⟩⟩
  | ok u =>
    refine ⟨reconcileReseal existing row, ?_, ?_, ?_⟩
    · simp only [hf]
    · exact fun ha => hr.1 ha.2
    · exact fun he => hr.2 (fun hb => he ⟨rfl, hb⟩)

theorem step_rows (h : Kept ls s) {a : Label} (ht : step ls s a = some s') :
    s'.rows = s.rows ∨ (∃ n d, a = .deliver n d ∧ s'.cols = s.cols) ∨
      ∃ w row r, a = .commit w ∧ s.calls.get? w = some (.written row none s'.rows) ∧
        s'.rows = s.rows ++ [r] ∧ SealedOver (ls.ledger w) r.toSealedColumns row := by
  cases a with
  | call w row sealedAtMs =>
    left
    have hlookUp : (lookUp ls s w row sealedAtMs).rows = s.rows := by
      unfold EvidenceDeliveryLedger.lookUp
      split
      · rfl
      · split <;> rfl
    simp only [step] at ht
    split at ht
    · cases ht
      exact hlookUp
    · cases ht
      exact hlookUp
    · cases ht
  | begin w =>
    left
    simp only [step] at ht
    split at ht
    · split_ifs at ht
      cases ht
      rfl
    · cases ht
  | write w =>
    left
    simp only [step] at ht
    split at ht
    · split at ht
      all_goals
        cases ht
        rfl
    · cases ht
  | commit w =>
    simp only [step] at ht
    split at ht
    · rename_i row raced working hw
      cases ht
      have hr := h.standing w
      unfold Standing at hr
      rw [hw] at hr
      cases hr.2 with
      | raced r hm hi => exact .inl rfl
      | sealed r he hn hs => exact .inr (.inr ⟨w, row, r, rfl, hw, rfl, hs⟩)
    · cases ht
  | answer w =>
    left
    simp only [step] at ht
    split at ht
    · cases ht
      rfl
    · cases ht
      rfl
    · cases ht
  | raise w =>
    left
    simp only [step] at ht
    split at ht
    · cases ht
      rfl
    · cases ht
      rfl
    · cases ht
      rfl
    · cases ht
      rfl
    · cases ht
  | crash w =>
    cases ht
    exact .inl rfl
  | deliver localSeq delivery =>
    right
    left
    simp only [step] at ht
    split_ifs at ht
    cases ht
    exact ⟨localSeq, delivery, rfl, deliver_cols s.rows localSeq delivery⟩

theorem answer_raced (h : Kept ls s) {raced : LedgerRow}
    (hw : s.calls.get? w = some (.committed row (some raced))) :
    raced.toSealedColumns ∈ s.cols ∧ raced.eventId = row.eventId ∧
      ∃ answer, step ls s (.answer w) = some (s.respond w row answer) ∧
        Reseals answer raced (SealedBy ls raced.toSealedColumns row) := by
  have hl := h.standing w
  unfold Standing at hl
  rw [hw] at hl
  refine ⟨hl.1, hl.2, reconcileReseal raced row, ?_, ?_⟩
  · simp only [step, hw]
  · exact reconcileReseal_reseals (h.sequenced.sealed _ hl.1) row

/-- Whatever seals run, and however their statements interleave, raise or stop: the envelopes are
numbered from one without a gap, no event has two, and each digest is of its stored bytes. Sealing
a sealed event returns its envelope over the row it was sealed over and is refused over any other,
and changes nothing, also when another writer's seal came between its look up and its lock. The
only statement that stores an envelope is the commit of the call it is for, so a call that raises
before its commit has changed nothing. -/
theorem ledger_sequence (h : Reaches (step ls) {} s) :
    s.rows.map (·.localSeq) = List.range' 1 s.rows.length ∧
    (s.rows.map (·.eventId)).Nodup ∧
    (∀ r ∈ s.rows, r.envelopeDigest = text "sha256:" ++ ls.sha256 r.envelopeJson) ∧
    (∀ (w : ℕ) (row : CarriedRow) (sealedAtMs : ℤ), s.Idle w → ∀ existing ∈ s.rows,
      existing.eventId = row.eventId → ∃ answer,
        step ls s (.call w row sealedAtMs) = some (s.respond w row answer) ∧
        Reseals answer existing ((ls.ledger w).checkRow row = .ok () ∧
          SealedBy ls existing.toSealedColumns row)) ∧
    (∀ (w : ℕ) (row : CarriedRow) (raced : LedgerRow),
      s.calls.get? w = some (.committed row (some raced)) →
      raced.toSealedColumns ∈ s.cols ∧ raced.eventId = row.eventId ∧
        ∃ answer, step ls s (.answer w) = some (s.respond w row answer) ∧
          Reseals answer raced (SealedBy ls raced.toSealedColumns row)) ∧
    ∀ (a : Label) (s' : Store), step ls s a = some s' →
      s'.rows = s.rows ∨ (∃ n d, a = .deliver n d ∧ s'.cols = s.cols) ∨
        ∃ w row r, a = .commit w ∧ s.calls.get? w = some (.written row none s'.rows) ∧
          s'.rows = s.rows ++ [r] ∧ SealedOver (ls.ledger w) r.toSealedColumns row := by
  have hkept := kept_of_reaches h
  have hseqs := hkept.sequenced.seqs
  have hdistinct := hkept.sequenced.distinct
  rw [List.map_map] at hseqs hdistinct
  rw [List.length_map] at hseqs
  refine ⟨hseqs, hdistinct, ?_, ?_, fun w row raced hw => answer_raced hkept hw,
    fun a s' hstep => step_rows hkept hstep⟩
  · intro r hr
    obtain ⟨w, row, hsealed⟩ := hkept.sequenced.sealed _ (List.mem_map_of_mem hr)
    rw [← ls.hash w]
    exact hsealed.digest
  · intro w row sealedAtMs hidle existing hmem hid
    rw [step_call_of_idle hidle]
    obtain ⟨answer, hanswer, hreseals⟩ := lookUp_sealed hkept w row sealedAtMs hmem hid
    exact ⟨answer, congrArg some hanswer, hreseals⟩

theorem named_bench : text "device" ≠ [] ∧ text "epoch" ≠ [] ∧ text "key" ≠ [] := by decide

/-- Two writers of one device. -/
def benchLedgers : Ledgers where
  ledger := fun _ =>
    { keys := EvidenceChain.benchChain.keys, deviceId := text "device", anchorEpochId := text "epoch"
      keyId := text "key", named := named_bench }
  sha256 := EvidenceChain.benchChain.keys.sha256
  hash := fun _ => rfl

def heartbeatBytes : Text :=
  text "\x7b\"device_id\":\"device\",\"emitted_at_ms\":1000,\"event_id\":\"event-1\"," ++
  text "\"event_type\":\"UPTIME_HEARTBEAT\",\"payload\":\x7b\"up\":true\x7d," ++
  text "\"prev_event_hash\":\"genesis\",\"schema_version\":\"ori.evidence.v2\"," ++
  text "\"sequence_num\":1\x7d"

def heartbeatRow : CarriedRow where
  seq := 1
  eventId := text "event-1"
  eventType := text "UPTIME_HEARTBEAT"
  deviceId := text "device"
  emittedAtMs := 1000
  payloadJson := text "\x7b\"up\":true\x7d"
  canonicalJson := heartbeatBytes
  eventHash := text "sha256:" ++ heartbeatBytes
  prevEventHash := text "genesis"
  signature := text "ed25519:" ++ heartbeatBytes
  createdAtMs := 1001

def refused (s : Store) (w : ℕ) : Bool :=
  match s.calls.get? w with
  | some (.returned _ (.error _)) => true
  | _ => false

/-- Both writers look the event up before either has the lock. -/
theorem ledger_sequence_raced :
    ∃ s, run (step benchLedgers) {} [.call 0 heartbeatRow 5, .call 1 heartbeatRow 6, .begin 0,
        .write 0, .commit 0, .begin 1, .write 1, .commit 1, .answer 1, .answer 0] = some s ∧
      s.rows.length = 1 ∧ s.rows.map (·.localSeq) = List.range' 1 s.rows.length := by
  obtain ⟨s, hs, hlength⟩ : ∃ s, run (step benchLedgers) {} [.call 0 heartbeatRow 5, .call 1
    heartbeatRow 6, .begin 0, .write 0, .commit 0, .begin 1, .write 1, .commit 1, .answer 1, .answer
    0] = some s ∧ s.rows.length = 1 := by
    refine exists_of_check ?_
    unfold heartbeatRow heartbeatBytes text
    repeat rw [String.toList_ofList]
    decide +kernel
  exact ⟨s, hs, hlength, (ledger_sequence ⟨_, hs⟩).1⟩

/-- A seal that raises at its read back has stored its envelope, and a sealed event is refused over
a chain row created at another time. -/
theorem seal_raised_after_commit :
    (∃ s, run (step benchLedgers) {} [.call 0 heartbeatRow 5, .begin 0, .write 0, .commit 0,
        .raise 0] = some s ∧ refused s 0 = true ∧ s.rows.length = 1) ∧
    ∃ s, run (step benchLedgers) {} [.call 0 heartbeatRow 5, .begin 0, .write 0, .commit 0,
        .answer 0, .call 0 { heartbeatRow with createdAtMs := 2000 } 6] = some s ∧
      refused s 0 = true ∧ s.rows.length = 1 := by
  have hraised : (run (step benchLedgers) {} [.call 0 heartbeatRow 5, .begin 0, .write 0,
      .commit 0, .raise 0]).any (fun s => refused s 0 && decide (s.rows.length = 1)) = true := by
    unfold heartbeatRow heartbeatBytes text
    repeat rw [String.toList_ofList]
    decide +kernel
  have hother : (run (step benchLedgers) {} [.call 0 heartbeatRow 5, .begin 0, .write 0, .commit 0,
      .answer 0, .call 0 { heartbeatRow with createdAtMs := 2000 } 6]).any
      (fun s => refused s 0 && decide (s.rows.length = 1)) = true := by
    dsimp only [heartbeatRow, heartbeatBytes, text]
    repeat rw [String.toList_ofList]
    decide +kernel
  obtain ⟨s, hs, hraised⟩ := (any_eq_true _ _).mp hraised
  obtain ⟨t, ht, hother⟩ := (any_eq_true _ _).mp hother
  rw [Bool.and_eq_true, decide_eq_true_eq] at hraised hother
  exact ⟨⟨s, hs, hraised⟩, t, ht, hother⟩

end EvidenceDeliveryLedger

end OriRuntime
