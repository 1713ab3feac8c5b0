import OriRuntime.EvidenceChain

/-!
# Integrity of the evidence chain

What a transaction inserts follows the head it read and carries the canonical bytes of its own
columns, so every table any calls of `append` leave is chained, and `verify_chain`, which recomputes
both, finds nothing.
-/

namespace OriRuntime

open List Option

open Execution

namespace EvidenceChain

variable {c : EvidenceChain} {s s' : Store}

/-! ### The signed envelope -/

variable {payload : Json} {row existing : ChainRow} {n : ℕ} {prev payloadBytes : Text}
  {rows : List ChainRow} {call : AppendCall}

theorem envelope_distinct {eventId eventType prevEventHash : Text} {emittedAtMs : ℤ}
    {sequenceNum : ℕ} (h : payload.DistinctKeys) :
    (c.envelope eventId eventType emittedAtMs payload prevEventHash sequenceNum).DistinctKeys := by
  have hkeys : (envelopeFields.map text).Nodup := by decide
  exact ⟨hkeys, trivial, trivial, trivial, trivial, h, trivial, trivial, trivial, trivial⟩

theorem envelope_sorted (eventId eventType prevEventHash : Text) (emittedAtMs : ℤ)
    (payload : Json) (sequenceNum : ℕ) :
    (c.envelope eventId eventType emittedAtMs payload prevEventHash sequenceNum).sorted =
      c.envelope eventId eventType emittedAtMs payload.sorted prevEventHash sequenceNum := by
  have hkeys : (envelopeFields.map (fun field => some (text field))).Pairwise
      (fun k l => Json.keyLe k l = true) := by decide
  rw [envelope, Json.obj, Json.sorted_dict]
  rw [List.Pairwise.insertionSort_eq]
  · rfl
  · exact List.Pairwise.of_map Prod.fst (fun _ _ h => h) hkeys

/-- A row is what `append` signs for some payload. -/
structure Signed (c : EvidenceChain) (row : ChainRow) (payload : Json) : Prop where
  distinct : payload.DistinctKeys
  payloadJson : Json.canonicalJson payload = .ok row.payloadJson
  canonicalJson : Json.canonicalJson (c.envelope row.eventId row.eventType row.emittedAtMs payload
    row.prevEventHash row.seq) = .ok row.canonicalJson
  eventHash : row.eventHash = c.keys.sha256 row.canonicalJson
  signature : row.signature = c.keys.sign row.canonicalJson
  deviceId : row.deviceId = c.deviceId
  eventType : row.eventType ∈ eventTypes
  eventId : row.eventId ≠ []

theorem pyEq_str (s : Text) : (Json.str s).pyEq (.str s) = true := by
  simp [Json.pyEq]

theorem pyEq_int (n : ℤ) : (Json.int n).pyEq (.int n) = true := by
  simp [Json.pyEq, Json.number]

theorem verifyEnvelope_signed {stored : Json} (h : Signed c row payload)
    (hs : payload.sorted = stored) {items : List (Option Text × Json)}
    (hi : c.envelope row.eventId row.eventType
      row.emittedAtMs stored row.prevEventHash row.seq = .dict items) :
    verifyEnvelope row items = [] := by
  obtain ⟨hkeys, hsc, hr, hcolu⟩ :
      items.map (·.1) = envelopeFields.map (fun field => some (text field)) ∧
      (Json.dict items).get? "schema_version" = some (.str (text schemaVersion)) ∧
      (Json.dict items).get? "payload" = some stored ∧
      ∀ column ∈ signedColumns row, (Json.dict items).get? column.1 = some column.2.2 := by
    have hkeys : items.map (·.1) = envelopeFields.map (fun field => some (text field)) := by
      obtain rfl := Json.dict.inj hi
      rfl
    rw [← hi]
    refine ⟨hkeys, Json.get?_obj _ _, Json.get?_obj _ _, ?_⟩
    intro column hc
    rw [signedColumns, h.deviceId] at hc
    simp only [mem_cons, not_mem_nil, or_false] at hc
    obtain rfl | rfl | rfl | rfl | rfl | rfl := hc <;> exact Json.get?_obj _ _
  have hu : ((envelopeFields.map (fun field => some (text field))).filter
      (fun key => decide (key ∉ envelopeFields.map (fun field => some (text field))))) = [] := by
    rw [filter_eq_nil_iff]
    intro key hk
    simpa using hk
  have hm : (envelopeFields.filter (fun field =>
      decide (some (text field) ∉ envelopeFields.map (fun field => some (text field))))) = [] := by
    rw [filter_eq_nil_iff]
    intro field hf
    simpa using ⟨field, hf, rfl⟩
  have hp : Json.loads Json.dictOf row.payloadJson = some stored :=
    hs ▸ Json.loads_canonicalJson Json.dictOf_keeps h.distinct h.payloadJson
  have hself : stored.pyEq stored = true := by
    have hz := (Json.canonicalJson_eq_ok_iff.mp h.payloadJson).1
    rw [← hs]
    exact Json.pyEq_self _ (Json.readable_sorted _ (Json.readable_of_inZone _ hz h.distinct))
  have hg : (signedColumns row).flatMap (fun column =>
      if (((Json.dict items).get? column.1).getD .null).pyEq column.2.2 then []
      else [Finding.column row.seq column.2.1]) = [] := by
    rw [flatMap_eq_nil_iff]
    intro column hc
    rw [hcolu column hc, if_pos]
    rw [signedColumns] at hc
    simp only [mem_cons, not_mem_nil, or_false] at hc
    obtain rfl | rfl | rfl | rfl | rfl | rfl := hc
    · exact pyEq_int _
    · exact pyEq_str _
    · exact pyEq_str _
    · exact pyEq_str _
    · exact pyEq_str _
    · exact pyEq_int _
  unfold verifyEnvelope
  simp only [hkeys, hu, hm, hsc, hg, hr, hp, hself, pyEq_str, getD_some, if_true, append_nil]

theorem verifyRow_signed (h : Signed c row payload) {expectedSeq : ℕ} {expectedPrev : Text}
    (hs : row.seq = expectedSeq) (hprev : row.prevEventHash = expectedPrev) :
    c.verifyRow expectedSeq expectedPrev row = [] := by
  have hl := Json.loads_canonicalJson Json.uniqueMembers_keeps (envelope_distinct h.distinct)
    h.canonicalJson
  rw [envelope_sorted] at hl
  unfold verifyRow
  rw [hl, if_pos hs, if_pos hprev, if_pos h.eventHash.symm, if_pos]
  · exact verifyEnvelope_signed h rfl rfl
  · rw [h.signature]
    exact c.keys.verify_sign _

/-! ### Chained rows -/

/-- The rows follow a row of hash `prev` numbered just below `n`. -/
def Chained (c : EvidenceChain) : ℕ → Text → List ChainRow → Prop
  | _, _, [] => True
  | n, prev, row :: rows => row.seq = n ∧ row.prevEventHash = prev ∧
      (∃ payload, Signed c row payload) ∧ Chained c (n + 1) row.eventHash rows

def lastHash (prev : Text) (rows : List ChainRow) : Text :=
  (rows.getLast?.map (·.eventHash)).getD prev

theorem lastHash_cons (prev : Text) (row : ChainRow) (rows : List ChainRow) :
    lastHash prev (row :: rows) = lastHash row.eventHash rows := by
  cases rows with
  | nil => rfl
  | cons r rows =>
    rfl

theorem chained_append :
    Chained c n prev (rows ++ [row]) ↔ Chained c n prev rows ∧ row.seq = n + rows.length ∧
      row.prevEventHash = lastHash prev rows ∧ ∃ payload, Signed c row payload := by
  induction rows generalizing n prev with
  | nil => simp [Chained, lastHash]
  | cons r rows ih =>
    rw [cons_append, Chained, ih, lastHash_cons, length_cons]
    constructor
    · rintro ⟨he, hprev, hs, hr, hn, hlink, hp⟩
      exact ⟨⟨he, hprev, hs, hr⟩, by omega, hlink, hp⟩
    · rintro ⟨⟨he, hprev, hs, hr⟩, hn, hlink, hp⟩
      exact ⟨he, hprev, hs, hr, by omega, hlink, hp⟩

theorem Chained.seqs (h : Chained c n prev rows) :
    rows.map (·.seq) = List.range' n rows.length := by
  induction rows generalizing n prev with
  | nil => rfl
  | cons r rows ih =>
    rw [map_cons, length_cons, List.range'_succ, h.1, ih h.2.2.2]

theorem Chained.pairwise (h : Chained c n prev rows) :
    rows.Pairwise (fun r r' => r.seq < r'.seq) := by
  have hp : (rows.map (·.seq)).Pairwise (· < ·) := by
    rw [h.seqs]
    exact pairwise_lt_range'
  exact pairwise_map.mp hp

theorem Chained.signed (h : Chained c n prev rows) :
    ∀ row ∈ rows, ∃ payload, Signed c row payload := by
  induction rows generalizing n prev with
  | nil => nofun
  | cons r rows ih => exact forall_mem_cons.mpr ⟨h.2.2.1, ih h.2.2.2⟩

theorem Chained.verifyRows (h : Chained c n prev rows) : c.verifyRows n prev rows = [] := by
  induction rows generalizing n prev with
  | nil => rfl
  | cons r rows ih =>
    obtain ⟨hs, hprev, ⟨payload, hg⟩, hr⟩ := h
    rw [EvidenceChain.verifyRows, verifyRow_signed hg hs hprev, hs]
    exact ih hr

theorem Chained.verifyChain (h : Chained c 1 c.genesisPrevEventHash rows) :
    c.verifyChain rows = [] := by
  rw [EvidenceChain.verifyChain, List.Pairwise.insertionSort_eq]
  · exact h.verifyRows
  · exact h.pairwise.imp (fun hl => le_of_lt hl)

theorem latest_eq_getLast? (h : rows.Pairwise (fun r r' => r.seq < r'.seq)) :
    latest rows = rows.getLast? := by
  induction rows using List.reverseRecOn with
  | nil => rfl
  | append_singleton rows row ih =>
    rw [pairwise_append] at h
    have hl := ih h.1
    rw [latest] at hl
    rw [latest, foldl_append, List.getLast?_append, hl]
    cases hs : rows.getLast? with
    | none => rfl
    | some b =>
      have hl : b.seq < row.seq := h.2.2 b (mem_of_getLast? hs) row (mem_singleton_self _)
      exact if_pos hl

theorem Chained.head (h : Chained c 1 c.genesisPrevEventHash rows) :
    c.head rows = (rows.length, lastHash c.genesisPrevEventHash rows) := by
  rw [EvidenceChain.head, latest_eq_getLast? h.pairwise, lastHash]
  cases hl : rows.getLast? with
  | none =>
    rw [List.getLast?_eq_none_iff] at hl
    rw [hl]
    rfl
  | some row =>
    have hs : row.seq = rows.length := by
      obtain ⟨front, rfl⟩ := List.getLast?_eq_some_iff.mp hl
      have hn := (chained_append.mp h).2.1
      rw [length_append, length_singleton]
      omega
    simp only [hs, map_some, getD_some]

/-! ### Transactions -/

theorem findByEventId_of_mem (hd : (rows.map (·.eventId)).Nodup) (h : row ∈ rows) :
    findByEventId rows row.eventId = some row := by
  induction rows with
  | nil => cases h
  | cons r rows ih =>
    rw [map_cons, nodup_cons] at hd
    rw [findByEventId, List.find?_cons]
    obtain rfl | h := mem_cons.mp h
    · rw [decide_eq_true rfl]
    · have hn : r.eventId ≠ row.eventId := fun heq => hd.1 (heq ▸ mem_map_of_mem h)
      rw [decide_eq_false hn]
      exact ih hd.2 h

/-- The stored row records what the call would. -/
def SameContent (existing : ChainRow) (call : AppendCall) : Prop :=
  existing.eventType = call.eventType ∧ existing.emittedAtMs = call.emittedAtMs ∧
    Json.canonicalJson call.payload = .ok existing.payloadJson

theorem differing_eq_nil_iff (hd : existing.deviceId = c.deviceId)
    (hb : Json.canonicalJson call.payload = .ok payloadBytes) :
    c.differing existing call payloadBytes = [] ↔ SameContent existing call := by
  rw [SameContent, hb, differing, if_pos hd]
  simp only [append_eq_nil_iff, Except.ok.injEq]
  constructor
  · rintro ⟨⟨ht, he⟩, hp⟩
    refine ⟨?_, ?_, ?_⟩
    · by_contra hn
      simp [hn] at ht
    · by_contra hn
      simp [hn] at he
    · by_contra hn
      simp [Ne.symm hn] at hp
  · rintro ⟨ht, he, hp⟩
    simp [ht, he, hp]

theorem reconcileReplay_same (hd : existing.deviceId = c.deviceId)
    (hb : Json.canonicalJson call.payload = .ok payloadBytes) (h : SameContent existing call) :
    c.reconcileReplay existing call payloadBytes = .ok existing :=
  if_pos ((differing_eq_nil_iff hd hb).mpr h)

theorem reconcileReplay_different (hd : existing.deviceId = c.deviceId)
    (hb : Json.canonicalJson call.payload = .ok payloadBytes) (h : ¬ SameContent existing call) :
    ∃ e, c.reconcileReplay existing call payloadBytes = .error e :=
  ⟨_, if_neg (mt (differing_eq_nil_iff hd hb).mp h)⟩

theorem transact_cases {rows' : List ChainRow} {raced : Option ChainRow}
    (h : c.transact rows call payloadBytes = .ok (rows', raced)) :
    rows' = rows ∨ ∃ signedBytes, findByEventId rows call.eventId = none ∧
      Json.canonicalJson (c.envelope call.eventId call.eventType call.emittedAtMs call.payload
        (c.head rows).2 ((c.head rows).1 + 1)) = .ok signedBytes ∧
      rows' = rows ++ [{ seq := (c.head rows).1 + 1, eventId := call.eventId
                         eventType := call.eventType, deviceId := c.deviceId
                         emittedAtMs := call.emittedAtMs, payloadJson := payloadBytes
                         canonicalJson := signedBytes, eventHash := c.keys.sha256 signedBytes
                         prevEventHash := (c.head rows).2, signature := c.keys.sign signedBytes
                         createdAtMs := call.createdAtMs }] := by
  unfold transact at h
  split at h
  · rename_i found hf
    left
    cases hr : c.reconcileReplay found call payloadBytes with
    | error e => simp [hr, Except.map] at h
    | ok row =>
      simp only [hr, Except.map, Except.ok.injEq, Prod.mk.injEq] at h
      exact h.1.symm
  · rename_i hn
    right
    unfold appendInTransaction at h
    simp only at h
    split at h
    · simp [Except.map] at h
    rename_i signedBytes hs
    refine ⟨signedBytes, hn, hs, ?_⟩
    unfold insert at h
    split_ifs at h
    · simp [Except.map] at h
    · simp only [Except.map, Except.ok.injEq, Prod.mk.injEq] at h
      exact h.1.symm

/-- The table is chained with one row an event, and the calls in progress passed their checks. -/
structure Intact (c : EvidenceChain) (s : Store) : Prop where
  chained : Chained c 1 c.genesisPrevEventHash s.rows
  distinct : (s.rows.map (·.eventId)).Nodup
  checked : ∀ w call payloadBytes, s.calls.get? w = some (.lookedUp call payloadBytes) →
    call.eventId ≠ [] ∧ call.eventType ∈ eventTypes ∧
      Json.canonicalJson call.payload = .ok payloadBytes

theorem chained_transact {rows' : List ChainRow} {raced : Option ChainRow}
    (hc : Chained c 1 c.genesisPrevEventHash rows) (hd : (rows.map (·.eventId)).Nodup)
    (hh : call.eventId ≠ [] ∧ call.eventType ∈ eventTypes ∧
      Json.canonicalJson call.payload = .ok payloadBytes)
    (h : c.transact rows call payloadBytes = .ok (rows', raced)) :
    Chained c 1 c.genesisPrevEventHash rows' ∧ (rows'.map (·.eventId)).Nodup := by
  obtain rfl | ⟨signedBytes, hnone, hs, rfl⟩ := transact_cases h
  · exact ⟨hc, hd⟩
  constructor
  · rw [hc.head] at hs ⊢
    refine chained_append.mpr ⟨hc, ?_, rfl, call.payload, call.distinct, hh.2.2, hs,
      rfl, rfl, rfl, hh.2.1, hh.1⟩
    simp only
    omega
  · rw [map_append, map_singleton, nodup_append]
    refine ⟨hd, nodup_singleton _, ?_⟩
    intro eventId hm eventId' hm'
    obtain rfl := mem_singleton.mp hm'
    rintro rfl
    obtain ⟨row, hr, hi⟩ := mem_map.mp hm
    have hn := List.find?_eq_none.mp hnone row hr
    simp [hi] at hn

theorem chained_map {f : ChainRow → ChainRow} (hf : ∀ row payload, Signed c row payload →
      Signed c (f row) payload) (hc : ∀ row, (f row).seq = row.seq ∧
      (f row).prevEventHash = row.prevEventHash ∧ (f row).eventHash = row.eventHash)
    (h : Chained c n prev rows) : Chained c n prev (rows.map f) := by
  induction rows generalizing n prev with
  | nil => trivial
  | cons row rows ih =>
    obtain ⟨hs, hprev, ⟨payload, hg⟩, hr⟩ := h
    obtain ⟨hs', hprev', hhash'⟩ := hc row
    refine ⟨hs'.trans hs, hprev'.trans hprev, ⟨payload, hf row payload hg⟩, ?_⟩
    rw [hhash']
    exact ih hr

theorem markExported_chained (h : Chained c n prev rows) (seq : ℕ) (exportedAtMs : ℤ) :
    Chained c n prev (markExported rows seq exportedAtMs) := by
  refine chained_map ?_ ?_ h
  · intro row payload hs
    split_ifs
    · exact { hs with }
    · exact hs
  · intro row
    split_ifs <;> exact ⟨rfl, rfl, rfl⟩

theorem markExported_eventIds (rows : List ChainRow) (seq : ℕ) (exportedAtMs : ℤ) :
    (markExported rows seq exportedAtMs).map (·.eventId) = rows.map (·.eventId) := by
  rw [markExported, List.map_map]
  apply List.map_congr_left
  intro row _
  simp only [Function.comp_apply]
  split_ifs <;> rfl

theorem lookUp_checked {found : Option ChainRow}
    (h : c.lookUp rows call = .ok (payloadBytes, found)) :
    call.eventId ≠ [] ∧ call.eventType ∈ eventTypes ∧
      Json.canonicalJson call.payload = .ok payloadBytes := by
  unfold lookUp at h
  split_ifs at h with hi ht
  split at h
  · cases h
  rename_i bytes hb
  refine ⟨hi, ht, ?_⟩
  rw [hb]
  split at h
  · simp only [Except.ok.injEq, Prod.mk.injEq] at h
    rw [h.1]
  · rename_i existing hf
    cases hr : c.reconcileReplay existing call bytes with
    | error e => simp [hr, Except.map] at h
    | ok row =>
      simp only [hr, Except.map, Except.ok.injEq, Prod.mk.injEq] at h
      rw [h.1]

theorem Intact.set (h : Intact c s) (w : ℕ) {p : Progress}
    (hr : Chained c 1 c.genesisPrevEventHash rows ∧ (rows.map (·.eventId)).Nodup)
    (hp : ∀ call payloadBytes, p = .lookedUp call payloadBytes → call.eventId ≠ [] ∧
      call.eventType ∈ eventTypes ∧ Json.canonicalJson call.payload = .ok payloadBytes) :
    Intact c { rows := rows, calls := s.calls.set w p } where
  chained := hr.1
  distinct := hr.2
  checked w' call payloadBytes hg := by
    rw [Dict.get?_set] at hg
    split_ifs at hg with heq
    · exact hp call payloadBytes (some.inj hg)
    · exact h.checked w' call payloadBytes hg

theorem intact_step {l : Label} (h : Intact c s) (hs : c.step s l = some s') : Intact c s' := by
  have hm := And.intro h.chained h.distinct
  cases l with
  | append w call =>
    simp only [step] at hs
    split at hs
    · cases hs
    split at hs
    · cases hs
      exact h.set w hm (fun _ _ h => by cases h)
    · rename_i payloadBytes hlook
      cases hs
      refine h.set w hm ?_
      rintro _ _ ⟨rfl, rfl⟩
      exact lookUp_checked hlook
    · cases hs
      exact h.set w hm (fun _ _ h => by cases h)
  | transact w =>
    simp only [step] at hs
    split at hs
    · rename_i call payloadBytes hw
      have hc := h.checked w call payloadBytes hw
      split at hs
      · cases hs
        exact h.set w hm (fun _ _ h => by cases h)
      · rename_i rows ht
        cases hs
        exact h.set w (chained_transact h.chained h.distinct hc ht) (fun _ _ h => by cases h)
      · rename_i rows row ht
        cases hs
        exact h.set w (chained_transact h.chained h.distinct hc ht) (fun _ _ h => by cases h)
    · cases hs
  | fail w | readBack w =>
    simp only [step] at hs
    split at hs
    · cases hs
      exact h.set w hm (fun _ _ h => by cases h)
    · cases hs
  | markExported seq exportedAtMs =>
    cases hs
    refine ⟨markExported_chained h.chained seq exportedAtMs, ?_, h.checked⟩
    rw [markExported_eventIds]
    exact h.distinct

theorem intact_empty : Intact c {} where
  chained := trivial
  distinct := nodup_nil
  checked w call payloadBytes hg := by
    cases hg

theorem intact_of_reaches (h : Reaches c.step {} s) : Intact c s :=
  Reaches.invariant (fun _ _ _ hi hs => intact_step hi hs) intact_empty h

theorem Chained.link (h : Chained c n prev rows) {i : ℕ} {row' : ChainRow}
    (hi : rows[i]? = some row) (hi' : rows[i + 1]? = some row') :
    row'.prevEventHash = row.eventHash := by
  induction rows generalizing n prev i with
  | nil => cases hi
  | cons r rows ih =>
    cases i with
    | zero =>
      obtain rfl : r = row := some.inj hi
      cases rows with
      | nil => cases hi'
      | cons r' rows =>
        obtain rfl : r' = row' := some.inj hi'
        exact h.2.2.2.2.1
    | succ i => exact ih h.2.2.2 hi hi'

theorem replay_append (h : Intact c s) {w : ℕ} (hm : existing ∈ s.rows)
    (hi : existing.eventId = call.eventId) (hn : s.calls.get? w = none) :
    (SameContent existing call → c.step s (.append w call) =
      some { s with calls := s.calls.set w (.returned call (.ok existing)) }) ∧
    (¬ SameContent existing call → ∃ e, c.step s (.append w call) =
      some { s with calls := s.calls.set w (.returned call (.error e)) }) := by
  obtain ⟨payload, hs⟩ := h.chained.signed existing hm
  have hf : findByEventId s.rows call.eventId = some existing := by
    rw [← hi]
    exact findByEventId_of_mem h.distinct hm
  constructor
  · intro hsm
    have hr := reconcileReplay_same (c := c) hs.deviceId hsm.2.2 hsm
    have hlook : c.lookUp s.rows call = .ok (existing.payloadJson, some existing) := by
      rw [lookUp, if_neg (hi ▸ hs.eventId), if_neg (not_not.mpr (hsm.1 ▸ hs.eventType)), hsm.2.2]
      simp only [hf, hr, Except.map]
    simp only [step, hn, hlook]
  · intro hd
    have hlook : ∃ e, c.lookUp s.rows call = .error e := by
      rw [lookUp, if_neg (hi ▸ hs.eventId)]
      split_ifs with ht
      · cases hb : Json.canonicalJson call.payload with
        | error e => exact ⟨.canonicalisation e, rfl⟩
        | ok bytes =>
          obtain ⟨e, he⟩ := reconcileReplay_different hs.deviceId hb hd
          exact ⟨e, by simp only [hf, he, Except.map]⟩
      · exact ⟨_, rfl⟩
    obtain ⟨e, he⟩ := hlook
    exact ⟨e, by simp only [step, hn, he]⟩

theorem replay_transact (h : Intact c s) {w : ℕ} (hm : existing ∈ s.rows)
    (hi : existing.eventId = call.eventId)
    (hw : s.calls.get? w = some (.lookedUp call payloadBytes)) :
    (SameContent existing call → c.step s (.transact w) =
      some { s with calls := s.calls.set w (.returned call (.ok existing)) }) ∧
    (¬ SameContent existing call → ∃ e, c.step s (.transact w) =
      some { s with calls := s.calls.set w (.returned call (.error e)) }) := by
  obtain ⟨payload, hs⟩ := h.chained.signed existing hm
  have hb := (h.checked w call payloadBytes hw).2.2
  have hf : findByEventId s.rows call.eventId = some existing := by
    rw [← hi]
    exact findByEventId_of_mem h.distinct hm
  constructor
  · intro hsm
    have hr := reconcileReplay_same hs.deviceId hb hsm
    simp only [step, hw, EvidenceChain.transact, hf, hr, Except.map]
  · intro hd
    obtain ⟨e, he⟩ := reconcileReplay_different hs.deviceId hb hd
    exact ⟨e, by simp only [step, hw, EvidenceChain.transact, hf, he, Except.map]⟩

/-- Whatever calls of `append` run, and however their transactions interleave, raise or are
replayed: the rows are numbered from one without a gap, each follows the hash of the one before,
no event has two, `verify_chain` finds nothing; and a call for an event that has a row is answered
with it when it means the same, refused when it does not, and changes no row. -/
theorem chain_integrity (h : Reaches c.step {} s) :
    s.rows.map (·.seq) = List.range' 1 s.rows.length ∧
    (∀ row, s.rows[0]? = some row → row.prevEventHash = c.genesisPrevEventHash) ∧
    (∀ (i : ℕ) (row row' : ChainRow), s.rows[i]? = some row → s.rows[i + 1]? = some row' →
      row'.prevEventHash = row.eventHash) ∧
    (s.rows.map (·.eventId)).Nodup ∧
    c.verifyChain s.rows = [] ∧
    ∀ (w : ℕ) (call : AppendCall), ∀ existing ∈ s.rows, existing.eventId = call.eventId →
      (s.calls.get? w = none → (SameContent existing call → c.step s (.append w call) =
          some { s with calls := s.calls.set w (.returned call (.ok existing)) }) ∧
        (¬ SameContent existing call → ∃ e, c.step s (.append w call) =
          some { s with calls := s.calls.set w (.returned call (.error e)) })) ∧
      ∀ payloadBytes, s.calls.get? w = some (.lookedUp call payloadBytes) →
        (SameContent existing call → c.step s (.transact w) =
          some { s with calls := s.calls.set w (.returned call (.ok existing)) }) ∧
        (¬ SameContent existing call → ∃ e, c.step s (.transact w) =
          some { s with calls := s.calls.set w (.returned call (.error e)) }) := by
  have hintact := intact_of_reaches h
  refine ⟨hintact.chained.seqs, ?_, ?_, hintact.distinct, hintact.chained.verifyChain, ?_⟩
  · intro row hrow
    have hchained := hintact.chained
    cases hrows : s.rows with
    | nil =>
      rw [hrows] at hrow
      cases hrow
    | cons r rows =>
      rw [hrows] at hrow hchained
      obtain rfl : r = row := some.inj hrow
      exact hchained.2.1
  · intro i row row' hi hi'
    exact hintact.chained.link hi hi'
  · intro w call existing hmem hid
    exact ⟨fun hnew => replay_append hintact hmem hid hnew,
      fun _ hw => replay_transact hintact hmem hid hw⟩

/-- A device whose hash and signature are their own text. -/
def benchChain : EvidenceChain where
  keys :=
    { sha256 := fun b => text "sha256:" ++ b, sign := fun b => text "ed25519:" ++ b
      verify := fun wire b => decide (wire = text "ed25519:" ++ b)
      verify_sign := fun _ => decide_eq_true rfl }
  deviceId := text "device"

def heartbeat : AppendCall where
  eventId := text "event-1"
  eventType := text "UPTIME_HEARTBEAT"
  emittedAtMs := 1000
  payload := Json.obj [("up", .bool true)]
  createdAtMs := 1001
  distinct := ⟨by decide, trivial, trivial⟩

/-- Two calls look the event up before either has its transaction. -/
theorem chain_integrity_raced :
    ∃ s, run benchChain.step {} [.append 0 heartbeat, .append 1 heartbeat, .transact 0,
        .readBack 0, .transact 1] = some s ∧ s.rows.length = 1 ∧
      s.rows.map (·.seq) = List.range' 1 s.rows.length ∧ benchChain.verifyChain s.rows = [] := by
  obtain ⟨s, hs, hlength⟩ : ∃ s, run benchChain.step {} [.append 0 heartbeat, .append 1 heartbeat,
    .transact 0, .readBack 0, .transact 1] = some s ∧ s.rows.length = 1 := exists_of_check (by
    decide +kernel)
  have hintegrity := chain_integrity ⟨_, hs⟩
  exact ⟨s, hs, hlength, hintegrity.1, hintegrity.2.2.2.2.1⟩

/-! ### What is in the chain stays -/

/-- The row without its export mark. -/
def unmarked (row : ChainRow) : ChainRow := { row with exported := false, exportedAtMs := none }

theorem step_rows {l : Label} (hs : c.step s l = some s') :
    s.rows.map unmarked <+: s'.rows.map unmarked := by
  cases l with
  | transact w =>
    simp only [step] at hs
    split at hs
    · split at hs
      · cases hs
        rfl
      all_goals
        rename_i ht
        cases hs
        obtain rfl | ⟨_, -, -, rfl⟩ := transact_cases ht
        · rfl
        · simp
    · cases hs
  | markExported seq exportedAtMs =>
    cases hs
    have he : unmarked ∘ (fun row : ChainRow => if row.seq = seq then
        { row with exported := true, exportedAtMs := some exportedAtMs } else row) = unmarked := by
      funext row
      dsimp only [Function.comp]
      split_ifs <;> rfl
    rw [markExported, List.map_map, he]
  | append w call | fail w | readBack w =>
    simp only [step] at hs
    repeat' split at hs
    all_goals
      cases hs
      try rfl

/-- No call takes a row from the chain or alters it, but for the export mark. -/
theorem chain_append_only {t : Store} (h : Reaches c.step s t) :
    s.rows.map unmarked <+: t.rows.map unmarked :=
  @Reaches.invariant _ _ _ (fun u => s.rows.map unmarked <+: u.rows.map unmarked)
    (fun _ _ _ hi hs => hi.trans (step_rows hs)) _ _ prefix_rfl h

theorem chain_append_only_marked :
    ∃ s t, run benchChain.step {} [.append 0 heartbeat, .transact 0] = some s ∧
      s.rows.length = 1 ∧ run benchChain.step s [.markExported 1 7] = some t ∧
      s.rows.map unmarked <+: t.rows.map unmarked := by
  obtain ⟨s, hs, hl⟩ : ∃ s, run benchChain.step {} [.append 0 heartbeat, .transact 0] = some s ∧
    s.rows.length = 1 := exists_of_check (by decide +kernel)
  exact ⟨s, _, hs, hl, rfl, chain_append_only (c := benchChain) ⟨[.markExported 1 7], rfl⟩⟩

end EvidenceChain

end OriRuntime
