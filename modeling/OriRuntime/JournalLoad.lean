import Mathlib.Data.List.TakeWhile
import OriRuntime.Execution
import OriRuntime.TripJournal

/-!
# The journal's writer and its loader agree

Any sequence of journal operations, on any pairs, against the load of one pair. The writer keeps
`WellWritten`; the loader's walk is computed on such rows entry by entry, and what it answers is read
off the operations themselves.
-/

namespace OriRuntime.TripJournal

open List Option

/-- The part of a list after the last element that satisfies `p`. -/
def afterLast {α : Type*} (p : α → Bool) (l : List α) : List α :=
  (l.reverse.takeWhile (fun a => !p a)).reverse

section AfterLast

variable {α : Type*} {p : α → Bool}

@[simp] theorem afterLast_nil : afterLast p [] = [] := rfl

variable {a : α} {l : List α}

theorem afterLast_concat_of_pos (h : p a = true) : afterLast p (l ++ [a]) = [] := by
  simp [afterLast, h]

theorem afterLast_concat_of_neg (h : p a = false) :
    afterLast p (l ++ [a]) = afterLast p l ++ [a] := by
  simp [afterLast, h]

theorem afterLast_split (l : List α) :
    afterLast p l = l ∨ ∃ pre a, l = pre ++ a :: afterLast p l ∧ p a = true := by
  induction l using List.reverseRecOn with
  | nil => exact .inl rfl
  | append_singleton l a ih =>
    cases h : p a with
    | true =>
      refine .inr ⟨l, a, ?_, h⟩
      rw [afterLast_concat_of_pos h]
    | false =>
      rw [afterLast_concat_of_neg h]
      obtain heq | ⟨pre, b, hs, hb⟩ := ih
      · exact .inl (by rw [heq])
      · refine .inr ⟨pre, b, ?_, hb⟩
        rw [← cons_append, ← append_assoc, ← hs]

theorem eq_false_of_mem_afterLast (h : a ∈ afterLast p l) : p a = false := by
  simp only [afterLast, mem_reverse] at h
  simpa using mem_takeWhile_imp h

end AfterLast

inductive Op where
  | appendIntent (zoneId profileId attemptId : String) (bindingSeq : ℤ) (outcome : String)
      (createdAtMs : ℤ)
  | appendRecord (zoneId profileId commandStatus : String) (createdAtMs : ℤ)
  | appendClear (zoneId profileId : String) (createdAtMs : ℤ)
  | markResolved (zoneId profileId : String)
  deriving DecidableEq, Repr

/-- One operation. A record refused by its vocabulary check writes nothing. -/
def step (j : TripJournal) : Op → Option TripJournal
  | .appendIntent z p a b o c => some (j.appendIntent z p a b o c)
  | .appendRecord z p s c =>
    match j.appendRecord z p s c with
    | .ok j' => some j'
    | .error _ => some j
  | .appendClear z p c => some (j.appendClear z p c)
  | .markResolved z p => some (j.markResolved z p)

variable {j : TripJournal} {p s z : String} {r : JournalRow} {rows : List JournalRow}
  {st : LoadState}

theorem step_appendRecord_of_mem {c : ℤ} (hs : s ∈ recordVocabulary) :
    step j (.appendRecord z p s c) = some (j.insert
      { seq := 0, zoneId := z, profileId := p, entryKind := .record, commandStatus := some s,
        createdAtMs := c }) := by
  simp only [step, appendRecord, if_pos hs]

theorem step_appendRecord_of_not_mem {c : ℤ} (hs : s ∉ recordVocabulary) :
    step j (.appendRecord z p s c) = some j := by
  simp only [step, appendRecord, if_neg hs]

/-- An intent carries an attempt id no intent of its pair carries yet. -/
def FreshAttempt (j : TripJournal) (op : Op) : Prop :=
  ∀ z p a b o c, op = .appendIntent z p a b o c →
    ∀ r ∈ j.rows, r.ofPair z p = true → r.isIntent = true → r.attemptId ≠ some a

/-! ### What the operations say of one pair -/

inductive Mark where
  | intent
  | record (status : CommandStatus)
  | clear
  deriving DecidableEq, Repr

def Mark.isIntent : Mark → Bool
  | .intent => true
  | _ => false

def Mark.isClear : Mark → Bool
  | .clear => true
  | _ => false

def Mark.status? : Mark → Option CommandStatus
  | .record s => some s
  | _ => none

/-- What follows the last clear. -/
def sinceClear (ms : List Mark) : List Mark := afterLast Mark.isClear ms

/-- The intents that follow the last record and the last clear. -/
def lateIntents (ms : List Mark) : List Mark := afterLast (fun k => !k.isIntent) ms

theorem sinceClear_concat (ms : List Mark) (k : Mark) :
    sinceClear (ms ++ [k]) = if k.isClear then [] else sinceClear ms ++ [k] := by
  cases h : k.isClear with
  | true => exact afterLast_concat_of_pos h
  | false => exact afterLast_concat_of_neg h

theorem lateIntents_concat (ms : List Mark) (k : Mark) :
    lateIntents (ms ++ [k]) = if k.isIntent then lateIntents ms ++ [k] else [] := by
  cases h : k.isIntent with
  | true => exact afterLast_concat_of_neg (p := fun k : Mark => !k.isIntent) (by simp [h])
  | false => exact afterLast_concat_of_pos (p := fun k : Mark => !k.isIntent) (by simp [h])

/-- What an operation appends to the pair's journal. -/
def Op.mark? (zoneId profileId : String) : Op → Option Mark
  | .appendIntent z p _ _ _ _ => if z = zoneId ∧ p = profileId then some .intent else none
  | .appendRecord z p s _ =>
    if z = zoneId ∧ p = profileId then (recordStatus? (.str s)).map .record else none
  | .appendClear z p _ => if z = zoneId ∧ p = profileId then some .clear else none
  | .markResolved _ _ => none

def marks (zoneId profileId : String) (ops : List Op) : List Mark :=
  ops.filterMap (Op.mark? zoneId profileId)

/-- What a row of the pair stands for. -/
def markOf (r : JournalRow) : Mark :=
  match r.entryKind with
  | .intent => .intent
  | .record => .record ((recordStatus? (pyStr? r.commandStatus)).getD .none)
  | _ => .clear

/-! ### What the writer keeps -/

structure WellWritten (j : TripJournal) : Prop where
  kind : ∀ r ∈ j.rows, r.isIntent = true ∨ r.entryKind = .clear ∨
    (r.entryKind = .record ∧ ∃ s, recordStatus? (pyStr? r.commandStatus) = some s)
  distinct : ∀ z p, (j.pairRows z p).Pairwise
    (fun a b => a.isIntent = true → b.isIntent = true → a.attemptId ≠ b.attemptId)
  justified : ∀ r ∈ j.rows, r.resolved = true → r.isIntent = true ∧
    ∃ r' ∈ j.rows, r'.ofPair r.zoneId r.profileId = true ∧ r.seq < r'.seq ∧ r'.settles = true

theorem recordStatus?_isSome_iff :
    (∃ c, recordStatus? (.str s) = some c) ↔ s ∈ recordVocabulary := by
  simp only [recordStatus?, recordVocabulary, mem_cons, not_mem_nil, or_false]
  split_ifs <;> simp_all

theorem mem_insert {row : JournalRow} :
    r ∈ (j.insert row).rows ↔ r ∈ j.rows ∨ r = { row with seq := j.nextSeq } := by
  simp [insert]

theorem pairRows_insert (j : TripJournal) (row : JournalRow) (z p : String) :
    (j.insert row).pairRows z p = j.pairRows z p ++
      (if row.ofPair z p then [{ row with seq := j.nextSeq }] else []) := by
  simp only [pairRows, insert, filter_append, filter_cons, filter_nil]
  rfl

theorem WellWritten.insert (hj : WellWritten j) {row : JournalRow}
    (hk : row.isIntent = true ∨ row.entryKind = .clear ∨
      (row.entryKind = .record ∧ ∃ s, recordStatus? (pyStr? row.commandStatus) = some s))
    (hreso : row.resolved = false)
    (hf : row.isIntent = true → ∀ r ∈ j.rows, r.ofPair row.zoneId row.profileId = true →
      r.isIntent = true → r.attemptId ≠ row.attemptId) : WellWritten (j.insert row) where
  kind := by
    intro r hr
    obtain hr | rfl := mem_insert.mp hr
    · exact hj.kind r hr
    · exact hk
  distinct := by
    intro z p
    rw [pairRows_insert]
    split_ifs with ho
    · refine pairwise_append.mpr ⟨hj.distinct z p, pairwise_singleton _ _, ?_⟩
      intro a ha b hb haint hbint
      obtain rfl := mem_singleton.mp hb
      obtain ⟨hm, hp⟩ := mem_filter.mp ha
      have hi : row.zoneId = z ∧ row.profileId = p := by simpa [JournalRow.ofPair] using ho
      exact hf hbint a hm (by rw [hi.1, hi.2]; exact hp) haint
    · simpa using hj.distinct z p
  justified := by
    intro r hr he
    obtain hr | rfl := mem_insert.mp hr
    · obtain ⟨hn, r', hr', hs⟩ := hj.justified r hr he
      exact ⟨hn, r', mem_insert.mpr (.inl hr'), hs⟩
    · simp [hreso] at he

theorem resolveRow_keeps (z p : String) (n : ℕ) (r : JournalRow) :
    (resolveRow z p n r).zoneId = r.zoneId ∧ (resolveRow z p n r).profileId = r.profileId ∧
      (resolveRow z p n r).entryKind = r.entryKind ∧
      (resolveRow z p n r).attemptId = r.attemptId ∧
      (resolveRow z p n r).commandStatus = r.commandStatus := by
  unfold resolveRow
  split_ifs <;> exact ⟨rfl, rfl, rfl, rfl, rfl⟩

theorem resolveRow_ofPair (z p : String) (n : ℕ) (r : JournalRow) (z' p' : String) :
    (resolveRow z p n r).ofPair z' p' = r.ofPair z' p' := by
  obtain ⟨hz, hp, -⟩ := resolveRow_keeps z p n r
  simp only [JournalRow.ofPair, hz, hp]

theorem resolveRow_isIntent (z p : String) (n : ℕ) (r : JournalRow) :
    (resolveRow z p n r).isIntent = r.isIntent := by
  simp only [JournalRow.isIntent, (resolveRow_keeps z p n r).2.2.1]

theorem resolveRow_settles (z p : String) (n : ℕ) (r : JournalRow) :
    (resolveRow z p n r).settles = r.settles := by
  simp only [JournalRow.settles, (resolveRow_keeps z p n r).2.2.1]

theorem resolveRow_resolved {n : ℕ} (h : (resolveRow z p n r).resolved = true) :
    r.resolved = true ∨ (r.ofPair z p = true ∧ r.isIntent = true ∧ r.seq < n) := by
  unfold resolveRow at h
  split_ifs at h with hc
  · simp only [Bool.and_eq_true, decide_eq_true_eq] at hc
    exact .inr ⟨hc.1.1.1, hc.1.1.2, hc.2⟩
  · exact .inl h

theorem threshold_eq_some {n : ℕ} (h : j.threshold z p = some n) :
    ∃ r ∈ j.rows, r.ofPair z p = true ∧ r.settles = true ∧ r.seq = n := by
  have hm := List.max?_mem h
  obtain ⟨r, hr, hs⟩ := mem_map.mp hm
  obtain ⟨ho, hcond⟩ := mem_filter.mp hr
  simp only [Bool.and_eq_true] at hcond
  exact ⟨r, ho, hcond.1, hcond.2, hs⟩

theorem markResolved_rows (j : TripJournal) (z p : String) :
    j.markResolved z p = j ∨ ∃ n, j.threshold z p = some n ∧
      (j.markResolved z p).rows = j.rows.map (resolveRow z p n) := by
  unfold markResolved
  split
  · exact .inl rfl
  · rename_i n hn
    exact .inr ⟨n, hn, rfl⟩

theorem pairRows_map (rows : List JournalRow) (z p z' p' : String) (n : ℕ) :
    (rows.map (resolveRow z p n)).filter (fun r => r.ofPair z' p') =
      (rows.filter (fun r => r.ofPair z' p')).map (resolveRow z p n) := by
  rw [List.filter_map]
  congr 1
  refine List.filter_congr ?_
  intro r _
  exact resolveRow_ofPair z p n r z' p'

theorem WellWritten.markResolved (hj : WellWritten j) (z p : String) :
    WellWritten (j.markResolved z p) := by
  obtain heq | ⟨n, hn, hw⟩ := markResolved_rows j z p
  · rw [heq]
    exact hj
  · constructor
    · intro r hr
      rw [hw] at hr
      obtain ⟨a, ha, rfl⟩ := mem_map.mp hr
      obtain ⟨-, -, hk, -, ht⟩ := resolveRow_keeps z p n a
      rw [resolveRow_isIntent, hk, ht]
      exact hj.kind a ha
    · intro z' p'
      rw [pairRows, hw, pairRows_map, pairwise_map]
      refine (hj.distinct z' p').imp ?_
      intro a b hab ha hb
      rw [(resolveRow_keeps z p n a).2.2.2.1, (resolveRow_keeps z p n b).2.2.2.1]
      rw [resolveRow_isIntent] at ha hb
      exact hab ha hb
    · intro r hr hre
      rw [hw] at hr
      obtain ⟨a, ha, rfl⟩ := mem_map.mp hr
      have hc : ∀ r' ∈ j.rows, r'.ofPair a.zoneId a.profileId = true → a.seq < r'.seq →
          r'.settles = true → ∃ r'' ∈ (j.markResolved z p).rows,
            r''.ofPair (resolveRow z p n a).zoneId (resolveRow z p n a).profileId = true ∧
            (resolveRow z p n a).seq < r''.seq ∧ r''.settles = true := by
        intro r' hr' hpr he hs
        refine ⟨resolveRow z p n r', ?_, ?_, ?_, ?_⟩
        · rw [hw]
          exact mem_map_of_mem hr'
        · obtain ⟨hz, hp, -⟩ := resolveRow_keeps z p n a
          rw [resolveRow_ofPair, hz, hp]
          exact hpr
        · simpa only [resolveRow_seq] using he
        · rw [resolveRow_settles]
          exact hs
      rw [resolveRow_isIntent]
      obtain hold | ⟨hpr, hi, hl⟩ := resolveRow_resolved hre
      · obtain ⟨hi, r', hr', hpr, he, hs⟩ := hj.justified a ha hold
        exact ⟨hi, hc r' hr' hpr he hs⟩
      · obtain ⟨r', hr', hp', hs, rfl⟩ := threshold_eq_some hn
        have hd : a.zoneId = z ∧ a.profileId = p := by simpa [JournalRow.ofPair] using hpr
        exact ⟨hi, hc r' hr' (by rw [hd.1, hd.2]; exact hp') hl hs⟩

theorem wellWritten_empty : WellWritten empty where
  kind _ hr := absurd hr not_mem_nil
  distinct _ _ := Pairwise.nil
  justified _ hr := absurd hr not_mem_nil

theorem wellWritten_step (j : TripJournal) (op : Op) (j' : TripJournal) (hj : WellWritten j)
    (hf : FreshAttempt j op) (h : step j op = some j') : WellWritten j' := by
  cases op with
  | appendIntent z p a b o c =>
    cases h
    exact hj.insert (.inl rfl) rfl (fun _ => hf z p a b o c rfl)
  | appendRecord z p s c =>
    by_cases hs : s ∈ recordVocabulary
    · obtain rfl := mem_unique (step_appendRecord_of_mem hs) h
      refine hj.insert (.inr (.inr ⟨rfl, ?_⟩)) rfl (by simp [JournalRow.isIntent])
      exact recordStatus?_isSome_iff.mpr hs
    · obtain rfl := mem_unique (step_appendRecord_of_not_mem hs) h
      exact hj
  | appendClear z p c =>
    cases h
    exact hj.insert (.inr (.inl rfl)) rfl (by simp [JournalRow.isIntent])
  | markResolved z p =>
    cases h
    exact hj.markResolved z p

/-! ### The rows of a pair are what the operations appended -/

theorem markOf_resolveRow (z p : String) (n : ℕ) (r : JournalRow) :
    markOf (resolveRow z p n r) = markOf r := by
  obtain ⟨-, -, hk, -, hs⟩ := resolveRow_keeps z p n r
  simp only [markOf, hk, hs]

theorem marks_insert (j : TripJournal) (row : JournalRow) (z p : String) :
    ((j.insert row).pairRows z p).map markOf = (j.pairRows z p).map markOf ++
      (if row.ofPair z p then [markOf row] else []) := by
  rw [pairRows_insert, map_append]
  split_ifs <;> rfl

theorem marks_step (z p : String) (j : TripJournal) (op : Op) (j' : TripJournal)
    (h : step j op = some j') :
    (j'.pairRows z p).map markOf = (j.pairRows z p).map markOf ++ (op.mark? z p).toList := by
  cases op with
  | appendIntent z' p' a b o c =>
    cases h
    rw [appendIntent, marks_insert]
    by_cases hp : z' = z ∧ p' = p
    · simp [JournalRow.ofPair, Op.mark?, hp, markOf]
    · simp [JournalRow.ofPair, Op.mark?, hp]
  | appendRecord z' p' s c =>
    by_cases hs : s ∈ recordVocabulary
    · obtain rfl := Option.mem_unique (step_appendRecord_of_mem hs) h
      obtain ⟨cs, hc⟩ := recordStatus?_isSome_iff.mpr hs
      rw [marks_insert]
      by_cases hp : z' = z ∧ p' = p
      · simp [JournalRow.ofPair, Op.mark?, hp, markOf, pyStr?, hc]
      · simp [JournalRow.ofPair, Op.mark?, hp]
    · obtain rfl := Option.mem_unique (step_appendRecord_of_not_mem hs) h
      have ho : recordStatus? (.str s) = none := by
        by_contra hn
        exact hs (recordStatus?_isSome_iff.mp (Option.ne_none_iff_exists'.mp hn))
      simp [Op.mark?, ho]
  | appendClear z' p' c =>
    cases h
    rw [appendClear, marks_insert]
    by_cases hp : z' = z ∧ p' = p
    · simp [JournalRow.ofPair, Op.mark?, hp, markOf]
    · simp [JournalRow.ofPair, Op.mark?, hp]
  | markResolved z' p' =>
    cases h
    simp only [Op.mark?, Option.toList_none, List.append_nil]
    obtain heq | ⟨n, -, hr⟩ := markResolved_rows j z' p'
    · rw [heq]
    · rw [pairRows, hr, pairRows_map, List.map_map]
      refine List.map_congr_left ?_
      intro r _
      exact markOf_resolveRow z' p' n r

theorem marks_run (z p : String) {j' : TripJournal} {ops : List Op}
    (h : Execution.run step j ops = some j') :
    (j'.pairRows z p).map markOf = (j.pairRows z p).map markOf ++ marks z p ops := by
  induction ops generalizing j with
  | nil =>
    cases h
    simp [marks]
  | cons op ops ih =>
    obtain ⟨k, hk, hr⟩ := Execution.run_cons_eq_some_iff.mp h
    rw [ih hr, marks_step z p j op k hk, append_assoc]
    simp only [marks, filterMap_cons]
    cases op.mark? z p with
    | none | some m => simp

/-! ### The loader's walk over well-written rows -/

/-- The unresolved entry an intent row leaves in the walk. -/
def governing? (z p : String) (r : JournalRow) : Option Governing :=
  if intentIsWellFormed (intentFields z p r) z p = true then
    if r.resolved then none else some (.intent (intentFields z p r))
  else some .corrupt

def resolvedIntent (z p : String) (r : JournalRow) : Bool :=
  intentIsWellFormed (intentFields z p r) z p && r.resolved

/-- The intent rows after the last record and clear. -/
def trailingIntents (rows : List JournalRow) : List JournalRow :=
  afterLast (fun r => !r.isIntent) rows

theorem trailingIntents_concat_of_intent (hr : r.isIntent = true) :
    trailingIntents (rows ++ [r]) = trailingIntents rows ++ [r] :=
  afterLast_concat_of_neg (p := fun r : JournalRow => !r.isIntent) (by simp [hr])

theorem trailingIntents_concat_of_not_intent (hr : r.isIntent = false) :
    trailingIntents (rows ++ [r]) = [] :=
  afterLast_concat_of_pos (p := fun r : JournalRow => !r.isIntent) (by simp [hr])

/-- What the walk holds after the rows `rows`. -/
structure Walked (z p : String) (rows : List JournalRow) (st : LoadState) : Prop where
  recordStatus : st.recordStatus =
    ((sinceClear (rows.map markOf)).filterMap Mark.status?).getLast?
  unresolved : st.unresolved = (trailingIntents rows).filterMap (governing? z p)
  unjustified : st.unjustified = (trailingIntents rows).countP (resolvedIntent z p)
  attemptIds : ∀ a ∈ st.attemptIds, ∃ r ∈ rows, r.isIntent = true ∧ r.attemptId = some a

theorem walked_nil (z p : String) : Walked z p [] {} := ⟨rfl, rfl, rfl, nofun⟩

/-- A row as the writer leaves it. -/
def WellKinded (r : JournalRow) : Prop :=
  r.isIntent = true ∨ r.entryKind = .clear ∨
    (r.entryKind = .record ∧ ∃ s, recordStatus? (pyStr? r.commandStatus) = some s)

theorem attemptId_of_wellFormed (h : intentIsWellFormed (intentFields z p r) z p = true) :
    ∃ a, r.attemptId = some a := by
  cases ha : r.attemptId with
  | some a => exact ⟨a, rfl⟩
  | none => simp [intentIsWellFormed, intentFields, nonEmptyStr, pyStr?, ha] at h

theorem Walked.record {s : CommandStatus} (ht : Walked z p rows st) (hk : r.entryKind = .record)
    (hs : recordStatus? (pyStr? r.commandStatus) = some s) :
    ∃ st', loadEntry z p st (entryOf z p r) = .ok st' ∧ Walked z p (rows ++ [r]) st' := by
  have hmark : markOf r = .record s := by simp [markOf, hk, hs]
  have hi : r.isIntent = false := by simp [JournalRow.isIntent, hk]
  refine ⟨{ st with recordStatus := some s, unresolved := [], unjustified := 0 }, ?_, ?_⟩
  · simp [loadEntry, entryOf, hk, hs]
  constructor
  · simp [hmark, sinceClear_concat, Mark.isClear, Mark.status?]
  · rw [trailingIntents_concat_of_not_intent hi]
    rfl
  · rw [trailingIntents_concat_of_not_intent hi]
    rfl
  · intro a ha
    obtain ⟨b, hb, hr⟩ := ht.attemptIds a ha
    exact ⟨b, mem_append_left _ hb, hr⟩

theorem Walked.clear (hs : Walked z p rows st) (hk : r.entryKind = .clear) :
    ∃ st', loadEntry z p st (entryOf z p r) = .ok st' ∧ Walked z p (rows ++ [r]) st' := by
  have hmark : markOf r = .clear := by simp [markOf, hk]
  have hi : r.isIntent = false := by simp [JournalRow.isIntent, hk]
  refine ⟨{ st with recordStatus := none, unresolved := [], unjustified := 0 }, ?_, ?_⟩
  · simp [loadEntry, entryOf, hk]
  constructor
  · simp [hmark, sinceClear_concat, Mark.isClear]
  · rw [trailingIntents_concat_of_not_intent hi]
    rfl
  · rw [trailingIntents_concat_of_not_intent hi]
    rfl
  · intro a ha
    obtain ⟨b, hb, hr⟩ := hs.attemptIds a ha
    exact ⟨b, mem_append_left _ hb, hr⟩

theorem Walked.intent (ht : Walked z p rows st) (hr : r.isIntent = true)
    (hf : ∀ b ∈ rows, b.isIntent = true → b.attemptId ≠ r.attemptId) :
    ∃ st', loadEntry z p st (entryOf z p r) = .ok st' ∧ Walked z p (rows ++ [r]) st' := by
  have hk : r.entryKind = .intent := by simpa [JournalRow.isIntent] using hr
  have hmark : markOf r = .intent := by simp [markOf, hk]
  have hc : st.recordStatus = ((sinceClear
      ((rows ++ [r]).map markOf)).filterMap Mark.status?).getLast? := by
    simp [ht.recordStatus, hmark, sinceClear_concat, Mark.isClear, Mark.status?]
  have hi : ∀ a ∈ st.attemptIds, ∃ b ∈ rows ++ [r], b.isIntent = true ∧ b.attemptId = some a := by
    intro a ha
    obtain ⟨b, hb, hrs⟩ := ht.attemptIds a ha
    exact ⟨b, mem_append_left _ hb, hrs⟩
  cases hw : intentIsWellFormed (intentFields z p r) z p with
  | false =>
    refine ⟨{ st with unresolved := st.unresolved ++ [.corrupt] }, ?_, hc, ?_, ?_, hi⟩
    · simp [loadEntry, entryOf, hk, hw]
    · simp [trailingIntents_concat_of_intent hr, ht.unresolved, governing?, hw]
    · simp [trailingIntents_concat_of_intent hr, ht.unjustified, resolvedIntent, hw]
  | true =>
    obtain ⟨a, ha⟩ := attemptId_of_wellFormed hw
    have hn : a ∉ st.attemptIds := by
      intro hm
      obtain ⟨b, hb, hbint, hbi⟩ := ht.attemptIds a hm
      exact hf b hb hbint (hbi.trans ha.symm)
    have hi' : ∀ b ∈ a :: st.attemptIds, ∃ c ∈ rows ++ [r],
        c.isIntent = true ∧ c.attemptId = some b := by
      intro b hb
      obtain rfl | hb := mem_cons.mp hb
      · exact ⟨r, by simp, hr, ha⟩
      · exact hi b hb
    have hs : (intentFields z p r).attemptId = .str a := by simp [intentFields, pyStr?, ha]
    have hflag : (intentFields z p r).resolved = .bool r.resolved := rfl
    cases he : r.resolved with
    | true =>
      refine ⟨{ st with attemptIds := a :: st.attemptIds, unjustified := st.unjustified + 1 },
        ?_, hc, ?_, ?_, hi'⟩
      · simp [loadEntry, entryOf, hk, hw, hs, hn, hflag, he]
      · simp [trailingIntents_concat_of_intent hr, ht.unresolved, governing?, hw, he]
      · simp [trailingIntents_concat_of_intent hr, ht.unjustified, resolvedIntent, hw, he]
    | false =>
      refine ⟨{ st with attemptIds := a :: st.attemptIds, unresolved := st.unresolved ++
        [.intent (intentFields z p r)] }, ?_, hc, ?_, ?_, hi'⟩
      · simp [loadEntry, entryOf, hk, hw, hs, hn, hflag, he]
      · simp [trailingIntents_concat_of_intent hr, ht.unresolved, governing?, hw, he]
      · simp [trailingIntents_concat_of_intent hr, ht.unjustified, resolvedIntent, he]

theorem walk (hk : ∀ r ∈ rows, WellKinded r) (hd : rows.Pairwise
      (fun a b => a.isIntent = true → b.isIntent = true → a.attemptId ≠ b.attemptId)) :
    ∃ st, (rows.map (entryOf z p)).foldlM (loadEntry z p) {} = Except.ok st ∧ Walked z p rows st := by
  induction rows using List.reverseRecOn with
  | nil => exact ⟨{}, rfl, walked_nil z p⟩
  | append_singleton rows r ih =>
    obtain ⟨hrw, -, hl⟩ := pairwise_append.mp hd
    obtain ⟨st, hfold, ht⟩ := ih (fun b hb => hk b (mem_append_left _ hb)) hrw
    have he : ∃ st', loadEntry z p st (entryOf z p r) = .ok st' ∧ Walked z p (rows ++ [r]) st' := by
      obtain hr | hr | ⟨hr, s, hs⟩ := hk r (by simp)
      · exact ht.intent hr (fun b hb hbint => hl b hb r (by simp) hbint hr)
      · exact ht.clear hr
      · exact ht.record hr hs
    obtain ⟨st', hs', hw⟩ := he
    refine ⟨st', ?_, hw⟩
    rw [map_append, foldlM_append, hfold]
    simp only [map_cons, map_nil, foldlM_cons, foldlM_nil, bind, Except.bind,
      pure, Except.pure, hs']

def governingOf (z p : String) (r : JournalRow) : Governing :=
  if intentIsWellFormed (intentFields z p r) z p = true then .intent (intentFields z p r)
  else .corrupt

theorem filterMap_governing? (h : ∀ r ∈ rows, r.resolved = false) :
    rows.filterMap (governing? z p) = rows.map (governingOf z p) := by
  induction rows with
  | nil => rfl
  | cons r rows ih =>
    have hh : governing? z p r = some (governingOf z p r) := by
      simp only [governing?, governingOf, h r mem_cons_self, Bool.false_eq_true, if_false]
      split_ifs <;> rfl
    rw [filterMap_cons_some hh, map_cons, ih (fun b hb => h b (mem_cons_of_mem _ hb))]

theorem loadJournal_rows (hk : ∀ r ∈ rows, WellKinded r) (hd : rows.Pairwise
      (fun a b => a.isIntent = true → b.isIntent = true → a.attemptId ≠ b.attemptId))
    (ho : ∀ r ∈ trailingIntents rows, r.resolved = false) :
    loadJournal z p (rows.map (entryOf z p)) =
      .ok (((sinceClear (rows.map markOf)).filterMap Mark.status?).getLast?,
        (trailingIntents rows).getLast?.map (governingOf z p)) := by
  obtain ⟨st, hfold, hs⟩ := walk (z := z) (p := p) hk hd
  have hzero : st.unjustified = 0 := by
    rw [hs.unjustified, countP_eq_zero]
    intro r hr
    simp [resolvedIntent, ho r hr]
  simp only [loadJournal, hfold, hzero, ne_eq, not_true_eq_false, if_false]
  rw [hs.recordStatus, hs.unresolved, filterMap_governing? ho, List.getLast?_map]

theorem WellWritten.kinded (hj : WellWritten j) (z p : String) :
    ∀ r ∈ j.pairRows z p, WellKinded r :=
  fun r hr => hj.kind r (mem_filter.mp hr).1

theorem seq_lt_of_mem_trailingIntents (hsr : rows.Pairwise (fun a b => a.seq < b.seq))
    {r' : JournalRow} (hr : r ∈ trailingIntents rows) (hr' : r' ∈ rows)
    (ht : r'.isIntent = false) : r'.seq < r.seq := by
  have hn : r' ∉ trailingIntents rows := by
    intro hm
    have hi := eq_false_of_mem_afterLast hm
    simp [ht] at hi
  obtain heq | ⟨pre, a, hs, -⟩ := afterLast_split (p := fun r : JournalRow => !r.isIntent) rows
  · exact absurd (by rw [trailingIntents, heq]; exact hr') hn
  change rows = pre ++ a :: trailingIntents rows at hs
  have hs' : rows = (pre ++ [a]) ++ trailingIntents rows := by simpa using hs
  rw [hs'] at hr' hsr
  obtain hp | hpost := mem_append.mp hr'
  · exact (pairwise_append.mp hsr).2.2 r' hp r hr
  · exact absurd hpost hn

theorem WellWritten.trailing_open (hj : WellWritten j) (z p : String) :
    ∀ r ∈ trailingIntents (j.pairRows z p), r.resolved = false := by
  intro r hr
  by_contra he
  have hm : r ∈ j.pairRows z p := by
    obtain heq | ⟨pre, a, hsp, -⟩ :=
      afterLast_split (p := fun r : JournalRow => !r.isIntent) (j.pairRows z p)
    · exact heq ▸ hr
    · rw [hsp]
      exact mem_append_right _ (mem_cons_of_mem _ hr)
  obtain ⟨ho, hp⟩ := mem_filter.mp hm
  obtain ⟨-, r', hr', hp', hl, hse⟩ := hj.justified r ho (by simpa using he)
  have hi : r.zoneId = z ∧ r.profileId = p := by simpa [JournalRow.ofPair] using hp
  rw [hi.1, hi.2] at hp'
  have hs : r'.isIntent = false := by
    cases hk : r'.entryKind <;> simp_all [JournalRow.settles, JournalRow.isIntent]
  have hback := seq_lt_of_mem_trailingIntents (j.sorted.filter _) hr (mem_filter.mpr ⟨hr', hp'⟩) hs
  omega

theorem recordSurvives_concat (rows : List JournalRow) (r : JournalRow) :
    recordSurvives (rows ++ [r]) = match r.entryKind with
      | .record => true
      | .clear => false
      | _ => recordSurvives rows := by
  rw [recordSurvives, foldl_append]
  rfl

theorem startup_of_loadJournal {m : ZoneTripState} {tripped : Bool} {journal : List JournalEntry}
    {c : Option String} {b : ℤ} {rs : Option CommandStatus} {gov : Option Governing}
    (hload : loadJournal m.zoneId m.profileId journal = .ok (rs, gov))
    (hn : tripped = true → journal ≠ []) :
    m.startup (if tripped then some "tripped" else none) journal c b =
      m.forgetStart.load tripped rs gov b := by
  cases tripped with
  | false => simp [ZoneTripState.startup, hload]
  | true =>
    have hj : journal.isEmpty = false := by simpa using hn rfl
    have hk : Option.filter (fun s : String => decide (s ∉ ["inactive", "armed", "tripped"]))
        (some "tripped") = none := by decide
    simp only [ZoneTripState.startup, if_true, hk, hload, hj, Bool.and_false,
      Bool.false_eq_true, if_false, decide_true]

/-- The machine and the transition a start answers with, by the last row of its pair. -/
def loadedFrom (m : ZoneTripState) (b : ℤ) (last : Option JournalRow) :
    ZoneTripState × Transition :=
  match last.map (fun r => (r, markOf r)) with
  | none | some (_, .clear) =>
    ({ m with state := .inactive, commandStatus := .none },
      { state := .inactive, startupCommand :=
        some (if m.terminalState = .circuitOpen then .deEnergised else .deferred) })
  | some (r, .intent) =>
    ({ m with
        state := .tripped, commandStatus := .commandPending,
        orphaned := intentIsWellFormed (intentFields m.zoneId m.profileId r) m.zoneId m.profileId &&
          decide (r.bindingSeq ≠ some b) },
      { state := .tripped, startupCommand := some .none })
  | some (_, .record s) =>
    ({ m with state := .tripped, commandStatus := s },
      { state := .tripped, startupCommand := some .none })

theorem governingOf_orphans (z p : String) (r : JournalRow) (b : ℤ) :
    (governingOf z p r).orphans b =
    (intentIsWellFormed (intentFields z p r) z p && decide (r.bindingSeq ≠ some b)) := by
  cases hw : intentIsWellFormed (intentFields z p r) z p with
  | false => simp [governingOf, hw, Governing.orphans]
  | true =>
    simp only [governingOf, hw, if_true, Bool.true_and, Governing.orphans]
    cases hs : r.bindingSeq <;> simp [intentFields, pyInt?, hs]

theorem startup_load (hj : WellWritten j) (m : ZoneTripState) (c : Option String) (b : ℤ) :
    m.startup (j.load m.zoneId m.profileId).1 (j.load m.zoneId m.profileId).2 c b =
      ((loadedFrom m.forgetStart b (j.pairRows m.zoneId m.profileId).getLast?).1,
        .ok (loadedFrom m.forgetStart b (j.pairRows m.zoneId m.profileId).getLast?).2) := by
  have hwalk := loadJournal_rows (z := m.zoneId) (p := m.profileId)
    (hj.kinded m.zoneId m.profileId) (hj.distinct m.zoneId m.profileId)
    (hj.trailing_open m.zoneId m.profileId)
  have hk := hj.kinded m.zoneId m.profileId
  simp only [load]
  generalize j.pairRows m.zoneId m.profileId = rows at hwalk hk ⊢
  have he : recordSurvives rows = true → rows.map (entryOf m.zoneId m.profileId) ≠ [] := by
    rintro hu hn
    rw [map_eq_nil_iff.mp hn] at hu
    simp [recordSurvives] at hu
  rw [startup_of_loadJournal hwalk he]
  induction rows using List.reverseRecOn with
  | nil => simp [trailingIntents, sinceClear, recordSurvives, ZoneTripState.load, loadedFrom]
  | append_singleton rows r _ =>
    rw [recordSurvives_concat]
    obtain hr | hr | ⟨hr, s, hs⟩ := hk r (by simp)
    · have hd : r.entryKind = .intent := by simpa [JournalRow.isIntent] using hr
      have hmark : markOf r = .intent := by simp [markOf, hd]
      simp only [trailingIntents_concat_of_intent hr, List.getLast?_concat, map_some,
        ZoneTripState.load, loadedFrom, hmark, governingOf_orphans]
      rfl
    · have hi : r.isIntent = false := by simp [JournalRow.isIntent, hr]
      have hmark : markOf r = .clear := by simp [markOf, hr]
      simp [trailingIntents_concat_of_not_intent hi, hmark, hr, loadedFrom, ZoneTripState.load,
        sinceClear_concat, Mark.isClear]
    · have hi : r.isIntent = false := by simp [JournalRow.isIntent, hr]
      have hmark : markOf r = .record s := by simp [markOf, hr, hs]
      simp [trailingIntents_concat_of_not_intent hi, hmark, hr, loadedFrom, ZoneTripState.load,
        sinceClear_concat, Mark.isClear, Mark.status?]

/-- Whatever the sequence of journal operations, the load that follows is accepted, latches exactly
the pairs with an intent or a record after their last clear, and carries the status the last of
these says; no resolution mark lacks a later record or clear. -/
theorem load_agrees {ops : List Op} {j : TripJournal} (hrun : Execution.run step empty ops = some j)
    (hfresh : Execution.Meets step FreshAttempt empty ops) (m : ZoneTripState)
    (c : Option String) (b : ℤ) :
    let loaded := m.startup (j.load m.zoneId m.profileId).1 (j.load m.zoneId m.profileId).2 c b
    let ms := marks m.zoneId m.profileId ops
    (∃ t, loaded.2 = .ok t) ∧ (loaded.1.state = .tripped ↔ sinceClear ms ≠ []) ∧
      (lateIntents ms ≠ [] → loaded.1.commandStatus = .commandPending) ∧
      (loaded.1.state = .tripped → lateIntents ms = [] →
        (ms.filterMap Mark.status?).getLast? = some loaded.1.commandStatus) ∧
      ∀ r ∈ j.rows, r.resolved = true → r.isIntent = true ∧
        ∃ r' ∈ j.rows, r'.ofPair r.zoneId r.profileId = true ∧ r.seq < r'.seq ∧ r'.settles = true := by
  intro loaded ms
  have hj := Execution.run_invariant_of_meets wellWritten_step wellWritten_empty hfresh hrun
  have hmarks : (j.pairRows m.zoneId m.profileId).map markOf = ms := by
    simpa [pairRows, empty] using marks_run m.zoneId m.profileId hrun
  have hloaded : loaded = _ := startup_load hj m c b
  have hstate : (loaded.1.state = .tripped ↔ sinceClear ms ≠ []) ∧
      (lateIntents ms ≠ [] → loaded.1.commandStatus = .commandPending) ∧
      (loaded.1.state = .tripped → lateIntents ms = [] →
        (ms.filterMap Mark.status?).getLast? = some loaded.1.commandStatus) := by
    rw [hloaded, ← hmarks]
    generalize j.pairRows m.zoneId m.profileId = rows
    induction rows using List.reverseRecOn with
    | nil => simp [loadedFrom, sinceClear, lateIntents]
    | append_singleton rows r _ =>
      simp only [List.getLast?_concat, map_some, map_append, map_singleton,
        loadedFrom, sinceClear_concat, lateIntents_concat]
      cases markOf r with
      | intent => simp [Mark.isClear, Mark.isIntent]
      | record s => simp [Mark.isClear, Mark.isIntent, Mark.status?]
      | clear => simp [Mark.isClear, Mark.isIntent]
  exact ⟨⟨_, by rw [hloaded]⟩, hstate.1, hstate.2.1, hstate.2.2, hj.justified⟩

/-- A refused attempt, a second intent, and the resolution mark that lands behind it. -/
def retriedOps : List Op :=
  [.appendIntent "z1" "p1" "a1" 1 openProtectedCircuit 10,
    .appendRecord "z1" "p1" "driver_refused" 11,
    .appendIntent "z1" "p1" "a2" 1 openProtectedCircuit 12, .markResolved "z1" "p1"]

theorem load_agrees_retried :
    let m : ZoneTripState := { zoneId := "z1", profileId := "p1", terminalState := .circuitOpen }
    ∃ j, Execution.run step empty retriedOps = some j ∧
      (m.startup (j.load "z1" "p1").1 (j.load "z1" "p1").2 none 1).1.state = .tripped := by
  intro m
  have hfresh : Execution.Meets step FreshAttempt empty retriedOps := by
    refine Execution.meets_cons ?_ rfl (Execution.meets_cons nofun rfl
      (Execution.meets_cons ?_ rfl (Execution.meets_cons nofun rfl trivial)))
    · intro z p a b o c hop r hr
      simp [empty] at hr
    · intro z p a b o c hop
      injection hop with hz hp ha
      subst hz hp ha
      decide
  exact ⟨_, rfl, (load_agrees rfl hfresh m none 1).2.1.mpr (by decide)⟩

end OriRuntime.TripJournal
