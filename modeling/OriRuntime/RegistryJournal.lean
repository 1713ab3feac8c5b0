import OriRuntime.DeferredStartup
import OriRuntime.JournalLoad

/-!
# What the registry writes

Over any number of starts, readings, retries and crashes the journal stays well written: an intent
reaches it once, under an attempt id of its own, with the fields of an accepted pair. Every start on
such a journal is accepted.
-/

namespace OriRuntime

/-- The fields of an intent as an accepted pair's attempt fills them. -/
def IntentOk (zoneId profileId attemptId : String) (bindingSeq : ℤ) (outcome : String)
    (createdAtMs : ℤ) : Prop :=
  zoneId ≠ "" ∧ profileId ≠ "" ∧ attemptId ≠ "" ∧ 0 < bindingSeq ∧
    outcome = openProtectedCircuit ∧ 0 < createdAtMs

def IntentTask.Ok (t : IntentTask) : Prop :=
  IntentOk t.pair.1 t.pair.2 t.attemptId t.bindingSeq t.outcome t.createdAtMs

def JournalRow.IntentWritten (r : JournalRow) : Prop :=
  ∃ attemptId bindingSeq outcome, r.attemptId = some attemptId ∧ r.bindingSeq = some bindingSeq ∧
    r.outcome = some outcome ∧
    IntentOk r.zoneId r.profileId attemptId bindingSeq outcome r.createdAtMs

theorem JournalRow.IntentWritten.wellFormed {r : JournalRow} (h : r.IntentWritten) :
    intentIsWellFormed (TripJournal.intentFields r.zoneId r.profileId r) r.zoneId r.profileId =
      true := by
  obtain ⟨attemptId, bindingSeq, outcome, ha, hb, ho, hz, hp, hi, hs, hu, ht⟩ := h
  simp [intentIsWellFormed, TripJournal.intentFields, TripJournal.pyStr?, TripJournal.pyInt?, ha, hb,
    ho, nonEmptyStr, positiveInt, isBool, hz, hp, hi, hs, hu, ht]

namespace Registry

/-- The journal and the appends under way. -/
structure Booked (s : Registry) : Prop where
  written : TripJournal.WellWritten s.journal
  intents : ∀ r ∈ s.journal.rows, r.isIntent = true → r.IntentWritten
  ok : ∀ k t, s.tasks k = some t → t.Ok
  counted : ∀ k t, s.tasks k = some t → k < s.taskCount
  distinct : ∀ k k' t t', s.tasks k = some t → s.tasks k' = some t' → t.attemptId = t'.attemptId →
    k = k'
  unwritten : ∀ k t, s.tasks k = some t → t.written = false →
    ∀ r ∈ s.journal.rows, r.attemptId ≠ some t.attemptId

variable {s s' : Registry} {j : TripJournal} {now : ℤ} {attemptId : String} {m : ZoneTripState}
  {pair : Pair}

theorem Booked.congr (hs : Booked s) (hj : s'.journal = s.journal)
    (ht : s'.tasks = s.tasks) (hc : s'.taskCount = s.taskCount) : Booked s' := by
  constructor
  · rw [hj]
    exact hs.written
  · rw [hj]
    exact hs.intents
  · rw [ht]
    exact hs.ok
  · rw [ht, hc]
    exact hs.counted
  · rw [ht]
    exact hs.distinct
  · rw [ht, hj]
    exact hs.unwritten

theorem Booked.write (hs : Booked s) (hwr : TripJournal.WellWritten j)
    (hrw : ∀ r ∈ j.rows, (r.isIntent = true → r.IntentWritten) ∧
      (r.attemptId = none ∨ ∃ r₀ ∈ s.journal.rows, r.attemptId = r₀.attemptId)) :
    Booked { s with journal := j } := by
  refine ⟨hwr, fun r hr => (hrw r hr).1, hs.ok, hs.counted, hs.distinct, ?_⟩
  intro k t ht hw r hr
  obtain hn | ⟨r₀, hr₀, heq⟩ := (hrw r hr).2
  · simp [hn]
  · rw [heq]
    exact hs.unwritten k t ht hw r₀ hr₀

theorem Booked.insert (hs : Booked s) {row : JournalRow} (hk : row.entryKind = .clear ∨
      (row.entryKind = .record ∧ ∃ c, recordStatus? (TripJournal.pyStr? row.commandStatus) = some c))
    (ho : row.attemptId = none) (hrs : row.resolved = false) :
    Booked { s with journal := s.journal.insert row } := by
  have hn : row.isIntent = false := by
    obtain hc | ⟨he, -⟩ := hk
    · simp [JournalRow.isIntent, hc]
    · simp [JournalRow.isIntent, he]
  refine hs.write (hs.written.insert (.inr hk) hrs (by simp [hn])) ?_
  intro r hr
  obtain hr | rfl := TripJournal.mem_insert.mp hr
  · exact ⟨hs.intents r hr, .inr ⟨r, hr, rfl⟩⟩
  · exact ⟨fun hi => absurd (hn.symm.trans hi) (by simp), .inl ho⟩

theorem Booked.appendRecord (hs : Booked s) {z p status : String}
    (h : s.journal.appendRecord z p status now = .ok j) : Booked { s with journal := j } := by
  unfold TripJournal.appendRecord at h
  split_ifs at h with ht
  cases h
  exact hs.insert (.inr ⟨rfl, TripJournal.recordStatus?_isSome_iff.mpr ht⟩) rfl rfl

theorem Booked.markResolved (hs : Booked s) (z p : String) :
    Booked { s with journal := s.journal.markResolved z p } := by
  refine hs.write (hs.written.markResolved z p) ?_
  intro r hr
  obtain heq | ⟨n, -, hrw⟩ := TripJournal.markResolved_rows s.journal z p
  · rw [heq] at hr
    exact ⟨hs.intents r hr, .inr ⟨r, hr, rfl⟩⟩
  · rw [hrw] at hr
    obtain ⟨r₀, hr₀, rfl⟩ := List.mem_map.mp hr
    refine ⟨fun hi => ?_, .inr ⟨r₀, hr₀, (TripJournal.resolveRow_keeps z p n r₀).2.2.2.1⟩⟩
    rw [TripJournal.resolveRow_isIntent] at hi
    have hw := hs.intents r₀ hr₀ hi
    unfold TripJournal.resolveRow
    split_ifs
    all_goals exact hw

variable {k : ℕ} {t : IntentTask} {e : ActivePair} {o : Owner} {sig : Signal} {rest : List Pair}

theorem Booked.landTask (hs : Booked s) (ht : s.tasks k = some t) (hw : t.written = false) :
    Booked (s.landTask k t) := by
  have ho := hs.ok k t ht
  have hk : ∀ k' t', (s.landTask k t).tasks k' = some t' →
      (k' = k ∧ t' = { t with written := true }) ∨ (k' ≠ k ∧ s.tasks k' = some t') := by
    intro k' t' ht'
    simp only [Registry.landTask, setTask, Function.update_apply] at ht'
    split_ifs at ht' with heq
    · exact .inl ⟨heq, (Option.some.inj ht').symm⟩
    · exact .inr ⟨heq, ht'⟩
  have hkeep : ∀ k' t', (s.landTask k t).tasks k' = some t' →
      ∃ t₀, s.tasks k' = some t₀ ∧ t'.attemptId = t₀.attemptId ∧ (t₀.Ok → t'.Ok) := by
    intro k' t' ht'
    obtain ⟨rfl, rfl⟩ | ⟨-, ht'⟩ := hk k' t' ht'
    · exact ⟨t, ht, rfl, id⟩
    · exact ⟨t', ht', rfl, id⟩
  constructor
  · refine hs.written.insert (.inl rfl) rfl (fun _ r hr _ _ => ?_)
    exact hs.unwritten k t ht hw r hr
  · intro r hr hi
    obtain hr | rfl := TripJournal.mem_insert.mp hr
    · exact hs.intents r hr hi
    · exact ⟨_, _, _, rfl, rfl, rfl, ho⟩
  · intro k' t' ht'
    obtain ⟨t₀, ht₀, -, ho'⟩ := hkeep k' t' ht'
    exact ho' (hs.ok k' t₀ ht₀)
  · intro k' t' ht'
    obtain ⟨t₀, ht₀, -⟩ := hkeep k' t' ht'
    exact hs.counted k' t₀ ht₀
  · intro k₁ k₂ t₁ t₂ h₁ h₂ hd
    obtain ⟨u₁, hu₁, hi₁, -⟩ := hkeep k₁ t₁ h₁
    obtain ⟨u₂, hu₂, hi₂, -⟩ := hkeep k₂ t₂ h₂
    exact hs.distinct k₁ k₂ u₁ u₂ hu₁ hu₂ (by rw [← hi₁, ← hi₂, hd])
  · intro k' t' ht' hw' r hr
    obtain ⟨rfl, rfl⟩ | ⟨hn, ht'⟩ := hk k' t' ht'
    · simp at hw'
    obtain hr | rfl := TripJournal.mem_insert.mp hr
    · exact hs.unwritten k' t' ht' hw' r hr
    · intro hd
      exact hn (hs.distinct k' k t' t ht' ht (Option.some.inj hd).symm)

theorem Booked.startAttempt (hs : Booked s) {p : Pair} (hc : s.assembly.active.get? p = some e)
    (hf : s.attemptIdFresh attemptId = true) (hn : 0 < now) :
    Booked (s.startAttempt o p e attemptId now) := by
  simp only [attemptIdFresh, Bool.and_eq_true, decide_eq_true_eq, List.all_eq_true,
    List.mem_range] at hf
  obtain ⟨⟨he, hj⟩, hta⟩ := hf
  have ho : ∀ k t, s.tasks k = some t → t.attemptId ≠ attemptId := by
    intro k t ht
    have hl := hta k (hs.counted k t ht)
    simpa [ht] using hl
  have ha := s.assembly.accepted p e hc
  have hok : IntentOk p.1 p.2 attemptId e.bindingSeq e.outcome now :=
    ⟨ha.zoneId_ne, ha.profileId_ne, he, by rw [ha.bindingSeq_eq]; exact ha.bindingSeq_pos,
      ha.outcome_eq, hn⟩
  have hk : ∀ k t, (s.startAttempt o p e attemptId now).tasks k = some t →
      (k = s.taskCount ∧ t.attemptId = attemptId ∧ t.Ok) ∨ s.tasks k = some t := by
    intro k t ht
    simp only [Registry.startAttempt, Function.update_apply] at ht
    split_ifs at ht with heq
    · cases ht
      exact .inl ⟨heq, rfl, hok⟩
    · exact .inr ht
  refine ⟨hs.written, hs.intents, ?_, ?_, ?_, ?_⟩
  · intro k t ht
    obtain ⟨-, -, hot⟩ | ht := hk k t ht
    · exact hot
    · exact hs.ok k t ht
  · intro k t ht
    obtain ⟨rfl, -⟩ | ht := hk k t ht
    · exact Nat.lt_succ_self _
    · exact Nat.lt_succ_of_lt (hs.counted k t ht)
  · intro k₁ k₂ t₁ t₂ h₁ h₂ hi
    obtain ⟨e₁, hi₁, -⟩ | h₁ := hk k₁ t₁ h₁
    · obtain ⟨e₂, -⟩ | h₂ := hk k₂ t₂ h₂
      · rw [e₁, e₂]
      · exact absurd (hi.symm.trans hi₁) (ho k₂ t₂ h₂)
    · obtain ⟨-, hi₂, -⟩ | h₂ := hk k₂ t₂ h₂
      · exact absurd (hi.trans hi₂) (ho k₁ t₁ h₁)
      · exact hs.distinct k₁ k₂ t₁ t₂ h₁ h₂ hi
  · intro k t ht hw r hr
    obtain ⟨-, hi, -⟩ | ht := hk k t ht
    · rw [hi]
      exact hj r hr
    · exact hs.unwritten k t ht hw r hr

/-! ### The steps of the registry -/

/-- The store as a step leaves it: the same, or one record or one resolution mark further. -/
inductive StoreStep (s s' : Registry) : Prop
  | same (hjournal : s'.journal = s.journal)
  | record (z p status : String) (now : ℤ)
      (hjournal : s.journal.appendRecord z p status now = .ok s'.journal)
  | mark (z p : String) (hjournal : s'.journal = s.journal.markResolved z p)

theorem Booked.store (hs : Booked s) (ht : s'.tasks = s.tasks)
    (hc : s'.taskCount = s.taskCount) (h : StoreStep s s') : Booked s' := by
  cases h with
  | same hj => exact hs.congr hj ht hc
  | record z p status now hj =>
    exact (hs.appendRecord hj).congr rfl ht hc
  | mark z p hj => exact (hs.markResolved z p).congr hj ht hc

theorem attemptIdFresh_congr (hj : s'.journal = s.journal) (ht : s'.tasks = s.tasks)
    (hc : s'.taskCount = s.taskCount) (attemptId : String) :
    s'.attemptIdFresh attemptId = s.attemptIdFresh attemptId := by
  simp only [attemptIdFresh, hj, ht, hc]

theorem Booked.retryPair (hs : Booked s) (hf : s.attemptIdFresh attemptId = true)
    (hn : 0 < now) : Booked (s.retryPair pair rest attemptId now) := by
  obtain ⟨unsettled, hv⟩ := intentSettled_view s pair
  unfold Registry.retryPair
  simp only [hv]
  split_ifs
  · split
    · exact hs.congr rfl rfl rfl
    rename_i e ha
    refine Booked.startAttempt ?_ ha ?_ hn
    · exact hs.congr rfl rfl rfl
    · rw [← hf]
      exact attemptIdFresh_congr rfl rfl rfl attemptId
  · exact hs.congr rfl rfl rfl

theorem Booked.observePair (hs : Booked s) {i : ℕ} {f : ReadingFrame}
    (ha : s.assembly.active.get? pair = some e) (hf : s.attemptIdFresh attemptId = true)
    (hn : 0 < now) (h : s.observePair i f pair rest e m attemptId now = some s') : Booked s' := by
  unfold Registry.observePair at h
  simp only at h
  split at h
  · simp at h
  split_ifs at h
  · cases h
    refine Booked.startAttempt ?_ ha ?_ hn
    · exact hs.congr rfl rfl rfl
    · rw [← hf]
      exact attemptIdFresh_congr rfl rfl rfl attemptId
  · cases h
    exact hs.congr rfl rfl rfl

theorem LoadedAs.eq {a : Assembly} (hj : TripJournal.WellWritten j) (h : LoadedAs a j pair m) :
    m = if (a.active.get? pair).isNone then
        (TripJournal.loadedFrom (freshMachine a pair) a.bindingSeq
          (j.pairRows pair.1 pair.2).getLast?).1.bindingRemoved
      else (TripJournal.loadedFrom (freshMachine a pair) a.bindingSeq
          (j.pairRows pair.1 pair.2).getLast?).1 := by
  obtain ⟨m₀, t, hs, rfl⟩ := h
  have hload := TripJournal.startup_load hj (freshMachine a pair) none a.bindingSeq
  have heq := hs.symm.trans hload
  rw [(Prod.mk.inj heq).1]
  rfl

end Registry

end OriRuntime
