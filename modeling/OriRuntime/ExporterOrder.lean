import OriRuntime.ExporterConserved

/-!
# Batches in order, and attempted under a credential that was not refused

A batch formed once keeps its sequence and events for good. The batches held are sorted, a flush
attempts them from the oldest on and stops where it retains one, and a batch is abandoned after the
receiver has answered it five times.
-/

namespace OriRuntime

open Execution

variable {ε : Type}

/-- The receiver answered an attempt of this batch without confirming it. -/
def ExportAttempt.answers (sequence : ℕ) (a : ExportAttempt ε) : Bool :=
  decide (a.sequence = sequence) && a.ending.answered

/-- What a batch held and a batch attempted have in common with the one formed. -/
def FormedAs (formed : List (PendingBatch ε)) (sequence : ℕ) (events : List ε) : Prop :=
  ∃ b ∈ formed, b.sequence = sequence ∧ b.events = events

structure OrderedBatches (formed : List (PendingBatch ε)) (sequence flushes : ℕ)
    (attempts : List (ExportAttempt ε)) (held : List (PendingBatch ε)) : Prop where
  numbered : formed.map (·.sequence) = List.range' 1 sequence
  known : ∀ b ∈ held, FormedAs formed b.sequence b.events
  attempted : ∀ a ∈ attempts, FormedAs formed a.sequence a.events
  sorted : held.Pairwise (fun a b => a.sequence < b.sequence)
  counted : ∀ b ∈ held, b.unconfirmedAttempts = attempts.countP (ExportAttempt.answers b.sequence)
  abandoned : ∀ a ∈ attempts, a.ending = .abandoned →
    maxUnconfirmedAttempts ≤ attempts.countP (ExportAttempt.answers a.sequence)
  past : ∀ a ∈ attempts, a.flush ≤ flushes
  inFlush : attempts.Pairwise (fun a b =>
    a.flush = b.flush → a.sequence < b.sequence ∧ a.ending.continues = true)

namespace OrderedBatches

variable {formed held : List (PendingBatch ε)} {sequence flushes : ℕ}
  {attempts : List (ExportAttempt ε)}

variable {events : List ε} {s : ℕ} {held' later : List (PendingBatch ε)} {batch : PendingBatch ε}

theorem formed_bounds (h : OrderedBatches formed sequence flushes attempts held)
    (hb : FormedAs formed s events) : 1 ≤ s ∧ s ≤ sequence := by
  obtain ⟨b, hb, rfl, -⟩ := hb
  have hmem : b.sequence ∈ formed.map (·.sequence) := List.mem_map_of_mem hb
  rw [h.numbered, List.mem_range'_1] at hmem
  omega

theorem sublist (h : OrderedBatches formed sequence flushes attempts held)
    (hsub : held'.Sublist held) : OrderedBatches formed sequence flushes attempts held' :=
  ⟨h.numbered, fun b hb => h.known b (hsub.mem hb), h.attempted, h.sorted.sublist hsub,
    fun b hb => h.counted b (hsub.mem hb), h.abandoned, h.past, h.inFlush⟩

theorem later_flush (h : OrderedBatches formed sequence flushes attempts held) :
    OrderedBatches formed sequence (flushes + 1) attempts held :=
  { h with past := fun a ha => (h.past a ha).trans (Nat.le_succ _) }

theorem form (h : OrderedBatches formed sequence flushes attempts held) (events : List ε) :
    OrderedBatches (formed ++ [⟨sequence + 1, events, 0⟩]) (sequence + 1) flushes attempts
      (held ++ [⟨sequence + 1, events, 0⟩]) where
  numbered := by
    rw [List.map_append, h.numbered, List.range'_1_concat]
    simp [Nat.add_comm]
  known b hb := by
    rcases List.mem_append.mp hb with hold | hnew
    · obtain ⟨f, hf, hsame⟩ := h.known b hold
      exact ⟨f, List.mem_append_left _ hf, hsame⟩
    · exact ⟨b, List.mem_append_right _ hnew, rfl, rfl⟩
  attempted a ha := by
    obtain ⟨f, hf, hsame⟩ := h.attempted a ha
    exact ⟨f, List.mem_append_left _ hf, hsame⟩
  sorted := by
    rw [List.pairwise_append]
    refine ⟨h.sorted, List.pairwise_singleton _ _, ?_⟩
    intro a ha b hb
    have := (h.formed_bounds (h.known a ha)).2
    rw [List.mem_singleton.mp hb]
    exact Nat.lt_succ_of_le this
  counted b hb := by
    rcases List.mem_append.mp hb with hold | hnew
    · exact h.counted b hold
    · rw [List.mem_singleton.mp hnew, eq_comm, List.countP_eq_zero]
      intro a ha hanswers
      have hle := (h.formed_bounds (h.attempted a ha)).2
      have heq : a.sequence = sequence + 1 := of_decide_eq_true (Bool.and_eq_true_iff.mp hanswers).1
      omega
  abandoned := h.abandoned
  past := h.past
  inFlush := h.inFlush

/-- The flush under way has attempted older batches only, and resolved each. -/
def Current (flushes : ℕ) (attempts : List (ExportAttempt ε)) (held : List (PendingBatch ε)) : Prop :=
  ∀ a ∈ attempts, a.flush = flushes →
    a.ending.continues = true ∧ ∀ b ∈ held, a.sequence < b.sequence

theorem attempt (h : OrderedBatches formed sequence flushes attempts (batch :: later))
    (hcurrent : Current flushes attempts (batch :: later)) (key : Text) (ending : AttemptEnd)
    (hlimit : ending = .abandoned → maxUnconfirmedAttempts ≤ batch.unconfirmedAttempts + 1)
    (hheld : held' = later ∨ held' =
      { batch with
        unconfirmedAttempts :=
          if ending.answered then batch.unconfirmedAttempts + 1
          else batch.unconfirmedAttempts } :: later) :
    OrderedBatches formed sequence flushes
      (attempts ++ [⟨flushes, key, batch.sequence, batch.events, ending⟩]) held' := by
  obtain ⟨hnewer, hsorted⟩ := List.pairwise_cons.mp h.sorted
  have hbatch := h.counted batch List.mem_cons_self
  have hlast : ∀ s, [(⟨flushes, key, batch.sequence, batch.events, ending⟩ : ExportAttempt ε)].countP
      (ExportAttempt.answers s) = if batch.sequence = s ∧ ending.answered = true then 1 else 0 := by
    simp [ExportAttempt.answers, List.countP_cons]
  have hlater : ∀ b ∈ later, b.unconfirmedAttempts = (attempts ++
      [(⟨flushes, key, batch.sequence, batch.events, ending⟩ : ExportAttempt ε)]).countP
        (ExportAttempt.answers b.sequence) := by
    intro b hb
    have hne := hnewer b hb
    rw [List.countP_append, hlast, if_neg (by omega), Nat.add_zero]
    exact h.counted b (List.mem_cons_of_mem _ hb)
  refine ⟨h.numbered, ?_, ?_, ?_, ?_, ?_, ?_, ?_⟩
  · intro b hb
    rcases hheld with rfl | rfl
    · exact h.known b (List.mem_cons_of_mem _ hb)
    · rcases List.mem_cons.mp hb with rfl | hb
      · exact h.known batch List.mem_cons_self
      · exact h.known b (List.mem_cons_of_mem _ hb)
  · intro a ha
    rcases List.mem_append.mp ha with hold | hnew
    · exact h.attempted a hold
    · rw [List.mem_singleton.mp hnew]
      exact h.known batch List.mem_cons_self
  · rcases hheld with rfl | rfl
    · exact hsorted
    · exact List.pairwise_cons.mpr ⟨hnewer, hsorted⟩
  · intro b hb
    rcases hheld with rfl | rfl
    · exact hlater b hb
    · rcases List.mem_cons.mp hb with rfl | hb
      · dsimp only
        rw [List.countP_append, hlast]
        cases ending.answered with
        | true | false => simpa using hbatch
      · exact hlater b hb
  · intro a ha habandoned
    rw [List.countP_append]
    rcases List.mem_append.mp ha with hold | hnew
    · exact (h.abandoned a hold habandoned).trans (Nat.le_add_right _ _)
    · rw [List.mem_singleton.mp hnew] at habandoned ⊢
      dsimp only at habandoned ⊢
      have := hlimit habandoned
      rw [hlast, if_pos ⟨rfl, by rw [habandoned]; rfl⟩, ← hbatch]
      exact this
  · intro a ha
    rcases List.mem_append.mp ha with hold | hnew
    · exact h.past a hold
    · rw [List.mem_singleton.mp hnew]
  · rw [List.pairwise_append]
    refine ⟨h.inFlush, List.pairwise_singleton _ _, ?_⟩
    intro a ha b hb hflush
    rw [List.mem_singleton.mp hb] at hflush ⊢
    obtain ⟨hcontinues, holder⟩ := hcurrent a ha hflush
    exact ⟨holder batch List.mem_cons_self, hcontinues⟩

theorem Current.attempt (h : OrderedBatches formed sequence flushes attempts (batch :: later))
    (hcurrent : Current flushes attempts (batch :: later)) (key : Text) (ending : AttemptEnd)
    (hcontinues : ending.continues = true) :
    Current flushes (attempts ++ [⟨flushes, key, batch.sequence, batch.events, ending⟩]) later := by
  intro a ha hflush
  rcases List.mem_append.mp ha with hold | hnew
  · obtain ⟨hold, holder⟩ := hcurrent a hold hflush
    exact ⟨hold, fun b hb => holder b (List.mem_cons_of_mem _ hb)⟩
  · rw [List.mem_singleton.mp hnew]
    exact ⟨hcontinues, (List.pairwise_cons.mp h.sorted).1⟩

end OrderedBatches

/-! ### The credential that was refused -/

/-- The credential nothing may be sent under, by what was presented and attempted so far. -/
def barredBy : Option Text → ExportEntry ε → Option Text
  | bar, .attempt a => if a.ending = .suspended then some a.key else bar
  | none, .presented _ => none
  | some key, .presented key' => if key' ≠ [] ∧ key' ≠ key then none else some key

def barred (log : List (ExportEntry ε)) : Option Text := log.foldl barredBy none

theorem barred_snoc (log : List (ExportEntry ε)) (entry : ExportEntry ε) :
    barred (log ++ [entry]) = barredBy (barred log) entry := by
  unfold barred
  rw [List.foldl_append]
  rfl

/-- Every attempt was made when no credential was barred. -/
def Unbarred (log : List (ExportEntry ε)) : Prop :=
  ∀ before a after, log = before ++ ExportEntry.attempt a :: after → barred before = none

theorem Unbarred.snoc {log : List (ExportEntry ε)} (h : Unbarred log) {entry : ExportEntry ε}
    (hentry : ∀ a, entry = .attempt a → barred log = none) : Unbarred (log ++ [entry]) := by
  intro before a after heq
  rcases List.eq_nil_or_concat after with rfl | ⟨after, last, rfl⟩
  · obtain ⟨rfl, hlast⟩ := List.append_inj' heq rfl
    exact hentry a (List.singleton_inj.mp hlast)
  · rw [List.concat_eq_append, ← List.cons_append, ← List.append_assoc] at heq
    exact h before a after (List.append_inj' heq rfl).1

namespace HttpExporter

variable {x y : HttpExporter ε}

structure Ordered (x : HttpExporter ε) : Prop where
  batches : OrderedBatches x.formed x.sequence x.flushes x.attempts (x.inFlight ++ x.retained)
  current : x.flush.isSome = true → OrderedBatches.Current x.flushes x.attempts x.inFlight
  bar : ∀ key, barred x.log = some key → x.refusedCredential = some key
  unbarred : Unbarred x.log

theorem attempts_record (x : HttpExporter ε) (f : Flush ε) (ending : AttemptEnd) :
    (x.record f ending).attempts =
      x.attempts ++ [⟨x.flushes, f.key, f.batch.sequence, f.batch.events, ending⟩] := by
  simp [attempts, record, ExportEntry.attempt?]

namespace Ordered

theorem handleEvent (h : Ordered x) (event : ε) : Ordered (x.handleEvent event) := by
  unfold HttpExporter.handleEvent dropNew
  dsimp only
  split_ifs <;> exact { h with }

theorem idle (hflush : y.flush = none)
    (hbatches : OrderedBatches y.formed y.sequence y.flushes y.attempts y.retained)
    (hbar : ∀ key, barred y.log = some key → y.refusedCredential = some key)
    (hunbarred : Unbarred y.log) : Ordered y := by
  refine ⟨?_, ?_, hbar, hunbarred⟩
  · rw [inFlight_of_none hflush, List.nil_append]
    exact hbatches
  · rw [hflush]
    nofun

theorem takePending (h : OrderedBatches x.formed x.sequence x.flushes x.attempts x.retained) :
    OrderedBatches x.takePending.2.formed x.takePending.2.sequence x.takePending.2.flushes
      x.takePending.2.attempts x.takePending.1 := by
  unfold HttpExporter.takePending
  dsimp only
  split_ifs
  · rw [List.append_nil, List.append_nil]
    exact h
  · exact h.form _

variable [DecidableEq ε]

theorem sendPending (hc : Conserved x []) (hflush : x.flush = none)
    (h : OrderedBatches x.formed x.sequence x.flushes x.attempts x.retained)
    (hfresh : ∀ a ∈ x.attempts, a.flush < x.flushes) (hbar : barred x.log = none)
    (hunbarred : Unbarred x.log) (apiKey : Text) : Ordered (x.sendPending apiKey) := by
  have htaken := takePending h
  have hconserved := hc.takePending
  have hsame : x.takePending.2.flush = none ∧ x.takePending.2.retained = [] ∧
      x.takePending.2.log = x.log ∧ x.takePending.2.flushes = x.flushes :=
    ⟨hflush, rfl, rfl, rfl⟩
  unfold HttpExporter.sendPending
  generalize x.takePending = taken at htaken hconserved hsame
  obtain ⟨pending, y⟩ := taken
  obtain ⟨hflush', hretained', hlog', hflushes'⟩ := hsame
  dsimp only at htaken hconserved hflush' hretained' hlog' hflushes' ⊢
  have hbar' : ∀ key, barred y.log = some key → y.refusedCredential = some key := by
    rw [hlog', hbar]
    nofun
  have hunbarred' : Unbarred y.log := hlog' ▸ hunbarred
  cases pending with
  | nil =>
    refine idle hflush' ?_ hbar' hunbarred'
    rw [hretained']
    exact htaken
  | cons batch later =>
    dsimp only
    split_ifs with hkey
    · have hready : Conserved { y with inFlightEvents := 0 } (batch :: later) := { hconserved with }
      rw [(hready.retain rfl).1]
      refine idle hflush' ?_ hbar' hunbarred'
      rw [hretained', List.append_nil]
      exact htaken
    · refine ⟨?_, ?_, hbar', hunbarred'⟩
      · change OrderedBatches y.formed y.sequence y.flushes y.attempts
          ((batch :: later) ++ y.retained)
        rw [hretained', List.append_nil]
        exact htaken
      · intro _ a ha heq
        have hsameAttempts : y.attempts = x.attempts := by
          unfold attempts
          rw [hlog']
        have hlt := hfresh a (hsameAttempts ▸ ha)
        change a.flush = y.flushes at heq
        omega

theorem flushUnder (hc : Conserved x []) (hflush : x.flush = none)
    (h : OrderedBatches x.formed x.sequence x.flushes x.attempts x.retained)
    (hfresh : ∀ a ∈ x.attempts, a.flush < x.flushes) (hunbarred : Unbarred x.log)
    (hsuspended : x.refusalStatus.isSome = x.refusedCredential.isSome) {apiKey : Text}
    (hbar : ∀ key, barred x.log = some key →
      x.refusedCredential = some key ∧ ¬(apiKey ≠ [] ∧ apiKey ≠ key)) :
    Ordered (x.flushUnder apiKey) := by
  have hcleared : OrderedBatches x.formed x.sequence x.flushes x.attempts [] :=
    h.sublist (List.nil_sublist _)
  have hheld : ∀ key, barred x.log = some key → x.refusedCredential = some key :=
    fun key hkey => (hbar key hkey).1
  unfold HttpExporter.flushUnder
  by_cases hstatus : x.exportSuspended = true
  · rw [if_pos hstatus]
    by_cases hkey : apiKey = []
    · rw [if_pos hkey]
      exact idle hflush hcleared hheld hunbarred
    rw [if_neg hkey]
    split
    · exact idle hflush h hheld hunbarred
    · exact idle hflush hcleared hheld hunbarred
    · rename_i hmatch
      refine sendPending (x := x.resumeAfterCredentialChange)
        { hc with } hflush h hfresh ?_ hunbarred apiKey
      by_contra hsome
      obtain ⟨key, hbarred⟩ := Option.ne_none_iff_exists'.mp hsome
      obtain ⟨hcredential, hsame⟩ := hbar key hbarred
      have heq : apiKey = key := by
        by_contra hne
        exact hsame ⟨hkey, hne⟩
      unfold credentialMatchesRefusal at hmatch
      rw [hcredential] at hmatch
      simp [heq] at hmatch
  · rw [if_neg hstatus]
    have hnone : x.refusedCredential = none := by
      have hstatus' : x.refusalStatus = none := by simpa [exportSuspended] using hstatus
      rw [hstatus'] at hsuspended
      simpa using hsuspended.symm
    refine sendPending hc hflush h hfresh ?_ hunbarred apiKey
    by_contra hsome
    obtain ⟨key, hbarred⟩ := Option.ne_none_iff_exists'.mp hsome
    rw [(hbar key hbarred).1] at hnone
    cases hnone

theorem flushOnce (h : Ordered x) (hw : Whole x) (hidle : x.flush = none) (apiKey : Text) :
    Ordered (x.flushOnce apiKey) := by
  have hin := inFlight_of_none hidle
  have hc := hw.conserved
  have hbatches := h.batches
  rw [hin] at hc hbatches
  have hattempts : (x.present apiKey).attempts = x.attempts := by
    simp [attempts, present, ExportEntry.attempt?]
  refine flushUnder (x := x.present apiKey) { hc with } hidle ?_ ?_ ?_ hw.suspended ?_
  · rw [hattempts]
    exact hbatches.later_flush
  · rw [hattempts]
    exact fun a ha => Nat.lt_succ_of_le (hbatches.past a ha)
  · exact h.unbarred.snoc (fun a ha => by cases ha)
  · intro key hkey
    change barred (x.log ++ [ExportEntry.presented apiKey]) = some key at hkey
    rw [barred_snoc] at hkey
    cases hold : barred x.log with
    | none =>
      rw [hold] at hkey
      cases hkey
    | some key' =>
      rw [hold] at hkey
      simp only [barredBy] at hkey
      split_ifs at hkey with hother
      cases hkey
      exact ⟨h.bar key hold, hother⟩

omit [DecidableEq ε] in
variable {f : Flush ε}

theorem proceed (hbatches : OrderedBatches y.formed y.sequence y.flushes y.attempts f.later)
    (hcurrent : OrderedBatches.Current y.flushes y.attempts f.later) (hretained : y.retained = [])
    (hbar : ∀ key, barred y.log = some key → y.refusedCredential = some key)
    (hunbarred : Unbarred y.log) (delivered : ℤ) : Ordered (y.proceed f delivered) := by
  unfold HttpExporter.proceed
  split
  · rename_i hlater
    refine idle rfl ?_ hbar hunbarred
    rw [hlater] at hbatches
    exact hretained ▸ hbatches
  · rename_i batch later hlater
    rw [hlater] at hbatches hcurrent
    refine ⟨?_, fun _ => hcurrent, hbar, hunbarred⟩
    change OrderedBatches y.formed y.sequence y.flushes y.attempts ((batch :: later) ++ y.retained)
    rw [hretained, List.append_nil]
    exact hbatches

theorem stopRetaining {hand batches : List (PendingBatch ε)} (hc : Conserved y hand)
    (hevents : eventsOf batches = eventsOf hand)
    (hbatches : OrderedBatches y.formed y.sequence y.flushes y.attempts batches)
    (hretained : y.retained = [])
    (hbar : ∀ key, barred y.log = some key → y.refusedCredential = some key)
    (hunbarred : Unbarred y.log) : Ordered (y.stopRetaining batches) := by
  have hre := hc.rehand hevents
  have hready : Conserved { y with inFlightEvents := 0, flush := none } batches := { hre with }
  unfold HttpExporter.stopRetaining
  rw [(hready.retain rfl).1]
  refine idle rfl ?_ hbar hunbarred
  rw [hretained, List.append_nil]
  exact hbatches

omit [DecidableEq ε] in
theorem barred_record (hbar : barred x.log = none) (ending : AttemptEnd)
    (hending : ending ≠ .suspended) : barred (x.record f ending).log = none := by
  unfold record
  rw [barred_snoc, hbar]
  exact if_neg hending

omit [DecidableEq ε] in
theorem unbarred_record (hbar : barred x.log = none) (h : Unbarred x.log) (ending : AttemptEnd) :
    Unbarred (x.record f ending).log :=
  h.snoc (fun _ _ => hbar)

theorem afterVerdict {v : TelemetryDelivery.Verdict} (hc : Conserved x f.rest)
    (hretained : x.retained = []) (hbar : barred x.log = none) (hunbarred : Unbarred x.log)
    (h : OrderedBatches x.formed x.sequence x.flushes x.attempts f.rest)
    (hcurrent : OrderedBatches.Current x.flushes x.attempts f.rest) :
    Ordered (x.afterVerdict f v) := by
  have hnobar : ∀ ending : AttemptEnd, ending ≠ .suspended →
      ∀ key, barred (x.record f ending).log = some key → x.refusedCredential = some key := by
    intro ending hending key hkey
    rw [barred_record hbar ending hending] at hkey
    cases hkey
  unfold HttpExporter.afterVerdict
  dsimp only
  cases v.outcome with
  | suspend =>
    refine idle rfl ?_ ?_ (unbarred_record hbar hunbarred .suspended)
    · change OrderedBatches x.formed x.sequence x.flushes (x.record f .suspended).attempts []
      rw [attempts_record]
      exact (h.attempt hcurrent f.key .suspended nofun (.inl rfl)).sublist (List.nil_sublist _)
    · intro key hkey
      change barred (x.record f .suspended).log = some key at hkey
      unfold record at hkey
      rw [barred_snoc] at hkey
      exact hkey
  | retain =>
    by_cases hanswered : v.receiverAnswered = true
    · rw [if_pos hanswered]
      by_cases habandon : maxUnconfirmedAttempts ≤ f.batch.unconfirmedAttempts + 1
      · rw [if_pos habandon]
        refine proceed ?_ ?_ ?_ ?_ ?_ _
        · change OrderedBatches x.formed x.sequence x.flushes (x.record f .abandoned).attempts
            f.later
          rw [attempts_record]
          exact h.attempt hcurrent f.key .abandoned (fun _ => habandon) (.inl rfl)
        · change OrderedBatches.Current x.flushes (x.record f .abandoned).attempts f.later
          rw [attempts_record]
          exact OrderedBatches.Current.attempt h hcurrent f.key .abandoned rfl
        · exact hretained
        · exact hnobar .abandoned nofun
        · exact unbarred_record hbar hunbarred .abandoned
      · rw [if_neg habandon]
        refine @stopRetaining _ _ _ f.rest _ { hc with } rfl ?_ ?_ ?_ ?_
        · change OrderedBatches x.formed x.sequence x.flushes
            (x.record f (.retained true)).attempts _
          rw [attempts_record]
          exact h.attempt hcurrent f.key (.retained true) nofun (.inr rfl)
        · exact hretained
        · exact hnobar (.retained true) nofun
        · exact unbarred_record hbar hunbarred (.retained true)
    · rw [if_neg hanswered]
      refine @stopRetaining _ _ _ f.rest _ { hc with } rfl ?_ ?_ ?_ ?_
      · change OrderedBatches x.formed x.sequence x.flushes
          (x.record f (.retained false)).attempts _
        rw [attempts_record]
        exact h.attempt hcurrent f.key (.retained false) nofun (.inr rfl)
      · exact hretained
      · exact hnobar (.retained false) nofun
      · exact unbarred_record hbar hunbarred (.retained false)
  | delivered =>
    refine proceed ?_ ?_ ?_ ?_ ?_ _
    · change OrderedBatches x.formed x.sequence x.flushes (x.record f .delivered).attempts f.later
      rw [attempts_record]
      exact h.attempt hcurrent f.key .delivered nofun (.inl rfl)
    · change OrderedBatches.Current x.flushes (x.record f .delivered).attempts f.later
      rw [attempts_record]
      exact OrderedBatches.Current.attempt h hcurrent f.key .delivered rfl
    · exact hretained
    · exact hnobar .delivered nofun
    · exact unbarred_record hbar hunbarred .delivered

theorem sendEnd (h : Ordered x) (hw : Whole x) {result : SendEnd}
    (hstep : x.sendEnd result = some y) : Ordered y := by
  unfold HttpExporter.sendEnd at hstep
  split at hstep
  · cases hstep
  rename_i f hf
  have hin := inFlight_of_some hf
  obtain ⟨hretained, hcredential⟩ := hw.flushing (by rw [hf]; rfl)
  have hc := hw.conserved
  have hbatches := h.batches
  have hcurrent := h.current (by rw [hf]; rfl)
  rw [hin] at hc hcurrent hbatches
  rw [hretained, List.append_nil] at hbatches
  have hbar : barred x.log = none := by
    by_contra hsome
    obtain ⟨key, hkey⟩ := Option.ne_none_iff_exists'.mp hsome
    rw [h.bar key hkey] at hcredential
    cases hcredential
  cases result with
  | unsendable =>
    cases hstep
    refine proceed ?_ ?_ ?_ ?_ ?_ _
    · exact hbatches.sublist (List.sublist_cons_self _ _)
    · exact fun a ha hflush => ⟨(hcurrent a ha hflush).1,
        fun b hb => (hcurrent a ha hflush).2 b (List.mem_cons_of_mem _ hb)⟩
    · exact hretained
    · exact h.bar
    · exact h.unbarred
  | raised =>
    cases hstep
    refine @stopRetaining _ _ _ f.rest _ { hc with } rfl ?_ ?_ ?_ ?_
    · change OrderedBatches x.formed x.sequence x.flushes (x.record f .raised).attempts f.rest
      rw [attempts_record]
      exact hbatches.attempt hcurrent f.key .raised nofun (.inr rfl)
    · exact hretained
    · intro key hkey
      rw [barred_record hbar .raised nofun] at hkey
      cases hkey
    · exact unbarred_record hbar h.unbarred .raised
  | verdict v =>
    dsimp only at hstep
    split_ifs at hstep
    cases hstep
    exact afterVerdict hc hretained hbar h.unbarred hbatches hcurrent

theorem step (h : Ordered x) (hw : Whole x) {a : Step ε} (hstep : x.step a = some y) :
    Ordered y := by
  cases a with
  | handle event =>
    cases hstep
    exact h.handleEvent event
  | flush apiKey =>
    simp only [HttpExporter.step] at hstep
    split_ifs at hstep with hflush
    cases hstep
    exact h.flushOnce hw (by simpa using hflush) apiKey
  | send result => exact h.sendEnd hw hstep

end Ordered

/-! ### Over whole runs -/

/-- A batch as it was attempted or is held. -/
def Carried (x : HttpExporter ε) (sequence : ℕ) (events : List ε) : Prop :=
  (∃ a ∈ x.attempts, a.sequence = sequence ∧ a.events = events) ∨
    ∃ b ∈ x.inFlight ++ x.retained, b.sequence = sequence ∧ b.events = events

structure Exported [DecidableEq ε] (x : HttpExporter ε) : Prop where
  /-- One place or one total for each event, and the sum. -/
  placed : (x.queue ++ eventsOf x.inFlight ++ eventsOf x.retained ++ x.answered ++ x.refusedItems ++
    x.droppedItems ++ x.unconfirmedItems).Perm x.handed
  counted : (x.queue.length + eventCount x.inFlight + eventCount x.retained + x.deliveredEvents +
    x.declinedEvents + x.refusedEvents + x.droppedEvents + x.unconfirmedEvents : ℤ) =
      x.handed.length
  gauges : x.inFlightEvents = eventCount x.inFlight ∧ x.retainedEvents = eventCount x.retained
  bounded : x.queue.length + eventCount x.retained + eventCount x.inFlight ≤ x.maxQueueSize
  /-- A batch keeps its sequence and its events in order. -/
  kept : ∀ s events events', Carried x s events → Carried x s events' → events = events'
  sorted : (x.inFlight ++ x.retained).Pairwise (fun a b => a.sequence < b.sequence)
  oldestFirst : x.attempts.Pairwise (fun a b =>
    a.flush = b.flush → a.sequence < b.sequence ∧ a.ending.continues = true)
  /-- Five answers before a batch is abandoned. -/
  abandoned : ∀ a ∈ x.attempts, a.ending = .abandoned →
    maxUnconfirmedAttempts ≤ x.attempts.countP (ExportAttempt.answers a.sequence)
  /-- Nothing is sent from a suspension to another credential. -/
  unbarred : Unbarred x.log

section Bench

end Bench

end HttpExporter

end OriRuntime
