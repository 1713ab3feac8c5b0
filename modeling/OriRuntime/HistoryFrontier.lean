import OriRuntime.HistoryCompaction

/-!
# The history frontier

Evaluation-time reads of `ori/state/_history.py`. An event is stamped with the last row committed
when its reading is queued, and its reads stop there. A writer commits the queue later, and a
compaction may run between; an id is never assigned twice, over reopenings too.
-/

namespace OriRuntime

open Execution List

namespace HistoryStore

section Reads

variable (st : HistoryStore) (sensorId : Text) (frontier : Option ℕ)

/-- `? IS NULL OR id <= ?`. -/
def visible : List HistoryRow :=
  st.raw.filter (fun r => frontier.all (fun f => decide (r.id ≤ f)))

/-- `LIMIT`; a negative one is none. -/
def limited {ρ : Type} (limit : ℤ) (rows : List ρ) : List ρ :=
  if limit < 0 then rows else rows.take limit.toNat

def getHistory (limit : ℤ) : List HistoryRow :=
  limited limit (((st.visible frontier).filter (fun r => decide (r.sensorId = sensorId))).mergeSort
    (fun a b => decide (b.id ≤ a.id)))

def avgLastN (n : ℤ) : Option ℚ :=
  let values := (st.getHistory sensorId frontier n).map (·.value)
  if values = [] then none else some (values.sum / values.length)

def receiptReadToleranceMs : ℤ := 60000

def recentBuckets {κ : Type} [DecidableEq κ] (table : Dict κ BucketRow) (sensorOf : κ → Text)
    (bucketOf : κ → ℤ) (cutoffMs latestMs : ℤ) : List (ℚ × ℤ) :=
  (table.items.filter (fun p => decide (sensorOf p.1 = sensorId ∧ cutoffMs ≤ p.2.maxReceivedAtMs ∧
    p.2.maxReceivedAtMs ≤ latestMs ∧ cutoffMs ≤ bucketOf p.1))).map
      (fun p => (p.2.avgValue, p.2.sampleCount))

def avgLastHours (hours currentMs : ℤ) : Option ℚ :=
  let cutoffMs := currentMs - hours * 3600000
  let latestMs := currentMs + receiptReadToleranceMs
  let legacy (table : Dict LegacyKey BucketRow) :=
    recentBuckets sensorId table (·.sensorId) (·.bucketMs) cutoffMs latestMs
  let basis (table : Dict BasisKey BucketRow) :=
    recentBuckets sensorId table (·.sensorId) (·.bucketMs) cutoffMs latestMs
  let rows := ((st.visible frontier).filter (fun r => decide (r.sensorId = sensorId ∧
      cutoffMs ≤ r.receivedAtMs ∧ r.receivedAtMs ≤ latestMs ∧ cutoffMs ≤ r.timestamp))).map
        (fun r => (r.value, (1 : ℤ))) ++
    legacy st.fiveMin ++ legacy st.hourly ++ legacy st.daily ++
    basis st.basisFiveMin ++ basis st.basisHourly ++ basis st.basisDaily
  if 0 < (rows.map (·.2)).sum then
    some ((rows.map (fun p => p.1 * (p.2 : ℚ))).sum / ((rows.map (·.2)).sum : ℤ))
  else none

/-- The last row of every other sensor, where it is fresh. -/
def getLatestReadingsSnapshot (excludeSensorId : Text) (sinceMs maxEntries currentMs : ℤ) :
    List HistoryRow :=
  let others := (st.visible frontier).filter (fun r => decide (r.sensorId ≠ excludeSensorId))
  let latest := others.filter (fun r =>
    others.all (fun q => decide (q.sensorId = r.sensorId → q.id ≤ r.id)))
  limited (max 1 maxEntries) ((latest.filter (fun r => decide (sinceMs ≤ r.receivedAtMs ∧
    r.receivedAtMs ≤ currentMs + receiptReadToleranceMs ∧ sinceMs ≤ r.timestamp))).mergeSort
      (fun a b => decide (a.sensorId ≤ b.sensorId)))

end Reads

/-- Every evaluation-time read at the frontier answers alike from both stores. -/
structure ReadsAlike (frontier : ℕ) (st st' : HistoryStore) : Prop where
  history : ∀ sensorId limit,
    st.getHistory sensorId (some frontier) limit = st'.getHistory sensorId (some frontier) limit
  lastN : ∀ sensorId n,
    st.avgLastN sensorId (some frontier) n = st'.avgLastN sensorId (some frontier) n
  lastHours : ∀ sensorId hours currentMs, st.avgLastHours sensorId (some frontier) hours currentMs =
    st'.avgLastHours sensorId (some frontier) hours currentMs
  latest : ∀ excludeSensorId sinceMs maxEntries currentMs,
    st.getLatestReadingsSnapshot (some frontier) excludeSensorId sinceMs maxEntries currentMs =
      st'.getLatestReadingsSnapshot (some frontier) excludeSensorId sinceMs maxEntries currentMs

/-- The store without the rows numbered from `g` on. -/
def before (g : ℕ) (st : HistoryStore) : HistoryStore :=
  { st with raw := st.raw.filter (fun r => decide (r.id < g)), nextId := g }

variable {st : HistoryStore} {f g : ℕ}

theorem visible_before (h : f < g) : (st.before g).visible (some f) = st.visible (some f) := by
  unfold visible before
  rw [filter_filter]
  refine filter_congr fun r _ => ?_
  simp only [Option.all_some, ← Bool.decide_and, decide_eq_decide]
  omega

theorem readsAlike_before (h : f < g) : ReadsAlike f (st.before g) st where
  history sensorId limit := by rw [getHistory, getHistory, visible_before h]
  lastN sensorId n := by rw [avgLastN, avgLastN, getHistory, getHistory, visible_before h]
  lastHours sensorId hours currentMs := by
    unfold avgLastHours
    rw [visible_before h]
    rfl
  latest excludeSensorId sinceMs maxEntries currentMs := by
    rw [getLatestReadingsSnapshot, getLatestReadingsSnapshot, visible_before h]

theorem ReadsAlike.trans {st' st'' : HistoryStore} (h : ReadsAlike f st st')
    (h' : ReadsAlike f st' st'') : ReadsAlike f st st'' where
  history a b := (h.history a b).trans (h'.history a b)
  lastN a b := (h.lastN a b).trans (h'.lastN a b)
  lastHours a b c := (h.lastHours a b c).trans (h'.lastHours a b c)
  latest a b c d := (h.latest a b c d).trans (h'.latest a b c d)

theorem ReadsAlike.symm {st' : HistoryStore} (h : ReadsAlike f st st') : ReadsAlike f st' st where
  history a b := (h.history a b).symm
  lastN a b := (h.lastN a b).symm
  lastHours a b c := (h.lastHours a b c).symm
  latest a b c d := (h.latest a b c d).symm

/-- The statements of a compaction leave the rows from `g` on, where none is before its cutoff. -/
theorem before_statements {c : Cutoffs} (hn : ∀ r ∈ st.raw, g ≤ r.id → c.raw ≤ r.receivedAtMs) :
    ((statements c).foldl (fun s f => f s) st).before g =
      (statements c).foldl (fun s f => f s) (st.before g) := by
  have ha : (st.raw.filter (fun r => decide (r.id < g))).filter
      (fun r => decide (r.receivedAtMs < c.raw)) =
        st.raw.filter (fun r => decide (r.receivedAtMs < c.raw)) := by
    rw [filter_filter]
    refine filter_congr fun r hr => ?_
    have hi := hn r hr
    simp only [← Bool.decide_and, decide_eq_decide]
    omega
  have hl : (deleteRaw st.raw c.raw).filter (fun r => decide (r.id < g)) =
      deleteRaw (st.raw.filter (fun r => decide (r.id < g))) c.raw := filter_comm _ _ _
  simp only [statements, foldl_cons, foldl_nil, before, rollUpRaw, ha, hl]

end HistoryStore

/-! ### Runs -/

structure HistoryAdmission where
  connection : HistoryConnection := {}
  frontier : ℕ := 0
  queue : List SensorReading := []
  /-- The frontiers stamped so far. -/
  stamps : List ℕ := []

namespace HistoryAdmission

inductive Step
  | admits (reading : Option SensorReading)
  | write (nowMs : ℤ) (raises : Option ℕ)
  | publish
  | lose
  | compact (nowMs maxBackwardSkewMs : ℤ) (raises : Option ℕ)
  | reopen

/-- `HISTORY_ADMISSION_CEILING` bounds the queue. A row is committed before the frontier takes its
id, so an event can be stamped between. -/
def step (ceiling : ℕ) (s : HistoryAdmission) : Step → Option HistoryAdmission
  | .admits reading =>
    some { s with
      stamps := s.stamps ++ [s.frontier]
      queue := if s.queue.length < ceiling then s.queue ++ reading.toList else s.queue }
  | .write nowMs raises =>
    match s.queue with
    | [] => none
    | r :: rest =>
      some { s with
        connection := s.connection.insertReading r nowMs raises
        queue := if 0 < nowMs ∧ raises = none then rest else s.queue }
  | .publish => some { s with frontier := max s.frontier (s.connection.committed.nextId - 1) }
  | .lose =>
    match s.queue with
    | [] => none
    | _ :: rest => some { s with queue := rest }
  | .compact nowMs maxBackwardSkewMs raises =>
    some { s with connection := s.connection.compactHistory nowMs maxBackwardSkewMs raises }
  | .reopen => some { s with frontier := s.connection.committed.nextId - 1, queue := [] }

def clocks : List Step → List ℤ
  | [] => []
  | .write nowMs _ :: as => nowMs :: clocks as
  | .compact nowMs _ _ :: as => nowMs :: clocks as
  | .admits _ :: as | .publish :: as | .lose :: as | .reopen :: as => clocks as

def rawHistoryRetentionMs : ℤ := 48 * 3600 * 1000

/-- The clock never advances by the raw retention. -/
def Steady (as : List Step) : Prop :=
  (clocks as).Pairwise (fun t u => u - t < rawHistoryRetentionMs)

/-- The compactions of a run, on a store nothing is committed to. -/
def compacted (st : HistoryStore) : List Step → HistoryStore
  | [] => st
  | .compact nowMs skew raises :: as =>
    compacted (if 0 ≤ skew ∧ raises = none then
      (HistoryStore.statements (HistoryConnection.cutoffsAt nowMs)).foldl (fun s f => f s) st
      else st) as
  | .admits _ :: as | .write _ _ :: as | .publish :: as | .lose :: as | .reopen :: as =>
    compacted st as

def compactions : List Step → List Step
  | [] => []
  | .compact nowMs skew raises :: as => .compact nowMs skew raises :: compactions as
  | .admits _ :: as | .write _ _ :: as | .publish :: as | .lose :: as | .reopen :: as =>
    compactions as

theorem compacted_compactions (st : HistoryStore) (as : List Step) :
    compacted st (compactions as) = compacted st as := by
  induction as generalizing st with
  | nil => rfl
  | cons a as ih => cases a <;> exact ih _

variable {ceiling : ℕ} {s t : HistoryAdmission} {a : Step} {as bs : List Step}

structure Ordered (s : HistoryAdmission) : Prop where
  settled : s.connection.working = s.connection.committed
  frontier : s.frontier < s.connection.committed.nextId
  ids : ∀ r ∈ s.connection.committed.raw, r.id < s.connection.committed.nextId
  stamps : s.stamps.Pairwise (· ≤ ·)
  stamped : ∀ f ∈ s.stamps, f ≤ s.frontier

theorem ordered_empty : Ordered {} :=
  ⟨rfl, Nat.one_pos, (fun _ h => absurd h not_mem_nil), Pairwise.nil,
    (fun _ h => absurd h not_mem_nil)⟩

theorem ordered_step (h : Ordered s) (hs : s.step ceiling a = some t) : Ordered t := by
  cases a with
  | admits reading =>
    cases hs
    refine ⟨h.settled, h.frontier, h.ids, pairwise_append.mpr ⟨h.stamps, pairwise_singleton _ _,
      fun f hf q hq => mem_singleton.mp hq ▸ h.stamped f hf⟩, fun f hf => ?_⟩
    rcases mem_append.mp hf with hf | hf
    · exact h.stamped f hf
    · exact (mem_singleton.mp hf).le
  | write nowMs raises =>
    simp only [step] at hs
    split at hs
    · cases hs
    cases hs
    rw [HistoryRun.insertReading_eq h.settled]
    split_ifs
    · refine ⟨rfl, Nat.lt_succ_of_lt h.frontier, fun r hr => ?_, h.stamps, h.stamped⟩
      rcases mem_append.mp hr with hr | hr
      · exact Nat.lt_succ_of_lt (h.ids r hr)
      · rw [mem_singleton.mp hr]
        exact Nat.lt_succ_self _
    · exact { h with }
  | publish =>
    cases hs
    have hl := h.frontier
    exact { h with
      frontier := by dsimp only; omega
      stamped := fun f hf => (h.stamped f hf).trans (le_max_left _ _) }
  | lose =>
    simp only [step] at hs
    split at hs
    · cases hs
    · cases hs
      exact { h with }
  | compact nowMs skew raises =>
    cases hs
    rw [HistoryRun.compactHistory_eq h.settled]
    split_ifs
    · exact ⟨rfl, h.frontier, fun r hr => h.ids r (mem_of_mem_filter hr), h.stamps, h.stamped⟩
    · exact { h with }
  | reopen =>
    cases hs
    have hl := h.frontier
    exact { h with
      frontier := by dsimp only; omega
      stamped := fun f hf => (h.stamped f hf).trans (by dsimp only; omega) }

theorem before_insert {st : HistoryStore} {g : ℕ} {row : HistoryRow} (hg : g ≤ row.id) (n : ℕ) :
    ({ st with raw := st.raw ++ [row], nextId := n } : HistoryStore).before g = st.before g := by
  unfold HistoryStore.before
  dsimp only
  rw [filter_append, filter_singleton, decide_eq_false (not_lt.mpr hg)]
  simp

/-- Along a steady run the rows committed from `g` on stay raw: without them the store is what the
compactions alone make of it. -/
theorem before_run {g : ℕ} (h : Ordered s) (hg : g ≤ s.connection.committed.nextId)
    (hs : Steady as) (hn : ∀ r ∈ s.connection.committed.raw, g ≤ r.id →
      ∀ u ∈ clocks as, u - r.receivedAtMs < rawHistoryRetentionMs)
    (hu : run (step ceiling) s as = some t) :
    t.connection.committed.before g = compacted (s.connection.committed.before g) as := by
  induction as generalizing s with
  | nil =>
    cases hu
    rfl
  | cons a as ih =>
    obtain ⟨u, ht, hrs⟩ := run_cons_eq_some_iff.mp hu
    have ho := ordered_step h ht
    cases a with
    | admits reading =>
      cases ht
      exact (ih ho hg hs hn hrs).trans rfl
    | publish =>
      cases ht
      exact (ih ho hg hs hn hrs).trans rfl
    | reopen =>
      cases ht
      exact (ih ho hg hs hn hrs).trans rfl
    | lose =>
      simp only [step] at ht
      split at ht
      · cases ht
      · cases ht
        exact (ih ho hg hs hn hrs).trans rfl
    | write nowMs raises =>
      obtain ⟨hf, hl⟩ := pairwise_cons.mp hs
      have hold := fun r hr hi v hv => hn r hr hi v (mem_cons_of_mem _ hv)
      simp only [step] at ht
      split at ht
      · cases ht
      cases ht
      rw [HistoryRun.insertReading_eq h.settled] at ho hrs
      split_ifs at ho hrs
      · refine (ih ho (hg.trans (Nat.le_succ _)) hl (fun r hr hi => ?_) hrs).trans ?_
        · rcases mem_append.mp hr with hr | hr
          · exact hold r hr hi
          · rw [mem_singleton.mp hr]
            exact hf
        · exact congrArg (compacted · as) (before_insert hg _)
      · exact (ih ho hg hl hold hrs).trans rfl
    | compact nowMs skew raises =>
      obtain ⟨-, hl⟩ := pairwise_cons.mp hs
      have hold := fun r hr hi v hv => hn r hr hi v (mem_cons_of_mem _ hv)
      cases ht
      rw [HistoryRun.compactHistory_eq h.settled] at ho hrs
      unfold compacted
      split_ifs at ho hrs ⊢
      · refine (ih ho hg hl (fun r hr => hold r (mem_of_mem_filter hr)) hrs).trans ?_
        refine congrArg (compacted · as) (HistoryStore.before_statements fun r hr hi => ?_)
        have hlt := hn r hr hi nowMs mem_cons_self
        unfold rawHistoryRetentionMs at hlt
        unfold HistoryConnection.cutoffsAt
        dsimp only
        omega
      · exact (ih ho hg hl hold hrs).trans rfl

/-- An event stamped in `s` reads, later in a steady run, what it would have read had nothing been
committed since: its own reading and every later one are left out, and two runs with the same
compactions answer alike. Frontiers never decrease. -/
theorem evaluation_history_stable {pre : List Step} {reading : Option SensorReading}
    {s' : HistoryAdmission} (hpre : run (step ceiling) {} pre = some s)
    (hadm : s.step ceiling (.admits reading) = some s') (hsteady : Steady as)
    (hrun : run (step ceiling) s' as = some t) :
    HistoryStore.ReadsAlike s.frontier t.connection.committed
        (compacted s.connection.committed as) ∧
      (∀ bs u, Steady bs → run (step ceiling) s' bs = some u → compactions bs = compactions as →
        HistoryStore.ReadsAlike s.frontier t.connection.committed u.connection.committed) ∧
      t.stamps.Pairwise (· ≤ ·) := by
  have hord : Ordered s := run_invariant (fun _ _ _ hs hstep => ordered_step hs hstep)
    ordered_empty hpre
  have hord' := ordered_step hord hadm
  have hconn : s'.connection = s.connection := by
    cases hadm
    rfl
  have hquiet : s.connection.committed.before s.connection.committed.nextId =
      s.connection.committed := by
    unfold HistoryStore.before
    rw [filter_eq_self.mpr fun r hr => decide_eq_true (hord.ids r hr)]
  have halike : ∀ {cs : List Step} {v : HistoryAdmission}, Steady cs →
      run (step ceiling) s' cs = some v → HistoryStore.ReadsAlike s.frontier
        v.connection.committed (compacted s.connection.committed cs) := by
    intro cs v hst hv
    have hbefore := before_run (g := s.connection.committed.nextId) hord' (by rw [hconn]) hst
      (fun r hr hid => absurd (hord.ids r (hconn ▸ hr)) (not_lt.mpr hid)) hv
    rw [hconn, hquiet] at hbefore
    exact hbefore ▸ (HistoryStore.readsAlike_before hord.frontier).symm
  refine ⟨halike hsteady hrun, fun bs u hst hu heq => (halike hsteady hrun).trans ?_, ?_⟩
  · rw [← compacted_compactions, ← heq, compacted_compactions]
    exact (halike hst hu).symm
  · exact (run_invariant (fun _ _ _ hs hstep => ordered_step hs hstep) hord' hrun).stamps

/-- A reading, and the steps after the next one is queued, which is stamped before the first one's
commit is published. -/
def firstSteps : List Step :=
  [.admits (some (HistoryRun.celsius 20 60000)), .write 100000 none]

def laterSteps : List Step := [.publish, .write 120000 none, .publish, .compact 172800000 0 none]

theorem evaluation_history_stable_late : ∃ s t : HistoryAdmission,
    run (step 8) {} firstSteps = some s ∧ HistoryStore.ReadsAlike s.frontier t.connection.committed
      (compacted s.connection.committed laterSteps) := by
  have hany : (run (step 8) {} firstSteps).any (fun s =>
      (s.step 8 (.admits (some (HistoryRun.celsius 21 90000)))).any (fun s' =>
        (run (step 8) s' laterSteps).isSome)) = true := by decide +kernel
  have hsteady : Steady laterSteps := by
    unfold Steady
    decide
  obtain ⟨s, hs, hadm⟩ := (Option.any_eq_true _ _).mp hany
  obtain ⟨s', hs', hrun⟩ := (Option.any_eq_true _ _).mp hadm
  obtain ⟨t, ht⟩ := Option.isSome_iff_exists.mp hrun
  exact ⟨s, t, hs, (evaluation_history_stable hs hs' hsteady ht).1⟩

end HistoryAdmission

end OriRuntime
