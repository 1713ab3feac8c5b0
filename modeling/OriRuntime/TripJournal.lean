import OriRuntime.TripState

/-!
# The durable trip-intent journal

`ori/state/_trip_journal.py`: one table for every zone-profile pair, appended in sequence order. The
only write that touches an existing row is the resolution mark, and it stops at the pair's latest
record or clear.
-/

namespace OriRuntime

inductive EntryKind where
  | intent
  | record
  | clear
  | other (name : String)
  deriving DecidableEq, Repr

/-- A row of `safety_trip_journal`. The columns of another kind are null. -/
structure JournalRow where
  seq : ℕ
  zoneId : String
  profileId : String
  entryKind : EntryKind
  attemptId : Option String := none
  bindingSeq : Option ℤ := none
  outcome : Option String := none
  commandStatus : Option String := none
  resolved : Bool := false
  createdAtMs : ℤ
  deriving DecidableEq, Repr

namespace JournalRow

def ofPair (r : JournalRow) (zoneId profileId : String) : Bool :=
  decide (r.zoneId = zoneId) && decide (r.profileId = profileId)

def isIntent (r : JournalRow) : Bool := decide (r.entryKind = .intent)

/-- A record or a clear: what a resolution mark may rest on. -/
def settles (r : JournalRow) : Bool :=
  decide (r.entryKind = .record) || decide (r.entryKind = .clear)

end JournalRow

/-- The table. `nextSeq` is the autoincrement counter, so rows are held in append order. -/
structure TripJournal where
  rows : List JournalRow
  nextSeq : ℕ
  sorted : rows.Pairwise (fun a b => a.seq < b.seq)
  bounded : ∀ r ∈ rows, r.seq < nextSeq

inductive JournalError where
  | statusOutsideVocabulary (status : String)
  deriving DecidableEq, Repr

namespace TripJournal

def empty : TripJournal := ⟨[], 1, List.Pairwise.nil, nofun⟩

/-- One insert: the row takes the next sequence number. -/
def insert (j : TripJournal) (row : JournalRow) : TripJournal where
  rows := j.rows ++ [{ row with seq := j.nextSeq }]
  nextSeq := j.nextSeq + 1
  sorted := by
    refine List.pairwise_append.mpr ⟨j.sorted, List.pairwise_singleton _ _, ?_⟩
    intro a ha b hb
    obtain rfl := List.mem_singleton.mp hb
    exact j.bounded a ha
  bounded := by
    intro r hr
    rw [List.mem_append, List.mem_singleton] at hr
    obtain hr | rfl := hr
    · exact Nat.lt_succ_of_lt (j.bounded r hr)
    · exact Nat.lt_succ_self _

def appendIntent (j : TripJournal) (zoneId profileId attemptId : String) (bindingSeq : ℤ)
    (outcome : String) (createdAtMs : ℤ) : TripJournal :=
  j.insert
    { seq := 0, zoneId := zoneId, profileId := profileId, entryKind := .intent,
      attemptId := some attemptId, bindingSeq := some bindingSeq, outcome := some outcome,
      createdAtMs := createdAtMs }

def recordVocabulary : List String := ["command_pending", "driver_refused", "command_issued"]

def appendRecord (j : TripJournal) (zoneId profileId commandStatus : String) (createdAtMs : ℤ) :
    Except JournalError TripJournal :=
  if commandStatus ∈ recordVocabulary then
    .ok (j.insert
      { seq := 0, zoneId := zoneId, profileId := profileId, entryKind := .record,
        commandStatus := some commandStatus, createdAtMs := createdAtMs })
  else .error (.statusOutsideVocabulary commandStatus)

def appendClear (j : TripJournal) (zoneId profileId : String) (createdAtMs : ℤ) : TripJournal :=
  j.insert
    { seq := 0, zoneId := zoneId, profileId := profileId, entryKind := .clear,
      createdAtMs := createdAtMs }

/-- The sequence number of the pair's latest record or clear. -/
def threshold (j : TripJournal) (zoneId profileId : String) : Option ℕ :=
  ((j.rows.filter (fun r => r.ofPair zoneId profileId && r.settles)).map (·.seq)).max?

/-- The update of one row by a resolution mark of the pair. -/
def resolveRow (zoneId profileId : String) (threshold : ℕ) (r : JournalRow) : JournalRow :=
  if (r.ofPair zoneId profileId && r.isIntent && !r.resolved && decide (r.seq < threshold)) = true
  then { r with resolved := true } else r

theorem resolveRow_seq (zoneId profileId : String) (n : ℕ) (r : JournalRow) :
    (resolveRow zoneId profileId n r).seq = r.seq := by
  unfold resolveRow
  split_ifs <;> rfl

/-- Resolve the intents a committed record or clear justifies. -/
def markResolved (j : TripJournal) (zoneId profileId : String) : TripJournal :=
  match j.threshold zoneId profileId with
  | none => j
  | some n =>
    { rows := j.rows.map (resolveRow zoneId profileId n)
      nextSeq := j.nextSeq
      sorted := by
        rw [List.pairwise_map]
        refine j.sorted.imp ?_
        intro a b hab
        simpa only [resolveRow_seq] using hab
      bounded := by
        intro r hr
        obtain ⟨a, ha, rfl⟩ := List.mem_map.mp hr
        rw [resolveRow_seq]
        exact j.bounded a ha }

def pyStr? : Option String → PyValue
  | some s => .str s
  | none => .none

def pyInt? : Option ℤ → PyValue
  | some n => .int n
  | none => .none

def intentFields (zoneId profileId : String) (r : JournalRow) : IntentFields where
  zoneId := .str zoneId
  profileId := .str profileId
  attemptId := pyStr? r.attemptId
  bindingSeq := pyInt? r.bindingSeq
  outcome := pyStr? r.outcome
  createdAtMs := .int r.createdAtMs
  resolved := .bool r.resolved

/-- One row in machine shape. -/
def entryOf (zoneId profileId : String) (r : JournalRow) : JournalEntry :=
  match r.entryKind with
  | .intent => .intent (some (intentFields zoneId profileId r))
  | .record => .record (pyStr? r.commandStatus)
  | .clear => .clear
  | .other _ => .corrupt false

def recordSurvives (rows : List JournalRow) : Bool :=
  rows.foldl (fun survives r => match r.entryKind with
    | .record => true
    | .clear => false
    | _ => survives) false

def pairRows (j : TripJournal) (zoneId profileId : String) : List JournalRow :=
  j.rows.filter (fun r => r.ofPair zoneId profileId)

/-- The pair's journal in machine shape, with its derived durable state: tripped exactly when a
record survives the last clear. -/
def load (j : TripJournal) (zoneId profileId : String) : Option String × List JournalEntry :=
  (if recordSurvives (j.pairRows zoneId profileId) then some "tripped" else none,
    (j.pairRows zoneId profileId).map (entryOf zoneId profileId))

def pairs (j : TripJournal) : List (String × String) :=
  (j.rows.map (fun r => (r.zoneId, r.profileId))).dedup

end TripJournal

end OriRuntime
