import OriRuntime.BindingInForce
import OriRuntime.DevicePolicyRefresh

/-!
# One consented coil command

`ProofOperation._command` of `ori/security/commissioning/proof_operation.py`, past its refusal
wall. The coroutine stops at its awaits: the operator's line, the store, the driver, the hold. At
each the environment lets it go on, fails it, or cancels it, and a cancelled store write lands or
is lost. The terminal hands over what was typed in pieces of any size.
-/

namespace OriRuntime.ProofOperation

open List Option

open CoilState CircuitState

/-! ### The attestation -/

inductive Attestation
  | matched
  | mismatched
  | timeout
  | inconclusive
deriving DecidableEq

def expectedCircuit (outcome : ProtectedOutcome) : CircuitState :=
  if outcome = .openProtectedCircuit then opened else closed

def attestationFor (ob : ProofObservation) : Attestation :=
  if ob.terminalStateObserved ≠ expectedCircuit ob.commanded then .mismatched
  else if (ob.loadPresentBefore, ob.loadPresentAfter) ≠
      (if ob.commanded = .openProtectedCircuit then (true, false) else (false, true)) then
    .inconclusive
  else .matched

/-- The zone to prove is bound to a local GPIO line. -/
structure Command where
  zone : DocumentZone
  gpioPin : ℤ
  activeHigh : Bool
  bound : zone.identity = .localGpio gpioPin activeHigh
  outcome : ProtectedOutcome
  nonce : Text

def Command.coilState (cmd : Command) : CoilState := cmd.zone.mapping.of cmd.outcome

def observation (cmd : Command) (before after : Bool) (circuit : CircuitState) :
    ProofObservation where
  commanded := cmd.outcome
  coilState := cmd.coilState
  loadPresentBefore := before
  loadPresentAfter := after
  terminalStateObserved := circuit
  gpioHigh := some (decide (cmd.coilState = energised) == cmd.activeHigh)

theorem attestationFor_observation (cmd : Command) (before after : Bool) (circuit : CircuitState) :
    attestationFor (observation cmd before after circuit) = .matched ↔
      observationAgrees cmd.zone (observation cmd before after circuit) = true := by
  have hcoil : (observation cmd before after circuit).coilState =
      cmd.zone.mapping.of (observation cmd before after circuit).commanded := rfl
  unfold attestationFor observationAgrees expectedCircuit
  rw [decide_eq_true hcoil, cmd.bound]
  simp only [observation]
  by_cases ho : cmd.outcome = .openProtectedCircuit <;>
    cases circuit <;> cases before <;> cases after <;> simp [ho] <;> rfl

/-! ### The command -/

/-- A character, and whether it was typed after the line had been taken. -/
structure Key where
  char : CodePoint
  late : Bool
deriving DecidableEq

inductive Raised
  | refused
  | failed
  | cancelled
deriving DecidableEq

/-- The await the coroutine stands at, with the exception it carries through a clean-up. -/
inductive Await
  | loadBefore
  | consent
  | recording
  | acquiring
  | circuit
  | loadAfter
  | holding
  | releasing (raised : Option Raised)
  | completing
  | reporting
  | closing (raised : Raised)
  | releasingAgain (raised : Option Raised)
  | ended (raised : Option Raised)
deriving DecidableEq

inductive Event
  | nonceTyped
  | rowRecorded
  | acquire
  | disconnect
deriving DecidableEq

structure AuditRow where
  commandIssued : Bool
  attestation : Option Attestation
  observation : Option ProofObservation
deriving DecidableEq

/-- `reported`, `heard`, `storeFailed` and `events` record what happened and decide nothing. -/
structure State where
  await : Await := .loadBefore
  queue : List Key := []
  buffer : List Key := []
  before : Bool := false
  answer : CircuitState := opened
  rowId : Bool := false
  row : Option AuditRow := none
  released : Bool := false
  commandIssued : Bool := false
  collected : Option ProofObservation := none
  reported : Option Bool := none
  heard : List Key := []
  storeFailed : Bool := false
  events : List Event := []
deriving DecidableEq

inductive Action
  | typed (keys : Text)
  | poll (taken : ℕ) (eof expired : Bool)
  | returned (executed : Bool)
  | fails
  | cancelled (landed : Bool)

def recordedRow : AuditRow := ⟨false, none, none⟩

/-- What `_complete` writes, on the way out as on the way through. -/
def completedRow (s : State) : AuditRow :=
  ⟨s.commandIssued, some (match s.collected with
    | some ob => attestationFor ob
    | none => .timeout), s.collected⟩

/-- The outer `finally`. -/
def leave (s : State) (raised : Option Raised) : State :=
  if s.released then { s with await := .ended raised }
  else { s with await := .releasingAgain raised, events := s.events ++ [.disconnect] }

/-- The outer `except`. -/
def close (s : State) (raised : Raised) : State :=
  if s.rowId then { s with await := .closing raised } else leave s (some raised)

/-- The inner `finally`. -/
def release (s : State) (raised : Option Raised) : State :=
  { s with await := .releasing raised, events := s.events ++ [.disconnect] }

def raise (s : State) (e : Raised) : Option State :=
  match s.await with
  | .loadBefore | .consent | .recording | .releasing _ | .completing | .reporting =>
    some (close s e)
  | .acquiring | .circuit | .loadAfter | .holding => some (release s (some e))
  -- `suppress(Exception)` lets a cancellation through
  | .closing first => some (leave s (some (if e = .cancelled then e else first)))
  | .releasingAgain _ => some { s with await := .ended (some e) }
  | .ended _ => none

/-- The await is a write of the store, and the row it leaves. -/
def write (s : State) : Option AuditRow :=
  match s.await with
  | .recording => some recordedRow
  | .completing | .closing _ => some (completedRow s)
  | _ => none

/-- The operator is asked for what is seen while the line is held. -/
def Await.hasDeadline : Await → Bool
  | .circuit | .loadAfter => true
  | _ => false

def Await.reads : Await → Bool
  | .loadBefore | .consent | .circuit | .loadAfter => true
  | _ => false

/-- The line is held: `acquire_commanding` has returned. -/
def Await.taken : Await → Bool
  | .loadBefore | .consent | .recording | .acquiring => false
  | _ => true

/-- One turn of `_read_line`: still waiting, or done with a line or without one. -/
def readLine (s : State) (taken : ℕ) (eof expired : Bool) :
    Option (Option (List Key)) × State :=
  let buffer := s.buffer ++ s.queue.take taken
  let t := { s with buffer, queue := s.queue.drop taken }
  if expired && s.await.hasDeadline then (some none, s)
  else if buffer.any (fun k => k.char = codePoint '\n') then
    (some (some (buffer.takeWhile (fun k => k.char ≠ codePoint '\n'))),
      { t with buffer := (buffer.dropWhile (fun k => k.char ≠ codePoint '\n')).tail })
  else (if eof then some none else none, t)

def reply (line : List Key) : Text := Json.lowerAscii (Json.strip (line.map Key.char))

def loadOf (line : List Key) : Option Bool :=
  if reply line ∈ [text "y", text "yes"] then some true
  else if reply line ∈ [text "n", text "no"] then some false
  else none

def circuitOf (line : List Key) : Option CircuitState :=
  if reply line = text "open" then some opened
  else if reply line = text "closed" then some closed
  else none

/-- What is done with the line; one that is no answer is asked for again. -/
def answered (cmd : Command) (s : State) : Option (List Key) → Option State
  | none =>
    match s.await with
    | .circuit | .loadAfter => some { s with await := .holding }
    | _ => raise s .refused
  | some line =>
    match s.await with
    | .loadBefore =>
      some ((loadOf line).elim s fun b => { s with before := b, await := .consent })
    | .consent =>
      if Json.strip (line.map Key.char) = cmd.nonce then
        some { s with await := .recording, events := s.events ++ [.nonceTyped] }
      else raise s .refused
    | .circuit =>
      some ((circuitOf line).elim s fun c =>
      { s with answer := c, heard := s.heard ++ line, await := .loadAfter })
    | .loadAfter =>
      some ((loadOf line).elim s fun b =>
      { s with
        collected := some (observation cmd s.before b s.answer)
        heard := s.heard ++ line
        await := .holding })
    | _ => none

def returned (s : State) (executed : Bool) : Option State :=
  match s.await with
  | .recording =>
    some { s with
      rowId := true
      row := some recordedRow
      await := .acquiring
      events := s.events ++ [.rowRecorded, .acquire] }
  | .acquiring =>
    let t := { s with commandIssued := executed, reported := some executed }
    some (if executed then { t with await := .circuit, queue := [], buffer := [] }
      else release t (some .refused))
  | .holding => some (release s none)
  | .releasing none => some { s with released := true, await := .completing }
  | .releasing (some e) => some (close { s with released := true } e)
  | .completing => some { s with row := some (completedRow s), await := .reporting }
  | .reporting => some (leave s none)
  | .closing e => some (leave { s with row := some (completedRow s) } (some e))
  | .releasingAgain raised => some { s with await := .ended raised }
  | _ => none

def step (cmd : Command) (s : State) : Action → Option State
  | .typed keys => some { s with queue := s.queue ++ keys.map (fun c => ⟨c, s.await.taken⟩) }
  | .poll taken eof expired =>
    if s.await.reads then
      match readLine s taken eof expired with
      | (none, t) => some t
      | (some line, t) => answered cmd t line
    else none
  | .returned executed => returned s executed
  | .fails => raise { s with storeFailed := s.storeFailed || (write s).isSome } .failed
  | .cancelled landed =>
    raise { s with row := if landed then (write s).or s.row else s.row } .cancelled

abbrev run (cmd : Command) : State → List Action → Option State := Execution.run (step cmd)

/-! ### What a run has done -/

def acted : List Event := [.nonceTyped, .rowRecorded, .acquire]

/-- No cancellation finds the row committed with its number not yet returned, or drops the last
write that closes it. -/
def spared (s : State) : Action → Bool
  | .cancelled landed =>
    match s.await with
    | .recording => !landed
    | .closing _ => landed || decide (s.row = some (completedRow s))
    | _ => true
  | _ => true

def Spared (s : State) (a : Action) : Prop := spared s a = true

structure Idle (s : State) : Prop where
  rowId : s.rowId = false
  released : s.released = false
  row : s.row = none
  reported : s.commandIssued = s.reported.getD false

/-- The row is there and its number is known. -/
structure Open (s : State) (released : Bool) (after : List Event) : Prop where
  rowId : s.rowId = true
  released : s.released = released
  reported : s.commandIssued = s.reported.getD false
  events : s.events = acted ++ after

structure Left (s : State) : Prop where
  reported : s.commandIssued = s.reported.getD false
  row : s.row = none ∧ .acquire ∉ s.events ∨ s.row = some (completedRow s) ∨
    s.row = some recordedRow ∧ s.storeFailed = true
  events : ∃ rest, .acquire ∉ rest ∧ (s.events = acted ++ .disconnect :: rest ∨ s.events = rest)

def Placed (s : State) : Prop :=
  match s.await with
  | .loadBefore | .consent => Idle s ∧ s.events = []
  | .recording => Idle s ∧ s.events = [.nonceTyped]
  | .acquiring | .circuit | .loadAfter | .holding => Open s false [] ∧ s.row = some recordedRow
  | .releasing _ => Open s false [.disconnect] ∧ s.row = some recordedRow
  | .completing => Open s true [.disconnect] ∧ s.row = some recordedRow
  | .reporting => Open s true [.disconnect] ∧ s.row = some (completedRow s)
  | .closing _ => Open s s.released [.disconnect] ∧
      (s.row = some recordedRow ∨ s.row = some (completedRow s))
  | .releasingAgain _ | .ended _ => Left s

theorem placed_leave {s : State} (r : Option Raised) (h : Left s) : Placed (leave s r) := by
  unfold leave
  split
  · exact ⟨h.reported, h.row, h.events⟩
  obtain ⟨rest, hs, he⟩ := h.events
  exact ⟨h.reported, h.row.imp_left fun hr => ⟨hr.1, by simpa using hr.2⟩, rest ++ [.disconnect],
    by simpa using hs, he.imp (fun e => by simp [e]) (fun e => by simp [e])⟩

theorem left_of_idle {s : State} (h : Idle s) (hs : .acquire ∉ s.events) : Left s :=
  ⟨h.reported, .inl ⟨h.row, hs⟩, s.events, hs, .inr rfl⟩

theorem placed_close {s : State} (e : Raised)
    (h : Idle s ∧ .acquire ∉ s.events ∨ Open s s.released [.disconnect] ∧
      (s.row = some recordedRow ∨ s.row = some (completedRow s))) : Placed (close s e) := by
  unfold close
  rcases h with ⟨h, hs⟩ | ⟨h, hr⟩
  · rw [h.rowId]
    exact placed_leave _ (left_of_idle h hs)
  · rw [if_pos h.rowId]
    exact ⟨⟨h.rowId, rfl, h.reported, h.events⟩, hr⟩

variable {cmd : Command} {s t : State}

/-- What a failed or a cancelled await leaves of the row. -/
def Struck (s : State) (row : Option AuditRow) (failed : Bool) : Prop :=
  match s.await with
  | .completing => row = s.row ∨ row = some (completedRow s)
  | .closing _ => row = some (completedRow s) ∨ row = some recordedRow ∧ failed = true
  | _ => row = s.row

theorem placed_raise {row : Option AuditRow} {failed : Bool} {e : Raised} (h : Placed s)
    (ho : Struck s row failed) (hf : s.storeFailed = true → failed = true)
    (ht : raise { s with row := row, storeFailed := failed } e = some t) : Placed t := by
  have hidle : ∀ {before}, .acquire ∉ before → Idle s ∧ s.events = before → row = s.row →
      Placed (close { s with row := row, storeFailed := failed } e) := fun hb h ho =>
    placed_close _ (.inl ⟨⟨h.1.rowId, h.1.released, ho.trans h.1.row, h.1.reported⟩, h.2 ▸ hb⟩)
  have hh : Open s false [] ∧ s.row = some recordedRow → row = s.row →
      Placed (release { s with row := row, storeFailed := failed } (some e)) := fun h ho =>
    ⟨⟨h.1.rowId, h.1.released, h.1.reported, by simp [release, h.1.events]⟩, ho.trans h.2⟩
  have hp : ∀ {b}, Open s b [.disconnect] → row = some recordedRow ∨ row = some (completedRow s) →
      Placed (close { s with row := row, storeFailed := failed } e) := fun h ho =>
    placed_close _ (.inr ⟨⟨h.rowId, rfl, h.reported, h.events⟩, ho⟩)
  unfold raise at ht
  cases ha : s.await <;> simp only [ha, some.injEq, reduceCtorEq] at ht <;>
    simp only [Placed, ha] at h <;> simp only [Struck, ha] at ho <;> subst ht
  case loadBefore | consent => exact hidle not_mem_nil h ho
  case recording => exact hidle (by decide) h ho
  case acquiring | circuit | loadAfter | holding => exact hh h ho
  case releasing => exact hp h.1 (.inl (ho.trans h.2))
  case completing => exact hp h.1 (ho.imp_left fun hr => hr.trans h.2)
  case reporting => exact hp h.1 (.inr (ho.trans h.2))
  case closing =>
    exact placed_leave _ ⟨h.1.reported, .inr ho, [], not_mem_nil, .inl h.1.events⟩
  case releasingAgain => 
    exact ⟨h.reported, ho ▸ h.row.imp_right (.imp_right (And.imp_right hf)), h.events⟩

theorem placed_returned {executed : Bool} (h : Placed s) (ht : returned s executed = some t) :
    Placed t := by
  unfold returned at ht
  cases ha : s.await <;> simp only [ha, some.injEq, reduceCtorEq] at ht <;>
    simp only [Placed, ha] at h
  case recording =>
    subst ht
    exact ⟨⟨rfl, h.1.released, h.1.reported, by simp [h.2, acted]⟩, rfl⟩
  case acquiring =>
    subst ht
    cases executed
    · exact ⟨⟨h.1.rowId, h.1.released, rfl, by simp [release, h.1.events]⟩, h.2⟩
    · exact ⟨⟨h.1.rowId, h.1.released, rfl, h.1.events⟩, h.2⟩
  case holding =>
    subst ht
    exact ⟨⟨h.1.rowId, h.1.released, h.1.reported, by simp [release, h.1.events]⟩, h.2⟩
  case releasing raised =>
    cases raised with
    | none =>
      cases ht
      exact ⟨⟨h.1.rowId, rfl, h.1.reported, h.1.events⟩, h.2⟩
    | some e =>
      cases ht
      exact placed_close _ (.inr ⟨⟨h.1.rowId, rfl, h.1.reported, h.1.events⟩, .inl h.2⟩)
  case completing =>
    subst ht
    exact ⟨⟨h.1.rowId, h.1.released, h.1.reported, h.1.events⟩, rfl⟩
  case reporting =>
    subst ht
    exact placed_leave _ ⟨h.1.reported, .inr (.inl h.2), [], not_mem_nil, .inl h.1.events⟩
  case closing e =>
    subst ht
    exact placed_leave _ ⟨h.1.reported, .inr (.inl rfl), [], not_mem_nil, .inl h.1.events⟩
  case releasingAgain raised =>
    subst ht
    exact ⟨h.reported, h.row, h.events⟩

theorem Placed.typed (h : Placed s) (queue buffer : List Key) :
    Placed { s with queue := queue, buffer := buffer } := by
  unfold Placed at *
  dsimp only
  split at h
  case h_12 | h_13 => exact { h with }
  all_goals exact ⟨{ h.1 with }, h.2⟩

theorem placed_answered {line : Option (List Key)} (h : Placed s) (he : s.await.reads = true)
    (ht : answered cmd s line = some t) : Placed t := by
  have hr : s.await = .loadBefore ∨ s.await = .consent → raise s .refused = some t →
      Placed t := fun ha => placed_raise h (by rcases ha with ha | ha <;> simp [Struck, ha]) id
  unfold answered at ht
  cases ha : s.await <;> simp only [ha, Await.reads, Bool.false_eq_true] at he <;>
    cases line <;> simp only [ha, some.injEq] at ht
  case loadBefore.none => exact hr (.inl ha) ht
  case consent.none => exact hr (.inr ha) ht
  all_goals simp only [Placed, ha] at h
  case circuit.none | loadAfter.none =>
    subst ht
    exact ⟨{ h.1 with }, h.2⟩
  case consent.some line =>
    split at ht
    · cases ht
      exact ⟨{ h.1 with }, by simp [h.2]⟩
    · exact hr (.inr ha) ht
  case loadBefore.some line =>
    subst ht
    cases loadOf line with
    | none => simpa only [Placed, Option.elim, ha] using h
    | some b => exact ⟨{ h.1 with }, h.2⟩
  case circuit.some line =>
    subst ht
    cases circuitOf line with
    | none => simpa only [Placed, Option.elim, ha] using h
    | some c => exact ⟨{ h.1 with }, h.2⟩
  case loadAfter.some line =>
    subst ht
    cases loadOf line with
    | none => simpa only [Placed, Option.elim, ha] using h
    | some b => exact ⟨{ h.1 with }, h.2⟩

theorem readLine_spec (s : State) (taken : ℕ) (eof expired : Bool) :
    ∃ queue buffer, (readLine s taken eof expired).2 = { s with queue := queue, buffer := buffer } ∧
      (∀ k ∈ buffer ++ queue, k ∈ s.buffer ++ s.queue) ∧
      ∀ line, (readLine s taken eof expired).1 = some (some line) →
        ∀ k ∈ line, k ∈ s.buffer ++ s.queue := by
  have hu : ∀ k ∈ s.buffer ++ s.queue.take taken, k ∈ s.buffer ++ s.queue := fun k hk =>
    (mem_append.mp hk).elim (mem_append_left _) fun hq =>
      mem_append_right _ (mem_of_mem_take hq)
  have hqu : ∀ k ∈ s.queue.drop taken, k ∈ s.buffer ++ s.queue := fun k hk =>
    mem_append_right _ (mem_of_mem_drop hk)
  unfold readLine
  dsimp only
  split_ifs
  · exact ⟨_, _, rfl, fun k => id, nofun⟩
  · refine ⟨_, _, rfl, fun k hk => (mem_append.mp hk).elim (fun hb => ?_) (hqu k), ?_⟩
    · exact hu k ((dropWhile_suffix _).subset (mem_of_mem_tail hb))
    · rintro _ ⟨⟩ k hk
      exact hu k (( takeWhile_prefix _).subset hk)
  all_goals exact ⟨_, _, rfl, fun k hk => (mem_append.mp hk).elim (hu k) (hqu k), nofun⟩

theorem placed_step {a : Action} (h : Placed s) (hC : Spared s a) (ht : step cmd s a = some t) :
    Placed t := by
  cases a with
  | typed keys =>
    cases ht
    exact h.typed _ s.buffer
  | poll taken eof expired =>
    simp only [step] at ht
    obtain ⟨queue, buffer, hd, -⟩ := readLine_spec s taken eof expired
    split at ht
    · rename_i he
      split at ht <;> rename_i hl <;> rw [hl] at hd <;> cases hd
      · cases ht
        exact h.typed _ _
      · exact placed_answered (h.typed queue buffer) he ht
    · cases ht
  | returned executed => exact placed_returned h ht
  | fails =>
    refine placed_raise h (?_ : Struck s s.row _) (by simp +contextual) ht
    unfold Struck
    unfold Placed at h
    split <;> rename_i ha <;> simp only [ha] at h
    · exact .inl rfl
    · rcases h.2 with hr | hr <;> simp [hr, write, ha]
    · rfl
  | cancelled landed =>
    refine placed_raise h ?_ id ht
    simp only [Spared, spared] at hC
    unfold Struck
    split <;> rename_i ha
    · cases landed
      · exact .inl rfl
      · exact .inr (by simp [write, ha])
    · simp only [ha, Bool.or_eq_true, decide_eq_true_eq] at hC
      rcases hC with rfl | hr
      · exact .inl (by simp [write, ha])
      cases landed
      · exact .inl hr
      · exact .inl (by simp [write, ha])
    · cases hs : s.await <;> simp_all [write]

/-- Only what was typed with the line held answers for it. -/
structure Answers (cmd : Command) (s : State) : Prop where
  heard : ∀ k ∈ s.heard, k.late = true
  typed : s.await.hasDeadline = true → ∀ k ∈ s.buffer ++ s.queue, k.late = true
  observed : ∀ ob, s.collected = some ob → ∃ before after circuit,
    ob = observation cmd before after circuit

theorem Answers.raise {e : Raised} {u : State} (h : Answers cmd s) (ht : raise u e = some t)
    (hh : u.heard = s.heard) (hc : u.collected = s.collected) : Answers cmd t := by
  have hs : t.heard = s.heard ∧ t.collected = s.collected ∧ t.await.hasDeadline = false := by
    rw [← hh, ← hc]
    unfold ProofOperation.raise close leave release at ht
    split at ht <;> (try split_ifs at ht) <;> cases ht <;> exact ⟨rfl, rfl, rfl⟩
  exact ⟨hs.1 ▸ h.heard, by simp [hs.2.2], hs.2.1 ▸ h.observed⟩

theorem Answers.returned {executed : Bool} (h : Answers cmd s)
    (ht : returned s executed = some t) : Answers cmd t := by
  have hs : t.heard = s.heard ∧ t.collected = s.collected ∧
      (t.await.hasDeadline = false ∨ t.buffer ++ t.queue = []) := by
    unfold ProofOperation.returned close leave release at ht
    split at ht <;> (try split_ifs at ht) <;> cases ht <;> simp [Await.hasDeadline]
  refine ⟨hs.1 ▸ h.heard, fun hd => ?_, hs.2.1 ▸ h.observed⟩
  rcases hs.2.2 with hf | hf
  · exact absurd hd (by simp [hf])
  · simp [hf]

theorem Answers.answered {line : Option (List Key)} (h : Answers cmd s)
    (hline : s.await.hasDeadline = true → ∀ l, line = some l → ∀ k ∈ l, k.late = true)
    (ht : answered cmd s line = some t) : Answers cmd t := by
  unfold ProofOperation.answered at ht
  split at ht <;> split at ht
  · cases ht
    exact ⟨h.heard, nofun, h.observed⟩
  · cases ht
    exact ⟨h.heard, nofun, h.observed⟩
  · exact h.raise ht rfl rfl
  · cases ht
    cases loadOf _ with
    | none => exact h
    | some b => exact ⟨h.heard, nofun, h.observed⟩
  · split at ht
    · cases ht
      exact ⟨h.heard, nofun, h.observed⟩
    · exact h.raise ht rfl rfl
  · rename_i line _ ha
    have hh : ∀ k ∈ s.heard ++ line, k.late = true := fun k hk =>
      (mem_append.mp hk).elim (h.heard k) (hline (by simp [ha, Await.hasDeadline]) line rfl k)
    cases ht
    cases circuitOf line with
    | none => exact h
    | some c => exact ⟨hh, fun _ => h.typed (by simp [ha, Await.hasDeadline]), h.observed⟩
  · rename_i line _ ha
    have hh : ∀ k ∈ s.heard ++ line, k.late = true := fun k hk =>
      (mem_append.mp hk).elim (h.heard k) (hline (by simp [ha, Await.hasDeadline]) line rfl k)
    cases ht
    cases loadOf line with
    | none => exact h
    | some b => exact ⟨hh, nofun, fun _ ho => ⟨_, _, _, (some.inj ho).symm⟩⟩
  · cases ht

theorem Answers.step {a : Action} (h : Answers cmd s) (ht : step cmd s a = some t) :
    Answers cmd t := by
  cases a with
  | typed keys =>
    cases ht
    refine ⟨h.heard, fun hd k hk => ?_, h.observed⟩
    have htk : s.await.taken = true := by
      cases hs : s.await <;> simp_all [Await.hasDeadline, Await.taken]
    rcases mem_append.mp hk with hk | hk
    · exact h.typed hd k (mem_append_left _ hk)
    rcases mem_append.mp hk with hk | hk
    · exact h.typed hd k (mem_append_right _ hk)
    · obtain ⟨c, -, rfl⟩ := mem_map.mp hk
      exact htk
  | poll taken eof expired =>
    obtain ⟨queue, buffer, hr, hp, hline⟩ := readLine_spec s taken eof expired
    have ht' : Answers cmd { s with queue := queue, buffer := buffer } :=
      ⟨h.heard, fun hd k hk => h.typed hd k (hp k hk), h.observed⟩
    simp only [ProofOperation.step] at ht
    split at ht
    · split at ht <;> rename_i hl <;> rw [hl] at hr hline <;> cases hr
      · cases ht
        exact ht'
      · refine ht'.answered (fun hd l hl' k hk => ?_) ht
        exact h.typed hd k (hline l (congrArg some hl') k hk)
    · cases ht
  | returned executed => exact h.returned ht
  | fails => exact h.raise ht rfl rfl
  | cancelled landed => exact h.raise ht rfl rfl

/-! ### Every run -/

theorem acquire_split {before after rest : List Event} (hr : .acquire ∉ rest)
    (h : acted ++ rest = before ++ .acquire :: after) :
    before = [.nonceTyped, .rowRecorded] ∧ after = rest := by
  rcases before with _ | ⟨a, _ | ⟨b, _ | ⟨c, d⟩⟩⟩ <;> simp_all [acted]

def Shaped (events : List Event) : Prop :=
  .acquire ∉ events ∨ ∃ rest, .acquire ∉ rest ∧ events = acted ++ rest

theorem Placed.shaped (h : Placed s) : Shaped s.events := by
  have hl : Left s → Shaped s.events := fun h => by
    obtain ⟨rest, hr, he | he⟩ := h.events
    · exact .inr ⟨.disconnect :: rest, by simpa using hr, he⟩
    · exact .inl (he ▸ hr)
  unfold Placed at h
  split at h
  case h_1 | h_2 | h_3 => exact .inl (by simp [h.2])
  case h_12 | h_13 => exact hl h
  all_goals exact .inr ⟨_, by decide, h.1.events⟩

theorem Placed.row (h : Placed s) :
    s.row = none ∨ s.row = some recordedRow ∨ s.row = some (completedRow s) := by
  have hl : Left s → s.row = none ∨ s.row = some recordedRow ∨ s.row = some (completedRow s) :=
    fun h => h.row.elim (fun hr => .inl hr.1)
      (Or.elim · (fun hr => .inr (.inr hr)) (fun hr => .inr (.inl hr.1)))
  unfold Placed at h
  split at h
  case h_1 | h_2 | h_3 => exact .inl h.1.row
  case h_12 | h_13 => exact hl h
  case h_10 => exact .inr (.inr h.2)
  case h_11 => exact .inr h.2
  all_goals exact .inr (.inl h.2)

theorem completedRow_matched (h : Answers cmd s) : (completedRow s).attestation = some .matched ↔
      ∃ ob, s.collected = some ob ∧ observationAgrees cmd.zone ob = true := by
  unfold completedRow
  cases hs : s.collected with
  | none => simp
  | some ob =>
    obtain ⟨before, after, circuit, rfl⟩ := h.observed ob hs
    simp [attestationFor_observation]

/-- What holds of a command: the line is taken at most once, on the nonce and after the row; it is
given back; the row says what the driver reported; an observation is only what was typed with the
line held, and it is attested as the verifier would decide it. -/
structure Commanded (cmd : Command) (s : State) : Prop where
  acquired : ∀ before after, s.events = before ++ .acquire :: after →
    before = [.nonceTyped, .rowRecorded]
  released : ∀ raised before after, s.await = .ended raised →
    s.events = before ++ .acquire :: after → .disconnect ∈ after
  closed : ∀ raised, s.await = .ended raised → s.storeFailed = false →
    s.row = none ∧ .acquire ∉ s.events ∨ ∃ row, s.row = some row ∧ row.attestation.isSome ∧
      row.commandIssued = s.reported.getD false
  heard : ∀ k ∈ s.heard, k.late = true
  attested : ∀ row, s.row = some row → (row.attestation = some .matched ↔
    ∃ ob, row.observation = some ob ∧ observationAgrees cmd.zone ob = true)

theorem command_accounted (cmd : Command) {steps : List Action}
    (hC : Execution.Meets (step cmd) Spared {} steps) (hu : run cmd {} steps = some s) :
    Commanded cmd s := by
  have hp : Placed s := Execution.run_invariant_of_meets
    (fun _ _ _ h hC ht => placed_step h hC ht) (show Placed {} from ⟨⟨rfl, rfl, rfl, rfl⟩, rfl⟩)
    hC hu
  have hn : Answers cmd s := Execution.run_invariant
    (fun _ _ _ h ht => Answers.step h ht) ⟨by simp, by simp, by simp⟩ hu
  have hs : ∀ before after, s.events = before ++ .acquire :: after →
      ∃ rest, s.events = acted ++ rest ∧ before = [.nonceTyped, .rowRecorded] ∧ after = rest := by
    intro before after he
    rcases hp.shaped with hno | ⟨rest, hrs, hr⟩
    · exact absurd (he ▸ by simp) hno
    · exact ⟨rest, hr, acquire_split hrs (hr ▸ he)⟩
  constructor
  · intro before after he
    obtain ⟨-, -, hb, -⟩ := hs before after he
    exact hb
  · intro raised before after ha he
    obtain ⟨rest, hr, -, rfl⟩ := hs before after he
    simp only [Placed, ha] at hp
    obtain ⟨late, hlt, hl | hl⟩ := hp.events
    · rw [append_cancel_left (hr.symm.trans hl)]
      exact mem_cons_self
    · exact absurd (by simp [acted, ← hl, hr]) hlt
  · intro raised ha hst
    simp only [Placed, ha] at hp
    rcases hp.row with hr | hr | ⟨-, hf⟩
    · exact .inl hr
    · exact .inr ⟨_, hr, rfl, hp.reported⟩
    · cases hst.symm.trans hf
  · exact hn.heard
  · intro row hr
    rcases hp.row with ho | ho | ho <;> cases ho.symm.trans hr
    · simp [recordedRow]
    · exact completedRow_matched hn

section Bench

def benchCommand : Command where
  zone := siteZone
  gpioPin := 17
  activeHigh := true
  bound := rfl
  outcome := .closeProtectedCircuit
  nonce := text "A1B2C3"

/-- The nonce is typed back and the line is taken. -/
def benchTaken : List Action :=
  [.typed (text "n\nA1B2C3\n"), .poll 4096 false false, .poll 0 false false, .returned true,
    .returned true]

def benchMatched : List Action :=
  benchTaken ++ [.typed (text "closed\ny\n"), .poll 9 false false, .poll 9 false false] ++
    replicate 4 (.returned true)

theorem command_accounted_matched : ∃ s, run benchCommand {} benchMatched = some s ∧
    Commanded benchCommand s ∧ s.row.bind AuditRow.attestation = some .matched := by
  obtain ⟨s, hs, hm⟩ : ∃ s, run benchCommand {} benchMatched = some s ∧
      s.row.bind AuditRow.attestation = some .matched :=
    Execution.exists_of_check (by decide +kernel)
  exact ⟨s, hs, command_accounted benchCommand
    (Execution.meets_of_check (c := spared) (fun _ _ h => h) (by decide +kernel)) hs, hm⟩

/-- A second signal lands while the audit row is being closed. -/
theorem command_accounted_signals : ¬ ∀ cmd steps s, run cmd {} steps = some s →
    Commanded cmd s := by
  intro h
  obtain ⟨s, hs, ha, hf, hr⟩ : ∃ s, run benchCommand {}
      (benchTaken ++ [.cancelled false, .returned true, .cancelled false]) = some s ∧
        s.await = .ended (some .cancelled) ∧ s.storeFailed = false ∧ s.row = some recordedRow :=
    Execution.exists_of_check (by decide +kernel)
  rcases (h _ _ _ hs).closed _ ha hf with ⟨hn, -⟩ | ⟨row, ho, hatt, -⟩
  · cases hn.symm.trans hr
  · cases ho.symm.trans hr
    cases hatt

end Bench

end OriRuntime.ProofOperation
