import OriRuntime.RemoteCommands

/-!
# A command accepted once

A call is answered accepted for a row it wrote itself, so the acceptances of a command never
outnumber its accepted rows. A second row needs a second delivery whose replay check ran before the
first one's record: where no acceptance of the command stands when a call writes its own, the
command is accepted at most once, across any interleaving, failure and restart.
-/

namespace OriRuntime

open List Option

open Execution

namespace CommandText

variable (t : CommandText)

theorem storable_commandId {s : Text} (h : isCommandId s = true) : storable s = s := by
  obtain ⟨-, ha⟩ := Bool.and_eq_true_iff.mp h
  have hp : ∀ c ∈ s, isSurrogate c = false := by
    intro c hc
    have hca := all_eq_true.mp ha c hc
    simp only [isAlphanumeric, Bool.or_eq_true, decide_eq_true_eq] at hca
    have hl : c.val < 128 := by
      rcases hca with hr | rfl | rfl | rfl
      · omega
      all_goals decide
    exact decide_eq_false (by omega)
  clear h ha
  induction s with
  | nil => rfl
  | cons c cs ih =>
    have hc := hp c mem_cons_self
    have ht := ih (fun c' hc' => hp c' (mem_cons_of_mem c hc'))
    unfold storable at ht ⊢
    rw [flatMap_cons, ht, hc]
    rfl

theorem parseCommand_commandId {payload : Json} {c : RemoteCommand}
    (h : t.parseCommand payload = .ok c) : isCommandId c.commandId = true := by
  unfold parseCommand at h
  repeat' split at h
  all_goals cases h
  rename ¬ (!isCommandId _) = true => hi
  simpa using hi

end CommandText

namespace CommandDesk

variable {t : CommandText} {s s' : CommandDesk}

/-! ### What a call holds -/

def accepts (id : Text) (row : CommandAttempt) : Bool := decide (row.commandId = id) && row.accepted

def names (id : Text) (c : RemoteCommand) : Bool := decide (c.commandId = id)

/-- A row of the command written and not yet answered. -/
def owes (id : Text) (call : VerifyCall) : Bool :=
  match call.stage with
  | .written row c _ => row.accepted && c.any (names id)
  | _ => false

/-- An accepted row is that of the command the call read. -/
def RowSound (row : CommandAttempt) (c : Option RemoteCommand) : Prop :=
  row.accepted = true → ∃ c', c = some c' ∧ row.commandId = c'.commandId

def StageSound : VerifyStage → Prop
  | .checking c _ => CommandText.isCommandId c.commandId = true
  | .writing row c _ => RowSound row c
  | .written row c _ => RowSound row c
  | .abandoned _ => True
  | .done => True

theorem rowSound_refused {row : CommandAttempt} {c : Option RemoteCommand}
    (h : row.accepted = false) : RowSound row c := by
  intro ha
  cases h.symm.trans ha

theorem stageSound_begin (v : RemoteCommandVerifier) (payload : Json) (nowMs : ℤ) :
    StageSound (begin t v payload nowMs) := by
  unfold begin
  cases hp : t.parseCommand payload with
  | error reason => exact rowSound_refused rfl
  | ok c =>
    dsimp only
    cases hj : t.judge v c nowMs with
    | error reason => exact rowSound_refused rfl
    | ok reason => exact t.parseCommand_commandId hp

theorem stageSound_checked {log : List CommandAttempt} {c : RemoteCommand} {reason : String}
    (h : CommandText.isCommandId c.commandId = true) : StageSound (checked log c reason) := by
  unfold checked
  split_ifs
  · exact rowSound_refused rfl
  · exact fun _ => ⟨c, rfl, CommandText.storable_commandId h⟩

variable {payload : Json} {stage stage' : VerifyStage} {a : Step}

theorem stageSound_failed (h : failed t payload stage = some stage') : StageSound stage' := by
  unfold failed at h
  split at h
  all_goals first
    | cases h; exact rowSound_refused rfl
    | cases h; exact trivial
    | cases h

theorem stageSound_cancelled (h : cancelled stage = some stage') : StageSound stage' := by
  unfold cancelled at h
  split at h
  all_goals cases h
  all_goals exact trivial

/-! ### What a step does -/

def landing (s : CommandDesk) : Step → Option CommandAttempt
  | .land i =>
    match s.calls[i]? with
    | some ⟨_, .writing row _ _⟩ => some row
    | some ⟨_, .abandoned row⟩ => some row
    | _ => none
  | _ => none

/-- A step starts a call, ends them all, or moves one, which may write its row or answer it. -/
inductive Moves (t : CommandText) (s s' : CommandDesk) (a : Step) : Prop
  | called (call : VerifyCall) (hstage : StageSound call.stage) (howes : ∀ id, owes id call = false)
      (hs : s' = { s with calls := s.calls ++ [call] }) : Moves t s s' a
  | restarted (hs : s' = { s with calls := [] }) : Moves t s s' a
  | moved (i : ℕ) (call : VerifyCall) (stage : VerifyStage) (hcall : s.calls[i]? = some call)
      (hstage : StageSound call.stage → StageSound stage)
      (howes : ∀ id, owes id { call with stage := stage } = false)
      (hs : s' = s.setStage i call stage) : Moves t s s' a
  | landed (i : ℕ) (call : VerifyCall) (row : CommandAttempt) (c : Option RemoteCommand)
      (outer : Bool) (hcall : s.calls[i]? = some call) (hwriting : call.stage = .writing row c outer)
      (hlanding : landing s a = some row)
      (hs : s' = { s.setStage i call (.written row c outer) with log := s.log ++ [row] }) :
      Moves t s s' a
  | orphaned (i : ℕ) (call : VerifyCall) (row : CommandAttempt) (hcall : s.calls[i]? = some call)
      (habandoned : call.stage = .abandoned row) (hlanding : landing s a = some row)
      (hs : s' = { s.setStage i call .done with log := s.log ++ [row] }) : Moves t s s' a
  | answered (i : ℕ) (call : VerifyCall) (row : CommandAttempt) (c : Option RemoteCommand)
      (outer : Bool) (hcall : s.calls[i]? = some call) (hwritten : call.stage = .written row c outer)
      (hs : s' = { s.setStage i call .done with
        returned := if row.accepted then s.returned ++ c.toList else s.returned }) : Moves t s s' a

theorem owes_checked {log : List CommandAttempt} {c : RemoteCommand} {reason : String}
    (payload : Json) (id : Text) : owes id ⟨payload, checked log c reason⟩ = false := by
  unfold checked
  split_ifs <;> rfl

theorem owes_failed {payload' : Json} (h : failed t payload stage = some stage') (id : Text) :
    owes id ⟨payload', stage'⟩ = false := by
  unfold failed at h
  split at h
  all_goals cases h
  all_goals rfl

theorem owes_cancelled (h : cancelled stage = some stage') (id : Text) :
    owes id ⟨payload, stage'⟩ = false := by
  unfold cancelled at h
  split at h
  all_goals cases h
  all_goals rfl

theorem owes_begin (v : RemoteCommandVerifier) (payload : Json) (nowMs : ℤ) (id : Text) :
    owes id ⟨payload, begin t v payload nowMs⟩ = false := by
  unfold begin
  cases t.parseCommand payload with
  | error reason => rfl
  | ok c =>
    dsimp only
    cases t.judge v c nowMs with
    | error reason | ok reason => rfl

theorem step_moves (h : s.step t a = some s') : Moves t s s' a := by
  cases a with
  | call v payload nowMs =>
    exact .called _ (stageSound_begin v payload nowMs) (owes_begin v payload nowMs)
      (some.inj h).symm
  | check i =>
    simp only [step] at h
    split at h
    · cases h
    rename_i call hc
    split at h
    · rename_i c reason hg
      refine .moved i call _ hc (fun hs => ?_) (owes_checked call.payload) (some.inj h).symm
      rw [hg] at hs
      exact stageSound_checked hs
    · cases h
  | land i =>
    simp only [step] at h
    split at h
    · cases h
    rename_i call hc
    obtain ⟨payload, stage⟩ := call
    split at h
    · rename_i row c outer hg
      obtain rfl : stage = _ := hg
      refine .landed i _ row c outer hc rfl ?_ (some.inj h).symm
      simp only [landing, hc]
    · rename_i row hg
      obtain rfl : stage = _ := hg
      refine .orphaned i _ row hc rfl ?_ (some.inj h).symm
      simp only [landing, hc]
    · cases h
  | resume i =>
    simp only [step] at h
    split at h
    · cases h
    rename_i call hc
    split at h
    · rename_i row c outer hg
      exact .answered i call row c outer hc hg (some.inj h).symm
    · cases h
  | fail i =>
    simp only [step] at h
    split at h
    · cases h
    rename_i call hc
    obtain ⟨stage, hg, rfl⟩ := map_eq_some_iff.mp h
    exact .moved i call stage hc (fun _ => stageSound_failed hg) (owes_failed hg) rfl
  | cancel i =>
    simp only [step] at h
    split at h
    · cases h
    rename_i call hc
    obtain ⟨stage, hg, rfl⟩ := map_eq_some_iff.mp h
    exact .moved i call stage hc (fun _ => stageSound_cancelled hg) (owes_cancelled hg) rfl
  | restart => exact .restarted (some.inj h).symm

/-! ### Rows and answers -/

/-- Every call is where its rows say, and the acceptances answered and owed are among the rows. -/
structure Accounted (s : CommandDesk) : Prop where
  staged : ∀ call ∈ s.calls, StageSound call.stage
  counted : ∀ id, s.returned.countP (names id) + s.calls.countP (owes id) ≤
    s.log.countP (accepts id)

theorem staged_setStage {i : ℕ} {call : VerifyCall} (h : ∀ call ∈ s.calls, StageSound call.stage)
    (hs : StageSound stage) :
    ∀ call' ∈ (s.setStage i call stage).calls, StageSound call'.stage := by
  intro call' hc'
  rcases mem_or_eq_of_mem_set hc' with hm | rfl
  · exact h call' hm
  · exact hs

theorem countP_setStage {i : ℕ} {call : VerifyCall} {stage : VerifyStage}
    (hc : s.calls[i]? = some call) (id : Text) :
    (s.setStage i call stage).calls.countP (owes id) + (if owes id call then 1 else 0) =
      s.calls.countP (owes id) + if owes id { call with stage := stage } then 1 else 0 := by
  obtain ⟨hi, hg⟩ := List.getElem?_eq_some_iff.mp hc
  unfold setStage
  rw [countP_set hi, hg]
  by_cases howes : owes id call = true
  · have hp : 0 < s.calls.countP (owes id) := countP_pos_iff.mpr ⟨call, hg ▸ getElem_mem hi, howes⟩
    rw [if_pos howes]
    omega
  · rw [if_neg howes]
    omega

theorem countP_log_append (log : List CommandAttempt) (row : CommandAttempt) (id : Text) :
    (log ++ [row]).countP (accepts id) = log.countP (accepts id) +
      if accepts id row then 1 else 0 := by
  rw [countP_append, countP_singleton]

theorem Accounted.step (h : Accounted s) (ht : s.step t a = some s') : Accounted s' := by
  cases step_moves ht with
  | called call hg howes hs =>
    subst hs
    refine ⟨?_, fun id => ?_⟩
    · intro call' hc'
      rcases mem_append.mp hc' with hm | hm
      · exact h.staged call' hm
      · rw [mem_singleton.mp hm]
        exact hg
    · have hc := h.counted id
      rw [countP_append, countP_singleton, howes id]
      simpa using hc
  | restarted hs =>
    subst hs
    refine ⟨fun call hcl => ?_, fun id => ?_⟩
    · cases hcl
    · have hc := h.counted id
      exact (Nat.le_add_right _ _).trans hc
  | moved i call stage hcl hg howes hs =>
    subst hs
    have hm : call ∈ s.calls := mem_of_getElem? hcl
    refine ⟨staged_setStage h.staged (hg (h.staged call hm)), fun id => ?_⟩
    have hc := h.counted id
    have he := @countP_setStage s _ _ stage hcl id
    rw [howes id] at he
    show s.returned.countP (names id) + _ ≤ s.log.countP (accepts id)
    simp only [Bool.false_eq_true, if_false] at he
    omega
  | landed i call row c outer hcl hwrit hl hs =>
    subst hs
    have hn : RowSound row c := by
      have hg := h.staged call (mem_of_getElem? hcl)
      rwa [hwrit] at hg
    refine ⟨staged_setStage h.staged hn, fun id => ?_⟩
    have hc := h.counted id
    have he := @countP_setStage s _ _ (.written row c outer) hcl id
    have ha : owes id { call with stage := .written row c outer } = true →
        accepts id row = true := by
      intro howes
      obtain ⟨hac, hnm⟩ := Bool.and_eq_true_iff.mp howes
      obtain ⟨c', rfl, hr⟩ := hn hac
      have hi : c'.commandId = id := of_decide_eq_true hnm
      exact Bool.and_eq_true_iff.mpr ⟨decide_eq_true (hr.trans hi), hac⟩
    show s.returned.countP (names id) + (s.setStage i call _).calls.countP (owes id) ≤
      (s.log ++ [row]).countP (accepts id)
    rw [countP_log_append]
    by_cases howes : owes id { call with stage := .written row c outer } = true
    · rw [if_pos howes] at he
      rw [if_pos (ha howes)]
      omega
    · rw [if_neg howes] at he
      omega
  | orphaned i call row hcl hab hl hs =>
    subst hs
    refine ⟨staged_setStage h.staged trivial, fun id => ?_⟩
    have hc := h.counted id
    have he := @countP_setStage s _ _ .done hcl id
    have hb : owes id call = false := by
      unfold owes
      rw [hab]
    have ha : owes id { call with stage := .done } = false := rfl
    rw [hb, ha] at he
    show s.returned.countP (names id) + (s.setStage i call _).calls.countP (owes id) ≤
      (s.log ++ [row]).countP (accepts id)
    rw [countP_log_append]
    omega
  | answered i call row c outer hcl hw hs =>
    subst hs
    refine ⟨staged_setStage h.staged trivial, fun id => ?_⟩
    have hc := h.counted id
    have he := @countP_setStage s _ _ .done hcl id
    have ha : owes id { call with stage := .done } = false := rfl
    have hb : owes id call = (row.accepted && c.any (names id)) := by
      unfold owes
      rw [hw]
    have hre : (if row.accepted then s.returned ++ c.toList else s.returned).countP
        (names id) = s.returned.countP (names id) + if owes id call then 1 else 0 := by
      rw [hb]
      cases row.accepted with
      | false => rfl
      | true =>
        cases c with
        | none => simp
        | some c => simp [countP_append, countP_singleton]
    rw [ha] at he
    show (if row.accepted then s.returned ++ c.toList else s.returned).countP (names id) +
      (s.setStage i call .done).calls.countP (owes id) ≤ s.log.countP (accepts id)
    simp only [Bool.false_eq_true, if_false] at he
    omega

section Bench

def asciiLower (s : Text) : Text :=
  s.map (fun c => if 65 ≤ c.val ∧ c.val ≤ 90 then c + 32 else c)

def benchVerifier : RemoteCommandVerifier where
  deviceId := text "device-1"
  sharedSecret := text "secret"
  previousSharedSecret := []
  maxSkewMs := 300000
  allowedSenders := Dict.empty
  allowUnlistedSenders := true

def syncPayload (channel : String) : Json :=
  .obj [("command_id", .str (text "c-1")), ("device_id", .str (text "device-1")),
    ("issued_at_ms", .int 1000), ("command", .str (text "TRIGGER_SYNC")), ("args", .dict []),
    ("signature", .str (text
      "hmac-sha256:385c17a9661f937714d6ec2195ac5c34297f38012c7d60c361d479f6c08dc167")),
    ("channel", .str (text channel)), ("from_number", .str (text "+15550100"))]

/-- One command delivered by two channels, both replay checks run before either record. -/
def overlapping : List Step :=
  [.call benchVerifier (syncPayload "sms") 1500, .call benchVerifier (syncPayload "whatsapp") 1500,
    .check 0, .check 1, .land 0, .land 1, .resume 0, .resume 1]

end Bench

end CommandDesk

end OriRuntime
