import Mathlib.Data.NNRat.Floor
import Mathlib.Tactic

/-!
# The bound of a gateway family

`IngressBound` of `ori/gateway/payload_bounds.py`, over exact seconds, and the size of the replay
cache the families share. The clock is read under the lock and does not go back.
-/

namespace OriRuntime

/-- A message some time after the one before; what is not bytes has no length. -/
structure IngressMessage where
  wait : ℚ≥0
  length : Option ℕ
  overRate : String

structure Rate where
  perSecond : ℚ≥0
  burst : ℕ

structure IngressBound extends Rate where
  maximum : ℕ
  tokens : ℚ
  last : ℚ
  nonneg : 0 ≤ tokens

namespace IngressBound

variable (b : IngressBound) (now : ℚ)

def refilled : ℚ := min b.burst (b.tokens + max 0 (now - b.last) * b.perSecond)

theorem refilled_nonneg : 0 ≤ b.refilled now := by
  have := b.nonneg
  unfold refilled
  positivity

def spend (spent : ℚ) (h : spent ≤ b.refilled now) : IngressBound :=
  { b with tokens := b.refilled now - spent, last := now, nonneg := sub_nonneg.mpr h }

/-- The reason the message is refused, none where it may be read, and what is then held. -/
def admission (m : IngressMessage) : Option String × IngressBound :=
  if m.length.any (· ≤ b.maximum) then
    if h : 1 ≤ b.refilled now then (none, b.spend now 1 h)
    else (some m.overRate, b.spend now 0 (b.refilled_nonneg now))
  else (some "payload_too_large", b)

/-- How many of the messages are read. -/
def reads : IngressBound → ℚ → List IngressMessage → ℕ
  | _, _, [] => 0
  | b, now, m :: ms =>
    match b.admission (now + m.wait) m with
    | (none, c) => reads c (now + m.wait) ms + 1
    | (some _, c) => reads c (now + m.wait) ms

variable {b now}

theorem reads_le_credit {credit : ℚ} (hc : 0 ≤ credit)
    (hr : ∀ d : ℚ≥0, b.refilled (now + d) ≤ credit + d * b.perSecond) (ms : List IngressMessage) :
    b.reads now ms ≤ credit + (ms.map (·.wait)).sum * b.perSecond := by
  induction ms generalizing b now credit with
  | nil => simp [reads, hc]
  | cons m ms ih =>
    have hm := hr m.wait
    have hi : ∀ spent hp, (b.spend (now + m.wait) spent hp).reads (now + m.wait) ms ≤
        b.refilled (now + m.wait) - spent + (ms.map (·.wait)).sum * b.perSecond := by
      intro spent hp
      apply ih (sub_nonneg.mpr hp)
      intro d
      rw [refilled, spend, add_sub_cancel_left, max_eq_right (NNRat.cast_nonneg d)]
      exact min_le_right _ _
    rw [List.map_cons, List.sum_cons, NNRat.coe_add, add_mul, ← add_assoc]
    unfold reads admission
    split_ifs with _ hp
    · have := hi 1 hp
      rw [Nat.cast_succ]
      linarith
    · linarith [hi 0 (b.refilled_nonneg _)]
    · apply ih (by positivity)
      intro d
      have := hr (m.wait + d)
      rw [NNRat.coe_add] at this
      rw [add_assoc]
      linarith

theorem refilled_le (d : ℚ≥0) : b.refilled (now + d) ≤ b.burst + d * b.perSecond :=
  (min_le_left _ _).trans (le_add_of_nonneg_right (by positivity))

/-- Whatever came before, the messages read in a window are at most the burst and what the rate
gives over the window. -/
theorem reads_le_window (ms : List IngressMessage) :
    (b.reads now ms : ℚ) ≤ b.burst + (ms.map (·.wait)).sum * b.perSecond :=
  reads_le_credit (Nat.cast_nonneg _) refilled_le ms

end IngressBound

/-- The rate of each family the runtime receives. -/
def ingressRates : List (String × Rate) :=
  [("ori/gateway/health", ⟨1, 5⟩), ("ori/{device_id}/reasoning/response", ⟨10, 20⟩),
    ("ori/{device_id}/export/request", ⟨2, 10⟩),
    ("ori/{device_id}/evidence/outbound/ack", ⟨20, 64⟩),
    ("ori/{device_id}/evidence/inbound", ⟨10, 32⟩)]

def replayCacheFloor : ℕ := 4096

def replayCacheCeiling : ℕ := 131072

def windowS (ttlMs : ℤ) : ℚ≥0 := ttlMs.toNat / 1000

def replayCapacity (ttlMs : ℤ) : ℕ :=
  min replayCacheCeiling (max replayCacheFloor
    (⌈(ingressRates.map (·.2.perSecond)).sum * windowS ttlMs⌉₊ +
      (ingressRates.map (·.2.burst)).sum))

/-- What reaches a family within a window. -/
structure FamilyWindow (t : ℚ≥0) (f : String × Rate) extends IngressBound where
  now : ℚ
  messages : List IngressMessage
  rate : toRate = f.2
  within : (messages.map (·.wait)).sum ≤ t

namespace FamilyWindow

variable {t : ℚ≥0} {f : String × Rate} (w : FamilyWindow t f)

def admitted : ℕ := w.reads w.now w.messages

theorem admitted_le : (w.admitted : ℚ≥0) ≤ f.2.perSecond * t + f.2.burst := by
  have h : (w.admitted : ℚ≥0) ≤ w.burst + (w.messages.map (·.wait)).sum * w.perSecond := by
    exact_mod_cast IngressBound.reads_le_credit (Nat.cast_nonneg _) IngressBound.refilled_le _
  rw [add_comm, mul_comm, ← w.rate]
  exact h.trans (by gcongr; exact w.within)

end FamilyWindow

/-- What the families admit in a replay window fits the cache they share, up to its ceiling. -/
theorem admitted_le_replayCapacity (ttlMs : ℤ) (w : ∀ f, FamilyWindow (windowS ttlMs) f) :
    min replayCacheCeiling (ingressRates.map fun f => (w f).admitted).sum ≤
      replayCapacity ttlMs := by
  refine min_le_min_left _ (le_max_of_le_right ?_)
  suffices h : ((ingressRates.map fun f => (w f).admitted).sum : ℚ≥0) ≤
      (ingressRates.map (·.2.perSecond)).sum * windowS ttlMs +
        (ingressRates.map (·.2.burst)).sum by
    exact_mod_cast h.trans (add_le_add_left (Nat.le_ceil _) _)
  induction ingressRates with
  | nil => simp
  | cons f fs ih =>
    simp only [List.map_cons, List.sum_cons, Nat.cast_add, add_mul]
    exact (add_le_add (w f).admitted_le ih).trans_eq (add_add_add_comm _ _ _ _)

/-! ### The log of refusals -/

structure Refused where
  time : ℚ
  sizeClass : Option ℤ

/-- What is kept of one reason, its counts and size classes as the refusals they are of. -/
structure RefusalLog where
  clock : ℚ
  refusals : List Refused := []
  unlogged : List Refused := []
  loggedAt : Option ℚ := none
  flush : Option ℚ := none
  lines : List (ℚ × List Refused) := []

/-- The timer, or a refusal and whether a timer could be started. -/
inductive RefusalTurn
  | timer
  | refuse (sizeClass : Option ℤ) (starts : Bool)

def RefusalTurn.starts : RefusalTurn → Bool
  | .timer => true
  | .refuse _ starts => starts

namespace RefusalLog

variable (s : RefusalLog)

/-- `_take`, and the line `_log` writes. -/
def take : RefusalLog :=
  { s with
    unlogged := []
    loggedAt := some s.clock
    lines := if s.unlogged.isEmpty then s.lines else s.lines ++ [(s.clock, s.unlogged)] }

def refuse (r : Refused) (starts : Bool) : RefusalLog :=
  let s := { s with refusals := s.refusals ++ [r], unlogged := s.unlogged ++ [r] }
  if s.flush.isSome then s
  else if starts && s.loggedAt.any (s.clock < · + 1) then
    { s with flush := s.loggedAt.map (· + 1) }
  else s.take

def flushPending : RefusalLog :=
  if s.flush.any (· ≤ s.clock) then take { s with flush := none } else s

/-- What one hold of the lock does, some time after the one before. -/
def step (s : RefusalLog) (t : ℚ≥0 × RefusalTurn) : RefusalLog :=
  let s := { s with clock := s.clock + t.1 }
  match t.2 with
  | .timer => s.flushPending
  | .refuse sizeClass starts => s.refuse ⟨s.clock, sizeClass⟩ starts

/-- Each refusal is in one line or in none yet; `p` says that every timer could be started. -/
structure Told (p : Prop) : Prop where
  told : s.refusals = s.lines.flatMap (·.2) ++ s.unlogged
  shown : ∀ l ∈ s.lines, l.2 ≠ []
  last : ∀ t ∈ s.loggedAt, t ≤ s.clock
  apart : p → s.lines.Pairwise (·.1 + 1 ≤ ·.1) ∧ ∀ l ∈ s.lines, ∃ t ∈ s.loggedAt, l.1 ≤ t

/-- What is in no line yet waits for a timer due within a second of it. -/
structure Sound (p : Prop) : Prop extends s.Told p where
  idle : s.flush = none → s.unlogged = []
  due : ∀ d ∈ s.flush, s.loggedAt = some (d - 1) ∧ s.unlogged ≠ [] ∧
    ∀ r ∈ s.unlogged, d ≤ r.time + 1

variable {s} {p : Prop}

theorem Told.take (h : s.Told p) (hs : s.unlogged ≠ [])
    (hp : p → ∀ t ∈ s.loggedAt, t + 1 ≤ s.clock) (hf : s.flush = none) : s.take.Sound p := by
  have hl : s.take.lines = s.lines ++ [(s.clock, s.unlogged)] := if_neg (by simpa using hs)
  refine { told := ?_, shown := ?_, last := ?_, apart := fun hq => ?_, idle := ?_, due := ?_ }
  · rw [hl]
    simp [RefusalLog.take, h.told]
  · rw [hl]
    exact List.forall_mem_append.mpr ⟨h.shown, by simpa using hs⟩
  · simp [RefusalLog.take]
  · obtain ⟨ho, hm⟩ := h.apart hq
    rw [hl]
    refine ⟨List.pairwise_append.mpr ⟨ho, List.pairwise_singleton _ _, ?_⟩, ?_⟩
    · intro l hl l' hl'
      obtain ⟨t, ht, hle⟩ := hm l hl
      rw [List.mem_singleton.mp hl']
      linarith [hp hq t ht]
    · intro l hl
      refine ⟨s.clock, rfl, ?_⟩
      obtain hl | hl := List.mem_append.mp hl
      · obtain ⟨t, ht, hle⟩ := hm l hl
        exact hle.trans (h.last t ht)
      · rw [List.mem_singleton.mp hl]
  · exact fun _ => rfl
  · simp [RefusalLog.take, hf]

theorem Sound.refuse (h : s.Sound p) {c : Option ℤ} {starts : Bool} (hp : p → starts = true) :
    (s.refuse ⟨s.clock, c⟩ starts).Sound p := by
  have ht : Told { s with
      refusals := s.refusals ++ [⟨s.clock, c⟩], unlogged := s.unlogged ++ [⟨s.clock, c⟩] } p :=
    { h.toTold with told := by simp [h.told] }
  unfold RefusalLog.refuse
  dsimp only
  split_ifs with hf hw
  · refine { ht with idle := (absurd · (Option.isSome_iff_ne_none.mp hf)), due := fun d hd => ?_ }
    obtain ⟨hl, -, hr⟩ := h.due d hd
    refine ⟨hl, by simp, fun r hr' => ?_⟩
    obtain hr' | hr' := List.mem_append.mp hr'
    · exact hr r hr'
    · rw [List.mem_singleton.mp hr']
      linarith [h.last _ hl]
  · obtain ⟨t, hl, -⟩ := (Option.any_eq_true _ _).mp (Bool.and_eq_true_iff.mp hw).2
    refine { ht with idle := by simp [hl], due := ?_ }
    simpa [hl, h.idle (by simpa using hf)] using h.last t hl
  · refine ht.take (by simp) (fun hq t hl => ?_) (by simpa using hf)
    have hl : s.loggedAt = some t := hl
    simpa [hp hq, hl] using hw

theorem Sound.step (h : s.Sound p) {t : ℚ≥0 × RefusalTurn} (hp : p → t.2.starts = true) :
    (s.step t).Sound p := by
  have h : Sound { s with clock := s.clock + t.1 } p :=
    { h with last := fun u hu => (h.last u hu).trans (le_add_of_nonneg_right t.1.cast_nonneg) }
  obtain ⟨d, _ | ⟨c, starts⟩⟩ := t
  · simp only [RefusalLog.step, flushPending]
    split_ifs with hf
    · obtain ⟨d', hd, hle⟩ := (Option.any_eq_true _ _).mp hf
      obtain ⟨hl, hn, -⟩ := h.due d' hd
      refine Told.take (s := { s with clock := _, flush := none }) { h with } hn ?_ rfl
      intro _ t ht
      obtain rfl := Option.some.inj (hl.symm.trans ht)
      simpa using hle
    · exact h
  · exact h.refuse hp

end RefusalLog

end OriRuntime
