import OriRuntime.Execution
import OriRuntime.JsonParse

/-!
# Signed webhook requests

`WebhookSignatureVerifier` of `ori/security/webhook_signatures.py`, over the nonce log of
`ori/state/_remote_commands.py` or the cache in memory. A call reads the clock when it starts. Its
write waits for the store's write lock, which is handed on in the order it was asked for, and then
runs on the store's one write thread.
-/

namespace OriRuntime

open List

open Execution

/-! ### Nonces kept for a while -/

section Nonces

variable {κ : Type} [DecidableEq κ]

/-- Expired keys are deleted, and a key that is not held is admitted if there is room. -/
def admitNonce (room : Option ℕ) (held : List (κ × ℤ)) (currentMs : ℤ) (key : κ) (expiresMs : ℤ) :
    Bool × List (κ × ℤ) :=
  let kept := held.filter (fun entry => decide (currentMs < entry.2))
  if kept.any (fun entry => decide (entry.1 = key)) then (false, kept)
  else if room.any (fun most => decide (most ≤ kept.length)) then (false, kept)
  else (true, kept ++ [(key, expiresMs)])

/-- `_record_webhook_nonce_sync`; the key is the row's source and nonce. -/
def recordWebhookNonce (rows : List ((Text × Text) × ℤ)) (source nonce : Text) (receivedAtMs : ℤ)
    (expiresAtMs : ℤ) : Bool × List ((Text × Text) × ℤ) :=
  admitNonce none rows receivedAtMs (source, nonce) expiresAtMs

def markSeen (maxEntries : ℕ) (seenUntilMs : List (Text × ℤ)) (key : Text) (currentMs : ℤ)
    (expiresMs : ℤ) : Bool × List (Text × ℤ) :=
  admitNonce (some maxEntries) seenUntilMs currentMs key expiresMs

variable {room : Option ℕ} {held : List (κ × ℤ)} {currentMs expiresMs : ℤ} {key : κ}

theorem mem_admitNonce {entry : κ × ℤ} (h : entry ∈ held) (hl : currentMs < entry.2) :
    entry ∈ (admitNonce room held currentMs key expiresMs).2 := by
  have hk : entry ∈ held.filter (fun entry => decide (currentMs < entry.2)) :=
    mem_filter.mpr ⟨h, decide_eq_true hl⟩
  unfold admitNonce
  dsimp only
  split_ifs
  · exact hk
  · exact hk
  · exact mem_append_left _ hk

theorem admitNonce_admits (h : (admitNonce room held currentMs key expiresMs).1 = true) :
    (key, expiresMs) ∈ (admitNonce room held currentMs key expiresMs).2 ∧
      ∀ entry ∈ held, currentMs < entry.2 → entry.1 ≠ key := by
  unfold admitNonce at h ⊢
  dsimp only at h ⊢
  split_ifs at h ⊢ with hh hroom
  refine ⟨mem_append_right _ (mem_singleton_self _), fun entry he hl heq => hh ?_⟩
  exact any_eq_true.mpr ⟨entry, mem_filter.mpr ⟨he, decide_eq_true hl⟩, decide_eq_true heq⟩

theorem length_admitNonce {most : ℕ} (h : held.length ≤ most) :
    (admitNonce (some most) held currentMs key expiresMs).2.length ≤ most := by
  have hl := (length_filter_le (fun entry => decide (currentMs < entry.2)) held).trans h
  unfold admitNonce
  dsimp only
  split_ifs with hh hroom
  · exact hl
  · exact hl
  · rw [Option.any_some, decide_eq_true_eq] at hroom
    rw [length_append, length_singleton]
    omega

end Nonces

/-! ### The verifier -/

structure WebhookRequest where
  headers : List (Text × Text)
  body : List UInt8

structure WebhookSignatureVerifier where
  tokenOnly : Bool
  secret : Text
  previousSecret : Text
  signatureHeader : Text
  timestampHeader : Text
  nonceHeader : Text
  maxSkewMs : ℤ
  replayTtlMs : ℤ
  requireNonce : Bool

/-- How header names are normalised, and the tag over a timestamp, a nonce and a body. -/
structure WebhookText where
  normalizeHeader : Text → Text
  tag : List UInt8 → Text → Text → Text → Text

/-- What a request that passed every check before the replay check says. -/
structure SignedRequest where
  nonce : Text
  signedAtMs : ℤ
  reason : String

namespace WebhookSignatureVerifier

/-- The last header of the name, or no text. -/
def header (t : WebhookText) (request : WebhookRequest) (name : Text) : Text :=
  match request.headers.reverse.find? (fun h => decide (t.normalizeHeader h.1 = name)) with
  | none => []
  | some h => h.2

def isTimestamp (s : Text) : Bool :=
  decide (0 < s.length ∧ s.length ≤ 16) && s.all Json.isDigit

def timestampOf (s : Text) : ℕ := s.foldl (fun n c => 10 * n + (c.val - 48)) 0

def isNonce (s : Text) : Bool :=
  decide (s.length ≤ 128) && s.all (fun c => decide (0x21 ≤ c.val ∧ c.val ≤ 0x7E))

/-- The checks of `verify` before the replay check. -/
def judge (t : WebhookText) (v : WebhookSignatureVerifier) (request : WebhookRequest)
    (currentMs : ℤ) : Except String SignedRequest :=
  if v.tokenOnly then .ok ⟨[], 0, "token_only"⟩
  else
    let signature := header t request v.signatureHeader
    let timestamp := header t request v.timestampHeader
    let nonce := header t request v.nonceHeader
    let signedAtMs : ℤ := timestampOf timestamp
    if !(text "hmac-sha256:").isPrefixOf signature then .error "missing_signature"
    else if !signature.all (fun c => decide (c.val < 128)) then .error "invalid_signature"
    else if !isTimestamp timestamp then .error "invalid_timestamp"
    else if signedAtMs < currentMs - v.maxSkewMs then .error "stale_timestamp"
    else if currentMs + v.maxSkewMs < signedAtMs then .error "future_timestamp"
    else if v.requireNonce && nonce.isEmpty then .error "missing_nonce"
    else if !nonce.isEmpty && !isNonce nonce then .error "invalid_nonce"
    else if signature = t.tag request.body v.secret timestamp nonce then
      .ok ⟨nonce, signedAtMs, "accepted"⟩
    else if v.previousSecret = [] then .error "invalid_signature"
    else if signature = t.tag request.body v.previousSecret timestamp nonce then
      .ok ⟨nonce, signedAtMs, "accepted_previous_secret"⟩
    else .error "invalid_signature"

theorem of_ite_error {ε α : Type*} {c : Prop} [Decidable c] {e : ε} {x : Except ε α} {r : α}
    (h : (if c then .error e else x) = .ok r) : ¬c ∧ x = .ok r := by
  split at h
  · cases h
  · exact ⟨‹_›, h⟩

theorem judge_current {t : WebhookText} {v : WebhookSignatureVerifier} {request : WebhookRequest}
    {currentMs : ℤ} {r : SignedRequest} (h : judge t v request currentMs = .ok r)
    (hn : r.nonce ≠ []) : currentMs ≤ r.signedAtMs + v.maxSkewMs := by
  unfold judge at h
  obtain ⟨-, h⟩ | ⟨-, h⟩ := ite_eq_iff.mp h
  · cases h
    exact absurd rfl hn
  obtain ⟨-, h⟩ := of_ite_error h
  obtain ⟨-, h⟩ := of_ite_error h
  obtain ⟨-, h⟩ := of_ite_error h
  obtain ⟨hs, h⟩ := of_ite_error h
  obtain ⟨-, h⟩ := of_ite_error h
  obtain ⟨-, h⟩ := of_ite_error h
  obtain ⟨-, h⟩ := of_ite_error h
  have hc := Int.not_lt.mp hs
  obtain ⟨-, h⟩ | ⟨-, h⟩ := ite_eq_iff.mp h
  · cases h
    dsimp only
    omega
  obtain ⟨-, h⟩ := of_ite_error h
  obtain ⟨-, h⟩ | ⟨-, h⟩ := ite_eq_iff.mp h <;> cases h
  dsimp only
  omega

end WebhookSignatureVerifier

/-! ### Calls -/

/-- A nonce on its way to the store; its call is still there to be answered, or was cancelled. -/
structure PendingNonce where
  source : Text
  nonce : Text
  signedAtMs : ℤ
  currentMs : ℤ
  expiresAtMs : ℤ
  awaited : Bool := true

structure AcceptedRequest where
  source : Text
  nonce : Text
  signedAtMs : ℤ
  deriving DecidableEq

/-- The verifier with its nonces: the key of one, how many are kept, and whether a call waits. -/
structure WebhookSite (κ : Type) where
  verifier : WebhookSignatureVerifier
  text : WebhookText
  key : Text → Text → κ
  room : Option ℕ
  waits : Bool

/-- The site over `webhook_replay_log`, and the one over `WebhookReplayCache`. -/
def WebhookSite.durable (v : WebhookSignatureVerifier) (t : WebhookText) :
    WebhookSite (Text × Text) where
  verifier := v
  text := t
  key := Prod.mk
  room := none
  waits := true

def WebhookSite.inMemory (v : WebhookSignatureVerifier) (t : WebhookText) (maxEntries : ℕ) :
    WebhookSite Text where
  verifier := v
  text := t
  key source nonce := source ++ codePoint '\n' :: nonce
  room := some maxEntries
  waits := false

structure WebhookDesk (κ : Type) where
  clockMs : ℤ
  held : List (κ × ℤ) := []
  waiting : List PendingNonce := []
  accepted : List AcceptedRequest := []

inductive WebhookStep where
  | tick (nowMs : ℤ)
  | verify (source : Text) (request : WebhookRequest)
  /-- The first of the waiting writes is made. -/
  | land
  /-- It raises; its row may be there all the same. -/
  | fail (stored : Bool)
  /-- A waiting call is cancelled, before its write was handed over or after. -/
  | cancel (i : ℕ) (handed : Bool)

namespace WebhookDesk

variable {κ : Type} [DecidableEq κ]

def admission (e : WebhookSite κ) (s : WebhookDesk κ) (p : PendingNonce) : Bool × List (κ × ℤ) :=
  admitNonce e.room s.held p.currentMs (e.key p.source p.nonce) p.expiresAtMs

def answer (e : WebhookSite κ) (s : WebhookDesk κ) (p : PendingNonce) : WebhookDesk κ :=
  let (admitted, held) := s.admission e p
  { s with
    held := held
    accepted := if admitted && p.awaited then s.accepted ++ [⟨p.source, p.nonce, p.signedAtMs⟩]
      else s.accepted }

def pendingOf (v : WebhookSignatureVerifier) (source : Text) (r : SignedRequest) (currentMs : ℤ) :
    PendingNonce where
  source := source
  nonce := r.nonce
  signedAtMs := r.signedAtMs
  currentMs := currentMs
  expiresAtMs := max (currentMs + v.replayTtlMs) (r.signedAtMs + v.maxSkewMs + 1)

def step (e : WebhookSite κ) (s : WebhookDesk κ) : WebhookStep → Option (WebhookDesk κ)
  | .tick nowMs => if s.clockMs ≤ nowMs then some { s with clockMs := nowMs } else none
  | .verify source request =>
    match e.verifier.judge e.text request s.clockMs with
    | .error _ => some s
    | .ok r =>
      if r.nonce = [] then
        some { s with accepted := s.accepted ++ [⟨source, [], r.signedAtMs⟩] }
      else if e.waits then
        some { s with waiting := s.waiting ++ [pendingOf e.verifier source r s.clockMs] }
      else some (s.answer e (pendingOf e.verifier source r s.clockMs))
  | .land =>
    match s.waiting with
    | [] => none
    | p :: waiting => some ({ s with waiting := waiting }.answer e p)
  | .fail stored =>
    match s.waiting with
    | [] => none
    | p :: waiting =>
      some { s with
        waiting := waiting
        held := if stored then (s.admission e p).2 else s.held }
  | .cancel i handed =>
    match s.waiting[i]? with
    | none => none
    | some p =>
      if handed then some { s with waiting := s.waiting.set i { p with awaited := false } }
      else some { s with waiting := s.waiting.eraseIdx i }

/-! ### What is kept of the accepted requests -/

variable {e : WebhookSite κ} {s s' : WebhookDesk κ}

/-- The last instant at which a request signed then passes the timestamp check. -/
def lastPass (e : WebhookSite κ) (signedAtMs : ℤ) : ℤ := signedAtMs + e.verifier.maxSkewMs

/-- A waiting nonce passed the timestamp check, and expires when its request no longer would. -/
def Passing (e : WebhookSite κ) (p : PendingNonce) : Prop :=
  p.nonce ≠ [] ∧ p.currentMs ≤ lastPass e p.signedAtMs ∧ lastPass e p.signedAtMs < p.expiresAtMs

def Held (e : WebhookSite κ) (s : WebhookDesk κ) (a : AcceptedRequest) : Prop :=
  ∃ untilMs, (e.key a.source a.nonce, untilMs) ∈ s.held ∧ lastPass e a.signedAtMs < untilMs

/-- A nonce accepted is held, or every write to come was captured when its request had expired. -/
structure NoncesKept (e : WebhookSite κ) (s : WebhookDesk κ) : Prop where
  idle : e.waits = false → s.waiting = []
  past : ∀ p ∈ s.waiting, p.currentMs ≤ s.clockMs
  inOrder : (s.waiting.map (·.currentMs)).Pairwise (· ≤ ·)
  passing : ∀ p ∈ s.waiting, Passing e p
  kept : ∀ a ∈ s.accepted, a.nonce ≠ [] → Held e s a ∨
    (lastPass e a.signedAtMs < s.clockMs ∧ ∀ p ∈ s.waiting, lastPass e a.signedAtMs < p.currentMs)
  once : (s.accepted.filter (fun a => decide (a.nonce ≠ []))).Nodup

namespace NoncesKept

omit [DecidableEq κ] in
theorem waits (h : NoncesKept e s) {waiting : List PendingNonce}
    (ho : (waiting.map (·.currentMs)).Sublist (s.waiting.map (·.currentMs)))
    (hs : ∀ p ∈ waiting, ∃ q ∈ s.waiting, q.currentMs = p.currentMs ∧ (Passing e q → Passing e p)) :
    NoncesKept e { s with waiting := waiting } where
  idle hw := by
    refine eq_nil_iff_forall_not_mem.mpr fun p hp => ?_
    obtain ⟨q, hq, -⟩ := hs p hp
    exact not_mem_nil (h.idle hw ▸ hq)
  past p hp := by
    obtain ⟨q, hq, hc, -⟩ := hs p hp
    exact hc ▸ h.past q hq
  inOrder := h.inOrder.sublist ho
  passing p hp := by
    obtain ⟨q, hq, -, hpass⟩ := hs p hp
    exact hpass (h.passing q hq)
  kept a ha hn := by
    refine (h.kept a ha hn).imp_right (And.imp_right fun hl p hp => ?_)
    obtain ⟨q, hq, hc, -⟩ := hs p hp
    exact hc ▸ hl q hq
  once := h.once

theorem answer (h : NoncesKept e s) {p : PendingNonce} (hpass : Passing e p)
    (hpast : p.currentMs ≤ s.clockMs) (hi : ∀ q ∈ s.waiting, p.currentMs ≤ q.currentMs)
    (hh : ∀ a ∈ s.accepted, a.nonce ≠ [] → Held e s a ∨
      lastPass e a.signedAtMs < p.currentMs) : NoncesKept e (s.answer e p) := by
  have hold : ∀ a ∈ s.accepted, a.nonce ≠ [] → Held e (s.answer e p) a ∨
      (lastPass e a.signedAtMs < s.clockMs ∧
        ∀ q ∈ s.waiting, lastPass e a.signedAtMs < q.currentMs) := by
    intro a ha hn
    have he : lastPass e a.signedAtMs < p.currentMs → lastPass e a.signedAtMs < s.clockMs ∧
        ∀ q ∈ s.waiting, lastPass e a.signedAtMs < q.currentMs :=
      fun hl => ⟨hl.trans_le hpast, fun q hq => hl.trans_le (hi q hq)⟩
    rcases hh a ha hn with ⟨untilMs, hm, hu⟩ | hl
    · by_cases hv : p.currentMs < untilMs
      · exact .inl ⟨untilMs, mem_admitNonce hm hv, hu⟩
      · exact .inr (he (hu.trans_le (Int.not_lt.mp hv)))
    · exact .inr (he hl)
  by_cases hd : ((s.admission e p).1 && p.awaited) = true
  · obtain ⟨hs, hf⟩ := admitNonce_admits (Bool.and_eq_true_iff.mp hd).1
    have hc : (s.answer e p).accepted =
        s.accepted ++ [⟨p.source, p.nonce, p.signedAtMs⟩] := if_pos hd
    have hne : ⟨p.source, p.nonce, p.signedAtMs⟩ ∉ s.accepted := by
      intro hm
      rcases hh _ hm hpass.1 with ⟨untilMs, hin, hu⟩ | hl
      · exact hf _ hin (hpass.2.1.trans_lt hu) rfl
      · exact absurd hpass.2.1 (Int.not_le.mpr hl)
    refine ⟨h.idle, h.past, h.inOrder, h.passing, fun a ha hn => ?_, ?_⟩
    · rcases mem_append.mp (hc ▸ ha) with hm | hm
      · exact hold a hm hn
      · rw [mem_singleton.mp hm]
        exact .inl ⟨p.expiresAtMs, hs, hpass.2.2⟩
    · rw [hc, filter_append]
      refine h.once.append ((nodup_singleton _).filter _) ?_
      intro a ha hls
      have heq := mem_singleton.mp (mem_filter.mp hls).1
      exact hne (heq ▸ (mem_filter.mp ha).1)
  · have hc : (s.answer e p).accepted = s.accepted := if_neg hd
    refine ⟨h.idle, h.past, h.inOrder, h.passing, fun a ha hn => hold a (hc ▸ ha) hn, ?_⟩
    rw [hc]
    exact h.once

theorem land (h : NoncesKept e s) {p : PendingNonce} {waiting : List PendingNonce}
    (hw : s.waiting = p :: waiting) (awaited : Bool) :
    NoncesKept e ({ s with waiting := waiting }.answer e { p with awaited := awaited }) := by
  have hp : p ∈ s.waiting := hw ▸ mem_cons_self
  have ho := h.inOrder
  rw [hw, map_cons, pairwise_cons] at ho
  have hr : NoncesKept e { s with waiting := waiting } :=
    h.waits (hw ▸ (sublist_cons_self p waiting).map _)
      fun q hq => ⟨q, hw ▸ mem_cons_of_mem p hq, rfl, id⟩
  refine hr.answer (h.passing p hp) (h.past p hp)
    (fun q hq => ho.1 _ (mem_map_of_mem hq)) fun a ha hn => ?_
  exact (h.kept a ha hn).imp_right fun hl => hl.2 p hp

theorem step (h : NoncesKept e s) {a : WebhookStep} (hs : s.step e a = some s') :
    NoncesKept e s' := by
  cases a with
  | tick nowMs =>
    simp only [WebhookDesk.step] at hs
    split_ifs at hs with he
    cases hs
    exact { h with
      past := fun p hp => (h.past p hp).trans he
      kept := fun a ha hnn =>
        (h.kept a ha hnn).imp_right (And.imp_left fun hl => hl.trans_le he) }
  | verify source request =>
    simp only [WebhookDesk.step] at hs
    split at hs
    · cases hs
      exact h
    rename_i r hj
    split_ifs at hs with hnn hwait <;> cases hs
    · refine { h with kept := fun a ha hn => ?_, once := ?_ }
      · rcases mem_append.mp ha with hm | hm
        · exact h.kept a hm hn
        · exact absurd (congrArg AcceptedRequest.nonce (mem_singleton.mp hm)) hn
      · rw [filter_append, filter_singleton]
        simpa using h.once
    all_goals have hpass : Passing e (pendingOf e.verifier source r s.clockMs) :=
        ⟨hnn, WebhookSignatureVerifier.judge_current hj hnn,
          (Int.lt_succ _).trans_le (le_max_right _ _)⟩
    · have hc : ∀ {P : PendingNonce → Prop}, (∀ p ∈ s.waiting, P p) →
          P (pendingOf e.verifier source r s.clockMs) →
          ∀ p ∈ s.waiting ++ [pendingOf e.verifier source r s.clockMs], P p := by
        intro P hold hne p hp
        rcases mem_append.mp hp with hm | hm
        · exact hold p hm
        · exact mem_singleton.mp hm ▸ hne
      refine { h with
        idle := fun ho => absurd (hwait.symm.trans ho) nofun
        past := hc h.past (le_refl _)
        inOrder := ?_
        passing := hc h.passing hpass
        kept := fun a ha hn =>
          (h.kept a ha hn).imp_right fun hl => ⟨hl.1, hc hl.2 hl.1⟩ }
      rw [map_append, pairwise_append]
      refine ⟨h.inOrder, pairwise_singleton _ _, fun current hu last hls => ?_⟩
      obtain ⟨p, hp, rfl⟩ := mem_map.mp hu
      rw [mem_singleton.mp hls]
      exact h.past p hp
    · refine h.answer hpass (le_refl _) (fun q hq => ?_) fun a ha hn =>
        (h.kept a ha hn).imp_right And.left
      rw [h.idle (Bool.eq_false_iff.mpr hwait)] at hq
      cases hq
  | land =>
    simp only [WebhookDesk.step] at hs
    split at hs <;> cases hs
    rename_i p waiting hw
    exact h.land hw p.awaited
  | fail stored =>
    simp only [WebhookDesk.step] at hs
    split at hs <;> cases hs
    rename_i p waiting hw
    split_ifs
    · have hland := h.land hw false
      unfold WebhookDesk.answer at hland
      simpa [WebhookDesk.admission] using hland
    · exact h.waits (hw ▸ (sublist_cons_self p waiting).map _)
        fun q hq => ⟨q, hw ▸ mem_cons_of_mem p hq, rfl, id⟩
  | cancel i handed =>
    simp only [WebhookDesk.step] at hs
    split at hs
    · cases hs
    rename_i p hp
    split_ifs at hs <;> cases hs
    · refine h.waits ?_ fun q hq => ?_
      · have hu : (s.waiting.map (·.currentMs))[i]? = some p.currentMs := by
          rw [List.getElem?_map, hp]
          rfl
        obtain ⟨hi, heq⟩ := List.getElem?_eq_some_iff.mp hu
        rw [map_set]
        dsimp only
        rw [← heq, set_getElem_self]
      · rcases mem_or_eq_of_mem_set hq with hm | rfl
        · exact ⟨q, hm, rfl, id⟩
        · exact ⟨p, mem_of_getElem? hp, rfl, id⟩
    · exact h.waits ((eraseIdx_sublist _ _).map _)
        fun q hq => ⟨q, (eraseIdx_sublist _ _).mem hq, rfl, id⟩

omit [DecidableEq κ] in
theorem count_le_one (h : NoncesKept e s) {a : AcceptedRequest} (hn : a.nonce ≠ []) :
    s.accepted.count a ≤ 1 := by
  have hl := nodup_iff_count_le_one.mp h.once a
  rwa [count_filter (p := fun a : AcceptedRequest => decide (a.nonce ≠ []))
    (decide_eq_true hn)] at hl

omit [DecidableEq κ] in
theorem started (e : WebhookSite κ) (clockMs : ℤ) (held : List (κ × ℤ)) :
    NoncesKept e { clockMs := clockMs, held := held } :=
  ⟨fun _ => rfl, fun _ h => absurd h not_mem_nil, .nil, fun _ h => absurd h not_mem_nil,
    fun _ h => absurd h not_mem_nil, nodup_nil⟩

end NoncesKept

theorem length_held {most : ℕ} (hroom : e.room = some most) (h : s.held.length ≤ most)
    {a : WebhookStep} (hs : s.step e a = some s') : s'.held.length ≤ most := by
  have ha : ∀ p, (s.admission e p).2.length ≤ most := fun p => by
    unfold admission
    rw [hroom]
    exact length_admitNonce h
  cases a with
  | tick nowMs =>
    simp only [step] at hs
    split_ifs at hs
    cases hs
    exact h
  | verify source request =>
    simp only [step] at hs
    split at hs
    · cases hs
      exact h
    split_ifs at hs <;> cases hs
    · exact h
    · exact h
    · exact ha _
  | land | fail =>
    simp only [step] at hs
    split at hs <;> cases hs
    first
      | exact ha _
      | split_ifs
        · exact ha _
        · exact h
  | cancel i handed =>
    simp only [step] at hs
    split at hs
    · cases hs
    split_ifs at hs <;> cases hs <;> exact h

theorem admit_full {p : PendingNonce} {most : ℕ} (hroom : e.room = some most)
    (hf : most ≤ (s.held.filter (fun entry => decide (p.currentMs < entry.2))).length) :
    (s.admission e p).1 = false := by
  unfold admission admitNonce
  dsimp only
  split_ifs with hh hmost
  · rfl
  · rfl
  · rw [hroom] at hmost
    exact absurd (decide_eq_true hf) hmost

/-- A signed request is accepted once, over the log and over the cache, and what is accepted stays
in the cache while its request would pass: a cache full of such nonces refuses. -/
theorem webhook_accepted_once (v : WebhookSignatureVerifier) (t : WebhookText) :
    (∀ clockMs rows s, Reaches (step (.durable v t)) { clockMs := clockMs, held := rows } s →
      ∀ a : AcceptedRequest, a.nonce ≠ [] → s.accepted.count a ≤ 1) ∧
    ∀ maxEntries clockMs s, Reaches (step (.inMemory v t maxEntries)) { clockMs := clockMs } s →
      (∀ a : AcceptedRequest, a.nonce ≠ [] → s.accepted.count a ≤ 1) ∧
      s.held.length ≤ maxEntries ∧
      (∀ a ∈ s.accepted, a.nonce ≠ [] → s.clockMs ≤ a.signedAtMs + v.maxSkewMs →
        Held (.inMemory v t maxEntries) s a) ∧
      ∀ p : PendingNonce,
        maxEntries ≤ (s.held.filter (fun entry => decide (p.currentMs < entry.2))).length →
          (s.admission (.inMemory v t maxEntries) p).1 = false := by
  constructor
  · intro clockMs rows s hreach a hnonce
    have hkept : NoncesKept (.durable v t) s :=
      hreach.invariant (fun _ _ _ hs hstep => hs.step hstep) (.started _ clockMs rows)
    exact hkept.count_le_one hnonce
  · intro maxEntries clockMs s hreach
    have hkept : NoncesKept (.inMemory v t maxEntries) s :=
      hreach.invariant (fun _ _ _ hs hstep => hs.step hstep) (.started _ clockMs [])
    have hlength : s.held.length ≤ maxEntries :=
      Reaches.invariant (fun _ _ _ hs hstep => length_held (e := .inMemory v t maxEntries) rfl hs hstep)
        (Nat.zero_le _) hreach
    refine ⟨fun a => hkept.count_le_one, hlength, fun a ha hnonce hclock => ?_,
      fun p => admit_full rfl⟩
    rcases hkept.kept a ha hnonce with hheld | ⟨hlate, -⟩
    · exact hheld
    · exact absurd hclock (Int.not_le.mpr hlate)

section Bench

def benchWebhook : WebhookSignatureVerifier where
  tokenOnly := false
  secret := text "secret"
  previousSecret := []
  signatureHeader := text "x-ori-webhook-signature"
  timestampHeader := text "x-ori-webhook-timestamp"
  nonceHeader := text "x-ori-webhook-nonce"
  maxSkewMs := 300000
  replayTtlMs := 1
  requireNonce := true

/-- The tag of the one request below. -/
def benchWebhookText : WebhookText where
  normalizeHeader name := name
  tag body secret timestamp nonce :=
    if body = [66, 79, 68, 89] ∧ secret = text "secret" ∧ timestamp = text "1000" ∧
        nonce = text "n-1" then
      text "hmac-sha256:d4588292eba2bfb4153c7653edcc43062b77114c6f6f3556733411a5d9d64ddf"
    else []

def benchRequest : WebhookRequest where
  headers := [(text "x-ori-webhook-signature",
      text "hmac-sha256:d4588292eba2bfb4153c7653edcc43062b77114c6f6f3556733411a5d9d64ddf"),
    (text "x-ori-webhook-timestamp", text "1000"), (text "x-ori-webhook-nonce", text "n-1")]
  body := [66, 79, 68, 89]

/-- The request comes again at the last instant it passes, while the first waits for the store. -/
def redelivered : List WebhookStep :=
  [.verify (text "sms_webhook") benchRequest, .tick 301000,
    .verify (text "sms_webhook") benchRequest, .land, .tick 301001, .land]

theorem webhook_accepted_once_redelivered :
    ∃ s, Reaches (step (.durable benchWebhook benchWebhookText)) { clockMs := 1000 } s ∧
      s.accepted = [⟨text "sms_webhook", text "n-1", 1000⟩] ∧
      s.accepted.count ⟨text "sms_webhook", text "n-1", 1000⟩ ≤ 1 := by
  obtain ⟨s, hs, haccepted⟩ : ∃ s, run (step (.durable benchWebhook benchWebhookText)) { clockMs :=
    1000 } redelivered = some s ∧ s.accepted = [⟨text "sms_webhook", text "n-1", 1000⟩] :=
    exists_of_check (by decide +kernel)
  exact ⟨s, ⟨redelivered, hs⟩, haccepted,
    (webhook_accepted_once benchWebhook benchWebhookText).1 1000 [] s ⟨redelivered, hs⟩ _
      (by decide)⟩

end Bench

end WebhookDesk

end OriRuntime
