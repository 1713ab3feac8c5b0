import OriRuntime.OutboundRoute
import OriRuntime.OutboundPages

/-!
# What a drain keeps

What a drain has in hand is held by the tables, with the bytes and the digest it was read with, and
everything the drain published so far ranks below it: envelopes before checkpoints, checkpoints
before registrations, registrations before those offered again, and each by its number. A checkpoint
past its check has only copies before it that were passed over.
-/

namespace OriRuntime

open List

namespace OutboundRoute

open Tables

variable {l : EvidenceDeliveryLedger} {t t' : Tables} {retiring : Option Text}

/-! ### What the tables hold -/

/-- The tables hold what is carried, with these bytes and this digest. -/
def Holds (t : Tables) (wire digest : Text) : Carried → Prop
  | .envelope localSeq => ∃ r ∈ t.rows, r.localSeq = localSeq ∧ r.envelopeJson = wire ∧
      r.envelopeDigest = digest
  | .copy artifactType id => ∃ b ∈ t.outbox, b.id = id ∧ b.artifactType = artifactType ∧
      b.artifactJson = wire ∧ b.artifactDigest = digest
  | .reoffer id => ∃ o ∈ t.obligations, o.id = id ∧ o.artifactJson = wire ∧
      o.artifactDigest = digest

/-- A registration offered again whose obligation has closed. -/
def Closed (t : Tables) : Carried → Prop
  | .reoffer id => ∃ o ∈ t.obligations, o.id = id ∧ o.state ≠ .opened
  | _ => False

def recordedAt {α : Type*} (key attempts : α → ℕ) (xs : List α) (n : ℕ) : ℕ :=
  ((xs.find? (fun x => decide (key x = n))).map attempts).getD 0

/-- The attempts recorded of what is carried. -/
def attemptsOf (t : Tables) : Carried → ℕ
  | .envelope localSeq => recordedAt (·.localSeq) (·.delivery.attempts) t.rows localSeq
  | .copy _ id => recordedAt (·.id) (·.attempts) t.outbox id
  | .reoffer id => recordedAt (·.id) (·.offers) t.obligations id

variable {c : Carried} {a m after published : ℕ} {row : OutboxRow}

theorem Holds.grows (hg : RouteGrows retiring t t') {wire digest : Text}
    (h : Holds t wire digest c) : Holds t' wire digest c := by
  cases c with
  | envelope localSeq =>
    obtain ⟨r, hr, rfl, rfl, rfl⟩ := h
    obtain ⟨r', hr', hk⟩ := hg.rows r hr
    refine ⟨r', hr', ?_, ?_, ?_⟩
    all_goals rw [hk.columns]
  | copy artifactType id =>
    obtain ⟨b, hb, rfl, rfl, rfl, rfl⟩ := h
    obtain ⟨b', hb', hk⟩ := hg.copies b hb
    exact ⟨b', hb', hk.id, hk.artifactType, hk.artifactJson, hk.artifactDigest⟩
  | reoffer id =>
    obtain ⟨o, ho, rfl, rfl, rfl⟩ := h
    obtain ⟨o', ho', hk⟩ := hg.obligations o ho
    exact ⟨o', ho', hk.id, hk.artifactJson, hk.artifactDigest⟩

theorem Closed.grows (hg : RouteGrows retiring t t') (h : Closed t c) : Closed t' c := by
  cases c with
  | envelope localSeq | copy artifactType id => exact h
  | reoffer id =>
    obtain ⟨o, ho, rfl, hs⟩ := h
    obtain ⟨o', ho', hk⟩ := hg.obligations o ho
    exact ⟨o', ho', hk.id, fun hp => hs (hk.opened hp)⟩

variable {n : ℕ} {rest : List OutboxRow}

theorem recordedAt_add_le {α : Type*} {key attempts : α → ℕ} {xs ys : List α} {d : ℕ}
    (hn : (ys.map key).Nodup)
    (h : ∀ x ∈ xs, key x = n → ∃ y ∈ ys, key y = n ∧ attempts x + d ≤ attempts y)
    (hd : d = 0 ∨ ∃ x ∈ xs, key x = n) :
    recordedAt key attempts xs n + d ≤ recordedAt key attempts ys n := by
  unfold recordedAt
  cases hf : xs.find? (fun x => decide (key x = n)) with
  | none =>
    have ho := List.find?_eq_none.mp hf
    rcases hd with rfl | ⟨x, hx, hk⟩
    · exact Nat.zero_le _
    · exact absurd (decide_eq_true hk) (ho x hx)
  | some x =>
    have hx : key x = n := by simpa using List.find?_some hf
    obtain ⟨y, hy, hk, hl⟩ := h x (mem_of_find?_eq_some hf) hx
    cases hf' : ys.find? (fun y => decide (key y = n)) with
    | none => exact absurd (decide_eq_true hk) (List.find?_eq_none.mp hf' y hy)
    | some y' =>
      have hy' : key y' = n := by simpa using List.find?_some hf'
      obtain rfl := inj_on_of_nodup_map hn hy (mem_of_find?_eq_some hf') (hk.trans hy'.symm)
      exact hl

theorem attemptsOf_mono (hk : Keyed t) (hg : RouteGrows retiring t t') (c : Carried) :
    attemptsOf t c ≤ attemptsOf t' c := by
  have hk' := hg.keyed hk
  cases c with
  | envelope localSeq =>
    refine recordedAt_add_le (d := 0) hk'.localSeqs ?_ (.inl rfl)
    intro r hr hs
    obtain ⟨r', hr', hp⟩ := hg.rows r hr
    exact ⟨r', hr', by rw [hp.columns, hs], hp.attempts⟩
  | copy artifactType id =>
    refine recordedAt_add_le (d := 0) hk'.copyIds ?_ (.inl rfl)
    intro b hb hi
    obtain ⟨b', hb', hp⟩ := hg.copies b hb
    exact ⟨b', hb', hp.id.trans hi, hp.attempts⟩
  | reoffer id =>
    refine recordedAt_add_le (d := 0) hk'.obligationIds ?_ (.inl rfl)
    intro o ho hi
    obtain ⟨o', ho', hp⟩ := hg.obligations o ho
    exact ⟨o', ho', hp.id.trans hi, hp.offers⟩

/-! ### What is in hand -/

namespace InHand

/-- The tables hold what is in hand and the rest of its page, which goes on in order. -/
def Held (t : Tables) : InHand → Prop
  | envelope row rest _ =>
    (∀ r ∈ row :: rest, Holds t r.envelopeJson r.envelopeDigest (.envelope r.localSeq)) ∧
      (row :: rest).Pairwise (fun a b => a.localSeq < b.localSeq)
  | checkpoint row _ => Holds t row.artifactJson row.artifactDigest (.copy .checkpoint row.id)
  | registration row rest _ =>
    (∀ b ∈ row :: rest, Holds t b.artifactJson b.artifactDigest (.copy .anchorRegistration b.id)) ∧
      (row :: rest).Pairwise (fun a b => a.id < b.id)
  | reoffer o rest =>
    (∀ p ∈ o :: rest, Holds t p.artifactJson p.artifactDigest (.reoffer p.id)) ∧
      (o :: rest).Pairwise (fun a b => a.id < b.id)

/-- Every checkpoint before the one in hand was passed over. -/
def First (l : EvidenceDeliveryLedger) (t : Tables) : InHand → Prop
  | checkpoint row _ => ∀ b ∈ t.outbox, b.artifactType = .checkpoint → b.id < row.id →
      PassedOver l t b
  | _ => True

/-- No checkpoint published is after the one in hand. -/
def Leads (ids : List ℕ) : InHand → Prop
  | checkpoint row _ => ∀ id ∈ ids, id ≤ row.id
  | _ => True

variable {h : InHand}

theorem Held.holds (hh : h.Held t) : Holds t h.wire h.digest h.carried := by
  cases h with
  | envelope row rest published => exact hh.1 row mem_cons_self
  | checkpoint row passes => exact hh
  | registration row rest published => exact hh.1 row mem_cons_self
  | reoffer o rest => exact hh.1 o mem_cons_self

theorem Held.grows (hg : RouteGrows retiring t t') (hh : h.Held t) : h.Held t' := by
  cases h with
  | envelope row rest published => exact ⟨fun r hr => (hh.1 r hr).grows hg, hh.2⟩
  | checkpoint row passes => exact Holds.grows (c := .copy .checkpoint row.id) hg hh
  | registration row rest published => exact ⟨fun b hb => (hh.1 b hb).grows hg, hh.2⟩
  | reoffer o rest => exact ⟨fun p hp => (hh.1 p hp).grows hg, hh.2⟩

theorem First.grows (hg : RouteGrows retiring t t') (hh : h.Held t) (hf : h.First l t) :
    h.First l t' := by
  cases h with
  | envelope row rest published | registration row rest published | reoffer o rest => trivial
  | checkpoint row passes =>
    intro b' hb' hd hl
    rcases hg.later b' hb' with ⟨b, hb, hk⟩ | hn
    · refine (hf b hb ?_ ?_).grows hg hk
      · exact hk.artifactType.symm.trans hd
      · exact hk.id ▸ hl
    · obtain ⟨c, hc, hi, -⟩ := hh
      exact absurd (hi ▸ hn c hc) (Nat.lt_asymm hl)

end InHand

/-! ### Ranks -/

/-- The stage that carries it, and its number there. -/
def Carried.rank : Carried → ℕ ×ₗ ℕ
  | .envelope localSeq => toLex (0, localSeq)
  | .copy .checkpoint id => toLex (1, id)
  | .copy .anchorRegistration id => toLex (2, id)
  | .reoffer id => toLex (3, id)

/-- What follows a rank in its stage. -/
def past (rank : ℕ ×ₗ ℕ) : ℕ ×ₗ ℕ := toLex ((ofLex rank).1, (ofLex rank).2 + 1)

theorem lt_past (rank : ℕ ×ₗ ℕ) : rank < past rank :=
  Prod.Lex.lt_iff.mpr (.inr ⟨rfl, Nat.lt_succ_self _⟩)

/-- Where the copy in hand ranks at the lowest: a drain publishes one checkpoint. -/
def InHand.floor : InHand → ℕ ×ₗ ℕ
  | checkpoint _ _ => toLex (1, 0)
  | h => h.carried.rank

/-- What a drain has published so far ranks below this. -/
def Await.bound : Await → ℕ ×ₗ ℕ
  | .envelopePage after _ => toLex (0, after + 1)
  | .checkpointHead _ => toLex (1, 0)
  | .registrationPage after _ => toLex (2, after + 1)
  | .reofferPage => toLex (3, 0)
  | .fault h _ => h.floor
  | .check h => h.floor
  | .attempt h => h.floor
  | .handOver h => h.floor
  | .publish h => past h.carried.rank
  | .unreachable _ => toLex (4, 0)

theorem lt_of_stage {b : ℕ} (h : a < b) : (toLex (a, m) : ℕ ×ₗ ℕ) < toLex (b, n) :=
  Prod.Lex.toLex_lt_toLex.mpr (.inl h)

theorem le_of_number (h : m ≤ n) : (toLex (a, m) : ℕ ×ₗ ℕ) ≤ toLex (a, n) :=
  Prod.Lex.toLex_le_toLex.mpr (.inr ⟨rfl, h⟩)

theorem InHand.floor_le_rank (h : InHand) : h.floor ≤ h.carried.rank := by
  cases h with
  | checkpoint row passes => exact le_of_number (Nat.zero_le _)
  | _ => exact le_refl _

/-! ### A drain between two awaits -/

/-- What the tables say of what a drain waits for. -/
def Await.Loaded (l : EvidenceDeliveryLedger) (t : Tables) : Await → Prop
  | .fault h _ => h.Held t
  | .check h => h.Held t ∧ copyFault l h.wire h.digest = none ∧ h.First l t
  | .attempt h => h.Held t ∧ copyFault l h.wire h.digest = none ∧ h.First l t
  | .handOver h => h.Held t ∧ copyFault l h.wire h.digest = none ∧ h.First l t
  | .publish h => h.Held t
  | _ => True

def Await.Leads (ids : List ℕ) : Await → Prop
  | .check h => h.Leads ids
  | .attempt h => h.Leads ids
  | .handOver h => h.Leads ids
  | _ => True

def checkpointIds (ps : List Publication) : List ℕ :=
  ps.filterMap (fun p => match p.carried with
    | .copy .checkpoint id => some id
    | _ => none)

/-- Before the bytes leave, one attempt more is recorded than there were publications. -/
def Await.Attempted (t₀ t : Tables) (ps : List Publication) : Await → Prop
  | .handOver h => Closed t h.carried ∨
      attemptsOf t₀ h.carried + (ps.map (·.carried)).count h.carried + 1 ≤ attemptsOf t h.carried
  | _ => True

/-- Drain `number`, waiting at `await`, over what was published since the tables were `t₀`. -/
structure Ready (l : EvidenceDeliveryLedger) (t₀ t : Tables) (ps : List Publication) (number : ℕ)
    (await : Await) : Prop where
  loaded : await.Loaded l t
  below : ∀ p ∈ ps, p.drain = number → p.carried.rank < await.bound
  leads : await.Leads (checkpointIds ps)
  attempted : await.Attempted t₀ t ps

variable {t₀ : Tables} {ps ps' : List Publication} {number : ℕ}

variable {await : Await}

theorem Ready.grows (hk : Keyed t) (hg : RouteGrows retiring t t')
    (hr : Ready l t₀ t ps number await) : Ready l t₀ t' ps number await := by
  refine ⟨?_, hr.below, hr.leads, ?_⟩
  · have hl := hr.loaded
    have hc : ∀ h : InHand, (h.Held t ∧ copyFault l h.wire h.digest = none ∧ h.First l t) →
        h.Held t' ∧ copyFault l h.wire h.digest = none ∧ h.First l t' :=
      fun h hh => ⟨hh.1.grows hg, hh.2.1, hh.2.2.grows hg hh.1⟩
    cases await with
    | fault h reason => exact InHand.Held.grows hg hl
    | check h | attempt h | handOver h => exact hc h hl
    | publish h => exact InHand.Held.grows hg hl
    | _ => trivial
  · have ha := hr.attempted
    cases await with
    | handOver h =>
      rcases ha with hcl | he
      · exact .inl (hcl.grows hg)
      · exact .inr (he.trans (attemptsOf_mono hk hg h.carried))
    | _ => trivial

variable {h : InHand}

theorem InHand.Leads.sublist {ids ids' : List ℕ} (hs : ids'.Sublist ids) (hl : h.Leads ids) :
    h.Leads ids' := by
  cases h with
  | checkpoint row passes => exact fun id hi => hl id (hs.subset hi)
  | _ => trivial

theorem checkpointIds_sublist (h : ps'.Sublist ps) :
    (checkpointIds ps').Sublist (checkpointIds ps) := h.filterMap _

theorem Ready.sublist (hs : ps'.Sublist ps) (hr : Ready l t₀ t ps number await) :
    Ready l t₀ t ps' number await := by
  refine ⟨hr.loaded, fun p hp => hr.below p (hs.subset hp), ?_, ?_⟩
  · have hl := hr.leads
    cases await with
    | check h | attempt h | handOver h =>
      exact InHand.Leads.sublist (checkpointIds_sublist hs) hl
    | _ => trivial
  · have ha := hr.attempted
    cases await with
    | handOver h =>
      rcases ha with hc | he
      · exact .inl hc
      · have hn := (hs.map (·.carried)).count_le h.carried
        exact .inr (by omega)
    | _ => trivial

/-! ### Continuations -/

/-- Everything published in the drain ranks below. -/
def Below (ps : List Publication) (number : ℕ) (rank : ℕ ×ₗ ℕ) : Prop :=
  ∀ p ∈ ps, p.drain = number → p.carried.rank < rank

theorem Below.mono {rank rank' : ℕ ×ₗ ℕ} (h : Below ps number rank) (hl : rank ≤ rank') :
    Below ps number rank' := fun p hp hn => (h p hp hn).trans_le hl

variable {atMs : ℤ}

theorem carriable_ready (hh : h.Held t) (hi : h.First l t)
    (hl : h.Leads (checkpointIds ps)) (hb : Below ps number h.floor) :
    Ready l t₀ t ps number (carriable l h) := by
  unfold carriable
  split
  · exact ⟨hh, hb, trivial, trivial⟩
  · rename_i hf
    exact ⟨⟨hh, hf, hi⟩, hb, hl, trivial⟩

theorem nextEnvelope_ready {rest : List LedgerRow} (published : ℕ)
    (hh : ∀ r ∈ rest, Holds t r.envelopeJson r.envelopeDigest (.envelope r.localSeq))
    (hs : rest.Pairwise (fun a b => a.localSeq < b.localSeq))
    (ha : ∀ r ∈ rest, after < r.localSeq) (hb : Below ps number (toLex (0, after + 1))) :
    Ready l t₀ t ps number (nextEnvelope l atMs rest after published) := by
  induction rest generalizing after with
  | nil => exact ⟨trivial, hb, trivial, trivial⟩
  | cons row rest ih =>
    have ho : after + 1 ≤ row.localSeq := ha row mem_cons_self
    rw [nextEnvelope]
    split_ifs
    · exact carriable_ready ⟨hh, hs⟩ trivial trivial (hb.mono (le_of_number ho))
    refine ih (fun r hr => hh r (mem_cons_of_mem _ hr)) hs.of_cons
      (fun r hr => (pairwise_cons.mp hs).1 r hr) ?_
    exact hb.mono (le_of_number (ho.trans (Nat.le_succ _)))

theorem nextRegistration_ready (published : ℕ)
    (hh : ∀ b ∈ rest, Holds t b.artifactJson b.artifactDigest (.copy .anchorRegistration b.id))
    (hs : rest.Pairwise (fun a b => a.id < b.id)) (ha : ∀ b ∈ rest, after < b.id)
    (he : Below ps number (toLex (2, after + 1))) :
    Ready l t₀ t ps number (nextRegistration l atMs rest after published) := by
  induction rest generalizing after with
  | nil => exact ⟨trivial, he, trivial, trivial⟩
  | cons row rest ih =>
    have hr : after + 1 ≤ row.id := ha row mem_cons_self
    rw [nextRegistration]
    split_ifs
    · exact carriable_ready ⟨hh, hs⟩ trivial trivial (he.mono (le_of_number hr))
    refine ih (fun b hb => hh b (mem_cons_of_mem _ hb)) hs.of_cons
      (fun b hb => (pairwise_cons.mp hs).1 b hb) ?_
    exact he.mono (le_of_number (hr.trans (Nat.le_succ _)))

theorem nextReoffer_ready {os : List Obligation} {rank : ℕ ×ₗ ℕ}
    (hh : ∀ o ∈ os, Holds t o.artifactJson o.artifactDigest (.reoffer o.id))
    (hs : os.Pairwise (fun a b => a.id < b.id)) (hrank : ∀ o ∈ os, rank ≤ toLex (3, o.id))
    (hb : Below ps number rank) (h : nextReoffer l os = some await) :
    Ready l t₀ t ps number await := by
  cases os with
  | nil => cases h
  | cons o rest =>
    cases h
    exact carriable_ready ⟨hh, hs⟩ trivial trivial (hb.mono (hrank o mem_cons_self))

theorem findCheckpoint_ready {rank : ℕ ×ₗ ℕ} (hrank : rank ≤ toLex (1, 0))
    (hb : Below ps number rank) (passes : ℕ) :
    Ready l t₀ t ps number (findCheckpoint passes) := by
  cases passes with
  | zero =>
    exact ⟨trivial, hb.mono (hrank.trans (lt_of_stage (by decide)).le), trivial, trivial⟩
  | succ passes => exact ⟨trivial, hb.mono hrank, trivial, trivial⟩

/-- The checkpoints passed over before those published. -/
def Passed (l : EvidenceDeliveryLedger) (t : Tables) (ps : List Publication) : Prop :=
  ∀ id ∈ checkpointIds ps, ∀ b ∈ t.outbox, b.artifactType = .checkpoint → b.id < id →
    PassedOver l t b

theorem headCheckpoint_ready (hk : Keyed t) (hp : Passed l t ps)
    (h : t.pendingArtifacts l 1 (some .checkpoint) 0 none = row :: rest)
    (hb : Below ps number (toLex (1, 0))) (passes : ℕ) :
    Ready l t₀ t ps number (headCheckpoint l atMs row passes) := by
  obtain ⟨hr, hd, hn, hi⟩ := pendingArtifacts_head hk h
  have hh : (InHand.checkpoint row passes).Held t := ⟨row, hr, rfl, hd, rfl, rfl⟩
  unfold headCheckpoint
  split
  · exact ⟨hh, hb, trivial, trivial⟩
  rename_i hf
  split_ifs
  · refine ⟨⟨hh, hf, hi⟩, hb, ?_, trivial⟩
    intro id hid
    by_contra hl
    exact hn (hp id hid row hr hd (Nat.lt_of_not_le hl))
  · exact ⟨trivial, hb.mono (lt_of_stage (by decide)).le, trivial, trivial⟩

theorem afterEnvelope_ready {row : LedgerRow} {rest : List LedgerRow}
    (hh : (InHand.envelope row rest published).Held t)
    (hb : Below ps number (toLex (0, row.localSeq + 1))) :
    Ready l t₀ t ps number (nextEnvelope l atMs rest row.localSeq n) :=
  nextEnvelope_ready n (fun r hr => hh.1 r (mem_cons_of_mem _ hr)) hh.2.of_cons
    (fun r hr => (pairwise_cons.mp hh.2).1 r hr) hb

theorem afterRegistration_ready (hh : (InHand.registration row rest published).Held t)
    (he : Below ps number (toLex (2, row.id + 1))) :
    Ready l t₀ t ps number (nextRegistration l atMs rest row.id n) :=
  nextRegistration_ready n (fun b hb => hh.1 b (mem_cons_of_mem _ hb)) hh.2.of_cons
    (fun b hb => (pairwise_cons.mp hh.2).1 b hb) he

theorem afterReoffer_ready {o : Obligation} {rest : List Obligation}
    (hh : (InHand.reoffer o rest).Held t) (hb : Below ps number (toLex (3, o.id + 1)))
    (h : nextReoffer l rest = some await) : Ready l t₀ t ps number await :=
  nextReoffer_ready (fun p hp => hh.1 p (mem_cons_of_mem _ hp)) hh.2.of_cons
    (fun p hp => le_of_number ((pairwise_cons.mp hh.2).1 p hp)) hb h

theorem afterFault_ready (hh : h.Held t) (hb : Below ps number h.floor)
    (hn : afterFault l atMs h = some await) : Ready l t₀ t ps number await := by
  cases h with
  | envelope row rest published =>
    cases hn
    exact afterEnvelope_ready hh (hb.mono (le_of_number (Nat.le_succ _)))
  | checkpoint row passes =>
    cases hn
    exact findCheckpoint_ready (le_refl _) hb passes
  | registration row rest published =>
    cases hn
    exact afterRegistration_ready hh (hb.mono (le_of_number (Nat.le_succ _)))
  | reoffer o rest =>
    exact afterReoffer_ready hh (hb.mono (le_of_number (Nat.le_succ _))) hn

theorem afterHeld_ready (hh : h.Held t) (hb : Below ps number h.floor)
    (hn : afterHeld l atMs h = some await) : Ready l t₀ t ps number await := by
  cases h with
  | checkpoint row passes =>
    cases hn
    exact ⟨trivial, hb.mono (lt_of_stage (by decide)).le, trivial, trivial⟩
  | envelope row rest published | registration row rest published =>
    exact afterFault_ready hh hb hn
  | reoffer o rest =>
    exact afterReoffer_ready hh (hb.mono (le_of_number (Nat.le_succ _))) hn

theorem afterPublish_ready (hh : h.Held t) (hb : Below ps number (past h.carried.rank))
    (hn : afterPublish l atMs h = some await) : Ready l t₀ t ps number await := by
  cases h with
  | envelope row rest published =>
    simp only [afterPublish] at hn
    split_ifs at hn
    · cases hn
      exact findCheckpoint_ready (lt_of_stage (a := 0) (b := 1) (by decide)).le hb drainBatch
    · cases hn
      exact afterEnvelope_ready hh hb
  | checkpoint row passes =>
    cases hn
    exact ⟨trivial, hb.mono (lt_of_stage (a := 1) (b := 2) (by decide)).le, trivial, trivial⟩
  | registration row rest published =>
    simp only [afterPublish] at hn
    split_ifs at hn
    · cases hn
      exact ⟨trivial, hb.mono (lt_of_stage (a := 2) (b := 3) (by decide)).le, trivial, trivial⟩
    · cases hn
      exact afterRegistration_ready hh hb
  | reoffer o rest => exact afterReoffer_ready hh hb hn

theorem afterFailure_ready (hb : Below ps number (past h.carried.rank))
    (hn : afterFailure h = some await) : Ready l t₀ t ps number await := by
  cases h with
  | envelope row rest published =>
    cases hn
    exact ⟨trivial, hb.mono (lt_of_stage (a := 0) (b := 4) (by decide)).le, trivial, trivial⟩
  | _ => cases hn

end OutboundRoute

end OriRuntime
