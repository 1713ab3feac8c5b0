import OriRuntime.OutboundSound

/-!
# Outbound evidence, in order

What is published and retired over every run of the route, from a ledger whatever it holds.
-/

namespace OriRuntime

open List Option

open Execution

namespace OutboundRoute

open Tables

variable {e : RouteSetting} {l : EvidenceDeliveryLedger} {t t' t₀ : Tables} {retiring : Option Text}
  {ps ps' : List Publication} {drains : ℕ}

/-! ### What was published -/

structure Sent (l : EvidenceDeliveryLedger) (t₀ t : Tables) (ps : List Publication) (drains : ℕ) :
    Prop where
  keyed : Keyed t
  numbered : ∀ p ∈ ps, p.drain ≤ drains
  genuine : ∀ p ∈ ps, Holds t p.wire p.digest p.carried ∧ copyFault l p.wire p.digest = none
  recorded : ∀ c, Closed t c ∨ attemptsOf t₀ c + (ps.map (·.carried)).count c ≤ attemptsOf t c
  ordered : (checkpointIds ps).Pairwise (· ≤ ·)
  passed : Passed l t ps
  distinct : (ps.map (fun p => (p.drain, p.carried))).Nodup

theorem Sent.held (hs : Sent l t₀ t ps drains) {id : ℕ} (h : id ∈ checkpointIds ps) :
    ∃ b ∈ t.outbox, b.id = id := by
  obtain ⟨p, hp, hi⟩ := mem_filterMap.mp h
  split at hi
  · rename_i held hc
    cases hi
    obtain ⟨b, hb, hbi, -⟩ := hc ▸ (hs.genuine p hp).1
    exact ⟨b, hb, hbi⟩
  · cases hi

theorem Sent.grows (hs : Sent l t₀ t ps drains) (hg : RouteGrows retiring t t') :
    Sent l t₀ t' ps drains := by
  refine ⟨hg.keyed hs.keyed, hs.numbered, ?_, ?_, hs.ordered, ?_, hs.distinct⟩
  · exact fun p hp => ⟨(hs.genuine p hp).1.grows hg, (hs.genuine p hp).2⟩
  · intro c
    rcases hs.recorded c with hc | he
    · exact .inl (hc.grows hg)
    · exact .inr (he.trans (attemptsOf_mono hs.keyed hg c))
  · intro id hi b' hb' hd hl
    rcases hg.later b' hb' with ⟨b, hb, hk⟩ | hn
    · refine (hs.passed id hi b hb ?_ ?_).grows hg hk
      · exact hk.artifactType.symm.trans hd
      · exact hk.id ▸ hl
    · obtain ⟨b, hb, rfl⟩ := hs.held hi
      exact absurd (hn b hb) (Nat.lt_asymm hl)

theorem Sent.sublist (hs : Sent l t₀ t ps drains) (hu : ps'.Sublist ps) :
    Sent l t₀ t ps' drains := by
  refine ⟨hs.keyed, fun p hp => hs.numbered p (hu.subset hp),
    fun p hp => hs.genuine p (hu.subset hp), ?_, hs.ordered.sublist (checkpointIds_sublist hu),
    fun id hi => hs.passed id ((checkpointIds_sublist hu).subset hi),
    hs.distinct.sublist (hu.map _)⟩
  intro c
  rcases hs.recorded c with hc | hl
  · exact .inl hc
  · exact .inr ((Nat.add_le_add_left ((hu.map _).count_le c) _).trans hl)

theorem checkpointIds_append (ps : List Publication) (h : InHand) (number : ℕ) :
    checkpointIds (ps ++ [h.publication number]) = checkpointIds ps ∨
      ∃ row passes, h = .checkpoint row passes ∧
        checkpointIds (ps ++ [h.publication number]) = checkpointIds ps ++ [row.id] := by
  unfold checkpointIds
  rw [filterMap_append]
  cases h with
  | checkpoint row passes => exact .inr ⟨row, passes, rfl, rfl⟩
  | envelope row rest published | registration row rest published | reoffer o rest =>
    exact .inl (append_nil _)

variable {h : InHand} {atMs : ℤ} {s : LedgerState} {w : ℕ} {ack : Ack} {found : Found}
  {event : RouteEvent} {s' : RouteState}

theorem Sent.offer (hs : Sent l t₀ t ps drains) (hr : Ready l t₀ t ps drains (.handOver h)) :
    Sent l t₀ t (ps ++ [h.publication drains]) drains := by
  obtain ⟨hh, hf, hfi⟩ := hr.loaded
  refine ⟨hs.keyed, ?_, ?_, ?_, ?_, ?_, ?_⟩
  · intro p hp
    rcases mem_append.mp hp with hp | hp
    · exact hs.numbered p hp
    · rw [mem_singleton.mp hp]
      exact Nat.le_refl _
  · intro p hp
    rcases mem_append.mp hp with hp | hp
    · exact hs.genuine p hp
    · rw [mem_singleton.mp hp]
      exact ⟨hh.holds, hf⟩
  · intro c
    rw [map_append, count_append, map_singleton]
    by_cases hc : c = h.carried
    · subst hc
      have ho : [(h.publication drains).carried].count h.carried = 1 := count_singleton_self
      rw [ho]
      exact hr.attempted
    · have hzero : [(h.publication drains).carried].count c = 0 :=
        count_eq_zero.mpr fun he => hc (mem_singleton.mp he)
      rw [hzero]
      exact hs.recorded c
  · obtain heq | ⟨row, passes, rfl, heq⟩ := checkpointIds_append ps h drains
    · rw [heq]
      exact hs.ordered
    · rw [heq]
      refine pairwise_append.mpr ⟨hs.ordered, pairwise_singleton _ _, ?_⟩
      intro id hi m hm
      rw [mem_singleton.mp hm]
      exact hr.leads id hi
  · intro id hi
    obtain heq | ⟨row, passes, rfl, heq⟩ := checkpointIds_append ps h drains
    · exact hs.passed id (heq ▸ hi)
    rw [heq] at hi
    rcases mem_append.mp hi with hi | hi
    · exact hs.passed id hi
    · rw [mem_singleton.mp hi]
      exact hfi
  · rw [map_append, nodup_append]
    refine ⟨hs.distinct, nodup_singleton _, ?_⟩
    rintro a ha b hb rfl
    obtain ⟨p, hp, heq⟩ := mem_map.mp ha
    obtain ⟨hd, hca⟩ := Prod.mk.inj (heq.trans (mem_singleton.mp hb))
    have hl := (hr.below p hp hd).trans_le h.floor_le_rank
    rw [hca] at hl
    exact absurd hl (lt_irrefl _)

/-! ### Attempts -/

theorem InHand.faultOp_retiring (reason : FaultReason) (atMs : ℤ) (h : InHand) :
    (h.faultOp reason atMs).retiring = none := by
  cases h <;> rfl

theorem InHand.attemptOp_retiring (atMs : ℤ) (h : InHand) : (h.attemptOp atMs).retiring = none := by
  cases h <;> rfl

theorem recordAttempt_ok {localSeq : ℕ}
    (h : (LedgerState.apply e.toLedgerSetting s w (.recordAttempt localSeq atMs none)).2 = none) :
    s.tables.recordAttempt localSeq atMs none = .ok (LedgerState.apply e.toLedgerSetting s w
        (.recordAttempt localSeq atMs none)).1.tables := by
  have hp : LedgerState.perform e.toLedgerSetting w s.tables
      (.recordAttempt localSeq atMs none) = s.tables.recordAttempt localSeq atMs none := rfl
  simp only [LedgerState.apply, hp] at h ⊢
  split at h
  · cases h
  · rename_i t ho
    rw [ho]

theorem attempt_recorded (hk : Keyed s.tables) (hhd : h.Held s.tables)
    (hok : (LedgerState.apply e.toLedgerSetting s w (h.attemptOp atMs)).2 = none) :
    Closed (LedgerState.apply e.toLedgerSetting s w (h.attemptOp atMs)).1.tables h.carried ∨
      attemptsOf s.tables h.carried + 1 ≤
        attemptsOf (LedgerState.apply e.toLedgerSetting s w (h.attemptOp atMs)).1.tables
          h.carried := by
  have hk' := (LedgerState.apply_routeGrows (e := e.toLedgerSetting) s w
    (h.attemptOp atMs)).keyed hk
  have hcopy : ∀ (row : OutboxRow) (kind : ArtifactType),
      Holds s.tables row.artifactJson row.artifactDigest (.copy kind row.id) →
        Keyed (s.tables.noteArtifactAttempt row.artifactDigest atMs) →
          attemptsOf s.tables (.copy kind row.id) + 1 ≤
            attemptsOf (s.tables.noteArtifactAttempt row.artifactDigest atMs)
              (.copy kind row.id) := by
    intro row kind hh hk'
    obtain ⟨b, hb, hi, -, -, hd⟩ := hh
    refine recordedAt_add_le hk'.copyIds ?_ (.inr ⟨b, hb, hi⟩)
    intro c hc hci
    obtain rfl := inj_on_of_nodup_map hk.copyIds hb hc (hi.trans hci.symm)
    refine ⟨_, mem_map_of_mem hb, ?_, ?_⟩
    · rw [if_pos hd]
      exact hi
    · rw [if_pos hd]
  cases h with
  | envelope row rest published =>
    right
    obtain ⟨r, hr, hs, -⟩ := (hhd.1 row mem_cons_self)
    have hu := updateDelivery_updated (recordAttempt_cases (recordAttempt_ok hok))
    refine recordedAt_add_le hk'.localSeqs ?_ (.inr ⟨r, hr, hs⟩)
    intro q hq hqseq
    simp only [InHand.attemptOp]
    rw [hu.eq]
    refine ⟨_, mem_map_of_mem hq, ?_, ?_⟩
    · rw [if_pos hqseq]
      exact hqseq
    · rw [if_pos hqseq]
  | checkpoint row passes => exact .inr (hcopy row .checkpoint hhd hk')
  | registration row rest published =>
    exact .inr (hcopy row .anchorRegistration (hhd.1 row mem_cons_self) hk')
  | reoffer o rest =>
    obtain ⟨p, hp, hi, -, hd⟩ := hhd.1 o mem_cons_self
    by_cases ho : p.state = .opened
    · right
      refine recordedAt_add_le hk'.obligationIds ?_ (.inr ⟨p, hp, hi⟩)
      intro q hq hqi
      obtain rfl := inj_on_of_nodup_map hk.obligationIds hp hq (hi.trans hqi.symm)
      refine ⟨_, mem_map_of_mem hp, ?_, ?_⟩
      · rw [if_pos ⟨hd, ho⟩]
        exact hi
      · rw [if_pos ⟨hd, ho⟩]
    · left
      refine Closed.grows (LedgerState.apply_routeGrows (e := e.toLedgerSetting) s w
        ((InHand.reoffer o rest).attemptOp atMs)) ⟨p, hp, hi, ho⟩

/-! ### Acknowledgements -/

/-- A copy found for an acknowledgement has its type and digest, and the attempts it was found
with. -/
def AckSound (t : Tables) : AckAwait → Prop
  | .commit ack (.copy n) => ∃ b ∈ t.outbox, ack.kind = .outbox b.artifactType ∧
      b.artifactDigest = ack.digest ∧ 0 < n ∧ n ≤ b.attempts
  | .apply ack (.copy n) => ∃ b ∈ t.outbox, ack.kind = .outbox b.artifactType ∧
      b.artifactDigest = ack.digest ∧ 0 < n ∧ n ≤ b.attempts
  | _ => True

theorem ackSound_commit_iff : AckSound t (.commit ack found) ↔ AckSound t (.apply ack found) := by
  cases found <;> exact Iff.rfl

theorem AckSound.grows (hg : RouteGrows retiring t t') {a : AckAwait} (h : AckSound t a) :
    AckSound t' a := by
  have hcopy : ∀ (ack : Ack) (n : ℕ), (∃ b ∈ t.outbox, ack.kind = .outbox b.artifactType ∧
      b.artifactDigest = ack.digest ∧ 0 < n ∧ n ≤ b.attempts) →
      ∃ b ∈ t'.outbox, ack.kind = .outbox b.artifactType ∧ b.artifactDigest = ack.digest ∧ 0 < n ∧
        n ≤ b.attempts := by
    rintro ack n ⟨b, hb, hkd, hd, hp, hl⟩
    obtain ⟨b', hb', hk⟩ := hg.copies b hb
    refine ⟨b', hb', ?_, hk.artifactDigest.trans hd, hp, hl.trans hk.attempts⟩
    rw [hk.artifactType, hkd]
  cases a with
  | commit ack found | apply ack found =>
    cases found with
    | envelope localSeq => trivial
    | copy n => exact hcopy ack n h
  | _ => trivial

theorem findAcknowledged_sound (h : findAcknowledged t ack = some found) :
    AckSound t (.apply ack found) := by
  cases found with
  | envelope localSeq => trivial
  | copy n =>
    unfold findAcknowledged at h
    split at h
    · split at h
      · cases h
      · split_ifs at h
        cases h
    · rename_i artifactType hk
      split at h
      · cases h
      rename_i b hf
      split_ifs at h with ho
      obtain rfl : b.attempts = n := by
        injection h with h
        injection h
      obtain ⟨ht, ha⟩ := not_or.mp ho
      have hd : b.artifactDigest = ack.digest := by simpa using List.find?_some hf
      refine ⟨b, mem_of_find?_eq_some hf, ?_, hd, Nat.pos_of_ne_zero ha, Nat.le_refl _⟩
      rw [hk, not_not.mp ht]

/-! ### The route -/

structure RouteSound (e : RouteSetting) (t₀ : Tables) (s : RouteState) : Prop where
  sent : Sent e.ledger t₀ s.ledger.tables (s.published ++ s.io) s.drains
  draining : ∀ d, s.drain = some d → d.number = s.drains ∧
    Ready e.ledger t₀ s.ledger.tables (s.published ++ s.io) d.number d.await
  late : ∀ op ∈ s.late, op.retiring = none
  acks : ∀ a ∈ s.acks, AckSound s.ledger.tables a

namespace RouteSound

variable {s s' : RouteState}

theorem ledger (hs : RouteSound e t₀ s) (w : ℕ) (op : LedgerOp) :
    RouteSound e t₀ { s with ledger := (LedgerState.apply e.toLedgerSetting s.ledger w op).1 } := by
  have hg := LedgerState.apply_routeGrows (e := e.toLedgerSetting) s.ledger w op
  refine ⟨hs.sent.grows hg, ?_, hs.late, fun a ha => (hs.acks a ha).grows hg⟩
  exact fun d hd => ⟨(hs.draining d hd).1, (hs.draining d hd).2.grows hs.sent.keyed hg⟩

theorem perform (hs : RouteSound e t₀ s) (op : LedgerOp) :
    RouteSound e t₀ (s.perform e op) := hs.ledger e.process op

variable {d : Drain}

theorem goOn (hs : RouteSound e t₀ s) (hd : s.drain = some d) {next : Option Await}
    (hn : ∀ await, next = some await →
      Ready e.ledger t₀ s.ledger.tables (s.published ++ s.io) d.number await) :
    RouteSound e t₀ (s.goOn d next) := by
  refine ⟨hs.sent, ?_, hs.late, hs.acks⟩
  intro d' hd'
  obtain ⟨await, ha, rfl⟩ := map_eq_some_iff.mp hd'
  exact ⟨(hs.draining d hd).1, hn await ha⟩

theorem goOn_some (hs : RouteSound e t₀ s) (hd : s.drain = some d) {await : Await}
    (hn : Ready e.ledger t₀ s.ledger.tables (s.published ++ s.io) d.number await) :
    RouteSound e t₀ (s.goOn d (some await)) := by
  refine hs.goOn hd ?_
  intro await' ha
  cases ha
  exact hn

theorem drainStep (hs : RouteSound e t₀ s) (hd : s.drain = some d) (h : s.drainStep e d = some s') :
    RouteSound e t₀ s' := by
  obtain ⟨number, atMs, await⟩ := d
  obtain ⟨hn, he⟩ := hs.draining _ hd
  have hk := hs.sent.keyed
  dsimp only at hn he
  cases await with
  | envelopePage after published =>
    simp only [RouteState.drainStep] at h
    split at h
    · cases h
      exact hs.goOn_some hd (findCheckpoint_ready (lt_of_stage (by decide)).le he.below _)
    · rename_i row rest hpage
      cases h
      have hsr := hpage ▸ awaitingCustody_sorted hk drainBatch after none
      refine hs.goOn_some hd (nextEnvelope_ready published ?_ hsr ?_ he.below)
      · intro r hr
        exact ⟨r, (mem_awaitingCustody (hpage ▸ hr)).1, rfl, rfl, rfl⟩
      · intro r hr
        exact_mod_cast (mem_awaitingCustody (hpage ▸ hr)).2
  | checkpointHead passes =>
    simp only [RouteState.drainStep] at h
    split at h
    · cases h
      exact hs.goOn_some hd ⟨trivial,
        Below.mono he.below (lt_of_stage (by decide)).le, trivial, trivial⟩
    · rename_i row rest hpage
      cases h
      exact hs.goOn_some hd (headCheckpoint_ready hk hs.sent.passed hpage he.below _)
  | registrationPage after published =>
    simp only [RouteState.drainStep] at h
    split at h
    · cases h
      exact hs.goOn_some hd ⟨trivial,
        Below.mono he.below (lt_of_stage (by decide)).le, trivial, trivial⟩
    · rename_i row rest hpage
      cases h
      have hsr := hpage ▸ pendingArtifacts_sorted (l := e.ledger) hk drainBatch
        (some .anchorRegistration) after none
      refine hs.goOn_some hd (nextRegistration_ready published ?_ hsr ?_ he.below)
      · intro b hb
        obtain ⟨hm, -, -, -, hkd⟩ := mem_pendingArtifacts (hpage ▸ hb)
        exact ⟨b, hm, rfl, hkd _ rfl, rfl, rfl⟩
      · intro b hb
        exact_mod_cast (mem_pendingArtifacts (hpage ▸ hb)).2.2.1
  | reofferPage =>
    cases h
    refine hs.goOn hd fun await ha => ?_
    refine nextReoffer_ready ?_ (registrationReoffersDue_sorted hk atMs drainBatch none) ?_
      he.below ha
    · exact fun o ho => ⟨o, mem_registrationReoffersDue ho, rfl, rfl, rfl⟩
    · exact fun o _ => le_of_number (Nat.zero_le _)
  | fault h' reason =>
    cases h
    have hpe := hs.perform (h'.faultOp reason atMs)
    obtain ⟨-, hr'⟩ := hpe.draining _ hd
    exact hpe.goOn hd fun await ha =>
      afterFault_ready hr'.loaded hr'.below ha
  | check h' =>
    simp only [RouteState.drainStep] at h
    split_ifs at h
    · cases h
      exact hs.goOn_some hd { he with attempted := trivial }
    · cases h
      exact hs.goOn hd fun await ha => afterHeld_ready he.loaded.1 he.below ha
  | attempt h' =>
    have hpe := hs.perform (h'.attemptOp atMs)
    obtain ⟨-, hr'⟩ := hpe.draining _ hd
    simp only [RouteState.drainStep] at h
    split at h
    · cases h
      exact hpe.goOn hd fun await ha => by cases ha
    · rename_i hok
      cases h
      refine hpe.goOn_some hd { hr' with attempted := ?_ }
      rcases attempt_recorded hk he.loaded.1 hok with hc | hl
      · exact .inl hc
      rcases hs.sent.recorded h'.carried with hc | hcn
      · exact .inl (hc.grows (LedgerState.apply_routeGrows (e := e.toLedgerSetting)
          s.ledger e.process (h'.attemptOp atMs)))
      · exact .inr ((Nat.succ_le_succ hcn).trans hl)
  | handOver h' =>
    have hpast : Below (s.published ++ s.io) number (past h'.carried.rank) :=
      Below.mono he.below (h'.floor_le_rank.trans (lt_past _).le)
    simp only [RouteState.drainStep] at h
    split_ifs at h with hca
    · cases h
      subst hn
      refine ⟨?_, ?_, hs.late, hs.acks⟩
      · rw [← append_assoc]
        exact hs.sent.offer he
      · intro d' hd'
        cases hd'
        refine ⟨rfl, he.loaded.1, ?_, trivial, trivial⟩
        rw [← append_assoc]
        intro p hp hdr
        rcases mem_append.mp hp with hp | hp
        · exact hpast p hp hdr
        · rw [mem_singleton.mp hp]
          exact lt_past _
    · cases h
      exact hs.goOn hd fun await ha => afterFailure_ready hpast ha
  | publish h' => cases h
  | unreachable localSeq =>
    cases h
    exact (hs.perform _).goOn hd fun await ha => by cases ha

theorem ioStep (hs : RouteSound e t₀ s) {p : Publication} {rest : List Publication}
    (hi : s.io = p :: rest) (delivered : Bool) :
    RouteSound e t₀ (s.ioStep e p rest delivered) := by
  have hu : ((if delivered then s.published ++ [p] else s.published) ++ rest).Sublist
      (s.published ++ s.io) := by
    rw [hi]
    split_ifs
    · rw [append_assoc]
      exact List.Sublist.refl _
    · exact (sublist_cons_self p rest).append_left _
  have hc : RouteSound e t₀ { s with
      io := rest, published := if delivered then s.published ++ [p] else s.published } :=
    ⟨hs.sent.sublist hu, fun d hd => ⟨(hs.draining d hd).1, (hs.draining d hd).2.sublist hu⟩,
      hs.late, hs.acks⟩
  unfold RouteState.ioStep
  dsimp only
  split
  · rename_i number atMs h hdr
    split <;> rename_i hrs
    · obtain ⟨-, hr⟩ := hc.draining _ hdr
      refine hc.goOn hdr fun await ha => ?_
      split_ifs at ha
      · exact afterPublish_ready hr.loaded hr.below ha
      · exact afterFailure_ready hr.below ha
    · exact hc
  · exact hc

theorem ackStep (hs : RouteSound e t₀ s) {i : ℕ} {a : AckAwait} (ha : s.acks[i]? = some a)
    (verdict : Option Json) (atMs : ℤ) : RouteSound e t₀ (s.ackStep e i verdict atMs a) := by
  have he : ∀ b, AckSound s.ledger.tables b → RouteSound e t₀ (s.setAck i b) := by
    intro b hb
    refine { hs with acks := ?_ }
    intro c hc
    rcases mem_or_eq_of_mem_set hc with hc | rfl
    · exact hs.acks c hc
    · exact hb
  have hd : ∀ {u : RouteState}, RouteSound e t₀ u → RouteSound e t₀ (u.dropAck i) :=
    fun hu => { hu with acks := fun c hc => hu.acks c (mem_of_mem_eraseIdx hc) }
  cases a with
  | authenticate payload =>
    simp only [RouteState.ackStep]
    split
    · exact he _ trivial
    · exact hd hs
  | look ack =>
    simp only [RouteState.ackStep]
    split
    · exact hd hs
    rename_i found hf
    have hn := findAcknowledged_sound hf
    refine he _ ?_
    split_ifs
    · exact ackSound_commit_iff.mpr hn
    · exact hn
  | commit ack found =>
    simp only [RouteState.ackStep]
    split_ifs
    · exact he _ (ackSound_commit_iff.mp (hs.acks _ (mem_of_getElem? ha)))
    · exact hd hs
  | apply ack found => exact hd (hs.perform _)

theorem leftBehind_retiring (d : Drain) : ∀ op ∈ RouteState.leftBehind d, op.retiring = none := by
  intro op ho
  unfold RouteState.leftBehind at ho
  split at ho
  · rw [mem_singleton.mp ho]
    exact InHand.faultOp_retiring _ _ _
  · rw [mem_singleton.mp ho]
    exact InHand.attemptOp_retiring _ _
  · rw [mem_singleton.mp ho]
    rfl
  · exact absurd ho not_mem_nil

theorem step {event : RouteEvent} (hs : RouteSound e t₀ s) (h : s.step e event = some s') :
    RouteSound e t₀ s' := by
  cases event with
  | ledger w op =>
    simp only [RouteState.step] at h
    split_ifs at h
    cases h
    exact hs.ledger w op
  | session carrying =>
    cases h
    exact { hs with }
  | beginDrain atMs =>
    simp only [RouteState.step] at h
    split at h
    · cases h
    split_ifs at h
    · cases h
      refine ⟨?_, ?_, hs.late, hs.acks⟩
      · exact { hs.sent with
          numbered := fun p hp => (hs.sent.numbered p hp).trans (Nat.le_succ _) }
      · intro d hd
        cases hd
        refine ⟨rfl, trivial, ?_, trivial, trivial⟩
        intro p hp hr
        exact absurd (hs.sent.numbered p hp) (hr ▸ Nat.not_succ_le_self _)
    · cases h
      exact hs
  | drain =>
    obtain ⟨d, hd, ht⟩ := bind_eq_some_iff.mp h
    exact hs.drainStep hd ht
  | cut =>
    obtain ⟨d, hd, rfl⟩ := map_eq_some_iff.mp h
    refine ⟨hs.sent, fun d' hd' => (by cases hd'), ?_, hs.acks⟩
    intro op ho
    rcases mem_append.mp ho with ho | ho
    · exact hs.late op ho
    · exact leftBehind_retiring d op ho
  | late i =>
    obtain ⟨op, -, rfl⟩ := map_eq_some_iff.mp h
    have he := hs.perform op
    exact { he with late := fun op' ho => hs.late op' (mem_of_mem_eraseIdx ho) }
  | dropLate i =>
    cases h
    exact { hs with late := fun op ho => hs.late op (mem_of_mem_eraseIdx ho) }
  | io delivered =>
    simp only [RouteState.step] at h
    split at h
    · cases h
    rename_i p rest hi
    cases h
    exact hs.ioStep hi delivered
  | receive payload =>
    cases h
    refine { hs with acks := ?_ }
    intro a ha
    rcases mem_append.mp ha with ha | ha
    · exact hs.acks a ha
    · rw [mem_singleton.mp ha]
      trivial
  | ack i verdict atMs =>
    obtain ⟨a, ha, rfl⟩ := map_eq_some_iff.mp h
    exact hs.ackStep ha verdict atMs
  | dropAck i =>
    cases h
    exact { hs with acks := fun a ha => hs.acks a (mem_of_mem_eraseIdx ha) }

theorem opening {ledger : LedgerState} (hk : Keyed ledger.tables) :
    RouteSound e ledger.tables (opening ledger) := by
  have hn : ∀ {α : Type} {P : α → Prop}, ∀ a ∈ ([] : List α), P a :=
    fun a ha => absurd ha not_mem_nil
  refine ⟨⟨hk, hn, hn, fun c => .inr (Nat.le_refl _), List.Pairwise.nil, hn,
    nodup_nil⟩, fun d hd => (by cases hd), hn, hn⟩

theorem of_reaches {ledger : LedgerState} (hk : Keyed ledger.tables)
    (h : Reaches (RouteState.step e) (OutboundRoute.opening ledger) s) :
    RouteSound e ledger.tables s :=
  Reaches.invariant (fun _ _ _ hu hs => hu.step hs) (opening hk) h

end RouteSound

/-! ### Retirement -/

namespace RouteState

variable {s s' : RouteState}

theorem perform_grows (s : RouteState) {op : LedgerOp} (h : op.retiring = none) :
    RouteGrows none s.ledger.tables (s.perform e op).ledger.tables := by
  have hg := LedgerState.apply_routeGrows (e := e.toLedgerSetting) s.ledger e.process op
  rw [h] at hg
  exact hg

variable {d : Drain} {event : RouteEvent}

theorem drainStep_grows (h : s.drainStep e d = some s') :
    RouteGrows none s.ledger.tables s'.ledger.tables := by
  unfold drainStep at h
  split at h
  · split at h <;> (obtain rfl := some.inj h; exact .refl _)
  · split at h <;> (obtain rfl := some.inj h; exact .refl _)
  · split at h <;> (obtain rfl := some.inj h; exact .refl _)
  · cases h
    exact .refl _
  · cases h
    exact s.perform_grows (InHand.faultOp_retiring _ _ _)
  · split_ifs at h <;> (obtain rfl := some.inj h; exact .refl _)
  · rename_i h' _
    have hg := s.perform_grows (e := e) (InHand.attemptOp_retiring d.atMs h')
    split at h <;> (obtain rfl := some.inj h; exact hg)
  · split_ifs at h <;> (obtain rfl := some.inj h; exact .refl _)
  · cases h
  · cases h
    exact s.perform_grows rfl

theorem ioStep_ledger (s : RouteState) (p : Publication) (rest : List Publication)
    (delivered : Bool) : (s.ioStep e p rest delivered).ledger = s.ledger := by
  unfold ioStep
  dsimp only
  split
  · split
    · rfl
    · rfl
  · rfl

theorem step_grows (hl : ∀ op ∈ s.late, op.retiring = none) (h : s.step e event = some s') :
    RouteGrows none s.ledger.tables s'.ledger.tables ∨
      ∃ i verdict atMs ack n, event = .ack i verdict atMs ∧
        s.acks[i]? = some (.apply ack (.copy n)) ∧
          RouteGrows (some ack.digest) s.ledger.tables s'.ledger.tables := by
  cases event with
  | ledger w op =>
    left
    simp only [step] at h
    split_ifs at h with hf
    cases h
    have hr : op.retiring = none := by
      cases op with
      | retireArtifact digest outcome atMs => exact absurd rfl hf
      | _ => rfl
    have hg := LedgerState.apply_routeGrows (e := e.toLedgerSetting) s.ledger w op
    rw [hr] at hg
    exact hg
  | session carrying =>
    cases h
    exact .inl (.refl _)
  | beginDrain atMs =>
    left
    simp only [step] at h
    split at h
    · cases h
    · split_ifs at h <;> (obtain rfl := some.inj h; exact .refl _)
  | drain =>
    obtain ⟨d, -, hs⟩ := bind_eq_some_iff.mp h
    exact .inl (drainStep_grows hs)
  | cut =>
    obtain ⟨d, -, rfl⟩ := map_eq_some_iff.mp h
    exact .inl (.refl _)
  | late i =>
    obtain ⟨op, ho, rfl⟩ := map_eq_some_iff.mp h
    exact .inl (s.perform_grows (hl op (mem_of_getElem? ho)))
  | dropLate i =>
    cases h
    exact .inl (.refl _)
  | io delivered =>
    left
    simp only [step] at h
    split at h
    · cases h
    cases h
    rw [ioStep_ledger]
    exact .refl _
  | receive payload =>
    cases h
    exact .inl (.refl _)
  | ack i verdict atMs =>
    obtain ⟨a, ha, rfl⟩ := map_eq_some_iff.mp h
    cases a with
    | authenticate payload | look ack =>
      left
      simp only [ackStep]
      split <;> exact .refl _
    | commit ack found =>
      left
      simp only [ackStep]
      split_ifs <;> exact .refl _
    | apply ack found =>
      have hg := LedgerState.apply_routeGrows (e := e.toLedgerSetting) s.ledger e.process
        (ackOp ack found)
      cases found with
      | envelope localSeq =>
        left
        have hr : (ackOp ack (.envelope localSeq)).retiring = none := by
          simp only [ackOp]
          split <;> rfl
        exact s.perform_grows hr
      | copy n =>
        cases hansr : ack.answer with
        | queueFull =>
          have hr : (ackOp ack (.copy n)).retiring = none := by
            simp only [ackOp, hansr, LedgerOp.retiring]
          exact .inl (s.perform_grows hr)
        | queued | refused =>
          have hr : (ackOp ack (.copy n)).retiring = some ack.digest := by
            simp only [ackOp, hansr, LedgerOp.retiring]
          rw [hr] at hg
          exact .inr ⟨i, verdict, atMs, ack, n, rfl, ha, hg⟩
  | dropAck i =>
    cases h
    exact .inl (.refl _)

theorem drainStep_io (h : s.drainStep e d = some s') :
    s'.io = s.io ∨ ∃ h, d.await = .handOver h ∧ s'.io = s.io ++ [h.publication d.number] := by
  unfold drainStep at h
  split at h
  · split at h <;> (obtain rfl := some.inj h; exact .inl rfl)
  · split at h <;> (obtain rfl := some.inj h; exact .inl rfl)
  · split at h <;> (obtain rfl := some.inj h; exact .inl rfl)
  · cases h
    exact .inl rfl
  · cases h
    exact .inl rfl
  · split_ifs at h <;> (obtain rfl := some.inj h; exact .inl rfl)
  · split at h <;> (obtain rfl := some.inj h; exact .inl rfl)
  · rename_i h' ha
    split_ifs at h
    · cases h
      exact .inr ⟨h', ha, rfl⟩
    · cases h
      exact .inl rfl
  · cases h
  · cases h
    exact .inl rfl

theorem ioStep_io (s : RouteState) (p : Publication) (rest : List Publication)
    (delivered : Bool) : (s.ioStep e p rest delivered).io = rest := by
  unfold ioStep
  dsimp only
  split
  · split
    · rfl
    · rfl
  · rfl

theorem step_io (h : s.step e event = some s') :
    s'.io.length ≤ s.io.length ∨ ∃ d, event = .drain ∧ s.drain = some d ∧
      s.drainStep e d = some s' := by
  cases event with
  | ledger w op =>
    left
    simp only [step] at h
    split_ifs at h
    cases h
    exact Nat.le_refl _
  | beginDrain atMs =>
    left
    simp only [step] at h
    split at h
    · cases h
    · split_ifs at h <;> (obtain rfl := some.inj h; exact Nat.le_refl _)
  | drain =>
    obtain ⟨d, hd, hs⟩ := bind_eq_some_iff.mp h
    exact .inr ⟨d, rfl, hd, hs⟩
  | cut =>
    obtain ⟨d, -, rfl⟩ := map_eq_some_iff.mp h
    exact .inl (Nat.le_refl _)
  | late i =>
    obtain ⟨op, -, rfl⟩ := map_eq_some_iff.mp h
    exact .inl (Nat.le_refl _)
  | io delivered =>
    left
    simp only [step] at h
    split at h
    · cases h
    rename_i p rest hi
    cases h
    rw [ioStep_io, hi]
    exact Nat.le_succ _
  | ack i verdict atMs =>
    left
    obtain ⟨a, -, rfl⟩ := map_eq_some_iff.mp h
    cases a with
    | authenticate payload | look ack =>
      simp only [ackStep]
      split <;> exact Nat.le_refl _
    | commit ack found =>
      simp only [ackStep]
      split_ifs <;> exact Nat.le_refl _
    | apply ack found => exact Nat.le_refl _
  | _ =>
    cases h
    exact .inl (Nat.le_refl _)

end RouteState

/-- Before anything is handed over, one attempt more is recorded for it than there were
publications, unless its obligation has closed. -/
theorem step_records {s : RouteState} (hs : RouteSound e t₀ s) (h : s.step e event = some s')
    {p : Publication} (hi : s'.io = s.io ++ [p]) :
    Closed s.ledger.tables p.carried ∨
      attemptsOf t₀ p.carried + ((s.published ++ s.io).map (·.carried)).count p.carried + 1 ≤
        attemptsOf s.ledger.tables p.carried := by
  rcases RouteState.step_io h with hl | ⟨d, -, hd, ht⟩
  · rw [hi, length_append] at hl
    exact absurd hl (Nat.not_succ_le_self _)
  · rcases RouteState.drainStep_io ht with heq | ⟨h', ha, hp⟩
    · rw [hi] at heq
      exact absurd (append_right_eq_self.mp heq) (cons_ne_nil _ _)
    · obtain ⟨-, hr⟩ := hs.draining d hd
      rw [ha] at hr
      obtain rfl := singleton_injective (append_cancel_left (hi.symm.trans hp))
      exact hr.attempted

theorem step_retires {s : RouteState} (hs : RouteSound e t₀ s) (h : s.step e event = some s')
    {b b' : OutboxRow} (hb : b ∈ s.ledger.tables.outbox) (hb' : b' ∈ s'.ledger.tables.outbox)
    (hi : b'.id = b.id) (ho : b.retiredAtMs = none) (hr : b'.retiredAtMs ≠ none) :
    ∃ i verdict atMs ack n, event = .ack i verdict atMs ∧
      s.acks[i]? = some (.apply ack (.copy n)) ∧ ack.kind = .outbox b.artifactType ∧
        ack.digest = b.artifactDigest ∧ 0 < n ∧ n ≤ b.attempts := by
  have hm : ∀ {retiring}, RouteGrows retiring s.ledger.tables s'.ledger.tables →
      CopyKept retiring b b' := by
    intro retiring hg
    rcases hg.later b' hb' with ⟨c, hc, hk⟩ | hn
    · obtain rfl := inj_on_of_nodup_map hs.sent.keyed.copyIds hb hc (hi.symm.trans hk.id)
      exact hk
    · exact absurd (hn b hb) (hi ▸ Nat.lt_irrefl _)
  rcases RouteState.step_grows hs.late h with hg | ⟨i, verdict, atMs, ack, n, rfl, ha, hg⟩
  · exact absurd ((hm hg).retires ho hr) nofun
  have hd := some.inj ((hm hg).retires ho hr)
  obtain ⟨c, hc, hkd, hcd, hp, hl⟩ := hs.acks _ (mem_of_getElem? ha)
  obtain rfl := inj_on_of_nodup_map hs.sent.keyed.copyDigests hb hc (hd.symm.trans hcd.symm)
  exact ⟨i, verdict, atMs, ack, n, rfl, ha, hkd, hd, hp, hl⟩

/-- In every run of the route over one ledger: checkpoints are published in production order, each
once every earlier one was retired, withdrawn, faulted, stopped, suspended or is another identity's;
what is published is held with these bytes, whose hash is the digest sealed for them, and with an
attempt recorded for each time it was published, the last of them before it is handed over, unless
an obligation has closed by then; a drain publishes nothing twice; and a copy is retired by an
acknowledgement of its type and digest, looked up once an attempt was recorded for it. -/
theorem outbound_in_order {ledger : LedgerState} (hkeyed : Keyed ledger.tables) {s : RouteState}
    (h : Reaches (RouteState.step e) (opening ledger) s) :
    (checkpointIds (s.published ++ s.io)).Pairwise (· ≤ ·) ∧
    (∀ id ∈ checkpointIds (s.published ++ s.io), ∀ b ∈ s.ledger.tables.outbox,
      b.artifactType = .checkpoint → b.id < id → PassedOver e.ledger s.ledger.tables b) ∧
    (∀ p ∈ s.published ++ s.io, Holds s.ledger.tables p.wire p.digest p.carried ∧
      text "sha256:" ++ e.ledger.keys.sha256 p.wire = p.digest) ∧
    (∀ c, Closed s.ledger.tables c ∨
      attemptsOf ledger.tables c + ((s.published ++ s.io).map (·.carried)).count c ≤
        attemptsOf s.ledger.tables c) ∧
    ((s.published ++ s.io).map (fun p => (p.drain, p.carried))).Nodup ∧
    ∀ event s', s.step e event = some s' →
      (∀ p, s'.io = s.io ++ [p] → Closed s.ledger.tables p.carried ∨
        attemptsOf ledger.tables p.carried +
            ((s.published ++ s.io).map (·.carried)).count p.carried + 1 ≤
          attemptsOf s.ledger.tables p.carried) ∧
      ∀ b ∈ s.ledger.tables.outbox, ∀ b' ∈ s'.ledger.tables.outbox, b'.id = b.id →
        b.retiredAtMs = none → b'.retiredAtMs ≠ none →
          ∃ i verdict atMs ack n, event = .ack i verdict atMs ∧
            s.acks[i]? = some (.apply ack (.copy n)) ∧ ack.kind = .outbox b.artifactType ∧
              ack.digest = b.artifactDigest ∧ 0 < n ∧ n ≤ b.attempts := by
  have hs := RouteSound.of_reaches hkeyed h
  refine ⟨hs.sent.ordered, hs.sent.passed, ?_, hs.sent.recorded, hs.sent.distinct, ?_⟩
  · intro p hp
    obtain ⟨hholds, hfault⟩ := hs.sent.genuine p hp
    refine ⟨hholds, ?_⟩
    unfold copyFault at hfault
    split_ifs at hfault with hunreadable hdigest
    exact not_not.mp hdigest
  · intro event s' hstep
    exact ⟨fun p => step_records hs hstep, fun b hb b' hb' => step_retires hs hstep hb hb'⟩

/-! ### Runs -/

/-- The route of one process; another process of the ledger ran under another identity. -/
def benchRoute : RouteSetting where
  ledgers :=
    { ledger := fun w =>
        { keys := LedgerState.benchKeys
          deviceId := if w = 0 then text "device" else text "other"
          anchorEpochId := text "epoch", keyId := text "key"
          named := by split <;> decide }
      sha256 := LedgerState.checksum
      hash := fun _ => rfl }
  keys := LedgerState.benchSetting.keys
  process := 0
  authenticates := false
  maxSkewMs := 0

def awaits (n : ℕ) : List RouteEvent := List.replicate n .drain

def benchRegistration (reference : Text) : Json.Value where
  json := Json.obj [("device_id", .str (text "device")),
    ("anchor_epoch_id", .str (text "sha256:" ++ LedgerState.checksum [])),
    ("commissioning_digest", .str (text "sha256:" ++ LedgerState.checksum reference)),
    ("pubkey_hex", .str (LedgerState.checksum []))]
  distinct := by
    have hkeys : [text "device_id", text "anchor_epoch_id", text "commissioning_digest",
        text "pubkey_hex"].Nodup := by decide
    exact ⟨hkeys, trivial, trivial, trivial, trivial, trivial⟩

def queuedAck (artifactType : String) (digest : Text) : Json :=
  Json.obj [("device_id", .str (text "device")), ("artifact_type", .str (text artifactType)),
    ("artifact_digest", .str digest), ("outcome", .str (text "queued"))]

def retainedDigest (events : List RouteEvent) : Text :=
  ((run (RouteState.step benchRoute) (opening {}) events).bind
    (fun s => s.ledger.tables.outbox.head?.map (·.artifactDigest))).getD []

/-- A checkpoint of each identity, and the later one carried. -/
def othersBefore : List RouteEvent :=
  [.ledger 1 (.issueCheckpoint 5), .ledger 0 (.issueCheckpoint 6), .session true, .beginDrain 10] ++
    awaits 5 ++ [.io true]

/-- A registration carried and retired, and then replaced while it is offered again. -/
def replacedUnderOffer : List RouteEvent :=
  [.ledger 0 (.sealRegistration (benchRegistration []) 5), .session true, .beginDrain 10] ++
    awaits 6 ++ [.io true] ++ awaits 2 ++
    [.receive (queuedAck "anchor_registration"
        (retainedDigest [.ledger 0 (.sealRegistration (benchRegistration []) 5)])),
      .ack 0 none 20, .ack 0 none 20, .ack 0 none 20, .beginDrain 100000] ++ awaits 5 ++
    [.ledger 0 (.sealRegistration (benchRegistration [1]) 100000), .drain, .drain, .io true]

/-- A checkpoint's attempt recorded after its acknowledgement came, before it is looked up. -/
def overtaken : List RouteEvent :=
  [.session true, .beginDrain 10] ++ awaits 5 ++ [.ack 0 none 20, .ack 0 none 20, .ack 0 none 20]

/-- A checkpoint is published past another identity's; a registration is offered again with no offer
recorded; and a copy is retired by an acknowledgement received before its first attempt. -/
theorem outbound_not_held_back : (∃ s, Reaches (RouteState.step benchRoute) (opening {}) s ∧
      ∃ id ∈ checkpointIds s.published, ∃ b ∈ s.ledger.tables.outbox,
        b.artifactType = .checkpoint ∧ b.id < id ∧ b.retiredAtMs = none ∧ b.withdrawnAtMs = none ∧
          s.ledger.tables.hasFault .outbox b.id = false ∧ s.ledger.tables.stops = [] ∧
            s.ledger.tables.dispositions = []) ∧
    (∃ s, Reaches (RouteState.step benchRoute) (opening {}) s ∧
      ∃ o ∈ s.ledger.tables.obligations, o.offers = 0 ∧
        .reoffer o.id ∈ s.published.map (·.carried)) ∧
    ∃ s s' payload events, Reaches (RouteState.step benchRoute) (opening {}) s ∧ s.acks = [] ∧
      (∀ b ∈ s.ledger.tables.outbox, b.attempts = 0 ∧ b.retiredAtMs = none) ∧
        run (RouteState.step benchRoute) s (.receive payload :: events) = some s' ∧
          (∀ other, .receive other ∉ events) ∧
            ∃ b ∈ s'.ledger.tables.outbox, b.retiredAtMs ≠ none := by
  refine ⟨?_, ?_, ?_⟩
  · have hrun : (run (RouteState.step benchRoute) (opening {}) othersBefore).any (fun s =>
        decide (∃ id ∈ checkpointIds s.published, ∃ b ∈ s.ledger.tables.outbox,
          b.artifactType = .checkpoint ∧ b.id < id ∧ b.retiredAtMs = none ∧ b.withdrawnAtMs = none ∧
            s.ledger.tables.hasFault .outbox b.id = false ∧ s.ledger.tables.stops = [] ∧
              s.ledger.tables.dispositions = [])) = true := by
      decide +kernel
    obtain ⟨s, hs, hpassed⟩ := (any_eq_true _ _).mp hrun
    exact ⟨s, ⟨_, hs⟩, of_decide_eq_true hpassed⟩
  · have hrun : (run (RouteState.step benchRoute) (opening {}) replacedUnderOffer).any (fun s =>
        decide (∃ o ∈ s.ledger.tables.obligations, o.offers = 0 ∧
          .reoffer o.id ∈ s.published.map (·.carried))) = true := by
      decide +kernel
    obtain ⟨s, hs, hoffered⟩ := (any_eq_true _ _).mp hrun
    exact ⟨s, ⟨_, hs⟩, of_decide_eq_true hoffered⟩
  · have hrun : (run (RouteState.step benchRoute) (opening {}) [.ledger 0 (.issueCheckpoint 5)]).any
        (fun s => s.acks.isEmpty &&
          decide (∀ b ∈ s.ledger.tables.outbox, b.attempts = 0 ∧ b.retiredAtMs = none) &&
          (run (RouteState.step benchRoute) s (.receive (queuedAck "checkpoint"
            (retainedDigest [.ledger 0 (.issueCheckpoint 5)])) :: overtaken)).any (fun s' =>
              decide (∃ b ∈ s'.ledger.tables.outbox, b.retiredAtMs ≠ none))) = true := by
      decide +kernel
    obtain ⟨s, hs, hlater⟩ := (any_eq_true _ _).mp hrun
    obtain ⟨hbefore, hafter⟩ := Bool.and_eq_true_iff.mp hlater
    obtain ⟨hacks, hattempts⟩ := Bool.and_eq_true_iff.mp hbefore
    obtain ⟨s', hs', hretired⟩ := (any_eq_true _ _).mp hafter
    refine ⟨s, s', _, overtaken, ⟨_, hs⟩, isEmpty_iff.mp hacks, of_decide_eq_true hattempts,
      hs', ?_, of_decide_eq_true hretired⟩
    intro other hother
    simp [overtaken, awaits] at hother

/-- A checkpoint carried past another identity's, in order. -/
theorem outbound_in_order_others :
    ∃ s, run (RouteState.step benchRoute) (opening {}) othersBefore = some s ∧
      checkpointIds s.published = [2] ∧ attemptsOf s.ledger.tables (.copy .checkpoint 2) = 1 ∧
      ∀ b ∈ s.ledger.tables.outbox, b.artifactType = .checkpoint → b.id < 2 →
        PassedOver benchRoute.ledger s.ledger.tables b := by
  obtain ⟨s, hs, hids, hattempts⟩ : ∃ s, run (RouteState.step benchRoute) (opening {}) othersBefore
    = some s ∧ checkpointIds s.published = [2] ∧ attemptsOf s.ledger.tables (.copy .checkpoint 2) =
    1 := exists_of_check (by decide +kernel)
  have hkeyed : Keyed ({} : LedgerState).tables :=
    ⟨nodup_nil, nodup_nil, fun b hb => absurd hb not_mem_nil, nodup_nil, nodup_nil⟩
  refine ⟨s, hs, hids, hattempts, ?_⟩
  refine (outbound_in_order hkeyed ⟨_, hs⟩).2.1 2 ?_
  unfold checkpointIds at hids ⊢
  rw [filterMap_append, hids]
  exact mem_append_left _ (mem_singleton_self 2)

end OutboundRoute

end OriRuntime
