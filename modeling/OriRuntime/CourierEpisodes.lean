import OriRuntime.Restatement

/-!
# Episodes of refusal by the courier

`apply_courier_answer` of `ori/security/evidence/ledger.py` beside the gap records it opens, among
every other operation of the ledger. `applied` lists the answers that moved an envelope's answer.
-/

namespace OriRuntime

open List Option

open Execution

structure DeliveryGap where
  localSeq : ℕ
  observedAtMs : ℤ
  deriving DecidableEq

structure AppliedAnswer where
  localSeq : ℕ
  answer : String
  answeredAtMs : ℤ
  deriving DecidableEq

/-- The refusals of a sequence of answers that do not follow a refusal: one for each maximal run. -/
def refusalRuns : Option String → List String → ℕ
  | _, [] => 0
  | before, answer :: answers =>
    (if answer = "refused" ∧ before ≠ some "refused" then 1 else 0) +
      refusalRuns (some answer) answers

theorem refusalRuns_concat (before : Option String) (answers : List String) (answer : String) :
    refusalRuns before (answers ++ [answer]) = refusalRuns before answers +
      if answer = "refused" ∧ answers.getLast?.or before ≠ some "refused" then 1 else 0 := by
  induction answers generalizing before with
  | nil =>
    rw [nil_append, refusalRuns, refusalRuns, List.getLast?_nil, none_or, refusalRuns, Nat.add_comm]
  | cons first answers ih =>
    have hl : (first :: answers).getLast?.or before = answers.getLast?.or (some first) := by
      rw [List.getLast?_cons]
      cases answers.getLast? <;> rfl
    rw [cons_append, refusalRuns, ih, refusalRuns, hl, Nat.add_assoc]

namespace Tables

variable {t t' : Tables} {n : ℕ}

/-- The answer an envelope carries and when it was given. -/
def standing (t : Tables) (n : ℕ) : Option String × Option ℤ :=
  match t.findSeq n with
  | none => (none, none)
  | some r => (r.delivery.courierAnswer, r.delivery.courierAnswerAtMs)

/-- Whether an answer is no later than the one standing. -/
def stale (t : Tables) (n : ℕ) (answeredAtMs : ℤ) : Bool :=
  (t.standing n).2.any (fun stored => decide (answeredAtMs ≤ stored))

def opensRefusal (t : Tables) (n : ℕ) (answer : String) : Bool :=
  decide (answer = "refused" ∧ (t.standing n).1 ≠ some "refused")

end Tables

/-- The ledger, the gaps its courier's answers opened, and those answers. -/
structure CourierLedger where
  ledger : LedgerState := {}
  gaps : List DeliveryGap := []
  applied : List AppliedAnswer := []

namespace CourierLedger

def apply (e : LedgerSetting) (s : CourierLedger) (w : ℕ) (op : LedgerOp) : CourierLedger :=
  match op with
  | .courierAnswer n answer atMs answeredAtMs =>
    if (LedgerState.apply e s.ledger w op).2.isNone = true ∧
        s.ledger.tables.stale n answeredAtMs = false then
      { ledger := (LedgerState.apply e s.ledger w op).1
        gaps :=
          if s.ledger.tables.opensRefusal n answer then s.gaps ++ [⟨n, atMs⟩] else s.gaps
        applied := s.applied ++ [⟨n, answer, answeredAtMs⟩] }
    else { s with ledger := (LedgerState.apply e s.ledger w op).1 }
  | op => { s with ledger := (LedgerState.apply e s.ledger w op).1 }

def step (e : LedgerSetting) (s : CourierLedger) (a : ℕ × LedgerOp) : Option CourierLedger :=
  some (apply e s a.1 a.2)

def appliedTo (s : CourierLedger) (n : ℕ) : List AppliedAnswer :=
  s.applied.filter (fun a => decide (a.localSeq = n))

def gapsOf (s : CourierLedger) (n : ℕ) : ℕ := s.gaps.countP (fun g => decide (g.localSeq = n))

end CourierLedger

/-! ### The answer standing, across an operation -/

namespace Tables

variable {t t' : Tables} {l : EvidenceDeliveryLedger} {n : ℕ}

theorem standing_of_rows (h : t'.rows = t.rows) : t'.standing n = t.standing n := by
  unfold standing findSeq
  rw [h]

variable {f : Delivery → Delivery} {localSeq : ℕ} {r : LedgerRow}

theorem standing_update (h : t.updateDelivery localSeq f = .ok t')
    (hf : localSeq = n → ∀ d, (f d).courierAnswer = d.courierAnswer ∧
      (f d).courierAnswerAtMs = d.courierAnswerAtMs) : t'.standing n = t.standing n := by
  unfold standing
  rw [(updateDelivery_updated h).findSeq]
  cases hr : t.findSeq n with
  | none => rfl
  | some r =>
    have hs : r.localSeq = n := by exact_mod_cast (mem_of_findSeq hr).2
    simp only [map_some]
    split_ifs with hm
    · obtain ⟨hansr, ha⟩ := hf (hm.symm.trans hs) r.delivery
      rw [hansr, ha]
    · rfl

theorem standing_append (hw : t'.rows = t.rows ++ [r])
    (hr : r.delivery.courierAnswer = none ∧ r.delivery.courierAnswerAtMs = none) :
    t'.standing n = t.standing n := by
  unfold standing findSeq
  rw [hw, List.find?_append]
  cases t.rows.find? (fun r => decide ((r.localSeq : ℤ) = n)) with
  | some found => rfl
  | none =>
    rw [List.find?_singleton]
    split_ifs
    · exact Prod.ext hr.1 hr.2
    · rfl

/-- Every row meets the table's checks. -/
def Checked (t : Tables) : Prop := ∀ r ∈ t.rows, checked r.delivery = true

theorem Checked.of_rows (hc : t.Checked) (h : t'.rows = t.rows) : t'.Checked := by
  intro r hr
  exact hc r (h ▸ hr)

theorem Checked.update (hc : t.Checked) (h : t.updateDelivery localSeq f = .ok t') :
    t'.Checked := by
  intro q hq
  rw [(updateDelivery_updated h).eq] at hq
  obtain ⟨r, hr, rfl⟩ := mem_map.mp hq
  split_ifs with hs
  · exact updateDelivery_checked h hr hs
  · exact hc r hr

theorem Checked.append (hc : t.Checked) (hw : t'.rows = t.rows ++ [r])
    (hr : checked r.delivery = true) : t'.Checked := by
  intro q hq
  rw [hw] at hq
  rcases mem_append.mp hq with hq | hq
  · exact hc q hq
  · rw [mem_singleton.mp hq]
    exact hr

/-- What an operation other than an answer to one envelope leaves of it. -/
structure Beside (n : ℕ) (t t' : Tables) : Prop where
  standing : t'.standing n = t.standing n
  checked : t.Checked → t'.Checked

theorem Beside.refl (t : Tables) : Beside n t t := ⟨rfl, id⟩

theorem Beside.trans {u : Tables} (h : Beside n t t') (h' : Beside n t' u) : Beside n t u :=
  ⟨h'.standing.trans h.standing, fun hc => h'.checked (h.checked hc)⟩

theorem Beside.of_rows (h : t'.rows = t.rows) : Beside n t t' :=
  ⟨standing_of_rows h, fun hc => hc.of_rows h⟩

theorem Beside.update (h : t.updateDelivery localSeq f = .ok t')
    (hf : localSeq = n → ∀ d, (f d).courierAnswer = d.courierAnswer ∧
      (f d).courierAnswerAtMs = d.courierAnswerAtMs) : Beside n t t' :=
  ⟨standing_update h hf, fun hc => hc.update h⟩

theorem applyVerifiedCustody_beside {v : VerifiedCustody} {recordedAtMs : ℤ}
    (h : t.applyVerifiedCustody v recordedAtMs = .ok t') : Beside n t t' := by
  obtain ⟨held, -, -, ⟨-, -, ⟨-, rfl⟩ | ⟨-, hu⟩⟩ | ⟨-, hu⟩⟩ := applyVerifiedCustody_cases h
  · exact .refl _
  · refine .update hu (fun _ d => ?_)
    split_ifs <;> exact ⟨rfl, rfl⟩
  · exact .update hu (fun _ d => ⟨rfl, rfl⟩)

variable {atMs answeredAtMs : ℤ} {answer : String}

theorem applyReceipts_beside {keyId : Text} {ns applied : List ℕ}
    (h : applyReceipts atMs keyId t ns = .ok (t', applied)) : Beside n t t' := by
  induction ns generalizing t applied with
  | nil =>
    cases h
    exact .refl _
  | cons m ns ih =>
    obtain ⟨held, -, -, ⟨-, hr⟩ | ⟨u, rest, -, hu, hr⟩⟩ := applyReceipts_cons h
    · exact ih hr
    · exact (Beside.update hu (fun _ d => ⟨rfl, rfl⟩)).trans (ih hr)

theorem sealChainRow_beside {row : CarriedRow} {sealedAtMs : ℤ}
    (h : t.sealChainRow l row sealedAtMs = .ok t') : Beside n t t' := by
  obtain rfl | ⟨-, rows, raced, hseal, rfl⟩ := sealChainRow_cases h
  · exact .refl _
  obtain rfl | ⟨wire, localSeq, hr, -, -⟩ := sealInTransaction_cases hseal
  · exact .of_rows rfl
  · exact ⟨standing_append hr ⟨rfl, rfl⟩, fun hc => hc.append hr rfl⟩

theorem applyCourierAnswer_standing (h : t.applyCourierAnswer n answer atMs answeredAtMs = .ok t') :
    if t.stale n answeredAtMs then t' = t
    else t'.standing n = (some answer, some answeredAtMs) := by
  unfold applyCourierAnswer at h
  split at h <;> rename_i hansr
  · cases h
  cases hr : t.findSeq n with
  | none =>
    rw [hr] at h
    cases h
  | some held =>
    have he : held.localSeq = n := by exact_mod_cast (mem_of_findSeq hr).2
    have hs : t.stale n answeredAtMs =
        held.delivery.courierAnswerAtMs.any (fun stored => decide (answeredAtMs ≤ stored)) := by
      unfold stale standing
      rw [hr]
    have ht : ∀ {f : Delivery → Delivery}, t.updateDelivery n f = .ok t' →
        (∀ d, (f d).courierAnswer = some answer ∧ (f d).courierAnswerAtMs = some answeredAtMs) →
        t'.standing n = (some answer, some answeredAtMs) := by
      intro f hu hf
      unfold standing
      rw [(updateDelivery_updated hu).findSeq, hr]
      simp only [map_some, if_pos he]
      exact Prod.ext (hf _).1 (hf _).2
    rw [hr] at h
    simp only at h
    rw [hs]
    split_ifs at h ⊢ with hk hold hq
    · exact (Except.ok.inj h).symm
    all_goals exact ht h (fun d => ⟨rfl, rfl⟩)

theorem applyCourierAnswer_taken (hc : t.Checked) (hr : t.findSeq n = some r)
    (hansr : answer ∈ courierAnswers) (atMs : ℤ) (hl : t.stale n answeredAtMs = false) :
    ∃ t', t.applyCourierAnswer n answer atMs answeredAtMs = .ok t' := by
  have hl' : ¬ r.delivery.courierAnswerAtMs.any (fun stored =>
      decide (answeredAtMs ≤ stored)) = true := by
    unfold stale standing at hl
    rw [hr] at hl
    exact Bool.eq_false_iff.mp hl
  have hkn : ¬ r.delivery.courierAnswer.any (fun a => decide (a ∉ courierAnswers)) = true := by
    have hh := checked_courierAnswer (hc r (mem_of_findSeq hr).1)
    cases hansr : r.delivery.courierAnswer with
    | none => exact Bool.false_ne_true
    | some a =>
      rw [hansr] at hh
      have hm : a ∈ courierAnswers := of_decide_eq_true hh
      intro hn
      exact (of_decide_eq_true hn : a ∉ courierAnswers) hm
  have hu : ∀ f : Delivery → Delivery, (∀ d, custodyFinal d (f d) = true ∧
      receiptFinal d (f d) = true ∧ (checked d = true → checked (f d) = true)) →
      ∃ t', t.updateDelivery n f = .ok t' := by
    intro f hf
    unfold updateDelivery
    rw [if_pos]
    · exact ⟨_, rfl⟩
    rw [List.all_eq_true]
    intro q hq
    obtain ⟨hcu, he, hch⟩ := hf q.delivery
    rw [hcu, he, hch (hc q hq)]
    simp
  unfold applyCourierAnswer
  rw [if_neg (not_not.mpr hansr), hr]
  simp only
  have hk : ∀ d : Delivery, ∀ attempts lastAttemptMs,
      custodyFinal d { d with courierAnswer := some answer, courierAnswerAtMs := some answeredAtMs
                              attempts := attempts, lastAttemptMs := lastAttemptMs } = true ∧
      receiptFinal d { d with courierAnswer := some answer, courierAnswerAtMs := some answeredAtMs
                              attempts := attempts, lastAttemptMs := lastAttemptMs } = true ∧
      (checked d = true → checked
        { d with courierAnswer := some answer, courierAnswerAtMs := some answeredAtMs
                 attempts := attempts, lastAttemptMs := lastAttemptMs } = true) := by
    intro d attempts lastAttemptMs
    refine ⟨by simp [custodyFinal], by simp [receiptFinal], fun hd => ?_⟩
    unfold checked at hd ⊢
    rw [Bool.and_eq_true] at hd ⊢
    exact ⟨hd.1, decide_eq_true hansr⟩
  split_ifs
  · exact hu _ (fun d => hk d d.attempts d.lastAttemptMs)
  · exact hu _ (fun d => hk d (d.attempts + 1) (some atMs))

end Tables

namespace LedgerState

variable {e : LedgerSetting} {n : ℕ}

open Tables

variable {op : LedgerOp}

theorem perform_beside {w : ℕ} {t t' : Tables}
    (ho : ∀ answer atMs answeredAtMs, op ≠ .courierAnswer n answer atMs answeredAtMs)
    (h : perform e w t op = .ok t') : Beside n t t' := by
  cases op with
  | sealChainRow row sealedAtMs => exact sealChainRow_beside h
  | sealRegistration registration sealedAtMs => exact .of_rows (sealRegistration_rows h)
  | custody artifact recordedAtMs =>
    simp only [perform, acceptCustody] at h
    split at h
    · cases h
    · exact applyVerifiedCustody_beside h
  | receipt artifact =>
    obtain ⟨applied, hc⟩ := map_fst_eq_ok h
    obtain ⟨v, -, ha⟩ := acceptReceipt_cases hc
    exact applyReceipts_beside ha
  | confirmation artifact closedAtMs =>
    simp only [perform, acceptEpochConfirmation] at h
    split at h
    · cases h
    obtain ⟨rfl, -⟩ | ⟨-, hr, -⟩ := applyVerifiedEpochConfirmation_cases h
    · exact .refl _
    · exact .of_rows hr
  | disposition d atMs =>
    obtain ⟨applied, ha⟩ := map_fst_eq_ok h
    exact .of_rows (applyVerifiedDisposition_rows ha)
  | recordAttempt localSeq atMs failure =>
    exact .update (recordAttempt_cases h) (fun _ d => ⟨rfl, rfl⟩)
  | recordTransportFailure localSeq failure =>
    exact .update (recordTransportFailure_cases h) (fun _ d => ⟨rfl, rfl⟩)
  | courierAnswer localSeq answer atMs answeredAtMs =>
    have hn : localSeq = n → False := by
      rintro rfl
      exact ho answer atMs answeredAtMs rfl
    obtain rfl | hu | hu := applyCourierAnswer_cases h
    · exact .refl _
    all_goals exact .update hu (fun hs => (hn hs).elim)
  | recordArtifactFault holder holderId reason atMs =>
    cases h
    exact .of_rows (recordArtifactFault_rows t holder holderId reason atMs)
  | _ =>
    cases h
    exact .of_rows rfl

theorem apply_beside (s : LedgerState) (w : ℕ)
    (ho : ∀ answer atMs answeredAtMs, op ≠ .courierAnswer n answer atMs answeredAtMs) :
    Beside n s.tables (apply e s w op).1.tables := by
  obtain heq | hp | ⟨counter, t', rfl, heq | ⟨bootId, issuedAtMs, -, hi⟩⟩ :=
    apply_cases (e := e) s w op
  · rw [heq]
    exact .refl _
  · exact perform_beside ho hp
  · rw [heq]
    exact .of_rows rfl
  · obtain ⟨wire, ht, -⟩ := issueCheckpoint_cases hi
    rw [ht]
    exact .of_rows (insertArtifact_rows _ _ _ _ _)

theorem apply_courierAnswer (s : LedgerState) (w n : ℕ) (answer : String) (atMs answeredAtMs : ℤ) :
    (∃ fault, apply e s w (.courierAnswer n answer atMs answeredAtMs) = (s, some fault)) ∨
      ∃ t, s.tables.applyCourierAnswer n answer atMs answeredAtMs = .ok t ∧
        apply e s w (.courierAnswer n answer atMs answeredAtMs) = ({ s with tables := t }, none) := by
  simp only [apply, perform]
  cases s.tables.applyCourierAnswer n answer atMs answeredAtMs with
  | error fault => exact .inl ⟨fault, rfl⟩
  | ok t => exact .inr ⟨t, rfl, rfl⟩

end LedgerState

/-! ### The episodes of one envelope -/

namespace CourierLedger

open Tables

variable {e : LedgerSetting} {s : CourierLedger} {n : ℕ}

/-- An envelope's answer is the last applied, the applied answers stand in the order they were
given, and each run of refusals among them opened one gap. -/
structure Episodic (s : CourierLedger) (n : ℕ) : Prop where
  checked : s.ledger.tables.Checked
  standing : s.ledger.tables.standing n = ((s.appliedTo n).getLast?.map (·.answer),
    (s.appliedTo n).getLast?.map (·.answeredAtMs))
  ordered : ((s.appliedTo n).map (·.answeredAtMs)).Pairwise (· < ·)
  counted : s.gapsOf n = refusalRuns none ((s.appliedTo n).map (·.answer))

theorem episodic_empty (n : ℕ) : ({} : CourierLedger).Episodic n where
  checked := fun _ hr => (nomatch hr)
  standing := rfl
  ordered := .nil
  counted := rfl

variable {t : CourierLedger} {answeredAtMs : ℤ}

theorem Episodic.beside (h : s.Episodic n) (hb : Beside n s.ledger.tables t.ledger.tables)
    (ha : t.appliedTo n = s.appliedTo n) (hgaps : t.gapsOf n = s.gapsOf n) :
    t.Episodic n where
  checked := hb.checked h.checked
  standing := by rw [hb.standing, ha, h.standing]
  ordered := by
    rw [ha]
    exact h.ordered
  counted := by rw [hgaps, ha, h.counted]

theorem appliedTo_append {a : AppliedAnswer} (h : t.applied = s.applied ++ [a]) :
    t.appliedTo n = if a.localSeq = n then s.appliedTo n ++ [a] else s.appliedTo n := by
  unfold appliedTo
  rw [h]
  split_ifs with hs
  · simp [hs]
  · simp [hs]

theorem Episodic.newest (h : s.Episodic n) : s.ledger.tables.stale n answeredAtMs = true ↔
      ∃ a ∈ s.appliedTo n, answeredAtMs ≤ a.answeredAtMs := by
  unfold stale
  rw [h.standing]
  cases hls : (s.appliedTo n).getLast? with
  | none =>
    have hn : s.appliedTo n = [] := List.getLast?_eq_none_iff.mp hls
    simp [hn]
  | some a =>
    obtain ⟨before, hs⟩ := List.getLast?_eq_some_iff.mp hls
    have ho := h.ordered
    rw [hs, map_append, pairwise_append] at ho
    simp only [map_some, any_some, decide_eq_true_eq]
    constructor
    · intro hl
      exact ⟨a, hs ▸ mem_append_right _ (mem_singleton.mpr rfl), hl⟩
    · rintro ⟨b, hb, hl⟩
      rw [hs] at hb
      rcases mem_append.mp hb with hb | hb
      · have ht := ho.2.2 b.answeredAtMs (mem_map_of_mem hb) a.answeredAtMs (by simp)
        omega
      · rw [← mem_singleton.mp hb]
        exact hl

theorem apply_stale (w : ℕ) {answer : String} {atMs : ℤ}
    (hs : s.ledger.tables.stale n answeredAtMs = true) :
    apply e s w (.courierAnswer n answer atMs answeredAtMs) = s := by
  unfold apply
  simp only [hs, Bool.true_eq_false, and_false, if_false]
  rcases LedgerState.apply_courierAnswer (e := e) s.ledger w n answer atMs answeredAtMs with
    ⟨fault, hf⟩ | ⟨t, ha, ho⟩
  · rw [hf]
  · have hm := applyCourierAnswer_standing ha
    rw [if_pos hs] at hm
    rw [ho, hm]

theorem Episodic.apply (h : s.Episodic n) (w : ℕ) (op : LedgerOp) :
    (CourierLedger.apply e s w op).Episodic n := by
  by_cases hop : ∃ m answer atMs answeredAtMs, op = .courierAnswer m answer atMs answeredAtMs
  · obtain ⟨m, answer, atMs, answeredAtMs, rfl⟩ := hop
    by_cases hs : s.ledger.tables.stale m answeredAtMs = true
    · rw [apply_stale w hs]
      exact h
    · rw [Bool.not_eq_true] at hs
      rcases LedgerState.apply_courierAnswer (e := e) s.ledger w m answer atMs answeredAtMs with
        ⟨fault, hf⟩ | ⟨t, happl, hk⟩
      · have hkp : CourierLedger.apply e s w (.courierAnswer m answer atMs answeredAtMs) = s := by
          unfold CourierLedger.apply
          rw [hf]
          rfl
        rw [hkp]
        exact h
      · have hnx : CourierLedger.apply e s w (.courierAnswer m answer atMs answeredAtMs) =
            { ledger := { s.ledger with tables := t }
              gaps :=
                if s.ledger.tables.opensRefusal m answer then s.gaps ++ [⟨m, atMs⟩] else s.gaps
              applied := s.applied ++ [⟨m, answer, answeredAtMs⟩] } := by
          unfold CourierLedger.apply
          rw [hk]
          simp only [isNone_none, hs, and_self, if_true]
        rw [hnx]
        by_cases hm : m = n
        · subst hm
          have hstan := applyCourierAnswer_standing happl
          rw [hs] at hstan
          have hp : CourierLedger.appliedTo
              { ledger := { s.ledger with tables := t }
                gaps :=
                  if s.ledger.tables.opensRefusal m answer then s.gaps ++ [⟨m, atMs⟩] else s.gaps
                applied := s.applied ++ [⟨m, answer, answeredAtMs⟩] } m =
              s.appliedTo m ++ [⟨m, answer, answeredAtMs⟩] := by
            rw [appliedTo_append (s := s) rfl, if_pos rfl]
          have hl : ∀ a ∈ s.appliedTo m, a.answeredAtMs < answeredAtMs := by
            intro a ha
            by_contra hle
            rw [h.newest.mpr ⟨a, ha, not_lt.mp hle⟩] at hs
            cases hs
          refine ⟨?_, ?_, ?_, ?_⟩
          · rcases applyCourierAnswer_cases happl with rfl | hu | hu
            · exact h.checked
            all_goals exact h.checked.update hu
          · rw [hp, List.getLast?_concat]
            exact hstan
          · rw [hp, map_append, pairwise_append]
            refine ⟨h.ordered, pairwise_singleton _ _, ?_⟩
            intro x hx y hy
            obtain ⟨a, ha, rfl⟩ := mem_map.mp hx
            rw [mem_singleton.mp hy]
            exact hl a ha
          · have he : s.ledger.tables.opensRefusal m answer = decide (answer = "refused" ∧
                ((s.appliedTo m).map (·.answer)).getLast?.or none ≠ some "refused") := by
              unfold opensRefusal
              rw [h.standing, List.getLast?_map, or_none]
            rw [hp, map_append, map_singleton, refusalRuns_concat, ← h.counted]
            unfold gapsOf
            rw [he]
            simp only [decide_eq_true_eq]
            split_ifs
            · rw [countP_append]
              simp
            · rfl
        · have hn : m ≠ n := hm
          refine h.beside ?_ ?_ ?_
          · have ho : ∀ answer' atMs' answeredAtMs',
                LedgerOp.courierAnswer m answer atMs answeredAtMs ≠
                  .courierAnswer n answer' atMs' answeredAtMs' :=
              fun _ _ _ hsm => hn (LedgerOp.courierAnswer.inj hsm).1
            have hb := LedgerState.apply_beside (e := e) s.ledger w ho
            rw [hk] at hb
            exact hb
          · rw [appliedTo_append (s := s) rfl, if_neg hn]
          · unfold gapsOf
            split_ifs
            · rw [countP_append]
              simp [hn]
            · rfl
  · have ho : ∀ m answer atMs answeredAtMs, op ≠ .courierAnswer m answer atMs answeredAtMs :=
      fun m answer atMs answeredAtMs heq => hop ⟨m, answer, atMs, answeredAtMs, heq⟩
    have hnx : CourierLedger.apply e s w op =
        { s with ledger := (LedgerState.apply e s.ledger w op).1 } := by
      cases op with
      | courierAnswer m answer atMs answeredAtMs => exact absurd rfl (ho _ _ _ _)
      | _ => rfl
    rw [hnx]
    exact h.beside (LedgerState.apply_beside s.ledger w (ho n)) rfl rfl

/-- In every run of the ledger an envelope's answers are applied in the order they were given, one
no later than the newest changes nothing, a later one is applied, and each maximal run of refusals
among the applied opens one gap. -/
theorem courier_episodes {as : List (ℕ × LedgerOp)} (hrun : run (step e) {} as = some s) (n : ℕ) :
    ((s.appliedTo n).map (·.answeredAtMs)).Pairwise (· < ·) ∧
    s.gapsOf n = refusalRuns none ((s.appliedTo n).map (·.answer)) ∧
    (∀ w answer atMs answeredAtMs, (∃ a ∈ s.appliedTo n, answeredAtMs ≤ a.answeredAtMs) →
      step e s (w, .courierAnswer n answer atMs answeredAtMs) = some s) ∧
    ∀ w answer atMs answeredAtMs, answer ∈ courierAnswers →
      (s.ledger.tables.findSeq n).isSome = true →
      (∀ a ∈ s.appliedTo n, a.answeredAtMs < answeredAtMs) →
      ∃ s', step e s (w, .courierAnswer n answer atMs answeredAtMs) = some s' ∧
        s'.appliedTo n = s.appliedTo n ++ [⟨n, answer, answeredAtMs⟩] := by
  have hstep : ∀ (s : CourierLedger) (a : ℕ × LedgerOp) (t : CourierLedger), s.Episodic n →
      step e s a = some t → t.Episodic n := by
    intro s a t hs ht
    cases ht
    exact hs.apply a.1 a.2
  have h := run_invariant hstep (episodic_empty n) hrun
  refine ⟨h.ordered, h.counted, fun w answer atMs answeredAtMs holder => ?_, ?_⟩
  · exact congrArg some (apply_stale w (h.newest.mpr holder))
  intro w answer atMs answeredAtMs hanswer hsealed hlater
  have hstale : s.ledger.tables.stale n answeredAtMs = false := by
    rw [← Bool.not_eq_true, h.newest]
    rintro ⟨a, ha, hle⟩
    have := hlater a ha
    omega
  obtain ⟨r, hr⟩ := isSome_iff_exists.mp hsealed
  obtain ⟨t, htaken⟩ := applyCourierAnswer_taken h.checked hr hanswer atMs hstale
  refine ⟨_, rfl, ?_⟩
  have hok : LedgerState.apply e s.ledger w (.courierAnswer n answer atMs answeredAtMs) =
      ({ s.ledger with tables := t }, none) := by
    simp only [LedgerState.apply, LedgerState.perform, htaken]
  have happlied : (CourierLedger.apply e s w (.courierAnswer n answer atMs answeredAtMs)).applied =
      s.applied ++ [⟨n, answer, answeredAtMs⟩] := by
    unfold CourierLedger.apply
    rw [hok]
    simp only [isNone_none, hstale, and_self, if_true]
  rw [appliedTo_append happlied, if_pos rfl]

/-- Two refusals of one episode, answers delivered late and twice, and a refusal after the courier
queued the envelope. -/
def refusedTwice : List (ℕ × LedgerOp) :=
  [(0, .sealChainRow LedgerState.benchRow 5), (0, .courierAnswer 1 "refused" 11 10),
    (1, .courierAnswer 1 "refused" 21 20), (0, .courierAnswer 1 "refused" 22 20),
    (1, .courierAnswer 1 "queued" 23 15), (0, .courierAnswer 1 "queued" 31 30),
    (0, .courierAnswer 1 "refused" 41 40)]

theorem courier_episodes_of_refusedTwice :
    ∃ s, run (step LedgerState.benchSetting) {} refusedTwice = some s ∧ s.gapsOf 1 = 2 ∧
      (s.appliedTo 1).map (·.answeredAtMs) = [10, 20, 30, 40] := by
  obtain ⟨s, hs, hanswers, htimes⟩ : ∃ s, run (step LedgerState.benchSetting) {} refusedTwice = some
    s ∧ (s.appliedTo 1).map (·.answer) = ["refused", "refused", "queued", "refused"] ∧ (s.appliedTo
    1).map (·.answeredAtMs) = [10, 20, 30, 40] := by
    refine exists_of_check ?_
    dsimp only [refusedTwice, LedgerState.benchRow, EvidenceDeliveryLedger.heartbeatRow,
      EvidenceDeliveryLedger.heartbeatBytes, text]
    repeat rw [String.toList_ofList]
    decide +kernel
  refine ⟨s, hs, ?_, htimes⟩
  rw [(courier_episodes hs 1).2.1, hanswers]
  rfl

end CourierLedger

end OriRuntime
