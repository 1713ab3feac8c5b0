import OriRuntime.AlertOutbox
import OriRuntime.Execution

/-!
# The accounts of alerts

The monthly caps, provider calls and tallies of `ori/runtime/_alerts.py` within one month, under
one policy. Submissions run side by side, each suspended where the source awaits the store or a
provider; an action resumes one of them with what it waited for. Channel names stand normalised.
-/

namespace OriRuntime

open Execution List

structure AlertPolicy where
  alertSmsMonthlyCap : Option ℤ := none
  alertWhatsappMonthlyCap : Option ℤ := none
  disabledClasses : List Text := []

namespace AlertPolicy

def alertMonthlyCap (p : AlertPolicy) (channel : Text) : Option ℤ :=
  if channel = text "sms" then p.alertSmsMonthlyCap
  else if channel = text "whatsapp" then p.alertWhatsappMonthlyCap
  else none

def permitsExternalAlert (p : AlertPolicy) (channel actionTier : Text) (currentMonthCount : ℕ) :
    Bool :=
  decide (actionTier = text "D") ||
    (p.alertMonthlyCap channel).all (fun cap => decide (cap = -1 ∨ (currentMonthCount : ℤ) < cap))

def permitsAlertClass (p : AlertPolicy) (alertClass : Option Text) (actionTier : Text) : Bool :=
  decide (actionTier = text "D") || alertClass.all (fun c => decide (c ∉ p.disabledClasses))

end AlertPolicy

/-- One first send or one retry of a notice. Every call site sends an optional notice at Tier A. -/
structure AlertSubmission where
  retry : Bool
  noticeKind : Option Text
  channel : Text
  actionTier : Text
  alertClass : Option Text
  recipient : Text
  /-- `_ordered_senders`, or the one channel of a send without failover. -/
  senders : List Text
  tierA : noticeIsMandatory noticeKind = false → actionTier ≠ text "D"

inductive WithheldReason
  | disabled
  | capped
deriving DecidableEq

inductive SubmissionStage
  | judging
  | capping
  | tallying (reason : WithheldReason)
  | writing (reason : WithheldReason) (count : ℕ)
  | tallied (reason : WithheldReason)
  | untallied (reason : WithheldReason)
  | enqueueing
  | offering (channel : Text) (rest : List Text)
  | submitting (channel : Text) (rest : List Text)
  | marking (channel : Text)
  | counting (channel : Text)
  | counted (channel : Text)
  | uncounted (channel : Text)
  | over
deriving DecidableEq

inductive AwaitAnswer
  | done
  | failed
  | accepted
  | refused

abbrev TallyKey := WithheldReason × Text × Option Text

structure AlertAccounts where
  counts : Text → ℕ := fun _ => 0
  tallies : TallyKey → ℕ := fun _ => 0

namespace AlertSubmission

def mandatory (n : AlertSubmission) : Bool := noticeIsMandatory n.noticeKind

def withheldTallyKey (n : AlertSubmission) (reason : WithheldReason) : TallyKey :=
  (reason, n.channel, n.alertClass)

/-- The next sender of `AlertFailoverSender.send`; a mandatory notice comes without `may_use`. -/
def offer (n : AlertSubmission) : List Text → SubmissionStage
  | [] => .over
  | channel :: rest => if n.mandatory then .submitting channel rest else .offering channel rest

def admitted (n : AlertSubmission) : SubmissionStage :=
  if n.recipient = [] then .over else .enqueueing

def start (n : AlertSubmission) : SubmissionStage :=
  if n.retry then n.offer n.senders else .judging

theorem start_cases (n : AlertSubmission) : n.start = n.offer n.senders ∨ n.start = .judging := by
  unfold start
  split_ifs
  · exact .inl rfl
  · exact .inr rfl

def advance (p : AlertPolicy) (b : AlertAccounts) (n : AlertSubmission) :
    SubmissionStage → AwaitAnswer → Option (AlertAccounts × SubmissionStage)
  | .judging, .done =>
    if n.mandatory then some (b, n.admitted)
    else if p.permitsAlertClass n.alertClass n.actionTier then some (b, .capping)
    else some (b, .tallying .disabled)
  | .capping, .done =>
    if p.permitsExternalAlert n.channel n.actionTier (b.counts n.channel) then some (b, n.admitted)
    else some (b, .tallying .capped)
  | .capping, .failed => some (b, .over)
  | .tallying reason, .done =>
    some (b, .writing reason (b.tallies (n.withheldTallyKey reason) + 1))
  | .tallying reason, .failed => some (b, .untallied reason)
  | .writing reason count, .done =>
    some ({ b with tallies := Function.update b.tallies (n.withheldTallyKey reason) count },
      .tallied reason)
  | .writing reason _, .failed => some (b, .untallied reason)
  | .enqueueing, .done => some (b, n.offer n.senders)
  | .enqueueing, .refused => some (b, .over)
  | .enqueueing, .failed => some (b, .over)
  | .offering channel rest, .done =>
    if p.permitsExternalAlert channel n.actionTier (b.counts channel) then
      some (b, .submitting channel rest)
    else some (b, n.offer rest)
  | .offering _ _, .failed => some (b, .over)
  | .submitting channel _, .accepted => some (b, .marking channel)
  | .submitting _ rest, .refused => some (b, n.offer rest)
  | .marking channel, .done => some (b, if n.mandatory then .over else .counting channel)
  | .marking channel, .failed => some (b, .uncounted channel)
  | .counting channel, .done =>
    some ({ b with counts := Function.update b.counts channel (b.counts channel + 1) },
      .counted channel)
  | .counting channel, .failed => some (b, .uncounted channel)
  | _, _ => none

end AlertSubmission

namespace AlertDesk

/-! ### What a submission has done -/

/-- The provider of the channel accepted this optional notice. -/
def acceptedBy (channel : Text) (j : AlertSubmission × SubmissionStage) : Bool :=
  !j.1.mandatory &&
    match j.2 with
    | .marking c | .counting c | .counted c | .uncounted c => decide (c = channel)
    | _ => false

/-- The writes that follow an acceptance are still to come, or one of them failed. -/
def unrecorded : SubmissionStage → Bool
  | .marking _ | .counting _ | .uncounted _ => true
  | _ => false

def recordedBy (channel : Text) (j : AlertSubmission × SubmissionStage) : Bool :=
  acceptedBy channel j && !unrecorded j.2

/-- An optional notice the cap let through, before its count. -/
def authorisedOn (channel : Text) (j : AlertSubmission × SubmissionStage) : Bool :=
  !j.1.mandatory &&
    match j.2 with
    | .submitting c _ | .marking c | .counting c => decide (c = channel)
    | _ => false

def withheldFor (key : TallyKey) (j : AlertSubmission × SubmissionStage) : Bool :=
  match j.2 with
  | .tallying r | .writing r _ | .tallied r | .untallied r => decide (j.1.withheldTallyKey r = key)
  | _ => false

def talliedFor (key : TallyKey) (j : AlertSubmission × SubmissionStage) : Bool :=
  withheldFor key j &&
    match j.2 with
    | .tallied _ => true
    | _ => false

def recordingFor (key : TallyKey) (j : AlertSubmission × SubmissionStage) : Bool :=
  withheldFor key j &&
    match j.2 with
    | .tallying _ | .writing _ _ => true
    | _ => false

/-- The stages that read or write the accounts. -/
def consults : SubmissionStage → Bool
  | .capping | .tallying _ | .writing _ _ | .offering _ _ | .counting _ => true
  | _ => false

section Advance

variable {b b' : AlertAccounts} {n : AlertSubmission} {stage stage' : SubmissionStage} {x : AwaitAnswer}

@[simp] theorem acceptedBy_offer (c : Text) (l : List Text) :
    acceptedBy c (n, n.offer l) = false := by
  cases l with
  | nil => simp [acceptedBy, AlertSubmission.offer]
  | cons d l => cases hm : n.mandatory <;> simp [acceptedBy, AlertSubmission.offer, hm]

@[simp] theorem authorisedOn_offer (c : Text) (l : List Text) :
    authorisedOn c (n, n.offer l) = false := by
  cases l with
  | nil => simp [authorisedOn, AlertSubmission.offer]
  | cons d l => cases hm : n.mandatory <;> simp [authorisedOn, AlertSubmission.offer, hm]

@[simp] theorem withheldFor_offer (key : TallyKey) (l : List Text) :
    withheldFor key (n, n.offer l) = false := by
  cases l with
  | nil => rfl
  | cons d l => cases hm : n.mandatory <;> simp [withheldFor, AlertSubmission.offer, hm]

theorem consults_offer {l : List Text} (h : consults (n.offer l) = true) : n.mandatory = false := by
  cases l with
  | nil => cases h
  | cons d l => cases hm : n.mandatory <;> simp_all [consults, AlertSubmission.offer]

@[simp] theorem acceptedBy_admitted (c : Text) : acceptedBy c (n, n.admitted) = false := by
  by_cases ht : n.recipient = [] <;> simp [acceptedBy, AlertSubmission.admitted, ht]

@[simp] theorem authorisedOn_admitted (c : Text) : authorisedOn c (n, n.admitted) = false := by
  by_cases ht : n.recipient = [] <;> simp [authorisedOn, AlertSubmission.admitted, ht]

@[simp] theorem withheldFor_admitted (key : TallyKey) : withheldFor key (n, n.admitted) = false := by
  by_cases ht : n.recipient = [] <;> simp [withheldFor, AlertSubmission.admitted, ht]

@[simp] theorem consults_admitted : consults n.admitted = false := by
  by_cases ht : n.recipient = [] <;> simp [consults, AlertSubmission.admitted, ht]

theorem advance_consults (h : n.advance p b stage x = some (b', stage'))
    (ho : consults stage = true → n.mandatory = false) (hc : consults stage' = true) :
    n.mandatory = false := by
  unfold AlertSubmission.advance at h
  split at h
  all_goals try split_ifs at h
  all_goals cases h
  all_goals first
    | exact ho rfl
    | exact Bool.eq_false_iff.mpr ‹_›
    | exact consults_offer hc
    | exact absurd (consults_admitted.symm.trans hc) Bool.false_ne_true
    | cases hc

end Advance

end AlertDesk

structure AlertDesk where
  accounts : AlertAccounts := {}
  jobs : List (AlertSubmission × SubmissionStage)

namespace AlertDesk

def opened (submissions : List AlertSubmission) : AlertDesk where
  jobs := submissions.map (fun n => (n, n.start))

def step (p : AlertPolicy) (s : AlertDesk) (a : ℕ × AwaitAnswer) : Option AlertDesk :=
  match s.jobs[a.1]? with
  | none => none
  | some job =>
    (job.1.advance p s.accounts job.2 a.2).map
      (fun r => ⟨r.1, s.jobs.set a.1 (job.1, r.2)⟩)

variable {p : AlertPolicy} {s t : AlertDesk} {a : ℕ × AwaitAnswer}

theorem step_cases (h : s.step p a = some t) : ∃ n stage b stage', s.jobs[a.1]? = some (n, stage) ∧
    n.advance p s.accounts stage a.2 = some (b, stage') ∧ t = ⟨b, s.jobs.set a.1 (n, stage')⟩ := by
  unfold step at h
  split at h
  · cases h
  rename_i job hj
  obtain ⟨⟨b, stage'⟩, ha, rfl⟩ := Option.map_eq_some_iff.mp h
  exact ⟨job.1, job.2, b, stage', hj, ha, rfl⟩

section Advance

variable {b b' : AlertAccounts} {n : AlertSubmission} {stage stage' : SubmissionStage} {x : AwaitAnswer}

theorem advance_mandatory (h : n.advance p b stage x = some (b', stage'))
    (ho : consults stage = true → n.mandatory = false) (hm : n.mandatory = true) :
    b' = b ∧ ∀ y, n.advance p y stage x = some (y, stage') := by
  have hco : consults stage = false := by
    cases hc : consults stage with
    | false => rfl
    | true => exact absurd (ho hc) (by rw [hm]; decide)
  unfold AlertSubmission.advance at h ⊢
  split at h
  all_goals try split_ifs at h
  all_goals cases h
  all_goals cases hco
  all_goals exact ⟨rfl, fun _ => by simp [hm]⟩

theorem advance_recorded (h : n.advance p b stage x = some (b', stage')) (c : Text)
    (ho : consults stage = true → n.mandatory = false) :
    b'.counts c + (recordedBy c (n, stage)).toNat =
      b.counts c + (recordedBy c (n, stage')).toNat := by
  unfold AlertSubmission.advance at h
  split at h
  all_goals try split_ifs at h
  all_goals cases h
  all_goals try simp [recordedBy]
  all_goals try simp [acceptedBy, unrecorded]
  rename_i d
  by_cases hd : d = c
  · simp [hd, ho rfl]
  · simp [hd, Function.update_of_ne (Ne.symm hd)]

theorem advance_authorised (h : n.advance p b stage x = some (b', stage')) (c : Text)
    (ho : consults stage = true → n.mandatory = false) :
    b'.counts c + (authorisedOn c (n, stage')).toNat ≤
        b.counts c + (authorisedOn c (n, stage)).toNat ∨
      (∃ rest, stage = .offering c rest) ∧ b' = b ∧
        p.permitsExternalAlert c n.actionTier (b.counts c) = true := by
  unfold AlertSubmission.advance at h
  split at h
  all_goals try split_ifs at h
  all_goals cases h
  all_goals try simp
  all_goals try simp [authorisedOn]
  · rename_i d _ hperm
    by_cases hd : d = c
    · exact .inr ⟨hd, hd ▸ hperm⟩
    · exact .inl fun _ => hd
  · rename_i d
    by_cases hd : d = c
    · simp [hd, ho rfl]
    · simp [hd, Function.update_of_ne (Ne.symm hd)]

theorem advance_writing {r : WithheldReason} {c : ℕ} (hs : stage' = .writing r c)
    (h : n.advance p b stage x = some (b', stage')) :
    stage = .tallying r ∧ b' = b ∧ c = b.tallies (n.withheldTallyKey r) + 1 := by
  have hw : withheldFor (n.withheldTallyKey r) (n, stage') = true := by simp [hs, withheldFor]
  unfold AlertSubmission.advance at h
  split at h
  all_goals try split_ifs at h
  all_goals cases h
  all_goals try simp at hw
  all_goals cases hs
  exact ⟨rfl, rfl, rfl⟩

theorem advance_tallied (h : n.advance p b stage x = some (b', stage')) (key : TallyKey) :
    b'.tallies key = b.tallies key ∧ talliedFor key (n, stage') = talliedFor key (n, stage) ∨
      ∃ r c, stage = .writing r c ∧ n.withheldTallyKey r = key ∧ b'.tallies key = c ∧
        talliedFor key (n, stage) = false ∧ talliedFor key (n, stage') = true := by
  unfold AlertSubmission.advance at h
  split at h
  all_goals try split_ifs at h
  all_goals cases h
  all_goals try simp [talliedFor]
  all_goals try simp [withheldFor]
  rename_i r c
  by_cases hk : n.withheldTallyKey r = key
  · simp [hk]
  · simp [hk, Function.update_of_ne (Ne.symm hk)]

theorem advance_recording (h : n.advance p b stage x = some (b', stage')) (key : TallyKey)
    (hw : ∀ r c, stage = .writing r c → n.withheldTallyKey r = key → c = b.tallies key + 1)
    (ho : withheldFor key (n, stage) = true → x ≠ .failed) :
    b'.tallies key + (recordingFor key (n, stage')).toNat + (withheldFor key (n, stage)).toNat =
      b.tallies key + (recordingFor key (n, stage)).toNat +
        (withheldFor key (n, stage')).toNat := by
  unfold AlertSubmission.advance at h
  split at h
  all_goals try split_ifs at h
  all_goals cases h
  all_goals try simp [recordingFor]
  all_goals try simp [withheldFor]
  · exact fun hk => ho (by simp [withheldFor, hk]) rfl
  · rename_i r c
    by_cases hk : n.withheldTallyKey r = key
    · simp [hk, hw r c rfl hk]
    · simp [hk, Function.update_of_ne (Ne.symm hk)]
  · exact fun hk => ho (by simp [withheldFor, hk]) rfl

end Advance

/-! ### Every run -/

structure Accounted (s : AlertDesk) : Prop where
  optional : ∀ j ∈ s.jobs, consults j.2 = true → j.1.mandatory = false
  counts : ∀ c, s.accounts.counts c = s.jobs.countP (recordedBy c)
  tallies : ∀ key, s.accounts.tallies key ≤ s.jobs.countP (talliedFor key)
  writing : ∀ n r c, (n, .writing r c) ∈ s.jobs →
    c ≤ s.jobs.countP (talliedFor (n.withheldTallyKey r)) + 1

theorem accounted_opened (l : List AlertSubmission) : Accounted (opened l) where
  optional j hj hc := by
    obtain ⟨n, -, rfl⟩ := mem_map.mp hj
    rcases n.start_cases with hs | hs <;> rw [hs] at hc
    · exact consults_offer hc
    · cases hc
  counts c := by
    refine (countP_eq_zero.mpr fun j hj => ?_).symm
    obtain ⟨n, -, rfl⟩ := mem_map.mp hj
    rcases n.start_cases with hs | hs <;> simp [recordedBy, hs]
    simp [acceptedBy]
  tallies key := Nat.zero_le _
  writing n r c hj := by
    obtain ⟨m, -, heq⟩ := mem_map.mp hj
    have hw : withheldFor (m.withheldTallyKey r) (m, m.start) = true := by
      rw [(Prod.mk.inj heq).2]
      simp [withheldFor]
    rcases m.start_cases with hs | hs
    · simp [hs] at hw
    · rw [hs] at hw
      cases hw

theorem accounted_step (h : Accounted s) (hst : s.step p a = some t) : Accounted t := by
  obtain ⟨n, stage, b, stage', hjo, ha, rfl⟩ := step_cases hst
  have ho := h.optional (n, stage) (mem_of_getElem? hjo)
  have hm : ∀ j ∈ s.jobs.set a.1 (n, stage'), j ∈ s.jobs ∨ j = (n, stage') := fun _ hj =>
    mem_or_eq_of_mem_set hj
  have ht : ∀ key, s.jobs.countP (talliedFor key) ≤
      (s.jobs.set a.1 (n, stage')).countP (talliedFor key) := by
    intro key
    have hs := countP_set_add hjo (n, stage') (talliedFor key)
    obtain ⟨-, heq⟩ | ⟨_, _, -, -, -, hold, hn⟩ := advance_tallied ha key
    · rw [heq] at hs
      exact (Nat.add_right_cancel hs).ge
    · simp only [hold, hn, Bool.toNat_false, Bool.toNat_true] at hs
      omega
  refine ⟨fun j hj hco => ?_, fun c => ?_, fun key => ?_, fun m r c hj => ?_⟩
  · rcases hm j hj with hj | rfl
    · exact h.optional j hj hco
    · exact advance_consults ha ho hco
  · have hs := countP_set_add hjo (n, stage') (recordedBy c)
    have hr := advance_recorded ha c ho
    have hu := h.counts c
    dsimp only
    omega
  · obtain ⟨heq, -⟩ | ⟨r, c, rfl, rfl, hc, hold, hn⟩ := advance_tallied ha key
    · exact (heq.trans_le (h.tallies key)).trans (ht key)
    have hs := countP_set_add hjo (n, stage') (talliedFor (n.withheldTallyKey r))
    have hl := h.writing n r c (mem_of_getElem? hjo)
    simp only [hold, hn, Bool.toNat_false, Bool.toNat_true] at hs
    dsimp only
    omega
  · rcases hm _ hj with hj | heq
    · exact (h.writing m r c hj).trans (Nat.succ_le_succ (ht _))
    obtain ⟨rfl, rfl⟩ := Prod.mk.inj heq
    obtain ⟨-, -, rfl⟩ := advance_writing rfl ha
    exact Nat.succ_le_succ ((h.tallies _).trans (ht _))

/-- Before this step fewer than `m` optional notices are between a cap check of the channel that
let them through and their count. -/
def FewerAuthorised (c : Text) (m : ℕ) (s : AlertDesk) (a : ℕ × AwaitAnswer) : Prop :=
  ∀ n rest, s.jobs[a.1]? = some (n, .offering c rest) → s.jobs.countP (authorisedOn c) < m

def UnderCap (c : Text) (most : ℕ) (s : AlertDesk) : Prop :=
  Accounted s ∧ s.accounts.counts c + s.jobs.countP (authorisedOn c) ≤ most

theorem underCap_step {c : Text} {cap : ℤ} {m : ℕ} (hc : p.alertMonthlyCap c = some cap)
    (hl : cap ≠ -1) (h : UnderCap c (cap.toNat + (m - 1)) s) (hC : FewerAuthorised c m s a)
    (ht : s.step p a = some t) : UnderCap c (cap.toNat + (m - 1)) t := by
  refine ⟨accounted_step h.1 ht, ?_⟩
  obtain ⟨n, stage, b, stage', hj, ha, rfl⟩ := step_cases ht
  have ho := h.1.optional (n, stage) (mem_of_getElem? hj)
  have hs := countP_set_add hj (n, stage') (authorisedOn c)
  have he := h.2
  obtain hm | ⟨⟨rest, rfl⟩, rfl, hperm⟩ := advance_authorised ha c ho
  · dsimp only
    omega
  · have hf := hC n rest hj
    have hn := Bool.toNat_le (authorisedOn c (n, stage'))
    unfold AlertPolicy.permitsExternalAlert at hperm
    rw [hc, Option.all_some, decide_eq_false (n.tierA (ho rfl)), Bool.false_or,
      decide_eq_true_eq] at hperm
    have hlt := hperm.resolve_left hl
    dsimp only
    omega

/-- No tally write of the key fails, and none is read while another submission holds the value it
read of the same key. -/
def RecordsAlone (key : TallyKey) (s : AlertDesk) (a : ℕ × AwaitAnswer) : Prop :=
  ∀ n stage, s.jobs[a.1]? = some (n, stage) → withheldFor key (n, stage) = true →
    a.2 ≠ .failed ∧ ∀ r, stage = .tallying r → ∀ m r' c, (m, .writing r' c) ∈ s.jobs →
      m.withheldTallyKey r' ≠ key

structure TalliedAlone (key : TallyKey) (s : AlertDesk) : Prop where
  balance : s.accounts.tallies key + s.jobs.countP (recordingFor key) =
    s.jobs.countP (withheldFor key)
  next : ∀ (i : ℕ) (n : AlertSubmission) r c, s.jobs[i]? = some (n, SubmissionStage.writing r c) →
    n.withheldTallyKey r = key → c = s.accounts.tallies key + 1 ∧
      ∀ (j : ℕ) (m : AlertSubmission) r' c', s.jobs[j]? = some (m, SubmissionStage.writing r' c') →
        m.withheldTallyKey r' = key → j = i

theorem talliedAlone_opened (l : List AlertSubmission) (key : TallyKey) :
    TalliedAlone key (opened l) := by
  have hn : ∀ j ∈ (opened l).jobs, withheldFor key j = false := by
    intro j hj
    obtain ⟨n, -, rfl⟩ := mem_map.mp hj
    rcases n.start_cases with hs | hs <;> rw [hs]
    · exact withheldFor_offer key _
    · rfl
  refine ⟨?_, fun i n r c hg hk => ?_⟩
  · rw [countP_eq_zero.mpr fun j hj => by simp [recordingFor, hn j hj],
      countP_eq_zero.mpr fun j hj => by simp [hn j hj]]
    rfl
  · have hw := hn _ (mem_of_getElem? hg)
    simp [withheldFor, hk] at hw

theorem talliedAlone_step {key : TallyKey} (h : TalliedAlone key s) (hC : RecordsAlone key s a)
    (ht : s.step p a = some t) : TalliedAlone key t := by
  obtain ⟨n, stage, b, stage', ho, ha, rfl⟩ := step_cases ht
  have he : ∀ j z, (s.jobs.set a.1 (n, stage'))[j]? = some z →
      j = a.1 ∧ z = (n, stage') ∨ j ≠ a.1 ∧ s.jobs[j]? = some z := by
    intro j z hz
    rw [getElem?_set] at hz
    split_ifs at hz with hj
    · exact .inl ⟨hj.symm, (Option.some.inj hz).symm⟩
    · exact .inr ⟨Ne.symm hj, hz⟩
  -- a value read now is read while nobody holds one
  have hd : ∀ r c, stage' = .writing r c → n.withheldTallyKey r = key →
      b = s.accounts ∧ c = s.accounts.tallies key + 1 ∧
        ∀ (j : ℕ) (m : AlertSubmission) r' c', s.jobs[j]? = some (m, SubmissionStage.writing r' c') →
          m.withheldTallyKey r' ≠ key := by
    intro r c hs hk
    obtain ⟨rfl, rfl, rfl⟩ := advance_writing hs ha
    have hf := (hC n _ ho (by simp [withheldFor, hk])).2 r rfl
    exact ⟨rfl, by rw [hk], fun j m r' c' hj => hf m r' c' (mem_of_getElem? hj)⟩
  refine ⟨?_, fun i m r c hi hk => ?_⟩
  · have hb := advance_recording ha key
      (fun r c hs hk => (h.next a.1 n r c (hs ▸ ho) hk).1) (fun hw => (hC n _ ho hw).1)
    have hr := countP_set_add ho (n, stage') (recordingFor key)
    have hwith := countP_set_add ho (n, stage') (withheldFor key)
    have hold := h.balance
    dsimp only
    omega
  · rcases he i _ hi with ⟨rfl, heq⟩ | ⟨hn, hp⟩
    · obtain ⟨rfl, hs⟩ := Prod.mk.inj heq
      obtain ⟨rfl, hc, hf⟩ := hd r c hs.symm hk
      refine ⟨hc, fun j m' r' c' hj hk' => ?_⟩
      rcases he j _ hj with ⟨rfl, -⟩ | ⟨-, hj⟩
      · rfl
      · exact absurd hk' (hf j m' r' c' hj)
    · obtain ⟨hc, huniq⟩ := h.next i m r c hp hk
      refine ⟨?_, fun j m' r' c' hj hk' => ?_⟩
      · obtain ⟨heq, -⟩ | ⟨r', c', rfl, hk', -⟩ := advance_tallied ha key
        · exact hc.trans (congrArg (· + 1) heq.symm)
        · exact absurd (huniq a.1 n r' c' ho hk').symm hn
      · rcases he j _ hj with ⟨rfl, heq⟩ | ⟨-, hj⟩
        · obtain ⟨rfl, hs⟩ := Prod.mk.inj heq
          exact absurd hk ((hd r' c' hs.symm hk').2.2 i m r c hp)
        · exact huniq j m' r' c' hj hk'

variable {l : List AlertSubmission} {as : List (ℕ × AwaitAnswer)}

theorem accounted_run (h : run (step p) (opened l) as = some s) : Accounted s :=
  run_invariant (fun _ _ _ hs ht => accounted_step hs ht) (accounted_opened l) h

theorem authorised_run {c : Text} {cap : ℤ} {m : ℕ} (h : run (step p) (opened l) as = some s)
    (hc : p.alertMonthlyCap c = some cap) (hl : cap ≠ -1)
    (hC : Meets (step p) (FewerAuthorised c m) (opened l) as) :
    s.accounts.counts c ≤ cap.toNat + (m - 1) := by
  have hr : UnderCap c (cap.toNat + (m - 1)) (opened l) := by
    refine ⟨accounted_opened l, ?_⟩
    rw [countP_eq_zero.mpr]
    · exact Nat.zero_le _
    intro j hj
    obtain ⟨n, -, rfl⟩ := mem_map.mp hj
    rcases n.start_cases with hs | hs <;> rw [hs]
    · simp
    · simp [authorisedOn]
  exact (Nat.le_add_right _ _).trans (run_invariant_of_meets
    (fun _ _ _ hs hC ht => underCap_step hc hl hs hC ht) hr hC h).2

theorem mandatory_step (h : Accounted s) {j : AlertSubmission × SubmissionStage}
    (hj : s.jobs[a.1]? = some j) (hm : j.1.mandatory = true) (hs : s.step p a = some t) :
    t.accounts = s.accounts ∧
      ∀ y, step p { s with accounts := y } a = some { t with accounts := y } := by
  obtain ⟨n, stage, b, stage', hg, hd, rfl⟩ := step_cases hs
  obtain rfl := Option.some.inj (hj.symm.trans hg)
  obtain ⟨rfl, ha⟩ := advance_mandatory hd (h.optional _ (mem_of_getElem? hj)) hm
  refine ⟨rfl, fun y => ?_⟩
  unfold step
  dsimp only
  rw [hg]
  dsimp only
  rw [ha y]
  rfl

/-- The count of a channel is the number of optional notices its provider accepted and whose writes
went through. It stays under the cap but for the notices let through side by side, mandatory
notices neither read nor write the accounts, and a tally is at most the number of notices withheld
for it, and that number where its recordings neither overlap nor fail. -/
theorem alerts_accounted (h : run (step p) (opened l) as = some s) : (∀ c, s.accounts.counts c =
      s.jobs.countP (fun j => acceptedBy c j && !unrecorded j.2)) ∧
    (∀ c cap m, p.alertMonthlyCap c = some cap → cap ≠ -1 →
      Meets (step p) (FewerAuthorised c m) (opened l) as →
      s.accounts.counts c ≤ cap.toNat + (m - 1)) ∧
    (∀ a t j, s.jobs[a.1]? = some j → j.1.mandatory = true → s.step p a = some t →
      t.accounts = s.accounts ∧
        ∀ y, step p { s with accounts := y } a = some { t with accounts := y }) ∧
    (∀ key, s.accounts.tallies key ≤ s.jobs.countP (withheldFor key)) ∧
    ∀ key, Meets (step p) (RecordsAlone key) (opened l) as →
      s.accounts.tallies key + s.jobs.countP (recordingFor key) =
        s.jobs.countP (withheldFor key) := by
  have hacc := accounted_run h
  refine ⟨hacc.counts, fun c cap m hcap hlim hC => authorised_run h hcap hlim hC,
    fun a t j hjob hman hstep => mandatory_step hacc hjob hman hstep, fun key => ?_,
    fun key hC => ?_⟩
  · refine (hacc.tallies key).trans (countP_mono_left fun j _ hj => ?_)
    exact (Bool.and_eq_true_iff.mp hj).1
  · exact (run_invariant_of_meets (fun _ _ _ hs hC hstep => talliedAlone_step hs hC hstep)
      (talliedAlone_opened l key) hC h).balance

/-! ### Two notices side by side -/

def benchPolicy : AlertPolicy := { alertSmsMonthlyCap := some 1 }

def benchSubmission : AlertSubmission where
  retry := false
  noticeKind := some noticeOptional
  channel := text "sms"
  actionTier := text "A"
  alertClass := none
  recipient := text "+1"
  senders := [text "sms"]
  tierA := by decide

def sent (i : ℕ) : List (ℕ × AwaitAnswer) :=
  [(i, .done), (i, .done), (i, .done), (i, .done), (i, .accepted), (i, .done), (i, .done)]

theorem alerts_accounted_one : ∃ s,
    run (step benchPolicy) (opened [benchSubmission]) (sent 0) = some s ∧
      s.accounts.counts (text "sms") = 1 := by
  obtain ⟨s, hs, hone⟩ : ∃ s, run (step benchPolicy) (opened [benchSubmission]) (sent 0) = some s ∧
    s.jobs.countP (recordedBy (text "sms")) = 1 := exists_of_check (by decide +kernel)
  exact ⟨s, hs, ((alerts_accounted hs).1 _).trans hone⟩

/-- Two optional notices ask for the last place under the cap before either is counted. -/
theorem alerts_beyond_cap : ¬ ∀ l as s, run (step benchPolicy) (opened l) as = some s →
    s.accounts.counts (text "sms") ≤ 1 := by
  intro hall
  obtain ⟨s, hs, htwo⟩ : ∃ s, run (step benchPolicy) (opened [benchSubmission, benchSubmission])
    ((sent 0).take 4 ++ (sent 1).take 4 ++ (sent 0).drop 4 ++ (sent 1).drop 4) = some s ∧
    s.accounts.counts (text "sms") = 2 := exists_of_check (by decide +kernel)
  have hle := hall _ _ s hs
  rw [htwo] at hle
  omega

end AlertDesk

end OriRuntime
