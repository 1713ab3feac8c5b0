import OriRuntime.GovernedWorkflow

/-!
# What a resumed coroutine can do

Every resumption of a coroutine is one of the cases of `Resumes`: what it awaits next, what it leaves
on record, and which task it starts beside itself. The later proofs read the workflow off these.
-/

namespace OriRuntime

open TierCStore (Op Answer)

/-- Where a workflow stands with its proposal. -/
inductive Phase where
  | unborn
  | listening
  | approved
  | closed
  | acting
  | aside
  deriving DecidableEq, Repr

/-- A landed transaction counts before its answer does. -/
def Job.phase (j : Job) : Phase :=
  match j.stage with
  | .creating _ _ => if j.landed = some (.created .committed) then .listening else .unborn
  | .listening => .listening
  | .admitting _ _ _ => if j.landed = some (.admitted .committed) then .approved else .listening
  | .admitted => .approved
  | .closing _ _ _ _ | .holding _ _ _ _ | .ensuring _ | .defaulting | .marking _ => .closed
  | .acting => .acting
  | .starting | .appending _ _ | .settling _ => .aside

/-- The moves that close a proposal without a dispatch. -/
def Move.closes : Move → Bool
  | .reject | .expire | .abortRestart | .expireApproval | .refuseContention => true
  | _ => false

/-- The moves that append what became of an act. -/
def Move.records : Move → Bool
  | .recordExecuted | .recordFailed | .recordUnknown => true
  | _ => false

/-- What a resumed coroutine does until its next await. -/
inductive Resumes (id : JobId) (held : Option DecisionState) (j : Job) :
    Option Job → List TierCEvent → Option Job → Bool → Prop
  | ends (hstage : ∀ reason, j.stage ≠ .ensuring reason) : Resumes id held j none [] none false
  | refused (row : ProposalFields) (n : ℕ) (hstage : j.stage = .creating row n) :
      Resumes id held j none [.unboundDefault] none false
  | renamed (row : ProposalFields) (n : ℕ) (hstage : j.stage = .creating row n)
      (hphase : j.phase = .unborn) (freshId : String) :
      Resumes id held j
        (some { j.goto (.creating row (n + 1)) with proposalId := freshId }) [] none false
  | listens (hphase : j.phase = .listening ∨ j.phase = .approved) (reason : String) :
      Resumes id held j (some { j.goto .listening with stateReason := reason }) [] none false
  | asks (hstage : j.stage = .listening) (binding authority : String) (ingress : Ingress) :
      Resumes id held j (some (j.goto (.admitting binding authority ingress))) [] none false
  | commits (binding authority : String) (ingress : Ingress)
      (hstage : j.stage = .admitting binding authority ingress)
      (hlanded : j.landed = some (.admitted .committed)) :
      Resumes id held j (some (j.goto .admitted))
        [.committed j.proposalId binding authority] none false
  | concludes (hphase : j.phase = .listening) (m : Move) (hm : m = .reject ∨ m = .expire)
      (reason intentReason : String) :
      Resumes id held j (some (j.close m reason intentReason)) [] none false
  | finds (hphase : j.phase = .listening) (reason : String) :
      Resumes id held j (some (j.goto (.ensuring reason))) [] none false
  | declines (hstage : j.stage = .admitted) (m : Move)
      (hm : m = .expireApproval ∨ m = .refuseContention) (reason intentReason : String) :
      Resumes id held j (some (j.close m reason intentReason)) [] none false
  | enters (hstage : j.stage = .admitted) :
      Resumes id held j (some (j.goto .acting)) [.entered j.proposalId]
        (some (j.background .starting)) false
  | reports (hstage : j.stage = .acting) (m : Move) (hm : m.records = true) (json : String)
      (spawned : Option Job) (hspawned : ∀ b, spawned = some b →
        b = j.background (.appending m json)) : Resumes id held j none [] spawned false
  | recloses (m : Move) (reason intentReason : String) (n n' : ℕ)
      (hstage : j.stage = .closing m reason intentReason n ∨
        j.stage = .holding m reason intentReason n) (stage : Stage)
      (hnext : stage = .closing m reason intentReason n' ∨ stage = .holding m reason intentReason n') :
      Resumes id held j (some (j.goto stage)) [] none false
  | ensures (m : Move) (reason intentReason : String) (n : ℕ)
      (hstage : j.stage = .closing m reason intentReason n ∨
        j.stage = .holding m reason intentReason n)
      (htaken : id.aborts = true → (j.stage = .closing m reason intentReason n ∧
        j.landed = some (.moved true)) ∨ held = some m.target) :
      Resumes id held j (some (j.goto (.ensuring intentReason))) [] none false
  | attempts (reason : String) (hstage : j.stage = .ensuring reason) :
      Resumes id held j (some (j.goto .defaulting)) [.safeDefault j.proposalId] none false
  | leaves (reason : String) (hstage : j.stage = .ensuring reason) (o : IntentOutcome)
      (ho : o ≠ .pending) (hlanded : j.landed = some (.intent o)) :
      Resumes id held j none [] none false
  | marks (hstage : j.stage = .defaulting) (o : IntentOutcome) :
      Resumes id held j (some (j.goto (.marking o))) [.reported j.proposalId] none false
  | retries (m : Move) (json : String) (hstage : j.stage = .appending m json) :
      Resumes id held j (some (j.goto (.appending m json))) [] none false
  | escapes (hstage : (∃ m, j.stage = .settling m) ∨ j.stage = .defaulting) :
      Resumes id held j none [] none true

namespace Job

variable {id : JobId} {ceiling : ℤ} {live : LiveOutcomes} {held : Option DecisionState} {j : Job}

theorem resumes_afterClose {m : Move} {reason intentReason : String} {n : ℕ} {taken : Bool}
    (hs : j.stage = .closing m reason intentReason n ∨ j.stage = .holding m reason intentReason n)
    (ht : taken = true → (j.stage = .closing m reason intentReason n ∧
      j.landed = some (.moved true)) ∨ held = some m.target) :
    Resumes id held j (j.afterClose id live intentReason taken).next
      (j.afterClose id live intentReason taken).events
      (j.afterClose id live intentReason taken).spawn
      (j.afterClose id live intentReason taken).escapes := by
  unfold afterClose
  split_ifs with hd
  · refine .ends ?_
    intro reason' heq
    obtain hs | hs := hs <;> simp [hs] at heq
  · refine .ensures m reason intentReason n hs ?_
    intro ha
    apply ht
    simpa [ha] using hd

theorem resumes_foundClosed (hp : j.phase = .listening) (state : Option DecisionState) :
    Resumes id held j (some (j.foundClosed state)) [] none false := by
  unfold foundClosed
  split
  · exact .concludes hp .reject (.inl rfl) _ _
  · exact .concludes hp .expire (.inr rfl) _ _
  all_goals exact .finds hp _

theorem resumes_answerReply {binding authority : String} {ingress : Ingress}
    (hs : j.stage = .admitting binding authority ingress) {a : ReplyAdmission}
    (hl : j.landed = some (.admitted a)) :
    Resumes id held j (j.answerReply live binding authority a).next
      (j.answerReply live binding authority a).events
      (j.answerReply live binding authority a).spawn
      (j.answerReply live binding authority a).escapes := by
  have hp : a ≠ .committed → j.phase = .listening := by
    intro ha
    simp [phase, hs, hl, ha]
  cases a with
  | committed => exact .commits binding authority ingress hs hl
  | duplicate => exact .listens (.inl (hp (by simp))) j.stateReason
  | bindingChanged | blocked => exact .finds (hp (by simp)) _
  | reservationUnavailable => exact .listens (.inl (hp (by simp))) _
  | tokenReplayed => exact .listens (.inl (hp (by simp))) j.stateReason
  | closed state => exact resumes_foundClosed (hp (by simp)) state

theorem resumes_answered {freshId : String} {a : Answer} {out : Handled}
    (hl : j.landed = some a) (h : j.answered id live freshId a = some out) :
    Resumes id held j out.next out.events out.spawn out.escapes := by
  unfold answered at h
  split at h
  · split at h
    · rename_i hs
      cases h
      exact .listens (.inl (by simp [phase, hs, hl])) j.stateReason
    · rename_i row n hs
      split_ifs at h
      · cases h
        exact .renamed row n hs (by simp [phase, hs, hl]) freshId
      · cases h
        exact .refused row n hs
    · rename_i row n hs
      cases h
      exact .refused row n hs
    · simp at h
  · split at h
    · rename_i hs
      cases h
      exact resumes_answerReply hs hl
    · simp at h
  · split at h
    · rename_i m r ir n hs
      split_ifs at h with hb
      · cases h
        refine resumes_afterClose (.inl hs) (fun _ => .inl ⟨hs, ?_⟩)
        rw [hl, hb]
      · cases h
        exact .recloses m r ir n n (.inl hs) _ (.inr rfl)
    · rename_i hs
      cases h
      exact .ends (by simp [hs])
    · rename_i hs
      cases h
      exact .ends (by simp [hs])
    · rename_i hs
      cases h
      exact .ends (by simp [hs])
    · simp at h
  · split at h
    · rename_i hs
      split_ifs at h with ho
      · cases h
        exact .attempts _ hs
      · cases h
        exact .leaves _ hs _ ho hl
    · simp at h
  · split at h
    · rename_i hs
      cases h
      exact .ends (by simp [hs])
    · simp at h

theorem resumes_raised {out : Handled} (h : j.raised id live = some out) :
    Resumes id held j out.next out.events out.spawn out.escapes := by
  unfold raised at h
  split at h
  · rename_i row n hs
    cases h
    exact .refused row n hs
  · rename_i hs
    cases h
    refine .listens ?_ _
    simp only [phase, hs]
    split_ifs <;> simp
  · rename_i m r ir n hs
    split_ifs at h
    · cases h
      exact resumes_afterClose (.inl hs) (by simp)
    · cases h
      exact .recloses m r ir n (n + 1) (.inl hs) _ (.inl rfl)
  · rename_i m r ir n hs
    split_ifs at h
    · cases h
      exact resumes_afterClose (.inr hs) (by simp)
    · cases h
      exact .recloses m r ir n (n + 1) (.inr hs) _ (.inl rfl)
  · rename_i hs
    cases h
    exact .attempts _ hs
  · rename_i hs
    cases h
    exact .ends (by simp [hs])
  · rename_i hs
    cases h
    exact .ends (by simp [hs])
  · rename_i m json hs
    cases h
    exact .retries m json hs
  · rename_i m hs
    cases h
    exact .escapes (.inl ⟨m, hs⟩)
  · rename_i hs
    cases h
    exact .escapes (.inr hs)
  all_goals simp at h

theorem resumes_dispatch (hs : j.stage = .admitted) (c : DispatchCheck) :
    Resumes id held j (j.dispatch live c).next (j.dispatch live c).events (j.dispatch live c).spawn
      (j.dispatch live c).escapes := by
  cases c with
  | expired => exact .declines hs .expireApproval (.inl rfl) _ _
  | refused => exact .declines hs .refuseContention (.inr rfl) _ _
  | clear => exact .enters hs

theorem resumes_recordOutcome (hs : j.stage = .acting) {m : Move} (hm : m.records = true)
    (json : String) : Resumes id held j (recordOutcome ceiling live j m json).next
      (recordOutcome ceiling live j m json).events (recordOutcome ceiling live j m json).spawn
      (recordOutcome ceiling live j m json).escapes := by
  unfold recordOutcome
  split_ifs
  · exact .reports hs m hm json none (by simp)
  refine .reports hs m hm json _ ?_
  rintro b ⟨⟩
  rfl

theorem handle_resumes {i : Input} {out : Handled} (h : j.handle id ceiling live held i = some out) :
    Resumes id held j out.next out.events out.spawn out.escapes := by
  unfold handle at h
  split at h
  · split_ifs at h with hl
    exact resumes_answered hl h
  · exact resumes_raised h
  · split at h
    · rename_i hs
      cases h
      exact resumes_afterClose (.inr hs) (fun ht => .inr (by simpa using ht))
    · simp at h
  · split at h
    · rename_i hs
      cases h
      exact .asks hs _ _ _
    · simp at h
  · split at h
    · rename_i hs
      have hp : j.phase = .listening := by simp [phase, hs]
      split_ifs at h
      · cases h
        exact .concludes hp .reject (.inl rfl) _ _
      · cases h
        exact .concludes hp .expire (.inr rfl) _ _
    · simp at h
  · split at h
    · rename_i hs
      cases h
      exact resumes_dispatch hs _
    · simp at h
  · split at h
    · rename_i r _ _ hs
      cases h
      exact resumes_recordOutcome hs (by cases r <;> rfl) _
    · simp at h
  · split at h
    · rename_i hs
      cases h
      exact .marks hs _
    · simp at h

end Job

end OriRuntime
