import OriRuntime.Execution
import OriRuntime.RegistryStart

/-!
# Attempts of one pair do not collide

The first attempt of a trip and the attempts of the retry loop share a pair's machine, its lease and
its entry among the unsettled intents. An attempt is ahead of its record until it has issued the
record write. While at most one attempt per pair is ahead, the lease is free whenever one begins, and
the pair's only running intent append is the one it awaits.
-/

namespace OriRuntime

open List Option

/-- The intent append an attempt still refers to: it is ahead of its record write. -/
def AttemptStage.task? : AttemptStage → Option ℕ
  | .awaitingIntent k | .commanding k | .awaitingOrder k => some k
  | _ => none

namespace Registry

/-- No attempt of the pair is ahead of its record write. -/
def NoneAhead (s : Registry) (p : Pair) : Prop :=
  ∀ o a, s.attempts o = some a → a.pair = p → a.stage.task? = none

def NoneRunning (s : Registry) (p : Pair) : Prop :=
  ∀ k t, s.tasks k = some t → t.pair = p → t.done = true

/-- What holds of every pair while its attempts do not overlap ahead of their records. -/
structure Orderly (s : Registry) : Prop where
  seated : ∀ o a, s.attempts o = some a → s.assembly.active.get? a.pair = some a.entry ∧
    ∃ m, s.machines.get? a.pair = some m ∧ m.state = .tripped
  status : ∀ p m, s.machines.get? p = some m → m.state = .tripped → m.commandStatus ≠ .none
  single : ∀ o o' a a', s.attempts o = some a → s.attempts o' = some a' → a.pair = a'.pair →
    a.stage.task? ≠ none → a'.stage.task? ≠ none → o = o'
  leased : ∀ p m, s.machines.get? p = some m → m.driverAttemptInFlight = true →
    ∃ o a k, s.attempts o = some a ∧ a.pair = p ∧ a.stage = .commanding k
  holds : ∀ o a k m, s.attempts o = some a → a.stage = .commanding k →
    s.machines.get? a.pair = some m → m.driverAttemptInFlight = true ∧ m.commandOpen
  waits : ∀ o a k m, s.attempts o = some a → a.stage = .awaitingIntent k →
    s.machines.get? a.pair = some m → m.commandOpen
  tasked : ∀ k t, s.tasks k = some t → k < s.taskCount ∧
    ∃ m, s.machines.get? t.pair = some m ∧ m.state = .tripped
  running : ∀ k t, s.tasks k = some t → t.done = false → s.unsettledIntents.get? t.pair = some k
  own : ∀ o a k, s.attempts o = some a → a.stage.task? = some k →
    ∀ k' t, s.tasks k' = some t → t.pair = a.pair → t.done = false → k' = k

/-- The record of a run in which nothing collided. -/
def Clean (trace : List RegistryEvent) : Prop :=
  (∀ o e, .escaped o e ∉ trace) ∧ ∀ p, .recordIssued p true ∉ trace

theorem Clean.cons {trace : List RegistryEvent} {e : RegistryEvent} (h : Clean trace)
    (he : ∀ o err, e ≠ .escaped o err) (hr : ∀ p, e ≠ .recordIssued p true) :
    Clean (e :: trace) := by
  refine ⟨fun o err hm => ?_, fun p hm => ?_⟩
  · obtain heq | hm := mem_cons.mp hm
    · exact he o err heq.symm
    · exact h.1 o err hm
  · obtain heq | hm := mem_cons.mp hm
    · exact hr p heq.symm
    · exact h.2 p hm

/-! ### Steps that leave the attempts' view alone -/

variable {s s' : Registry} {m m' : ZoneTripState} {p pair : Pair} {k : ℕ} {a : Attempt} {o : Owner}
  {attemptId : String} {e : ActivePair} {now : ℤ} {rest : List Pair}

theorem Orderly.congr (hs : Orderly s) (has : s'.assembly = s.assembly)
    (hmac : s'.machines = s.machines) (ha : s'.attempts = s.attempts)
    (ht : s'.tasks = s.tasks) (hc : s'.taskCount = s.taskCount)
    (hu : s'.unsettledIntents = s.unsettledIntents) : Orderly s' := by
  constructor
  · rw [ha, has, hmac]
    exact hs.seated
  · rw [hmac]
    exact hs.status
  · rw [ha]
    exact hs.single
  · rw [ha, hmac]
    exact hs.leased
  · rw [ha, hmac]
    exact hs.holds
  · rw [ha, hmac]
    exact hs.waits
  · rw [ht, hc, hmac]
    exact hs.tasked
  · rw [ht, hu]
    exact hs.running
  · rw [ha, ht]
    exact hs.own

/-- The parts of a machine an attempt looks at are the same. -/
structure SameCommand (m m' : ZoneTripState) : Prop where
  state : m'.state = m.state
  commandStatus : m'.commandStatus = m.commandStatus
  lease : m'.driverAttemptInFlight = m.driverAttemptInFlight

theorem SameCommand.commandOpen (h : SameCommand m m') : m'.commandOpen ↔ m.commandOpen := by
  simp only [ZoneTripState.commandOpen, h.state, h.commandStatus]

theorem get?_setMachine (s : Registry) (p q : Pair) (m : ZoneTripState) :
    (s.setMachine p m).machines.get? q = if q = p then some m else s.machines.get? q :=
  Dict.get?_set s.machines p q m

theorem attempts_setAttempt (s : Registry) (o o' : Owner) (x : Option Attempt) :
    (s.setAttempt o x).attempts o' = if o' = o then x else s.attempts o' := by
  simp [setAttempt, Function.update_apply]

theorem Orderly.sameMachine (hs : Orderly s) (hm : s.machines.get? p = some m)
    (hsm : SameCommand m m') : Orderly (s.setMachine p m') := by
  have hback : ∀ q mq, (s.setMachine p m').machines.get? q = some mq →
      ∃ mo, s.machines.get? q = some mo ∧ SameCommand mo mq := by
    intro q mq hq
    rw [get?_setMachine] at hq
    split_ifs at hq with heq
    · cases hq
      exact ⟨m, heq ▸ hm, hsm⟩
    · exact ⟨mq, hq, rfl, rfl, rfl⟩
  have hf : ∀ q, (∃ mo, s.machines.get? q = some mo ∧ mo.state = .tripped) →
      ∃ mq, (s.setMachine p m').machines.get? q = some mq ∧ mq.state = .tripped := by
    rintro q ⟨mo, ho, hr⟩
    rw [get?_setMachine]
    split_ifs with heq
    · subst heq
      obtain rfl := mem_unique hm ho
      exact ⟨m', rfl, hsm.state.trans hr⟩
    · exact ⟨mo, ho, hr⟩
  constructor
  · intro o a ha
    obtain ⟨hac, hmac⟩ := hs.seated o a ha
    exact ⟨hac, hf a.pair hmac⟩
  · intro q mq hq hr
    obtain ⟨mo, ho, hs'⟩ := hback q mq hq
    rw [hs'.commandStatus]
    exact hs.status q mo ho (hs'.state ▸ hr)
  · exact hs.single
  · intro q mq hq hl
    obtain ⟨mo, ho, hs'⟩ := hback q mq hq
    exact hs.leased q mo ho (hs'.lease ▸ hl)
  · intro o a k mq ha hg hq
    obtain ⟨mo, ho, hs'⟩ := hback a.pair mq hq
    obtain ⟨hl, hp⟩ := hs.holds o a k mo ha hg ho
    exact ⟨hs'.lease.trans hl, hs'.commandOpen.mpr hp⟩
  · intro o a k mq ha hg hq
    obtain ⟨mo, ho, hs'⟩ := hback a.pair mq hq
    exact hs'.commandOpen.mpr (hs.waits o a k mo ha hg ho)
  · intro k t ht
    obtain ⟨hc, hmac⟩ := hs.tasked k t ht
    exact ⟨hc, hf t.pair hmac⟩
  · exact hs.running
  · exact hs.own

theorem Orderly.setTask (hs : Orderly s) {t t' : IntentTask} (ht : s.tasks k = some t)
    (hr : t'.pair = t.pair) (hn : t'.done = false → t.done = false) :
    Orderly (s.setTask k t') := by
  have hback : ∀ k' u, (s.setTask k t').tasks k' = some u →
      ∃ u₀, s.tasks k' = some u₀ ∧ u.pair = u₀.pair ∧ (u.done = false → u₀.done = false) := by
    intro k' u hu
    simp only [Registry.setTask, Function.update_apply] at hu
    split_ifs at hu with heq
    · cases hu
      exact ⟨t, heq ▸ ht, hr, hn⟩
    · exact ⟨u, hu, rfl, id⟩
  constructor
  · exact hs.seated
  · exact hs.status
  · exact hs.single
  · exact hs.leased
  · exact hs.holds
  · exact hs.waits
  · intro k' u hu
    obtain ⟨u₀, hu₀, hp, -⟩ := hback k' u hu
    rw [hp]
    exact hs.tasked k' u₀ hu₀
  · intro k' u hu hd
    obtain ⟨u₀, hu₀, hp, hd₀⟩ := hback k' u hu
    rw [hp]
    exact hs.running k' u₀ hu₀ (hd₀ hd)
  · intro o a k₁ ha hg k' u hu hup hd
    obtain ⟨u₀, hu₀, hp, hd₀⟩ := hback k' u hu
    exact hs.own o a k₁ ha hg k' u₀ hu₀ (hp ▸ hup) (hd₀ hd)

theorem Orderly.popUnsettled (hs : Orderly s) (ho : NoneRunning s p) :
    Orderly { s with unsettledIntents := s.unsettledIntents.pop p } := by
  refine { hs with running := ?_ }
  intro k t ht hd
  have hn : t.pair ≠ p := by
    intro heq
    simp [ho k t ht heq] at hd
  rw [Dict.get?_pop_of_ne _ hn]
  exact hs.running k t ht hd

/-! ### The moves of an attempt -/

theorem Orderly.pass (hs : Orderly s) {x : Option Attempt} (ha : s.attempts o = some a)
    (hg : ∀ k, a.stage ≠ .commanding k)
    (hx : ∀ b, x = some b → b.pair = a.pair ∧ b.entry = a.entry ∧ b.stage.task? = none) :
    Orderly (s.setAttempt o x) := by
  have hback : ∀ o' b, (s.setAttempt o x).attempts o' = some b → (o' ≠ o ∧ s.attempts o' = some b) ∨
        (o' = o ∧ b.pair = a.pair ∧ b.entry = a.entry ∧ b.stage.task? = none) := by
    intro o' b hb
    rw [attempts_setAttempt] at hb
    split_ifs at hb with heq
    · exact .inr ⟨heq, hx b hb⟩
    · exact .inl ⟨heq, hb⟩
  have hh : ∀ o' b, (s.setAttempt o x).attempts o' = some b → b.stage.task? ≠ none →
      s.attempts o' = some b := by
    intro o' b hb ht
    obtain ⟨-, hold⟩ | ⟨-, -, -, hn⟩ := hback o' b hb
    · exact hold
    · exact absurd hn ht
  constructor
  · intro o' b hb
    obtain ⟨-, hold⟩ | ⟨-, hp, he, -⟩ := hback o' b hb
    · exact hs.seated o' b hold
    · rw [hp, he]
      exact hs.seated o a ha
  · exact hs.status
  · intro o₁ o₂ a₁ a₂ h₁ h₂ hp ht₁ ht₂
    exact hs.single o₁ o₂ a₁ a₂ (hh o₁ a₁ h₁ ht₁) (hh o₂ a₂ h₂ ht₂) hp ht₁ ht₂
  · intro p m hm hl
    obtain ⟨o', b, k, hb, hp, hc⟩ := hs.leased p m hm hl
    refine ⟨o', b, k, ?_, hp, hc⟩
    rw [attempts_setAttempt, if_neg]
    · exact hb
    rintro rfl
    obtain rfl := mem_unique ha hb
    exact hg k hc
  · intro o' b k m hb hc hm
    exact hs.holds o' b k m (hh o' b hb (by simp [hc, AttemptStage.task?])) hc hm
  · intro o' b k m hb hwait hm
    exact hs.waits o' b k m (hh o' b hb (by simp [hwait, AttemptStage.task?])) hwait hm
  · exact hs.tasked
  · exact hs.running
  · intro o' b k hb ht
    exact hs.own o' b k (hh o' b hb (by simp [ht])) ht

theorem Orderly.move (hs : Orderly s) {b : Attempt} {n : ZoneTripState} (ha : s.attempts o = some a)
    (hk : a.stage.task? = some k) (hr : b.pair = a.pair) (he : b.entry = a.entry)
    (hb : b.stage.task? = some k) (htr : n.state = .tripped)
    (hst : n.commandStatus ≠ .none)
    (hle : n.driverAttemptInFlight = true ↔ b.stage = .commanding k)
    (hop : b.stage ≠ .awaitingOrder k → n.commandOpen) :
    Orderly ((s.setMachine a.pair n).setAttempt o (some b)) := by
  have hmac : ∀ q, ((s.setMachine a.pair n).setAttempt o (some b)).machines.get? q =
      if q = a.pair then some n else s.machines.get? q := fun q => get?_setMachine s a.pair q n
  have hat : ∀ o', ((s.setMachine a.pair n).setAttempt o (some b)).attempts o' =
      if o' = o then some b else s.attempts o' := fun o' => attempts_setAttempt _ o o' _
  have ho : ∀ o' c, s.attempts o' = some c → c.stage.task? ≠ none → c.pair = a.pair → o' = o :=
    fun o' c hc ht hp => hs.single o' o c a hc ha hp ht (by simp [hk])
  have hseat : ∀ q, (∃ mq, s.machines.get? q = some mq ∧ mq.state = .tripped) →
      ∃ mq, ((s.setMachine a.pair n).setAttempt o (some b)).machines.get? q = some mq ∧
        mq.state = .tripped := by
    rintro q ⟨mq, hmq, hq⟩
    rw [hmac]
    split_ifs with heq
    · exact ⟨n, rfl, htr⟩
    · exact ⟨mq, hmq, hq⟩
  constructor
  · intro o' c hc
    rw [hat] at hc
    split_ifs at hc with heq
    · cases hc
      rw [hr, he]
      exact ⟨(hs.seated o a ha).1, hseat a.pair (hs.seated o a ha).2⟩
    · exact ⟨(hs.seated o' c hc).1, hseat c.pair (hs.seated o' c hc).2⟩
  · intro p mp hp hmp
    rw [hmac] at hp
    split_ifs at hp with heq
    · cases hp
      exact hst
    · exact hs.status p mp hp hmp
  · intro o₁ o₂ a₁ a₂ h₁ h₂ hp ht₁ ht₂
    rw [hat] at h₁ h₂
    split_ifs at h₁ h₂ with e₁ e₂ e₂
    · rw [e₁, e₂]
    · cases h₁
      exact e₁.trans (ho o₂ a₂ h₂ ht₂ (hp.symm.trans hr)).symm
    · cases h₂
      exact (ho o₁ a₁ h₁ ht₁ (hp.trans hr)).trans e₂.symm
    · exact hs.single o₁ o₂ a₁ a₂ h₁ h₂ hp ht₁ ht₂
  · intro p mp hp hl
    rw [hmac] at hp
    split_ifs at hp with heq
    · cases hp
      exact ⟨o, b, k, by rw [hat, if_pos rfl], hr.trans heq.symm, hle.mp hl⟩
    · obtain ⟨o', c, k', hc, hcp, hm⟩ := hs.leased p mp hp hl
      refine ⟨o', c, k', ?_, hcp, hm⟩
      rw [hat, if_neg]
      · exact hc
      rintro rfl
      obtain rfl := mem_unique ha hc
      exact heq hcp.symm
  · intro o' c k' mp hc hm hp
    rw [hat] at hc
    split_ifs at hc with heq
    · cases hc
      rw [hmac, if_pos hr] at hp
      cases hp
      obtain rfl : k' = k := by simpa [hm, AttemptStage.task?] using hb
      exact ⟨hle.mpr hm, hop (by simp [hm])⟩
    · have hn : c.pair ≠ a.pair := fun hcp =>
        heq (ho o' c hc (by simp [hm, AttemptStage.task?]) hcp)
      rw [hmac, if_neg hn] at hp
      exact hs.holds o' c k' mp hc hm hp
  · intro o' c k' mp hc hwait hp
    rw [hat] at hc
    split_ifs at hc with heq
    · cases hc
      rw [hmac, if_pos hr] at hp
      cases hp
      exact hop (by simp [hwait])
    · have hn : c.pair ≠ a.pair := fun hcp =>
        heq (ho o' c hc (by simp [hwait, AttemptStage.task?]) hcp)
      rw [hmac, if_neg hn] at hp
      exact hs.waits o' c k' mp hc hwait hp
  · intro k' t ht
    exact ⟨(hs.tasked k' t ht).1, hseat t.pair (hs.tasked k' t ht).2⟩
  · exact hs.running
  · intro o' c k' hc ht
    rw [hat] at hc
    split_ifs at hc with heq
    · cases hc
      obtain rfl : k = k' := mem_unique hb ht
      rw [hr]
      exact hs.own o a k ha hk
    · exact hs.own o' c k' hc ht

theorem Orderly.starts (hs : Orderly s) (hf : s.attempts o = none)
    (hac : s.assembly.active.get? p = some e) (hm : s.machines.get? p = some m)
    (ho : m.commandOpen) (hh : NoneAhead s p) (hr : NoneRunning s p) :
    Orderly (s.startAttempt o p e attemptId now) := by
  have ha : ∀ o', (s.startAttempt o p e attemptId now).attempts o' = if o' = o then
      some { pair := p, entry := e, stage := .awaitingIntent s.taskCount } else s.attempts o' := by
    simp [startAttempt, Function.update_apply]
  have htk : ∀ k t, (s.startAttempt o p e attemptId now).tasks k = some t →
      (k = s.taskCount ∧ t.pair = p) ∨ (k ≠ s.taskCount ∧ s.tasks k = some t) := by
    intro k t ht
    simp only [startAttempt, Function.update_apply] at ht
    split_ifs at ht with heq
    · cases ht
      exact .inl ⟨heq, rfl⟩
    · exact .inr ⟨heq, ht⟩
  have hold : ∀ o' c, (s.startAttempt o p e attemptId now).attempts o' = some c → o' ≠ o →
      s.attempts o' = some c := by
    intro o' c hc hn
    rw [ha, if_neg hn] at hc
    exact hc
  have hap : ∀ o' c, s.attempts o' = some c → c.stage.task? ≠ none → c.pair ≠ p :=
    fun o' c hc ht hcp => ht (hh o' c hc hcp)
  constructor
  · intro o' c hc
    rw [ha] at hc
    split_ifs at hc with heq
    · cases hc
      exact ⟨hac, m, hm, ho.1⟩
    · exact hs.seated o' c hc
  · exact hs.status
  · intro o₁ o₂ a₁ a₂ h₁ h₂ hp ht₁ ht₂
    by_cases e₁ : o₁ = o
    · by_cases e₂ : o₂ = o
      · rw [e₁, e₂]
      · rw [ha, if_pos e₁] at h₁
        cases h₁
        exact absurd hp.symm (hap o₂ a₂ (hold o₂ a₂ h₂ e₂) ht₂)
    · by_cases e₂ : o₂ = o
      · rw [ha, if_pos e₂] at h₂
        cases h₂
        exact absurd hp (hap o₁ a₁ (hold o₁ a₁ h₁ e₁) ht₁)
      · exact hs.single o₁ o₂ a₁ a₂ (hold o₁ a₁ h₁ e₁) (hold o₂ a₂ h₂ e₂) hp ht₁ ht₂
  · intro q mq hq hl
    obtain ⟨o', c, k, hc, hcp, hcm⟩ := hs.leased q mq hq hl
    refine ⟨o', c, k, ?_, hcp, hcm⟩
    rw [ha, if_neg]
    · exact hc
    · rintro rfl
      simp [hf] at hc
  · intro o' c k mq hc hcm hq
    by_cases heq : o' = o
    · rw [ha, if_pos heq] at hc
      cases hc
      simp at hcm
    · exact hs.holds o' c k mq (hold o' c hc heq) hcm hq
  · intro o' c k mq hc hwait hq
    by_cases heq : o' = o
    · rw [ha, if_pos heq] at hc
      cases hc
      obtain rfl := mem_unique hm hq
      exact ho
    · exact hs.waits o' c k mq (hold o' c hc heq) hwait hq
  · intro k t ht
    obtain ⟨rfl, hp⟩ | ⟨-, ht⟩ := htk k t ht
    · exact ⟨Nat.lt_succ_self _, m, hp ▸ hm, ho.1⟩
    · exact ⟨Nat.lt_succ_of_lt (hs.tasked k t ht).1, (hs.tasked k t ht).2⟩
  · intro k t ht hd
    change (s.unsettledIntents.set p s.taskCount).get? t.pair = some k
    rw [Dict.get?_set]
    obtain ⟨rfl, hp⟩ | ⟨-, ht⟩ := htk k t ht
    · rw [if_pos hp]
    · rw [if_neg]
      · exact hs.running k t ht hd
      · intro hp
        simp [hr k t ht hp] at hd
  · intro o' c k hc hk k' t ht hp hd
    by_cases heq : o' = o
    · rw [ha, if_pos heq] at hc
      cases hc
      obtain rfl : s.taskCount = k := by simpa [AttemptStage.task?] using hk
      obtain ⟨rfl, -⟩ | ⟨-, ht⟩ := htk k' t ht
      · rfl
      · simp [hr k' t ht hp] at hd
    · have hc' := hold o' c hc heq
      obtain ⟨rfl, htp⟩ | ⟨-, ht⟩ := htk k' t ht
      · exact absurd (hp.symm.trans htp) (hap o' c hc' (by simp [hk]))
      · exact hs.own o' c k hc' hk k' t ht hp hd

/-! ### The operations keep the order -/

/-- The invariant of the runs below. -/
def InOrder (s : Registry) : Prop := Orderly s ∧ Clean s.trace

theorem InOrder.congr (hs : InOrder s) (has : s'.assembly = s.assembly)
    (hmac : s'.machines = s.machines) (ha : s'.attempts = s.attempts)
    (ht : s'.tasks = s.tasks) (hc : s'.taskCount = s.taskCount)
    (hu : s'.unsettledIntents = s.unsettledIntents) (hr : s'.trace = s.trace) :
    InOrder s' :=
  ⟨hs.1.congr has hmac ha ht hc hu, hr ▸ hs.2⟩

theorem Orderly.noneRunning (hs : Orderly s) (ha : s.attempts o = some a)
    (hk : a.stage.task? = some k) (hn : s.taskDone k = true) : NoneRunning s a.pair := by
  intro k' t ht hp
  by_contra hd
  have hd' : t.done = false := by simpa using hd
  obtain rfl := hs.own o a k ha hk k' t ht hp hd'
  simp [taskDone, ht, hd'] at hn

theorem intentRunning_of_noneRunning (h : NoneRunning s p) : s.intentRunning p = false := by
  simp only [intentRunning, List.any_eq_false]
  intro k _ ha
  cases ht : s.tasks k with
  | none => simp [ht] at ha
  | some t =>
    simp only [ht, Option.any_some, Bool.and_eq_true, decide_eq_true_eq] at ha
    simp [h k t ht ha.1] at ha

theorem InOrder.issueRecord (hs : InOrder s) (ha : s.attempts o = some a)
    (hg : a.stage = .awaitingOrder k) (hd : s.taskDone k = true) (m : ZoneTripState)
    (now : ℤ) : InOrder (s.issueRecord o a m now) := by
  have hn := hs.1.noneRunning ha (k := k) (by simp [hg, AttemptStage.task?]) hd
  have hp := hs.1.popUnsettled hn
  have hpass := hp.pass (x := some { a with stage := .recording m.commandStatus now false }) ha
    (by simp [hg]) (by rintro b ⟨⟩; exact ⟨rfl, rfl, rfl⟩)
  refine ⟨hpass.congr rfl rfl rfl rfl rfl rfl, ?_⟩
  refine hs.2.cons (by simp) ?_
  simp [intentRunning_of_noneRunning hn]

theorem endAttempt_view (s : Registry) (o : Owner) (a : Attempt) :
    (s.endAttempt o a).assembly = s.assembly ∧ (s.endAttempt o a).machines = s.machines ∧
      (s.endAttempt o a).attempts = (s.setAttempt o none).attempts ∧
      (s.endAttempt o a).tasks = s.tasks ∧ (s.endAttempt o a).taskCount = s.taskCount ∧
      (s.endAttempt o a).unsettledIntents = s.unsettledIntents ∧
      (s.endAttempt o a).trace = s.trace ∧ (s.endAttempt o a).journal = s.journal ∧
      (s.endAttempt o a).gates = s.gates ∧ (s.endAttempt o a).retry = s.retry := by
  cases o with
  | retryLoop => exact ⟨rfl, rfl, rfl, rfl, rfl, rfl, rfl, rfl, rfl, rfl⟩
  | reading i =>
    simp only [endAttempt]
    split <;> exact ⟨rfl, rfl, rfl, rfl, rfl, rfl, rfl, rfl, rfl, rfl⟩

theorem InOrder.endAttempt (hs : InOrder s) (ha : s.attempts o = some a)
    (hg : ∀ k, a.stage ≠ .commanding k) : InOrder (s.endAttempt o a) := by
  obtain ⟨h₁, h₂, h₃, h₄, h₅, h₆, h₇, -⟩ := endAttempt_view s o a
  have hpass := hs.1.pass (x := none) ha hg (fun b hb => by cases hb)
  exact ⟨hpass.congr h₁ h₂ h₃ h₄ h₅ h₆, h₇ ▸ hs.2⟩

theorem InOrder.failRecord (hs : InOrder s) (ha : s.attempts o = some a)
    (hg : ∀ k, a.stage ≠ .commanding k) (hm : s.machines.get? a.pair = some m) :
    InOrder (s.failRecord o a m) := by
  have hsm : InOrder (s.setMachine a.pair m.recordWriteFailed) :=
    ⟨hs.1.sameMachine hm ⟨rfl, rfl, rfl⟩, hs.2⟩
  exact hsm.endAttempt ha hg

theorem InOrder.persistRecord
    (hs : InOrder (s.setAttempt o (some { a with stage := .awaitingOrder k }))) (now : ℤ) :
    InOrder (s.persistRecord o a m k now) := by
  unfold Registry.persistRecord
  split_ifs with hd
  · have hi := hs.issueRecord (a := { a with stage := .awaitingOrder k })
      (by rw [attempts_setAttempt, if_pos rfl]) rfl hd m now
    have hm : (s.setAttempt o (some { a with stage := .awaitingOrder k })).issueRecord o
        { a with stage := .awaitingOrder k } m now = s.issueRecord o a m now := by
      simp only [Registry.issueRecord, setAttempt, Function.update_idem]
      rfl
    exact hm ▸ hi
  · exact hs

theorem InOrder.driverAnswered (hs : InOrder s) (ha : s.attempts o = some a)
    (hg : a.stage = .commanding k) (hm : s.machines.get? a.pair = some m) (result : Option Bool)
    (now : ℤ) : InOrder (s.driverAnswered o a m k result now) := by
  obtain ⟨hh, ho⟩ := hs.1.holds o a k m ha hg hm
  have hk : a.stage.task? = some k := by simp [hg, AttemptStage.task?]
  have hmo : ∀ m', m'.state = .tripped → m'.commandStatus ≠ .none →
      m'.driverAttemptInFlight = false →
      InOrder ((s.setMachine a.pair m').persistRecord o { a with accepted := result } m' k now) := by
    intro m' ht hst hf
    refine InOrder.persistRecord (s := s.setMachine a.pair m') (a := { a with accepted := result })
      ⟨?_, hs.2⟩ now
    exact hs.1.move (b := { a with accepted := result, stage := .awaitingOrder k }) ha hk rfl rfl
      rfl ht hst (by simp [hf]) (by simp)
  cases result with
  | none =>
    simp only [Registry.driverAnswered, ZoneTripState.releaseDriverAttempt, hh]
    exact hmo _ ho.1 (hs.1.status a.pair m hm ho.1) rfl
  | some accepted =>
    simp only [Registry.driverAnswered, ZoneTripState.recordDriverResult, if_pos ho, hh, if_true]
    refine hmo _ ho.1 ?_ rfl
    cases accepted <;> simp

theorem Assembly.permits_own {a : Assembly} (h : a.active.get? p = some e) :
    a.permits p e.outcome e.bindingSeq e.actuatorIdentity = true := by
  simp [Assembly.permits, h]

theorem InOrder.signal (hs : InOrder s) {sig : Signal} (ha : s.attempts o = some a)
    (hm : s.machines.get? a.pair = some m) (h : s.signal o a m sig = some s') : InOrder s' := by
  have hpast : ∀ x : Option Attempt, (∀ k, a.stage ≠ .commanding k) →
      (∀ b, x = some b → b.pair = a.pair ∧ b.entry = a.entry ∧ b.stage.task? = none) →
      InOrder (s.setAttempt o x) := fun x hg hx => ⟨hs.1.pass ha hg hx, hs.2⟩
  cases sig with
  | resumed now =>
    cases hg : a.stage with
    | awaitingIntent k =>
      have hop := hs.1.waits o a k m ha hg hm
      have hf : m.driverAttemptInFlight = false := by
        by_contra hh
        obtain ⟨o', b, k', hb, hp, hc⟩ := hs.1.leased a.pair m hm (by simpa using hh)
        have ho := hs.1.single o' o b a hb ha hp (by simp [hc, AttemptStage.task?])
          (by simp [hg, AttemptStage.task?])
        subst ho
        obtain rfl := mem_unique ha hb
        simp [hg] at hc
      have he := Assembly.permits_own (hs.1.seated o a ha).1
      simp only [Registry.signal, hg, ZoneTripState.beginDriverAttempt, if_pos hop, hf,
        Bool.false_eq_true, if_false, he, if_true, some.injEq] at h
      subst h
      refine ⟨?_, hs.2.cons (by simp) (by simp)⟩
      have hmo := hs.1.move (b := { a with stage := .commanding k })
        (n := { m with driverAttemptInFlight := true }) ha
        (by simp [hg, AttemptStage.task?]) rfl rfl rfl hop.1
        (hs.1.status a.pair m hm hop.1) (by simp) (fun _ => hop)
      exact hmo.congr rfl rfl rfl rfl rfl rfl
    | awaitingOrder k =>
      simp only [Registry.signal, hg] at h
      split_ifs at h with hd
      · cases h
        exact hs.issueRecord ha hg hd m now
      · cases h
        exact hs.failRecord ha (by simp [hg]) hm
    | commanding k | recording status t w | resolving w => simp [Registry.signal, hg] at h
  | driver result now =>
    cases hg : a.stage with
    | commanding k =>
      simp only [Registry.signal, hg, some.injEq] at h
      subst h
      exact hs.driverAnswered ha hg hm result now
    | awaitingIntent k | awaitingOrder k | recording status t w | resolving w =>
      simp [Registry.signal, hg] at h
  | landed =>
    cases hg : a.stage with
    | recording status t w =>
      cases w with
      | true => simp [Registry.signal, hg] at h
      | false =>
        simp only [Registry.signal, hg] at h
        split at h
        · simp at h
        cases h
        refine (hpast (some { a with stage := .recording status t true }) (by simp [hg])
          ?_).congr rfl rfl rfl rfl rfl rfl rfl
        rintro b ⟨⟩
        exact ⟨rfl, rfl, rfl⟩
    | resolving w =>
      cases w with
      | true => simp [Registry.signal, hg] at h
      | false =>
        simp only [Registry.signal, hg, some.injEq] at h
        subst h
        refine (hpast (some { a with stage := .resolving true }) (by simp [hg])
          ?_).congr rfl rfl rfl rfl rfl rfl rfl
        rintro b ⟨⟩
        exact ⟨rfl, rfl, rfl⟩
    | awaitingIntent k | commanding k | awaitingOrder k => simp [Registry.signal, hg] at h
  | answered ok =>
    cases ok with
    | true =>
      cases hg : a.stage with
      | recording status t w =>
        cases w with
        | false => simp [Registry.signal, hg] at h
        | true =>
          simp only [Registry.signal, hg, some.injEq] at h
          subst h
          refine hpast _ (by simp [hg]) ?_
          rintro b ⟨⟩
          exact ⟨rfl, rfl, rfl⟩
      | resolving w =>
        cases w with
        | false => simp [Registry.signal, hg] at h
        | true =>
          simp only [Registry.signal, hg, some.injEq] at h
          subst h
          exact hs.endAttempt ha (by simp [hg])
      | awaitingIntent k | commanding k | awaitingOrder k => simp [Registry.signal, hg] at h
    | false =>
      cases hg : a.stage with
      | recording status t w | resolving w =>
        simp only [Registry.signal, hg, some.injEq] at h
        subst h
        exact hs.failRecord ha (by simp [hg]) hm
      | awaitingIntent k | commanding k | awaitingOrder k => simp [Registry.signal, hg] at h

theorem Orderly.untouched (hs : Orderly s) (hm : s.machines.get? p = some m)
    (hst : m.state ≠ .tripped) :
    (∀ o a, s.attempts o = some a → a.pair ≠ p) ∧ ∀ k t, s.tasks k = some t → t.pair ≠ p := by
  refine ⟨fun o a ha hp => ?_, fun k t ht hp => ?_⟩
  · obtain ⟨-, m', hm', hr⟩ := hs.seated o a ha
    obtain rfl := mem_unique hm (hp ▸ hm')
    exact hst hr
  · obtain ⟨-, m', hm', hr⟩ := hs.tasked k t ht
    obtain rfl := mem_unique hm (hp ▸ hm')
    exact hst hr

theorem Orderly.latch (hs : Orderly s) (hm : s.machines.get? p = some m)
    (hst : m.state ≠ .tripped) (hss : m'.commandStatus ≠ .none)
    (he : m'.driverAttemptInFlight = m.driverAttemptInFlight) :
    Orderly (s.setMachine p m') := by
  obtain ⟨hat, hta⟩ := hs.untouched hm hst
  have hkeep : ∀ q, q ≠ p → (s.setMachine p m').machines.get? q = s.machines.get? q := by
    intro q hq
    rw [get?_setMachine, if_neg hq]
  constructor
  · intro o a ha
    rw [hkeep a.pair (hat o a ha)]
    exact hs.seated o a ha
  · intro q mq hq hr
    rw [get?_setMachine] at hq
    split_ifs at hq
    · cases hq
      exact hss
    · exact hs.status q mq hq hr
  · exact hs.single
  · intro q mq hq hl
    rw [get?_setMachine] at hq
    split_ifs at hq with heq
    · cases hq
      obtain ⟨o, a, k, ha, hp, -⟩ := hs.leased p m hm (he ▸ hl)
      exact absurd hp (hat o a ha)
    · exact hs.leased q mq hq hl
  · intro o a k mq ha hc hq
    rw [hkeep a.pair (hat o a ha)] at hq
    exact hs.holds o a k mq ha hc hq
  · intro o a k mq ha hwait hq
    rw [hkeep a.pair (hat o a ha)] at hq
    exact hs.waits o a k mq ha hwait hq
  · intro k t ht
    rw [hkeep t.pair (hta k t ht)]
    exact hs.tasked k t ht
  · exact hs.running
  · exact hs.own

theorem InOrder.observePair (hs : InOrder s) {i : ℕ} {f : ReadingFrame}
    (hf : s.attempts (.reading i) = none) (hc : s.assembly.active.get? pair = some e)
    (hm : s.machines.get? pair = some m)
    (h : s.observePair i f pair rest e m attemptId now = some s') : InOrder s' := by
  unfold Registry.observePair at h
  simp only at h
  split at h
  · simp at h
  rename_i m' t hb
  obtain ⟨-, hst, ho, hm'⟩ | ⟨ho, -, c, d, hm'⟩ := ZoneTripState.observe_ok hb
  · rw [if_pos ho] at h
    cases h
    obtain ⟨hat, hta⟩ := hs.1.untouched hm hst
    have hop : m'.commandOpen := hm' ▸ ⟨rfl, .inl rfl⟩
    refine ⟨Orderly.starts (m := m') ?_ hf hc ?_ hop ?_ ?_, ?_⟩
    · have hl : Orderly (s.setMachine pair m') := hs.1.latch hm hst (by simp [hm']) (by rw [hm'])
      exact hl.congr rfl rfl rfl rfl rfl rfl
    · exact (get?_setMachine s pair pair m').trans (if_pos rfl)
    · exact fun o a ha hp => absurd hp (hat o a ha)
    · exact fun k t ht hp => absurd hp (hta k t ht)
    · exact (hs.2.cons (by simp) (by simp)).cons (by simp) (by simp)
  · rw [if_neg (by simp [ho])] at h
    cases h
    have hsm : Orderly (s.setMachine pair m') := hs.1.sameMachine hm (hm' ▸ ⟨rfl, rfl, rfl⟩)
    exact ⟨hsm.congr rfl rfl rfl rfl rfl rfl, hs.2⟩

/-! ### The retry loop -/

theorem Orderly.noneRunning_of_settled (hs : Orderly s) (h : (s.intentSettled p).2 = true) :
    NoneRunning s p := by
  intro k t ht hp
  by_contra hd
  have hd' : t.done = false := by simpa using hd
  have hu := hs.running k t ht hd'
  rw [hp] at hu
  simp [intentSettled, hu, taskDone, ht, hd'] at h

theorem InOrder.intentSettled (hs : InOrder s) (p : Pair) : InOrder (s.intentSettled p).1 := by
  cases ht : (s.intentSettled p).2 with
  | false =>
    unfold Registry.intentSettled at ht ⊢
    split
    · exact hs
    rename_i k hk
    simp only [hk] at ht
    split_ifs at ht ⊢
    exact hs
  | true =>
    have hn := hs.1.noneRunning_of_settled ht
    unfold Registry.intentSettled
    split
    · exact hs
    split_ifs
    · exact ⟨hs.1.popUnsettled hn, hs.2⟩
    · exact hs

theorem intentSettled_view (s : Registry) (p : Pair) :
    ∃ unsettled, (s.intentSettled p).1 = { s with unsettledIntents := unsettled } := by
  unfold intentSettled
  split
  · exact ⟨_, rfl⟩
  · split_ifs
    all_goals exact ⟨_, rfl⟩

theorem outcomeRetry_attempted (h : m.outcomeRetry.retry = some .attempted) :
    m.state = .tripped ∧ m.orphaned = false ∧ m.driverAttemptInFlight = false ∧
      m.commandStatus ≠ .commandIssued := by
  unfold ZoneTripState.outcomeRetry at h
  split at h
  · simp at h
  rename_i hskip
  simp only [not_or] at hskip
  exact ⟨by simpa using hskip.1, by simpa using hskip.2.2.1, by simpa using hskip.2.2.2.1,
    hskip.2.2.2.2⟩

theorem commandOpen_of_status (hs : m.state = .tripped) (hn : m.commandStatus ≠ .none)
    (hi : m.commandStatus ≠ .commandIssued) : m.commandOpen := by
  refine ⟨hs, ?_⟩
  cases h : m.commandStatus <;> simp_all

theorem retryDue_iff : s.retryDue p = true ↔
    (s.intentSettled p).2 = true ∧ (∃ m, s.machines.get? p = some m ∧
      m.outcomeRetry.retry = some .attempted) ∧ ∃ e, s.assembly.active.get? p = some e := by
  simp only [retryDue, Bool.and_eq_true, isSome_iff_exists, and_assoc]
  cases s.machines.get? p with
  | none => simp
  | some m => simp

/-- A pass attempts a pair only when no attempt of that pair is ahead of its record. -/
def RetryFindsNoneAhead (s : Registry) (action : Action) : Prop :=
  ∀ attemptId now pair rest, action = .retryPair attemptId now → s.retry = .pending (pair :: rest) →
    s.retryDue pair = true → NoneAhead s pair

theorem InOrder.retryPair (hs : InOrder s) (hf : s.attempts .retryLoop = none)
    (hh : s.retryDue pair = true → NoneAhead s pair) :
    InOrder (s.retryPair pair rest attemptId now) := by
  have hst := hs.intentSettled pair
  obtain ⟨unsettled, hv⟩ := intentSettled_view s pair
  unfold Registry.retryPair
  split_ifs with hd
  · obtain ⟨he, ⟨m, hm, hr⟩, e, ha⟩ := retryDue_iff.mp hd
    obtain ⟨ht, -, -, hi⟩ := outcomeRetry_attempted hr
    have ho := commandOpen_of_status ht (hs.1.status pair m hm ht) hi
    rw [ha]
    rw [hv] at hst ⊢
    refine ⟨Orderly.starts ?_ hf ha hm ho (hh hd)
      (hs.1.noneRunning_of_settled he), hs.2.cons (by simp) (by simp)⟩
    exact hst.1.congr rfl rfl rfl rfl rfl rfl
  · exact hst.congr rfl rfl rfl rfl rfl rfl rfl

theorem InOrder.recoverPair (hs : InOrder s) : InOrder (s.recoverPair pair rest m now) := by
  have hl := hs.intentSettled pair
  unfold Registry.recoverPair
  simp only
  split_ifs with ht he
  · exact hs.congr rfl rfl rfl rfl rfl rfl rfl
  · refine ⟨hl.1.congr rfl rfl rfl rfl rfl rfl, ?_⟩
    refine hs.2.cons (by simp) ?_
    simp [intentRunning_of_noneRunning (hs.1.noneRunning_of_settled he)]
  · exact hl.congr rfl rfl rfl rfl rfl rfl rfl

theorem InOrder.recoverSignal (hs : InOrder s) {sig : Signal} (h : s.recoverSignal sig = some s') :
    InOrder s' := by
  unfold Registry.recoverSignal at h
  split at h
  · split at h
    · split at h
      · simp at h
      · cases h
        exact hs.congr rfl rfl rfl rfl rfl rfl rfl
    · cases h
      exact hs.congr rfl rfl rfl rfl rfl rfl rfl
    · simp at h
  · split at h
    · cases h
      exact hs.congr rfl rfl rfl rfl rfl rfl rfl
    · split at h
      · simp at h
      rename_i m hm
      cases h
      have hsm : SameCommand m (m.recordRetry true) := by
        unfold ZoneTripState.recordRetry
        split_ifs <;> exact ⟨rfl, rfl, rfl⟩
      have he := hs.1.sameMachine hm hsm
      exact ⟨he.congr rfl rfl rfl rfl rfl rfl, hs.2⟩
    · simp at h
  · split at h
    · cases h
      exact hs.congr rfl rfl rfl rfl rfl rfl rfl
    · cases h
      exact hs.congr rfl rfl rfl rfl rfl rfl rfl
    · simp at h
  · simp at h

/-! ### Whole runs -/

theorem settleZone_view (s : Registry) (f : ReadingFrame) (z : String) :
    ∃ gates commands, s.settleZone f z = { s with gates := gates, trace := commands ++ s.trace } ∧
      ∀ e ∈ commands, e = .startupDeEnergised z (some f.reading) (s.anyTripped z) := by
  unfold settleZone
  split
  · exact ⟨_, [], rfl, by simp⟩
  dsimp only
  split_ifs
  · exact ⟨_, [], rfl, by simp⟩
  · exact ⟨_, [], rfl, by simp⟩
  · exact ⟨_, [], rfl, by simp⟩
  · split
    · exact ⟨_, [], rfl, by simp⟩
    · exact ⟨_, [.startupDeEnergised z (some f.reading) (s.anyTripped z)], rfl, by simp⟩

theorem Started.inOrder {a : Assembly} {j : TripJournal} {pairs : List Pair}
    (hs : Started a j pairs s) : InOrder s := by
  refine ⟨⟨?_, ?_, ?_, ?_, ?_, ?_, ?_, ?_, ?_⟩, ?_⟩
  · simp [hs.attempts]
  · exact fun p m hm => (hs.loaded p m hm).2.status
  · simp [hs.attempts]
  · intro p m hm hl
    simp [(hs.loaded p m hm).2.lease] at hl
  · simp [hs.attempts]
  · simp [hs.attempts]
  · simp [hs.tasks]
  · simp [hs.tasks]
  · simp [hs.attempts]
  · refine ⟨fun o e he => ?_, fun p he => ?_⟩
    all_goals
      obtain ⟨z, hz, -⟩ := hs.trace _ he
      simp at hz

theorem inOrder_step (s : Registry) (action : Action) (s' : Registry) (hs : InOrder s)
    (hh : RetryFindsNoneAhead s action) (h : s.step action = some s') : InOrder s' := by
  cases steps_of_step h with
  | restart hst => exact (start_ok hst).inOrder
  | @taskLands k t ht =>
    have hse : Orderly (s.setTask k { t with written := true }) := hs.1.setTask ht rfl id
    exact ⟨hse.congr rfl rfl rfl rfl rfl rfl, hs.2⟩
  | taskEnds ht => exact ⟨hs.1.setTask ht rfl (by simp), hs.2⟩
  | signal ha hm hi => exact hs.signal ha hm hi
  | observe _ hfr _ _ hac hm _ _ ho => exact hs.observePair hfr hac hm ho
  | @settleZone i f z rest hf =>
    obtain ⟨gates, commands, hv, hc⟩ := settleZone_view s f z
    rw [hv]
    refine ⟨hs.1.congr rfl rfl rfl rfl rfl rfl, fun o e he => ?_, fun p he => ?_⟩
    · obtain he | he := mem_append.mp he
      · simpa using hc _ he
      · exact hs.2.1 o e he
    · obtain he | he := mem_append.mp he
      · simpa using hc _ he
      · exact hs.2.2 p he
  | retryPair hre hfr => exact hs.retryPair hfr (hh _ _ _ _ rfl hre)
  | recoverPair => exact hs.recoverPair
  | recover hr => exact hs.recoverSignal hr
  | clear | arrive | settle | abandon | retryPass | recordPass | rest =>
    exact hs.congr rfl rfl rfl rfl rfl rfl rfl

/-- At most one physical command of a pair is in flight, no sequence error leaves an attempt, and no
record write was issued over a running intent append of its pair. -/
structure NoCollision (s : Registry) : Prop where
  one_command : ∀ o o' a a' k k', s.attempts o = some a → s.attempts o' = some a' →
    a.pair = a'.pair → a.stage = .commanding k → a'.stage = .commanding k' → o = o'
  no_escape : ∀ o e, .escaped o e ∉ s.trace
  ordered : ∀ p, .recordIssued p true ∉ s.trace

theorem InOrder.noCollision (hs : InOrder s) : NoCollision s := by
  refine ⟨?_, hs.2.1, hs.2.2⟩
  intro o o' a a' k k' ha ha' hp hg hs'
  exact hs.1.single o o' a a' ha ha' hp (by simp [hg, AttemptStage.task?])
    (by simp [hs', AttemptStage.task?])

/-- In every run from a start whose retry passes attempt a pair only when none of its attempts is
ahead of its record, attempts do not collide. -/
theorem attempts_do_not_collide {assembly : Assembly} {journal : TripJournal} {pairs : List Pair}
    {zones : List String} {s t : Registry} {actions : List Action}
    (hstart : start assembly journal pairs zones = .ok s)
    (hrun : Execution.run step s actions = some t)
    (hahead : Execution.Meets step RetryFindsNoneAhead s actions) : NoCollision t :=
  (Execution.run_invariant_of_meets inOrder_step (start_ok hstart).inOrder hahead hrun).noCollision

/-- One zone with one profile that trips above 5. -/
def pumpEntry : ActivePair where
  zoneId := "z1"
  profileId := "p1"
  sensorId := "s1"
  tripPoint := .finite 5
  outcome := openProtectedCircuit
  unit := "A"
  rangeMin := .finite 0
  rangeMax := .finite 10
  terminalState := .circuitOpen
  bindingSeq := 1
  actuatorIdentity := ("relay", "1")

def pumpAssembly : Assembly where
  active := Dict.empty.set ("z1", "p1") pumpEntry
  terminalStates := Dict.empty.set "z1" .circuitOpen
  bindingSeq := 1
  accepted := by
    intro pair e h
    rw [Dict.get?_set] at h
    split_ifs at h with hpair
    · cases h
      subst hpair
      exact ⟨rfl, rfl, by decide, by decide, rfl, rfl, by decide, rfl⟩
    · simp at h

def overcurrent : Reading := ⟨"s1", .int 9, .str "A", .int 1⟩

/-- A start over an intent no record answered: the retry pass commands again. -/
def resumeActions : List Action :=
  [.retryPass, .retryPair "a2" 11, .signal .retryLoop (.resumed 12)]

theorem attempts_do_not_collide_resume :
    let journal := TripJournal.empty.appendIntent "z1" "p1" "a1" 1 openProtectedCircuit 10
    ∃ s t, start pumpAssembly journal [("z1", "p1")] ["z1"] = .ok s ∧
      Execution.run step s resumeActions = some t ∧ .commanded ("z1", "p1") ∈ t.trace ∧
      NoCollision t := by
  intro journal
  have hsafe : ∀ s t, start pumpAssembly journal [("z1", "p1")] ["z1"] = .ok s →
      Execution.run step s resumeActions = some t →
      Execution.Meets step RetryFindsNoneAhead s resumeActions → NoCollision t :=
    fun s t hstart hrun hahead => attempts_do_not_collide hstart hrun hahead
  refine ⟨_, _, rfl, rfl, mem_cons_self, hsafe _ _ rfl rfl ?_⟩
  refine Execution.meets_cons nofun rfl (Execution.meets_cons ?_ rfl
    (Execution.meets_cons nofun rfl trivial))
  intro _ _ pair rest _ _ _ o a ha
  cases ha

/-- The trip's intent append is done and the attempt not yet resumed when the retry pass visits the
pair. -/
def overlapActions : List Action :=
  [.arrive overcurrent, .observe 0 "a1" 10, .taskLands 0, .taskEnds 0, .retryPass,
    .retryPair "a2" 11, .signal (.reading 0) (.resumed 12), .signal .retryLoop (.resumed 13)]

/-- The trip's record waits for its late intent append; the append ends, and the retry pass visits the
pair before the record write is resumed. -/
def crossingActions : List Action :=
  [.arrive overcurrent, .observe 0 "a1" 10, .signal (.reading 0) (.resumed 11),
    .signal (.reading 0) (.driver (some false) 12), .taskLands 0, .taskEnds 0, .retryPass,
    .retryPair "a2" 13, .signal (.reading 0) (.resumed 14)]

/-- The retry pass starts a second attempt beside the first: its begin raises out of the retry loop,
and in the other order the first attempt's record is issued over the second one's intent append. -/
theorem retry_overlaps_first_attempt :
    ∃ s t u, start pumpAssembly TripJournal.empty [("z1", "p1")] ["z1"] = .ok s ∧
      Execution.run step s overlapActions = some t ∧ t.retry = .ended ∧ ¬ NoCollision t ∧
      Execution.run step s crossingActions = some u ∧
      .recordIssued ("z1", "p1") true ∈ u.trace := by
  refine ⟨_, _, _, rfl, rfl, rfl, fun hsafe => ?_, rfl, mem_cons_self⟩
  exact hsafe.no_escape .retryLoop .attemptAlreadyInFlight mem_cons_self

end Registry

end OriRuntime
