import OriRuntime.Execution
import OriRuntime.TierCMoves

/-!
# One outcome, one approval

Creation asks only for resolved uncertainties, admission for no approval in flight either. Over any
transactions in any order, a zone's outcome is held by one proposal at a time, and the approvals in
flight stay within the ceiling the last admission was given.
-/

namespace OriRuntime

open Option

namespace TierCStore

variable {b : Bool} {e : Option String} {p : String} {r : Proposal} {s : TierCStore}

theorem outcomeBlocked_eq_false {zoneId outcome : String}
    (h : s.outcomeBlocked zoneId outcome e b = false) (hr : s.proposals.get? p = some r)
    (hz : r.zoneId = zoneId) (ho : r.outcome = outcome)
    (hs : (if b then r.decisionState.blocks else r.decisionState.uncertain) = true) :
    e = some p := by
  simp only [outcomeBlocked, List.any_eq_false] at h
  have hn := h (p, r) (Dict.get?_eq_some_iff.mp hr)
  simpa [hz, ho, hs] using hn

theorem outcomeBlocked_eq_true (hr : s.proposals.get? p = some r)
    (hs : (if b then r.decisionState.blocks else r.decisionState.uncertain) = true)
    (he : e ≠ some p) : s.outcomeBlocked r.zoneId r.outcome e b = true := by
  cases hb : s.outcomeBlocked r.zoneId r.outcome e b with
  | true => rfl
  | false => exact absurd (outcomeBlocked_eq_false hb hr rfl rfl hs) he

/-- At most one proposal holds a zone's outcome. -/
def OneHolder (s : TierCStore) : Prop :=
  ∀ p q r r', s.proposals.get? p = some r → s.proposals.get? q = some r' →
    r.decisionState.blocks = true → r'.decisionState.blocks = true →
    r.zoneId = r'.zoneId → r.outcome = r'.outcome → p = q

theorem OneHolder.set (hs : OneHolder s) {s' : TierCStore} (hp : s'.proposals = s.proposals.set p r)
    (hf : r.decisionState.blocks = true → ∀ q r', s.proposals.get? q = some r' →
      r'.decisionState.blocks = true → r.zoneId = r'.zoneId → r.outcome = r'.outcome → q = p) :
    OneHolder s' := by
  intro a b ra rb ha hb hab hbb hz ho
  rw [hp, Dict.get?_set] at ha hb
  split_ifs at ha hb with hap hbp hbp
  · rw [hap, hbp]
  · cases ha
    exact hap.trans (hf hab b rb hb hbb hz ho).symm
  · cases hb
    exact (hf hbb a ra ha hab hz.symm ho.symm).trans hbp.symm
  · exact hs a b ra rb ha hb hab hbb hz ho

theorem oneHolder_perform (hs : OneHolder s) (op : Op) (now : ℤ) :
    OneHolder (s.perform now op).1 := by
  obtain ⟨hr, -, -, -⟩ | ⟨p, row, createdAt, -, -, hno, -, hr, -, -⟩ |
    ⟨p, b, au, c, i, r, r', -, -, hm, ht, hs', -, -, hfr, -, -⟩ |
    ⟨p, r, r', hm, hmo, -, -⟩ := touched s op now
  · intro p q r r' hp hq
    rw [hr] at hp hq
    exact hs p q r r' hp hq
  · refine hs.set hr ?_
    intro hb
    simp [DecisionState.blocks, DecisionState.inFlight, DecisionState.uncertain] at hb
  · refine hs.set hm.proposals ?_
    intro _ q rq hq hb hn hu
    have hf := hm.fields
    have hz : rq.zoneId = r.zoneId := by rw [← hn, ← congrArg ProposalFields.zoneId hf]
    have ho : rq.outcome = r.outcome := by rw [← hu, ← congrArg ProposalFields.outcome hf]
    exact (some.inj (outcomeBlocked_eq_false hfr hq hz ho hb)).symm
  · refine hs.set hm.proposals ?_
    intro hb q rq hq hqb hn hu
    have hz : rq.zoneId = r.zoneId := by
      rw [← hn, ← congrArg ProposalFields.zoneId hm.fields]
    have ho : rq.outcome = r.outcome := by
      rw [← hu, ← congrArg ProposalFields.outcome hm.fields]
    exact hs q p rq r hq hm.row hqb (hmo.blocks hb) hz ho

theorem reserved_perform (s : TierCStore) (op : Op) (now : ℤ) :
    (s.perform now op).1.reserved ≤ s.reserved ∨
      ∃ p b au c i, op = .admitApproval p b au c i ∧ (s.perform now op).2 = .admitted .committed ∧
        (s.perform now op).1.reserved ≤ s.reserved + 1 ∧ s.reserved < c := by
  obtain ⟨hp, -, -, -⟩ | ⟨p, row, createdAt, -, -, hn, -, hp, -, -⟩ |
    ⟨p, b, au, c, i, r, r', hop, hansr, hm, -, -, -, -, -, he, -⟩ |
    ⟨p, r, r', hm, ho, -, -⟩ := touched s op now
  · left
    simp only [reserved, hp, le_refl]
  · left
    simp only [reserved, hp, Dict.countP_values_set_of_get?_eq_none hn]
    simp [DecisionState.inFlight]
  · right
    refine ⟨p, b, au, c, i, hop, hansr, ?_, he⟩
    have hc := Dict.countP_values_set_of_get?_eq_some hm.row r' (fun r => r.decisionState.inFlight)
    simp only [reserved, hm.proposals]
    split_ifs at hc <;> omega
  · left
    have hc := Dict.countP_values_set_of_get?_eq_some hm.row r' (fun r => r.decisionState.inFlight)
    have hl := ho.inFlight
    simp only [reserved, hm.proposals]
    split_ifs at hc with h₁ h₂ h₂
    · omega
    · omega
    · exact absurd (hl h₂) h₁
    · omega

end TierCStore

/-- A store and the ceiling its last committed admission was given. -/
structure TierCLedger where
  store : TierCStore := {}
  ceiling : ℤ := 0

namespace TierCLedger

open TierCStore (Op)

/-- One transaction at a time of day. -/
def step (l : TierCLedger) (action : Op × ℤ) : Option TierCLedger :=
  let r := l.store.perform action.2 action.1
  some
    { store := r.1
      ceiling := match action.1, r.2 with
        | .admitApproval _ _ _ ceiling _, .admitted .committed => ceiling
        | _, _ => l.ceiling }

/-- No outcome is commanded twice. -/
structure Exclusive (l : TierCLedger) : Prop where
  one_holder : l.store.OneHolder
  no_creation : ∀ q r, l.store.proposals.get? q = some r → r.decisionState.uncertain = true →
    ∀ p (row : ProposalFields) now, row.zoneId = r.zoneId → row.outcome = r.outcome →
      l.store.createTierCProposal p row now = (l.store, .blocked)
  no_admission : ∀ q r, l.store.proposals.get? q = some r → r.decisionState.uncertain = true →
    ∀ p row, l.store.proposals.get? p = some row → row.zoneId = r.zoneId → row.outcome = r.outcome →
      ∀ binding authority ceiling ingress now,
        (l.store.admitTierCApproval p binding authority ceiling ingress now).2 ≠ .committed
  within_ceiling : (l.store.reserved : ℤ) ≤ l.ceiling

theorem within_ceiling_step (l : TierCLedger) (action : Op × ℤ) (l' : TierCLedger)
    (hl : (l.store.reserved : ℤ) ≤ l.ceiling) (h : step l action = some l') :
    (l'.store.reserved : ℤ) ≤ l'.ceiling := by
  cases h
  obtain he | ⟨p, b, au, c, i, ho, hansr, he, hce⟩ :=
    TierCStore.reserved_perform l.store action.1 action.2
  · simp only
    split
    · rename_i ceiling ingress ho hansr
      obtain ⟨-, -, -, hn⟩ | ⟨p, row, createdAt, hc, -, -, -, -, -, -⟩ |
        ⟨p, b, au, c, i, r, r', ha, -, -, -, -, -, -, -, hce, -⟩ |
        ⟨p, r, r', -, -, -, hn⟩ := TierCStore.touched l.store action.1 action.2
      · exact absurd hansr hn
      · simp [hc] at ho
      · rw [ho] at ha
        cases ha
        omega
      · exact absurd hansr hn
    · omega
  · simp only [ho] at hansr he ⊢
    rw [hansr]
    simp only
    omega

theorem Exclusive.of {l : TierCLedger} (hon : l.store.OneHolder)
    (hc : (l.store.reserved : ℤ) ≤ l.ceiling) : Exclusive l where
  one_holder := hon
  no_creation := by
    intro q r hr hu p row now hz ho
    have hb := TierCStore.outcomeBlocked_eq_true (e := none) (b := false) hr (by simpa) (by simp)
    rw [← hz, ← ho] at hb
    simp only [TierCStore.createTierCProposal, hb, if_true]
  no_admission := by
    intro q r hr hu p row hro hz ho binding authority ceiling ingress now hco
    have ht := TierCStore.touched_admit l.store p binding authority ceiling ingress now
    simp only [TierCStore.perform, hco] at ht
    obtain ⟨-, -, -, hn⟩ | ⟨_, _, _, hp, -, -, -, -, -, -⟩ |
      ⟨p', b, au, c, i, r', r'', hp, -, hm, hs, -, -, -, hf, -, -⟩ |
      ⟨p', r', r'', -, -, -, hn⟩ := ht
    · exact hn rfl
    · cases hp
    · cases hp
      obtain rfl := mem_unique hm.row hro
      have heq := TierCStore.outcomeBlocked_eq_false hf hr hz.symm ho.symm
        (by simp [DecisionState.blocks, hu])
      cases heq
      obtain rfl := mem_unique hr hro
      simp [hs, DecisionState.uncertain] at hu
    · exact hn rfl
  within_ceiling := hc

/-- Over every run of the store's transactions an outcome is held by one proposal at a time. -/
theorem exclusive_of_run {l : TierCLedger} {actions : List (Op × ℤ)}
    (hrun : Execution.run step {} actions = some l) : Exclusive l := by
  have hone : ∀ s action t, s.store.OneHolder → step s action = some t → t.store.OneHolder := by
    intro s action t hs hstep
    cases hstep
    exact TierCStore.oneHolder_perform hs action.1 action.2
  have hblank : ({} : TierCLedger).store.OneHolder := by
    intro p q r r' hp
    simp at hp
  have hceiling : (({} : TierCLedger).store.reserved : ℤ) ≤ ({} : TierCLedger).ceiling := by
    simp [TierCStore.reserved, Dict.values, Dict.empty]
  exact .of (Execution.run_invariant hone hblank hrun)
    (Execution.run_invariant within_ceiling_step hceiling hrun)

def pumpProposal : ProposalFields where
  deviceId := "d1"
  action := "close_pump"
  zoneId := "z1"
  outcome := "close_protected_circuit"
  safeDefaultAction := "log_to_dashboard"
  bindingDigest := "b1"
  authorityJson := "a1"
  createdAtMs := 1
  expiresAtMs := 100

/-- Two proposals for one outcome; the first is approved and lost in a crash. -/
def lostDispatch : List (Op × ℤ) :=
  [(.create "p1" pumpProposal, 1), (.create "p2" pumpProposal, 2), (.admitApproval "p1" "b1" "a1" 1 {}, 3),
    (.advance "p1" .recoverUnproven "runtime_restart" none none, 4)]

theorem exclusive_of_run_lost : ∃ l, Execution.run step {} lostDispatch = some l ∧ Exclusive l ∧
    (l.store.proposals.get? "p1").map (·.decisionState) = some .dispatchNotProven ∧
    (l.store.admitTierCApproval "p2" "b1" "a1" 1 {} 5).2 = .blocked := by
  have hrun : ∀ l, Execution.run step {} lostDispatch = some l → Exclusive l :=
    fun l h => exclusive_of_run h
  exact ⟨_, rfl, hrun _ rfl, rfl, rfl⟩

end TierCLedger

end OriRuntime
