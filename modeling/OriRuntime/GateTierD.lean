import OriRuntime.GateExclusion

/-!
# Tier D never waits for an operator, and uncertainty blocks the opposite

`Protocol` is what every run of the dispatcher's clients keeps, whatever `mark_running` finds: one
client a token, an awaiting client's record never reserved, an uncertain record's client waiting on
the driver's report.
-/

namespace OriRuntime

open Option

open Execution

namespace Gate

variable {g g' : Gate} {t u : ℕ} {scope : String} {identity i : ResourceIdentity} {tier : String}
  {c : Contributor} {awaitsOperator : Bool}

/-! ### A displaced proposal -/

def Displaced (g : Gate) (t : ℕ) : Prop := (g.heap[t]?).map (·.invalidated) = some true

theorem Displaced.lt (h : Displaced g t) : t < g.heap.length := by
  by_contra hg
  rw [Displaced, List.getElem?_eq_none (by omega)] at h
  cases h

theorem Displaced.modifyRecord (h : Displaced g t) (u : ℕ) {f : Record → Record}
    (hf : ∀ r, r.invalidated = true → (f r).invalidated = true) :
    Displaced (g.modifyRecord u f) t := by
  obtain ⟨r, hr, hi⟩ := map_eq_some_iff.mp h
  unfold Displaced
  rw [modifyRecord_heap, List.getElem?_modify, hr]
  by_cases hu : u = t
  · simp [hu, hf r hi]
  · simp [hu, hi]

theorem Displaced.append {heap : List Record} {r : Record} (hheap : g'.heap = heap ++ [r])
    (hold : Displaced { g with heap := heap } t) : Displaced g' t := by
  have hl : t < heap.length := hold.lt
  unfold Displaced
  rw [hheap, List.getElem?_append_left hl]
  exact hold

theorem Displaced.recordEntries (h : Displaced g t) (u : ℕ) (ran : Bool) :
    Displaced (g.recordEntries u ran) t :=
  (recordEntries_project (fun r => r.invalidated) (fun _ _ => rfl) g u ran t).trans h

theorem Displaced.request (h : Displaced g t) :
    Displaced (g.request scope identity tier c awaitsOperator).1 t := by
  rcases g.request_outcome scope identity tier c awaitsOperator with
    ⟨_, hheap⟩ | ⟨_, _, _, _, _, _, _, _, _, hheap⟩ | ⟨u, _, _, _, _, _, _, hheap⟩ |
    ⟨_, _, _, hheap⟩ | ⟨u, _, _, _, _, _, _, hheap⟩ | ⟨u, _, _, _, _, _, _, hheap⟩ |
    ⟨u, _, _, _, _, _, hheap⟩
  · unfold Displaced
    rw [hheap]
    exact h
  · unfold Displaced
    rw [hheap]
    exact h
  · unfold Displaced
    rw [hheap]
    exact h.modifyRecord u (fun _ hr => hr)
  · exact .append hheap h
  · exact .append hheap (h.modifyRecord u (fun _ _ => rfl))
  · exact .append hheap (h.modifyRecord u (fun _ hr => hr))
  · unfold Displaced
    rw [hheap]
    exact h.modifyRecord u (fun _ hr => hr)

theorem Displaced.apply (h : Displaced g t) (op : Op) : Displaced (g.apply op) t := by
  cases op with
  | openScope scope | closeScope scope => exact h
  | request scope identity tier c aw => exact h.request
  | markProposal u pid | markRunning u => exact h.modifyRecord u (fun _ hr => hr)
  | replyAdmitted u =>
    simp only [Gate.apply, replyAdmitted]
    split
    · exact h
    split_ifs
    · exact h
    · exact h
    · exact h.modifyRecord u (fun _ hr => hr)
  | markUncertain u =>
    simp only [Gate.apply, markUncertain]
    split
    · exact h
    · apply Displaced.recordEntries
      exact h.modifyRecord u (fun _ hr => hr)
  | retire u result =>
    simp only [Gate.apply, retire]
    split
    · exact h
    split_ifs
    · exact h
    unfold Displaced
    rw [release_heap]
    refine Displaced.modifyRecord ?_ u (fun _ hr => hr)
    apply Displaced.recordEntries
    exact h.modifyRecord u (fun _ hr => hr)
  | resolveUncertain u accepted =>
    simp only [Gate.apply, resolveUncertain]
    split
    · exact h
    split_ifs
    · exact h
    unfold Displaced
    rw [recordEvent_heap, release_heap]
    apply Displaced.recordEntries
    exact h.modifyRecord u (fun _ hr => hr)

theorem Displaced.reply_refused (h : Displaced g t) : (g.replyAdmitted t).2 = false := by
  obtain ⟨r, hr, hi⟩ := map_eq_some_iff.mp h
  simp [replyAdmitted, hr, hi]

theorem displaced_of_request
    (hd : (g.request scope identity tier c awaitsOperator).2.displaced = some t)
    (hp : (g.heap[t]?).map (·.state) = some .proposal) :
    Displaced (g.request scope identity tier c awaitsOperator).1 t := by
  rcases g.request_outcome scope identity tier c awaitsOperator with
    ⟨_, _, _, _, hdisp⟩ | ⟨_, _, _, _, _, _, _, _, _, _, _, _, hdisp⟩ |
    ⟨_, _, _, _, _, _, _, _, _, _, hdisp⟩ | ⟨_, _, _, _, _, _, hdisp, _⟩ |
    ⟨u, r, hh, hs, _, _, _, hheap, _, _, hdisp⟩ |
    ⟨u, r, hh, hs, _, _, _, _, _, _, hdisp⟩ | ⟨_, _, _, _, _, _, _, _, _, hdisp⟩
  · simp [hdisp] at hd
  · simp [hdisp] at hd
  · simp [hdisp] at hd
  · simp [hdisp] at hd
  · obtain rfl : u = t := mem_unique hdisp hd
    obtain ⟨-, hr, -⟩ := holder_eq_some_iff.mp hh
    have hl := (List.getElem?_eq_some_iff.mp hr).1
    unfold Displaced
    rw [hheap, List.getElem?_append_left (by simpa using hl)]
    simp [hr]
  · obtain rfl : u = t := mem_unique hdisp hd
    obtain ⟨-, hr, -⟩ := holder_eq_some_iff.mp hh
    simp [hr, hs] at hp
  · simp [hdisp] at hd

/-! ### The state of a record -/

theorem request_view (hu : u < g.heap.length) :
    (g.request scope identity tier c awaitsOperator).1.view u = g.view u ∨
      (g.request scope identity tier c awaitsOperator).1.view u =
        (g.view u).map (fun p => (p.1, .retired)) := by
  have ha : ∀ {heap : List Record} {r : Record} {p : Option (ResourceIdentity × HolderState)},
      heap.length = g.heap.length →
      (heap[u]?).map (fun r => (r.identity, r.state)) = p →
      ((heap ++ [r])[u]?).map (fun r => (r.identity, r.state)) = p := by
    intro heap r p hl hp
    rw [List.getElem?_append_left (by omega), hp]
  have hreti : ∀ t : ℕ, (((g.heap.modify t (fun r => { r with
      state := .retired, done := true }))[u]?).map (fun r => (r.identity, r.state)) = g.view u ∨
      ((g.heap.modify t (fun r => { r with
        state := .retired, done := true }))[u]?).map (fun r => (r.identity, r.state)) =
        (g.view u).map (fun p => (p.1, .retired))) := by
    intro t
    by_cases ht : t = u
    · right
      simp [ht, view, Function.comp_def]
    · left
      simp [ht, view]
  unfold view
  rcases g.request_outcome scope identity tier c awaitsOperator with
    ⟨_, hheap⟩ | ⟨_, _, _, _, _, _, _, _, _, hheap⟩ | ⟨t, _, _, _, _, _, _, hheap⟩ |
    ⟨_, _, _, hheap⟩ | ⟨t, _, _, _, _, _, _, hheap⟩ | ⟨t, _, _, _, _, _, _, hheap⟩ |
    ⟨t, _, _, _, _, _, hheap⟩
  · rw [hheap]
    exact .inl rfl
  · rw [hheap]
    exact .inl rfl
  · rw [hheap]
    exact .inl (view_modifyRecord g t (fun _ => rfl) (fun _ => rfl))
  · rw [hheap]
    exact .inl (ha rfl rfl)
  · rw [hheap]
    refine .inl (ha (by simp) ?_)
    exact view_modifyRecord g t (fun _ => rfl) (fun _ => rfl)
  · rw [hheap]
    obtain hs | hr := hreti t
    · exact .inl (ha (by simp) hs)
    · exact .inr (ha (by simp) hr)
  · rw [hheap]
    exact hreti t

theorem request_fresh (h : (g.request scope identity tier c awaitsOperator).2.mayExecute = true) :
    (g.request scope identity tier c awaitsOperator).1.heap[g.heap.length]? =
      some (freshRecord scope identity tier c awaitsOperator) ∧
    (g.request scope identity tier c awaitsOperator).1.records.get? identity.resourceKey =
      some g.heap.length := by
  rcases g.request_outcome scope identity tier c awaitsOperator with
    ⟨hd, _⟩ | ⟨_, _, _, _, _, _, _, hd, _⟩ | ⟨_, _, _, _, _, hd, _⟩ | ⟨_, _, _, hheap, hr, _⟩ |
    ⟨t, _, _, _, _, _, _, hheap, hr, _⟩ | ⟨t, _, _, _, _, _, _, hheap, hr, _⟩ |
    ⟨_, _, _, _, _, hd, _⟩
  · simp [GateDecision.mayExecute, hd] at h
  · simp [GateDecision.mayExecute, hd] at h
  · simp [GateDecision.mayExecute, hd] at h
  · rw [hheap, hr]
    simp
  · rw [hheap, hr]
    simp
  · rw [hheap, hr]
    simp
  · simp [GateDecision.mayExecute, hd] at h

/-- `t` holds the resource of `i` and its command is uncertain. -/
def Unresolved (g : Gate) (t : ℕ) (i : ResourceIdentity) : Prop :=
  g.view t = some (i, .uncertain) ∧ g.records.get? i.resourceKey = some t

theorem Unresolved.refuses (h : Unresolved g t i) (ho : opposes i identity = true) :
    (g.request scope identity tier c awaitsOperator).2.admission = .refused := by
  obtain ⟨hv, hc⟩ := h
  obtain ⟨r, hr, he⟩ := map_eq_some_iff.mp hv
  obtain ⟨rfl, hs⟩ := Prod.mk.inj he
  have hk := opposes_resourceKey ho
  have hh : g.holder identity.resourceKey = some (t, r) :=
    holder_eq_some_iff.mpr ⟨hk ▸ hc, hr, by simp [hs]⟩
  have hn : g.refuseOpposing (some (t, r)) identity tier c ≠ none := by
    intro hno
    exact not_uncertain_of_refuseOpposing_eq_none hno ho hs
  obtain ⟨p, hp⟩ := ne_none_iff_exists'.mp hn
  simp only [request, hh, hp]
  exact (refuseOpposing_refuses hp).1

theorem Unresolved.request (h : Unresolved g t i) :
    Unresolved (g.request scope identity tier c awaitsOperator).1 t i := by
  have hold : Holding g t .uncertain := ⟨i, h.1, h.2⟩
  have he : Holding (g.request scope identity tier c awaitsOperator).1 t .uncertain :=
    hold.request (.inr rfl)
  obtain ⟨j, hv, hc⟩ := he
  have hk : (g.request scope identity tier c awaitsOperator).1.view t = g.view t ∨
      (g.request scope identity tier c awaitsOperator).1.view t =
        (g.view t).map (fun p => (p.1, .retired)) := request_view hold.lt
  have hj : j = i := by
    obtain hs | hr := hk
    · rw [hs, h.1] at hv
      exact (Prod.mk.inj (some.inj hv)).1.symm
    · rw [hr, h.1] at hv
      simp at hv
  exact ⟨hj ▸ hv, hj ▸ hc⟩

theorem OwnStep.unresolved (h : OwnStep g g' t) (hu : u ≠ t) (hold : Unresolved g u i) :
    Unresolved g' u i := by
  obtain ⟨j, hv, hc⟩ := h.holding hu ⟨i, hold.1, hold.2⟩
  have hj : j = i := by
    rw [h.view_ne u hu, hold.1] at hv
    exact (Prod.mk.inj (some.inj hv)).1.symm
  exact ⟨hj ▸ hv, hj ▸ hc⟩

/-- `t`'s record stays as it was, or goes on past its admission. -/
def Advances (g g' : Gate) (t : ℕ) : Prop :=
  g'.view t = g.view t ∨
    ∃ i st, g'.view t = some (i, st) ∧ st ≠ .reserved ∧ st ≠ .proposal

theorem advances_markRunning (g : Gate) (t : ℕ) : Advances g (g.markRunning t) t := by
  cases h : g.view t with
  | none =>
    left
    have hn : g.heap[t]? = none := by simpa [view] using h
    simp [view, markRunning, hn]
  | some p =>
    refine .inr ⟨p.1, .running, ?_, by decide, by decide⟩
    exact view_modifyRecord_self h (fun _ => rfl) (fun _ => rfl)

theorem view_replyAdmitted (g : Gate) (t : ℕ) : (g.replyAdmitted t).1.view t = g.view t ∨
    ∃ i, (g.replyAdmitted t).1.view t = some (i, .running) := by
  by_cases ho : (g.replyAdmitted t).2 = true
  · obtain ⟨i, hi, -⟩ := holding_replyAdmitted ho
    exact .inr ⟨i, hi⟩
  · left
    unfold replyAdmitted at ho ⊢
    split
    · rfl
    split_ifs
    · rfl
    · rfl
    · rename_i hr hn hc
      simp [hr, hn, hc] at ho

theorem advances_replyAdmitted (g : Gate) (t : ℕ) : Advances g (g.replyAdmitted t).1 t := by
  obtain hs | ⟨i, hi⟩ := view_replyAdmitted g t
  · exact .inl hs
  · exact .inr ⟨i, .running, hi, by decide, by decide⟩

theorem advances_markUncertain (g : Gate) (t : ℕ) : Advances g (g.markUncertain t) t := by
  unfold markUncertain
  split
  · exact .inl rfl
  rename_i r hr
  refine .inr ⟨r.identity, .uncertain, ?_, by decide, by decide⟩
  change (Gate.recordEntries _ t false).view t = _
  rw [view_recordEntries]
  have hv : g.view t = some (r.identity, r.state) := by simp [view, hr]
  exact view_modifyRecord_self hv (fun _ => rfl) (fun _ => rfl)

theorem advances_retire (g : Gate) (t : ℕ) (result : Option Bool) :
    Advances g (g.retire t result) t := by
  unfold retire
  split
  · exact .inl rfl
  split_ifs
  · exact .inl rfl
  rename_i r hr _
  refine .inr ⟨r.identity, .retired, ?_, by decide, by decide⟩
  unfold view
  rw [release_heap]
  have hv : g.view t = some (r.identity, r.state) := by simp [view, hr]
  have hd : (g.modifyRecord t (fun r => { r with result := result, done := true })).view t =
      some (r.identity, r.state) := by
    rw [← hv]
    exact view_modifyRecord g t (fun _ => rfl) (fun _ => rfl)
  rw [← view_recordEntries _ t (decide (result = some true))] at hd
  exact view_modifyRecord_self hd (fun _ => rfl) (fun _ => rfl)

theorem advances_resolveUncertain (g : Gate) (t : ℕ) (accepted : Bool) :
    Advances g (g.resolveUncertain t accepted) t := by
  unfold resolveUncertain
  split
  · exact .inl rfl
  split_ifs
  · exact .inl rfl
  rename_i r hr _
  refine .inr ⟨r.identity, .retired, ?_, by decide, by decide⟩
  unfold view
  rw [recordEvent_heap, release_heap]
  change (Gate.recordEntries _ t accepted).view t = _
  rw [view_recordEntries]
  have hv : g.view t = some (r.identity, r.state) := by simp [view, hr]
  exact view_modifyRecord_self hv (fun _ => rfl) (fun _ => rfl)

theorem view_markProposal (g : Gate) (t : ℕ) (proposalId : String)
    (h : ∀ i, g.view t ≠ some (i, .reserved)) : (g.markProposal t proposalId).view t = g.view t := by
  unfold view markProposal
  rw [modifyRecord_heap, List.getElem?_modify]
  cases hr : g.heap[t]? with
  | none => rfl
  | some r =>
    have hn : r.state ≠ .reserved := by
      intro hs
      exact h r.identity (by simp [view, hr, hs])
    simp [hn]

end Gate

namespace Dispatch

variable {s s' : Dispatch} {c t u : ℕ} {cl cl' : Client} {i : ResourceIdentity}

/-- What every run keeps of the clients and their tokens. -/
structure Protocol (s : Dispatch) : Prop where
  owned : ∀ c cl t, s.clients.get? c = some cl → cl.token = some t → t < s.gate.heap.length
  distinct : ∀ c c' cl cl' t, s.clients.get? c = some cl → s.clients.get? c' = some cl' →
    cl.token = some t → cl'.token = some t → c = c'
  awaiting : ∀ c t, s.clients.get? c = some (.admitted t true) →
    ∀ i, s.gate.view t ≠ some (i, .reserved)
  reporting : ∀ c cl t i, s.clients.get? c = some cl → cl.token = some t →
    s.gate.view t = some (i, .uncertain) → cl = .uncertain t

theorem Protocol.own (h : Protocol s) (hc : s.clients.get? c = some cl) (ht : cl.token = some t)
    (hw : s.gate.OwnStep s'.gate t)
    (hl : ∀ c', s'.clients.get? c' = if c' = c then some cl' else s.clients.get? c')
    (hto : cl'.token = none ∨ cl'.token = some t)
    (ha : cl' = .admitted t true → ∀ i, s'.gate.view t ≠ some (i, .reserved))
    (hr : ∀ i, s'.gate.view t = some (i, .uncertain) →
      cl'.token = none ∨ cl' = .uncertain t) : Protocol s' := by
  have hmine : ∀ u, cl'.token = some u → u = t := by
    intro u hu
    obtain hn | hs := hto
    · simp [hn] at hu
    · exact mem_unique hu hs
  have ho : ∀ d k u, s.clients.get? d = some k → k.token = some u → d ≠ c → u ≠ t := by
    rintro d k u hd hu hdc rfl
    exact hdc (h.distinct d c k cl u hd hc hu ht)
  refine ⟨?_, ?_, ?_, ?_⟩
  · intro d k u hd hu
    rw [hw.length]
    rw [hl] at hd
    split_ifs at hd with hdc
    · cases hd
      rw [hmine u hu]
      exact h.owned c cl t hc ht
    · exact h.owned d k u hd hu
  · intro d d' k k' u hd hd' hu hu'
    rw [hl] at hd hd'
    split_ifs at hd hd' with hdc hc' hc'
    · rw [hdc, hc']
    · cases hd
      exact absurd (hmine u hu) (ho d' k' u hd' hu' hc')
    · cases hd'
      exact absurd (hmine u hu') (ho d k u hd hu hdc)
    · exact h.distinct d d' k k' u hd hd' hu hu'
  · intro d u hd
    rw [hl] at hd
    split_ifs at hd with hdc
    · cases hd
      obtain rfl := hmine u rfl
      exact ha rfl
    · rw [hw.view_ne u (ho d _ u hd rfl hdc)]
      exact h.awaiting d u hd
  · intro d k u i hd hu hv
    rw [hl] at hd
    split_ifs at hd with hdc
    · cases hd
      obtain rfl := hmine u hu
      obtain hn | hs := hr i hv
      · simp [hn] at hu
      · exact hs
    · rw [hw.view_ne u (ho d k u hd hu hdc)] at hv
      exact h.reporting d k u i hd hu hv

theorem afterRequest_token {d : GateDecision} {awaitsOperator : Bool}
    (h : (afterRequest d awaitsOperator).token = some t) :
    d.mayExecute = true ∧ d.token = some (.record t) ∧
      afterRequest d awaitsOperator = .admitted t awaitsOperator := by
  unfold afterRequest at h ⊢
  split at h
  · rename_i u hm ht
    cases h
    exact ⟨hm, ht, rfl⟩
  · cases h

theorem Protocol.request (h : Protocol s) (c : ℕ) (scope : String) (identity : ResourceIdentity)
    (tier : String) (contributor : Contributor) (aw : Bool) :
    Protocol
      { gate := (s.gate.request scope identity tier contributor aw).1
        clients := s.clients.set c
          (afterRequest (s.gate.request scope identity tier contributor aw).2 aw) } := by
  obtain ⟨he, hlt⟩ := s.gate.request_length scope identity tier contributor aw
  have hn : ∀ u, (afterRequest (s.gate.request scope identity tier contributor aw).2 aw).token =
      some u → u = s.gate.heap.length ∧
        u < (s.gate.request scope identity tier contributor aw).1.heap.length ∧
        afterRequest (s.gate.request scope identity tier contributor aw).2 aw = .admitted u aw ∧
        (s.gate.request scope identity tier contributor aw).1.view u =
          some (identity, if aw then .proposal else .reserved) := by
    intro u hu
    obtain ⟨hm, ht, ha⟩ := afterRequest_token hu
    have heq : u = s.gate.heap.length := by
      rw [Gate.request_token_of_mayExecute hm] at ht
      exact (Token.record.inj (some.inj ht)).symm
    subst heq
    refine ⟨rfl, hlt hm, ha, ?_⟩
    unfold Gate.view
    rw [(Gate.request_fresh hm).1]
    rfl
  have hold : ∀ u i st, u < s.gate.heap.length → st ≠ .retired →
      (s.gate.request scope identity tier contributor aw).1.view u = some (i, st) →
      s.gate.view u = some (i, st) := by
    intro u i st hu hst hv
    have hk : (s.gate.request scope identity tier contributor aw).1.view u = s.gate.view u ∨
        (s.gate.request scope identity tier contributor aw).1.view u =
          (s.gate.view u).map (fun p => (p.1, .retired)) := Gate.request_view hu
    obtain hsm | hr := hk
    · rw [← hsm, hv]
    · rw [hr] at hv
      obtain ⟨p, -, hp⟩ := map_eq_some_iff.mp hv
      exact absurd (Prod.mk.inj hp).2.symm hst
  refine ⟨?_, ?_, ?_, ?_⟩
  · intro d k u hd hu
    simp only [Dict.get?_set] at hd
    split_ifs at hd with hc
    · cases hd
      exact (hn u hu).2.1
    · exact (h.owned d k u hd hu).trans_le he
  · intro d d' k k' u hd hd' hu hu'
    simp only [Dict.get?_set] at hd hd'
    split_ifs at hd hd' with hc hc' hc'
    · rw [hc, hc']
    · cases hd
      have hl := h.owned d' k' u hd' hu'
      have heq := (hn u hu).1
      omega
    · cases hd'
      have hl := h.owned d k u hd hu
      have heq := (hn u hu').1
      omega
    · exact h.distinct d d' k k' u hd hd' hu hu'
  · intro d u hd i hv
    simp only [Dict.get?_set] at hd
    split_ifs at hd with hc
    · have ha := some.inj hd
      obtain ⟨-, -, had, hf⟩ := hn u (by rw [ha]; rfl)
      obtain ⟨-, hw⟩ := Client.admitted.inj (had.symm.trans ha)
      rw [hf, hw] at hv
      simp at hv
    · exact h.awaiting d u hd i (hold u i .reserved (h.owned d _ u hd rfl) (by decide) hv)
  · intro d k u i hd hu hv
    simp only [Dict.get?_set] at hd
    split_ifs at hd with hc
    · cases hd
      obtain ⟨-, -, -, hf⟩ := hn u hu
      rw [hf] at hv
      obtain ⟨-, hs⟩ := Prod.mk.inj (some.inj hv)
      cases aw <;> simp at hs
    · exact h.reporting d k u i hd hu (hold u i .uncertain (h.owned d k u hd hu) (by decide) hv)

theorem Protocol.step (h : Protocol s) {a : Action} (ht : step s a = some s') : Protocol s' := by
  cases step_cases ht with
  | opens scope | closes scope => exact ⟨h.owned, h.distinct, h.awaiting, h.reporting⟩
  | requests c scope identity tier contributor aw hn =>
    exact h.request c scope identity tier contributor aw
  | proposes c t proposalId hc =>
    have hw := Gate.view_markProposal s.gate t proposalId (h.awaiting c t hc)
    refine h.own hc rfl (Gate.ownStep_markProposal s.gate t proposalId) (clients_keep hc)
      (.inr rfl) ?_ ?_
    · intro _ i
      rw [hw]
      exact h.awaiting c t hc i
    · intro i hi
      rw [hw] at hi
      exact .inr (h.reporting c _ t i hc rfl hi)
  | marks c t hc =>
    refine h.own hc rfl (Gate.ownStep_markRunning s.gate t) (fun c' => Dict.get?_set _ c c' _)
      (.inr rfl) (fun h => by cases h) ?_
    intro i hi
    have ho : (s.gate.view t).isSome = true := by
      have hl := h.owned c _ t hc rfl
      simp [Gate.view, hl]
    obtain ⟨p, hp⟩ := Option.isSome_iff_exists.mp ho
    have hr : (s.gate.markRunning t).view t = some (p.1, .running) :=
      Gate.view_modifyRecord_self hp (fun _ => rfl) (fun _ => rfl)
    rw [hr] at hi
    cases hi
  | replies c t hc =>
    have hv := Gate.view_replyAdmitted s.gate t
    refine h.own hc rfl (Gate.ownStep_replyAdmitted s.gate t) (fun c' => Dict.get?_set _ c c' _)
      ?_ ?_ ?_
    · split_ifs <;> exact .inr rfl
    · intro _ i hi
      obtain hs | ⟨j, hj⟩ := hv
      · exact h.awaiting c t hc i (hs ▸ hi)
      · simp [hj] at hi
    · intro i hi
      obtain hs | ⟨j, hj⟩ := hv
      · have hcl := h.reporting c _ t i hc rfl (hs ▸ hi)
        cases hcl
      · simp [hj] at hi
  | enters c t hc =>
    refine h.own hc rfl (Gate.ownStep_refl s.gate t) (fun c' => Dict.get?_set _ c c' _)
      (.inr rfl) (fun h => by cases h) ?_
    intro i hi
    have hcl := h.reporting c _ t i hc rfl hi
    cases hcl
  | doubts c t hc =>
    exact h.own hc rfl (Gate.ownStep_markUncertain s.gate t) (fun c' => Dict.get?_set _ c c' _)
      (.inr rfl) (fun h => by cases h) (fun _ _ => .inr rfl)
  | retires c cl t result hc hcl =>
    exact h.own hc (token_of_retires hcl) (Gate.ownStep_retire s.gate t (some result))
      (fun c' => Dict.get?_set _ c c' _) (.inl rfl) (fun h => by cases h) (fun _ _ => .inl rfl)
  | resolves c t accepted hc =>
    exact h.own hc rfl (Gate.ownStep_resolveUncertain s.gate t accepted)
      (fun c' => Dict.get?_set _ c c' _) (.inl rfl) (fun h => by cases h) (fun _ _ => .inl rfl)

theorem protocol_init : Protocol {} := by
  refine ⟨?_, ?_, ?_, ?_⟩
  · exact fun c cl t hc => by cases hc
  · exact fun c c' cl cl' t hc => by cases hc
  · exact fun c t hc => by cases hc
  · exact fun c cl t i hc => by cases hc

theorem protocol_of_reaches (h : Reaches step {} s) : Protocol s :=
  h.invariant (fun _ _ _ hu hv => hu.step hv) protocol_init

/-! ### What a step does to somebody else's record -/

theorem displaced_step {a : Action} (hs : step s a = some s') (h : s.gate.Displaced t) :
    s'.gate.Displaced t := by
  cases step_cases hs with
  | opens scope | closes scope => exact h
  | requests c scope identity tier contributor aw hn => exact h.request
  | proposes c u proposalId hc => exact h.apply (.markProposal u proposalId)
  | marks c u hc => exact h.apply (.markRunning u)
  | replies c u hc => exact h.apply (.replyAdmitted u)
  | enters c u hc => exact h
  | doubts c u hc => exact h.apply (.markUncertain u)
  | retires c cl u result hc hl => exact h.apply (.retire u (some result))
  | resolves c u accepted hc => exact h.apply (.resolveUncertain u accepted)

def NoProposal (s : Dispatch) (t : ℕ) : Prop :=
  t < s.gate.heap.length ∧ ∀ i, s.gate.view t ≠ some (i, .proposal)

theorem NoProposal.own (h : s.NoProposal u) (ho : s.gate.OwnStep s'.gate t)
    (ha : s.gate.Advances s'.gate t) : s'.NoProposal u := by
  refine ⟨ho.length ▸ h.1, ?_⟩
  intro i hi
  by_cases hu : u = t
  · subst hu
    obtain hs | ⟨j, st, hj, -, ht⟩ := ha
    · exact h.2 i (hs ▸ hi)
    · rw [hj] at hi
      exact ht (Prod.mk.inj (some.inj hi)).2
  · exact h.2 i (ho.view_ne u hu ▸ hi)

theorem NoProposal.step (h : s.NoProposal u) (hs : Protocol s) {a : Action}
    (ht : step s a = some s') : s'.NoProposal u := by
  cases step_cases ht with
  | opens scope | closes scope => exact h
  | requests c scope identity tier contributor aw hn =>
    refine ⟨h.1.trans_le (s.gate.request_length scope identity tier contributor aw).1, ?_⟩
    intro i hi
    have hk : (s.gate.request scope identity tier contributor aw).1.view u =
        s.gate.view u ∨ (s.gate.request scope identity tier contributor aw).1.view u =
          (s.gate.view u).map (fun p => (p.1, .retired)) := Gate.request_view h.1
    obtain hm | hr := hk
    · exact h.2 i (hm ▸ hi)
    simp only [hr] at hi
    obtain ⟨p, -, hp⟩ := map_eq_some_iff.mp hi
    cases (Prod.mk.inj hp).2
  | proposes c t proposalId hc =>
    exact h.own (Gate.ownStep_markProposal s.gate t proposalId)
      (.inl (Gate.view_markProposal s.gate t proposalId (hs.awaiting c t hc)))
  | marks c t hc => exact h.own (Gate.ownStep_markRunning _ t) (Gate.advances_markRunning _ t)
  | replies c t hc =>
    exact h.own (Gate.ownStep_replyAdmitted _ t) (Gate.advances_replyAdmitted _ t)
  | enters c t hc => exact h
  | doubts c t hc => exact h.own (Gate.ownStep_markUncertain _ t) (Gate.advances_markUncertain _ t)
  | retires c cl t result hc hl =>
    exact h.own (Gate.ownStep_retire _ t _) (Gate.advances_retire _ t _)
  | resolves c t accepted hc =>
    exact h.own (Gate.ownStep_resolveUncertain _ t _) (Gate.advances_resolveUncertain _ t _)

/-- The step does not resolve the uncertain command of token `t`. -/
def LeavesUnresolved (t : ℕ) (s : Dispatch) (a : Action) : Prop :=
  ∀ c accepted, a = .resolveUncertain c accepted → s.clients.get? c ≠ some (.uncertain t)

theorem unresolved_step (hs : Protocol s) {a : Action} (ht : step s a = some s')
    (hl : LeavesUnresolved t s a) (h : s.gate.Unresolved t i) : s'.gate.Unresolved t i := by
  have ho : ∀ {c cl u}, s.clients.get? c = some cl → cl.token = some u → cl ≠ .uncertain t →
      t ≠ u := by
    rintro c cl u hc hu hcl rfl
    exact hcl (hs.reporting c cl t i hc hu h.1)
  cases step_cases ht with
  | opens scope | closes scope => exact h
  | requests c scope identity tier contributor aw hn => exact h.request
  | proposes c u proposalId hc =>
    exact (Gate.ownStep_markProposal _ u _).unresolved (ho hc rfl nofun) h
  | marks c u hc => exact (Gate.ownStep_markRunning _ u).unresolved (ho hc rfl nofun) h
  | replies c u hc => exact (Gate.ownStep_replyAdmitted _ u).unresolved (ho hc rfl nofun) h
  | enters c u hc => exact h
  | doubts c u hc => exact (Gate.ownStep_markUncertain _ u).unresolved (ho hc rfl nofun) h
  | retires c cl u result hc hcl =>
    refine (Gate.ownStep_retire _ u _).unresolved (ho hc (token_of_retires hcl) ?_) h
    obtain ⟨aw, rfl⟩ | rfl | rfl := hcl <;> simp
  | resolves c u accepted hc =>
    have he : t ≠ u := by
      rintro rfl
      exact hl c accepted rfl hc
    exact (Gate.ownStep_resolveUncertain _ u _).unresolved he h

/-- In every reachable state of the dispatcher's clients: a Tier D request joins no record that is a
proposal then or at any later time, and no entry of an act that did not run; a displaced proposal's
reply is refused in every later state; and while a held command is uncertain, every opposing request
is refused until that very command is resolved. -/
theorem tier_d_never_waits (hs : Reaches step {} s) :
    (∀ c scope identity tier contributor aw, tierRank "D" ≤ tierRank tier →
      (s.gate.request scope identity tier contributor aw).2.admission = .joined →
      (∀ t, (s.gate.request scope identity tier contributor aw).2.token = some (.record t) →
        ∀ as s', run step s (.request c scope identity tier contributor aw :: as) = some s' →
          (s'.gate.heap[t]?).map (·.state) ≠ some .proposal) ∧
      ∀ e, (s.gate.request scope identity tier contributor aw).2.token = some (.entry e) →
        e.ran = true) ∧
    (∀ c scope identity tier contributor aw t,
      (s.gate.request scope identity tier contributor aw).2.displaced = some t →
      (s.gate.heap[t]?).map (·.state) = some .proposal →
      ∀ as s', run step s (.request c scope identity tier contributor aw :: as) = some s' →
        (s'.gate.replyAdmitted t).2 = false) ∧
    ∀ t r, s.gate.heap[t]? = some r → r.state = .uncertain →
      s.gate.records.get? r.identity.resourceKey = some t →
      ∀ as s', Meets step (LeavesUnresolved t) s as → run step s as = some s' →
        ∀ scope identity tier contributor aw, opposes r.identity identity = true →
          (s'.gate.request scope identity tier contributor aw).2.admission = .refused := by
  have hprotocol := protocol_of_reaches hs
  refine ⟨?_, ?_, ?_⟩
  · intro c scope identity tier contributor aw hd hjoined
    have houtcome := s.gate.request_outcome scope identity tier contributor aw
    refine ⟨?_, ?_⟩
    · intro t htoken as s' hrun hproposal
      have hclear : t < s.gate.heap.length ∧ ∀ i, s.gate.view t ≠ some (i, .proposal) := by
        obtain ⟨hadm, _⟩ | ⟨_, _, _, _, _, _, _, _, htok, _⟩ | ⟨u, r, hhold, _, hprop, _, htok, _⟩ |
          ⟨_, hadm, _⟩ | ⟨_, _, _, _, _, hadm, _⟩ | ⟨_, _, _, _, _, hadm, _⟩ |
          ⟨_, _, _, _, _, hadm, _⟩ := houtcome
        · simp [hadm] at hjoined
        · simp [htok] at htoken
        · obtain rfl : u = t := Token.record.inj (mem_unique htok htoken)
          obtain ⟨-, hr, -⟩ := Gate.holder_eq_some_iff.mp hhold
          refine ⟨(List.getElem?_eq_some_iff.mp hr).1, ?_⟩
          intro i hi
          simp only [Gate.view, hr, map_some, some.injEq, Prod.mk.injEq] at hi
          have hlow := hprop hi.2
          omega
        all_goals simp [hadm] at hjoined
      have hkeep : ∀ u a v, Protocol u ∧ u.NoProposal t → step u a = some v →
          Protocol v ∧ v.NoProposal t := fun u a v hu hv => ⟨hu.1.step hv, hu.2.step hu.1 hv⟩
      have hinv := run_invariant hkeep ⟨hprotocol, hclear⟩ hrun
      obtain ⟨r, hr, hstate⟩ := map_eq_some_iff.mp hproposal
      exact hinv.2.2 r.identity (by simp [Gate.view, hr, hstate])
    · intro e htoken
      obtain ⟨hadm, _⟩ | ⟨_, e', _, _, _, _, hran, _, htok, _⟩ | ⟨_, _, _, _, _, _, htok, _⟩ |
        ⟨_, hadm, _⟩ | ⟨_, _, _, _, _, hadm, _⟩ | ⟨_, _, _, _, _, hadm, _⟩ |
        ⟨_, _, _, _, _, hadm, _⟩ := houtcome
      · simp [hadm] at hjoined
      · obtain rfl : e' = e := Token.entry.inj (mem_unique htok htoken)
        obtain hran | ⟨hlow, -⟩ := hran
        · exact hran
        · omega
      · simp [htok] at htoken
      all_goals simp [hadm] at hjoined
  · intro c scope identity tier contributor aw t hdisp hproposal as s' hrun
    obtain ⟨u, hu, hrest⟩ := run_cons_eq_some_iff.mp hrun
    have hdisplaced : u.gate.Displaced t := by
      simp only [step] at hu
      split at hu
      · cases hu
      · cases hu
        exact Gate.displaced_of_request hdisp hproposal
    have hkeep : ∀ v a w, v.gate.Displaced t → step v a = some w → w.gate.Displaced t :=
      fun v a w hv hw => displaced_step hw hv
    exact (run_invariant hkeep hdisplaced hrest).reply_refused
  · intro t r hr hstate hcur as s' hleaves hrun scope identity tier contributor aw hopp
    have hstart : s.gate.Unresolved t r.identity := ⟨by simp [Gate.view, hr, hstate], hcur⟩
    have hkeep : ∀ u a v, Protocol u ∧ u.gate.Unresolved t r.identity → LeavesUnresolved t u a →
        step u a = some v → Protocol v ∧ v.gate.Unresolved t r.identity :=
      fun u a v hu hC hv => ⟨hu.1.step hv, unresolved_step hu.1 hv hC hu.2⟩
    have hinv := run_invariant_of_meets hkeep ⟨hprotocol, hstart⟩ hleaves hrun
    exact hinv.2.refuses hopp

/-- A proposal to close is displaced by a trip, whose command is then uncertain. -/
def uncertainTripRun : List Action :=
  [.openScope "first", .request 0 "first" breakerClose "C" recloseContributor true,
   .openScope "second", .request 1 "second" breakerOpen "D" tripContributor false,
   .markRunning 1, .enterExecutor 1, .markUncertain 1]

theorem tier_d_never_waits_trip : ∃ s s', run step {} uncertainTripRun = some s ∧
    run step s [.closeScope "second"] = some s' ∧
    (s'.gate.request "first" breakerClose "D" recloseContributor false).2.admission = .refused := by
  have hrun : ∀ s, run step {} uncertainTripRun = some s → Reaches step {} s := fun s h => ⟨_, h⟩
  refine ⟨_, _, rfl, rfl, ?_⟩
  refine (tier_d_never_waits (hrun _ rfl)).2.2 1 _ rfl rfl rfl [.closeScope "second"] _ ?_ rfl
    "first" breakerClose "D" recloseContributor false rfl
  exact meets_cons (fun _ _ h => by cases h) rfl trivial

end Dispatch

end OriRuntime
