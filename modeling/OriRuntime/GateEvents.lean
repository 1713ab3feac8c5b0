import OriRuntime.GateAccounts

/-!
# One act per event and outcome

`Accounts` says how far the attempt of a live client has got and that its accounts are not final.
With it, an event's final entry stays, and a later request of the event is joined to it or refused
unless a holder in flight is in the way.
-/

namespace OriRuntime

open Option

namespace Gate

variable {g g' : Gate} {t u : ℕ} {scope s : String} {identity i : ResourceIdentity} {tier : String}
  {c : Contributor} {awaitsOperator accepted : Bool} {result : Option Bool} {P : Entry → Prop}

/-! ### What an operation leaves of the records -/

theorem modifyRecord_ne (hu : u ≠ t) (f : Record → Record) :
    (g.modifyRecord t f).heap[u]? = g.heap[u]? := by
  simp [Ne.symm hu]

variable {r : Record} {b : Bool}

theorem modifyRecord_self (hr : g.heap[t]? = some r) (f : Record → Record) :
    (g.modifyRecord t f).heap[t]? = some (f r) := by
  rw [modifyRecord_heap, List.getElem?_modify, hr]
  simp

theorem replyAdmitted_ne (hu : u ≠ t) : (g.replyAdmitted t).1.heap[u]? = g.heap[u]? := by
  unfold replyAdmitted
  split
  · rfl
  split_ifs
  · rfl
  · rfl
  · exact modifyRecord_ne hu _

theorem markUncertain_ne (hu : u ≠ t) : (g.markUncertain t).heap[u]? = g.heap[u]? := by
  unfold markUncertain
  split
  · rfl
  · rw [recordEvent_heap, recordEntries_ne hu, modifyRecord_ne hu]

theorem retire_ne (hu : u ≠ t) : (g.retire t result).heap[u]? = g.heap[u]? := by
  unfold retire
  split
  · rfl
  split_ifs
  · rfl
  · rw [release_heap, modifyRecord_ne hu, recordEntries_ne hu, modifyRecord_ne hu]

theorem resolveUncertain_ne (hu : u ≠ t) : (g.resolveUncertain t accepted).heap[u]? = g.heap[u]? := by
  unfold resolveUncertain
  split
  · rfl
  split_ifs
  · rfl
  · rw [recordEvent_heap, release_heap, recordEntries_ne hu, modifyRecord_ne hu]

/-- A request leaves everything of an earlier record that does not depend on its contributors, its
state and its invalidation. -/
theorem request_project {β : Type*} (f : Record → β)
    (hjoin : ∀ r cs, f { r with contributors := cs } = f r)
    (hi : ∀ r, f { r with invalidated := true } = f r)
    (hp : ∀ r, f { r with state := .retired, done := true } = f r)
    (hu : u < g.heap.length) :
    ((g.request scope identity tier c awaitsOperator).1.heap[u]?).map f = (g.heap[u]?).map f := by
  have hm : ∀ (t : ℕ) (k : Record → Record), (∀ r, f (k r) = f r) →
      ((g.heap.modify t k)[u]?).map f = (g.heap[u]?).map f := by
    intro t k hk
    by_cases ht : t = u
    · simp [ht, hk, Function.comp_def]
    · simp [ht]
  rcases g.request_outcome scope identity tier c awaitsOperator with
    ⟨_, hheap⟩ | ⟨_, _, _, _, _, _, _, _, _, hheap⟩ | ⟨t, _, _, _, _, _, _, hheap⟩ |
    ⟨_, _, _, hheap⟩ | ⟨t, _, _, _, _, _, _, hheap⟩ | ⟨t, _, _, _, _, _, _, hheap⟩ |
    ⟨t, _, _, _, _, _, hheap⟩
  · rw [hheap]
  · rw [hheap]
  · rw [hheap, hm t _ (fun r => hjoin r _)]
  · rw [hheap, List.getElem?_append_left hu]
  · rw [hheap, List.getElem?_append_left (by simpa using hu), hm t _ hi]
  · rw [hheap, List.getElem?_append_left (by simpa using hu), hm t _ hp]
  · rw [hheap, hm t _ hp]

/-! ### Attempts that have not ended -/

/-- The executor of attempt `t` was entered or not, and no account of `t` is final. -/
def Open (g : Gate) (t : ℕ) (entered : Bool) : Prop :=
  ∃ r, g.heap[t]? = some r ∧ r.entered = entered ∧
    ∀ s e, r.entries.get? s = some e → e.entered = true ∧ e.ran = false

theorem Open.of_heap_eq (h : Open g t b) (heq : g'.heap[t]? = g.heap[t]?) : Open g' t b := by
  obtain ⟨r, hr, hs⟩ := h
  exact ⟨r, heq.trans hr, hs⟩

theorem Open.request (h : Open g t b) :
    Open (g.request scope identity tier c awaitsOperator).1 t b := by
  obtain ⟨r, hr, hente, hentr⟩ := h
  have hk : ((g.request scope identity tier c awaitsOperator).1.heap[t]?).map
      (fun r => (r.entered, r.entries)) = (g.heap[t]?).map (fun r => (r.entered, r.entries)) :=
    request_project _ (fun _ _ => rfl) (fun _ => rfl) (fun _ => rfl)
      (List.getElem?_eq_some_iff.mp hr).1
  rw [hr] at hk
  obtain ⟨r', hr', he⟩ := map_eq_some_iff.mp hk
  obtain ⟨hn, hs⟩ := Prod.mk.inj he
  exact ⟨r', hr', hn.trans hente, hs ▸ hentr⟩

theorem open_fresh (h : (g.request scope identity tier c awaitsOperator).2.mayExecute = true) :
    Open (g.request scope identity tier c awaitsOperator).1 g.heap.length false :=
  ⟨_, (request_fresh h).1, rfl, fun s e he => by cases he⟩

theorem Open.modifyRecord (h : Open g t b) {f : Record → Record} {b' : Bool}
    (hf : ∀ r, r.entered = b → (f r).entered = b') (hentr : ∀ r, (f r).entries = r.entries) :
    Open (g.modifyRecord t f) t b' := by
  obtain ⟨r, hr, he, ho⟩ := h
  refine ⟨f r, modifyRecord_self hr f, hf r he, ?_⟩
  rw [hentr]
  exact ho

theorem open_replyAdmitted (h : Open g t false) :
    Open (g.replyAdmitted t).1 t (g.replyAdmitted t).2 := by
  unfold replyAdmitted
  split
  · exact h
  split_ifs
  · exact h
  · exact h
  · exact h.modifyRecord (fun _ _ => rfl) (fun _ => rfl)

theorem open_markUncertain (h : Open g t true) : Open (g.markUncertain t) t true := by
  obtain ⟨r, hr, hen, ho⟩ := h
  unfold markUncertain
  rw [hr]
  have hm := modifyRecord_self hr (fun r => { r with state := .uncertain, entered := true })
  have hself : ∃ r', ((g.modifyRecord t (fun r => { r with
      state := .uncertain, entered := true })).recordEntries t false).heap[t]? = some r' ∧
      Recounted false { r with state := .uncertain, entered := true } r' :=
    recordEntries_self hm
  obtain ⟨r', hr', hre⟩ := hself
  refine ⟨r', hr', hre.entered, ?_⟩
  intro s e he
  obtain hold | hn := hre.entries s e he
  · exact ho s e hold
  · rw [hn]
    exact ⟨rfl, rfl⟩

/-! ### What an operation leaves of an event's entries -/

/-- A kind of entry that no account of an open attempt is of. -/
def Final (P : Entry → Prop) : Prop := ∀ e, P e → e.entered = true → e.ran = true

theorem Open.not_final (h : Open g t b) (hP : Final P) :
    ∀ r e, g.heap[t]? = some r → r.entries.get? s = some e → ¬ P e := by
  obtain ⟨r, hr, -, ho⟩ := h
  intro r' e hr' he hPe
  obtain rfl := mem_unique hr hr'
  obtain ⟨hn, ha⟩ := ho s e he
  have ht := hP e hPe hn
  rw [ha] at ht
  cases ht

theorem Left.openScope (h : Left P g s) (scope : String) : Left P (g.openScope scope) s := by
  obtain ⟨entries, hg, he⟩ := h
  refine ⟨entries, ?_, he⟩
  unfold Gate.openScope
  rw [Dict.get?_setdefault]
  split_ifs with hs
  · rw [← hs, hg]
    rfl
  · rw [hg]

theorem Left.closeScope (h : Left P g s) (hs : s ≠ scope) : Left P (g.closeScope scope) s := by
  obtain ⟨entries, hg, he⟩ := h
  exact ⟨entries, (Dict.get?_pop_of_ne _ hs).trans hg, he⟩

theorem Left.replyAdmitted (h : Left P g s) (t : ℕ) : Left P (g.replyAdmitted t).1 s := by
  unfold Gate.replyAdmitted
  split
  · exact h
  · split_ifs
    all_goals exact h

theorem Left.markUncertain (h : Left P g s) (hP : Final P) (ho : Open g t b) :
    Left P (g.markUncertain t) s := by
  unfold Gate.markUncertain
  split
  · exact h
  have hm : Open (g.modifyRecord t (fun r => { r with
      state := .uncertain, entered := true })) t true :=
    ho.modifyRecord (fun _ _ => rfl) (fun _ => rfl)
  exact Left.recordEntries h (hm.not_final hP)

theorem Left.retire (h : Left P g s) (hP : Final P) (ho : Open g t b) (result : Option Bool) :
    Left P (g.retire t result) s := by
  unfold Gate.retire
  split
  · exact h
  split_ifs
  · exact h
  unfold Left
  rw [release_scopes]
  have hm : Open (g.modifyRecord t (fun r => { r with
      result := result, done := true })) t b := ho.modifyRecord (fun _ hr => hr) (fun _ => rfl)
  exact Left.recordEntries h (hm.not_final hP)

theorem Left.resolveUncertain (h : Left P g s) (hP : Final P) (ho : Open g t b) (accepted : Bool) :
    Left P (g.resolveUncertain t accepted) s := by
  unfold Gate.resolveUncertain
  split
  · exact h
  split_ifs
  · exact h
  unfold Left
  rw [recordEvent_scopes, release_scopes]
  have hm : Open (g.modifyRecord t (fun r => { r with
      state := .retired, result := some accepted, done := true })) t b :=
    ho.modifyRecord (fun _ hr => hr) (fun _ => rfl)
  exact Left.recordEntries h (hm.not_final hP)

theorem left_retire (hr : g.heap[t]? = some r) (ht : r.state ≠ .uncertain)
    (hs : s ∈ claimingScopes r) (ho : (g.scopes.get? s).isSome = true) :
    Left (fun e => e = entryFor r s (decide (result = some true))) (g.retire t result) s := by
  unfold Gate.retire
  rw [hr]
  simp only [if_neg ht]
  unfold Left
  rw [release_scopes]
  have hm := modifyRecord_self hr (fun r => { r with result := result, done := true })
  exact left_recordEntries (r := { r with result := result, done := true }) hm hs ho

theorem left_resolveUncertain (hr : g.heap[t]? = some r) (ht : r.state = .uncertain)
    (hs : s ∈ claimingScopes r) (ho : (g.scopes.get? s).isSome = true) :
    Left (fun e => e = entryFor r s accepted) (g.resolveUncertain t accepted) s := by
  unfold Gate.resolveUncertain
  rw [hr]
  simp only [ht, ne_eq, not_true_eq_false, if_false]
  unfold Left
  rw [recordEvent_scopes, release_scopes]
  have hm := modifyRecord_self hr (fun r => { r with
    state := .retired, result := some accepted, done := true })
  exact left_recordEntries (r := { r with
    state := .retired, result := some accepted, done := true }) hm hs ho

end Gate

namespace Dispatch

variable {s s' : Dispatch} {c t u : ℕ} {cl cl' : Client} {scope : String} {P : Entry → Prop}

/-- The attempt of a live client is open, and its executor entered exactly when the client has been
cleared. -/
def Accounts (s : Dispatch) : Prop :=
  ∀ c cl t, s.clients.get? c = some cl → cl.token = some t → s.gate.Open t cl.engaged.isSome

theorem Accounts.own (h : Accounts s) (hp : Protocol s) (hc : s.clients.get? c = some cl)
    (ht : cl.token = some t) (ho : ∀ u, u ≠ t → s'.gate.heap[u]? = s.gate.heap[u]?)
    (hl : ∀ c', s'.clients.get? c' = if c' = c then some cl' else s.clients.get? c')
    (hto : cl'.token = none ∨ cl'.token = some t ∧ s'.gate.Open t cl'.engaged.isSome) :
    Accounts s' := by
  intro d k u hd hu
  rw [hl] at hd
  split_ifs at hd with hdc
  · cases hd
    obtain hno | ⟨hs, hop⟩ := hto
    · rw [hno] at hu
      cases hu
    · obtain rfl : t = u := mem_unique hs hu
      exact hop
  · have hn : u ≠ t := by
      rintro rfl
      exact hdc (hp.distinct d c k cl u hd hc hu ht)
    exact (h d k u hd hu).of_heap_eq (ho u hn)

theorem Accounts.request (h : Accounts s) (c : ℕ) (scope : String) (identity : ResourceIdentity)
    (tier : String) (contributor : Contributor) (aw : Bool) :
    Accounts
      { gate := (s.gate.request scope identity tier contributor aw).1
        clients := s.clients.set c
          (afterRequest (s.gate.request scope identity tier contributor aw).2 aw) } := by
  intro d k u hd hu
  simp only [Dict.get?_set] at hd
  split_ifs at hd with hc
  · cases hd
    obtain ⟨hm, ht, ha⟩ := afterRequest_token hu
    rw [Gate.request_token_of_mayExecute hm] at ht
    obtain rfl := Token.record.inj (some.inj ht)
    rw [ha]
    exact Gate.open_fresh hm
  · exact (h d k u hd hu).request

variable {a : Action}

theorem Accounts.step (h : Accounts s) (hp : Protocol s) (hs : step s a = some s') :
    Accounts s' := by
  cases step_cases hs with
  | opens scope | closes scope => exact h
  | requests c scope identity tier contributor aw hn =>
    exact h.request c scope identity tier contributor aw
  | proposes c t proposalId hc =>
    refine h.own hp hc rfl (fun u hu => Gate.modifyRecord_ne hu _) (clients_keep hc)
      (.inr ⟨rfl, ?_⟩)
    exact (h c _ t hc rfl).modifyRecord (fun _ hr => hr) (fun _ => rfl)
  | marks c t hc =>
    refine h.own hp hc rfl (fun u hu => Gate.modifyRecord_ne hu _)
      (fun c' => Dict.get?_set _ c c' _) (.inr ⟨rfl, ?_⟩)
    exact (h c _ t hc rfl).modifyRecord (fun _ _ => rfl) (fun _ => rfl)
  | replies c t hc =>
    refine h.own hp hc rfl (fun u hu => Gate.replyAdmitted_ne hu)
      (fun c' => Dict.get?_set _ c c' _) (.inr ?_)
    have hop := Gate.open_replyAdmitted (h c _ t hc rfl)
    by_cases ho : (s.gate.replyAdmitted t).2 = true
    · rw [ho] at hop
      rw [if_pos ho]
      exact ⟨rfl, hop⟩
    · rw [if_neg ho]
      rw [Bool.not_eq_true] at ho
      rw [ho] at hop
      exact ⟨rfl, hop⟩
  | enters c t hc =>
    have he := h c _ t hc rfl
    exact h.own hp hc rfl (fun _ _ => rfl) (fun c' => Dict.get?_set _ c c' _)
      (.inr ⟨rfl, he⟩)
  | doubts c t hc =>
    exact h.own hp hc rfl (fun u hu => Gate.markUncertain_ne hu)
      (fun c' => Dict.get?_set _ c c' _)
      (.inr ⟨rfl, Gate.open_markUncertain (h c _ t hc rfl)⟩)
  | retires c cl t result hc hl =>
    exact h.own hp hc (token_of_retires hl) (fun u hu => Gate.retire_ne hu)
      (fun c' => Dict.get?_set _ c c' _) (.inl rfl)
  | resolves c t accepted hc =>
    exact h.own hp hc rfl (fun u hu => Gate.resolveUncertain_ne hu)
      (fun c' => Dict.get?_set _ c c' _) (.inl rfl)

theorem left_step (hP : Gate.Final P) (ha : Accounts s) (hs : step s a = some s')
    (ho : a ≠ .closeScope scope) (h : s.gate.Left P scope) : s'.gate.Left P scope := by
  cases step_cases hs with
  | opens scope' => exact h.openScope scope'
  | closes scope' =>
    refine h.closeScope ?_
    rintro rfl
    exact ho rfl
  | requests c scope identity tier contributor aw hn => exact h.request
  | proposes c t proposalId hc | marks c t hc => exact h
  | replies c t hc => exact h.replyAdmitted t
  | enters c t hc => exact h
  | doubts c t hc => exact h.markUncertain hP (ha c _ t hc rfl)
  | retires c cl t result hc hl => exact h.retire hP (ha c cl t hc (token_of_retires hl)) _
  | resolves c t accepted hc => exact h.resolveUncertain hP (ha c _ t hc rfl) accepted

end Dispatch

end OriRuntime
