import OriRuntime.CommissioningLoader

/-!
# The succession of bindings in force

A row of `commissioned_binding` is added by the write that brings its binding into force and is
never removed, so the rows in order are the succession.
-/

namespace OriRuntime

open List Option

variable {crypto : BindingCrypto} {t₀ t t' : CommissioningTables} {u : Startup} {nowMs : ℤ}

/-- A row without the mark of its retirement. -/
def BindingRow.content (row : BindingRow) : BindingRow := { row with atMs := 0, retiredAtMs := none }

def CommissioningTables.contents (t : CommissioningTables) : List BindingRow :=
  t.rows.map BindingRow.content

/-- The binding of a row was verified, both its legs are proven on every zone, and it is for the
device it was verified for. -/
def VerifiedRow (crypto : BindingCrypto) (row : BindingRow) : Prop :=
  ∃ e ctx b, verifyBindingEnvelope crypto e ctx = .ok b ∧ row.content = b.row ∧
    b.inForceEligible = true ∧ b.zones ≠ []

/-- Only the last row may be unretired, and no `binding_seq` and no hash comes twice. -/
structure StoredTables (t : CommissioningTables) : Prop where
  retired : ∀ row ∈ t.rows.dropLast, row.retiredAtMs ≠ none
  seqs : (t.rows.map BindingRow.bindingSeq).Nodup
  hashes : (t.rows.map BindingRow.canonicalHash).Nodup

/-- Every row the tables `t₀` did not hold was verified. -/
structure SoundTables (crypto : BindingCrypto) (t₀ t : CommissioningTables) : Prop
    extends StoredTables t where
  verified : ∀ row ∈ t.rows, row.content ∈ t₀.contents ∨ VerifiedRow crypto row

theorem storedTables_empty : StoredTables .empty where
  retired _ h := nomatch h
  seqs := nodup_nil
  hashes := nodup_nil

theorem StoredTables.sound (h : StoredTables t) : SoundTables crypto t t :=
  ⟨h, fun _ hr => .inl (mem_map_of_mem hr)⟩

/-! ### Writes -/

theorem retireRow_retired (row : BindingRow) :
    (CommissioningTables.retireRow nowMs row).retiredAtMs ≠ none := by
  unfold CommissioningTables.retireRow
  split_ifs with hr
  · exact some_ne_none _
  · exact hr

@[simp] theorem retireRow_content (row : BindingRow) :
    (CommissioningTables.retireRow nowMs row).content = row.content := by
  unfold CommissioningTables.retireRow
  split <;> rfl

variable {α : Type} {row : BindingRow} {b p : AcceptedBinding} {r : StartupRun}

theorem map_retireRow (f : BindingRow → α) (hf : ∀ row, f row = f row.content)
    (rows : List BindingRow) :
    (rows.map (CommissioningTables.retireRow nowMs)).map f = rows.map f := by
  rw [List.map_map]
  apply List.map_congr_left
  intro row _
  rw [Function.comp_apply, hf, retireRow_content, ← hf]

theorem SoundTables.of_rows (h : SoundTables crypto t₀ t)
    (hw : t'.rows = t.rows.map (CommissioningTables.retireRow nowMs)) : SoundTables crypto t₀ t' where
  retired row ho := by
    rw [hw, ← map_dropLast] at ho
    obtain ⟨r, -, rfl⟩ := mem_map.mp ho
    exact retireRow_retired r
  seqs := by
    rw [hw, map_retireRow _ (fun _ => rfl)]
    exact h.seqs
  hashes := by
    rw [hw, map_retireRow _ (fun _ => rfl)]
    exact h.hashes
  verified row ho := by
    rw [hw] at ho
    obtain ⟨r, hr, rfl⟩ := mem_map.mp ho
    unfold VerifiedRow
    rw [retireRow_content]
    exact h.verified r hr

theorem retainCommissionedBinding_cases (h : t.retainCommissionedBinding row nowMs = some t') :
    t'.rows = t.rows.map (CommissioningTables.retireRow nowMs) ++
        [{ row with atMs := nowMs, retiredAtMs := none }] ∧
      (∃ zones, row.zones = some zones ∧ zones ≠ [] ∧
        zones.all AcceptedZone.inForceEligible = true) ∧
      ∀ r ∈ t.rows, r.bindingSeq ≠ row.bindingSeq ∧ r.canonicalHash ≠ row.canonicalHash := by
  unfold CommissioningTables.retainCommissionedBinding at h
  cases hz : row.zones with
  | none => rw [hz] at h; cases h
  | some zones =>
    rw [hz] at h
    dsimp only at h
    split at h <;> rename_i he
    · cases h
    split_ifs at h with hu
    cases h
    obtain ⟨hn, ha⟩ := not_or.mp he
    refine ⟨rfl, ⟨zones, rfl, hn, Bool.not_eq_false _ ▸ ha⟩, fun r hr => ?_⟩
    exact not_or.mp (fun hs => hu ⟨r, hr, hs⟩)

/-- What a row must be for the write that brings it into force. -/
def WriteVerified (crypto : BindingCrypto) : TableWrite → Prop
  | .retainCommissioned row => ∃ e ctx b, verifyBindingEnvelope crypto e ctx = .ok b ∧ row = b.row
  | _ => True

variable {w : TableWrite}

theorem SoundTables.apply (h : SoundTables crypto t₀ t) (hw : WriteVerified crypto w)
    (ht : w.apply nowMs t = some t') : SoundTables crypto t₀ t' := by
  cases w with
  | retainProvisional row | clearProvisional =>
    cases ht
    exact ⟨{ h with }, h.verified⟩
  | retire =>
    cases ht
    exact h.of_rows rfl
  | retainCommissioned row =>
    obtain ⟨hrw, ⟨zones, hz, hn, hl⟩, hu⟩ := retainCommissionedBinding_cases ht
    obtain ⟨e, ctx, b, hv, rfl⟩ := hw
    obtain rfl : b.zones = zones := some.inj hz
    have hm : SoundTables crypto t₀
        { t with rows := t.rows.map (CommissioningTables.retireRow nowMs) } := h.of_rows rfl
    refine ⟨⟨fun r hr => ?_, ?_, ?_⟩, fun r hr => ?_⟩
    · rw [hrw, dropLast_concat] at hr
      obtain ⟨r', -, rfl⟩ := mem_map.mp hr
      exact retireRow_retired r'
    · rw [hrw, map_append, map_retireRow _ (fun _ => rfl), nodup_append]
      refine ⟨h.seqs, nodup_singleton _, fun a ha c hc => ?_⟩
      obtain ⟨r, hr, rfl⟩ := mem_map.mp ha
      rw [map_singleton, mem_singleton] at hc
      exact hc ▸ (hu r hr).1
    · rw [hrw, map_append, map_retireRow _ (fun _ => rfl), nodup_append]
      refine ⟨h.hashes, nodup_singleton _, fun a ha c hc => ?_⟩
      obtain ⟨r, hr, rfl⟩ := mem_map.mp ha
      rw [map_singleton, mem_singleton] at hc
      exact hc ▸ (hu r hr).2
    · rw [hrw] at hr
      rcases mem_append.mp hr with hr | hr
      · exact hm.verified r hr
      · obtain rfl := mem_singleton.mp hr
        exact .inr ⟨e, ctx, b, hv, rfl, hl, hn⟩

def TableWrite.broughtIntoForce : TableWrite → Option BindingRow
  | .retainCommissioned row => some row.content
  | _ => none

theorem apply_contents (ht : w.apply nowMs t = some t') :
    t'.contents = t.contents ++ w.broughtIntoForce.toList := by
  cases w with
  | retainProvisional row | clearProvisional =>
    cases ht
    exact (append_nil _).symm
  | retire =>
    cases ht
    exact (map_retireRow _ (fun _ => rfl) _).trans (append_nil _).symm
  | retainCommissioned row =>
    obtain ⟨hr, -, -⟩ := retainCommissionedBinding_cases ht
    unfold CommissioningTables.contents
    rw [hr, map_append, map_retireRow _ (fun _ => rfl)]
    rfl

theorem applyWrites_contents (nowMs : ℤ) (ws : List TableWrite) (t : CommissioningTables) :
    ∃ added, added.Sublist (ws.filterMap TableWrite.broughtIntoForce) ∧
      (applyWrites nowMs t ws).1.contents = t.contents ++ added := by
  induction ws generalizing t with
  | nil => exact ⟨[], nil_sublist _, (append_nil _).symm⟩
  | cons w ws ih =>
    unfold applyWrites
    cases hw : w.apply nowMs t with
    | none => exact ⟨[], nil_sublist _, (append_nil _).symm⟩
    | some t₁ =>
      obtain ⟨added, hs, ha⟩ := ih t₁
      refine ⟨w.broughtIntoForce.toList ++ added, ?_, ?_⟩
      · cases hb : w.broughtIntoForce with
        | none =>
          rw [filterMap_cons_none hb]
          exact hs
        | some row =>
          rw [filterMap_cons_some hb]
          exact hs.cons_cons row
      · dsimp only
        rw [ha, apply_contents hw, append_assoc]

theorem SoundTables.of_writes (ws : List TableWrite) (hs : ∀ w ∈ ws, WriteVerified crypto w)
    (h : SoundTables crypto t₀ t) : SoundTables crypto t₀ (applyWrites nowMs t ws).1 := by
  induction ws generalizing t with
  | nil => exact h
  | cons w ws ih =>
    unfold applyWrites
    cases hw : w.apply nowMs t with
    | none => exact h
    | some t₁ =>
      exact ih (fun w' hw' => hs w' (mem_cons_of_mem _ hw')) (h.apply (hs w mem_cons_self) hw)

/-! ### What a startup writes -/

theorem reload_writes (crypto : BindingCrypto) (t : CommissioningTables) (u : Startup) :
    (reload t u).2.filterMap TableWrite.broughtIntoForce = [] ∧ ∀ w ∈ (reload t u).2, WriteVerified crypto w := by
  unfold reload adoptInForce retireIneligible
  generalize readRow t.getCommissionedBindingInForce { actuators := u.actuators } = first
  obtain ⟨retained, s⟩ := first
  dsimp only
  generalize readRow t.provisional s = second
  obtain ⟨provisional, s'⟩ := second
  cases retained with
  | none => exact ⟨rfl, nofun⟩
  | some b =>
    dsimp only
    split <;> rename_i hd
    · exact ⟨rfl, nofun⟩
    split <;> rename_i he
    · cases provisional.isSome with
      | true =>
        refine ⟨rfl, fun w hw => ?_⟩
        obtain rfl := mem_singleton.mp hw
        trivial
      | false =>
        refine ⟨rfl, fun w hw => ?_⟩
        rcases mem_cons.mp hw with rfl | hw
        · trivial
        · obtain rfl := mem_singleton.mp hw
          trivial
    · exact ⟨rfl, nofun⟩

theorem present_cases (crypto : BindingCrypto) (u : Startup) (s : CommissioningState) :
    ((present crypto u s).2 = [] ∧ (present crypto u s).1.inForce = s.inForce) ∨
    ∃ e b, u.presented = .envelope e ∧
      verifyBindingEnvelope crypto e (verifierContext u s.inForce e.binding) = .ok b ∧
      (b.inForceEligible = false ∧ (present crypto u s).2 = [.retainProvisional b.row] ∧
          (present crypto u s).1.inForce = s.inForce ∨
        b.inForceEligible = true ∧
          (present crypto u s).2 = [.retainCommissioned b.row, .clearProvisional] ∧
          (present crypto u s).1.inForce = some b) := by
  unfold present
  cases hp : u.presented with
  | absent =>
    refine .inl ⟨rfl, ?_⟩
    dsimp only
    split <;> rfl
  | unreadable | malformed seq => exact .inl ⟨rfl, rfl⟩
  | breaking seq =>
    refine .inl ⟨rfl, ?_⟩
    dsimp only
    unfold CommissioningState.problemOnce
    split <;> rfl
  | envelope e =>
    dsimp only
    split_ifs with hs
    · exact .inl ⟨rfl, rfl⟩
    cases hv : verifyBindingEnvelope crypto e (verifierContext u s.inForce e.binding) with
    | error refusal => exact .inl ⟨rfl, rfl⟩
    | ok b =>
      refine .inr ⟨e, b, rfl, hv, ?_⟩
      unfold takeAccepted
      dsimp only
      split_ifs with he
      · exact .inl ⟨he, rfl, rfl⟩
      · exact .inr ⟨Bool.not_eq_false _ ▸ he, rfl, rfl⟩

theorem load_verified (crypto : BindingCrypto) (t : CommissioningTables) (u : Startup) :
    ∀ w ∈ (loadCommissioningState crypto t u).2, WriteVerified crypto w := by
  intro w hw
  rcases mem_append.mp hw with hw | hw
  · exact (reload_writes crypto t u).2 w hw
  rcases present_cases crypto u (reload t u).1 with ⟨hn, -⟩ | ⟨e, b, -, hv, ⟨-, hr, -⟩ | ⟨-, hr, -⟩⟩
  · rw [hn] at hw
    cases hw
  · rw [hr] at hw
    obtain rfl := mem_singleton.mp hw
    trivial
  · rw [hr] at hw
    rcases mem_cons.mp hw with rfl | hw
    · exact ⟨e, _, b, hv, rfl⟩
    · obtain rfl := mem_singleton.mp hw
      trivial

/-! ### The binding a startup adopts -/

theorem readRow_inForce (row : Option BindingRow) (s : CommissioningState) :
    (readRow row s).2.inForce = s.inForce := by
  unfold readRow CommissioningState.problemOnce
  cases row with
  | none => rfl
  | some row =>
    dsimp only
    cases row.readable with
    | some b => rfl
    | none =>
      dsimp only
      split <;> rfl

theorem adoptProvisional_inForce (u : Startup) (provisional : Option AcceptedBinding)
    (s : CommissioningState) : (adoptProvisional u provisional s).inForce = s.inForce := by
  unfold adoptProvisional
  cases provisional with
  | none => rfl
  | some b =>
    dsimp only
    split <;> rfl

theorem readRow_readable {row : Option BindingRow} {s : CommissioningState}
    (h : (readRow row s).1 = some b) : ∃ r, row = some r ∧ r.readable = some b := by
  unfold readRow at h
  cases row with
  | none => cases h
  | some row =>
    dsimp only at h
    split at h
    · cases h
    rename_i b' hr
    exact ⟨row, rfl, hr.trans h⟩

theorem adopted_of_reload (h : (reload t u).1.inForce = some p) :
    (∃ row, t.getCommissionedBindingInForce = some row ∧ row.readable = some p) ∧
      p.deviceId = u.deviceId ∧ p.inForceEligible = true ∧ (reload t u).2 = [] := by
  unfold reload adoptInForce at h ⊢
  dsimp only at h ⊢
  have hk : (adoptProvisional u (readRow t.provisional
        (readRow t.getCommissionedBindingInForce { actuators := u.actuators }).2).1
      (readRow t.provisional
        (readRow t.getCommissionedBindingInForce { actuators := u.actuators }).2).2).inForce =
      none := by
    rw [adoptProvisional_inForce, readRow_inForce, readRow_inForce]
  cases hr : (readRow t.getCommissionedBindingInForce { actuators := u.actuators }).1 with
  | none =>
    rw [hr] at h
    exact absurd (hk.symm.trans h) (some_ne_none p).symm
  | some b =>
    rw [hr] at h
    dsimp only at h ⊢
    by_cases hd : b.deviceId ≠ u.deviceId
    · rw [if_pos hd] at h
      exact absurd (hk.symm.trans h) (some_ne_none p).symm
    rw [if_neg hd] at h ⊢
    by_cases he : b.inForceEligible = false
    · rw [if_pos he] at h
      unfold retireIneligible at h
      split at h <;> exact absurd (hk.symm.trans h) (some_ne_none p).symm
    · rw [if_neg he] at h ⊢
      cases h
      exact ⟨readRow_readable hr, not_not.mp hd, Bool.not_eq_false _ ▸ he, rfl⟩

theorem readable_row (h : row.readable = some p) : p.row = row.content := by
  obtain ⟨zones, hz, rfl⟩ := map_eq_some_iff.mp h
  unfold AcceptedBinding.row BindingRow.content
  rw [← hz]

/-! ### At most one row is in force -/

theorem StoredTables.unretired (h : StoredTables t) :
    t.unretired = t.rows.getLast?.toList.filter (fun row => row.retiredAtMs.isNone) := by
  have hr := h.retired
  unfold CommissioningTables.unretired
  rcases eq_nil_or_concat' t.rows with hw | ⟨rows, last, hw⟩
  · rw [hw]
    rfl
  · rw [hw, dropLast_concat] at hr
    rw [hw, filter_append, List.getLast?_concat, filter_eq_nil_iff.mpr fun row ho =>
      by simpa using hr row ho]
    rfl

theorem StoredTables.unretired_length (h : StoredTables t) : t.unretired.length ≤ 1 := by
  rw [h.unretired]
  refine (length_filter_le _ _).trans ?_
  cases t.rows.getLast? <;> simp

theorem StoredTables.inForce_iff (h : StoredTables t) : t.getCommissionedBindingInForce = some row ↔
      t.rows.getLast? = some row ∧ row.retiredAtMs = none := by
  unfold CommissioningTables.getCommissionedBindingInForce
  rw [h.unretired]
  cases t.rows.getLast? with
  | none => simp
  | some last =>
    by_cases hl : last.retiredAtMs = none
    · simp only [toList_some, filter_cons, filter_nil, hl,
        isNone_none, if_true, insertionSort_cons, insertionSort_nil,
        orderedInsert_nil, List.head?_cons]
      exact ⟨fun heq => ⟨heq, some.inj heq ▸ hl⟩, fun heq => heq.1⟩
    · have hs : last.retiredAtMs.isNone = false :=
        Bool.eq_false_iff.mpr (fun h => hl (isNone_iff_eq_none.mp h))
      simp only [toList_some, filter_cons, filter_nil, hs,
        Bool.false_eq_true, if_false, insertionSort_nil, List.head?_nil, reduceCtorEq,
        false_iff, not_and]
      intro heq
      exact some.inj heq ▸ hl

/-! ### Runs -/

/-- The startup verified `b` against the binding it adopted. -/
def ComesIntoForce (crypto : BindingCrypto) (t : CommissioningTables) (u : Startup)
    (b : AcceptedBinding) : Prop :=
  (∃ e, u.presented = .envelope e ∧
    verifyBindingEnvelope crypto e (verifierContext u (reload t u).1.inForce e.binding) = .ok b) ∧
  b.inForceEligible = true ∧ b.deviceId = u.deviceId ∧
  b.supersedes = (reload t u).1.inForce.map AcceptedBinding.canonicalHash ∧
  ((reload t u).1.inForce.map AcceptedBinding.bindingSeq).getD 0 < b.bindingSeq

theorem comesIntoForce {e : BindingEnvelope} (hp : u.presented = .envelope e)
    (hv : verifyBindingEnvelope crypto e
      (verifierContext u (reload t u).1.inForce e.binding) = .ok b)
    (he : b.inForceEligible = true) : ComesIntoForce crypto t u b := by
  obtain ⟨hse, hs, hd⟩ := fresh_of_ok hv
  exact ⟨⟨e, hp, hv⟩, he, hd, hs, hse⟩

theorem load_broughtIntoForce (crypto : BindingCrypto) (t : CommissioningTables) (u : Startup) :
    (loadCommissioningState crypto t u).2.filterMap TableWrite.broughtIntoForce = [] ∨
      ∃ b, ComesIntoForce crypto t u b ∧
        (loadCommissioningState crypto t u).2.filterMap TableWrite.broughtIntoForce = [b.row] := by
  unfold loadCommissioningState
  rw [filterMap_append, (reload_writes crypto t u).1, nil_append]
  rcases present_cases crypto u (reload t u).1 with ⟨hn, -⟩ |
    ⟨e, b, hp, hv, ⟨-, hw, -⟩ | ⟨he, hw, -⟩⟩
  · rw [hn]
    exact .inl rfl
  · rw [hw]
    exact .inl rfl
  · rw [hw]
    exact .inr ⟨b, comesIntoForce hp hv he, rfl⟩

theorem runStartup_contents (h : runStartup crypto t r = some t') : t'.contents = t.contents ∨
      ∃ b, ComesIntoForce crypto t r.startup b ∧ t'.contents = t.contents ++ [b.row] := by
  cases h
  obtain ⟨added, hs, hc⟩ := applyWrites_contents r.startup.nowMs
    ((loadCommissioningState crypto t r.startup).2.take r.writes) t
  have ha := hs.trans ((take_sublist r.writes _).filterMap TableWrite.broughtIntoForce)
  rcases load_broughtIntoForce crypto t r.startup with hn | ⟨b, hb, ho⟩
  · rw [hn] at ha
    rw [sublist_nil.mp ha, append_nil] at hc
    exact .inl hc
  · rw [ho] at ha
    rcases sublist_singleton.mp ha with rfl | rfl
    · rw [append_nil] at hc
      exact .inl hc
    · exact .inr ⟨b, hb, hc⟩

theorem SoundTables.startup (h : SoundTables crypto t₀ t) (hs : runStartup crypto t r = some t') :
    SoundTables crypto t₀ t' := by
  cases hs
  exact h.of_writes _ fun w hw => load_verified crypto t r.startup w (mem_of_mem_take hw)

/-- The row in force, if the store holds any row at all, is adopted. -/
def Adopts (t : CommissioningTables) (r : StartupRun) : Prop :=
  t.rows = [] ∨ (reload t r.startup).1.inForce ≠ none

def Succeeds (prev next : BindingRow) : Prop :=
  prev.bindingSeq < next.bindingSeq ∧ next.supersedes = some prev.canonicalHash

/-- What was added to the tables `t₀` goes on from their last row, one binding after another. -/
def GoesOn (t₀ t : CommissioningTables) : Prop :=
  ∃ added, t.contents = t₀.contents ++ added ∧
    (t₀.contents.getLast?.toList ++ added).IsChain Succeeds

theorem goesOn_refl (t : CommissioningTables) : GoesOn t t := by
  refine ⟨[], (append_nil _).symm, ?_⟩
  cases t.contents.getLast? with
  | none => exact isChain_nil
  | some row => exact isChain_singleton row

theorem getLast?_toList_append (l l' : List α) :
    (l.getLast?.toList ++ l').getLast? = (l ++ l').getLast? := by
  rw [List.getLast?_append, List.getLast?_append]
  cases l.getLast? <;> rfl

theorem contents_getLast? (t : CommissioningTables) :
    t.contents.getLast? = t.rows.getLast?.map BindingRow.content := by
  unfold CommissioningTables.contents
  rw [List.getLast?_map]

theorem GoesOn.startup (h : GoesOn t₀ t) (ho : StoredTables t) (hadop : Adopts t r)
    (ht : runStartup crypto t r = some t') : GoesOn t₀ t' := by
  obtain ⟨added, hcont, hh⟩ := h
  rcases runStartup_contents ht with hsm | ⟨b, hb, hm⟩
  · exact ⟨added, hsm.trans hcont, hh⟩
  refine ⟨added ++ [b.row], by rw [hm, hcont, append_assoc], ?_⟩
  rw [← append_assoc]
  refine isChain_append.mpr ⟨hh, isChain_singleton _, ?_⟩
  intro prev hprev next hn
  obtain rfl : b.row = next := by simpa using hn
  rw [getLast?_toList_append, ← hcont, contents_getLast?] at hprev
  obtain ⟨row, hr, rfl⟩ := map_eq_some_iff.mp hprev
  obtain ⟨-, -, -, hs, hse⟩ := hb
  rcases hadop with he | ha
  · rw [he] at hr
    cases hr
  · obtain ⟨p, hp⟩ := ne_none_iff_exists'.mp ha
    obtain ⟨⟨row', hinForce, hd⟩, -⟩ := adopted_of_reload hp
    obtain rfl : row = row' := mem_unique hr (ho.inForce_iff.mp hinForce).1
    rw [hp] at hs hse
    have hc := readable_row hd
    refine ⟨?_, ?_⟩
    · exact (congrArg BindingRow.bindingSeq hc).symm.trans_lt hse
    · exact hs.trans (congrArg (some ∘ BindingRow.canonicalHash) hc)

end OriRuntime
