import OriRuntime.TelemetryGate

/-!
# Each firmware message once

While a device's row keeps a key, every message accepted under it is behind the row's mark, and a
key a promotion replaced never returns. So an advance that lands is ahead of all of them.
-/

namespace OriRuntime

open Option

namespace FirmwareStore

variable {k : FirmwareKeys} {st st' : FirmwareStore} {d e : Text} {row row' : FirmwareDevice}
  {bootId seq uptimeMs : ℤ}

/-! ### The mark of a row -/

/-- A message's counters behind a row's mark: not past its sequence or its boot, and, in the row's
own boot, not past the uptime stored with the mark. -/
structure Behind (row : FirmwareDevice) (bootId seq uptimeMs : ℤ) : Prop where
  seq_le : seq ≤ row.lastSeq
  boot_le : bootId ≤ row.lastBootId
  uptime_le : bootId = row.lastBootId → row.lastUptimeMark = some (uptimeMark row) ∧
    ∃ u, row.lastUptimeMs = some u ∧ uptimeMs ≤ u

structure SameMark (row row' : FirmwareDevice) : Prop where
  boot : row'.lastBootId = row.lastBootId
  seq : row'.lastSeq = row.lastSeq
  uptime : row'.lastUptimeMs = row.lastUptimeMs
  mark : row'.lastUptimeMark = row.lastUptimeMark

theorem Behind.of_sameMark (h : Behind row bootId seq uptimeMs) (hk : row'.keyEpochId = row.keyEpochId)
    (hs : SameMark row row') : Behind row' bootId seq uptimeMs := by
  have hmark : uptimeMark row' = uptimeMark row := by
    unfold uptimeMark
    rw [hk, hs.boot, hs.seq]
  refine ⟨hs.seq ▸ h.seq_le, hs.boot ▸ h.boot_le, fun hboot => ?_⟩
  rw [hs.mark, hs.uptime, hmark]
  exact h.uptime_le (hs.boot ▸ hboot)

variable {seq' bootId' uptimeMs' : ℤ} {key : Text} {op : AnchorOp}

theorem Behind.lt_of_advances (h : Behind row bootId seq uptimeMs)
    (ha : advances row bootId' seq' uptimeMs') :
    seq < seq' ∧ bootId ≤ bootId' ∧ (bootId = bootId' → uptimeMs ≤ uptimeMs') := by
  obtain ⟨-, -, hboot, hs, hp⟩ := ha
  refine ⟨h.seq_le.trans_lt hs, h.boot_le.trans hboot, fun heq => ?_⟩
  have hm : bootId = row.lastBootId := by
    have := h.boot_le
    omega
  obtain ⟨hmark, u, hu, hl⟩ := h.uptime_le hm
  rcases hp with ht | hn | ho | ⟨w, hw, hl'⟩
  · omega
  · rw [hu] at hn
    cases hn
  · exact absurd hmark ho
  · obtain rfl := mem_unique hu hw
    exact hl.trans hl'

theorem Behind.advanced (h : Behind row bootId seq uptimeMs)
    (ha : advances row bootId' seq' uptimeMs') :
    Behind (advancedDevice row bootId' seq' uptimeMs') bootId seq uptimeMs := by
  obtain ⟨hs, hboot, hu⟩ := h.lt_of_advances ha
  exact ⟨hs.le, hboot, fun heq => ⟨rfl, uptimeMs', rfl, hu heq⟩⟩

theorem behind_advancedDevice (row : FirmwareDevice) (bootId seq uptimeMs : ℤ) :
    Behind (advancedDevice row bootId seq uptimeMs) bootId seq uptimeMs :=
  ⟨le_refl _, le_refl _, fun _ => ⟨rfl, uptimeMs, rfl, le_refl _⟩⟩

/-! ### What an advance does -/

def faultRow (deviceId keyEpochId : Text) (bootId seq : ℤ) (event : Text) : FirmwareFault where
  deviceId := deviceId
  keyEpochId := keyEpochId
  bootId := bootId
  seq := seq
  event := event

structure Advanced (st st' : FirmwareStore) (d : Text) (bootId seq uptimeMs : ℤ)
    (anchor : AnchorColumns) (activation : Option ℕ) (fault : Option Text)
    (row : FirmwareDevice) : Prop where
  registered : st.registry.get? d = some row
  advances : advances row bootId seq uptimeMs
  columns : row.toAnchorColumns = anchor
  activation : activationId st.transitions d = activation
  registry : Rewrites st st' d (advancedDevice row bootId seq uptimeMs)
  anchors : st'.anchors = st.anchors
  transitions : st'.transitions = st.transitions
  faults : st'.faults = st.faults ++ (fault.map (faultRow d anchor.keyEpochId bootId seq)).toList

theorem advanced_of_advance {anchor : AnchorColumns} {activation : Option ℕ} {fault : Option Text}
    (h : st.advanceFirmwareFreshness d bootId seq uptimeMs anchor activation fault = .advanced st') :
    ∃ row, Advanced st st' d bootId seq uptimeMs anchor activation fault row := by
  unfold advanceFirmwareFreshness at h
  split at h
  · cases h
  rename_i row hr
  by_cases hg : advances row bootId seq uptimeMs ∧ row.toAnchorColumns = anchor ∧
      activationId st.transitions d = activation
  · dsimp only at h
    rw [if_pos hg] at h
    obtain ⟨hd, hc, ha⟩ := hg
    cases fault with
    | none =>
      obtain rfl := Advance.advanced.inj h
      exact ⟨row, hr, hd, hc, ha, rewrites_set rfl, rfl, rfl, (List.append_nil _).symm⟩
    | some event =>
      split_ifs at h with hh
      obtain rfl := Advance.advanced.inj h
      exact ⟨row, hr, hd, hc, ha, rewrites_set rfl, rfl, rfl, rfl⟩
  · dsimp only at h
    rw [if_neg hg] at h
    cases h

theorem not_lost_of_guard {anchor : AnchorColumns} {activation : Option ℕ} {fault : Option Text}
    (hr : st.registry.get? d = some row) (hd : advances row bootId seq uptimeMs)
    (hc : row.toAnchorColumns = anchor)
    (ha : activationId st.transitions d = activation) :
    st.advanceFirmwareFreshness d bootId seq uptimeMs anchor activation fault ≠ .lost := by
  unfold advanceFirmwareFreshness
  rw [hr]
  dsimp only
  rw [if_pos ⟨hd, hc, ha⟩]
  cases fault with
  | none => nofun
  | some event =>
    split_ifs
    · nofun
    · nofun

theorem fault_of_raised {anchor : AnchorColumns} {activation : Option ℕ} {fault : Option Text}
    (h : st.advanceFirmwareFreshness d bootId seq uptimeMs anchor activation fault = .raised) :
    ∃ row, st.registry.get? d = some row ∧ advances row bootId seq uptimeMs ∧
      row.toAnchorColumns = anchor ∧ ∃ f ∈ st.faults, f.deviceId = d ∧
        f.keyEpochId = anchor.keyEpochId ∧ f.bootId = bootId ∧ f.seq = seq := by
  unfold advanceFirmwareFreshness at h
  cases hr : st.registry.get? d with
  | none =>
    rw [hr] at h
    cases h
  | some row =>
    rw [hr] at h
    by_cases hg : advances row bootId seq uptimeMs ∧ row.toAnchorColumns = anchor ∧
        activationId st.transitions d = activation
    · dsimp only at h
      rw [if_pos hg] at h
      cases fault with
      | none => cases h
      | some event =>
        split_ifs at h with hh
        obtain ⟨f, hf, hk⟩ := List.any_eq_true.mp hh
        exact ⟨row, rfl, hg.1, hg.2.1, f, hf, of_decide_eq_true hk⟩
    · dsimp only at h
      rw [if_neg hg] at h
      cases h

variable {anchor : AnchorColumns} {activation : Option ℕ} {fault : Option Text}

theorem Sound.rewrites (hs : Sound k st) (hr : st.registry.get? d = some row)
    (he : Rewrites st st' d row') (hn : st'.anchors = st.anchors)
    (hr' : RowSound st d row → RowSound st d row') : Sound k st' := by
  have hh : ∀ d e a, Held st' d e a ↔ Held st d e a := fun d e a => held_congr hn
  refine ⟨hs.anchors.congr hn, ?_, ?_⟩
  · intro d' e a ha
    rw [he d']
    split_ifs
    · nofun
    · exact hs.registered d' e a ((hh d' e a).mp ha)
  · intro d' row₁ hr₁
    rw [he d'] at hr₁
    split_ifs at hr₁ with hd
    · subst hd
      cases hr₁
      exact (hr' (hs.rows d' row hr)).congr (hh d')
    · exact (hs.rows d' row₁ hr₁).congr (hh d')

theorem Advanced.sound (h : Advanced st st' d bootId seq uptimeMs anchor activation fault row)
    (hs : Sound k st) : Sound k st' :=
  hs.rewrites h.registered h.registry h.anchors (fun hr => { hr with })

theorem Advanced.retired (h : Advanced st st' d bootId seq uptimeMs anchor activation fault row)
    {d' : Text} (hr : Retired k st d' key) : Retired k st' d' key := by
  obtain ⟨e, a, ha, hk⟩ := hr.held
  refine ⟨⟨e, a, (held_congr h.anchors).mpr ha, hk⟩,
    fun e b hb => hr.live e b ((held_congr h.anchors).mp hb), fun row₁ hr₁ => ?_⟩
  rw [h.registry d'] at hr₁
  split_ifs at hr₁ with hd
  · subst hd
    cases hr₁
    exact hr.row row h.registered
  · exact hr.row row₁ hr₁

/-! ### The key of a row -/

/-- Every row's key epoch is that of its key. -/
def RowsKeyed (k : FirmwareKeys) (st : FirmwareStore) : Prop :=
  ∀ d row, st.registry.get? d = some row → k.keyEpochId d row.publicKeyB64 = some row.keyEpochId

theorem Advanced.rowsKeyed (h : Advanced st st' d bootId seq uptimeMs anchor activation fault row)
    (hk : RowsKeyed k st) : RowsKeyed k st' := by
  intro d' row₁ hr₁
  rw [h.registry d'] at hr₁
  split_ifs at hr₁ with hd
  · subst hd
    cases hr₁
    exact hk d' row h.registered
  · exact hk d' row₁ hr₁

theorem Change.rowsKeyed (hs : Function.Injective k.sha256) (h : Sound k st)
    (hc : Change k st st' op) (hk : RowsKeyed k st) : RowsKeyed k st' := by
  intro d row' hr'
  by_cases hd : d ≠ op.deviceId
  · exact hk d row' ((hc.frame hs h hd).1 ▸ hr')
  obtain rfl := not_not.mp hd
  cases hc with
  | kept op he ha => exact hk _ row' (he ▸ hr')
  | registered m atMs keyEpoch epoch hke hep hn he ha =>
    obtain rfl := mem_unique he.self hr'
    exact hke
  | candidate m atMs keyEpoch epoch row row₁ hke hep hr hv hm hidle hr₁ he ha =>
    obtain rfl := mem_unique he.self hr'
    rcases hr₁ with rfl | ⟨rfl, -⟩
    · exact hk _ row₁ hr
    · exact hk _ row hr
  | promoted d' who expected row epoch a hr hv hh hp he ha =>
    obtain rfl := mem_unique he.self hr'
    have hep : k.keyEpochId a.deviceId a.publicKeyB64 = some a.keyEpochId :=
      (h.anchors.epochs epoch a hh.1).2
    rwa [hh.2] at hep
  | revoked d' who row hr he ha | reinstated d' who row hr hv he ha
  | reprovisioned m who keyEpoch epoch row hke hep hr hv hf hn he ha =>
    obtain rfl := mem_unique he.self hr'
    exact hk _ row hr

theorem Change.row_mark (hs : Function.Injective k.sha256) (h : Sound k st)
    (hc : Change k st st' op) (hr : st.registry.get? d = some row) :
    ∃ row', st'.registry.get? d = some row' ∧
      (row'.keyEpochId = row.keyEpochId → SameMark row row') := by
  by_cases hd : d ≠ op.deviceId
  · exact ⟨row, (hc.frame hs h hd).1 ▸ hr, fun _ => ⟨rfl, rfl, rfl, rfl⟩⟩
  obtain rfl := not_not.mp hd
  cases hc with
  | kept op he ha => exact ⟨row, he ▸ hr, fun _ => ⟨rfl, rfl, rfl, rfl⟩⟩
  | registered m atMs keyEpoch epoch hk hep hn he ha =>
    cases hn.symm.trans hr
  | candidate m atMs keyEpoch epoch row₀ row₁ hk hep hr₀ hv hm hidle hr₁ he ha =>
    obtain rfl := mem_unique hr₀ hr
    rcases hr₁ with rfl | ⟨rfl, -⟩
    · exact ⟨row₁, he.self, fun _ => ⟨rfl, rfl, rfl, rfl⟩⟩
    · exact ⟨_, he.self, fun _ => ⟨rfl, rfl, rfl, rfl⟩⟩
  | promoted d' who expected row₀ epoch a hr₀ hv hh hp he ha =>
    obtain rfl := mem_unique hr₀ hr
    refine ⟨_, he.self, fun hk => ?_⟩
    have hf : decide (a.keyEpochId ≠ row₀.keyEpochId) = false := decide_eq_false (not_not.mpr hk)
    unfold promotedDevice
    rw [hf]
    exact ⟨rfl, rfl, rfl, rfl⟩
  | revoked d' who row₀ hr₀ he ha | reinstated d' who row₀ hr₀ hv he ha
  | reprovisioned m who keyEpoch epoch row₀ hk hep hr₀ hv hf hn he ha =>
    obtain rfl := mem_unique hr₀ hr
    exact ⟨_, he.self, fun _ => ⟨rfl, rfl, rfl, rfl⟩⟩

theorem perform_faults (h : st.perform k op = some st') : st'.faults = st.faults := by
  rcases (perform_performed h).shape with ⟨_, _, _, rfl, -⟩ |
    ⟨d, epoch, x, atMs, _, _, -, -, -, rfl⟩
  · rfl
  · obtain ⟨outbox, heq⟩ := reopenConfirmation_shape _ d epoch atMs
    rw [heq]

/-! ### What was accepted under a key -/

/-- A message accepted under a key is behind the mark of the row that still has it, or its key is
gone. -/
def Accounted (k : FirmwareKeys) (st : FirmwareStore) (d key : Text) (bootId seq uptimeMs : ℤ) :
    Prop :=
  (∃ row, st.registry.get? d = some row ∧ row.publicKeyB64 = key ∧ Behind row bootId seq uptimeMs) ∨
    Retired k st d key

theorem Accounted.change (hs : Function.Injective k.sha256) (h : Sound k st) (hk : RowsKeyed k st)
    (hc : Change k st st' op) (hx : Accounted k st d key bootId seq uptimeMs) :
    Accounted k st' d key bootId seq uptimeMs := by
  rcases hx with ⟨row, hr, rfl, hb⟩ | hre
  · obtain ⟨row', hr', hmark⟩ := hc.row_mark hs h hr
    by_cases hke : row'.publicKeyB64 = row.publicKeyB64
    · have he' := hc.rowsKeyed hs h hk d row' hr'
      rw [hke, hk d row hr] at he'
      have he := (some.inj he').symm
      exact .inl ⟨row', hr', hke, hb.of_sameMark he (hmark he)⟩
    · exact .inr (retired_of_replaced hs h hc hr hr' hke)
  · exact .inr (hre.change hs h hc)

theorem Accounted.advanced {d' : Text}
    (h : Advanced st st' d bootId seq uptimeMs anchor activation fault row)
    (hx : Accounted k st d' key bootId' seq' uptimeMs') :
    Accounted k st' d' key bootId' seq' uptimeMs' := by
  rcases hx with ⟨row₁, hr₁, hk, hb⟩ | hr
  · by_cases hd : d' = d
    · subst hd
      obtain rfl := mem_unique h.registered hr₁
      exact .inl ⟨_, h.registry.self, hk, hb.advanced h.advances⟩
    · exact .inl ⟨row₁, (h.registry.other hd).trans hr₁, hk, hb⟩
  · exact .inr (h.retired hr)

theorem Accounted.behind (hx : Accounted k st d key bootId seq uptimeMs)
    (hr : st.registry.get? d = some row) (hk : row.publicKeyB64 = key) :
    Behind row bootId seq uptimeMs := by
  rcases hx with ⟨row₁, hr₁, -, hb⟩ | he
  · obtain rfl := mem_unique hr hr₁
    exact hb
  · exact absurd (congrArg k.keyIdentity hk) (he.row row hr)

end FirmwareStore

end OriRuntime
