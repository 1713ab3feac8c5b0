import OriRuntime.DevicePolicyRefresh

/-!
# Versions of the device policy

The version a fetch checks its payload against is the one in force when it was begun, so a policy
applied while it was in flight can be replaced by an older one. In a run in which no fetch was
overtaken so, the versions in force only rise.
-/

namespace OriRuntime

open List Option

open Execution

namespace RemotePolicy

namespace PolicyChecks

variable {k : PolicyChecks}

/-! ### What a payload applied has passed -/

variable {payload : Json} {policy : DevicePolicy}

variable {label : String} {nowS : ℤ}

theorem devicePolicyFromPayload_label (h : k.devicePolicyFromPayload payload label = .ok policy)
    (label' : String) : k.devicePolicyFromPayload payload label' = .ok policy := by
  unfold devicePolicyFromPayload at h ⊢
  split_ifs at h ⊢ with hm
  · cases h
  · exact h

theorem policyVersion_of_payload (h : k.devicePolicyFromPayload payload label = .ok policy) :
    k.toInt (read payload "policy_version") "policy_version" = .ok policy.policyVersion := by
  unfold devicePolicyFromPayload at h
  split_ifs at h with hm
  · cases h
  obtain ⟨validUntil, -, h⟩ := bind_eq_ok_iff.mp h
  obtain ⟨policyVersion, hv, h⟩ := bind_eq_ok_iff.mp h
  obtain ⟨issuedAt, -, h⟩ := bind_eq_ok_iff.mp h
  obtain ⟨sms, -, h⟩ := bind_eq_ok_iff.mp h
  obtain ⟨whatsapp, -, h⟩ := bind_eq_ok_iff.mp h
  rw [hv, ← Except.ok.inj h]

/-- The response of `f` holds the policy `fetched`, every check passed. -/
structure Accepted (k : PolicyChecks) (f : Fetch) (nowS : ℤ) (body : PolicyBody)
    (fetched : FetchedRemotePolicy) : Prop where
  hash : ∀ digest, f.digest = some digest → k.sha256 body = digest
  utf8 : body = .utf8 fetched.rawPayload
  payload : ∃ items, Json.loads Json.uniqueMembers fetched.rawPayload = some (.dict items) ∧
    (∃ timestamp, k.toInt (read (.dict items) "timestamp") "timestamp" = .ok timestamp ∧
      |nowS - timestamp| ≤ f.cfg.maxClockSkewS) ∧
    k.verifySignedPayload (.dict items) f.cfg.publicKeyB64 = true ∧
    k.devicePolicyFromPayload (.dict items) "policy payload" = .ok fetched.policy
  version : f.currentPolicyVersion ≤ fetched.policy.policyVersion

theorem verifyPayload_ok {cfg : RemotePolicyFetchConfig} {current : ℤ}
    (h : k.verifyPayload nowS payload cfg current = .ok policy) :
    (∃ timestamp, k.toInt (read payload "timestamp") "timestamp" = .ok timestamp ∧
      |nowS - timestamp| ≤ cfg.maxClockSkewS) ∧
    k.verifySignedPayload payload cfg.publicKeyB64 = true ∧
    k.devicePolicyFromPayload payload "policy payload" = .ok policy ∧
    current ≤ policy.policyVersion := by
  unfold verifyPayload at h
  split at h <;> rename_i hm
  · cases h
  · obtain ⟨timestamp, ht, h⟩ := bind_eq_ok_iff.mp h
    obtain ⟨policyVersion, hv, h⟩ := bind_eq_ok_iff.mp h
    split at h <;> rename_i hskew
    · cases h
    split at h <;> rename_i hd
    · cases h
    split_ifs at h with hs
    · have hsm := (policyVersion_of_payload h).symm.trans hv
      rw [Except.ok.injEq] at hsm
      refine ⟨⟨timestamp, ht, not_lt.mp hskew⟩, hs, h, ?_⟩
      rw [hsm]
      exact not_lt.mp hd
    · cases h

theorem decodeJsonBody_ok {body : PolicyBody} {raw : Text}
    (h : decodeJsonBody body = .ok (raw, payload)) :
    body = .utf8 raw ∧ ∃ items, payload = .dict items ∧
      Json.loads Json.uniqueMembers raw = some (.dict items) := by
  unfold decodeJsonBody at h
  split at h
  · cases h
  split at h
  · cases h
  · rename_i items hl
    cases h
    exact ⟨rfl, items, rfl, hl⟩
  · cases h

theorem received_ok {f : Fetch} {response : Except RemotePolicyFetchError PolicyBody}
    {fetched : FetchedRemotePolicy} (h : k.received f nowS response = .ok fetched) :
    ∃ body, response = .ok body ∧ Accepted k f nowS body fetched := by
  unfold received at h
  split at h
  · cases h
  rename_i body
  split_ifs at h with hhash
  · cases h
  obtain ⟨⟨raw, payload⟩, hbody, h⟩ := bind_eq_ok_iff.mp h
  obtain ⟨policy, hp, hf⟩ := bind_eq_ok_iff.mp h
  obtain ⟨rfl, items, rfl, hl⟩ := decodeJsonBody_ok hbody
  obtain ⟨hskew, hs, ha, hv⟩ := verifyPayload_ok hp
  cases hf
  refine ⟨_, rfl, ?_, rfl, ⟨items, hl, hskew, hs, ha⟩, hv⟩
  intro digest hd
  by_contra hn
  simp [hd, hn] at hhash

end PolicyChecks

namespace PolicyRuntime

variable {r : PolicyRuntime} {s s' : State}

/-! ### The cache -/

variable {v nowS : ℤ} {l : Label}

theorem mem_keys_of_get? {cache : Dict ℤ CachedPolicy} {row : CachedPolicy}
    (h : cache.get? v = some row) : v ∈ cache.keys := by
  by_contra hn
  rw [Dict.get?_eq_none_iff.mpr hn] at h
  cases h

theorem getLatest_cases (cache : Dict ℤ CachedPolicy) :
    (getLatestDevicePolicyCache cache = none ∧ ∀ v, cache.get? v = none) ∨
    ∃ v row, getLatestDevicePolicyCache cache = some (v, row) ∧ cache.get? v = some row ∧
      ∀ v' row', cache.get? v' = some row' → v' ≤ v := by
  cases hm : cache.keys.max? with
  | none =>
    refine .inl ⟨by rw [getLatestDevicePolicyCache, hm], fun v => ?_⟩
    rw [Dict.get?_eq_none_iff, List.max?_eq_none_iff.mp hm]
    exact not_mem_nil
  | some v =>
    obtain ⟨he, hl⟩ := List.max?_eq_some_iff.mp hm
    cases hr : cache.get? v with
    | none => exact absurd he (Dict.get?_eq_none_iff.mp hr)
    | some row =>
      refine .inr ⟨v, row, ?_, hr, ?_⟩
      · simp only [getLatestDevicePolicyCache, hm, hr, map_some]
      · intro v' row' hg
        exact hl v' (mem_keys_of_get? hg)

/-! ### What a step keeps -/

/-- The policy of a fetch under the configuration's key, cached and read back. -/
def Loadable (r : PolicyRuntime) (fetched : FetchedRemotePolicy) : Prop :=
  ∀ cachedAtMs, r.cachedPolicy ⟨fetched.rawPayload, cachedAtMs⟩ = some fetched.policy

structure Sound (r : PolicyRuntime) (s : State) : Prop where
  key : ∀ id f, s.fetches.get? id = some f → f.cfg.publicKeyB64 = r.devicePolicy.publicKeyB64 ∧
    f.cfg.publicKeyB64 ≠ [] ∧ 0 ≤ f.currentPolicyVersion
  apart : ∀ id f, s.fetches.get? id = some f → s.starting = false ∧ s.writes.get? id = none
  writes : ∀ id fetched, s.writes.get? id = some fetched → Loadable r fetched ∧
    fetched.policy.policyVersion ∈ s.everInForce
  cache : ∀ v row, s.cache.get? v = some row → v ∈ s.everInForce ∧
    ∃ policy, r.cachedPolicy row = some policy ∧ policy.policyVersion = v
  landed : ∀ v ∈ s.everInForce, (∃ row, s.cache.get? v = some row) ∨ v ∈ s.lost ∨
    ∃ id fetched, s.writes.get? id = some fetched ∧ fetched.policy.policyVersion = v
  nonneg : ∀ v ∈ s.everInForce, 0 ≤ v
  last : s.policy.policyVersion = s.handed.getLast?.getD 0
  handed : ∀ v ∈ s.handed, v ∈ s.everInForce
  start : s.starting = true → s.handed = [] ∧ s.policy = DevicePolicy.unrestricted ∧
    s.writes = Dict.empty

theorem policy_nonneg (h : Sound r s) : 0 ≤ s.policy.policyVersion := by
  rw [h.last]
  cases hl : s.handed.getLast? with
  | none => exact le_rfl
  | some v => exact h.nonneg v (h.handed v (mem_of_getLast? hl))

variable {fetched : FetchedRemotePolicy} {id : ℕ}

theorem loadable_of_accepted {f : PolicyChecks.Fetch} {body : PolicyBody}
    (hk : f.cfg.publicKeyB64 = r.devicePolicy.publicKeyB64) (he : f.cfg.publicKeyB64 ≠ [])
    (h : PolicyChecks.Accepted r.checks f nowS body fetched) : Loadable r fetched := by
  intro cachedAtMs
  obtain ⟨items, hl, -, hs, hp⟩ := h.payload
  have hr : fetched.rawPayload ≠ [] := by
    intro hn
    rw [hn] at hl
    cases hl
  unfold cachedPolicy
  rw [if_neg (not_or.mpr ⟨hk ▸ he, hr⟩)]
  simp only [hl]
  rw [← hk, if_pos hs, PolicyChecks.devicePolicyFromPayload_label hp]
  rfl

theorem begin_cases (s : State) (id : ℕ) (cfg : RemotePolicyFetchConfig) (digest : Option Text) :
    begin s id cfg digest = s ∨ cfg.publicKeyB64 ≠ [] ∧ begin s id cfg digest =
      { s with fetches := s.fetches.set id ⟨cfg, digest, s.policy.policyVersion⟩ } := by
  unfold begin
  split
  · exact .inl rfl
  rename_i hv
  refine .inr ⟨?_, rfl⟩
  intro hn
  unfold PolicyChecks.validateFetchConfig at hv
  split_ifs at hv <;> cases hv

theorem sound_begin (h : Sound r s) {cfg : RemotePolicyFetchConfig} {digest : Option Text}
    (hk : cfg.publicKeyB64 = r.devicePolicy.publicKeyB64) (hs : s.starting = false)
    (hf : s.writes.get? id = none) : Sound r (begin s id cfg digest) := by
  obtain hm | ⟨hn, hm⟩ := begin_cases s id cfg digest
  · rw [hm]
    exact h
  · rw [hm]
    refine { h with key := ?_, apart := ?_ }
    · intro id' f hg
      rw [Dict.get?_set] at hg
      split_ifs at hg
      · cases hg
        exact ⟨hk, hn, policy_nonneg h⟩
      · exact h.key id' f hg
    · intro id' f hg
      rw [Dict.get?_set] at hg
      split_ifs at hg with heq
      · exact ⟨hs, heq ▸ hf⟩
      · exact h.apart id' f hg

theorem load_cases (h : Sound r s) : (r.loadCachedDevicePolicy s = s ∧ ∀ v, s.cache.get? v = none) ∨
    ∃ v row policy, s.cache.get? v = some row ∧ r.cachedPolicy row = some policy ∧
      policy.policyVersion = v ∧ (∀ v' row', s.cache.get? v' = some row' → v' ≤ v) ∧
      r.loadCachedDevicePolicy s = updatePolicy s policy := by
  obtain ⟨hl, he⟩ | ⟨v, row, hl, hg, hm⟩ := getLatest_cases s.cache
  · exact .inl ⟨by simp only [loadCachedDevicePolicy, hl], he⟩
  · obtain ⟨-, policy, hp, hv⟩ := h.cache v row hg
    exact .inr ⟨v, row, policy, hg, hp, hv, hm, by simp only [loadCachedDevicePolicy, hl, hp]⟩

theorem sound_updatePolicy (h : Sound r s) {policy : DevicePolicy}
    {writes : Dict ℕ FetchedRemotePolicy}
    (ha : ∀ id f, s.fetches.get? id = some f → writes.get? id = none)
    (hw : ∀ id fetched, writes.get? id = some fetched → Loadable r fetched ∧
      fetched.policy.policyVersion ∈ s.everInForce ++ [policy.policyVersion])
    (hk : ∀ v ∈ s.everInForce ++ [policy.policyVersion], (∃ row, s.cache.get? v = some row) ∨
      v ∈ s.lost ∨ ∃ id fetched, writes.get? id = some fetched ∧ fetched.policy.policyVersion = v)
    (hn : 0 ≤ policy.policyVersion) (ht : s.starting = false) :
    Sound r { updatePolicy s policy with writes := writes } where
  key := h.key
  apart id f hg := ⟨ht, ha id f hg⟩
  writes := hw
  cache v row hg := ⟨mem_append_left _ (h.cache v row hg).1, (h.cache v row hg).2⟩
  landed := hk
  nonneg v hv := by
    obtain hv | hv := mem_append.mp hv
    · exact h.nonneg v hv
    · rwa [mem_singleton.mp hv]
  last := by simp [updatePolicy]
  handed v hv := by
    obtain hv | hv := mem_append.mp hv
    · exact mem_append_left _ (h.handed v hv)
    · exact mem_append_right _ hv
  start hs := by
    rw [show s.starting = true from hs] at ht
    cases ht

theorem sound_load (h : Sound r s) (readFails : Bool) :
    Sound r { (if readFails then s else r.loadCachedDevicePolicy s) with starting := false } := by
  have hstay : Sound r { s with starting := false } :=
    { h with apart := fun id f hg => ⟨rfl, (h.apart id f hg).2⟩, start := nofun }
  split_ifs
  · exact hstay
  obtain ⟨hs, -⟩ | ⟨v, row, policy, hg, -, rfl, -, hs⟩ := load_cases h
  · rw [hs]
    exact hstay
  · rw [hs]
    have hm := (h.cache _ row hg).1
    refine sound_updatePolicy hstay (fun id f hf => (h.apart id f hf).2) ?_ ?_ (h.nonneg _ hm) rfl
    · intro id fetched hw
      exact ⟨(h.writes id fetched hw).1, mem_append_left _ (h.writes id fetched hw).2⟩
    · intro v hv
      obtain hv | hv := mem_append.mp hv
      · exact h.landed v hv
      · rw [mem_singleton.mp hv]
        exact .inl ⟨row, hg⟩

theorem sound_fetches (h : Sound r s) {fetches : Dict ℕ PolicyChecks.Fetch}
    (hk : ∀ id f, fetches.get? id = some f → s.fetches.get? id = some f) :
    Sound r { s with fetches := fetches } :=
  ⟨fun id f hg => h.key id f (hk id f hg), fun id f hg => h.apart id f (hk id f hg),
    h.writes, h.cache, h.landed, h.nonneg, h.last, h.handed, h.start⟩

theorem get?_of_pop {κ ν : Type} [DecidableEq κ] {d : Dict κ ν} {key key' : κ} {v : ν}
    (h : (d.pop key).get? key' = some v) : d.get? key' = some v := by
  rw [Dict.get?_pop] at h
  split_ifs at h
  exact h

theorem sound_applyFetched (h : Sound r s) (hf : s.writes.get? id = none)
    (hd : s.fetches.get? id = none) (hl : Loadable r fetched)
    (hn : 0 ≤ fetched.policy.policyVersion) (hs : s.starting = false) :
    Sound r (applyFetched s id fetched) := by
  refine sound_updatePolicy h ?_ ?_ ?_ hn hs
  · intro id' f hg
    rw [Dict.get?_set_of_ne]
    · exact (h.apart id' f hg).2
    rintro rfl
    rw [hd] at hg
    cases hg
  · intro id' fetched' hg
    rw [Dict.get?_set] at hg
    split_ifs at hg
    · cases hg
      exact ⟨hl, mem_append_right _ (mem_singleton_self _)⟩
    · exact ⟨(h.writes id' fetched' hg).1, mem_append_left _ (h.writes id' fetched' hg).2⟩
  · intro v hv
    obtain hv | hv := mem_append.mp hv
    · obtain hc | ho | ⟨id', fetched', hg, he⟩ := h.landed v hv
      · exact .inl hc
      · exact .inr (.inl ho)
      · refine .inr (.inr ⟨id', fetched', ?_, he⟩)
        rw [Dict.get?_set_of_ne]
        · exact hg
        rintro rfl
        rw [hf] at hg
        cases hg
    · exact .inr (.inr ⟨id, fetched, Dict.get?_set_self _ _ _, (mem_singleton.mp hv).symm⟩)

theorem sound_cached (h : Sound r s) {cachedAtMs : ℤ} (hg : s.writes.get? id = some fetched) :
    Sound r { s with writes := s.writes.pop id
                     cache := upsertDevicePolicyCache s.cache fetched cachedAtMs } where
  key := h.key
  apart id' f hf := by
    refine ⟨(h.apart id' f hf).1, ?_⟩
    rw [Dict.get?_pop, (h.apart id' f hf).2, ite_self]
  writes id' fetched' hw := h.writes id' fetched' (get?_of_pop hw)
  cache v row hr := by
    obtain ⟨hl, hm⟩ := h.writes id fetched hg
    rw [upsertDevicePolicyCache, Dict.get?_set] at hr
    split_ifs at hr with heq
    · cases hr
      exact ⟨heq ▸ hm, fetched.policy, hl cachedAtMs, heq.symm⟩
    · exact h.cache v row hr
  landed v hv := by
    by_cases heq : v = fetched.policy.policyVersion
    · exact .inl ⟨_, by rw [heq, upsertDevicePolicyCache, Dict.get?_set_self]⟩
    obtain ⟨row, hr⟩ | ho | ⟨id', fetched', hw, hve⟩ := h.landed v hv
    · exact .inl ⟨row, by rw [upsertDevicePolicyCache, Dict.get?_set_of_ne _ _ heq, hr]⟩
    · exact .inr (.inl ho)
    · refine .inr (.inr ⟨id', fetched', ?_, hve⟩)
      rw [Dict.get?_pop_of_ne]
      · exact hw
      rintro rfl
      rw [hg, some.injEq] at hw
      exact heq (hw ▸ hve.symm)
  nonneg := h.nonneg
  last := h.last
  handed := h.handed
  start hs := by
    obtain ⟨-, -, he⟩ := h.start hs
    rw [he] at hg
    cases hg

theorem sound_notCached (h : Sound r s) (hg : s.writes.get? id = some fetched) :
    Sound r { s with writes := s.writes.pop id
                     lost := s.lost ++ [fetched.policy.policyVersion] } where
  key := h.key
  apart id' f hf := by
    refine ⟨(h.apart id' f hf).1, ?_⟩
    rw [Dict.get?_pop, (h.apart id' f hf).2, ite_self]
  writes id' fetched' hw := h.writes id' fetched' (get?_of_pop hw)
  cache := h.cache
  landed v hv := by
    obtain hc | hl | ⟨id', fetched', hw, hve⟩ := h.landed v hv
    · exact .inl hc
    · exact .inr (.inl (mem_append_left _ hl))
    · by_cases heq : id' = id
      · subst heq
        rw [hg, some.injEq] at hw
        refine .inr (.inl (mem_append_right _ (mem_singleton.mpr ?_)))
        rw [hw, hve]
      · exact .inr (.inr ⟨id', fetched', by rw [Dict.get?_pop_of_ne _ heq, hw], hve⟩)
  nonneg := h.nonneg
  last := h.last
  handed := h.handed
  start hs := by
    obtain ⟨-, -, he⟩ := h.start hs
    rw [he] at hg
    cases hg

theorem sound_restart (h : Sound r s) :
    Sound r { cache := s.cache, everInForce := s.everInForce
              lost := s.lost ++ s.writes.values.map (fun w => w.policy.policyVersion) } where
  key _ _ hf := by cases hf
  apart _ _ hf := by cases hf
  writes _ _ hw := by cases hw
  cache := h.cache
  landed v hv := by
    obtain hc | hl | ⟨id, fetched, hw, he⟩ := h.landed v hv
    · exact .inl hc
    · exact .inr (.inl (mem_append_left _ hl))
    · refine .inr (.inl (mem_append_right _ (mem_map.mpr ⟨fetched, ?_, he⟩)))
      exact Dict.mem_values_iff.mpr ⟨id, hw⟩
  nonneg := h.nonneg
  last := rfl
  handed _ hv := absurd hv not_mem_nil
  start _ := ⟨rfl, rfl, rfl⟩

theorem sound_empty : Sound r {} where
  key _ _ hf := by cases hf
  apart _ _ hf := by cases hf
  writes _ _ hw := by cases hw
  cache _ _ hr := by cases hr
  landed _ hv := absurd hv not_mem_nil
  nonneg _ hv := absurd hv not_mem_nil
  last := rfl
  handed _ hv := absurd hv not_mem_nil
  start _ := ⟨rfl, rfl, rfl⟩

/-! ### Runs -/

theorem receive_cases {response : Except RemotePolicyFetchError PolicyBody}
    (hs : r.step s (.receive id nowS response) = some s') :
    ∃ f, s.fetches.get? id = some f ∧ ((∃ e, r.checks.received f nowS response = .error e ∧
        s' = { s with fetches := s.fetches.pop id }) ∨
      ∃ body fetched, response = .ok body ∧ r.checks.received f nowS response = .ok fetched ∧
        PolicyChecks.Accepted r.checks f nowS body fetched ∧
        s' = applyFetched { s with fetches := s.fetches.pop id } id fetched) := by
  simp only [step] at hs
  cases hg : s.fetches.get? id with
  | none =>
    rw [hg] at hs
    cases hs
  | some f =>
    simp only [hg] at hs
    refine ⟨f, rfl, ?_⟩
    cases hr : r.checks.received f nowS response with
    | error e =>
      simp only [hr] at hs
      exact .inl ⟨e, rfl, (some.inj hs).symm⟩
    | ok fetched =>
      simp only [hr] at hs
      obtain ⟨body, hbody, ha⟩ := PolicyChecks.received_ok hr
      exact .inr ⟨body, fetched, hbody, rfl, ha, (some.inj hs).symm⟩

theorem refresh_cases (ht : r.step s (.refresh id) = some s') :
    s.starting = false ∧ s.writes.get? id = none ∧ s' = begin s id r.devicePolicy none := by
  simp only [step] at ht
  split_ifs at ht with hbusy
  obtain ⟨-, hs, -, hf⟩ := by simpa only [not_or] using hbusy
  exact ⟨by simpa using hs, by simpa using hf, (some.inj ht).symm⟩

theorem applyReference_cases {url expectedSha256 : Text}
    (ht : r.step s (.applyReference id url expectedSha256) = some s') :
    s.starting = false ∧ s.writes.get? id = none ∧ (s' = s ∨ ∃ refUrl digest,
      s' = begin s id { r.devicePolicy with url := refUrl } (some digest)) := by
  simp only [step] at ht
  split_ifs at ht with hbusy
  obtain ⟨-, hs, -, hf⟩ := by simpa only [not_or] using hbusy
  refine ⟨by simpa using hs, by simpa using hf, ?_⟩
  split at ht
  · exact .inl (some.inj ht).symm
  · exact .inr ⟨_, _, (some.inj ht).symm⟩

theorem sound_step (h : Sound r s) (hstep : r.step s l = some s') : Sound r s' := by
  cases l with
  | load readFails =>
      simp only [step] at hstep
      split at hstep
      · cases hstep
        exact sound_load h readFails
      · cases hstep
  | refresh id =>
      obtain ⟨hstart, hfree, rfl⟩ := refresh_cases hstep
      exact sound_begin h rfl hstart hfree
  | applyReference id url expectedSha256 =>
      obtain ⟨hstart, hfree, rfl | ⟨refUrl, digest, rfl⟩⟩ := applyReference_cases hstep
      · exact h
      · exact sound_begin h rfl hstart hfree
  | receive id nowS response =>
      have hdropped : Sound r { s with fetches := s.fetches.pop id } :=
        sound_fetches h (fun _ _ hget => get?_of_pop hget)
      obtain ⟨f, hget, ⟨e, -, rfl⟩ | ⟨body, fetched, -, -, haccepted, rfl⟩⟩ := receive_cases hstep
      · exact hdropped
      obtain ⟨hkey, hne, hnonneg⟩ := h.key id f hget
      obtain ⟨hstart, hfree⟩ := h.apart id f hget
      exact sound_applyFetched hdropped hfree (Dict.get?_pop_self _ _)
        (loadable_of_accepted hkey hne haccepted) (hnonneg.trans haccepted.version) hstart
  | abandon id =>
      simp only [step] at hstep
      split at hstep
      · cases hstep
      · cases hstep
        exact sound_fetches h (fun _ _ hget => get?_of_pop hget)
  | cached id cachedAtMs =>
      simp only [step] at hstep
      split at hstep
      · cases hstep
      rename_i fetched hget
      split_ifs at hstep
      cases hstep
      exact sound_cached h hget
  | notCached id =>
      simp only [step] at hstep
      split at hstep
      · cases hstep
      rename_i fetched hget
      cases hstep
      exact sound_notCached h hget
  | restart =>
      cases hstep
      exact sound_restart h

theorem sound_of_reaches (h : Reaches r.step {} s) : Sound r s :=
  Reaches.invariant (fun _ _ _ hs ht => sound_step hs ht) sound_empty h

/-- Whether the policy a fetch receives is older than one put in force while the fetch awaited it:
it passes the checks against the version in force when the fetch was begun. -/
def overtaken (r : PolicyRuntime) (s : State) : Label → Bool
  | .receive id nowS response =>
    match s.fetches.get? id with
    | none => false
    | some f =>
      match r.checks.received f nowS response with
      | .error _ => false
      | .ok fetched => decide (fetched.policy.policyVersion < s.policy.policyVersion)
  | _ => false

end PolicyRuntime

end RemotePolicy

end OriRuntime
