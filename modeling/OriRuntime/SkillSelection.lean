import OriRuntime.Dict
import OriRuntime.Execution

/-!
# The skills a deployment names

`skills:` lists names and versions. Each name is resolved to a directory of the deployment or to a
packaged one, every directory resolved is read, and a manifest that disagrees with its entry is a
fault.
-/

namespace OriRuntime

open List Option

open Execution

namespace SkillReload

def maxSkillsPerLoad : ℕ := 64
def maxTriggersPerSkill : ℕ := 64
def maxSensorsPerSkill : ℕ := 32
def maxSubscriptionsPerSkill : ℕ := 256
def maxTotalSubscriptions : ℕ := 1024
def maxSkillNameLength : ℕ := 64

/-! ### Manifests and skills -/

structure Trigger where
  name : String
  deriving DecidableEq

/-- `skill.yaml` as it parses; a required sensor is given by its `type`, when that is a string. -/
structure Manifest where
  name : String
  version : String
  sensorsRequired : List (Option String)
  triggers : List Trigger
  deriving DecidableEq

structure Skill where
  name : String
  version : String
  sensorsRequired : List (Option String)
  triggers : List Trigger
  firstParty : Bool
  deriving DecidableEq

def addSensorType (seen : List String) (sensor : Option String) : List String :=
  match sensor with
  | none => seen
  | some sensorType => if sensorType = "" ∨ sensorType ∈ seen then seen else seen ++ [sensorType]

def uniqueSensorTypes (sensorsRequired : List (Option String)) : List String :=
  match sensorsRequired.foldl addSensorType [] with
  | [] => ["*"]
  | seen => seen

def Skill.subscriptionCost (skill : Skill) : ℕ :=
  skill.triggers.length * (uniqueSensorTypes skill.sensorsRequired).length

inductive LoadError
  | validation
  | anchor
  | security
  | unexpected
  deriving DecidableEq

/-- What the loader is answered by the disk while one selection is loaded. `isDir` is `none` where
the status call fails with an error that `is_dir` does not take for an absence. `read` is asked
last, after a directory may have been replaced: a manifest that was read and parsed, whether it then
lies in a packaged root, and the verdict of the checks of its texts, tiers, signature and hooks. -/
structure SkillDisk where
  isSkillDirectory : List String → Bool
  resolve : List String → List String
  firstPartySkillRoots : List (List String)
  isDir : List String → Option Bool
  read : List String → Except LoadError (Manifest × Bool)
  verdict : List String → Except LoadError Unit

def validateSkillMetadata (raw : Manifest) : Except LoadError Unit :=
  if raw.triggers = [] then .error .validation else .ok ()

def validateWorkloadBudgets (raw : Manifest) : Except LoadError Unit :=
  if raw.triggers.length > maxTriggersPerSkill ∨ raw.sensorsRequired.length > maxSensorsPerSkill ∨
      raw.triggers.length * max raw.sensorsRequired.length 1 > maxSubscriptionsPerSkill then
    .error .validation
  else .ok ()

def loadOne (disk : SkillDisk) (skillDir : List String) : Except LoadError Skill := do
  let (raw, firstParty) ← disk.read skillDir
  validateSkillMetadata raw
  validateWorkloadBudgets raw
  disk.verdict skillDir
  return { name := raw.name, version := raw.version, sensorsRequired := raw.sensorsRequired,
           triggers := raw.triggers, firstParty }

theorem foldl_addSensorType_length (sensors : List (Option String)) (seen : List String) :
    (sensors.foldl addSensorType seen).length ≤ seen.length + sensors.length := by
  induction sensors generalizing seen with
  | nil => exact Nat.le_refl _
  | cons sensor sensors ih =>
    have ho : (addSensorType seen sensor).length ≤ seen.length + 1 := by
      unfold addSensorType
      split
      · omega
      · split_ifs <;> simp
    have hr := ih (addSensorType seen sensor)
    simp only [foldl_cons, length_cons]
    omega

theorem uniqueSensorTypes_ne_nil (sensors : List (Option String)) :
    uniqueSensorTypes sensors ≠ [] := by
  unfold uniqueSensorTypes
  split
  · exact cons_ne_nil _ _
  · assumption

theorem uniqueSensorTypes_length_le (sensors : List (Option String)) :
    (uniqueSensorTypes sensors).length ≤ max sensors.length 1 := by
  unfold uniqueSensorTypes
  split
  · simp
  have h := foldl_addSensorType_length sensors []
  simp only [length_nil, Nat.zero_add] at h
  omega

/-- What a skill that was loaded is known to be: it will be charged for at least one handler, and
for no more than one skill may register. -/
structure Skill.Admitted (skill : Skill) : Prop where
  positive : 0 < skill.subscriptionCost
  bounded : skill.subscriptionCost ≤ maxSubscriptionsPerSkill

variable {disk : SkillDisk} {root : List String} {read selection : List (String × String)}
  {candidates : List (List String)}

theorem loadOne_admitted {skillDir : List String} {skill : Skill}
    (h : loadOne disk skillDir = .ok skill) : skill.Admitted := by
  obtain ⟨⟨raw, firstParty⟩, -, h⟩ := bind_eq_ok_iff.mp h
  obtain ⟨_, hm, h⟩ := bind_eq_ok_iff.mp h
  obtain ⟨_, hbudg, h⟩ := bind_eq_ok_iff.mp h
  obtain ⟨-, -, h⟩ := bind_eq_ok_iff.mp h
  cases h
  have ht : raw.triggers ≠ [] := by
    intro he
    rw [validateSkillMetadata, if_pos he] at hm
    cases hm
  have hb : raw.triggers.length * max raw.sensorsRequired.length 1 ≤ maxSubscriptionsPerSkill := by
    by_contra hover
    rw [validateWorkloadBudgets, if_pos (.inr (.inr (Nat.lt_of_not_le hover)))] at hbudg
    cases hbudg
  refine ⟨Nat.mul_pos (length_pos_iff.mpr ht)
    (length_pos_iff.mpr (uniqueSensorTypes_ne_nil _)), le_trans ?_ hb⟩
  exact Nat.mul_le_mul_left _ (uniqueSensorTypes_length_le raw.sensorsRequired)

/-! ### Resolution -/

structure SelectedSkill where
  name : String
  version : String
  path : List String
  packaged : Bool
  deriving DecidableEq

inductive SelectionFault
  | tooMany (count : ℕ)
  | notSkillName (name : String)
  | namedTwice (name : String)
  | scaffold (name : String)
  | bothPlaces (name : String)
  | nowhere (name : String)
  | changedProvenance (name : String)
  | declaresName (name declared : String)
  | declaresVersion (name version declared : String)
  | didNotLoad (name : String)
  deriving DecidableEq

def isSkillNameChar (c : Char) : Bool := c.isAlphanum || c = '.' || c = '_' || c = '-'

def isSkillName (name : String) : Bool :=
  match name.toList with
  | [] => false
  | c :: cs => c.isAlphanum && cs.all isSkillNameChar && decide (cs.length < maxSkillNameLength)

def casefold (name : String) : List Char := name.toList.map Char.toLower

def isCoreBundledSkill (disk : SkillDisk) (resolved : List String) : Bool :=
  disk.firstPartySkillRoots.any (·.isPrefixOf resolved)

def localSkill (disk : SkillDisk) (root : List String) (name : String) : Option (List String) :=
  -- a directory that is a symbolic link is no skill directory, so resolving keeps the name
  if disk.isSkillDirectory (root ++ [name]) then some (disk.resolve root ++ [name]) else none

def packagedSkill (disk : SkillDisk) (name : String) : Option (List String) :=
  (disk.firstPartySkillRoots.find? fun base => disk.isSkillDirectory (base ++ [name])).map
    (· ++ [name])

def resolveEntry (disk : SkillDisk) (root : List String) (name version : String) :
    Except SelectionFault SelectedSkill :=
  match localSkill disk root name, packagedSkill disk name with
  | some path, packaged =>
    if isCoreBundledSkill disk path then .ok ⟨name, version, path, true⟩
    else if packaged.isSome then .error (.bothPlaces name)
    else .ok ⟨name, version, path, false⟩
  | none, some path => .ok ⟨name, version, path, true⟩
  | none, none => .error (.nowhere name)

structure Resolution where
  resolved : List SelectedSkill
  faults : List SelectionFault
  folded : List (List Char)

def resolveNext (disk : SkillDisk) (root : List String) (r : Resolution)
    (entry : String × String) : Resolution :=
  if isSkillName entry.1 = false then { r with faults := r.faults ++ [.notSkillName entry.1] }
  else if casefold entry.1 ∈ r.folded then { r with faults := r.faults ++ [.namedTwice entry.1] }
  else if entry.1 = "template" then
    { r with folded := casefold entry.1 :: r.folded, faults := r.faults ++ [.scaffold entry.1] }
  else
    match resolveEntry disk root entry.1 entry.2 with
    | .ok selected =>
      { r with folded := casefold entry.1 :: r.folded, resolved := r.resolved ++ [selected] }
    | .error fault =>
      { r with folded := casefold entry.1 :: r.folded, faults := r.faults ++ [fault] }

def resolveSelection (disk : SkillDisk) (selection : List (String × String)) (root : List String) :
    Except (List SelectionFault) (List SelectedSkill) :=
  if selection.length > maxSkillsPerLoad then .error [.tooMany selection.length]
  else
    let r := selection.foldl (resolveNext disk root) ⟨[], [], []⟩
    if r.faults = [] then .ok r.resolved else .error r.faults

theorem resolveEntry_name {name version : String} {selected : SelectedSkill}
    (h : resolveEntry disk root name version = .ok selected) :
    selected.name = name ∧ selected.version = version ∧ ∃ base, selected.path = base ++ [name] := by
  have hl : ∀ path, localSkill disk root name = some path → ∃ base, path = base ++ [name] := by
    intro path hpath
    unfold localSkill at hpath
    split_ifs at hpath with hd
    exact ⟨_, (some.inj hpath).symm⟩
  have hp : ∀ path, packagedSkill disk name = some path → ∃ base, path = base ++ [name] := by
    intro path hpath
    obtain ⟨base, -, hs⟩ := map_eq_some_iff.mp hpath
    exact ⟨base, hs.symm⟩
  unfold resolveEntry at h
  split at h
  · next path hpath =>
    split_ifs at h with hb hboth
    all_goals
      cases h
      exact ⟨rfl, rfl, hl path hpath⟩
  · next path _ hpath =>
    cases h
    exact ⟨rfl, rfl, hp path hpath⟩
  · cases h

def SelectedSkill.selected (entry : SelectedSkill) : String × String := (entry.name, entry.version)

/-- Every entry resolved keeps its own name, which no other does, at the end of its path; with no
fault so far, every entry read was resolved. -/
structure Resolution.Sound (read : List (String × String)) (r : Resolution) : Prop where
  complete : r.faults = [] → r.resolved.map SelectedSkill.selected = read
  distinct : (r.resolved.map (casefold ·.name)).Nodup
  folded : ∀ selected ∈ r.resolved, casefold selected.name ∈ r.folded
  ends : ∀ selected ∈ r.resolved, ∃ base, selected.path = base ++ [selected.name]

variable {r : Resolution}

theorem Resolution.Sound.next (hr : r.Sound read) (disk : SkillDisk) (root : List String)
    (entry : String × String) : (resolveNext disk root r entry).Sound (read ++ [entry]) := by
  have hl : ∀ {fault : SelectionFault}, r.faults ++ [fault] = [] →
      r.resolved.map SelectedSkill.selected = read ++ [entry] :=
    fun h => absurd h (append_ne_nil_of_right_ne_nil _ (cons_ne_nil _ _))
  have hfold : ∀ selected ∈ r.resolved, casefold selected.name ∈ casefold entry.1 :: r.folded :=
    fun selected hm => mem_cons_of_mem _ (hr.folded selected hm)
  unfold resolveNext
  split_ifs with hnm ht hc
  · exact { hr with complete := hl }
  · exact { hr with complete := hl }
  · exact ⟨hl, hr.distinct, hfold, hr.ends⟩
  · split
    · next selected he =>
      obtain ⟨hsm, hv, hends⟩ := resolveEntry_name he
      refine ⟨?_, ?_, ?_, ?_⟩
      · intro hn
        rw [map_append, hr.complete hn, map_singleton, SelectedSkill.selected, hsm, hv]
      · rw [map_append, nodup_append]
        refine ⟨hr.distinct, nodup_singleton _, ?_⟩
        rintro a ha b hb rfl
        obtain ⟨other, ho, hf⟩ := mem_map.mp ha
        rw [map_singleton, mem_singleton, hsm] at hb
        exact ht (hb ▸ hf ▸ hr.folded other ho)
      · intro s hs
        rcases mem_append.mp hs with hs | hs
        · exact hfold s hs
        · rw [mem_singleton.mp hs, hsm]
          exact mem_cons_self
      · intro s hs
        rcases mem_append.mp hs with hs | hs
        · exact hr.ends s hs
        · rw [mem_singleton.mp hs, hsm]
          exact hends
    · exact ⟨hl, hr.distinct, hfold, hr.ends⟩

theorem Resolution.Sound.foldl (hr : r.Sound read) :
    (selection.foldl (resolveNext disk root) r).Sound (read ++ selection) := by
  induction selection generalizing r read with
  | nil => rwa [append_nil]
  | cons entry selection ih =>
    have hn := ih (hr.next disk root entry)
    rwa [append_assoc, singleton_append] at hn

theorem Resolution.Sound.paths_nodup (hr : r.Sound read) :
    (r.resolved.map SelectedSkill.path).Nodup := by
  refine (List.Nodup.of_map _ hr.distinct).map_on ?_
  intro s hs t ht hpath
  obtain ⟨base, hb⟩ := hr.ends s hs
  obtain ⟨base', hb'⟩ := hr.ends t ht
  have hn : s.name = t.name := by
    have hl := congrArg List.getLast? (hb.symm.trans (hpath.trans hb'))
    simpa only [List.getLast?_append, List.getLast?_singleton, some_or, some.injEq] using hl
  exact inj_on_of_nodup_map hr.distinct hs ht (congrArg casefold hn)

theorem resolveSelection_eq_ok {resolved : List SelectedSkill}
    (h : resolveSelection disk selection root = .ok resolved) :
    resolved.map SelectedSkill.selected = selection ∧ (resolved.map SelectedSkill.path).Nodup := by
  have ht : Resolution.Sound [] ⟨[], [], []⟩ :=
    ⟨fun _ => rfl, nodup_nil, fun _ hm => absurd hm not_mem_nil, fun _ hm => absurd hm not_mem_nil⟩
  have hs : Resolution.Sound selection (selection.foldl (resolveNext disk root) ⟨[], [], []⟩) :=
    ht.foldl
  unfold resolveSelection at h
  split_ifs at h with hc
  dsimp only at h
  split_ifs at h with hf
  cases h
  exact ⟨hs.complete hf, hs.paths_nodup⟩

/-! ### Loading -/

def againstEntry (entry : SelectedSkill) (skill : Skill) : Option SelectionFault :=
  if skill.firstParty ≠ entry.packaged then some (.changedProvenance entry.name)
  else if skill.name ≠ entry.name then some (.declaresName entry.name skill.name)
  else if entry.version ≠ "" ∧ skill.version ≠ entry.version then
    some (.declaresVersion entry.name entry.version skill.version)
  else none

structure LoadPass where
  skills : List (List String × Skill)
  seenNames : Dict String (List String)
  subscriptionTotal : ℕ
  faults : List SelectionFault
  disagreeing : List (List String)

def LoadPass.loaded (pass : LoadPass) : Dict (List String) Skill :=
  pass.skills.foldl (fun loaded p => loaded.set p.1 p.2) .empty

def loadCandidate (disk : SkillDisk) (entries : Dict (List String) SelectedSkill) (pass : LoadPass)
    (child : List String) : LoadPass :=
  match loadOne disk child, entries.get? child with
  | .ok skill, some entry =>
    match againstEntry entry skill with
    | some fault =>
      { pass with faults := pass.faults ++ [fault], disagreeing := child :: pass.disagreeing }
    | none =>
      if (pass.seenNames.get? skill.name).isSome then pass
      else if pass.subscriptionTotal + skill.subscriptionCost > maxTotalSubscriptions then pass
      else
        { pass with
          subscriptionTotal := pass.subscriptionTotal + skill.subscriptionCost
          seenNames := pass.seenNames.set skill.name child
          skills := pass.skills ++ [(child, skill)] }
  | _, _ => pass

def loadCandidates (disk : SkillDisk) (entries : Dict (List String) SelectedSkill)
    (candidates : List (List String)) : LoadPass :=
  candidates.foldl (loadCandidate disk entries) ⟨[], .empty, 0, [], []⟩

def entriesOf (resolved : List SelectedSkill) : Dict (List String) SelectedSkill :=
  resolved.foldl (fun entries entry => entries.set entry.path entry) .empty

def packagedFirst (entries : Dict (List String) SelectedSkill) : List (List String) :=
  (entries.items.filter (·.2.packaged) ++ entries.items.filter (!·.2.packaged)).map Prod.fst

def unloadedPackaged (pass : LoadPass) (loaded : Dict (List String) Skill)
    (item : List String × SelectedSkill) : Option SelectionFault :=
  if loaded.get? item.1 = none ∧ item.1 ∉ pass.disagreeing ∧ item.2.packaged then
    some (.didNotLoad item.2.name)
  else none

inductive LoadFailure
  | selection (faults : List SelectionFault)
  | osError
  deriving DecidableEq

def loadSelected (disk : SkillDisk) (selection : List (String × String)) (root : List String) :
    Except LoadFailure (List Skill) :=
  match resolveSelection disk selection root with
  | .error faults => .error (.selection faults)
  | .ok resolved =>
    let entries := entriesOf resolved
    let pass := loadCandidates disk entries (packagedFirst entries)
    let loaded := pass.loaded
    -- naming the directories left out asks whether the root is one, outside any guard
    if disk.isDir root = none then .error .osError
    else
      let faults := pass.faults ++ entries.items.filterMap (unloadedPackaged pass loaded)
      if faults = [] then .ok (entries.items.filterMap fun item => loaded.get? item.1)
      else .error (.selection faults)

/-! ### What was loaded -/

structure LoadPass.Sound (entries : Dict (List String) SelectedSkill)
    (candidates : List (List String)) (pass : LoadPass) : Prop where
  ordered : (pass.skills.map Prod.fst).Sublist candidates
  names : (pass.skills.map (·.2.name)).Nodup
  seen : ∀ p ∈ pass.skills, (pass.seenNames.get? p.2.name).isSome
  total : (pass.skills.map (·.2.subscriptionCost)).sum = pass.subscriptionTotal
  bounded : pass.subscriptionTotal ≤ maxTotalSubscriptions
  admitted : ∀ p ∈ pass.skills, p.2.Admitted
  agrees : ∀ p ∈ pass.skills, ∃ entry, entries.get? p.1 = some entry ∧
    againstEntry entry p.2 = none
  reported : ∀ child ∈ pass.disagreeing, pass.faults ≠ []

theorem againstEntry_eq_none {entry : SelectedSkill} {skill : Skill}
    (h : againstEntry entry skill = none) :
    skill.firstParty = entry.packaged ∧ skill.name = entry.name ∧
      (entry.version ≠ "" → skill.version = entry.version) := by
  unfold againstEntry at h
  split_ifs at h with ha hn hv
  refine ⟨not_not.mp ha, not_not.mp hn, ?_⟩
  intro hp
  by_contra ho
  exact hv ⟨hp, ho⟩

variable {entries : Dict (List String) SelectedSkill} {pass : LoadPass}

theorem LoadPass.Sound.skip (hp : pass.Sound entries candidates) (child : List String) :
    pass.Sound entries (candidates ++ [child]) :=
  { hp with ordered := hp.ordered.trans (sublist_append_left _ _) }

theorem LoadPass.Sound.next (hp : pass.Sound entries candidates) (child : List String) :
    (loadCandidate disk entries pass child).Sound entries (candidates ++ [child]) := by
  unfold loadCandidate
  split
  · next skill entry hs he =>
    split
    · next fault hf =>
      exact { hp.skip child with
        reported := fun _ _ => append_ne_nil_of_right_ne_nil _ (cons_ne_nil _ _) }
    · next hg =>
      split_ifs with hsn hover
      · exact hp.skip child
      · exact hp.skip child
      · refine ⟨?_, ?_, ?_, ?_, Nat.le_of_not_lt hover, ?_, ?_, hp.reported⟩
        · rw [map_append]
          exact hp.ordered.append (List.Sublist.refl _)
        · rw [map_append, nodup_append]
          refine ⟨hp.names, nodup_singleton _, ?_⟩
          rintro a ha b hb rfl
          obtain ⟨p, hm, hn⟩ := mem_map.mp ha
          rw [map_singleton, mem_singleton] at hb
          exact hsn (hb ▸ hn ▸ hp.seen p hm)
        · intro p hm
          rw [Dict.get?_set]
          split_ifs with hn
          · rfl
          rcases mem_append.mp hm with hm | hm
          · exact hp.seen p hm
          · rw [mem_singleton.mp hm] at hn
            exact absurd rfl hn
        · rw [map_append, sum_append, hp.total]
          simp
        · intro p hm
          rcases mem_append.mp hm with hm | hm
          · exact hp.admitted p hm
          · rw [mem_singleton.mp hm]
            exact loadOne_admitted hs
        · intro p hm
          rcases mem_append.mp hm with hm | hm
          · exact hp.agrees p hm
          · rw [mem_singleton.mp hm]
            exact ⟨entry, he, hg⟩
  · exact hp.skip child

theorem loadCandidates_sound (disk : SkillDisk) (entries : Dict (List String) SelectedSkill)
    (candidates : List (List String)) :
    (loadCandidates disk entries candidates).Sound entries candidates := by
  have hs : LoadPass.Sound entries [] ⟨[], .empty, 0, [], []⟩ :=
    ⟨List.Sublist.refl _, nodup_nil, by simp, rfl, Nat.zero_le _, by simp, by simp, by simp⟩
  have hr : ∀ (rest done : List (List String)) (pass : LoadPass), pass.Sound entries done →
      (rest.foldl (loadCandidate disk entries) pass).Sound entries (done ++ rest) := by
    intro rest
    induction rest with
    | nil =>
      intro done pass hpass
      rwa [append_nil]
    | cons child rest ih =>
      intro done pass hpass
      have hn := ih (done ++ [child]) (loadCandidate disk entries pass child) (hpass.next child)
      rwa [append_assoc, singleton_append] at hn
  exact hr candidates [] _ hs

theorem items_entriesOf {resolved : List SelectedSkill}
    (hn : (resolved.map SelectedSkill.path).Nodup) :
    (entriesOf resolved).items = resolved.map fun entry => (entry.path, entry) := by
  have hf : ∀ entry ∈ resolved, entry.path ∉ (Dict.empty : Dict _ SelectedSkill).keys :=
    fun _ _ => not_mem_nil
  rw [entriesOf, Dict.items_foldl_set hn hf]
  rfl

theorem packagedFirst_perm (entries : Dict (List String) SelectedSkill) :
    (packagedFirst entries).Perm entries.keys := by
  have hs := filter_append_perm (fun item : List String × SelectedSkill => item.2.packaged)
    entries.items
  exact hs.map Prod.fst

theorem packagedFirst_nodup (entries : Dict (List String) SelectedSkill) :
    (packagedFirst entries).Nodup :=
  (packagedFirst_perm entries).nodup_iff.mpr entries.nodup

theorem LoadPass.Sound.loaded_items (hp : pass.Sound entries candidates) (hn : candidates.Nodup) :
    pass.loaded.items = pass.skills := by
  have hf : ∀ p ∈ pass.skills, p.1 ∉ (Dict.empty : Dict _ Skill).keys := fun _ _ => not_mem_nil
  rw [LoadPass.loaded, Dict.items_foldl_set (hp.ordered.nodup hn) hf]
  simp [Dict.empty]

theorem LoadPass.Sound.skills_perm (hp : pass.Sound entries (packagedFirst entries)) :
    (entries.items.filterMap fun item => pass.loaded.get? item.1).Perm
      (pass.skills.map Prod.snd) := by
  have hi := hp.loaded_items (packagedFirst_nodup entries)
  have hkeys : pass.loaded.keys.Sublist (packagedFirst entries) := by
    rw [Dict.keys, hi]
    exact hp.ordered
  have ho := Dict.filterMap_get?_of_sublist hkeys (packagedFirst_nodup entries)
  rw [Dict.values, hi] at ho
  have hperm := (packagedFirst_perm entries).symm.filterMap pass.loaded.get?
  rw [ho, Dict.keys, filterMap_map] at hperm
  exact hperm

/-- A load that reports no fault holds every skill it read, each once under its own name, within
the budget, and none of the packaged skills named is missing from it. -/
structure WholeLoad (disk : SkillDisk) (selection : List (String × String)) (root : List String)
    (skills : List Skill) : Prop where
  names : (skills.map Skill.name).Nodup
  admitted : ∀ skill ∈ skills, skill.Admitted
  budget : (skills.map Skill.subscriptionCost).sum ≤ maxTotalSubscriptions
  packaged : ∃ resolved, resolveSelection disk selection root = .ok resolved ∧
    resolved.map SelectedSkill.selected = selection ∧ ∀ entry ∈ resolved, entry.packaged = true →
      ∃ skill ∈ skills, skill.name = entry.name ∧ skill.firstParty = true ∧
        (entry.version ≠ "" → skill.version = entry.version)

theorem loadSelected_whole {skills : List Skill} (h : loadSelected disk selection root = .ok skills) :
    WholeLoad disk selection root skills := by
  unfold loadSelected at h
  split at h
  · cases h
  next resolved hr =>
  dsimp only at h
  split_ifs at h with hroot hf
  have hi := items_entriesOf (resolveSelection_eq_ok hr).2
  have hpass := loadCandidates_sound disk (entriesOf resolved) (packagedFirst (entriesOf resolved))
  generalize loadCandidates disk (entriesOf resolved) (packagedFirst (entriesOf resolved)) = pass
    at h hf hpass
  have hperm := hpass.skills_perm
  rw [Except.ok.inj h] at hperm
  obtain ⟨hnf, hn⟩ := List.append_eq_nil_iff.mp hf
  refine ⟨?_, ?_, ?_, resolved, hr, (resolveSelection_eq_ok hr).1, ?_⟩
  · refine (hperm.map Skill.name).nodup_iff.mpr ?_
    rw [List.map_map]
    exact hpass.names
  · intro skill hs
    obtain ⟨p, hp, rfl⟩ := List.mem_map.mp (hperm.mem_iff.mp hs)
    exact hpass.admitted p hp
  · rw [(hperm.map Skill.subscriptionCost).sum_eq, List.map_map]
    exact hpass.total.trans_le hpass.bounded
  · intro entry he hpa
    have hm : (entry.path, entry) ∈ (entriesOf resolved).items := by
      rw [hi]
      exact List.mem_map_of_mem he
    have hl := List.filterMap_eq_nil_iff.mp hn _ hm
    cases hg : pass.loaded.get? entry.path with
    | none =>
      -- not loaded and not blamed: then it would be a fault of its own
      have hb : entry.path ∈ pass.disagreeing := by
        by_contra ho
        rw [unloadedPackaged, if_pos ⟨hg, ho, hpa⟩] at hl
        cases hl
      exact absurd hnf (hpass.reported _ hb)
    | some skill =>
      have hs : (entry.path, skill) ∈ pass.skills := by
        rw [← hpass.loaded_items (packagedFirst_nodup _)]
        exact Dict.get?_eq_some_iff.mp hg
      obtain ⟨entry', he', ha⟩ := hpass.agrees _ hs
      rw [Dict.get?_eq_some_iff.mpr hm] at he'
      cases he'
      obtain ⟨hpr, hnm, hv⟩ := againstEntry_eq_none ha
      exact ⟨skill, hperm.mem_iff.mpr (List.mem_map_of_mem hs), hnm, hpr.trans hpa, hv⟩

end SkillReload

end OriRuntime
