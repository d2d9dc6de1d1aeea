/-
  The effective resources are the tightest limits.

  The walks keep the smallest limit so far, zero standing for none.  As no limit is zero, what
  such a walk ends with is the least of the limits it met (`leastOf_foldlM`).  The limits are
  stated about the contents of the files, over the directories from the process's control
  group up to the mount point.
-/
import TosAi.Probe.Walk

set_option autoImplicit false

namespace TosAi.Probe

open Foundation
open Foundation.Json (Bytes)

/-! ## The limits in the files -/

section Limits

variable (read : ResourceRead)

/-- The file holds one number. -/
def NumericLimit (filename d : Bytes) (limit : Nat) : Prop :=
  ∃ data field, read (Path.join d filename) maxCgroupScalarBytes = .ok data ∧
    fields data = [field] ∧ parseUint64 field = some limit

/-- The CPUs a quota allows: their number rounded up, at least one and at most 4096. -/
def quotaCPUs (quota period : Nat) : Nat := max 1 (min maxLogicalCPUs (quota ⌈/⌉ period))

/-- `cpu.max` sets a quota. -/
def V2Quota (d : Bytes) (cpus : Nat) : Prop :=
  ∃ data quotaField periodField quota period,
    read (Path.join d (stringBytes "cpu.max")) maxCgroupScalarBytes = .ok data ∧
    fields data = [quotaField, periodField] ∧ parseUint64 quotaField = some quota ∧
    parseUint64 periodField = some period ∧ cpus = quotaCPUs quota period

/-- `cpu.cfs_quota_us` and `cpu.cfs_period_us` set a quota. -/
def V1Quota (d : Bytes) (cpus : Nat) : Prop :=
  ∃ quotaData periodData quotaField periodField quota period,
    read (Path.join d (stringBytes "cpu.cfs_quota_us")) maxCgroupScalarBytes = .ok quotaData ∧
    read (Path.join d (stringBytes "cpu.cfs_period_us")) maxCgroupScalarBytes = .ok periodData ∧
    fields quotaData = [quotaField] ∧ fields periodData = [periodField] ∧
    parseInt64 quotaField = some quota ∧ 0 < quota ∧ parseUint64 periodField = some period ∧
    cpus = quotaCPUs quota.toNat period

/-- `cpuset.cpus` is there and empty. -/
def EmptySet (d : Bytes) : Prop :=
  ∃ data, read (Path.join d (stringBytes "cpuset.cpus")) maxCgroupScalarBytes = .ok data ∧
    trimSpace data = []

/-- `cpuset.cpus` names so many CPUs. -/
def NamedSet (filename d : Bytes) (cpus : Nat) : Prop :=
  ∃ data, read (Path.join d filename) maxCgroupScalarBytes = .ok data ∧ trimSpace data ≠ [] ∧
    parseCPUSet data = some cpus

/-- The nearest set that is not empty, going up. -/
def NearestSet (dirs : List Bytes) (cpus : Nat) : Prop :=
  ∃ below d above, dirs = below ++ d :: above ∧ (∀ b ∈ below, EmptySet read b) ∧
    NamedSet read (stringBytes "cpuset.cpus") d cpus

/-- The directories of a controller's own hierarchy, the process's first. -/
def OwnPath (mounts : List CgroupMount) (controller : Bytes) (own : Option Bytes)
    (dirs : List Bytes) : Prop :=
  ∃ path mount current, own = some path ∧
    selectCgroupMount mounts 1 controller path = some (mount, current) ∧
    dirs = directories mount.point current

/-- The directories of the unified hierarchy, where the controller has none of its own. -/
def UnifiedPath (mounts : List CgroupMount) (memberships : CgroupMemberships) (own : Option Bytes)
    (current : Bytes) (dirs : List Bytes) : Prop :=
  ∃ path mount, own = none ∧ memberships.unified = some path ∧
    selectCgroupMount mounts 2 [] path = some (mount, current) ∧
    dirs = directories mount.point current

variable (mounts : List CgroupMount) (memberships : CgroupMemberships)

/-- The memory limits that apply. -/
def memoryLimits : Set Nat :=
  { limit | (∃ dirs, OwnPath mounts (stringBytes "memory") memberships.memory dirs ∧
      ∃ d ∈ dirs, NumericLimit read (stringBytes "memory.limit_in_bytes") d limit) ∨
    ∃ current dirs, UnifiedPath mounts memberships memberships.memory current dirs ∧
      ∃ d ∈ dirs, NumericLimit read (stringBytes "memory.max") d limit }

/-- The CPUs the quotas that apply allow. -/
def quotaLimits : Set Nat :=
  { cpus | (∃ dirs, OwnPath mounts (stringBytes "cpu") memberships.cpu dirs ∧
    ∃ d ∈ dirs, V1Quota read d cpus) ∨
    ∃ current dirs, UnifiedPath mounts memberships memberships.cpu current dirs ∧
    ∃ d ∈ dirs, V2Quota read d cpus }

/-- The size of the set that applies. -/
def setLimits : Set Nat :=
  { cpus | (∃ dirs, OwnPath mounts (stringBytes "cpuset") memberships.cpuset dirs ∧
    NearestSet read dirs cpus) ∨
    ∃ current dirs, UnifiedPath mounts memberships memberships.cpuset current dirs ∧
      NamedSet read (stringBytes "cpuset.cpus.effective") current cpus }

/-- The paths that are walked up. -/
def Walked (dirs : List Bytes) : Prop :=
  OwnPath mounts (stringBytes "memory") memberships.memory dirs ∨
    OwnPath mounts (stringBytes "cpu") memberships.cpu dirs ∨
    OwnPath mounts (stringBytes "cpuset") memberships.cpuset dirs ∨
    (∃ current, UnifiedPath mounts memberships memberships.memory current dirs) ∨
    ∃ current, UnifiedPath mounts memberships memberships.cpu current dirs

end Limits

/-! ## The least limit of a walk -/

/-- The least of the limits, zero if there is none. -/
def LeastOf (S : Set Nat) (m : Nat) : Prop := (m = 0 ∧ S = ∅) ∨ (m ≠ 0 ∧ IsLeast S m)

theorem LeastOf.lower {S : Set Nat} {m limit : Nat} (h : LeastOf S m) (hlimit : limit ≠ 0) :
    LeastOf (insert limit S) (lower m limit) := by
  rcases h with ⟨rfl, rfl⟩ | ⟨hm, hleast⟩
  · exact .inr ⟨by simpa [Probe.lower] using hlimit, by simp [Probe.lower, isLeast_singleton]⟩
  · have hmin : Probe.lower m limit = min limit m := by
      simp only [Probe.lower, hm, false_or]
      split <;> omega
    rw [hmin]
    exact .inr ⟨by omega, hleast.insert limit⟩

/-- The limit of a walk and the one there was before it. -/
theorem LeastOf.tighten {S : Set Nat} {m : Nat} (h : LeastOf S m) (system : Nat) :
    IsLeast (insert system S) (if (m != 0) = true ∧ m < system then m else system) := by
  rcases h with ⟨rfl, rfl⟩ | ⟨hm, hleast⟩
  · simp [isLeast_singleton]
  · have hmin : (if (m != 0) = true ∧ m < system then m else system) = min system m := by
      simp only [bne_iff_ne, ne_eq, hm, not_false_eq_true, true_and]
      split <;> omega
    rw [hmin]
    exact hleast.insert system

section Folds

variable {limitAt : Bytes → Option (Option Nat)} {dirs : List Bytes} {m m' : Nat} {S : Set Nat}

/-- What the directories of a list set. -/
def limitsOf (limitAt : Bytes → Option (Option Nat)) (dirs : List Bytes) : Set Nat :=
  { limit | ∃ d ∈ dirs, limitAt d = some (some limit) }

theorem limitsOf_cons (d : Bytes) (dirs : List Bytes) :
    limitsOf limitAt (d :: dirs) = { limit | limitAt d = some (some limit) } ∪
      limitsOf limitAt dirs := by
  ext limit
  simp [limitsOf]

/-- **The walk for the smallest limit.**  The induction is on the directories; what was met
before them is `S`. -/
theorem leastOf_foldlM (hpositive : ∀ d limit, limitAt d = some (some limit) → limit ≠ 0)
    (hleast : LeastOf S m) (h : dirs.foldlM (visitLimit limitAt) m = some m') :
    LeastOf (limitsOf limitAt dirs ∪ S) m' := by
  induction dirs generalizing m S with
  | nil =>
    cases h
    simpa [limitsOf] using hleast
  | cons d dirs ih =>
    rw [List.foldlM_cons, Option.bind_eq_bind, Option.bind_eq_some_iff] at h
    obtain ⟨middle, hvisit, hrest⟩ := h
    simp only [visitLimit, Option.map_eq_some_iff] at hvisit
    obtain ⟨found, hfound, rfl⟩ := hvisit
    rw [limitsOf_cons, Set.union_assoc, Set.union_left_comm]
    cases found with
    | none =>
      refine ih ?_ hrest
      simpa [hfound] using hleast
    | some limit =>
      refine ih ?_ hrest
      have hset : { l | limitAt d = some (some l) } = {limit} := by
        ext l
        simp [hfound, eq_comm]
      rw [hset, Set.singleton_union]
      exact hleast.lower (hpositive d limit hfound)

/-- A walk that ends met no error. -/
theorem limitAt_isSome (h : dirs.foldlM (visitLimit limitAt) m = some m') {d : Bytes}
    (hd : d ∈ dirs) : ∃ found, limitAt d = some found := by
  induction dirs generalizing m with
  | nil => cases hd
  | cons e dirs ih =>
    rw [List.foldlM_cons, Option.bind_eq_bind, Option.bind_eq_some_iff] at h
    obtain ⟨middle, hvisit, hrest⟩ := h
    rcases List.mem_cons.mp hd with rfl | hd
    · simp only [visitLimit, Option.map_eq_some_iff] at hvisit
      obtain ⟨found, hfound, -⟩ := hvisit
      exact ⟨found, hfound⟩
    · exact ih hrest hd

/-- Where the walk ends, its limits are those of a notion that agrees with every directory that
is not in error. -/
theorem leastOf_walk {Sets : Bytes → Nat → Prop}
    (hpositive : ∀ d limit, limitAt d = some (some limit) → limit ≠ 0)
    (hsets : ∀ d found, limitAt d = some found → ∀ limit, found = some limit ↔ Sets d limit)
    (h : dirs.foldlM (visitLimit limitAt) 0 = some m') :
    LeastOf { limit | ∃ d ∈ dirs, Sets d limit } m' := by
  have hleast := leastOf_foldlM hpositive (S := ∅) (.inl ⟨rfl, rfl⟩) h
  rw [Set.union_empty] at hleast
  convert hleast using 1
  ext limit
  simp only [limitsOf, Set.mem_ofPred_eq]
  constructor
  · rintro ⟨d, hd, hset⟩
    obtain ⟨found, hfound⟩ := limitAt_isSome h hd
    exact ⟨d, hd, by rw [hfound, (hsets d found hfound limit).mpr hset]⟩
  · rintro ⟨d, hd, hlimit⟩
    exact ⟨d, hd, (hsets d _ hlimit limit).mp rfl⟩

end Folds

/-! ## What the files set -/

variable {found : Option Nat}

section Files

variable {read : ResourceRead}

theorem ceilDiv_eq {quota period : Nat} (h : 0 < period) :
    quota ⌈/⌉ period = if quota % period ≠ 0 then quota / period + 1 else quota / period := by
  have hsplit : quota + period - 1 = quota % period + period - 1 + period * (quota / period) := by
    have hdiv := Nat.div_add_mod quota period
    omega
  have hlt := Nat.mod_lt quota h
  rw [Nat.ceilDiv_eq_add_pred_div, hsplit, Nat.add_mul_div_left _ _ h]
  split
  · rw [Nat.div_eq_of_lt_le (k := 1) (by omega) (by omega), Nat.add_comm]
  · rw [Nat.div_eq_of_lt (by omega), Nat.zero_add]

theorem quotaCPUCount_eq {quota period : Nat} (h : period ≠ 0) :
    quotaCPUCount quota period = quotaCPUs quota period := by
  rw [quotaCPUCount, quotaCPUs, ceilDiv_eq (Nat.pos_of_ne_zero h), maxLogicalCPUs]
  generalize (if quota % period ≠ 0 then quota / period + 1 else quota / period) = count
  split_ifs <;> omega

theorem quotaCPUs_ne_zero (quota period : Nat) : quotaCPUs quota period ≠ 0 := by
  simp only [quotaCPUs]
  omega

theorem parseUint64_max : parseUint64 (stringBytes "max") = none := by decide +kernel

variable {allowMax requireFile : Bool} {d filename : Bytes}

theorem parseMemoryLimit_eq {data : Bytes}
    (h : parseMemoryLimit data allowMax = some found) (limit : Nat) :
    found = some limit ↔ ∃ field, fields data = [field] ∧ parseUint64 field = some limit := by
  rw [parseMemoryLimit] at h
  split at h
  · rename_i field hfields
    split_ifs at h with hmax
    · cases h
      simp [hfields, hmax.2, parseUint64_max]
    · simp only [Option.bind_eq_some_iff, Option.ite_none_left_eq_some, Option.some.injEq] at h
      obtain ⟨value, hvalue, -, rfl⟩ := h
      simp [hfields, hvalue]
  · cases h

theorem memoryLimitAt_eq
    (h : memoryLimitAt filename allowMax requireFile read d = some found) (limit : Nat) :
    found = some limit ↔ NumericLimit read filename d limit := by
  rw [memoryLimitAt] at h
  simp only [NumericLimit]
  cases hread : read (Path.join d filename) maxCgroupScalarBytes with
  | error e =>
    simp only [hread, Option.ite_none_right_eq_some, Option.some.injEq] at h
    simp [← h.2]
  | ok data =>
    rw [hread] at h
    simpa using parseMemoryLimit_eq h limit

theorem memoryLimitAt_positive (d : Bytes) (limit : Nat)
    (h : memoryLimitAt filename allowMax requireFile read d = some (some limit)) : limit ≠ 0 := by
  rw [memoryLimitAt] at h
  split at h
  · simp at h
  · rw [parseMemoryLimit] at h
    split at h
    · split_ifs at h
      · cases h
      · simp only [Option.bind_eq_some_iff, Option.ite_none_left_eq_some, Option.some.injEq] at h
        obtain ⟨value, -, hvalue, rfl⟩ := h
        exact hvalue
    · cases h

/-- A quota that `cpu.max` sets, or none. -/
theorem v2QuotaAt_eq (h : v2QuotaAt read d = some found) (cpus : Nat) :
    found = some cpus ↔ V2Quota read d cpus := by
  rw [v2QuotaAt] at h
  simp only [V2Quota]
  cases hread : read (Path.join d (stringBytes "cpu.max")) maxCgroupScalarBytes with
  | error e =>
    simp only [hread, Option.ite_none_right_eq_some, Option.some.injEq] at h
    simp [← h.2]
  | ok data =>
    simp only [hread, parseCPUMax] at h
    split at h
    · rename_i quotaField periodField hfields
      simp only [Option.bind_eq_some_iff] at h
      obtain ⟨period, hperiod, h⟩ := h
      split_ifs at h with hzero hmax
      · cases h
        simp [hfields, hmax, parseUint64_max]
      · simp only [Option.bind_eq_some_iff, Option.ite_none_left_eq_some, Option.some.injEq] at h
        obtain ⟨quota, hquota, -, rfl⟩ := h
        simp [hfields, hquota, hperiod, quotaCPUCount_eq hzero, eq_comm]
    · cases h

theorem v2QuotaAt_positive (d : Bytes) (cpus : Nat) (h : v2QuotaAt read d = some (some cpus)) :
    cpus ≠ 0 := by
  obtain ⟨_, _, _, quota, period, -, -, -, -, rfl⟩ := (v2QuotaAt_eq h cpus).mp rfl
  exact quotaCPUs_ne_zero quota period

/-- A quota that the two files set, or none. -/
theorem v1QuotaAt_eq (h : v1QuotaAt read d = some found) (cpus : Nat) :
    found = some cpus ↔ V1Quota read d cpus := by
  rw [v1QuotaAt] at h
  simp only [V1Quota]
  cases hquotaRead : read (Path.join d (stringBytes "cpu.cfs_quota_us")) maxCgroupScalarBytes with
  | error e => simp [hquotaRead] at h
  | ok quotaData =>
    cases hperiodRead :
      read (Path.join d (stringBytes "cpu.cfs_period_us")) maxCgroupScalarBytes with
    | error e => simp [hquotaRead, hperiodRead] at h
    | ok periodData =>
      simp only [hquotaRead, hperiodRead, parseCFS] at h
      split at h
      · rename_i quotaField periodField hquotaFields hperiodFields
        simp only [Option.bind_eq_some_iff] at h
        obtain ⟨quota, hquota, h⟩ := h
        by_cases hbad : quota = 0 ∨ quota < -1
        · rw [if_pos hbad] at h
          cases h
        rw [if_neg hbad, Option.bind_eq_some_iff] at h
        obtain ⟨period, hperiod, h⟩ := h
        split_ifs at h with hzero hnone
        · cases h
          simp [hquotaFields, hquota, hnone]
        · cases h
          have hpositive : 0 < quota := by omega
          simp [hquotaFields, hperiodFields, hquota, hperiod, hpositive,
            quotaCPUCount_eq hzero, eq_comm]
      · cases h

theorem v1QuotaAt_positive (d : Bytes) (cpus : Nat) (h : v1QuotaAt read d = some (some cpus)) :
    cpus ≠ 0 := by
  obtain ⟨_, _, _, _, quota, period, -, -, -, -, -, -, -, rfl⟩ := (v1QuotaAt_eq h cpus).mp rfl
  exact quotaCPUs_ne_zero _ period

/-- The memory walk is a walk for the smallest limit. -/
theorem foldlM_visitMemory {dirs : List Bytes} {state state' : Nat × Bool}
    (h : dirs.foldlM (visitMemory filename allowMax requireFile read) state = some state') :
    dirs.foldlM (visitLimit (memoryLimitAt filename allowMax requireFile read)) state.1 =
      some state'.1 := by
  induction dirs generalizing state with
  | nil =>
    cases h
    rfl
  | cons d dirs ih =>
    rw [List.foldlM_cons, Option.bind_eq_bind, Option.bind_eq_some_iff] at h
    obtain ⟨middle, hvisit, hrest⟩ := h
    simp only [visitMemory, Option.map_eq_some_iff] at hvisit
    obtain ⟨minimum, hminimum, rfl⟩ := hvisit
    rw [List.foldlM_cons, hminimum]
    exact ih hrest

/-- A set that was found stays; nothing further up is looked at. -/
theorem foldlM_visitCPUSet_some (dirs : List Bytes) (count : Nat) :
    dirs.foldlM (visitCPUSet read) (some count) = some (some count) := by
  induction dirs with
  | nil => rfl
  | cons d dirs ih =>
    rw [List.foldlM_cons, visitCPUSet]
    exact ih

theorem nearestSet_cons {dirs : List Bytes} {cpus : Nat} :
    NearestSet read (d :: dirs) cpus ↔
      NamedSet read (stringBytes "cpuset.cpus") d cpus ∨
      (EmptySet read d ∧ NearestSet read dirs cpus) := by
  constructor
  · rintro ⟨below, d', above, hsplit, hbelow, hnamed⟩
    cases below with
    | nil =>
      obtain ⟨rfl, rfl⟩ := List.cons.inj hsplit
      exact .inl hnamed
    | cons b below =>
      obtain ⟨rfl, rfl⟩ := List.cons.inj hsplit
      exact .inr ⟨hbelow d List.mem_cons_self, below, d', above, rfl,
        fun e he => hbelow e (List.mem_cons_of_mem _ he), hnamed⟩
  · rintro (hnamed | ⟨hempty, below, d', above, rfl, hbelow, hnamed⟩)
    · exact ⟨[], d, dirs, rfl, by simp, hnamed⟩
    · refine ⟨d :: below, d', above, rfl, fun e he => ?_, hnamed⟩
      rcases List.mem_cons.mp he with rfl | he
      · exact hempty
      · exact hbelow e he

/-- **The walk for the nearest set.** -/
theorem foldlM_visitCPUSet {dirs : List Bytes}
    (h : dirs.foldlM (visitCPUSet read) none = some found) (cpus : Nat) :
    found = some cpus ↔ NearestSet read dirs cpus := by
  induction dirs with
  | nil =>
    cases h
    simp [NearestSet]
  | cons d dirs ih =>
    rw [List.foldlM_cons, Option.bind_eq_bind, Option.bind_eq_some_iff] at h
    obtain ⟨middle, hvisit, hrest⟩ := h
    rw [nearestSet_cons, NamedSet, EmptySet]
    rw [visitCPUSet, if_neg (by simp)] at hvisit
    cases hread : read (Path.join d (stringBytes "cpuset.cpus")) maxCgroupScalarBytes with
    | error e => simp [hread] at hvisit
    | ok data =>
      simp only [hread] at hvisit
      split_ifs at hvisit with hempty
      · cases hvisit
        simp [hempty, ih hrest]
      · simp only [Option.map_eq_some_iff] at hvisit
        obtain ⟨count, hcount, rfl⟩ := hvisit
        rw [foldlM_visitCPUSet_some] at hrest
        cases hrest
        simp [hempty, hcount]

end Files

/-! ## The hierarchies that are asked -/

section Hierarchies

variable {read : ResourceRead} {mounts : List CgroupMount} {memberships : CgroupMemberships}
  {mount : CgroupMount} {controller path current : Bytes} {dirs : List Bytes}

theorem ownPath_some (h : selectCgroupMount mounts 1 controller path = some (mount, current)) :
    OwnPath mounts controller (some path) dirs ↔ dirs = directories mount.point current := by
  constructor
  · rintro ⟨_, _, _, hpath, hselect, rfl⟩
    cases hpath
    rw [h] at hselect
    cases hselect
    rfl
  · rintro rfl
    exact ⟨path, mount, current, rfl, h, rfl⟩

theorem unifiedPath_none {other : Bytes} (hunified : memberships.unified = some path)
    (h : selectCgroupMount mounts 2 [] path = some (mount, current)) :
    UnifiedPath mounts memberships none other dirs ↔ other = current ∧
    dirs = directories mount.point current := by
  constructor
  · rintro ⟨_, _, -, hpath, hselect, rfl⟩
    rw [hunified] at hpath
    cases hpath
    rw [h] at hselect
    cases hselect
    exact ⟨rfl, rfl⟩
  · rintro ⟨rfl, rfl⟩
    exact ⟨path, mount, rfl, hunified, h, rfl⟩

@[simp] theorem not_ownPath_none : ¬OwnPath mounts controller none dirs := by
  rintro ⟨_, _, _, h, -⟩
  cases h

@[simp] theorem not_unifiedPath_some :
    ¬UnifiedPath mounts memberships (some path) current dirs := by
  rintro ⟨_, _, h, -⟩
  cases h

theorem not_unifiedPath {own : Option Bytes} (h : memberships.unified = none) :
    ¬UnifiedPath mounts memberships own current dirs := by
  rintro ⟨_, _, -, hpath, -⟩
  rw [h] at hpath
  cases hpath

/-- A walk for the smallest limit over the directories of a mount that was selected. -/
theorem leastOf_selected {limitAt : Bytes → Option (Option Nat)}
    {Sets : Bytes → Nat → Prop} {m : Nat}
    (hbelow : Below mount.point current)
    (hpositive : ∀ d limit, limitAt d = some (some limit) → limit ≠ 0)
    (hsets : ∀ d found, limitAt d = some found → ∀ limit, found = some limit ↔ Sets d limit)
    (h : walkCgroupAncestors current mount.point (visitLimit limitAt) 0 = some m) :
    (directories mount.point current).length ≤ 129 ∧
      LeastOf { limit | ∃ d ∈ directories mount.point current, Sets d limit } m := by
  obtain ⟨hlength, hfold⟩ := foldlM_of_walk hbelow h
  exact ⟨hlength, leastOf_walk hpositive hsets hfold⟩

theorem leastOf_cgroupMemoryLimit {filename : Bytes} {allowMax requireFile limited : Bool}
    {limit : Nat} (hbelow : Below mount.point current)
    (h : cgroupMemoryLimit mount current filename allowMax requireFile read =
      some (limit, limited)) :
    limited = (limit != 0) ∧ (directories mount.point current).length ≤ 129 ∧
      LeastOf
        { l | ∃ d ∈ directories mount.point current, NumericLimit read filename d l } limit := by
  simp only [cgroupMemoryLimit, Option.bind_eq_bind, Option.bind_eq_some_iff] at h
  obtain ⟨⟨minimum, foundFile⟩, hwalk, hresult⟩ := h
  split_ifs at hresult
  cases hresult
  obtain ⟨hlength, hfold⟩ := foldlM_of_walk hbelow hwalk
  exact ⟨rfl, hlength, leastOf_walk memoryLimitAt_positive (fun _ _ h => memoryLimitAt_eq h)
    (foldlM_visitMemory hfold)⟩

/-- **The memory.** -/
theorem isLeast_effectiveMemory {systemMemory memory : Nat}
    (h : effectiveMemory systemMemory memberships mounts read = some memory) :
    IsLeast (insert systemMemory (memoryLimits read mounts memberships)) memory ∧
      (∀ dirs, OwnPath mounts (stringBytes "memory") memberships.memory dirs → dirs.length ≤ 129) ∧
      ∀ current dirs, UnifiedPath mounts memberships memberships.memory current dirs →
        dirs.length ≤ 129 := by
  rw [effectiveMemory] at h
  unfold memoryLimits
  split at h
  · rename_i path _ hown
    simp only [Option.bind_eq_bind, Option.bind_eq_some_iff] at h
    obtain ⟨⟨mount, current⟩, hselect, ⟨limit, limited⟩, hlimit, hmemory⟩ := h
    obtain ⟨rfl, hlength, hleast⟩ := leastOf_cgroupMemoryLimit (below_of_select hselect) hlimit
    simp only [hown, ownPath_some hselect, not_unifiedPath_some]
    cases hmemory
    exact ⟨by simpa using hleast.tighten systemMemory, by simpa using hlength, by simp⟩
  · rename_i path hown hunified
    simp only [Option.bind_eq_bind, Option.bind_eq_some_iff] at h
    obtain ⟨⟨mount, current⟩, hselect, ⟨limit, limited⟩, hlimit, hmemory⟩ := h
    obtain ⟨rfl, hlength, hleast⟩ := leastOf_cgroupMemoryLimit (below_of_select hselect) hlimit
    simp only [hown, unifiedPath_none hunified hselect, not_ownPath_none]
    cases hmemory
    exact ⟨by simpa using hleast.tighten systemMemory, by simp, by simpa using hlength⟩
  · rename_i hown hunified
    cases h
    simp [hown, not_unifiedPath hunified, isLeast_singleton]

/-- **The quotas.** -/
theorem isLeast_effectiveQuota {system cpus : Nat}
    (h : effectiveQuota system memberships mounts read = some cpus) :
    IsLeast (insert system (quotaLimits read mounts memberships)) cpus ∧
      (∀ dirs, OwnPath mounts (stringBytes "cpu") memberships.cpu dirs → dirs.length ≤ 129) ∧
      ∀ current dirs, UnifiedPath mounts memberships memberships.cpu current dirs →
        dirs.length ≤ 129 := by
  rw [effectiveQuota] at h
  unfold quotaLimits
  split at h
  · rename_i path _ hown
    simp only [cgroupV1CPUQuota, Option.bind_eq_bind, Option.bind_eq_some_iff] at h
    obtain ⟨⟨mount, current⟩, hselect, ⟨quota, limited⟩, ⟨minimum, hwalk, hquota⟩, hcpus⟩ := h
    obtain ⟨hlength, hleast⟩ := leastOf_selected (below_of_select hselect) v1QuotaAt_positive
      (fun _ _ h => v1QuotaAt_eq h) hwalk
    simp only [hown, ownPath_some hselect, not_unifiedPath_some]
    cases hquota
    cases hcpus
    exact ⟨by simpa using hleast.tighten system, by simpa using hlength, by simp⟩
  · rename_i path hown hunified
    simp only [cgroupV2CPUQuota, Option.bind_eq_bind, Option.bind_eq_some_iff] at h
    obtain ⟨⟨mount, current⟩, hselect, ⟨quota, limited⟩, ⟨minimum, hwalk, hquota⟩, hcpus⟩ := h
    obtain ⟨hlength, hleast⟩ := leastOf_selected (below_of_select hselect) v2QuotaAt_positive
      (fun _ _ h => v2QuotaAt_eq h) hwalk
    simp only [hown, unifiedPath_none hunified hselect, not_ownPath_none]
    cases hquota
    cases hcpus
    exact ⟨by simpa using hleast.tighten system, by simp, by simpa using hlength⟩
  · rename_i hown hunified
    cases h
    simp [hown, not_unifiedPath hunified, isLeast_singleton]

/-- A set that may be there, and the CPUs there were before it. -/
theorem isLeast_insert_option {S : Set Nat} (h : ∀ n, found = some n ↔ n ∈ S) (system : Nat) :
    IsLeast (insert system S) (boundBy system found) := by
  cases found with
  | none =>
    obtain rfl : S = ∅ := Set.eq_empty_of_forall_notMem fun n hn => by simpa using (h n).mpr hn
    simp [boundBy, isLeast_singleton]
  | some count =>
    obtain rfl : S = {count} := by
      ext n
      rw [← h n, Option.some.injEq, Set.mem_singleton_iff, eq_comm]
    have hmin : boundBy system (some count) = min system count := by
      rw [boundBy]
      split <;> omega
    rw [hmin]
    exact isLeast_singleton.insert system

/-- **The sets.** -/
theorem isLeast_effectiveCPUSet {system cpus : Nat}
    (h : effectiveCPUSet system memberships mounts read = some cpus) :
    IsLeast (insert system (setLimits read mounts memberships)) cpus ∧
      ∀ dirs, OwnPath mounts (stringBytes "cpuset") memberships.cpuset dirs →
        dirs.length ≤ 129 := by
  rw [effectiveCPUSet] at h
  unfold setLimits
  split at h
  · rename_i path _ hown
    simp only [cgroupV1CPUSet, Option.bind_eq_bind, Option.bind_eq_some_iff] at h
    obtain ⟨⟨mount, current⟩, hselect, found, hwalk, hcpus⟩ := h
    obtain ⟨hlength, hfold⟩ := foldlM_of_walk (below_of_select hselect) hwalk
    simp only [hown, ownPath_some hselect, not_unifiedPath_some]
    cases hcpus
    refine ⟨isLeast_insert_option (fun n => ?_) system, by simpa using hlength⟩
    rw [foldlM_visitCPUSet hfold n]
    simp
  · rename_i path hown hunified
    simp only [Option.bind_eq_bind, Option.bind_eq_some_iff] at h
    obtain ⟨⟨mount, current⟩, hselect, hcpus⟩ := h
    simp only [hown, unifiedPath_none hunified hselect, not_ownPath_none, NamedSet]
    refine ⟨?_, by simp⟩
    cases hread :
      read (Path.join current (stringBytes "cpuset.cpus.effective")) maxCgroupScalarBytes with
    | error e =>
      simp only [hread, Option.ite_none_right_eq_some, Option.some.injEq] at hcpus
      simp [hread, ← hcpus.2, isLeast_singleton]
    | ok data =>
      simp only [hread] at hcpus
      split_ifs at hcpus with hempty
      simp only [Option.map_eq_some_iff] at hcpus
      obtain ⟨count, hcount, rfl⟩ := hcpus
      refine isLeast_insert_option (fun n => ?_) system
      rw [Option.some.injEq, eq_comm]
      simp [hread, hempty, hcount]
  · rename_i hown hunified
    cases h
    simp [hown, not_unifiedPath hunified, isLeast_singleton]

end Hierarchies

theorem isLeast_union_of_insert {Q S : Set Nat} {system quota cpus : Nat}
    (hquota : IsLeast (insert system Q) quota)
    (hcpus : IsLeast (insert quota S) cpus) : IsLeast (insert system (Q ∪ S)) cpus := by
  refine ⟨?_, fun n hn => ?_⟩
  · rcases hcpus.1 with rfl | hmem
    · exact hquota.1.imp_right .inl
    · exact .inr (.inr hmem)
  · have hle : cpus ≤ quota := hcpus.2 (.inl rfl)
    rcases hn with rfl | hn | hn
    · exact hle.trans (hquota.2 (.inl rfl))
    · exact hle.trans (hquota.2 (.inr hn))
    · exact hcpus.2 (.inr hn)

theorem isLeast_insert_min {S : Set Nat} {a b m : Nat} (h : IsLeast (insert (min a b) S) m) :
    IsLeast (insert a (insert b S)) m := by
  refine ⟨?_, fun n hn => ?_⟩
  · rcases h.1 with rfl | hmem
    · rcases min_choice a b with hmin | hmin
      · exact .inl hmin
      · exact .inr (.inl hmin)
    · exact .inr (.inr hmem)
  · have hle : m ≤ min a b := h.2 (.inl rfl)
    rcases hn with rfl | rfl | hn
    · exact hle.trans (min_le_left _ _)
    · exact hle.trans (min_le_right _ _)
    · exact h.2 (.inr hn)

theorem ok_of_toOption {ε α : Type} {r : Except ε α} {a : α} (h : r.toOption = some a) :
    r = .ok a := by
  cases r with
  | error e => cases h
  | ok b => rw [Option.some.inj h]

/-- The two files that say where the process is. -/
def Observed (read : ResourceRead) (memberships : CgroupMemberships) (mounts : List CgroupMount) :
    Prop :=
  ∃ membershipData mountData,
    read (stringBytes "/proc/self/cgroup") maxCgroupMembershipBytes = .ok membershipData ∧
    read (stringBytes "/proc/self/mountinfo") maxMountInfoBytes = .ok mountData ∧
    parseCgroupMemberships membershipData = some memberships ∧
    parseCgroupMounts mountData = some mounts

/-- **The effective resources are the tightest limits.**  Each directory of a path that is walked
is visited once, and a path of more than 129 directories is an error. -/
theorem effectiveLinuxResources_tightest (systemMemory : Nat) (systemCPUs : Int)
    (read : ResourceRead) :
    (∀ memory cpus, effectiveLinuxResources systemMemory systemCPUs read = some (memory, cpus) →
      0 < memory ∧ 0 < cpus ∧ ∃ memberships mounts, Observed read memberships mounts ∧
        IsLeast (insert systemMemory (memoryLimits read mounts memberships)) memory ∧
        IsLeast (insert systemCPUs.toNat (insert maxLogicalCPUs
          (quotaLimits read mounts memberships ∪ setLimits read mounts memberships))) cpus ∧
        ∀ dirs, Walked mounts memberships dirs → dirs.length ≤ 129) ∧
    ∀ mounts version controller membership mount current,
      selectCgroupMount mounts version controller membership = some (mount, current) →
      (directories mount.point current).Nodup ∧
      ∀ (σ : Type) (visit : σ → Bytes → Option σ) (s : σ),
      walkCgroupAncestors current mount.point visit s =
        if (directories mount.point current).length ≤ 129 then
          (directories mount.point current).foldlM visit s
        else none := by
  refine ⟨fun memory cpus h => ?_,
    fun mounts version controller membership mount current hselect => ?_⟩
  · have hstart : (if (maxLogicalCPUs : Int) < systemCPUs then maxLogicalCPUs else systemCPUs.toNat)
        = min systemCPUs.toNat maxLogicalCPUs := by
      split <;> omega
    rw [effectiveLinuxResources] at h
    by_cases hbad : systemMemory = 0 ∨ systemCPUs ≤ 0
    · rw [if_pos hbad] at h
      cases h
    simp only [if_neg hbad, hstart, Option.bind_eq_bind, Option.bind_eq_some_iff] at h
    obtain ⟨membershipData, hmembership, mountData, hmount, memberships, hmemberships,
      mounts, hmounts, memory', hmemory, quota, hquota, sets, hsets, hresult⟩ := h
    split_ifs at hresult with hzero
    cases hresult
    obtain ⟨hleast, hown, hunified⟩ := isLeast_effectiveMemory hmemory
    obtain ⟨hquota, hownQuota, hunifiedQuota⟩ := isLeast_effectiveQuota hquota
    obtain ⟨hset, hownSet⟩ := isLeast_effectiveCPUSet hsets
    refine ⟨by omega, by omega, memberships, mounts,
      ⟨membershipData, mountData, ok_of_toOption hmembership, ok_of_toOption hmount, hmemberships,
        hmounts⟩, hleast,
      isLeast_insert_min (isLeast_union_of_insert hquota hset), ?_⟩
    · rintro dirs (h | h | h | ⟨current, h⟩ | ⟨current, h⟩)
      · exact hown dirs h
      · exact hownQuota dirs h
      · exact hownSet dirs h
      · exact hunified current dirs h
      · exact hunifiedQuota current dirs h
  · have hbelow := below_of_select hselect
    exact ⟨hbelow.nodup_directories, fun σ visit s => walkCgroupAncestors_eq hbelow s⟩

/-- A host with one unified hierarchy, in which the process's control group has 1000 bytes and
one and a half CPUs. -/
def sampleRead : ResourceRead := fun path _ =>
  if path = stringBytes "/proc/self/cgroup" then .ok (stringBytes "0::/job\n")
  else if path = stringBytes "/proc/self/mountinfo" then
    .ok (stringBytes "30 20 0:26 / /sys/fs/cgroup rw - cgroup2 cgroup rw\n")
  else if path = stringBytes "/sys/fs/cgroup/job/memory.max" then .ok (stringBytes "1000\n")
  else if path = stringBytes "/sys/fs/cgroup/memory.max" then .ok (stringBytes "max\n")
  else if path = stringBytes "/sys/fs/cgroup/job/cpu.max" then .ok (stringBytes "150000 100000\n")
  else .error .notExist

theorem effectiveLinuxResources_tightest_sample :
    effectiveLinuxResources 4096 8 sampleRead = some (1000, 2) ∧
    ∃ memberships mounts, Observed sampleRead memberships mounts ∧
      IsLeast (insert 4096 (memoryLimits sampleRead mounts memberships)) 1000 := by
  have hresult : effectiveLinuxResources 4096 8 sampleRead = some (1000, 2) := by decide +kernel
  obtain ⟨-, -, memberships, mounts, hobserved, hmemory, -⟩ :=
    (effectiveLinuxResources_tightest 4096 8 sampleRead).1 1000 2 hresult
  exact ⟨hresult, memberships, mounts, hobserved, hmemory⟩

end TosAi.Probe
