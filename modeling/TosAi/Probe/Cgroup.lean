/-
  The resources of a Linux host as its control groups limit them (`probe`, `cgroup_linux.go`).

  The files are read through a function from paths to contents, a missing file told apart
  from every other failure.  There is one error only, so a function that can fail returns an
  option.  The directories of a hierarchy are visited from the process's own up to the mount
  point, and what a visit adds to is passed along.
-/
import TosAi.Foundation.Path
import TosAi.Foundation.Scan

set_option autoImplicit false

namespace TosAi.Probe

open Foundation
open Foundation.Json (Bytes)

def maxCgroupMembershipBytes : Nat := 64 * 2 ^ 10

def maxMountInfoBytes : Nat := 2 ^ 20

def maxCgroupScalarBytes : Nat := 4 * 2 ^ 10

def maxCgroupLines : Nat := 4096

def maxCgroupMounts : Nat := 64

def maxControllersPerLine : Nat := 32

def maxCgroupDepth : Nat := 128

def maxResourcePathBytes : Nat := 4096

def maxLogicalCPUs : Nat := 4096

/-- Why a file was not read. -/
inductive ReadError where
  | notExist
  | other
  deriving DecidableEq

/-- `resourceReadFunc`: a path and the number of bytes the file may have. -/
abbrev ResourceRead := Bytes → Nat → Except ReadError Bytes

/-- The path of the process in each hierarchy it is a member of. -/
structure CgroupMemberships where
  unified : Option Bytes := none
  memory : Option Bytes := none
  cpu : Option Bytes := none
  cpuset : Option Bytes := none
  deriving DecidableEq

structure CgroupMount where
  version : Int
  root : Bytes
  point : Bytes
  memory : Bool := false
  cpu : Bool := false
  cpuset : Bool := false
  deriving DecidableEq

/-! ## Paths and lines -/

def cleanResourcePath (value : Bytes) : Option Bytes :=
  if value = [] ∨ maxResourcePathBytes < value.length ∨ !Path.isAbs value ∨
    hasControl value then none
  else if Path.clean value ≠ value then none
  else some (Path.clean value)

/-- The escapes of a mount path taken back. -/
def decodeEscapes : Bytes → Option Bytes
  | [] => some []
  | b :: rest =>
    if b ≠ 0x5c then (decodeEscapes rest).map (b :: ·)
    else
      match rest with
      | x :: y :: z :: rest =>
        if [x, y, z] = stringBytes "011" then (decodeEscapes rest).map (0x09 :: ·)
        else if [x, y, z] = stringBytes "012" then (decodeEscapes rest).map (0x0a :: ·)
        else if [x, y, z] = stringBytes "040" then (decodeEscapes rest).map (0x20 :: ·)
        else if [x, y, z] = stringBytes "134" then (decodeEscapes rest).map (0x5c :: ·)
        else none
      | _ => none

def decodeMountPath (value : Bytes) : Option Bytes :=
  if value = [] ∨ maxResourcePathBytes * 2 < value.length then none
  else (decodeEscapes value).bind cleanResourcePath

def boundedLines (data : Bytes) (maximum : Nat) : Option (List Bytes) :=
  if data = [] then some []
  else if 0 ∈ data then none
  else
    let lines := (trimSuffixByte 0x0a data).splitOn 0x0a
    if maximum < lines.length ∨ ∃ line ∈ lines, line = [] ∨
      maxResourcePathBytes * 2 < line.length then none
    else some lines

def decimalString (value : Bytes) : Bool :=
  value ≠ [] && value.length ≤ 20 && value.all fun b => 0x30 ≤ b.toNat && b.toNat ≤ 0x39

/-! ## `/proc/self/cgroup` -/

/-- A controller named in a line sets the path of its hierarchy, once. -/
def setPath (known : Option Bytes) (path : Bytes) : Option (Option Bytes) :=
  if known.isSome ∧ known ≠ some path then none else some (some path)

def addController (path : Bytes) (result : CgroupMemberships) (controller : Bytes) :
    Option CgroupMemberships :=
  if controller = stringBytes "memory" then
    (setPath result.memory path).map fun p => { result with memory := p }
  else if controller = stringBytes "cpu" then
    (setPath result.cpu path).map fun p => { result with cpu := p }
  else if controller = stringBytes "cpuset" then
    (setPath result.cpuset path).map fun p => { result with cpuset := p }
  else if controller = stringBytes "cpuacct" then some result
  else if controller = [] ∨ 64 < controller.length then none
  else some result

/-- One line: the number of a hierarchy, its controllers and the path of the process in it. -/
def addMembership (result : CgroupMemberships) (line : Bytes) : Option CgroupMemberships := do
  let (hierarchy, rest) ← cutByte 0x3a line
  let (named, value) ← cutByte 0x3a rest
  if !decimalString hierarchy then none
  else
    let path ← cleanResourcePath value
    if named = [] then
      if hierarchy ≠ stringBytes "0" ∨ result.unified.isSome then none
      else some { result with unified := some path }
    else
      let controllers := named.splitOn 0x2c
      if controllers.length = 0 ∨ maxControllersPerLine < controllers.length then none
      else controllers.foldlM (addController path) result

def parseCgroupMemberships (data : Bytes) : Option CgroupMemberships := do
  let lines ← boundedLines data maxCgroupLines
  lines.foldlM addMembership {}

/-! ## `/proc/self/mountinfo` -/

def setMountController (mount : CgroupMount) (option : Bytes) : CgroupMount :=
  if option = stringBytes "memory" then { mount with memory := true }
  else if option = stringBytes "cpu" then { mount with cpu := true }
  else if option = stringBytes "cpuset" then { mount with cpuset := true }
  else mount

def setMountControllers (mount : CgroupMount) (options : Bytes) : CgroupMount :=
  (options.splitOn 0x2c).foldl setMountController mount

/-- The version of a file system type that is a control group hierarchy. -/
def cgroupVersion (fsType : Bytes) : Option Int :=
  if fsType = stringBytes "cgroup2" then some 2
  else if fsType = stringBytes "cgroup" then some 1
  else none

/-- One line of the mount table; mounts of other types are passed over. -/
def addMount (mounts : List CgroupMount) (line : Bytes) : Option (List CgroupMount) := do
  let (before, after) ← cutText (stringBytes " - ") line
  match fields before, fields after with
  | _ :: _ :: _ :: rootField :: pointField :: options :: _, fsType :: _ :: superOptions :: _ =>
    match cgroupVersion fsType with
    | none => some mounts
    | some version =>
      if maxCgroupMounts ≤ mounts.length then none
      else
        let root ← decodeMountPath rootField
        let point ← decodeMountPath pointField
        let mount : CgroupMount := { version, root, point }
        let mount :=
          if version = 1 then
            setMountControllers (setMountControllers mount options) superOptions
          else mount
        some (mounts ++ [mount])
  | _, _ => none

def parseCgroupMounts (data : Bytes) : Option (List CgroupMount) := do
  let lines ← boundedLines data maxCgroupLines
  lines.foldlM addMount []

/-! ## The mount of a hierarchy -/

def mountHasController (mount : CgroupMount) (controller : Bytes) : Bool :=
  if mount.version = 2 then controller = []
  else if controller = stringBytes "memory" then mount.memory
  else if controller = stringBytes "cpu" then mount.cpu
  else if controller = stringBytes "cpuset" then mount.cpuset
  else false

/-- The rest of a membership below the root of a mount.  A control group namespace reports its
own root as `/` even where the mount names a deeper hierarchy. -/
def relativeMembership (root member : Bytes) : Option Bytes :=
  if member = root then some Path.dot
  else if root = [Path.slash] then some (member.drop 1)
  else if (root ++ [Path.slash]).isPrefixOf member then some ((member.drop root.length).drop 1)
  else if member = [Path.slash] then some Path.dot
  else none

def resolveCgroupPath (mount : CgroupMount) (membership : Bytes) : Option Bytes := do
  let root ← cleanResourcePath mount.root
  let point ← cleanResourcePath mount.point
  let member ← cleanResourcePath membership
  let relative ← relativeMembership root member
  let current := Path.clean (Path.join point relative)
  if !Path.within point current ∨ maxResourcePathBytes < current.length then none else some current

/-- One mount of the pass that keeps the most specific one; two of the same length have to agree. -/
def selectMount (version : Int) (controller membership : Bytes)
    (selected : Option (CgroupMount × Bytes)) (mount : CgroupMount) :
    Option (Option (CgroupMount × Bytes)) :=
  if mount.version ≠ version ∨ !mountHasController mount controller then some selected
  else
    match resolveCgroupPath mount membership with
    | none => some selected
    | some current =>
      match selected with
      | none => some (some (mount, current))
      | some (best, bestPath) =>
        if best.root.length < mount.root.length then some (some (mount, current))
        else if mount.root.length = best.root.length ∧
          (mount.point ≠ best.point ∨ current ≠ bestPath) then
          none
        else some (some (best, bestPath))

def selectCgroupMount (mounts : List CgroupMount) (version : Int) (controller membership : Bytes) :
    Option (CgroupMount × Bytes) := do
  let selected ← mounts.foldlM (selectMount version controller membership) none
  selected

/-! ## Visiting the directories -/

/-- The visits from a directory on; `fuel` counts those that are allowed. -/
def walkFrom {σ : Type} (root : Bytes) (visit : σ → Bytes → Option σ) : Nat → σ → Bytes → Option σ
  | 0, _, _ => none
  | fuel + 1, s, current => do
    let s ← visit s current
    if current = root then some s
    else
      let parent := Path.dir current
      if parent = current ∨ !Path.within root parent then none
      else walkFrom root visit fuel s parent

def walkCgroupAncestors {σ : Type} (current root : Bytes) (visit : σ → Bytes → Option σ) (s : σ) :
    Option σ :=
  let current := Path.clean current
  let root := Path.clean root
  if !Path.within root current then none else walkFrom root visit (maxCgroupDepth + 1) s current

/-- The smaller of two limits, zero standing for none. -/
def lower (minimum limit : Nat) : Nat := if minimum = 0 ∨ limit < minimum then limit else minimum

/-- A visit that lowers the limit so far; a directory may be in error, set no limit or set one. -/
def visitLimit (limitAt : Bytes → Option (Option Nat)) (minimum : Nat) (directory : Bytes) :
    Option Nat :=
  (limitAt directory).map fun
    | none => minimum
    | some limit => lower minimum limit

/-! ## Memory -/

/-- The limit, where there is one. -/
def parseMemoryLimit (data : Bytes) (allowMax : Bool) : Option (Option Nat) :=
  match fields data with
  | [field] =>
    if allowMax ∧ field = stringBytes "max" then some none
    else (parseUint64 field).bind fun value => if value = 0 then none else some (some value)
  | _ => none

/-- The limit of a directory; a file may be missing where none is required. -/
def memoryLimitAt (filename : Bytes) (allowMax requireFile : Bool) (read : ResourceRead)
    (directory : Bytes) : Option (Option Nat) :=
  match read (Path.join directory filename) maxCgroupScalarBytes with
  | .error e => if e = .notExist ∧ !requireFile then some none else none
  | .ok data => parseMemoryLimit data allowMax

/-- The walk keeps the limit and whether it met a file. -/
def visitMemory (filename : Bytes) (allowMax requireFile : Bool) (read : ResourceRead)
    (state : Nat × Bool) (directory : Bytes) : Option (Nat × Bool) :=
  (visitLimit (memoryLimitAt filename allowMax requireFile read) state.1 directory).map
    fun minimum => (minimum,
      state.2 || (read (Path.join directory filename) maxCgroupScalarBytes).isOk)

def cgroupMemoryLimit (mount : CgroupMount) (current filename : Bytes) (allowMax requireFile : Bool)
    (read : ResourceRead) : Option (Nat × Bool) := do
  let (minimum, foundFile) ←
    walkCgroupAncestors current mount.point
      (visitMemory filename allowMax requireFile read) (0, false)
  if requireFile ∧ !foundFile then none else some (minimum, minimum != 0)

/-! ## CPU quotas -/

def quotaCPUCount (quota period : Nat) : Nat :=
  let count := quota / period
  let count := if quota % period ≠ 0 then count + 1 else count
  let count := if count = 0 then 1 else count
  if maxLogicalCPUs < count then maxLogicalCPUs else count

/-- The quota of `cpu.max`, where one is set. -/
def parseCPUMax (data : Bytes) : Option (Option Nat) :=
  match fields data with
  | [quotaField, periodField] =>
    (parseUint64 periodField).bind fun period =>
      if period = 0 then none
      else if quotaField = stringBytes "max" then some none
      else (parseUint64 quotaField).bind fun quota =>
        if quota = 0 then none else some (some (quotaCPUCount quota period))
  | _ => none

/-- The quota of a directory of the unified hierarchy. -/
def v2QuotaAt (read : ResourceRead) (directory : Bytes) : Option (Option Nat) :=
  match read (Path.join directory (stringBytes "cpu.max")) maxCgroupScalarBytes with
  | .error e => if e = .notExist then some none else none
  | .ok data => parseCPUMax data

def cgroupV2CPUQuota (mount : CgroupMount) (current : Bytes) (read : ResourceRead) :
    Option (Nat × Bool) := do
  let minimum ← walkCgroupAncestors current mount.point (visitLimit (v2QuotaAt read)) 0
  some (minimum, minimum != 0)

/-- The quota of `cpu.cfs_quota_us` and `cpu.cfs_period_us`, where one is set. -/
def parseCFS (quotaData periodData : Bytes) : Option (Option Nat) :=
  match fields quotaData, fields periodData with
  | [quotaField], [periodField] =>
    (parseInt64 quotaField).bind fun quota =>
      if quota = 0 ∨ quota < -1 then none
      else (parseUint64 periodField).bind fun period =>
        if period = 0 then none
        else if quota = -1 then some none
        else some (some (quotaCPUCount quota.toNat period))
  | _, _ => none

/-- The quota of a directory of the CPU controller's hierarchy. -/
def v1QuotaAt (read : ResourceRead) (directory : Bytes) : Option (Option Nat) :=
  match read (Path.join directory (stringBytes "cpu.cfs_quota_us")) maxCgroupScalarBytes,
      read (Path.join directory (stringBytes "cpu.cfs_period_us")) maxCgroupScalarBytes with
  | .ok quotaData, .ok periodData => parseCFS quotaData periodData
  | _, _ => none

def cgroupV1CPUQuota (mount : CgroupMount) (current : Bytes) (read : ResourceRead) :
    Option (Nat × Bool) := do
  let minimum ← walkCgroupAncestors current mount.point (visitLimit (v1QuotaAt read)) 0
  some (minimum, minimum != 0)

/-! ## CPU sets -/

/-- One CPU of an item; none is named twice. -/
def observeCPU (state : List Nat × Nat) (cpu : Nat) : Option (List Nat × Nat) :=
  if cpu ∈ state.1 then none else some (cpu :: state.1, state.2 + 1)

/-- A number of an item that is a CPU. -/
def cpuNumber (field : Bytes) : Option Nat :=
  (parseInt64 field).bind fun n => if n < 0 ∨ (maxLogicalCPUs : Int) ≤ n then none else some n.toNat

/-- The first and the last CPU of an item. -/
def cpuBounds (item : Bytes) : Option (Nat × Nat) :=
  match item.splitOn 0x2d with
  | [first] => if first = [] then none else (cpuNumber first).map fun start => (start, start)
  | [first, last] =>
    if first = [] then none
    else (cpuNumber first).bind fun start =>
      if last = [] then none
      else (cpuNumber last).bind fun stop => if stop < start then none else some (start, stop)
  | _ => none

def observeItem (state : List Nat × Nat) (item : Bytes) : Option (List Nat × Nat) :=
  (cpuBounds item).bind fun (start, stop) =>
    (List.range' start (stop + 1 - start)).foldlM observeCPU state

def parseCPUSet (data : Bytes) : Option Nat :=
  let value := trimSpace data
  if value = [] ∨ maxCgroupScalarBytes < value.length then none
  else
    let items := value.splitOn 0x2c
    if maxLogicalCPUs < items.length then none
    else (items.foldlM observeItem ([], 0)).bind fun state =>
      if state.2 = 0 then none else some state.2

/-- The nearest set that is not empty; what stands further up is not read any more. -/
def visitCPUSet (read : ResourceRead) (found : Option Nat) (directory : Bytes) :
    Option (Option Nat) :=
  if found.isSome then some found
  else
    match read (Path.join directory (stringBytes "cpuset.cpus")) maxCgroupScalarBytes with
    | .error _ => none
    | .ok data => if trimSpace data = [] then some none else (parseCPUSet data).map some

def cgroupV1CPUSet (mount : CgroupMount) (current : Bytes) (read : ResourceRead) :
    Option (Option Nat) :=
  walkCgroupAncestors current mount.point (visitCPUSet read) none

/-! ## The resources -/

/-- The memory left by the hierarchy of the memory controller. -/
def effectiveMemory (systemMemory : Nat) (memberships : CgroupMemberships)
    (mounts : List CgroupMount) (read : ResourceRead) : Option Nat :=
  match memberships.memory, memberships.unified with
  | some path, _ => do
    let (mount, current) ← selectCgroupMount mounts 1 (stringBytes "memory") path
    let (limit, limited) ←
      cgroupMemoryLimit mount current (stringBytes "memory.limit_in_bytes") false true read
    some (if limited ∧ limit < systemMemory then limit else systemMemory)
  | none, some path => do
    let (mount, current) ← selectCgroupMount mounts 2 [] path
    let (limit, limited) ← cgroupMemoryLimit mount current
      (stringBytes "memory.max") true false read
    some (if limited ∧ limit < systemMemory then limit else systemMemory)
  | none, none => some systemMemory

/-- The CPUs left by the quotas. -/
def effectiveQuota (cpus : Nat) (memberships : CgroupMemberships) (mounts : List CgroupMount)
    (read : ResourceRead) : Option Nat :=
  match memberships.cpu, memberships.unified with
  | some path, _ => do
    let (mount, current) ← selectCgroupMount mounts 1 (stringBytes "cpu") path
    let (quota, limited) ← cgroupV1CPUQuota mount current read
    some (if limited ∧ quota < cpus then quota else cpus)
  | none, some path => do
    let (mount, current) ← selectCgroupMount mounts 2 [] path
    let (quota, limited) ← cgroupV2CPUQuota mount current read
    some (if limited ∧ quota < cpus then quota else cpus)
  | none, none => some cpus

/-- A set that was found bounds the CPUs. -/
def boundBy (cpus : Nat) : Option Nat → Nat
  | some count => if count < cpus then count else cpus
  | none => cpus

/-- The CPUs left by the sets. -/
def effectiveCPUSet (cpus : Nat) (memberships : CgroupMemberships) (mounts : List CgroupMount)
    (read : ResourceRead) : Option Nat :=
  match memberships.cpuset, memberships.unified with
  | some path, _ => do
    let (mount, current) ← selectCgroupMount mounts 1 (stringBytes "cpuset") path
    let found ← cgroupV1CPUSet mount current read
    some (boundBy cpus found)
  | none, some path => do
    let (_, current) ← selectCgroupMount mounts 2 [] path
    match read (Path.join current (stringBytes "cpuset.cpus.effective")) maxCgroupScalarBytes with
    | .ok data =>
      if trimSpace data = [] then none
      else (parseCPUSet data).map fun count => boundBy cpus (some count)
    | .error e => if e = .notExist then some cpus else none
  | none, none => some cpus

def effectiveLinuxResources (systemMemory : Nat) (systemCPUs : Int) (read : ResourceRead) :
    Option (Nat × Nat) :=
  if systemMemory = 0 ∨ systemCPUs ≤ 0 then none
  else do
    let membershipData ← (read (stringBytes "/proc/self/cgroup") maxCgroupMembershipBytes).toOption
    let mountData ← (read (stringBytes "/proc/self/mountinfo") maxMountInfoBytes).toOption
    let memberships ← parseCgroupMemberships membershipData
    let mounts ← parseCgroupMounts mountData
    let memory ← effectiveMemory systemMemory memberships mounts read
    let cpus := if (maxLogicalCPUs : Int) < systemCPUs then maxLogicalCPUs else systemCPUs.toNat
    let cpus ← effectiveQuota cpus memberships mounts read
    let cpus ← effectiveCPUSet cpus memberships mounts read
    if memory = 0 ∨ cpus = 0 then none else some (memory, cpus)

end TosAi.Probe
