/-
  What the containerd backend accepts (`pkg/executor/containerdbackend/spec.go`), and how it
  takes aliases of GPU devices for the operator's own devices.
-/
import TosAi.SoftwareWork.Policy

set_option autoImplicit false

namespace TosAi.Workload

open Foundation
open Foundation.Json (Bytes)
open SoftwareWork (Err Limits ContainerRequest digestPattern validWorkspaceDirectory)

/-! ## Limits of the driver -/

def maxInputBytesHard : Nat := 16 * 2 ^ 20
def maxOutputBytesHard : UInt64 := 16 * 2 ^ 20
def maxArgumentsHard : Nat := 64
def maxEnvironmentHard : Nat := 64
def maxStringBytesHard : Nat := 4096
def maxMemoryBytesHard : UInt64 := 2 ^ 40
def maxDiskBytesHard : UInt64 := 16 * 2 ^ 40
def maxPIDsHard : UInt32 := 2 ^ 20
def maxExecutionTimeHard : Int := 3600 * 10 ^ 9
def maxCPUMillisHard : UInt64 := 24 * 3600 * 1000
def minimumTmpfsBytes : UInt64 := 3 * 4096

/-- The period and the quota of `cpuQuota`. -/
def cpuQuota (limits : Limits) : Except Err (UInt64 × UInt64) := do
  let period : UInt64 := 100000
  let wallMillis := toUInt64 (limits.executionTime.tdiv 1000000)
  require (!(wallMillis == 0 || decide ((0 - 1 : UInt64) / period < limits.cpuMillis)))
    "invalid containerd CPU limit"
  let quota := (limits.cpuMillis * period + wallMillis - 1) / wallMillis
  require (!(decide (quota < 1000) || decide (2 ^ 63 - 1 < quota)))
    "containerd CPU limit cannot be represented safely"
  return (period, quota)

def validateDriverLimits (limits : Limits) (permitGPU : Bool) : Except Err Unit := do
  require (!(limits.cpuMillis == 0 || limits.memoryBytes == 0 ||
      decide (limits.diskBytes < minimumTmpfsBytes) || limits.pids == 0 ||
      decide (limits.executionTime ≤ 0) || limits.outputBytes == 0 ||
      decide (maxCPUMillisHard < limits.cpuMillis) ||
        decide (maxMemoryBytesHard < limits.memoryBytes) ||
      decide (maxDiskBytesHard < limits.diskBytes) || decide (maxPIDsHard < limits.pids) ||
      decide (maxExecutionTimeHard < limits.executionTime) ||
      decide (maxOutputBytesHard < limits.outputBytes)))
    "containerd resource limits are unsupported or invalid"
  require (permitGPU == decide (0 < limits.gpuDeviceCount)) "containerd GPU limits are inconsistent"
  let _ ← cpuQuota limits

/-! ## Requests -/

def invalidRuntimeString (value : String) (allowEmpty : Bool) : Bool :=
  (!allowEmpty && value == "") || decide (maxStringBytesHard < value.utf8ByteSize) ||
    value.toList.contains '\x00'

/-- The fields of a request that do not depend on the devices. -/
def requestFieldsValid (request : ContainerRequest) (input : Bytes) : Bool :=
  digestPattern request.executionDigest && digestPattern request.imageDigest &&
    decide (input.length ≤ maxInputBytesHard) && !request.entrypoint.isEmpty &&
    decide (request.entrypoint.length ≤ maxArgumentsHard) &&
    decide (request.environment.length ≤ maxEnvironmentHard) &&
    request.userID != 0 && request.groupID != 0 && request.readOnlyRoot &&
      request.noNewPrivileges &&
    (if request.workspaceArchive then validWorkspaceDirectory request.workingDirectory
      else request.workingDirectory == "" || request.workingDirectory == "/") &&
    request.network == .none && request.allowedHosts.isEmpty &&
    (validateDriverLimits request.limits request.allowGPU).isOk

/-- `validateRequest`; the environment is looked at in some order. -/
def validateRequest (request : ContainerRequest) (input : Bytes) (assignedDevices : Nat) :
    Except Err Unit := do
  require (requestFieldsValid request input) "unsupported or invalid containerd execution request"
  require (request.allowGPU == decide (0 < assignedDevices) &&
      assignedDevices == request.limits.gpuDeviceCount.toNat) "invalid containerd GPU assignment"
  require (!request.entrypoint.any fun argument => invalidRuntimeString argument false)
    "invalid containerd process argument"
  require (!request.environment.any fun (key, value) => invalidRuntimeString key false ||
      key.toList.contains '=' || invalidRuntimeString value true)
        "invalid containerd process environment"

/-- What an accepted request has. -/
theorem validateRequest_ok {request : ContainerRequest} {input : Bytes} {n : Nat}
    (h : validateRequest request input n = .ok ()) :
    digestPattern request.executionDigest = true ∧ request.allowGPU = decide (0 < n) ∧
      n = request.limits.gpuDeviceCount.toNat := by
  obtain ⟨hfields, h⟩ := require_bind_eq_ok.mp h
  obtain ⟨hdevices, -⟩ := require_bind_eq_ok.mp h
  rw [Bool.and_eq_true, beq_iff_eq, beq_iff_eq] at hdevices
  simp only [requestFieldsValid, Bool.and_eq_true] at hfields
  obtain ⟨hdigest, -⟩ : digestPattern request.executionDigest = true ∧ _ := by tauto
  exact ⟨hdigest, hdevices⟩

/-- The name of a container: the digest without `sha256:`. -/
def runtimeID (digest : String) : String := String.ofList (digest.toList.drop 7)

theorem runtimeID_injective {a b : String} (ha : digestPattern a = true)
    (hb : digestPattern b = true) (h : runtimeID a = runtimeID b) : a = b := by
  have htail : a.toList.drop 7 = b.toList.drop 7 := String.ofList_injective h
  exact eq_of_matchesHex64 ha hb htail

/-! ## GPU devices -/

/-- A map from aliases to CDI devices. -/
structure DeviceMap where
  entries : List (String × String)
  nodup : (entries.map Prod.fst).Nodup

def DeviceMap.get? (m : DeviceMap) (name : String) : Option String := m.entries.lookup name

theorem mem_of_get? {m : DeviceMap} {name device : String} (h : m.get? name = some device) :
    (name, device) ∈ m.entries := by
  obtain ⟨before, after, hentries, -⟩ := List.lookup_eq_some_iff.mp h
  rw [hentries]
  exact List.mem_append_right _ (List.mem_cons_self ..)

def validGPUAlias (value : String) : Bool :=
  decide (3 ≤ value.utf8ByteSize) && decide (value.utf8ByteSize ≤ 64) &&
    !decide (['.', '.'] <:+: value.toList) &&
    value.toList.all fun c => ('a' ≤ c && c ≤ 'z') || ('0' ≤ c && c ≤ '9') || c == '-'

/-- `strings.EqualFold(name, "all")`: the two letters have no other case variants. -/
def isAll (name : String) : Bool := name.toList.map Char.toLower == "all".toList

/-- The loop of `validateGPUDeviceMap`; `deviceName` is `parser.ParseQualifiedName`. -/
def checkDevices (deviceName : String → Option String) :
    List String → List (String × String) → Except Err Unit
  | _, [] => .ok ()
  | seen, (name, device) :: rest => do
    require (validGPUAlias name) "invalid GPU device alias"
    require ((deviceName device).any fun name => !isAll name) "invalid CDI device identifier"
    require (!seen.contains device) "duplicate CDI device identifier"
    checkDevices deviceName (device :: seen) rest

def validateGPUDeviceMap (deviceName : String → Option String) (devices : DeviceMap)
    (permitGPU : Bool) (maximum : UInt32) : Except Err Unit :=
  if permitGPU then do
    require (!(maximum == 0 || decide (UInt32.ofNat devices.entries.length < maximum) ||
      decide (64 < devices.entries.length))) "invalid GPU device capacity"
    checkDevices deviceName [] devices.entries
  else require (devices.entries.isEmpty && maximum == 0) "GPU devices require GPU permission"

variable {devices : DeviceMap} {seen : List String}

theorem nodup_of_checkDevices {deviceName : String → Option String}
    {entries : List (String × String)} (h : checkDevices deviceName seen entries = .ok ()) :
    (entries.map Prod.snd).Nodup ∧ ∀ device ∈ entries.map Prod.snd, device ∉ seen := by
  induction entries generalizing seen with
  | nil => exact ⟨List.nodup_nil, fun device hdevice => nomatch hdevice⟩
  | cons entry rest ih =>
    obtain ⟨-, h⟩ := require_bind_eq_ok.mp h
    obtain ⟨-, h⟩ := require_bind_eq_ok.mp h
    obtain ⟨hseen, h⟩ := require_bind_eq_ok.mp h
    obtain ⟨hnodup, hnew⟩ := ih h
    have hfresh : entry.2 ∉ seen := by simpa using hseen
    rw [List.map_cons]
    refine ⟨List.nodup_cons.mpr ⟨fun hmem => hnew _ hmem (List.mem_cons_self ..), hnodup⟩, ?_⟩
    intro device hdevice
    rcases List.mem_cons.mp hdevice with rfl | hrest
    · exact hfresh
    · exact fun hmem => hnew device hrest (List.mem_cons_of_mem _ hmem)

/-- No two aliases of an accepted map are the same device. -/
theorem get?_injective {deviceName : String → Option String} {permitGPU : Bool} {maximum : UInt32}
    (h : validateGPUDeviceMap deviceName devices permitGPU maximum = .ok ()) {a b device : String}
    (ha : devices.get? a = some device) (hb : devices.get? b = some device) :
    a = b := by
  have hnodup : (devices.entries.map Prod.snd).Nodup := by
    unfold validateGPUDeviceMap at h
    split at h
    · obtain ⟨-, h⟩ := require_bind_eq_ok.mp h
      exact (nodup_of_checkDevices h).1
    · have hempty : devices.entries = [] := by
        by_contra hne
        simp [require, hne] at h
      rw [hempty]
      exact List.nodup_nil
  have hsame := List.inj_on_of_nodup_map hnodup (mem_of_get? ha) (mem_of_get? hb) rfl
  exact congrArg Prod.fst hsame

/-- The loop of `RunIsolatedOnDevices`. -/
def resolveAliases (devices : DeviceMap) : List String → List String → Except Err (List String)
  | _, [] => .ok []
  | seen, name :: rest =>
    match devices.get? name with
    | none => .error (.text "unknown GPU device alias")
    | some device =>
      if name ∈ seen then .error (.text "duplicate GPU device alias")
      else (device :: ·) <$> resolveAliases devices (name :: seen) rest

/-- The devices are those of the aliases, which are all different. -/
theorem resolveAliases_ok {aliases result : List String}
    (h : resolveAliases devices seen aliases = .ok result) :
    List.Forall₂ (fun name device => devices.get? name = some device) aliases result ∧
      aliases.Nodup ∧ ∀ name ∈ aliases, name ∉ seen := by
  induction aliases generalizing seen result with
  | nil =>
    obtain rfl := Except.ok.inj h
    exact ⟨.nil, List.nodup_nil, fun name hname => nomatch hname⟩
  | cons name rest ih =>
    unfold resolveAliases at h
    split at h
    · cases h
    · next device hdevice =>
        split at h
        · cases h
        · next hnew =>
            cases hrest : resolveAliases devices (name :: seen) rest with
            | error err =>
              rw [hrest] at h
              cases h
            | ok others =>
              rw [hrest] at h
              obtain rfl := Except.ok.inj h
              obtain ⟨hdevices, hnodup, hseen⟩ := ih hrest
              refine ⟨.cons hdevice hdevices,
                List.nodup_cons.mpr
                  ⟨fun hmem => hseen name hmem (List.mem_cons_self ..), hnodup⟩, ?_⟩
              intro other hother
              rcases List.mem_cons.mp hother with rfl | hmem
              · exact hnew
              · exact fun hs => hseen other hmem (List.mem_cons_of_mem _ hs)

/-- Different aliases of the map are resolved. -/
theorem resolveAliases_of_nodup {aliases : List String} (hnodup : aliases.Nodup)
    (hknown : ∀ name ∈ aliases, (devices.get? name).isSome = true)
    (hnew : ∀ name ∈ aliases, name ∉ seen) :
    ∃ result, resolveAliases devices seen aliases = .ok result := by
  induction aliases generalizing seen with
  | nil => exact ⟨[], rfl⟩
  | cons name rest ih =>
    obtain ⟨hname, hrest⟩ := List.nodup_cons.mp hnodup
    obtain ⟨device, hdevice⟩ := Option.isSome_iff_exists.mp (hknown name (List.mem_cons_self ..))
    have hfresh : ∀ other ∈ rest, other ∉ name :: seen := by
      intro other hother hmem
      rcases List.mem_cons.mp hmem with rfl | hseen
      · exact hname hother
      · exact hnew other (List.mem_cons_of_mem _ hother) hseen
    obtain ⟨others, hothers⟩ :=
      ih hrest (fun other h => hknown other (List.mem_cons_of_mem _ h)) hfresh
    refine ⟨device :: others, ?_⟩
    rw [resolveAliases, hdevice]
    simp only [hnew name (List.mem_cons_self ..), if_false, hothers]
    rfl

/-- `RunIsolatedOnDevices` before `runIsolated`. -/
def assignDevices (devices : DeviceMap) (request : ContainerRequest) (aliases : List String) :
    Except Err (List String) := do
  require (!aliases.isEmpty && aliases.length == request.limits.gpuDeviceCount.toNat)
    "invalid GPU device assignment"
  resolveAliases devices [] aliases

/-- What a call on devices is given. -/
theorem assignDevices_ok {request : ContainerRequest} {aliases result : List String}
    (h : assignDevices devices request aliases = .ok result) :
    aliases ≠ [] ∧ aliases.length = request.limits.gpuDeviceCount.toNat ∧ aliases.Nodup ∧
      List.Forall₂ (fun name device => devices.get? name = some device) aliases result := by
  obtain ⟨hlength, h⟩ := require_bind_eq_ok.mp h
  rw [Bool.and_eq_true, Bool.not_eq_true', List.isEmpty_eq_false_iff, beq_iff_eq] at hlength
  obtain ⟨hdevices, hnodup, -⟩ := resolveAliases_ok h
  exact ⟨hlength.1, hlength.2, hnodup, hdevices⟩

end TosAi.Workload
