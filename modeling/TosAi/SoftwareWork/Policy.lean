/-
  What an executor is asked to do, and what its policy allows (`pkg/executor`).

  A `Policy` is the operator's ceiling, a `Spec` one request for an isolated run.
  `Policy.check` is `Policy.Validate`: the policy is looked at first, and then every
  field of the request.
-/
import TosAi.Foundation.Checks
import TosAi.Foundation.GoStd

set_option autoImplicit false

namespace TosAi.SoftwareWork

open Foundation
open Foundation.Json (Bytes)

inductive Err where
  | text (message : String)
  /-- an error of the operating system that is passed on -/
  | io
  /-- the error of a context that was cancelled -/
  | context
  /-- `fmt.Errorf` with a wrapped error -/
  | wrapped (message : String) (err : Err)
  /-- an error of the bound executor -/
  | executor (message : String)
  deriving DecidableEq, Repr

/-- `errors.New`. -/
instance : Coe String Err := ⟨.text⟩

/-! ## Requests -/

inductive NetworkMode where
  | none
  | allowlist
  | other (value : String)
  deriving DecidableEq, Repr

/-- Times are in nanoseconds. -/
structure Limits where
  cpuMillis : UInt64
  memoryBytes : UInt64
  diskBytes : UInt64
  pids : UInt32
  executionTime : Int
  outputBytes : UInt64
  gpuDeviceCount : UInt32
  deriving DecidableEq, Repr

structure Mount where
  source : String
  target : String
  deriving DecidableEq, Repr

structure Spec where
  imageDigest : String
  entrypoint : List String
  workingDirectory : String
  environment : List (String × String)
  workspaceArchive : Bool
  readOnlyRoot : Bool
  network : NetworkMode
  allowedHosts : List String
  allowGPU : Bool
  userID : UInt32
  groupID : UInt32
  privileged : Bool
  noNewPrivileges : Bool
  hostMounts : List Mount
  exposeRuntimeSocket : Bool
  limits : Limits
  deriving DecidableEq, Repr

structure Usage where
  cpuMillis : UInt64
  peakMemory : UInt64
  diskWritten : UInt64
  duration : Int64
  deriving DecidableEq, Repr

/-- `Result`. -/
structure RunResult where
  exitCode : Int64
  output : Bytes
  usage : Usage
  deriving DecidableEq, Repr

structure ContainerRequest where
  executionDigest : String
  imageDigest : String
  entrypoint : List String
  workingDirectory : String
  environment : List (String × String)
  workspaceArchive : Bool
  userID : UInt32
  groupID : UInt32
  readOnlyRoot : Bool
  noNewPrivileges : Bool
  network : NetworkMode
  allowedHosts : List String
  allowGPU : Bool
  limits : Limits
  deriving DecidableEq, Repr

/-! ## Hosts -/

/-- The text is empty where it may not be, too long, or has a zero byte. -/
def invalidContainerString (value : String) (maximum : Int) (allowEmpty : Bool) : Bool :=
  (!allowEmpty && value.utf8ByteSize == 0) || decide (maximum < value.utf8ByteSize) ||
    value.toList.contains '\x00'

/-- `strconv.ParseUint(port, 10, 16)`. -/
def parsePort (port : List Char) : Option Nat :=
  if port ≠ [] ∧ port.all Char.isDigit then
    let n := port.foldl (fun n c => n * 10 + (c.toNat - '0'.toNat)) 0
    if n < 2 ^ 16 then some n else none
  else none

def invalidNetworkPort (port : List Char) : Bool :=
  match parsePort port with
  | some n => n == 0
  | none => true

/-- The parts before and behind the last colon. -/
def lastColon (s : List Char) : Option (List Char × List Char) :=
  match s.reverse.idxOf? ':' with
  | some k => some ((s.reverse.drop (k + 1)).reverse, (s.reverse.take k).reverse)
  | none => none

/-- `net.SplitHostPort`. -/
def splitHostPort (s : List Char) : Option (List Char × List Char) := do
  let (before, port) ← lastColon s
  if s.head? = some '[' then
    let stop ← s.idxOf? ']'
    if stop + 1 = before.length ∧ !(s.drop 1).contains '[' ∧ !(s.drop (stop + 1)).contains ']' then
      some ((s.take stop).drop 1, port)
    else none
  else if before.contains ':' ∨ s.contains '[' ∨ s.contains ']' then none
  else some (before, port)

def invalidLabel (label : List Char) : Bool :=
  label.isEmpty || decide (63 < label.length) || label.head? == some '-' ||
    label.getLast? == some '-' || !label.all fun c => c.isAlphanum || c == '-'

def invalidDNSHostname (hostname : List Char) : Bool :=
  hostname.isEmpty || decide (253 < hostname.length) || (hostname.splitOn '.').any invalidLabel

def invalidNetworkHost (host : String) (maximum : Int) : Bool :=
  if invalidContainerString host maximum false then true
  else if (parseIP host).isSome then false
  else if startsWith "[" host && host.toList.getLast? == some ']' then
    (parseIP (String.ofList (host.toList.drop 1).dropLast)).isNone
  else if host.toList.contains ':' then
    match splitHostPort host.toList with
    | none => true
    | some (hostname, port) =>
      if invalidNetworkPort port then true
      else if (parseIP (String.ofList hostname)).isSome then false
      else invalidDNSHostname hostname
  else invalidDNSHostname host.toList

/-- `seen` are the hosts before. -/
def validateNetworkHosts (maximum : Int) : List String → List String → Except Err Unit
  | _, [] => .ok ()
  | seen, host :: hosts => do
    require (!invalidNetworkHost host maximum)
      "host is empty, malformed, or exceeds the string bound"
    require (!seen.contains host) "duplicate host"
    validateNetworkHosts maximum (host :: seen) hosts

/-! ## Policies -/

structure Policy where
  allowedImages : List String
  allowedNetworkHosts : List String
  maxAllowedImages : Int
  maxEnvironment : Int
  maxArguments : Int
  maxAllowedHosts : Int
  maxStringBytes : Int
  maxInputBytes : UInt64
  ceiling : Limits
  permitGPU : Bool
  permitNetwork : Bool
  requireReadOnlyRoot : Bool
  deriving DecidableEq, Repr

def maxAllowedImagesHard : Int := 1024
def maxAllowedNetworkHostsHard : Int := 1024
def maxExecutionIDBytes : Nat := 128

/-- `^sha256:[0-9a-f]{64}$`. -/
def digestPattern (s : String) : Bool := matchesHex64 "sha256:" s

/-- Put a text in front of an error. -/
def wrapError (message : String) (value : Except Err Unit) : Except Err Unit :=
  match value with
  | .ok () => .ok ()
  | .error err => .error (.wrapped message err)

def validatePolicyCeiling (ceiling : Limits) (permitGPU : Bool) : Except Err Unit := do
  require (!(ceiling.cpuMillis == 0 || ceiling.memoryBytes == 0 || ceiling.diskBytes == 0 ||
      ceiling.pids == 0 || decide (ceiling.executionTime ≤ 0) || ceiling.outputBytes == 0))
    "executor policy contains a zero or invalid resource ceiling"
  require (!(permitGPU && ceiling.gpuDeviceCount == 0))
    "GPU policy requires a positive device ceiling"

namespace Policy

/-- `Policy.validate`, the check of the policy itself. -/
def validate (p : Policy) : Except Err Unit := do
  require
    (!(decide (p.maxAllowedImages ≤ 0) || decide (maxAllowedImagesHard < p.maxAllowedImages) ||
      decide (p.maxAllowedImages < p.allowedImages.length) ||
      decide (maxAllowedNetworkHostsHard < p.allowedNetworkHosts.length) ||
      decide (p.maxEnvironment < 0) || decide (p.maxArguments ≤ 0) ||
      decide (p.maxAllowedHosts < 0) || decide (maxAllowedNetworkHostsHard < p.maxAllowedHosts) ||
      decide (p.maxStringBytes ≤ 0) || p.maxInputBytes == 0))
    "invalid executor policy"
  validatePolicyCeiling p.ceiling p.permitGPU
  if p.permitNetwork then
    require (!(p.maxAllowedHosts == 0 || p.allowedNetworkHosts.isEmpty))
      "network policy requires an operator host allowlist"
  else
    require p.allowedNetworkHosts.isEmpty "network host allowlist requires network permission"
  wrapError "invalid executor network policy"
    (validateNetworkHosts p.maxStringBytes [] p.allowedNetworkHosts)
  require (p.allowedImages.all digestPattern) "executor policy contains an unpinned image"

end Policy

/-- `path.Clean` of a path with `/` in front is `filepath.Clean`. -/
def validWorkspaceDirectory (value : String) : Bool :=
  (value == "/workspace/source" || startsWith "/workspace/source/" value) &&
    pathClean value == value && decide (value.utf8ByteSize ≤ 4096)

/-- One line of the table in `withinCeiling`. -/
def limitCheck (name : String) (requested maximum : UInt64) : Except Err Unit :=
  require (!(requested == 0 || maximum == 0 || decide (maximum < requested)))
    (name ++ " limit is zero or exceeds policy")

def withinCeiling (request ceiling : Limits) : Except Err Unit := do
  require (decide (0 < request.executionTime) && decide (0 < ceiling.executionTime))
    "execution time limit is zero or exceeds policy"
  limitCheck "cpu" request.cpuMillis ceiling.cpuMillis
  limitCheck "memory" request.memoryBytes ceiling.memoryBytes
  limitCheck "disk" request.diskBytes ceiling.diskBytes
  limitCheck "output" request.outputBytes ceiling.outputBytes
  limitCheck "execution time" (toUInt64 request.executionTime) (toUInt64 ceiling.executionTime)
  limitCheck "pids" (UInt64.ofNat request.pids.toNat) (UInt64.ofNat ceiling.pids.toNat)

namespace Policy

/-- The network mode and the hosts that go with it. -/
def checkNetwork (p : Policy) (spec : Spec) : Except Err Unit :=
  match spec.network with
  | .none => require spec.allowedHosts.isEmpty "allowed hosts require allowlist network mode"
  | .allowlist => do
    require (p.permitNetwork && !spec.allowedHosts.isEmpty) "network access is not authorized"
    require (spec.allowedHosts.all p.allowedNetworkHosts.contains) "network host is not authorized"
  | .other _ => .error (.text "invalid network mode")

/-- `Policy.Validate`. -/
def check (p : Policy) (spec : Spec) : Except Err Unit := do
  p.validate
  require (digestPattern spec.imageDigest) "container image must be pinned by sha256 digest"
  require (p.allowedImages.contains spec.imageDigest) "container image is not allowlisted"
  require (!(spec.entrypoint.isEmpty || decide (p.maxArguments < spec.entrypoint.length) ||
      decide (p.maxEnvironment < spec.environment.length) ||
      decide (p.maxAllowedHosts < spec.allowedHosts.length) || !spec.hostMounts.isEmpty))
    "executor argument or environment bounds exceeded"
  require (!spec.entrypoint.any fun argument =>
      invalidContainerString argument p.maxStringBytes false) "executor argument is invalid"
  if spec.workspaceArchive then
    require (validWorkspaceDirectory spec.workingDirectory)
      "workspace execution requires a bounded working directory"
  else
    require (spec.workingDirectory == "" || spec.workingDirectory == "/")
      "working directory requires a workspace archive"
  require (!spec.environment.any fun (key, value) =>
      invalidContainerString key p.maxStringBytes false || key.toList.contains '=' ||
        invalidContainerString value p.maxStringBytes true) "executor environment is invalid"
  wrapError "executor allowed host is invalid"
    (validateNetworkHosts p.maxStringBytes [] spec.allowedHosts)
  require (!spec.privileged) "privileged execution is forbidden"
  require (!(spec.userID == 0 || spec.groupID == 0))
    "container must run as a non-root user and group"
  require spec.noNewPrivileges "no-new-privileges is required"
  require (!spec.exposeRuntimeSocket) "container runtime socket exposure is forbidden"
  require (!(p.requireReadOnlyRoot && !spec.readOnlyRoot)) "read-only root filesystem is required"
  p.checkNetwork spec
  require (!(spec.allowGPU && !p.permitGPU)) "GPU device access is not authorized"
  if spec.allowGPU then
    require (!(spec.limits.gpuDeviceCount == 0 ||
        decide (p.ceiling.gpuDeviceCount < spec.limits.gpuDeviceCount)))
      "GPU device limit is zero or exceeds policy"
  else
    require (spec.limits.gpuDeviceCount == 0) "GPU device count requires GPU authorization"
  withinCeiling spec.limits p.ceiling

/-- `Policy.ValidateInput`. -/
def validateInput (p : Policy) (input : Bytes) : Except Err Unit :=
  require (decide (input.length ≤ p.maxInputBytes.toNat)) "executor input exceeds policy"

end Policy

/-- `ExecutionDigest`. -/
def executionDigest (sha256 : Bytes → Bytes) (executionID : String) : Except Err String :=
  if executionID = "" ∨ maxExecutionIDBytes < executionID.utf8ByteSize then
    .error (.text "invalid isolated execution identity")
  else
    .ok ("sha256:" ++ hexEncode
      (sha256 (stringBytes "TOS-AI-EXECUTION-ID-V1" ++ [0] ++ stringBytes executionID)))

def validateResult (limits : Limits) (result : RunResult) : Except Err Unit :=
  require (!(decide (result.exitCode.toInt < 0) || decide (255 < result.exitCode.toInt) ||
      decide (limits.outputBytes.toNat < result.output.length) ||
      decide (limits.cpuMillis < result.usage.cpuMillis) ||
      decide (limits.memoryBytes < result.usage.peakMemory) ||
      decide (limits.diskBytes < result.usage.diskWritten) ||
      decide (result.usage.duration.toInt < 0) ||
      decide (limits.executionTime < result.usage.duration.toInt)))
    "isolated execution result exceeds requested limits"

/-- What the client is handed. -/
def containerRequest (executionDigest : String) (spec : Spec) : ContainerRequest where
  executionDigest := executionDigest
  imageDigest := spec.imageDigest
  entrypoint := spec.entrypoint
  workingDirectory := spec.workingDirectory
  environment := spec.environment
  workspaceArchive := spec.workspaceArchive
  userID := spec.userID
  groupID := spec.groupID
  readOnlyRoot := spec.readOnlyRoot
  noNewPrivileges := spec.noNewPrivileges
  network := spec.network
  allowedHosts := spec.allowedHosts
  allowGPU := spec.allowGPU
  limits := spec.limits

/-! ## The frozen contract -/

structure Contract where
  manifestDigest : String
  toolchainDigest : String
  sandboxDigest : String
  executable : String
  arguments : List String
  workingDirectory : String
  limits : Limits
  userID : UInt32
  groupID : UInt32
  deriving DecidableEq, Repr

/-- The last element of a path (`path.Base`), which is clean here. -/
def pathBase (path : String) : String := String.ofList ((path.toList.splitOn '/').getLastD [])

def forbiddenExecutable (value : String) : Bool :=
  ["sh", "bash", "dash", "zsh", "fish", "ksh", "cmd", "powershell", "pwsh"].contains
    (pathBase value)

def validateContract (value : Contract) : Except Err Unit := do
  require (digestPattern value.manifestDigest && digestPattern value.toolchainDigest &&
      value.sandboxDigest == value.manifestDigest && value.executable != "" &&
      !value.arguments.isEmpty && decide (value.arguments.length ≤ 64) &&
      startsWith "/" value.executable && pathClean value.executable == value.executable &&
      !forbiddenExecutable value.executable && value.workingDirectory == "/workspace/source" &&
      value.userID != 0 && value.groupID != 0 && value.limits.cpuMillis != 0 &&
      value.limits.memoryBytes != 0 && value.limits.diskBytes != 0 && value.limits.pids != 0 &&
      decide (0 < value.limits.executionTime) && value.limits.outputBytes != 0 &&
      value.limits.gpuDeviceCount == 0)
    "invalid software-work contract"
  require (value.arguments.all fun argument =>
      argument != "" && decide (argument.utf8ByteSize ≤ 512) && !argument.toList.contains '\x00')
    "invalid software-work contract"

/-- What the runner asks its executor for. -/
def Contract.spec (contract : Contract) : Spec where
  imageDigest := contract.toolchainDigest
  entrypoint := contract.executable :: contract.arguments
  workingDirectory := contract.workingDirectory
  environment := [("GOROOT", "/usr/local/go"), ("HOME", "/workspace"),
    ("GOCACHE", "/workspace/go-cache"), ("GOTMPDIR", "/workspace"), ("TMPDIR", "/workspace"),
    ("CGO_ENABLED", "0"), ("GOMAXPROCS", "2")]
  workspaceArchive := true
  readOnlyRoot := true
  network := .none
  allowedHosts := []
  allowGPU := false
  userID := contract.userID
  groupID := contract.groupID
  privileged := false
  noNewPrivileges := true
  hostMounts := []
  exposeRuntimeSocket := false
  limits := contract.limits

def frozenV1ManifestDigest : String :=
  "sha256:e4db0138ca2a4d5ad8f3c7ec458304927344e341ae610ee0a682b9cc5b00594e"

def frozenV1ImageDigest : String :=
  "sha256:9624bca74096f810c5b24e489521dde124fadcfa1808581648b38bdc1ba1b105"

def frozenV1Limits : Limits where
  cpuMillis := 120000
  memoryBytes := 2 ^ 30
  diskBytes := 2 * 2 ^ 30
  pids := 64
  executionTime := 180 * 1000000000
  outputBytes := 16 * 2 ^ 20
  gpuDeviceCount := 0

def frozenV1Policy : Policy where
  allowedImages := [frozenV1ImageDigest]
  allowedNetworkHosts := []
  maxAllowedImages := 1
  maxEnvironment := 8
  maxArguments := 8
  maxAllowedHosts := 0
  maxStringBytes := 4096
  maxInputBytes := 16 * 2 ^ 20
  ceiling := frozenV1Limits
  permitGPU := false
  permitNetwork := false
  requireReadOnlyRoot := true

def frozenV1Contract : Contract where
  manifestDigest := frozenV1ManifestDigest
  toolchainDigest := frozenV1ImageDigest
  sandboxDigest := frozenV1ManifestDigest
  executable := "/usr/local/bin/go"
  arguments := ["test", "./...", "-count=1"]
  workingDirectory := "/workspace/source"
  limits := frozenV1Limits
  userID := 65532
  groupID := 65532

theorem validateContract_frozenV1 : validateContract frozenV1Contract = .ok () := by
  decide +kernel

/-- **The frozen request is within the frozen policy.** -/
theorem check_frozenV1 : frozenV1Policy.check frozenV1Contract.spec = .ok () := by
  decide +kernel

end TosAi.SoftwareWork
