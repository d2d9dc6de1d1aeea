/-
  The methods of a Manager as programs.

  Every operation on the root and its two slot directories is one operation of the
  program, in the order of the source.  Each method holds `m.mu` from its first look at
  the manager to its return, so a method is given the manager as it is then, and returns
  the state the source assigns to `m.state` at the end; on an error nothing is assigned.

  Looking at a file, opening it and reading it are one operation.  Of the artifact's
  reader only the sequence of its answers is known.
-/
import TosAi.Foundation.Crash
import TosAi.SoftwareUpdate.State

set_option autoImplicit false

namespace TosAi.SoftwareUpdate

open Foundation
open Foundation.Body (attempt result ensure)
open Foundation.Json (Bytes)

/-! ## Names and operations -/

inductive Directory where
  | root
  | slot (s : SlotName)
  deriving DecidableEq, Repr

/-- `state.json`, and `artifact.bin` and `manifest.json` of a slot. -/
inductive Entry where
  | state
  | artifact (slot : SlotName)
  | manifest (slot : SlotName)
  deriving DecidableEq, Repr

/-- A file, or the file of the same name with `.tmp` after it. -/
inductive FileName where
  | plain (entry : Entry)
  | temporary (entry : Entry)
  deriving DecidableEq, Repr

def Entry.directory : Entry → Directory
  | .state => .root
  | .artifact s | .manifest s => .slot s

def FileName.directory : FileName → Directory
  | .plain entry | .temporary entry => entry.directory

inductive Op where
  | file (o : FsOp FileName)
  /-- `os.MkdirAll` -/
  | makeDirectory (d : Directory)
  /-- `requirePrivateDirectory` -/
  | privateDirectory (d : Directory)
  | openDirectory (d : Directory)
  | syncDirectory (d : Directory)
  /-- `dirlock.Acquire` -/
  | acquireDirectory
  /-- `ownership.Close()` -/
  | releaseDirectory
  /-- `ctx.Err() != nil` -/
  | contextErr

@[reducible] def Op.Res : Op → Type
  | .file o => o.Res
  | _ => Bool

/-- A method body: operations, and an error that ends it. -/
abbrev Updating (α : Type) := ExceptT Err (Prog Op Op.Res) α

/-- Perform one operation. -/
abbrev perform (o : Op) : Updating o.Res := Body.perform o

/-! ## Files -/

/-- The error of an operation, if it failed. -/
def failure (ok : Bool) : Option Err := if ok then none else some .io

/-- `errors.Join`. -/
def joinErrors (errs : List (Option Err)) : Err := .joined (errs.filterMap id)

/-- Unless all went well, remove the temporary file and fail. -/
def discardUnless (ok : Bool) (entry : Entry) (err : Err) : Updating Unit :=
  if ok then pure ()
  else do
    let _ ← perform (.file (.remove (.temporary entry)))
    throw err

/-- `os.OpenFile` of the temporary file, exclusively. -/
def createTemporary (entry : Entry) (mode : Nat) (message : String) : Updating Unit := do
  match ← perform (.file (.create (.temporary entry) mode)) with
  | .ok () => pure ()
  | .error _ => throw (.text message)

def writeAtomic (entry : Entry) (data : Bytes) (mode : Nat) : Updating Unit := do
  createTemporary entry mode "create atomic software update file"
  let written ← perform (.file (.write (.temporary entry) data))
  let synced ← perform (.file (.sync (.temporary entry)))
  let closed ← perform (.file (.close (.temporary entry)))
  discardUnless (written && synced && closed) entry
    (joinErrors [failure written, failure synced, failure closed])
  let renamed ← perform (.file (.rename (.temporary entry) (.plain entry)))
  discardUnless renamed entry (.text "commit atomic software update file")
  let chmodded ← perform (.file (.chmod (.plain entry) mode))
  ensure chmodded (.text "protect software update file")

def syncDirectory (d : Directory) : Updating Unit := do
  let opened ← perform (.openDirectory d)
  ensure opened (.text "open software update directory")
  let synced ← perform (.syncDirectory d)
  ensure synced (.text "sync software update directory")

def storeState (s : State) : Updating Unit := do
  result s.validate
  writeAtomic .state s.marshal 0o600
  syncDirectory .root

def maxStateBytes : Nat := 4 * 2 ^ 10

def maxManifestBytes : Nat := 16 * 2 ^ 10

/-- `readPrivateFile`; only a missing file is told apart by its callers. -/
def readPrivateFile (entry : Entry) (maximum mode : Nat) : Updating (Except FsErr Bytes) := do
  match ← perform (.file (.read (.plain entry))) with
  | .error e => pure (.error e)
  | .ok seen =>
    pure (if seen.file.perm == mode && decide (seen.file.data.length ≤ maximum)
      then .ok seen.file.data else .error .io)

def readManifest (slot : SlotName) : Updating Manifest := do
  match ← readPrivateFile (.manifest slot) maxManifestBytes 0o600 with
  | .error _ => throw (.text "read installed software manifest")
  | .ok data =>
    match Manifest.decode data with
    | none => throw (.text "decode installed software manifest")
    | some manifest => pure manifest

def cleanInterruptedFiles (slot : SlotName) : Updating Unit := do
  let _ ← perform (.file (.remove (.temporary (.artifact slot))))
  let _ ← perform (.file (.remove (.temporary (.manifest slot))))

/-! ## Open -/

structure Config where
  root : String
  target : String
  publicKeys : List (String × Bytes)

/-- `publicKeys[keyID]`. -/
def Config.key (cfg : Config) (keyID : String) : Option Bytes := cfg.publicKeys.lookup keyID

/-- The checks of `Open` on its configuration. -/
def Config.check (cfg : Config) : Except Err Unit := do
  require (pathIsAbs cfg.root && pathClean cfg.root == cfg.root && cfg.target != "" &&
      cfg.target.utf8ByteSize ≤ 256 && !cfg.publicKeys.isEmpty)
    "invalid software update configuration"
  require (cfg.publicKeys.all fun (keyID, key) =>
      keyID != "" && keyID.utf8ByteSize ≤ 512 && key.length == publicKeySize)
    "invalid software update trust root"

/-- Whether a check passed. -/
def passes (value : Except Err Unit) : Bool :=
  match value with
  | .ok () => true
  | .error _ => false

section Methods

variable (K : Crypto) (cfg : Config)

/-- The end of `verifyInstalledSlot`, with the artifact's file. -/
def verifyInstalledArtifact (manifest : Manifest) (file : File) : Updating Unit := do
  ensure (file.perm == 0o500 && UInt64.ofNat file.data.length == manifest.sizeBytes)
    (.text "invalid installed software artifact")
  ensure (passes (manifest.verifyArtifact K file.data))
    (.text "installed software artifact failed verification")

def verifyInstalledSlot (revision : UInt64) (slot : SlotName) : Updating Unit := do
  let manifest ← readManifest slot
  ensure (passes (manifest.verifyInstalled K (cfg.key manifest.keyID) cfg.target revision))
    (.text "installed software manifest failed verification")
  match ← perform (.file (.read (.plain (.artifact slot)))) with
  | .error .notExist => throw (.text "invalid installed software artifact")
  | .error _ => throw (.text "open installed software artifact")
  | .ok seen => verifyInstalledArtifact K manifest seen.file

def verifyInstalledSlots (revision : UInt64) : List SlotName → Updating Unit
  | [] => pure ()
  | slot :: rest => do
    verifyInstalledSlot K cfg revision slot
    verifyInstalledSlots revision rest

/-- The end of `loadAndRecover`, with the state it read. -/
def recoverState (s : State) : Updating State := do
  ensure (passes s.validate) (.text "invalid software update state")
  verifyInstalledSlots K cfg s.securityRevision s.references
  if s.awaitingHealth && !s.bootAttempted then do
    storeState s.booted
    pure s.booted
  else if s.awaitingHealth then do
    storeState s.fellBack
    pure s.fellBack
  else pure s

def loadAndRecover : Updating State := do
  match ← readPrivateFile .state maxStateBytes 0o600 with
  | .error .notExist => do
    storeState State.initial
    pure State.initial
  | .error _ => throw (.text "read software update state")
  | .ok data =>
    match decodeState data with
    | none => throw (.text "invalid software update state")
    | some s => recoverState K cfg s

/-- The part of `Open` for one slot directory. -/
def prepareSlot (slot : SlotName) : Updating Unit := do
  let made ← perform (.makeDirectory (.slot slot))
  ensure made (.text "create software update slot")
  let isPrivate ← perform (.privateDirectory (.slot slot))
  ensure isPrivate (.text "software update directory is not private")
  cleanInterruptedFiles slot

/-- The part of `Open` that owns the root. -/
def openOwned : Updating State := do
  let _ ← perform (.file (.remove (.temporary .state)))
  prepareSlot .a
  prepareSlot .b
  loadAndRecover K cfg

/-- Give the root back if the body fails (`defer` with `opened`). -/
def releasing (body : Updating State) : Updating State := do
  match ← attempt body with
  | .ok s => pure s
  | .error err => do
    let _ ← perform .releaseDirectory
    throw err

/-- `Open`; the state is that of the new manager. -/
def openManager : Updating State := do
  result cfg.check
  let made ← perform (.makeDirectory .root)
  ensure made (.text "create software update root")
  let isPrivate ← perform (.privateDirectory .root)
  ensure isPrivate (.text "software update directory is not private")
  let acquired ← perform .acquireDirectory
  ensure acquired (.text "software update root is already owned")
  releasing (openOwned K cfg)

/-! ## The methods -/

structure Manager where
  state : State
  closed : Bool
  closeErr : Option Err

/-- The answers of an artifact's reader: the pieces, then its error or the end. -/
structure Reader where
  pieces : List Bytes
  err : Option Err

/-- The arguments of `Stage`; the context and the reader may be nil. -/
structure StageRequest where
  hasContext : Bool
  manifest : Manifest
  artifact : Option Reader
  now : Time

/-- `io.Copy` from the reader, through the limit of `VerifyArtifact`, the check of the
context and the tee into the temporary file; `copied` is what the hash has seen. -/
def copyArtifact (slot : SlotName) (err : Option Err) :
    List Bytes → Nat → Bytes → Updating Bytes
  | _, 0, copied => pure copied
  | [], _ + 1, copied => do
    let cancelled ← perform .contextErr
    ensure (!cancelled) .context
    match err with
    | none => pure copied
    | some err => throw err
  | piece :: rest, limit + 1, copied => do
    let cancelled ← perform .contextErr
    ensure (!cancelled) .context
    let part := piece.take (limit + 1)
    let written ← perform (.file (.write (.temporary (.artifact slot)) part))
    ensure written .io
    copyArtifact slot err rest (limit + 1 - part.length) (copied ++ part)

/-- `VerifyArtifact` of the reader, with the copy it writes. -/
def verifyStream (slot : SlotName) (manifest : Manifest) (reader : Reader) : Updating Unit := do
  result manifest.verifyArtifactStart
  let copied ← copyArtifact slot reader.err reader.pieces manifest.copyLimit []
  result (manifest.verifyCopied K copied)

/-- The error in a result. -/
def errorOf (value : Except Err Unit) : Option Err :=
  match value with
  | .ok () => none
  | .error err => some err

/-- The part of `Stage` that writes the artifact. -/
def stageArtifact (slot : SlotName) (manifest : Manifest) (reader : Reader) : Updating Unit := do
  cleanInterruptedFiles slot
  createTemporary (.artifact slot) 0o600 "create staged software artifact"
  let verified ← attempt (verifyStream K slot manifest reader)
  let synced ← perform (.file (.sync (.temporary (.artifact slot))))
  let closed ← perform (.file (.close (.temporary (.artifact slot))))
  discardUnless (passes verified && synced && closed) (.artifact slot)
    (joinErrors [errorOf verified, failure synced, failure closed])
  let cancelled ← perform .contextErr
  discardUnless (!cancelled) (.artifact slot) .context
  let renamed ← perform (.file (.rename (.temporary (.artifact slot)) (.plain (.artifact slot))))
  discardUnless renamed (.artifact slot) (.text "commit staged software artifact")
  let chmodded ← perform (.file (.chmod (.plain (.artifact slot)) 0o500))
  ensure chmodded (.text "protect staged software artifact")

/-- The checks of `Stage` before it writes. -/
def stageCheck (m : Manager) (request : StageRequest) : Except Err Reader := do
  match request.hasContext, request.artifact with
  | true, some reader => do
    require (!m.closed) "software update manager is closed"
    require (m.state.pending.isNone && !m.state.awaitingHealth)
      "software update transition already pending"
    let key := cfg.key request.manifest.keyID
    require ((key.getD []).length == publicKeySize) "software update signing key is not trusted"
    match request.manifest.verify K key cfg.target m.state.securityRevision request.now with
    | .ok () => .ok reader
    | .error err => .error (.wrapped "verify software update manifest" err)
  | _, _ => .error (.text "invalid software update stage request")

/-- `Stage`; its value is the new state, whose pending slot is the one returned. -/
def stage (m : Manager) (request : StageRequest) : Updating State := do
  let reader ← result (stageCheck K cfg m request)
  let slot := m.state.stageSlot
  stageArtifact K slot request.manifest reader
  writeAtomic (.manifest slot) request.manifest.marshal 0o600
  syncDirectory (.slot slot)
  storeState (m.state.staged slot)
  pure (m.state.staged slot)

def activatePending (m : Manager) : Updating State := do
  ensure (!m.closed && m.state.pending.isSome && !m.state.awaitingHealth)
    (.text "no software update is ready for activation")
  storeState m.state.activated
  pure m.state.activated

/-- The part of `ConfirmHealthy` with the active slot. -/
def confirmSlot (s : State) (slot : SlotName) : Updating State := do
  let manifest ← readManifest slot
  storeState (s.confirmed manifest.securityRevision)
  pure (s.confirmed manifest.securityRevision)

def confirmHealthy (m : Manager) : Updating State :=
  match !m.closed && m.state.awaitingHealth && m.state.bootAttempted, m.state.active with
  | true, some slot => confirmSlot m.state slot
  | _, _ => throw (.text "no activated software update awaits health confirmation")

def rollback (m : Manager) : Updating State := do
  ensure (!m.closed && m.state.knownGood.isSome &&
      !(!m.state.awaitingHealth && m.state.active == m.state.knownGood))
    (.text "no known-good software rollback is available")
  storeState m.state.rolledBack
  pure m.state.rolledBack

/-- `Close`; the body of `closeOnce` runs once. -/
def closeManager (m : Manager) : Updating Manager :=
  if m.closed then pure m
  else do
    let released ← perform .releaseDirectory
    pure { m with closed := true, closeErr := failure released }

/-! ## Calls -/

inductive Method where
  | stage (request : StageRequest)
  | activatePending
  | confirmHealthy
  | rollback

/-- The body of a method. -/
def Method.body (m : Manager) : Method → Updating State
  | .stage request => SoftwareUpdate.stage K cfg m request
  | .activatePending => SoftwareUpdate.activatePending m
  | .confirmHealthy => SoftwareUpdate.confirmHealthy m
  | .rollback => SoftwareUpdate.rollback m

/-- The manager after a method has returned. -/
def Manager.after (m : Manager) (value : Except Err State) : Manager :=
  match value with
  | .ok s => { m with state := s }
  | .error _ => m

end Methods

end TosAi.SoftwareUpdate
