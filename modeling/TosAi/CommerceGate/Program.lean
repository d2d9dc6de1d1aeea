/-
  The methods of a Gate as programs.

  Every file operation, lock operation, clock reading, authority check, random
  number and network exchange is one operation of the program, in the order of
  the source; what lies between two of them is computation.  A method returns a
  value or an error (`ExceptT`), `locked` is a section under `gate.mu` with its
  deferred unlock, and `deferred` a deferred call.

  Two operations are not in the source and do nothing to it: `claim` notes that
  this call is the one that started an execution or submitted an effect, and
  `enter` notes that `performPinnedHTTPS` is entered.

  `readRecord` looks at the file and then reads it.  These are one operation here,
  since every caller holds `gate.mu` or the directory.
-/
import TosAi.Foundation.Prog
import TosAi.CommerceGate.Record

set_option autoImplicit false

namespace TosAi.CommerceGate

open Foundation
open Foundation.Json (Bytes)

/-! ## Operations -/

/-- What a call can be the one to have done. -/
inductive Token where
  | start
  | effect (id : String)
  deriving DecidableEq, Repr

/-- What opening one bound input file showed: its size if it is a regular file,
its digest if it could be read, and whether it was rewound. -/
structure InputView where
  size : Option UInt64
  digest : Option String
  rewound : Bool
  deriving DecidableEq, Repr

/-- An entry into `performPinnedHTTPS`: the effect it is for, the action, and the
record that was read when the effect was admitted. -/
structure Entry where
  name : FileName
  effectID : String
  action : AuthorizedAction
  admitted : Record

inductive Op (C : Commerce) where
  | file (o : FsOp FileName)
  /-- `os.MkdirAll` of the directory -/
  | makeDirectory
  /-- the directory is a private one -/
  | privateDirectory
  /-- `gate.lock != nil` -/
  | lockHeld
  | lockMutex
  | unlockMutex
  /-- `dirlock.Acquire` -/
  | acquireDirectory
  /-- `gate.lock.Close()` -/
  | releaseDirectory
  /-- `gate.lock = nil` -/
  | clearLock
  | now
  | authority
  | random
  | openInput (binding : FileBinding)
  | resolveCredential (handleID scopeDigest stableActionID : String) (now : Time)
  | revalidate
  /-- the HTTP exchange of `performPinnedHTTPS` -/
  | exchange (binding : NetworkBinding) (request : HTTPSRequest) (headers : List HTTPHeader)
      (stableID : String)
  | enter (entry : Entry)
  | claim (n : FileName) (t : Token)

@[reducible] def Res {C : Commerce} : Op C → Type
  | .file o => o.Res
  | .makeDirectory => Option Err
  | .privateDirectory | .lockHeld | .acquireDirectory | .releaseDirectory | .revalidate => Bool
  | .lockMutex | .unlockMutex | .clearLock | .enter _ | .claim _ _ => Unit
  | .now => Time
  | .authority => C.Authority
  | .random => Option String
  | .openInput _ => Option InputView
  | .resolveCredential _ _ _ _ => Except Err (List HTTPHeader)
  | .exchange _ _ _ _ => Except Err (Nat × Bytes)

/-- A method body: operations, and an error that ends it. -/
abbrev Gated (C : Commerce) (α : Type) := ExceptT Err (Prog (Op C) Res) α

section Bodies

variable {C : Commerce}

/-- Perform one operation. -/
def perform (o : Op C) : Gated C (Res o) := ExceptT.lift (Prog.call o)

/-- Run a body and keep its error as a value. -/
def attempt {α : Type} (body : Gated C α) : Gated C (Except Err α) := ExceptT.lift body.run

/-- A computed value or error. -/
def ofExcept {α : Type} (result : Except Err α) : Gated C α := ExceptT.mk (pure result)

/-- Run a body, then an operation, whatever the body returned (`defer`). -/
def deferred {α : Type} (body : Gated C α) (last : Op C) : Gated C α := do
  let result ← attempt body
  let _ ← perform last
  ofExcept result

/-- A section under `gate.mu`. -/
def locked {α : Type} (body : Gated C α) : Gated C α := do
  let _ ← perform .lockMutex
  deferred body .unlockMutex

/-- Fail with a text unless the condition holds. -/
def ensure (condition : Bool) (message : String) : Gated C Unit :=
  if condition then pure () else throw (.text message)

/-- Fail if the error is not nil. -/
def nilError (err : Option Err) : Gated C Unit :=
  match err with
  | none => pure ()
  | some err => throw err

/-- Go on only after success (`if err == nil`). -/
def andThen (ok : Bool) (next : Gated C Bool) : Gated C Bool := if ok then next else pure false

/-- Fail unless a file operation succeeded. -/
def succeed (ok : Bool) : Gated C Unit := if ok then pure () else throw .io

/-! ## Files -/

/-- `readRecord`, with the version of the name it saw. -/
def readRecord (n : FileName) : Gated C (Record × Nat) := do
  match ← perform (.file (.read n)) with
  | .error .notExist => throw .notExist
  | .error _ => throw .io
  | .ok seen =>
    match readFile seen.file with
    | .ok entry => pure (entry, seen.version)
    | .error err => throw err

/-- `syncParentDirectory`. -/
def syncParentDirectory : Gated C Unit := do
  succeed (← perform (.file .syncDir))

def createRecord (n : FileName) (entry : Record) : Gated C Unit := do
  match ← perform (.file (.create n 0o600)) with
  | .error _ => throw .io
  | .ok () =>
    let written ← perform (.file (.write n entry.marshal))
    let synced ← andThen written (perform (.file (.sync n)))
    let closed ← perform (.file (.close n))
    succeed synced
    succeed closed
    syncParentDirectory

/-- Fill the temporary file `t` and move it to `n`. -/
def fillAndRename (t n : FileName) (raw : Bytes) : Gated C Unit := do
  let modeSet ← perform (.file (.chmod t 0o600))
  let written ← andThen modeSet (perform (.file (.write t raw)))
  let synced ← andThen written (perform (.file (.sync t)))
  let closed ← perform (.file (.close t))
  succeed synced
  succeed closed
  succeed (← perform (.file (.rename t n)))
  syncParentDirectory

/-- The text of `replaceRecord` and `writeEffectResponse`: write a temporary file
of the given kind and move it to `n`. -/
def replaceThrough (kind : FileName → Prop) (n : FileName) (raw : Bytes) : Gated C Unit := do
  match ← perform (.file (.createTemp kind)) with
  | none => throw .io
  | some t => deferred (fillAndRename t n raw) (.file (.remove t))

def FileName.IsGateTemp (n : FileName) : Prop := ∃ k, n = .gateTemp k

def FileName.IsEffectTemp (n : FileName) : Prop := ∃ k, n = .effectTemp k

def replaceRecord (n : FileName) (entry : Record) : Gated C Unit :=
  replaceThrough FileName.IsGateTemp n entry.marshal

def writeEffectResponse (stableID : String) (body : Bytes) : Gated C Unit :=
  replaceThrough FileName.IsEffectTemp (effectResponsePath stableID) body

/-! ## Open and Close -/

/-- One item of `recoverInterruptedStates`; only names with the length and the
ending of a record's are looked at. -/
def recoverItem (item : FileName) : Gated C Unit :=
  match item with
  | .record hex => do
    let (entry, _) ← readRecord (.record hex)
    match Record.recovered entry.state with
    | some next => replaceRecord (.record hex) (entry.recover next)
    | none => pure ()
  | _ => pure ()

def recoverItems : List FileName → Gated C Unit
  | [] => pure ()
  | item :: rest => do
    recoverItem item
    recoverItems rest

def recoverInterruptedStates : Gated C Unit := do
  match ← perform (.file .readDir) with
  | none => throw .io
  | some entries => recoverItems entries

def openGate (directory : String) (hasResolver : Bool) : Gated C Unit := do
  ensure (pathIsAbs directory && pathClean directory == directory && hasResolver)
    "local execution Gate configuration is invalid"
  nilError (← perform .makeDirectory)
  ensure (← perform .privateDirectory) "local execution Gate directory must be private"
  ensure (← perform .acquireDirectory) "local execution Gate is already owned"
  match ← attempt recoverInterruptedStates with
  | .ok () => pure ()
  | .error err =>
    let _ ← perform .releaseDirectory
    throw err

/-- `Close` takes no mutex. -/
def closeGate : Gated C Unit := do
  if ← perform .lockHeld then
    let released ← perform .releaseDirectory
    let _ ← perform .clearLock
    succeed released
  else pure ()

/-! ## Prepare and Start -/

/-- A record a call has written, and where. -/
structure Written where
  name : FileName
  entry : Record

def prepareFields (plan : Plan) : List (String × SemanticValue) :=
  [("owner_id", .id plan.ownerID), ("agent_id", .id plan.agentID),
    ("execution_id", .digest32 plan.executionID)]

/-- The action is of the kind and is exactly authorized for the payload. -/
def authorized (C : Commerce) (action : AuthorizedAction) (kind : String)
    (fields : List (String × SemanticValue)) (payload : Payload) (fence : WriterFence)
    (authority : C.Authority) (now : Time) : Bool :=
  match C.marshal payload with
  | .error _ => false
  | .ok request => action.actionKind == kind &&
      (C.verifyAuthorizedAction action fields request fence authority now).isNone

/-- The two fence checks of `Prepare` and `Start`. -/
def checkFence (fence : WriterFence) (now : Time) (kind : String) : Gated C Unit := do
  nilError (C.verifyWriterFence fence (← perform .authority) now kind)
  nilError (C.confirmCurrentWriterFence fence (← perform .authority) now)

def ticketFrom (entry : Record) : Ticket :=
  ⟨entry.plan.executionID, entry.ticketSecret, entry.startNotAfterUnix, entry.planDigest⟩

/-- The start deadline: the lifetime, cut to the expiry of fence and action. -/
def ticketDeadline (now : Time) (lifetime : Int) (fence : WriterFence)
    (action : AuthorizedAction) : UInt64 :=
  let deadline := toUInt64 (Time.unix (now + lifetime))
  let deadline := if fence.body.expiresAtUnix < deadline then fence.body.expiresAtUnix
    else deadline
  if action.expiresAtUnix < deadline then action.expiresAtUnix else deadline

/-- `Prepare` where a record exists already. -/
def prepareExisting (existing : Record) (digest : String) (action : AuthorizedAction)
    (now : Time) : Gated C Ticket := do
  ensure (existing.planDigest == digest && existing.prepareActionID == action.stableActionID &&
      existing.prepareRequestDigest == action.exactRequestDigest)
    "execution identity conflicts with another plan"
  ensure (existing.state == .prepared) "execution has already started or is ambiguous"
  ensure (decide (toUInt64 (Time.unix now) < existing.startNotAfterUnix))
    "execution start ticket expired"
  pure (ticketFrom existing)

def prepare (plan : Plan) (fence : WriterFence) (lifetime : Int) (action : AuthorizedAction) :
    Gated C (Ticket × Option Written) := do
  let held ← perform .lockHeld
  ensure (held && decide (1000000000 ≤ lifetime) && decide (lifetime ≤ maxStartTicketLifetime))
    "local execution preparation is invalid"
  locked do
    let now ← perform .now
    checkFence fence now "execution.prepare"
    let (prepared, digest) ← ofExcept (preparePlan C plan fence)
    ensure (authorized C action "execution.prepare" (prepareFields prepared) (.plan prepared) fence
        (← perform .authority) now)
      "execution preparation is not an exact authorized action"
    let n := path prepared.executionID
    match ← attempt (readRecord n) with
    | .ok (existing, _) =>
      let ticket ← prepareExisting existing digest action now
      pure (ticket, none)
    | .error .notExist =>
      match ← perform .random with
      | none => throw .io
      | some secret =>
        let entry := initialRecord prepared digest secret
          (ticketDeadline now lifetime fence action) action
        createRecord n entry
        pure (ticketFrom entry, some ⟨n, entry⟩)
    | .error err => throw err

def openBoundFile (binding : FileBinding) : Gated C Unit := do
  match ← perform (.openInput binding) with
  | none => throw (.text "open immutable execution input")
  | some view =>
    ensure (view.size == some binding.size) "execution input identity changed"
    ensure (view.digest == some binding.digest) "execution input digest changed"
    succeed view.rewound

def openBoundFiles : List FileBinding → Gated C Unit
  | [] => pure ()
  | binding :: rest => do
    openBoundFile binding
    openBoundFiles rest

def launchFrom (entry : Record) : Launch where
  executionID := entry.plan.executionID
  planDigest := entry.planDigest
  ticketSecret := entry.ticketSecret
  leaseLossPolicy := entry.plan.leaseLossPolicy
  files := entry.plan.files
  networkBindings := entry.plan.networkBindings
  credentialBindings := entry.plan.credentialBindings
  effectBindings := entry.plan.effectBindings

/-- The record `Start` found is the ticket's, authorized, and startable. -/
def startable (entry : Record) (ticket : Ticket) (fence : WriterFence)
    (action : AuthorizedAction) (now : Time) : Gated C Unit := do
  ensure (entry.planDigest == ticket.planDigest && entry.ticketSecret == ticket.secret &&
      entry.startNotAfterUnix == ticket.startNotAfterUnix &&
      entry.plan.writerGeneration == fence.body.writerGeneration)
    "start ticket, plan, or writer mismatch"
  ensure (authorized C action "execution.start" (prepareFields entry.plan) (.ticket ticket) fence
      (← perform .authority) now)
    "execution start is not an exact authorized action"
  ensure (entry.state != .starting && entry.state != .running)
    "execution start is ambiguous or already running"
  ensure (entry.state == .prepared &&
      decide (now < timeUnix (toInt64 entry.startNotAfterUnix)))
    "execution is not startable"

def start (ticket : Ticket) (fence : WriterFence) (action : AuthorizedAction) :
    Gated C (Launch × Written) := do
  let held ← perform .lockHeld
  ensure (held && ticket.executionID != "" && ticket.secret != "")
    "local execution start is invalid"
  locked do
    let now ← perform .now
    checkFence fence now "execution.start"
    let n := path ticket.executionID
    let (entry, _) ← readRecord n
    startable entry ticket fence action now
    openBoundFiles entry.plan.files
    replaceRecord n (entry.start action)
    let _ ← perform (.claim n .start)
    pure (launchFrom entry, ⟨n, entry.start action⟩)

/-! ## MarkRunning, Complete, Inspect -/

def transition (launch : Launch) (expected next : State) (outcome : String) :
    Gated C Written := do
  ensure (← perform .lockHeld) "local execution Gate is unavailable"
  locked do
    let n := path launch.executionID
    match ← attempt (readRecord n) with
    | .error _ => throw (.text "execution transition does not match its one-shot launch")
    | .ok (entry, _) =>
      ensure (entry.planDigest == launch.planDigest && entry.ticketSecret == launch.ticketSecret &&
          entry.state == expected)
        "execution transition does not match its one-shot launch"
      replaceRecord n (entry.transition next outcome)
      pure ⟨n, entry.transition next outcome⟩

def markRunning (launch : Launch) : Gated C Written :=
  transition launch .starting .running ""

def complete (launch : Launch) (terminal : State) (outcomeDigest : String) :
    Gated C Written := do
  ensure (decide (terminal ∈ [State.succeeded, .failed, .cancelled, .killed]))
    "execution completion is not terminal"
  ensure (terminal != .succeeded || validDigest outcomeDigest)
    "successful execution requires an outcome digest"
  transition launch .running terminal outcomeDigest

/-- `Inspect`, and with it `Resolve`, does not look at `gate.lock`. -/
def inspect (executionID : String) : Gated C Resolution := do
  ensure (validDigest executionID) "invalid execution identity"
  locked do
    let (entry, _) ← readRecord (path executionID)
    pure ⟨entry.state, entry.stateRevision, entry.planDigest, entry.outcomeDigest⟩

end Bodies

end TosAi.CommerceGate
