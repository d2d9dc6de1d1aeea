/-
  The artifact store, the execution journal and the runner as programs.

  `Put`, `Get` (`pkg/artifactstore`), `Claim`, `Complete` and `Execute`
  (`pkg/softwarework`) and the policy executor (`pkg/executor`) are written with one
  operation for each step outside of the process: a step on a directory, the mutex of a
  journal, a look at the context, the clock, a call of the executor or of its client.
  What is hashed is an operation as well, so that a run shows which byte strings its
  digests stand for.

  A reader is the list of what its `Read` will return.  Every finite behaviour of one is
  such a list, and a reader that goes on for ever only keeps its `Put` from returning.
-/
import TosAi.Foundation.Crash
import TosAi.Foundation.FileSystem
import TosAi.Foundation.Json.Codec
import TosAi.SoftwareWork.Policy

set_option autoImplicit false

namespace TosAi.SoftwareWork

open Foundation
open Foundation.Json (Bytes Codec Value)

/-! ## Operations -/

/-- A name in the journal's directory. -/
inductive JournalName where
  | record (hex : String)
  /-- `.complete-` and a random number -/
  | temporary (k : Nat)
  deriving DecidableEq, Repr

/-- A name in the store's directory of objects. -/
inductive ObjectName where
  | object (hex : String)
  /-- `.put-` and a random number -/
  | temporary (k : Nat)
  deriving DecidableEq, Repr

inductive Op where
  | journal (o : FsOp JournalName)
  /-- `os.Open` of the journal's directory -/
  | openJournal
  | objects (o : FsOp ObjectName)
  /-- `os.Link` -/
  | link (source target : ObjectName)
  /-- `os.Open` of the store's directory of objects -/
  | openObjects
  | lockMutex
  | unlockMutex
  /-- `ctx.Err() != nil` -/
  | contextErr
  /-- `executionContextError(executionCtx) != nil` -/
  | executionContextErr
  | now
  | hash (bytes : Bytes)
  /-- `Execute` of the bound executor -/
  | execute (executionID : String) (spec : Spec) (input : Bytes)
  /-- `RunIsolated` of the container runtime client -/
  | runIsolated (request : ContainerRequest) (input : Bytes)

@[reducible] def Res : Op → Type
  | .journal o => o.Res
  | .objects o => o.Res
  | .link _ _ => Except FsErr Unit
  | .openJournal | .openObjects | .contextErr | .executionContextErr => Bool
  | .lockMutex | .unlockMutex => Unit
  | .now => Time
  | .hash _ => Bytes
  | .execute _ _ _ => Except Err RunResult
  | .runIsolated _ _ => Option RunResult

/-- A method body: operations, and an error that ends it. -/
abbrev Work (α : Type) := ExceptT Err (Prog Op Res) α

def perform (o : Op) : Work (Res o) := Body.perform o

/-- Fail with a text unless the condition holds. -/
def ensure (condition : Bool) (message : String) : Work Unit :=
  Body.ensure condition (.text message)

/-- Run a body, then an operation, whatever the body returned (`defer`). -/
def deferred {α : Type} (body : Work α) (last : Op) : Work α := do
  let result ← Body.attempt body
  let _ ← perform last
  Body.result result

/-- A section under the mutex of the journal. -/
def locked {α : Type} (body : Work α) : Work α := do
  let _ ← perform .lockMutex
  deferred body .unlockMutex

/-- `"sha256:" + hex.EncodeToString(sum)`. -/
def digestText (sum : Bytes) : String := "sha256:" ++ hexEncode sum

/-- `digest`. -/
def digest (value : Bytes) : Work String := do
  let sum ← perform (.hash value)
  pure (digestText sum)

/-! ## The artifact store -/

structure Descriptor where
  digest : String
  mediaType : String
  sizeBytes : UInt64
  deriving DecidableEq, Repr

def maxObjectBytesHard : Nat := 64 * 2 ^ 20

def mediaTypeChar (c : Char) : Bool :=
  ('a' ≤ c && c ≤ 'z') || c.isDigit || "!#$&^_.+-".toList.contains c

def mediaTypePart (part : List Char) : Bool :=
  match part with
  | c :: rest => (('a' ≤ c && c ≤ 'z') || c.isDigit) && decide (rest.length ≤ 126) &&
      rest.all mediaTypeChar
  | [] => false

/-- `^[a-z0-9][a-z0-9!#$&^_.+-]{0,126}/[a-z0-9][a-z0-9!#$&^_.+-]{0,126}$`. -/
def mediaTypePattern (value : String) : Bool :=
  match value.toList.splitOn '/' with
  | [first, second] => mediaTypePart first && mediaTypePart second
  | _ => false

/-- What the calls of `Read` return: some pieces without an error, and then `last`
together with the end of the input or, if `failed`, another error. -/
structure Reader where
  pieces : List Bytes
  last : Bytes
  failed : Bool
  deriving DecidableEq, Repr

/-- All that the reader has. -/
def Reader.content (reader : Reader) : Bytes := reader.pieces.flatten ++ reader.last

/-- The buffer of `io.Copy`. -/
def copyBuffer : Nat := 32 * 1024

/-- A byte string in pieces of a buffer's length; `fuel` bounds their number. -/
def inPieces : Nat → Bytes → List Bytes
  | 0, bytes => [bytes]
  | fuel + 1, bytes =>
    if bytes.length ≤ copyBuffer then [bytes]
    else bytes.take copyBuffer :: inPieces fuel (bytes.drop copyBuffer)

theorem flatten_inPieces (fuel : Nat) (bytes : Bytes) : (inPieces fuel bytes).flatten = bytes := by
  induction fuel generalizing bytes with
  | zero => simp [inPieces]
  | succ fuel ih =>
    rw [inPieces]
    split
    · simp
    · rw [List.flatten_cons, ih, List.take_append_drop]

/-- `bytes.NewReader`. -/
def bytesReader (bytes : Bytes) : Reader := ⟨inPieces bytes.length bytes, [], false⟩

theorem content_bytesReader (bytes : Bytes) : (bytesReader bytes).content = bytes := by
  simp [Reader.content, bytesReader, flatten_inPieces]

def objectName (digest : String) : ObjectName := .object (trimStart "sha256:" digest)

def ObjectName.isTemporary : ObjectName → Prop
  | .temporary _ => True
  | .object _ => False

/-- One `Read` that looks at the context first, and the write of what it gave; `false`
is an error. -/
def copyPiece (n : ObjectName) (bytes : Bytes) : Work Bool := do
  let cancelled ← perform .contextErr
  if cancelled then pure false
  else if bytes = [] then pure true
  else perform (.objects (.write n bytes))

/-- The loop of `io.Copy` from a limited reader.  `room` is what the limit leaves; the
value is what was copied, or nothing on an error. -/
def copyLoop (n : ObjectName) (last : Bytes) (failed : Bool) :
    Nat → Bytes → List Bytes → Work (Option Bytes)
  | room, copied, [] =>
    if room = 0 then pure (some copied)
    else do
      let done ← copyPiece n (last.take room)
      pure (if done && !(failed && decide (last.length ≤ room)) then
        some (copied ++ last.take room) else none)
  | room, copied, piece :: rest =>
    if room = 0 then pure (some copied)
    else do
      let done ← copyPiece n (piece.take room)
      if done then
        copyLoop n last failed (room - (piece.take room).length) (copied ++ piece.take room) rest
      else pure none

def copyBounded (n : ObjectName) (reader : Reader) (maximum : Nat) : Work Bytes := do
  let copied ← copyLoop n reader.last reader.failed (maximum + 1) [] reader.pieces
  match copied with
  | none => throw (.text "write artifact object")
  | some bytes => do
    ensure (decide (bytes.length ≤ maximum)) "artifact object exceeds size limit"
    pure bytes

/-- `syncDirectory` of the store. -/
def syncObjects : Work Unit := do
  let opened ← perform .openObjects
  ensure opened "open artifact object directory"
  let synced ← perform (.objects .syncDir)
  ensure synced "sync artifact object directory"

/-- The answer of a read, or the given error. -/
def found (answer : Except FsErr Seen) (message : String) : Work Seen :=
  match answer with
  | .ok seen => pure seen
  | .error _ => throw (.text message)

/-- What is under an object's name. -/
def lookAt (n : ObjectName) (message : String) : Work Seen := do
  let answer ← perform (.objects (.read n))
  found answer message

/-- `Get` behind its first checks.  The file is looked at (`Lstat`) and then opened;
`version` tells whether the name was bound anew in between (`os.SameFile`). -/
def getObject (maximum : Nat) (digest : String) : Work Bytes := do
  let info ← lookAt (objectName digest) "invalid artifact object"
  ensure (info.file.perm == 0o400 && decide (info.file.data.length ≤ maximum))
    "invalid artifact object"
  let opened ← lookAt (objectName digest) "open artifact object"
  ensure (opened.version == info.version && opened.file.perm == 0o400)
    "artifact object changed while opening"
  let cancelled ← perform .contextErr
  ensure (!cancelled && decide (opened.file.data.length ≤ maximum) &&
    opened.file.data.length == info.file.data.length) "read artifact object"
  let sum ← perform (.hash opened.file.data)
  ensure (digestText sum == digest) "artifact object digest mismatch"
  pure opened.file.data

/-- `Store.Get`. -/
def get (maximum : Nat) (digest : String) : Work Bytes := do
  ensure (digestPattern digest) "invalid artifact get request"
  let cancelled ← perform .contextErr
  if cancelled then throw .context else getObject maximum digest

/-- The first of the errors of the copy, the sync and the close. -/
def copyResult (copied : Except Err Bytes) (synced closed : Bool) : Except Err Bytes :=
  match copied with
  | .error err => .error err
  | .ok bytes => if synced && closed then .ok bytes else .error .io

/-- What follows on the answer of the link. -/
def commitObject (maximum : Nat) (digest : String) (written : Nat) :
    Except FsErr Unit → Work Unit
  | .ok () => syncObjects
  | .error .exist => do
    let stored ← Body.attempt (get maximum digest)
    match stored with
    | .ok bytes =>
      ensure (bytes.length == written) "existing artifact object failed verification"
    | .error _ => throw (.text "existing artifact object failed verification")
  | .error _ => throw (.text "commit artifact object")

/-- `Put` once the temporary file is there. -/
def putTemporary (maximum : Nat) (mediaType : String) (reader : Reader) (n : ObjectName) :
    Work Descriptor := do
  let copied ← Body.attempt (copyBounded n reader maximum)
  let synced ← perform (.objects (.sync n))
  let closed ← perform (.objects (.close n))
  let bytes ← Body.result (copyResult copied synced closed)
  let guarded ← perform (.objects (.chmod n 0o400))
  ensure guarded "protect artifact temporary object"
  let name ← digest bytes
  let linked ← perform (.link n (objectName name))
  commitObject maximum name bytes.length linked
  pure ⟨name, mediaType, UInt64.ofNat bytes.length⟩

/-- `Put` behind its first checks. -/
def putObject (maximum : Nat) (mediaType : String) (reader : Reader) : Work Descriptor := do
  let temporary ← perform (.objects (.createTemp ObjectName.isTemporary))
  match temporary with
  | none => throw (.text "create artifact temporary object")
  | some n => deferred (putTemporary maximum mediaType reader n) (.objects (.remove n))

/-- `Store.Put`. -/
def put (maximum : Nat) (mediaType : String) (reader : Reader) : Work Descriptor := do
  ensure (mediaTypePattern mediaType) "invalid artifact put request"
  let cancelled ← perform .contextErr
  if cancelled then throw .context else putObject maximum mediaType reader

/-! ## Journal records -/

structure Outcome where
  quoteCommitment : String
  executionID : String
  inputDigest : String
  resultDigest : String
  artifact : Descriptor
  report : Descriptor
  sourceDigest : String
  toolchainDigest : String
  sandboxDigest : String
  exitCode : Int64
  completedAtUnix : UInt64
  deriving DecidableEq, Repr

def Descriptor.zero : Descriptor := ⟨"", "", 0⟩

def Outcome.zero : Outcome := ⟨"", "", "", "", .zero, .zero, "", "", "", 0, 0⟩

inductive RecordState where
  | running
  | complete
  deriving DecidableEq, Repr

def RecordState.text : RecordState → String
  | .running => "running"
  | .complete => "complete"

def recordSchema : String := "tos.service.software-work-journal.v1"

/-- `journalRecord`, with a valid schema and state. -/
structure JournalRecord where
  fingerprint : String
  state : RecordState
  outcome : Outcome
  deriving DecidableEq, Repr

/-- The record that `Claim` writes. -/
def JournalRecord.claimed (fingerprint : String) : JournalRecord := ⟨fingerprint, .running, .zero⟩

/-- The record that `Complete` writes. -/
def JournalRecord.completed (fingerprint : String) (outcome : Outcome) : JournalRecord :=
  ⟨fingerprint, .complete, outcome⟩

/-- `journalRecord` as it is decoded. -/
structure RawRecord where
  schema : String
  fingerprint : String
  state : String
  outcome : Outcome

def descriptorCodec : Codec Descriptor :=
  .struct (.field "Digest" .string <| .field "MediaType" .string <| .field "SizeBytes" .uint64 .nil)
    (fun d => (d.digest, d.mediaType, d.sizeBytes, ())) (fun (a, b, c, ()) => ⟨a, b, c⟩)
    (fun _ => rfl) (fun _ => rfl)

def outcomeCodec : Codec Outcome :=
  .struct (.field "quote_commitment" .string <| .field "execution_id" .string <|
      .field "input_digest" .string <| .field "result_digest" .string <|
      .field "artifact" descriptorCodec <| .field "report" descriptorCodec <|
      .field "source_digest" .string <| .field "toolchain_digest" .string <|
      .field "sandbox_digest" .string <| .field "exit_code" .int64 <|
      .field "completed_at_unix" .uint64 .nil)
    (fun o => (o.quoteCommitment, o.executionID, o.inputDigest, o.resultDigest, o.artifact,
      o.report, o.sourceDigest, o.toolchainDigest, o.sandboxDigest, o.exitCode,
      o.completedAtUnix, ()))
    (fun (a, b, c, d, e, f, g, h, i, j, k, ()) => ⟨a, b, c, d, e, f, g, h, i, j, k⟩)
    (fun _ => rfl) (fun _ => rfl)

/-- A struct is never left out, whatever `omitempty` says. -/
def rawRecordCodec : Codec RawRecord :=
  .struct (.field "schema" .string <| .field "fingerprint" .string <| .field "state" .string <|
      .field "outcome" outcomeCodec .nil)
    (fun r => (r.schema, r.fingerprint, r.state, r.outcome, ()))
      (fun (a, b, c, d, ()) => ⟨a, b, c, d⟩)
    (fun _ => rfl) (fun _ => rfl)

def readState (text : String) : Option RecordState :=
  if text = "running" then some .running
  else if text = "complete" then some .complete else none

theorem readState_text (state : RecordState) : readState state.text = some state := by
  cases state <;> rfl

def JournalRecord.raw (r : JournalRecord) : RawRecord :=
  ⟨recordSchema, r.fingerprint, r.state.text, r.outcome⟩

/-- `json.Marshal`, and the line feed behind it. -/
def JournalRecord.line (r : JournalRecord) : Bytes := rawRecordCodec.marshal r.raw ++ [0x0a]

/-- The checks of `readJournalRecord` on what was decoded. -/
def RawRecord.known (r : RawRecord) : Option JournalRecord :=
  if r.schema = recordSchema ∧ digestPattern r.fingerprint = true then
    (readState r.state).map fun state => ⟨r.fingerprint, state, r.outcome⟩
  else none

def decodeRecord (value : Bytes) : Option JournalRecord :=
  (rawRecordCodec.unmarshal false value).bind RawRecord.known

def maxRecordBytes : Nat := 32 * 2 ^ 10

/-! ## The journal -/

/-- `j.path`. -/
def recordName (executionID : String) : JournalName :=
  .record (String.ofList (executionID.toList.drop 7))

def JournalName.isTemporary : JournalName → Prop
  | .temporary _ => True
  | .record _ => False

/-- What is under a name of the journal. -/
def lookAtRecord (n : JournalName) (message : String) : Work Seen := do
  let answer ← perform (.journal (.read n))
  found answer message

/-- The record in a file. -/
def decoded (value : Seen) : Work JournalRecord :=
  match decodeRecord value.file.data with
  | some record => pure record
  | none => throw (.text "invalid software-work journal record")

def readJournalRecord (n : JournalName) : Work JournalRecord := do
  let info ← lookAtRecord n "invalid software-work journal record"
  ensure (info.file.perm == 0o600 && decide (0 < info.file.data.length) &&
    decide (info.file.data.length ≤ maxRecordBytes)) "invalid software-work journal record"
  let value ← lookAtRecord n "read software-work journal record"
  decoded value

/-- `syncDirectory` of the journal. -/
def syncJournal : Work Unit := do
  let opened ← perform .openJournal
  ensure opened "open software-work journal directory"
  let synced ← perform (.journal .syncDir)
  ensure synced "sync software-work journal directory"

/-- Go on after a step that succeeded, else do something about it and fail. -/
def unlessDone (done : Bool) (recover : Work Unit) (message : String) : Work Unit :=
  if done then pure ()
  else do
    recover
    throw (.text message)

/-- Close the claim that could not be finished, and remove it. -/
def dropClaim (n : JournalName) : Work Unit := do
  let _ ← perform (.journal (.close n))
  let _ ← perform (.journal (.remove n))
  pure ()

def removeClaim (n : JournalName) : Work Unit := do
  let _ ← perform (.journal (.remove n))
  pure ()

/-- What `Claim` does to the file it has created. -/
def writeClaim (n : JournalName) (record : JournalRecord) : Work Unit := do
  let written ← perform (.journal (.write n record.line))
  unlessDone written (dropClaim n) "write software-work claim"
  let synced ← perform (.journal (.sync n))
  unlessDone synced (dropClaim n) "sync software-work claim"
  let closed ← perform (.journal (.close n))
  unlessDone closed (removeClaim n) "close software-work claim"
  let committed ← Body.attempt syncJournal
  match committed with
  | .ok () => pure ()
  | .error err => do
    removeClaim n
    throw err

/-- `Claim` under the mutex. -/
def claimRecord (executionID fingerprint : String) : Work (Bool × JournalRecord) := do
  let created ← perform (.journal (.create (recordName executionID) 0o600))
  match created with
  | .ok () => do
    writeClaim (recordName executionID) (.claimed fingerprint)
    pure (true, .claimed fingerprint)
  | .error .exist => do
    let existing ← readJournalRecord (recordName executionID)
    ensure (existing.fingerprint == fingerprint)
      "execution identity conflicts with another request"
    pure (false, existing)
  | .error _ => throw (.text "create software-work claim")

/-- `Journal.Claim`. -/
def claim (executionID fingerprint : String) : Work (Bool × JournalRecord) := do
  ensure (digestPattern executionID && digestPattern fingerprint)
    "invalid software-work journal claim"
  locked (claimRecord executionID fingerprint)

def closeCompletion (t : JournalName) : Work Unit := do
  let _ ← perform (.journal (.close t))
  pure ()

/-- What `Complete` does with its temporary file. -/
def commitRecord (n t : JournalName) (record : JournalRecord) : Work Unit := do
  let guarded ← perform (.journal (.chmod t 0o600))
  unlessDone guarded (closeCompletion t) "protect software-work completion"
  let written ← perform (.journal (.write t record.line))
  unlessDone written (closeCompletion t) "write software-work completion"
  let synced ← perform (.journal (.sync t))
  unlessDone synced (closeCompletion t) "sync software-work completion"
  let closed ← perform (.journal (.close t))
  ensure closed "close software-work completion"
  let renamed ← perform (.journal (.rename t n))
  ensure renamed "commit software-work completion"
  syncJournal

/-- The claim is there, is this one, and is still running. -/
def completable (fingerprint : String) (existing : Except Err JournalRecord) : Bool :=
  match existing with
  | .ok record => record.fingerprint == fingerprint && record.state == .running
  | .error _ => false

/-- `Complete` under the mutex. -/
def completeRecord (executionID fingerprint : String) (outcome : Outcome) : Work Unit := do
  let existing ← Body.attempt (readJournalRecord (recordName executionID))
  ensure (completable fingerprint existing) "software-work claim cannot be completed"
  let temporary ← perform (.journal (.createTemp JournalName.isTemporary))
  match temporary with
  | none => throw (.text "create software-work completion")
  | some t =>
    deferred (commitRecord (recordName executionID) t (.completed fingerprint outcome))
      (.journal (.remove t))

/-- `Journal.Complete`. -/
def complete (executionID fingerprint : String) (outcome : Outcome) : Work Unit :=
  locked (completeRecord executionID fingerprint outcome)

/-! ## The executors -/

/-- `executor.Executor`. -/
abbrev Executor := String → Spec → Bytes → Work RunResult

/-- Any executor at all. -/
def boundExecutor : Executor := fun executionID spec input => do
  let answer ← perform (.execute executionID spec input)
  Body.result answer

/-- `PolicyExecutor.Execute` behind the check of the context. -/
def runWithin (sha256 : Bytes → Bytes) (policy : Policy) (executionID : String) (spec : Spec)
    (input : Bytes) : Work RunResult := do
  let identity ← Body.result (executionDigest sha256 executionID)
  Body.result (policy.check spec)
  Body.result (policy.validateInput input)
  let answer ← perform (.runIsolated (containerRequest identity spec) input)
  let late ← perform .executionContextErr
  if late then throw .context
  else
    match answer with
    | none => throw (.text "isolated execution backend failed")
    | some result => do
      Body.result (validateResult spec.limits result)
      pure result

/-- `PolicyExecutor.Execute`. -/
def policyExecutor (sha256 : Bytes → Bytes) (policy : Policy) : Executor :=
  fun executionID spec input => do
    let cancelled ← perform .contextErr
    if cancelled then throw .context else runWithin sha256 policy executionID spec input

/-! ## The runner -/

structure Request where
  quoteCommitment : String
  executionID : String
  inputDigest : String
  sourceDigest : String
  sourceArchive : Bytes
  deriving DecidableEq, Repr

def artifactMediaType : String := "application/vnd.tos.service.software-artifact.v1+tar"
def reportMediaType : String := "application/vnd.tos.service.test-report.v1+json"

/-- `^tvm-cell-sha256:[0-9a-f]{64}$`. -/
def quoteCommitmentPattern (s : String) : Bool := matchesHex64 "tvm-cell-sha256:" s

/-- What `validateRequest` checks before it hashes the source. -/
def Request.wellFormed (request : Request) : Bool :=
  quoteCommitmentPattern request.quoteCommitment && digestPattern request.executionID &&
    digestPattern request.inputDigest && digestPattern request.sourceDigest

def validateRequest (contract : Contract) (request : Request) : Work Unit := do
  ensure request.wellFormed "software-work request does not match its commitments"
  let source ← digest request.sourceArchive
  ensure (source == request.sourceDigest &&
      decide (request.sourceArchive.length ≤ contract.limits.diskBytes.toNat))
    "software-work request does not match its commitments"

/-- What a fingerprint is the digest of. -/
structure Identity where
  manifest : String
  quote : String
  execution : String
  input : String
  source : String
  deriving DecidableEq, Repr

def identityCodec : Codec Identity :=
  .struct (.field "manifest" .string <| .field "quote" .string <| .field "execution" .string <|
      .field "input" .string <| .field "source" .string .nil)
    (fun i => (i.manifest, i.quote, i.execution, i.input, i.source, ()))
    (fun (a, b, c, d, e, ()) => ⟨a, b, c, d, e⟩) (fun _ => rfl) (fun _ => rfl)

def Request.identity (request : Request) (contract : Contract) : Identity :=
  ⟨contract.manifestDigest, request.quoteCommitment, request.executionID, request.inputDigest,
    request.sourceDigest⟩

/-- The text a request is known by. -/
def Request.encoded (request : Request) (contract : Contract) : Bytes :=
  identityCodec.marshal (request.identity contract)

def requestFingerprint (contract : Contract) (request : Request) : Work String :=
  digest (request.encoded contract)

def usageValue (usage : Usage) : Value :=
  .obj [("CPUMillis", Codec.uint64.enc usage.cpuMillis),
    ("PeakMemory", Codec.uint64.enc usage.peakMemory),
    ("DiskWritten", Codec.uint64.enc usage.diskWritten),
    ("Duration", Codec.int64.enc usage.duration)]

/-- The report's text. -/
def reportBytes (executionID resultDigest : String) (result : RunResult)
    (completedAtUnix : UInt64) : Bytes :=
  (Value.obj [("schema", .str "tos.service.software-work-report.v1"),
    ("execution_id", .str executionID), ("result_digest", .str resultDigest),
    ("exit_code", Codec.int64.enc result.exitCode), ("usage", usageValue result.usage),
    ("completed_at_unix", Codec.uint64.enc completedAtUnix)]).print

/-- The hash and the archive format. -/
structure Library where
  sha256 : Bytes → Bytes
  /-- `archive/tar`: an archive of some files, all with mode 0444 and no time -/
  tar : List (String × Bytes) → Option Bytes
  untar : Bytes → Option (List (String × Bytes))

/-- `buildArtifact`. -/
def buildArtifact (L : Library) (output report : Bytes) : Except Err Bytes :=
  match L.tar [("output.log", output), ("report.json", report)] with
  | some bytes => .ok bytes
  | none => .error (.text "encode software-work artifact")

/-- What a runner is made of. -/
structure Runner where
  library : Library
  executor : Executor
  contract : Contract
  /-- the store's maximum -/
  maximum : Nat

def Request.outcome (request : Request) (contract : Contract) (resultDigest : String)
    (artifact report : Descriptor) (exitCode : Int64) (completedAtUnix : UInt64) : Outcome where
  quoteCommitment := request.quoteCommitment
  executionID := request.executionID
  inputDigest := request.inputDigest
  resultDigest := resultDigest
  artifact := artifact
  report := report
  sourceDigest := request.sourceDigest
  toolchainDigest := contract.toolchainDigest
  sandboxDigest := contract.sandboxDigest
  exitCode := exitCode
  completedAtUnix := completedAtUnix

namespace Runner

/-- `Execute` from the result of the run on. -/
def deliver (r : Runner) (request : Request) (fingerprint : String) (result : RunResult) :
    Work Outcome := do
  ensure (result.exitCode == 0) "software-work objective success condition failed"
  let now ← perform .now
  let completedAtUnix := toUInt64 (Time.unix now)
  let resultDigest ← digest result.output
  let reported := reportBytes request.executionID resultDigest result completedAtUnix
  let report ← put r.maximum reportMediaType (bytesReader reported)
  let archived ← Body.result (buildArtifact r.library result.output reported)
  let artifact ← put r.maximum artifactMediaType (bytesReader archived)
  let outcome := request.outcome r.contract resultDigest artifact report result.exitCode
    completedAtUnix
  complete request.executionID fingerprint outcome
  pure outcome

/-- `Execute` with what the journal answered. -/
def proceed (r : Runner) (request : Request) (fingerprint : String) (lease : Bool)
    (record : JournalRecord) : Work Outcome :=
  if lease then do
    let result ← r.executor request.executionID r.contract.spec request.sourceArchive
    r.deliver request fingerprint result
  else if record.state = .complete then pure record.outcome
  else throw (.text "software-work execution outcome is ambiguous")

/-- `Runner.Execute`. -/
def execute (r : Runner) (request : Request) : Work Outcome := do
  validateRequest r.contract request
  let fingerprint ← requestFingerprint r.contract request
  let (lease, record) ← claim request.executionID fingerprint
  r.proceed request fingerprint lease record

end Runner

end TosAi.SoftwareWork
