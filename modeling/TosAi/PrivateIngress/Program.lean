/-
  The methods of a Store as programs.

  Every look at the store's own fields, every operation on its directory and on its
  mutex is one operation of the program, in the order of the source.  The checks of the
  protocol library between two operations are computed (`uploadCheck`, `openContent`,
  `deletionCheck`).

  Looking at a file, opening it and reading it are one operation, and so is everything a
  call learns from its clock and its authorities.
-/
import TosAi.Foundation.Crash
import TosAi.PrivateIngress.Record

set_option autoImplicit false

namespace TosAi.PrivateIngress

open Foundation
open Foundation.Body (attempt result ensure)
open Foundation.Json (Bytes)

/-! ## Operations -/

inductive Op where
  | file (o : FsOp FileName)
  /-- `os.Remove`, whose error is looked at -/
  | unlink (n : FileName)
  /-- `os.MkdirAll` -/
  | makeDirectory
  /-- the directory is one, and only its owner's -/
  | privateDirectory
  | openDirectory
  | closeDirectory
  /-- `dirlock.Acquire` -/
  | acquireDirectory
  /-- `store.lock.Close()` -/
  | releaseDirectory
  /-- `&Store{…}` -/
  | makeStore (key : Bytes)
  /-- `store.lock != nil` -/
  | lockHeld
  /-- `store.lock = nil` -/
  | clearLock
  | lockMutex
  | unlockMutex
  | signingKey
  | zeroKey
  /-- the clock and the authorities -/
  | circumstances
  /-- `commerce.GenerateHandoffEncryptionKey`: the private key and the public one -/
  | generateKey
  /-- twelve random bytes, as a text -/
  | random

/-- What a call sees outside of the store. -/
structure Circumstances (P : Protocol) where
  now : Time
  authority : P.Authority
  resolver : P.Resolver

@[reducible] def Op.Res (P : Protocol) : Op → Type
  | .file o => o.Res
  | .unlink _ => Except FsErr Unit
  | .makeStore _ | .clearLock | .lockMutex | .unlockMutex | .zeroKey => Unit
  | .signingKey => Bytes
  | .circumstances => Circumstances P
  | .generateKey => Option (Bytes × Bytes)
  | .random => Option String
  | .makeDirectory | .privateDirectory | .openDirectory | .closeDirectory | .acquireDirectory
  | .releaseDirectory | .lockHeld => Bool

/-- A method body: operations, and an error that ends it. -/
abbrev Ingress (P : Protocol) (α : Type) := ExceptT Err (Prog Op (Op.Res P)) α

section Bodies

variable {P : Protocol}

/-- Perform one operation. -/
abbrev perform (o : Op) : Ingress P (o.Res P) := Body.perform o

/-! ## Files -/

def FsErr.err : FsErr → Err
  | .exist => .exist
  | .notExist => .notExist
  | .io => .io

def syncPrivateDirectory : Ingress P Unit := do
  let opened ← perform .openDirectory
  ensure opened .io
  let synced ← perform (.file .syncDir)
  let closed ← perform .closeDirectory
  ensure (synced && closed) .io

/-- Sync the file unless its write failed. -/
def syncWritten (written : Bool) (n : FileName) : Ingress P Bool :=
  if written then perform (.file (.sync n)) else pure false

/-- Write, sync and close. -/
def writeSynced (n : FileName) (raw : Bytes) : Ingress P Bool := do
  let written ← perform (.file (.write n raw))
  let synced ← syncWritten written n
  let closed ← perform (.file (.close n))
  pure (synced && closed)

def createFile (n : FileName) : Ingress P Unit := do
  match ← perform (.file (.create n 0o600)) with
  | .ok () => pure ()
  | .error e => throw (FsErr.err e)

def createPrivate (n : FileName) (raw : Bytes) : Ingress P Unit := do
  createFile n
  let written ← writeSynced n raw
  ensure written .io
  syncPrivateDirectory

/-- Unless all went well, remove the temporary file and fail. -/
def discardUnless (ok : Bool) (n : FileName) : Ingress P Unit :=
  if ok then pure ()
  else do
    let _ ← perform (.file (.remove n))
    throw .io

def randomName : Ingress P String := do
  match ← perform .random with
  | some random => pure random
  | none => throw .io

/-- `replacePrivate` of the record of a name. -/
def replacePrivate (hex : String) (raw : Bytes) : Ingress P Unit := do
  let random ← randomName
  createFile (.temporary hex random)
  let written ← writeSynced (.temporary hex random) raw
  discardUnless written (.temporary hex random)
  let renamed ← perform (.file (.rename (.temporary hex random) (.challenge hex)))
  ensure renamed .io
  syncPrivateDirectory

def readFile (n : FileName) : Ingress P File := do
  match ← perform (.file (.read n)) with
  | .ok seen => pure seen.file
  | .error e => throw (FsErr.err e)

def readChallenge (hex : String) : Ingress P Record := do
  let file ← readFile (.challenge hex)
  result (readRecord P file)

def readDirectory : Ingress P (List FileName) := do
  match ← perform (.file .readDir) with
  | some entries => pure entries
  | none => throw .io

variable (P)

/-- The record's challenge has this digest. -/
def Record.hasDigest (r : Record) (digest : String) : Bool :=
  match P.privateHandoffChallengeDigest r.challenge.body with
  | .ok digest' => digest' == digest
  | .error _ => false

variable {P}

/-- The loop of `findChallenge` over the entries of the directory. -/
def findIn (digest : String) : List FileName → Ingress P (String × Record)
  | [] => throw .notExist
  | .challenge hex :: entries =>
    if hex.toList.length == 64 then do
      match ← attempt (readChallenge hex) with
      | .ok record =>
        if record.hasDigest P digest then pure (hex, record) else findIn digest entries
      | .error _ => findIn digest entries
    else findIn digest entries
  | _ :: entries => findIn digest entries

def maxEntries : Nat := 10000

def findChallenge (digest : String) : Ingress P (String × Record) := do
  let entries ← readDirectory
  ensure (decide (entries.length ≤ maxEntries))
    (.text "private ingress challenge index exceeds bound")
  findIn digest entries

/-! ## The mutex -/

/-- `store.mu.Lock(); defer store.mu.Unlock()`. -/
def locked {α : Type} (body : Ingress P α) : Ingress P α := do
  perform .lockMutex
  let value ← attempt body
  perform .unlockMutex
  result value

/-- The test in front of the mutex, and what is done under it. -/
def guarded {α : Type} (condition : Bool) (err : Err) (body : Ingress P α) : Ingress P α := do
  let held ← perform .lockHeld
  ensure (held && condition) err
  locked body

end Bodies

/-! ## Open and Close -/

structure Config where
  directory : String
  receiverAgent : String
  signingKey : Bytes

/-- `ed25519.PrivateKeySize`. -/
def privateKeySize : Nat := 64

section Methods

variable (P : Protocol) (cfg : Config)

/-- `Open`. -/
def openStore : Ingress P Unit := do
  ensure (pathIsAbs cfg.directory && pathClean cfg.directory == cfg.directory &&
      cfg.receiverAgent != "" && cfg.signingKey.length == privateKeySize)
    (.text "private ingress configuration is invalid")
  let made ← perform .makeDirectory
  ensure made .io
  let isPrivate ← perform .privateDirectory
  ensure isPrivate (.text "private ingress directory must be owner-private")
  let acquired ← perform .acquireDirectory
  ensure acquired (.text "private ingress is already owned")
  perform (.makeStore cfg.signingKey)

/-- The critical section of `Close`. -/
def closeLocked : Ingress P Unit := do
  perform .zeroKey
  let released ← perform .releaseDirectory
  perform .clearLock
  ensure released .io

/-- `Close`. -/
def closeStore : Ingress P Unit := do
  let held ← perform .lockHeld
  if held then locked (closeLocked P) else pure ()

/-! ## IssueChallenge -/

/-- The answer to a challenge that exists. -/
def repeatChallenge (body : ChallengeBody) (existing : Record) : Ingress P Challenge := do
  let key ← perform .signingKey
  let candidate := P.signPrivateHandoffChallenge
    { body with
      receiverEncryptionPublicKey := existing.challenge.body.receiverEncryptionPublicKey } key
  match candidate with
  | .ok candidate =>
    ensure (orEmpty (P.privateHandoffChallengeDigest candidate.body) ==
        orEmpty (P.privateHandoffChallengeDigest existing.challenge.body))
      (.text "handoff ID conflicts with an existing challenge")
    pure existing.challenge
  | .error _ => throw (.text "handoff ID conflicts with an existing challenge")

/-- Another challenge may have been written in the meantime. -/
def adoptChallenge (hex digest : String) (err : Err) : Ingress P Challenge := do
  match ← attempt (readChallenge hex) with
  | .ok existing =>
    ensure (orEmpty (P.privateHandoffChallengeDigest existing.challenge.body) == digest) err
    pure existing.challenge
  | .error _ => throw err

/-- A pair of keys. -/
def generateKey : Ingress P (Bytes × Bytes) := do
  match ← perform .generateKey with
  | some keys => pure keys
  | none => throw .io

def freshChallenge (hex : String) (body : ChallengeBody) : Ingress P Challenge := do
  let keys ← generateKey P
  let body := { body with receiverEncryptionPublicKey := base64RawURLEncode keys.2 }
  let key ← perform .signingKey
  let challenge ← result (P.signPrivateHandoffChallenge body key)
  let digest ← result (P.privateHandoffChallengeDigest body)
  match ← attempt (createPrivate (.challenge hex)
      ((Record.issued challenge (base64RawURLEncode keys.1)).marshal P)) with
  | .ok () => pure challenge
  | .error err => adoptChallenge P hex digest err

def issueLocked (body : ChallengeBody) : Ingress P Challenge := do
  match ← attempt (readChallenge (challengeName P body.handoffID)) with
  | .ok existing => repeatChallenge P body existing
  | .error .notExist => freshChallenge P (challengeName P body.handoffID) body
  | .error err => throw err

def issueChallenge (body : ChallengeBody) : Ingress P Challenge :=
  guarded (body.receiverAgentID == cfg.receiverAgent && body.ingressInstanceID != "")
    (.text "private ingress challenge is invalid") (issueLocked P body)

/-! ## Accept -/

/-- The arguments of `Accept`. -/
structure Upload where
  challengeDigest : String
  authorization : Authorization
  ciphertext : Bytes
  action : AuthorizedAction
  fence : WriterFence

/-- The fence is the writer's, and the current one. -/
def fenceCheck (fence : WriterFence) (kind : String) (seen : Circumstances P) :
    Except Err Unit := do
  P.verifyWriterFence fence seen.authority seen.now kind
  P.confirmCurrentWriterFence fence seen.authority seen.now

/-- The upload is the authorized one; returns the digest of the authorization. -/
def uploadCheck (upload : Upload) (challenge : Challenge) (seen : Circumstances P) :
    Except Err String :=
  match uploadAuthorizationMaterial P upload.action.ownerID upload.action.agentID challenge
      upload.authorization with
  | .ok (canonical, fields) =>
    if upload.authorization.body.challengeDigest = upload.challengeDigest ∧
        P.verifyAuthorizedAction upload.action fields canonical upload.fence seen.authority
          seen.now = .ok () then
      P.privateHandoffAuthorizationDigest upload.authorization.body
    else .error (.text "private upload is not the exact authorized action")
  | .error _ => .error (.text "private upload is not the exact authorized action")

/-- The content, opened with the key of the record. -/
def openContent (upload : Upload) (record : Record) (seen : Circumstances P) : Except Err Bytes :=
  match base64RawURLDecode record.encryptionPrivateKey with
  | some key =>
    if key.length = 32 then
      P.openPrivateContent record.challenge upload.authorization upload.ciphertext key
        seen.resolver seen.now
    else .error (.text "private ingress challenge key is invalid")
  | none => .error (.text "private ingress challenge key is invalid")

/-- The object is created, or holds the content already. -/
def storeObject (n : FileName) (content : Bytes) : Ingress P Unit := do
  match ← attempt (createPrivate n content) with
  | .ok () => pure ()
  | .error _ =>
    match ← attempt (readFile n) with
    | .ok file =>
      ensure (file.data == content)
        (.text "immutable private object conflicts with accepted bytes")
    | .error _ => throw (.text "immutable private object conflicts with accepted bytes")

/-- The record of an accepted upload. -/
def Upload.accepted (upload : Upload) (challenge : Challenge) (content : Bytes)
    (authorizationDigest manifestDigest : String) (now : Time) : Accepted where
  schemaVersion := 1
  handoffID := challenge.body.handoffID
  challengeDigest := upload.challengeDigest
  authorizationDigest := authorizationDigest
  uploadActionID := upload.action.stableActionID
  senderDisclosureActionID := upload.authorization.body.senderDisclosureActionID
  contentDigest := upload.authorization.body.manifest.contentDigest
  contentManifestDigest := manifestDigest
  plaintextBytes := UInt64.ofNat content.length
  immutableObjectDigest := upload.authorization.body.manifest.contentDigest
  retentionPolicyDigest := challenge.body.retentionPolicyDigest
  acceptedAtUnix := toUInt64 now.unix
  deleteNotAfterUnix := challenge.body.deleteNotAfterUnix

/-- The answer to an upload that was accepted before. -/
def repeatAccept (upload : Upload) (record : Record) (accepted : Accepted)
    (authorizationDigest : String) : Ingress P Accepted := do
  ensure (record.authorizationDigest == authorizationDigest &&
      accepted.uploadActionID == upload.action.stableActionID)
    (.text "private ingress challenge already accepted conflicting bytes")
  pure accepted

def freshAccept (upload : Upload) (hex : String) (record : Record) (authorizationDigest : String)
    (seen : Circumstances P) : Ingress P Accepted := do
  let content ← result (openContent P upload record seen)
  storeObject P (objectPath upload.authorization.body.manifest.contentDigest) content
  let manifestDigest ← result
    (P.digest "tos.private-content-manifest.v1" upload.authorization.body.manifest)
  let accepted :=
    upload.accepted record.challenge content authorizationDigest manifestDigest seen.now
  replacePrivate hex ((record.accepting accepted authorizationDigest).marshal P)
  pure accepted

def acceptFound (upload : Upload) (seen : Circumstances P) (hex : String) (record : Record) :
    Ingress P Accepted := do
  let authorizationDigest ← result (uploadCheck P upload record.challenge seen)
  match record.accepted with
  | some accepted => repeatAccept P upload record accepted authorizationDigest
  | none => freshAccept P upload hex record authorizationDigest seen

def acceptLocked (upload : Upload) : Ingress P Accepted := do
  let seen ← perform .circumstances
  result (fenceCheck P upload.fence "content.upload" seen)
  let found ← findChallenge upload.challengeDigest
  acceptFound P upload seen found.1 found.2

def accept (upload : Upload) : Ingress P Accepted :=
  guarded (upload.action.actionKind == "content.upload" && canonicalDigest upload.challengeDigest)
    (.text "private ingress upload is invalid") (acceptLocked P upload)

/-! ## OpenAccepted and Acknowledge -/

/-- `int64(n)+1`, the limit of the copy; none below zero. -/
def copyLimit (n : UInt64) : Nat := (wrap64 (toInt64 n + 1)).toNat

/-- `openAccepted`; what the file returned to the caller contains. -/
def openLocked (record : Accepted) : Ingress P Bytes := do
  ensure (canonicalDigest record.contentDigest &&
      record.immutableObjectDigest == record.contentDigest)
    (.text "accepted private content record is invalid")
  match ← attempt (readFile (objectPath record.contentDigest)) with
  | .ok file =>
    ensure (UInt64.ofNat file.data.length == record.plaintextBytes)
      (.text "accepted private content object is unavailable")
    ensure (P.contentDigest (file.data.take (copyLimit record.plaintextBytes)) ==
        record.contentDigest)
      (.text "accepted private content digest changed")
    pure file.data
  | .error _ => throw (.text "accepted private content object is unavailable")

/-- `OpenAccepted`, which takes the mutex and does not look at the lock. -/
def openAccepted (record : Accepted) : Ingress P Bytes := locked (openLocked P record)

def acknowledgeLocked (record : Accepted) : Ingress P P.Acknowledgement := do
  let _ ← openLocked P record
  let key ← perform .signingKey
  result (P.signPrivateHandoffAcknowledgement record cfg.receiverAgent key)

def acknowledge (record : Accepted) : Ingress P P.Acknowledgement :=
  guarded true (.text "private ingress is unavailable") (acknowledgeLocked P cfg record)

/-! ## Delete -/

/-- The arguments of `Delete`. -/
structure Deletion where
  challengeDigest : String
  action : AuthorizedAction
  fence : WriterFence

/-- The deletion is the authorized one; returns the digest of the request. -/
def deletionCheck (deletion : Deletion) (challenge : Challenge) (accepted : Accepted)
    (seen : Circumstances P) : Except Err String :=
  match deleteAuthorizationMaterial P deletion.action.ownerID deletion.action.agentID challenge
      accepted with
  | .ok (canonical, fields) =>
    if P.verifyAuthorizedAction deletion.action fields canonical deletion.fence seen.authority
        seen.now = .ok () then
      .ok (orEmpty (P.exactRequestDigest canonical))
    else .error (.text "private deletion is not the exact authorized action")
  | .error _ => .error (.text "private deletion is not the exact authorized action")

/-- The record is not being deleted by another action or request. -/
def Record.admits (r : Record) (actionID requestDigest : String) : Bool :=
  !(r.deletionActionID != "" &&
    (r.deletionActionID != actionID || r.deletionRequestDigest != requestDigest))

def Deletion.resolution (deletion : Deletion) (accepted : Accepted) (requestDigest : String) :
    ActionResolution where
  stableActionID := deletion.action.stableActionID
  exactRequestDigest := requestDigest
  state := .terminal
  sinkReference := "private-ingress:" ++ deletion.challengeDigest
  evidenceRefs := [accepted.contentDigest]
  stateRevision := 2

/-- Journal the deletion unless it is. -/
def beginDeletion (hex : String) (record : Record) (actionID requestDigest : String) :
    Ingress P Record :=
  if record.deletionState = "" then do
    replacePrivate hex ((record.deleting actionID requestDigest).marshal P)
    pure (record.deleting actionID requestDigest)
  else pure record

/-- Remove the object, which may be gone already, and sync the directory. -/
def removeObject (n : FileName) : Ingress P Unit := do
  let removed ← perform (.unlink n)
  ensure (decide (removed ≠ .error .io)) .io
  let opened ← perform .openDirectory
  ensure opened .io
  let synced ← perform (.file .syncDir)
  let _ ← perform .closeDirectory
  ensure synced .io

def freshDelete (deletion : Deletion) (hex : String) (record : Record) (accepted : Accepted)
    (requestDigest : String) (now : Time) : Ingress P ActionResolution := do
  let record ← beginDeletion P hex record deletion.action.stableActionID requestDigest
  removeObject P (objectPath accepted.contentDigest)
  replacePrivate hex ((record.deleted (toUInt64 now.unix)).marshal P)
  pure (deletion.resolution accepted requestDigest)

def deleteFound (deletion : Deletion) (seen : Circumstances P) (hex : String) (record : Record) :
    Ingress P ActionResolution := do
  match record.accepted with
  | none => throw (.text "accepted private content was not found")
  | some accepted =>
    let requestDigest ← result (deletionCheck P deletion record.challenge accepted seen)
    ensure (record.admits deletion.action.stableActionID requestDigest)
      (.text "private content has a conflicting deletion action")
    if record.deletionState = "deleted" then
      pure (deletion.resolution accepted requestDigest)
    else freshDelete P deletion hex record accepted requestDigest seen.now

def deleteLocked (deletion : Deletion) : Ingress P ActionResolution := do
  let seen ← perform .circumstances
  result (fenceCheck P deletion.fence "content.delete" seen)
  match ← attempt (findChallenge deletion.challengeDigest) with
  | .ok found => deleteFound P deletion seen found.1 found.2
  | .error _ => throw (.text "accepted private content was not found")

def delete (deletion : Deletion) : Ingress P ActionResolution :=
  guarded (deletion.action.actionKind == "content.delete" &&
      canonicalDigest deletion.challengeDigest)
    (.text "private content deletion is invalid") (deleteLocked P deletion)

end Methods

/-! ## All of them -/

inductive Method where
  | issueChallenge (body : ChallengeBody)
  | accept (upload : Upload)
  | openAccepted (record : Accepted)
  | acknowledge (record : Accepted)
  | delete (deletion : Deletion)
  | close

/-- What a method returns. -/
inductive Outcome (P : Protocol) where
  | challenge (challenge : Challenge)
  | accepted (record : Accepted)
  | content (bytes : Bytes)
  | acknowledgement (value : P.Acknowledgement)
  | resolution (value : ActionResolution)
  | closed

def Method.body (P : Protocol) (cfg : Config) : Method → Ingress P (Outcome P)
  | .issueChallenge body => .challenge <$> PrivateIngress.issueChallenge P cfg body
  | .accept upload => .accepted <$> PrivateIngress.accept P upload
  | .openAccepted record => .content <$> PrivateIngress.openAccepted P record
  | .acknowledge record => .acknowledgement <$> PrivateIngress.acknowledge P cfg record
  | .delete deletion => .resolution <$> PrivateIngress.delete P deletion
  | .close => (fun _ => .closed) <$> closeStore P

end TosAi.PrivateIngress
