/-
  Calls of `Put`, `Get` and `Execute` in flight over one store and one journal root,
  interleaved at every operation.

  A call is made by some process, which has a Journal of its own; the processes are
  numbered, and any number of them may have the root open.  A process may die between any
  two operations, and the machine may lose power.  A context may be cancelled at any time.

  Some of the state is there for the sake of statements only: what was there when a call
  began, whether one of its file operations failed (`troubled`), which byte strings were
  hashed, and what the executor was invoked for and with what on disk.

  The names `os.CreateTemp` chooses in the journal are random, and are not chosen twice
  here.
-/
import TosAi.Foundation.Shared
import TosAi.Foundation.Contents
import TosAi.SoftwareWork.Records

set_option autoImplicit false

namespace TosAi.SoftwareWork

open Foundation
open Foundation.Json (Bytes)

/-! ## Calls -/

inductive Method where
  | put (mediaType : String) (reader : Reader)
  | get (digest : String)
  | execute (request : Request)
  deriving DecidableEq, Repr

inductive Result where
  | stored (descriptor : Descriptor)
  | fetched (bytes : Bytes)
  | executed (outcome : Outcome)
  deriving DecidableEq, Repr

abbrev Answer := Except Err Result

def body (r : Runner) : Method → Work Result
  | .put mediaType reader => do
    let descriptor ← put r.maximum mediaType reader
    pure (.stored descriptor)
  | .get digest => do
    let bytes ← get r.maximum digest
    pure (.fetched bytes)
  | .execute request => do
    let outcome ← r.execute request
    pure (.executed outcome)

def program (r : Runner) (m : Method) : Prog Op Res Answer := (body r m).run

/-! ## The machine -/

/-- A call as it began, and what there was. -/
structure Start where
  process : Nat
  method : Method
  records : JournalName → Option File
  objects : ObjectName → Option File

/-- An invocation of the executor, and what there was on disk of the claim. -/
structure Invocation where
  call : Nat
  executionID : String
  disk : List (Option File)

/-- A call that has returned, and whether it had invoked the executor. -/
structure Return where
  call : Nat
  answer : Answer
  invoked : Bool

structure System where
  journal : Fs JournalName
  objects : Fs ObjectName
  /-- The call that holds the mutex of a process's Journal. -/
  mu : Nat → Option Nat
  next : Nat
  began : Nat → Option Start
  cancelled : Nat → Bool
  troubled : Nat → Bool
  hashed : List Bytes
  invoked : List Invocation
  isolated : List (Nat × ContainerRequest)
  returned : List Return
  losses : Nat

/-- The names `os.CreateTemp` chooses are new. -/
def novel {ν : Type} : (o : FsOp ν) → Fs ν → o.Res → Prop
  | .createTemp _, fs, answer => ∀ n, answer = some n → n ∉ fs.names
  | _, _, _ => True

namespace System

/-- Nothing has happened over two empty directories. -/
def init : System where
  journal := .empty
  objects := .empty
  mu := fun _ => none
  next := 1
  began := fun _ => none
  cancelled := fun _ => false
  troubled := fun _ => false
  hashed := []
  invoked := []
  isolated := []
  returned := []
  losses := 0

def processOf (s : System) (c : Nat) : Nat := (s.began c).elim 0 Start.process

/-- Note a failure. -/
def note (c : Nat) (failed : Bool) (s : System) : System :=
  { s with troubled := Function.update s.troubled c (s.troubled c || failed) }

/-- The call has invoked the executor. -/
def hasInvoked (s : System) (c : Nat) : Bool := s.invoked.any fun i => i.call == c

/-- What an operation of call `c` does. -/
def apply (sha256 : Bytes → Bytes) (c : Nat) : (o : Op) → System → Res o → System → Prop
  | .journal o, s, answer, s' => ∃ fs' failed, o.apply c s.journal answer fs' ∧
      novel o s.journal answer ∧ (o.healthy s.journal answer ∨ failed = true) ∧
      s' = note c failed { s with journal := fs' }
  | .objects o, s, answer, s' => ∃ fs' failed, o.apply c s.objects answer fs' ∧
      (o.healthy s.objects answer ∨ failed = true) ∧ s' = note c failed { s with objects := fs' }
  | .link a b, s, answer, s' =>
    ((s.objects.now a).isSome ∧ s.objects.now b = none ∧ answer = .ok () ∧
      s' = { s with objects := s.objects.link a b }) ∨
    ((s.objects.now b).isSome ∧ answer = .error .exist ∧ s' = s) ∨
    (answer = .error .io ∧ s' = note c true s)
  | .openJournal, s, answer, s' | .openObjects, s, answer, s' => s' = note c (!answer) s
  | .lockMutex, s, _, s' => s.mu (s.processOf c) = none ∧
      s' = { s with mu := Function.update s.mu (s.processOf c) (some c) }
  | .unlockMutex, s, _, s' => s' = { s with mu := Function.update s.mu (s.processOf c) none }
  | .contextErr, s, answer, s' => s' = s ∧ answer = s.cancelled c
  | .executionContextErr, s, answer, s' => s' = s ∧ (s.cancelled c = true → answer = true)
  | .now, s, _, s' => s' = s
  | .hash bytes, s, answer, s' =>
    answer = sha256 bytes ∧ s' = { s with hashed := bytes :: s.hashed }
  | .execute executionID _ _, s, _, s' =>
    s' = { s with
      invoked := ⟨c, executionID, s.journal.outcomes (recordName executionID)⟩ :: s.invoked }
  | .runIsolated request _, s, _, s' => s' = { s with isolated := (c, request) :: s.isolated }

/-- A call begins, with a number no call had before. -/
def start (r : Runner) (c : Nat) (p : Prog Op Res Answer) (s s' : System) : Prop :=
  c = s.next ∧ ∃ process m, p = program r m ∧
    s' = { s with
      began := Function.update s.began c (some ⟨process, m, s.journal.now, s.objects.now⟩)
      next := c + 1 }

def finish (c : Nat) (answer : Answer) (s : System) : System :=
  { s with returned := ⟨c, answer, s.hasInvoked c⟩ :: s.returned }

/-- A process dies; its mutex is gone with it. -/
def kill (process : Nat) (s : System) : System :=
  { s with mu := Function.update s.mu process none }

def cancel (c : Nat) (s : System) : System :=
  { s with cancelled := Function.update s.cancelled c true }

/-- The machine loses power. -/
def powerLoss (s : System) (records : JournalName → Option File)
    (hrecords : ∀ n, records n ∈ s.journal.outcomes n) (objects : ObjectName → Option File)
    (hobjects : ∀ n, objects n ∈ s.objects.outcomes n) : System :=
  { s with
    journal := s.journal.reboot records hrecords
    objects := s.objects.reboot objects hobjects
    mu := fun _ => none
    losses := s.losses + 1 }

/-- A move of the environment. -/
inductive Env : (Nat → Prop) → System → System → Prop where
  | kill {s : System} (process : Nat) :
      Env (fun c => s.processOf c = process) s (s.kill process)
  | cancel {s : System} (c : Nat) : Env (fun _ => False) s (s.cancel c)
  | powerLoss {s : System} (records : JournalName → Option File)
      (hrecords : ∀ n, records n ∈ s.journal.outcomes n) (objects : ObjectName → Option File)
      (hobjects : ∀ n, objects n ∈ s.objects.outcomes n) :
      Env (fun _ => True) s (s.powerLoss records hrecords objects hobjects)

end System

def workMachine (r : Runner) : Machine Op Res System Answer where
  apply := System.apply r.library.sha256
  start := System.start r
  finish := System.finish
  env := System.Env

/-- No call is in flight and nothing has happened. -/
def workInit : Config Op Res System Answer := ⟨.init, fun _ => none⟩

/-! ## What calls may do to each other's files -/

/-- The bindings of a name may have reached the disk, and nothing else has happened. -/
def Settles (a b : Slot) : Prop := b = a ∨ b = a.settle

namespace Settles

variable {a b : Slot}

theorem refl (a : Slot) : Settles a a := .inl rfl

theorem now (h : Settles a b) : b.now = a.now := by
  obtain rfl | rfl := h <;> rfl

theorem opener (h : Settles a b) : b.opener = a.opener := by
  obtain rfl | rfl := h <;> rfl

theorem present (h : Settles a b) : b.present = a.present := by
  obtain rfl | rfl := h <;> rfl

theorem version (h : Settles a b) : b.version = a.version := by
  obtain rfl | rfl := h <;> rfl

theorem outcomes (h : Settles a b) {o : Option File} (ho : o ∈ b.outcomes) : o ∈ a.outcomes := by
  obtain rfl | rfl := h
  · exact ho
  · exact Slot.mem_outcomes_settle ho

/-- What is safe on disk stays so. -/
theorem single (h : Settles a b) {o : Option File} (ho : a.outcomes = [o]) : b.outcomes = [o] := by
  obtain rfl | rfl := h
  · exact ho
  · simp only [Slot.outcomes, Slot.present, List.cons_append, List.cons.injEq,
      List.append_eq_nil_iff] at ho
    obtain ⟨hnow, hloose, hold⟩ := ho
    simp only [Slot.outcomes, Slot.settle, Slot.present, List.append_nil, List.cons.injEq]
    exact ⟨hnow, hloose⟩

end Settles

/-- The changes call `c` may make. -/
structure Act (c : Nat) (s s' : System) : Prop where
  call : c ≠ 0
  records : ∀ hex, Settles (s.journal.slot (.record hex)) (s'.journal.slot (.record hex)) ∨
    s.journal.now (.record hex) = none ∨ (s.journal.slot (.record hex)).opener = c
  finished : ∀ hex f, s.journal.now (.record hex) = some f → Finished f →
    s'.journal.now (.record hex) = some f
  temporaries : ∀ k, Settles (s.journal.slot (.temporary k)) (s'.journal.slot (.temporary k)) ∨
    .temporary k ∉ s.journal.names ∨ (s.journal.slot (.temporary k)).opener = c
  names : ∀ n ∈ s.journal.names, n ∈ s'.journal.names
  objects : ∀ hex, Settles (s.objects.slot (.object hex)) (s'.objects.slot (.object hex)) ∨
    s.objects.now (.object hex) = none
  copies : ∀ k, Settles (s.objects.slot (.temporary k)) (s'.objects.slot (.temporary k)) ∨
    s.objects.now (.temporary k) = none ∨ (s.objects.slot (.temporary k)).opener = c
  hashed : ∀ b ∈ s.hashed, b ∈ s'.hashed
  invoked : ∀ i ∈ s'.invoked, i ∈ s.invoked ∨ i.call = c
  began : ∀ d b, s.began d = some b → s'.began d = some b
  starts : ∀ d b, s'.began d = some b → s.began d = some b ∨
    (b.records = s.journal.now ∧ b.objects = s.objects.now)
  cancelled : s'.cancelled = s.cancelled
  troubled : ∀ d, s.troubled d = true → s'.troubled d = true
  losses : s'.losses = s.losses

/-! ## What a call answers -/

namespace Runner

variable (r : Runner)

/-- The digest of some bytes. -/
def digestOf (bytes : Bytes) : String := digestText (r.library.sha256 bytes)

def fingerprint (request : Request) : String := r.digestOf (request.encoded r.contract)

/-- The request passes `validateRequest`. -/
structure Accepts (request : Request) : Prop where
  wellFormed : request.wellFormed = true
  source : r.digestOf request.sourceArchive = request.sourceDigest
  length : request.sourceArchive.length ≤ r.contract.limits.diskBytes.toNat

/-- The store has an object for the descriptor, which is that of some contents. -/
structure Stored (s : System) (d : Descriptor) (content : Bytes) : Prop where
  digest : d.digest = r.digestOf content
  size : d.sizeBytes = UInt64.ofNat content.length
  length : content.length ≤ r.maximum
  hashed : content ∈ s.hashed
  object : (s.objects.now (objectName d.digest)).isSome = true

/-- The store has what an outcome names. -/
def Backed (s : System) (o : Outcome) : Prop :=
  ∃ output report artifact, o.resultDigest = r.digestOf output ∧
    r.library.tar [("output.log", output), ("report.json", report)] = some artifact ∧
    r.Stored s o.report report ∧ r.Stored s o.artifact artifact

/-- What an `Execute` has answered. -/
def Executed (s : System) (c : Nat) (b : Start) (invoked : Bool) (request : Request) :
    Except Err Outcome → Prop
  | .ok o => digestPattern (r.fingerprint request) = true ∧
      s.journal.now (recordName request.executionID) =
        some (JournalRecord.completed (r.fingerprint request) o).file ∧
      request.encoded r.contract ∈ s.hashed ∧
      ∀ f, b.records (recordName request.executionID) = some f → Finished f →
        f = (JournalRecord.completed (r.fingerprint request) o).file ∧ invoked = false
  | .error _ => (r.Accepts request → request.encoded r.contract ∈ s.hashed) ∧
      ∀ f, b.records (recordName request.executionID) = some f → Finished f →
        invoked = false ∧ ∀ o, f = (JournalRecord.completed (r.fingerprint request) o).file →
          o.Short → r.Accepts request → s.troubled c = true

/-- What a call has answered, given how it began. -/
def Kept (s : System) (c : Nat) (b : Start) (invoked : Bool) (answer : Answer) : Prop :=
  match b.method, answer with
  | .put _ reader, .ok (.stored d) => r.Stored s d reader.content
  | .put _ _, .error _ => True
  | .get digest, .ok (.fetched bytes) => r.digestOf bytes = digest ∧ bytes ∈ s.hashed ∧
      ∀ f, b.objects (objectName digest) = some f → bytes = f.data
  | .get digest, .error _ => ∀ f, b.objects (objectName digest) = some f →
      digestPattern digest = true → s.cancelled c = true ∨ s.troubled c = true
  | .execute request, .ok (.executed o) => r.Executed s c b invoked request (.ok o)
  | .execute request, .error err => r.Executed s c b invoked request (.error err)
  | _, _ => False

end Runner

/-! ## The invariant -/

/-- The file of an object is what its name says. -/
structure Addressed (r : Runner) (s : System) (hex : String) (f : File) : Prop where
  perm : f.perm = 0o400
  name : hex = hexEncode (r.library.sha256 f.data)
  length : f.data.length ≤ r.maximum
  hashed : f.data ∈ s.hashed

/-- The file of a record with the fingerprint. -/
def Marked (fp : String) (o : Option File) : Prop :=
  ∃ record : JournalRecord, o = some record.file ∧ record.fingerprint = fp

/-- An invocation was made for a claim on disk, and the claim, or what came of it, is
there to stay. -/
structure Recorded (r : Runner) (s : System) (i : Invocation) : Prop where
  claim : ∃ b request, s.began i.call = some b ∧ b.method = .execute request ∧
    request.executionID = i.executionID ∧
    i.disk = [some (JournalRecord.claimed (r.fingerprint request)).file] ∧
    request.encoded r.contract ∈ s.hashed ∧
    ∀ o ∈ s.journal.outcomes (recordName i.executionID), Marked (r.fingerprint request) o
  opener : (s.journal.slot (recordName i.executionID)).opener = i.call ∨
    (s.journal.slot (recordName i.executionID)).opener = 0

structure Inv (r : Runner) (s : System) : Prop where
  first : s.began 0 = none ∧ 0 < s.next
  fresh : ∀ c, s.next ≤ c → s.began c = none
  objects : ∀ hex f, some f ∈ s.objects.outcomes (.object hex) → Addressed r s hex f
  records : ∀ hex f, some f ∈ s.journal.outcomes (.record hex) → Claimed f ∨ Finished f
  recorded : ∀ i ∈ s.invoked, Recorded r s i
  once : (s.invoked.map Invocation.executionID).Nodup
  backed : s.losses = 0 → ∀ hex fp o, digestPattern fp = true → s.journal.now (.record hex) =
    some (JournalRecord.completed fp o).file → o.Short ∧ r.Backed s o
  kept : s.losses = 0 → ∀ e ∈ s.returned, ∃ b, s.began e.call = some b ∧
    r.Kept s e.call b e.invoked e.answer

def discipline (r : Runner) : Discipline (workMachine r) where
  assumes := fun _ => True
  inv := Inv r
  act := Act
  post := fun c answer s => ∃ b, s.began c = some b ∧ r.Kept s c b (s.hasInvoked c) answer

theorem inv_init (r : Runner) : Inv r .init where
  first := ⟨rfl, Nat.one_pos⟩
  fresh := fun _ _ => rfl
  objects := by
    intro hex f hf
    have hempty : some f ∈ [none] := hf
    simp at hempty
  records := by
    intro hex f hf
    have hempty : some f ∈ [none] := hf
    simp at hempty
  recorded := fun i hi => absurd hi List.not_mem_nil
  once := List.nodup_nil
  backed := fun _ hex fp o _ ho => nomatch ho
  kept := fun _ e he => absurd he List.not_mem_nil

end TosAi.SoftwareWork
