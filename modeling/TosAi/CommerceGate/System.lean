/-
  The Gate as a system: method calls in flight on any number of Gate instances
  over one directory, interleaved at every operation, with process death and
  power loss at any point.

  A Gate is numbered by the call of `Open` that made it.  Its process may die
  (`kill`), which ends its calls and releases the directory lock but leaves the
  file system as it is, cache and all.  A power loss ends all calls and leaves of
  every name one of the things the write cache allowed.
-/
import TosAi.CommerceGate.Effects
import TosAi.CommerceGate.Evidence

set_option autoImplicit false

namespace TosAi.CommerceGate

open Foundation

/-! ## Calls -/

/-- A method call with its arguments. -/
inductive Method where
  | openGate (directory : String) (hasResolver : Bool)
  | close
  | prepare (plan : Plan) (fence : WriterFence) (lifetime : Int) (action : AuthorizedAction)
  | start (ticket : Ticket) (fence : WriterFence) (action : AuthorizedAction)
  | markRunning (launch : Launch)
  | complete (launch : Launch) (terminal : State) (outcomeDigest : String)
  | performHTTPS (call : EffectCall)
  | inspect (executionID : String)
  | exportOutcomeEvidence (request : EvidenceRequest)
  | buildOperationOutcomeArtifacts (request : ArtifactRequest)
  deriving DecidableEq, Repr

/-- The value of a successful call, and the record it wrote last. -/
inductive Result (C : Commerce) where
  | opened
  | closed
  | ticket (ticket : Ticket) (written : Option Written)
  | launch (launch : Launch) (written : Written)
  | done (written : Written)
  | response (response : HTTPSResponse) (written : Option Written)
  | resolution (resolution : Resolution)
  | exported (exported : Exported)
  | artifacts (artifacts : Artifacts C)

/-- The body of a call. -/
def body (C : Commerce) : Method → Gated C (Result C)
  | .openGate directory hasResolver => do
    openGate directory hasResolver
    pure .opened
  | .close => do
    closeGate
    pure .closed
  | .prepare plan fence lifetime action => do
    let (ticket, written) ← prepare plan fence lifetime action
    pure (.ticket ticket written)
  | .start ticket fence action => do
    let (launch, written) ← start ticket fence action
    pure (.launch launch written)
  | .markRunning launch => do
    let written ← markRunning launch
    pure (.done written)
  | .complete launch terminal outcomeDigest => do
    let written ← complete launch terminal outcomeDigest
    pure (.done written)
  | .performHTTPS call => do
    let (response, written) ← performHTTPS call
    pure (.response response written)
  | .inspect executionID => do
    let resolution ← inspect executionID
    pure (.resolution resolution)
  | .exportOutcomeEvidence request => do
    let exported ← exportOutcomeEvidence request
    pure (.exported exported)
  | .buildOperationOutcomeArtifacts request => do
    let artifacts ← buildOperationOutcomeArtifacts request
    pure (.artifacts artifacts)

/-- What a call returns. -/
abbrev Outcome (C : Commerce) := Except Err (Result C)

/-- The program of a call. -/
def program (C : Commerce) (m : Method) : Prog (Op C) Res (Outcome C) := (body C m).run

/-! ## The machine -/

/-- An entry into `performPinnedHTTPS`: by which call, and what was on disk under
the record's name. -/
structure Entered where
  call : Nat
  entry : Entry
  durable : List (Option File)

/-- The shared state. -/
structure System (C : Commerce) where
  fs : Fs FileName
  /-- The Gate that holds the lock of the directory. -/
  owner : Option Nat
  /-- `gate.lock != nil`. -/
  lock : Nat → Bool
  /-- The call that holds `gate.mu`. -/
  mu : Nat → Option Nat
  /-- The Gate has been returned by `Open` and its process lives. -/
  published : Nat → Bool
  /-- The calls in flight, each with its Gate. -/
  calls : Nat → Option (Nat × Method)
  next : Nat
  tokens : FileName → Token → Option Nat
  entered : List Entered
  returned : List (Nat × Outcome C)
  losses : Nat

namespace System

variable {C : Commerce}

/-- Nothing has happened over an empty directory. -/
def init : System C where
  fs := .empty
  owner := none
  lock := fun _ => false
  mu := fun _ => none
  published := fun _ => false
  calls := fun _ => none
  next := 0
  tokens := fun _ _ => none
  entered := []
  returned := []
  losses := 0

/-- The Gate a call is made on. -/
def gateOf (s : System C) (c : Nat) : Nat := (s.calls c).elim 0 Prod.fst

/-- The first call to claim a token has it. -/
def claim (s : System C) (c : Nat) (n : FileName) (t : Token) : System C :=
  { s with
    tokens := fun m u => if m = n ∧ u = t ∧ s.tokens n t = none then some c else s.tokens m u }

/-- What an operation of call `c` does. -/
def apply (c : Nat) : (o : Op C) → System C → Res o → System C → Prop
  | .file o, s, answer, s' => ∃ fs', o.apply c s.fs answer fs' ∧ s' = { s with fs := fs' }
  | .lockHeld, s, answer, s' => s' = s ∧ answer = s.lock (s.gateOf c)
  | .lockMutex, s, _, s' =>
    s.mu (s.gateOf c) = none ∧ s' = { s with mu := Function.update s.mu (s.gateOf c) (some c) }
  | .unlockMutex, s, _, s' => s' = { s with mu := Function.update s.mu (s.gateOf c) none }
  | .acquireDirectory, s, answer, s' =>
    (answer = true ∧ s.owner = none ∧
      s' = { s with
        owner := some (s.gateOf c)
        lock := Function.update s.lock (s.gateOf c) true }) ∨
    (answer = false ∧ s' = s)
  | .releaseDirectory, s, _, s' =>
    s' = { s with owner := if s.owner = some (s.gateOf c) then none else s.owner }
  | .clearLock, s, _, s' => s' = { s with lock := Function.update s.lock (s.gateOf c) false }
  | .enter entry, s, _, s' =>
    s' = { s with entered := s.entered ++ [⟨c, entry, s.fs.outcomes entry.name⟩] }
  | .claim n t, s, _, s' => s' = s.claim c n t
  | .exchange _ _ _ _, s, answer, s' =>
    s' = s ∧ ∀ status body, answer = .ok (status, body) → status < 1000
  | .makeDirectory, s, _, s' | .privateDirectory, s, _, s' | .now, s, _, s'
  | .authority, s, _, s' | .random, s, _, s' | .openInput _, s, _, s'
  | .resolveCredential _ _ _ _, s, _, s' | .revalidate, s, _, s' => s' = s

/-- A call begins: `Open` on a Gate of its own number, any other method on a Gate
that `Open` has returned. -/
def start (c : Nat) (p : Prog (Op C) Res (Outcome C)) (s s' : System C) : Prop :=
  c = s.next ∧ ∃ g m, p = program C m ∧
    (match m with
      | .openGate _ _ => g = c
      | _ => s.published g = true) ∧
    s' = { s with calls := Function.update s.calls c (some (g, m)), next := c + 1 }

/-- A call returns; a successful `Open` hands out its Gate. -/
def finish (c : Nat) (out : Outcome C) (s : System C) : System C :=
  { s with
    calls := Function.update s.calls c none
    returned := s.returned ++ [(c, out)]
    published :=
      match out with
      | .ok .opened => Function.update s.published c true
      | _ => s.published }

/-- The process of Gate `g` dies. -/
def kill (g : Nat) (s : System C) : System C :=
  { s with
    owner := if s.owner = some g then none else s.owner
    lock := Function.update s.lock g false
    mu := Function.update s.mu g none
    published := Function.update s.published g false
    calls := fun c => if s.gateOf c = g then none else s.calls c }

/-- The machine loses power; `found` is what is left under every name. -/
def powerLoss (s : System C) (found : FileName → Option File)
    (h : ∀ n, found n ∈ s.fs.outcomes n) : System C :=
  { s with
    fs := s.fs.reboot found h
    owner := none
    lock := fun _ => false
    mu := fun _ => none
    published := fun _ => false
    calls := fun _ => none
    losses := s.losses + 1 }

/-- A move of the environment. -/
inductive Env : (Nat → Prop) → System C → System C → Prop where
  | kill {s : System C} (g : Nat) :
      Env (fun c => (s.calls c).isSome ∧ s.gateOf c = g) s (s.kill g)
  | powerLoss {s : System C} (found : FileName → Option File)
      (h : ∀ n, found n ∈ s.fs.outcomes n) : Env (fun _ => True) s (s.powerLoss found h)

end System

/-- The Gate system. -/
def gateMachine (C : Commerce) : Machine (Op C) Res (System C) (Outcome C) where
  apply := System.apply
  start := System.start
  finish := System.finish
  env := System.Env

/-- No call is in flight and nothing has happened. -/
def gateInit (C : Commerce) : Config (Op C) Res (System C) (Outcome C) :=
  ⟨System.init, fun _ => none⟩

end TosAi.CommerceGate
