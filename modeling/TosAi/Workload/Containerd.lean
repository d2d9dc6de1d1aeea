/-
  `Backend` of `pkg/executor/containerdbackend`.

  The steps of a call are the mutex sections, the operations on the wait groups, the calls of
  `cancel` and those of the engine, which may return, fail or panic at any time.  Of the
  contexts there is what `cancel` functions have been called: a run is cancelled by `Close` or,
  when it has returned from the engine, by itself.
-/
import TosAi.Workload.Spec
import TosAi.Workload.Supervisor

set_option autoImplicit false

namespace TosAi.Workload.Containerd

open Foundation
open Foundation.Json (Bytes)
open SoftwareWork (Err ContainerRequest RunResult digestPattern)

/-! ## The state -/

/-- What a backend is opened with. -/
structure Setup where
  maximum : Nat
  gpuDevices : DeviceMap

structure State where
  /-- the digests of the active runs, each with the call whose `cancel` it is -/
  active : Finset (String × Nat)
  closed : Bool
  probes : Nat
  runs : Nat
  closeOnce : Once
  /-- the errors joined in `closeErr` -/
  closeErr : List Err
  /-- the calls whose `cancel` has been called -/
  cancelled : Finset Nat
  /-- the calls of `engine.Close` so far -/
  closes : Nat
  /-- `ownership.Close` has been called -/
  released : Bool

def State.init : State := ⟨∅, false, 0, 0, .idle, [], ∅, 0, false⟩

/-- The mutex section of `runIsolated` in the call `c`. -/
def State.register (maximum : Nat) (s : State) (digest : String) (c : Nat) : Except Err State :=
  if s.closed then .error (.text "containerd backend is closed")
  else if maximum ≤ s.active.card then .error (.text "containerd backend capacity is exhausted")
  else if digest ∈ s.active.image Prod.fst then
    .error (.text "containerd execution is already active")
  else .ok { s with active := insert (digest, c) s.active, runs := s.runs + 1 }

/-- What `runIsolated` makes of the end of the engine's call. -/
def runAnswer (cancelled : Bool) (outcome : Outcome RunResult) : Except Err RunResult :=
  if cancelled then .error .context
  else match outcome with
    | .value result => .ok result
    | .failed | .panicked => .error (.text "containerd execution failed")

/-- What `CheckReady` makes of the end of the engine's call. -/
def checkAnswer (cancelled : Bool) : Outcome Unit → Except Err Unit
  | .value () => .ok ()
  | .failed | .panicked =>
    if cancelled then .error .context else .error (.text "containerd backend is unavailable")

/-- The error of `callClose`, if there is one. -/
def callClose : Outcome Unit → List Err
  | .value () => []
  | .failed => [.text "close containerd runtime"]
  | .panicked => [.text "containerd close panicked"]

inductive Answer where
  | run (result : Except Err RunResult)
  | check (result : Except Err Unit)
  | close (errors : List Err)

/-! ## The places of a call -/

inductive Place where
  | idle
  /-- `RunIsolatedOnDevices` -/
  | onDevices (request : ContainerRequest) (input : Bytes) (aliases : List String)
  /-- `runIsolated` -/
  | run (request : ContainerRequest) (input : Bytes) (devices : List String)
  | registered (request : ContainerRequest) (input : Bytes) (devices : List String)
  /-- in `engine.Run` -/
  | running (request : ContainerRequest) (input : Bytes) (devices : List String)
  /-- the deferred function is next -/
  | ran (digest : String) (answer : Except Err RunResult)
  | cancelled (digest : String) (answer : Except Err RunResult)
  | deregistered (answer : Except Err RunResult)
  /-- `CheckReady` -/
  | check
  | admitted
  /-- in `engine.CheckReady` -/
  | probing
  | probed (answer : Except Err Unit)
  /-- `Close` -/
  | close
  /-- in the function of `closeOnce` -/
  | entered
  /-- these `cancel` functions are still to be called -/
  | cancelling (cancels : List Nat)
  | quiescing
  | draining
  | drained
  /-- in `engine.Close` -/
  | closing
  | unlocking (errors : List Err)
  | unlocked (errors : List Err)
  | returned (answer : Answer)

/-- One step of a call. -/
inductive Moves (B : Setup) (c : Nat) (s : State) : Place → State → Place → Prop where
  | runCalled {request : ContainerRequest} {input : Bytes} :
      Moves B c s .idle s (.run request input [])
  | devicesCalled {request : ContainerRequest} {input : Bytes}
      {aliases : List String} : Moves B c s .idle s (.onDevices request input aliases)
  | devicesRefused {request : ContainerRequest} {input : Bytes}
      {aliases : List String} {err : Err}
      (hassign : assignDevices B.gpuDevices request aliases = .error err) :
      Moves B c s (.onDevices request input aliases) s (.returned (.run (.error err)))
  | devicesAssigned {request : ContainerRequest} {input : Bytes}
      {aliases devices : List String}
      (hassign : assignDevices B.gpuDevices request aliases = .ok devices) :
      Moves B c s (.onDevices request input aliases) s (.run request input devices)
  | runCancelled {request : ContainerRequest} {input : Bytes} {devices : List String} :
      Moves B c s (.run request input devices) s (.returned (.run (.error .context)))
  | runInvalid {request : ContainerRequest} {input : Bytes} {devices : List String} {err : Err}
      (hvalid : validateRequest request input devices.length = .error err) :
      Moves B c s (.run request input devices) s (.returned (.run (.error err)))
  | runRefused {request : ContainerRequest} {input : Bytes} {devices : List String} {err : Err}
      (hvalid : validateRequest request input devices.length = .ok ())
      (hregister : s.register B.maximum request.executionDigest c = .error err) :
      Moves B c s (.run request input devices) { s with cancelled := insert c s.cancelled }
        (.returned (.run (.error err)))
  | runRegistered {s' : State} {request : ContainerRequest} {input : Bytes}
      {devices : List String} (hvalid : validateRequest request input devices.length = .ok ())
      (hregister : s.register B.maximum request.executionDigest c = .ok s') :
      Moves B c s (.run request input devices) s' (.registered request input devices)
  | engineCalled {request : ContainerRequest} {input : Bytes} {devices : List String} :
      Moves B c s (.registered request input devices) s (.running request input devices)
  | engineReturned {request : ContainerRequest} {input : Bytes}
      {devices : List String} (outcome : Outcome RunResult) (cancelled : Bool) :
      Moves B c s (.running request input devices) s
        (.ran request.executionDigest (runAnswer cancelled outcome))
  | cancelCalled {digest : String} {answer : Except Err RunResult} :
      Moves B c s (.ran digest answer) { s with cancelled := insert c s.cancelled }
        (.cancelled digest answer)
  | runDeregistered {digest : String} {answer : Except Err RunResult} :
      Moves B c s (.cancelled digest answer)
        { s with active := s.active.filter (·.1 ≠ digest) } (.deregistered answer)
  | runDone {answer : Except Err RunResult} :
      Moves B c s (.deregistered answer) { s with runs := s.runs - 1 } (.returned (.run answer))
  | checkCalled : Moves B c s .idle s .check
  | checkCancelled : Moves B c s .check s (.returned (.check (.error .context)))
  | checkRefused (hclosed : s.closed = true) :
      Moves B c s .check s (.returned (.check (.error (.text "containerd backend is closed"))))
  | checkAdmitted (hclosed : s.closed = false) :
      Moves B c s .check { s with probes := s.probes + 1 } .admitted
  | probeCalled : Moves B c s .admitted s .probing
  | probeReturned (outcome : Outcome Unit) (cancelled : Bool) :
      Moves B c s .probing s (.probed (checkAnswer cancelled outcome))
  | probeDone {answer : Except Err Unit} :
      Moves B c s (.probed answer) { s with probes := s.probes - 1 } (.returned (.check answer))
  | closeCalled : Moves B c s .idle s .close
  | onceEntered (honce : s.closeOnce = .idle) :
      Moves B c s .close { s with closeOnce := .running } .entered
  | onceSkipped (honce : s.closeOnce = .done) :
      Moves B c s .close s (.returned (.close s.closeErr))
  /-- the map is gone through in some order -/
  | closedSet {cancels : List Nat} (hcancels : ∀ n, n ∈ cancels ↔ n ∈ s.active.image Prod.snd) :
      Moves B c s .entered { s with closed := true } (.cancelling cancels)
  | runCancelledByClose {n : Nat} {rest : List Nat} :
      Moves B c s (.cancelling (n :: rest)) { s with cancelled := insert n s.cancelled }
        (.cancelling rest)
  | cancelsCalled : Moves B c s (.cancelling []) s .quiescing
  | probesAwaited (hprobes : s.probes = 0) : Moves B c s .quiescing s .draining
  | runsAwaited (hruns : s.runs = 0) : Moves B c s .draining s .drained
  | closeEngineCalled : Moves B c s .drained { s with closes := s.closes + 1 } .closing
  | closeEngineReturned (outcome : Outcome Unit) :
      Moves B c s .closing s (.unlocking (callClose outcome))
  | ownershipClosed {errors : List Err} (failed : Bool) :
      Moves B c s (.unlocking errors) { s with released := true }
        (.unlocked (if failed then errors ++ [.io] else errors))
  | onceLeft {errors : List Err} :
      Moves B c s (.unlocked errors) { s with closeErr := errors, closeOnce := .done }
        (.returned (.close errors))

/-- No call has been made. -/
def start : Pool State Place := ⟨.init, fun _ => .idle⟩

/-! ## What a call holds -/

namespace Place

/-- The digest of a call between its registration and its deregistration. -/
def digest : Place → Option String
  | .registered request _ _ | .running request _ _ => some request.executionDigest
  | .ran digest _ | .cancelled digest _ => some digest
  | _ => none

/-- The call is counted by `runs`. -/
def counted : Place → Bool
  | .registered _ _ _ | .running _ _ _ | .ran _ _ | .cancelled _ _ | .deregistered _ => true
  | _ => false

/-- The call is counted by `probes`. -/
def probe : Place → Bool
  | .admitted | .probing | .probed _ => true
  | _ => false

/-- The call is in `engine.Run`. -/
def Running : Place → Prop
  | .running _ _ _ => True
  | _ => False

/-- The call is in a call of the engine. -/
def InEngine : Place → Prop
  | .running _ _ _ | .probing | .closing => True
  | _ => False

/-- The call is in the function of `closeOnce`. -/
def Inside : Place → Unit → Prop
  | .entered, _ | .cancelling _, _ | .quiescing, _ | .draining, _ | .drained, _ | .closing, _
  | .unlocking _, _ | .unlocked _, _ => True
  | _, _ => False

/-- What the call `c` knows when it has come to the place. -/
def Knows (s : State) (c : Nat) : Place → Prop
  | .cancelled _ _ => c ∈ s.cancelled
  | .entered => s.closes = 0 ∧ s.released = false
  | .cancelling rest => (s.closed = true ∧ ∀ e ∈ s.active, e.2 ∈ rest ∨ e.2 ∈ s.cancelled) ∧
      s.closes = 0 ∧ s.released = false
  | .quiescing =>
    (s.closed = true ∧ ∀ e ∈ s.active, e.2 ∈ s.cancelled) ∧ s.closes = 0 ∧ s.released = false
  | .draining =>
    (s.closed = true ∧ ∀ e ∈ s.active, e.2 ∈ s.cancelled) ∧ s.probes = 0 ∧ s.closes = 0 ∧
      s.released = false
  | .drained => s.closed = true ∧ s.probes = 0 ∧ s.runs = 0 ∧ s.closes = 0 ∧ s.released = false
  | .closing | .unlocking _ =>
    s.closed = true ∧ s.probes = 0 ∧ s.runs = 0 ∧ s.closes = 1 ∧ s.released = false
  | .unlocked _ => s.closed = true ∧ s.probes = 0 ∧ s.runs = 0 ∧ s.closes = 1
  | .returned (.close _) => s.closeOnce = .done
  | _ => True

end Place

/-- What `closeOnce` says. -/
structure State.Stage (s : State) : Prop where
  idle : s.closeOnce = .idle → s.closes = 0 ∧ s.released = false
  done : s.closeOnce = .done → s.closed = true ∧ s.probes = 0 ∧ s.runs = 0 ∧ s.closes = 1

structure Inv (B : Setup) (x : Pool State Place) : Prop where
  active : Pool.Owned (fun p d => p.digest = some d) (· ∈ x.shared.active.image Prod.fst) x
  entries : ∀ c digest, (digest, c) ∈ x.shared.active ↔ (x.place c).digest = some digest
  valid : ∀ c digest, (x.place c).digest = some digest → digestPattern digest = true
  bound : x.shared.active.card ≤ B.maximum
  runs : Counts x.shared.runs fun c => (x.place c).counted = true
  probes : Counts x.shared.probes fun c => (x.place c).probe = true
  once : Pool.Owned Place.Inside (fun _ => x.shared.closeOnce = .running) x
  knows : ∀ c, (x.place c).Knows x.shared c
  stage : x.shared.Stage

variable {B : Setup}

theorem inv_start : Inv B start where
  active := by
    constructor
    · exact fun d => iff_of_false (Finset.notMem_empty d) (by rintro ⟨_, h⟩; cases h)
    · intro _ _ _ h
      cases h
  entries := fun c digest => iff_of_false (Finset.notMem_empty _) (nomatch ·)
  valid := by
    intro c digest h
    cases h
  bound := Nat.zero_le _
  runs := .none fun _ => Bool.false_ne_true
  probes := .none fun _ => Bool.false_ne_true
  once := ⟨fun _ => iff_of_false (nomatch ·) fun ⟨_, h⟩ => h, fun _ _ _ h => h.elim⟩
  knows := fun _ => trivial
  stage := ⟨fun _ => ⟨rfl, rfl⟩, (nomatch ·)⟩

theorem register_eq_ok {maximum : Nat} {s s' : State} {digest : String} {c : Nat}
    (h : s.register maximum digest c = .ok s') :
    s.closed = false ∧ s.active.card < maximum ∧ digest ∉ s.active.image Prod.fst ∧
      s' = { s with active := insert (digest, c) s.active, runs := s.runs + 1 } := by
  unfold State.register at h
  split at h
  · cases h
  · next hclosed =>
      split at h
      · cases h
      · next hcard =>
          split at h
          · cases h
          · next hactive =>
              exact ⟨Bool.eq_false_of_not_eq_true hclosed, Nat.lt_of_not_le hcard, hactive,
                (Except.ok.inj h).symm⟩

section Moves

variable {x : Pool State Place} {c : Nat} {s' : State} {p' : Place} {s : State} {p : Place}

/-- What a step does to the active runs: nothing, or the call comes or goes. -/
theorem Moves.active (h : Moves B c s p s' p') :
    (s'.active = s.active ∧ p'.digest = p.digest) ∨
    (∃ request input devices, p' = .registered request input devices ∧ p.digest = none ∧
      validateRequest request input devices.length = .ok () ∧
      request.executionDigest ∉ s.active.image Prod.fst ∧ s.active.card < B.maximum ∧
      s'.active = insert (request.executionDigest, c) s.active) ∨
    ∃ digest, p.digest = some digest ∧ p'.digest = none ∧
      s'.active = s.active.filter (·.1 ≠ digest) := by
  cases h with
  | runRegistered hvalid hregister =>
    obtain ⟨-, hcard, hfresh, rfl⟩ := register_eq_ok hregister
    exact .inr (.inl ⟨_, _, _, rfl, rfl, hvalid, hfresh, hcard, rfl⟩)
  | runDeregistered => exact .inr (.inr ⟨_, rfl, rfl, rfl⟩)
  | _ => exact .inl ⟨rfl, rfl⟩

/-- A context that is cancelled stays cancelled. -/
theorem Moves.cancelled (h : Moves B c s p s' p') : s.cancelled ⊆ s'.cancelled := by
  cases h with
  | runRegistered hvalid hregister =>
    obtain ⟨-, -, -, rfl⟩ := register_eq_ok hregister
    exact Finset.Subset.refl _
  | runRefused | cancelCalled | runCancelledByClose => exact Finset.subset_insert _ _
  | _ => exact Finset.Subset.refl _

theorem Moves.closeOnce (h : Moves B c s p s' p') (hdone : s.closeOnce = .done) :
    s'.closeOnce = .done := by
  cases h with
  | runRegistered hvalid hregister =>
    obtain ⟨-, -, -, rfl⟩ := register_eq_ok hregister
    exact hdone
  | onceEntered hidle =>
    rw [hdone] at hidle
    cases hidle
  | onceLeft => rfl
  | _ => exact hdone

/-- What a call can do that is not in the function of `closeOnce`. -/
structure Outside (s s' : State) : Prop where
  closed : s'.closed = s.closed
  closes : s'.closes = s.closes
  released : s'.released = s.released
  once : s'.closeOnce = s.closeOnce ∨ s'.closeOnce = .running
  fewer : s.closed = true → s'.active ⊆ s.active ∧ s'.probes ≤ s.probes ∧ s'.runs ≤ s.runs

theorem Moves.outside (h : Moves B c s p s' p') (hp : ¬p.Inside ()) :
    Outside s s' := by
  cases h with
  | runRegistered hvalid hregister =>
    obtain ⟨hopen, -, -, rfl⟩ := register_eq_ok hregister
    refine ⟨rfl, rfl, rfl, .inl rfl, fun hclosed => ?_⟩
    rw [hopen] at hclosed
    cases hclosed
  | checkAdmitted hopen =>
    refine ⟨rfl, rfl, rfl, .inl rfl, fun hclosed => ?_⟩
    rw [hopen] at hclosed
    cases hclosed
  | onceEntered hidle =>
    exact ⟨rfl, rfl, rfl, .inr rfl, fun _ => ⟨Finset.Subset.refl _, le_rfl, le_rfl⟩⟩
  | runDeregistered =>
    exact ⟨rfl, rfl, rfl, .inl rfl, fun _ => ⟨Finset.filter_subset _ _, le_rfl, le_rfl⟩⟩
  | runDone =>
    exact ⟨rfl, rfl, rfl, .inl rfl, fun _ => ⟨Finset.Subset.refl _, le_rfl, Nat.sub_le _ _⟩⟩
  | probeDone =>
    exact ⟨rfl, rfl, rfl, .inl rfl, fun _ => ⟨Finset.Subset.refl _, Nat.sub_le _ _, le_rfl⟩⟩
  | closedSet | runCancelledByClose | cancelsCalled | probesAwaited | runsAwaited
  | closeEngineCalled | closeEngineReturned | ownershipClosed | onceLeft => exact absurd trivial hp
  | _ => exact ⟨rfl, rfl, rfl, .inl rfl, fun _ => ⟨Finset.Subset.refl _, le_rfl, le_rfl⟩⟩

/-- What another call knows stays true. -/
theorem Moves.knows {q : Place} {d : Nat} (h : Moves B c s p s' p') (hq : q.Knows s d)
    (hone : p.Inside () → ¬q.Inside ()) : q.Knows s' d := by
  have houtside (hinside : q.Inside ()) := h.outside fun hp => hone hp hinside
  have hcancelled := h.cancelled
  cases q with
  | cancelled digest answer => exact hcancelled hq
  | entered =>
    have ho := houtside trivial
    exact ⟨ho.closes.trans hq.1, ho.released.trans hq.2⟩
  | cancelling rest =>
    have ho := houtside trivial
    obtain ⟨⟨hclosed, hall⟩, hcloses, hreleased⟩ := hq
    refine ⟨⟨ho.closed.trans hclosed, fun e he => ?_⟩, ho.closes.trans hcloses,
      ho.released.trans hreleased⟩
    exact (hall e ((ho.fewer hclosed).1 he)).imp_right fun hmem => hcancelled hmem
  | quiescing =>
    have ho := houtside trivial
    obtain ⟨⟨hclosed, hall⟩, hcloses, hreleased⟩ := hq
    refine ⟨⟨ho.closed.trans hclosed, fun e he => ?_⟩, ho.closes.trans hcloses,
      ho.released.trans hreleased⟩
    exact hcancelled (hall e ((ho.fewer hclosed).1 he))
  | draining =>
    have ho := houtside trivial
    obtain ⟨⟨hclosed, hall⟩, hprobes, hcloses, hreleased⟩ := hq
    obtain ⟨hactive, hfewer, -⟩ := ho.fewer hclosed
    refine ⟨⟨ho.closed.trans hclosed, fun e he => hcancelled (hall e (hactive he))⟩, by omega,
      ho.closes.trans hcloses, ho.released.trans hreleased⟩
  | drained | closing | unlocking errors =>
    have ho := houtside trivial
    obtain ⟨hclosed, hprobes, hruns, hcloses, hreleased⟩ := hq
    obtain ⟨-, hfewerProbes, hfewerRuns⟩ := ho.fewer hclosed
    exact ⟨ho.closed.trans hclosed, by omega, by omega, ho.closes.trans hcloses,
      ho.released.trans hreleased⟩
  | unlocked errors =>
    have ho := houtside trivial
    obtain ⟨hclosed, hprobes, hruns, hcloses⟩ := hq
    obtain ⟨-, hfewerProbes, hfewerRuns⟩ := ho.fewer hclosed
    exact ⟨ho.closed.trans hclosed, by omega, by omega, ho.closes.trans hcloses⟩
  | returned answer =>
    cases answer with
    | close errors => exact h.closeOnce hq
    | _ => trivial
  | _ => trivial

variable (hinv : Inv B x) (h : Moves B c x.shared (x.place c) s' p')
include hinv h

theorem Inv.move_active :
    Pool.Owned (fun p d => p.digest = some d) (· ∈ s'.active.image Prod.fst) (x.move c s' p') := by
  have hactive := hinv.active
  rcases h.active with
    ⟨hsame, hdigest⟩ | ⟨request, input, devices, rfl, hnone, -, hfresh, -, hinsert⟩ |
      ⟨digest, hsome, hnone, hfilter⟩
  · rw [hsame]
    refine hactive.stay fun d => ?_
    rw [hdigest]
  · apply hactive.move
    · intro d hd hmem
      obtain rfl := Option.some.inj hd
      exact absurd hmem hfresh
    · intro d
      rw [hinsert, hnone, Finset.image_insert, Finset.mem_insert]
      simp only [Place.digest, Option.some.injEq, reduceCtorEq, not_false_eq_true,
        and_true, eq_comm]
  · apply hactive.move
    · intro d hd
      rw [hnone] at hd
      cases hd
    · intro d
      rw [hfilter, hsome, hnone]
      simp only [Finset.mem_image, Finset.mem_filter, Prod.exists, exists_and_right,
        exists_eq_right, reduceCtorEq, Option.some.injEq, false_or, ne_eq]
      rw [eq_comm (a := digest)]

theorem Inv.move_entries (d : Nat) (digest : String) :
    (digest, d) ∈ s'.active ↔ ((x.move c s' p').place d).digest = some digest := by
  refine Pool.forall_move (P := fun d (q : Place) => ∀ digest, (digest, d) ∈ s'.active ↔
    q.digest = some digest) ?_ ?_ d digest <;>
    rcases h.active with
      ⟨hsame, hdigest⟩ | ⟨request, input, devices, rfl, hnone, -, hfresh, -, hinsert⟩ |
      ⟨gone, hsome, hnone, hfilter⟩
  · intro digest
    rw [hsame, hdigest]
    exact hinv.entries c digest
  · intro digest
    rw [hinsert, Finset.mem_insert, hinv.entries, hnone]
    simp only [Prod.mk.injEq, and_true, Place.digest, Option.some.injEq, reduceCtorEq,
      or_false, eq_comm]
  · intro digest
    rw [hfilter, hnone, Finset.mem_filter, hinv.entries, hsome]
    simp only [Option.some.injEq, reduceCtorEq, iff_false, not_and, ne_eq, not_not]
    exact Eq.symm
  · intro d hd digest
    rw [hsame]
    exact hinv.entries d digest
  · intro d hd digest
    rw [hinsert, Finset.mem_insert, hinv.entries]
    simp only [Prod.mk.injEq, hd, and_false, false_or]
  · intro d hd digest
    rw [hfilter, Finset.mem_filter, hinv.entries]
    refine and_iff_left_of_imp fun hother heq => hd ?_
    exact hinv.active.unique gone d c (heq ▸ hother) hsome

theorem Inv.move_valid (d : Nat)
    (digest : String) (hd : ((x.move c s' p').place d).digest = some digest) :
    digestPattern digest = true := by
  refine Pool.forall_move (P := fun _ (q : Place) => ∀ digest, q.digest = some digest →
    digestPattern digest = true) ?_ ?_ d digest hd
  · intro digest hdigest
    rcases h.active with
      ⟨-, hsame⟩ | ⟨request, input, devices, rfl, -, hvalid, -⟩ | ⟨-, -, hnone, -⟩
    · exact hinv.valid c digest (hsame ▸ hdigest)
    · obtain rfl := Option.some.inj hdigest
      exact (validateRequest_ok hvalid).1
    · rw [hnone] at hdigest
      cases hdigest
  · exact fun e _ => hinv.valid e

theorem Inv.move_bound :
    s'.active.card ≤ B.maximum := by
  rcases h.active with
    ⟨hsame, -⟩ | ⟨request, -, -, -, -, -, -, hcard, hinsert⟩ | ⟨digest, -, -, hfilter⟩
  · rw [hsame]
    exact hinv.bound
  · rw [hinsert]
    exact (Finset.card_insert_le _ _).trans hcard
  · rw [hfilter]
    exact (Finset.card_filter_le _ _).trans hinv.bound

theorem Inv.move_runs :
    Counts s'.runs fun d => ((x.move c s' p').place d).counted = true := by
  refine Pool.counts_move hinv.runs fun hpos => ?_
  generalize x.place c = p at h hpos
  cases h with
  | runRegistered hvalid hregister =>
    obtain ⟨-, -, -, rfl⟩ := register_eq_ok hregister
    rfl
  | runDone => exact Nat.sub_add_cancel (hpos rfl)
  | _ => rfl

theorem Inv.move_probes :
    Counts s'.probes fun d => ((x.move c s' p').place d).probe = true := by
  refine Pool.counts_move hinv.probes fun hpos => ?_
  generalize x.place c = p at h hpos
  cases h with
  | runRegistered hvalid hregister =>
    obtain ⟨-, -, -, rfl⟩ := register_eq_ok hregister
    rfl
  | probeDone => exact Nat.sub_add_cancel (hpos rfl)
  | _ => rfl

theorem Inv.move_once :
    Pool.Owned Place.Inside (fun _ => s'.closeOnce = .running) (x.move c s' p') := by
  have honce := hinv.once
  generalize hp : x.place c = p at h
  cases h with
  | runRegistered hvalid hregister =>
    obtain ⟨-, -, -, rfl⟩ := register_eq_ok hregister
    apply honce.stay
    intro u
    rw [hp]
    rfl
  | onceEntered hidle =>
    apply honce.move
    · intro u _ hrunning
      rw [hidle] at hrunning
      cases hrunning
    · exact fun u => iff_of_true rfl (.inl trivial)
  | onceLeft =>
    apply honce.move
    · exact fun u hinside => hinside.elim
    · intro u
      rw [hp]
      refine iff_of_false (nomatch ·) ?_
      rintro (hinside | ⟨-, hnot⟩)
      · exact hinside
      · exact hnot trivial
  | _ =>
    apply honce.stay
    intro u
    rw [hp]
    rfl

theorem Inv.move_knows (d : Nat) :
    ((x.move c s' p').place d).Knows s' d := by
  refine Pool.forall_move (P := fun d (q : Place) => q.Knows s' d) ?_ ?_ d
  · have hknows := hinv.knows c
    have hstage := hinv.stage
    generalize x.place c = p at h hknows
    cases h with
    | cancelCalled => exact Finset.mem_insert_self _ _
    | onceEntered hidle => exact hstage.idle hidle
    | onceSkipped hdone => exact hdone
    | closedSet hcancels =>
      exact ⟨⟨rfl, fun e he => .inl ((hcancels e.2).mpr (Finset.mem_image_of_mem _ he))⟩, hknows⟩
    | runCancelledByClose =>
      obtain ⟨⟨hclosed, hall⟩, hrest⟩ := hknows
      refine ⟨⟨hclosed, fun e he => ?_⟩, hrest⟩
      rcases hall e he with hlisted | hcancelled
      · rcases List.mem_cons.mp hlisted with heq | hlater
        · exact .inr (heq ▸ Finset.mem_insert_self _ _)
        · exact .inl hlater
      · exact .inr (Finset.mem_insert_of_mem hcancelled)
    | cancelsCalled =>
      obtain ⟨⟨hclosed, hall⟩, hrest⟩ := hknows
      exact ⟨⟨hclosed, fun e he => (hall e he).resolve_left List.not_mem_nil⟩, hrest⟩
    | probesAwaited hprobes => exact ⟨hknows.1, hprobes, hknows.2⟩
    | runsAwaited hruns => exact ⟨hknows.1.1, hknows.2.1, hruns, hknows.2.2⟩
    | closeEngineCalled =>
      obtain ⟨hclosed, hprobes, hruns, hcloses, hreleased⟩ := hknows
      exact ⟨hclosed, hprobes, hruns, congrArg (· + 1) hcloses, hreleased⟩
    | closeEngineReturned outcome => exact hknows
    | ownershipClosed failed =>
      obtain ⟨hclosed, hprobes, hruns, hcloses, -⟩ := hknows
      exact ⟨hclosed, hprobes, hruns, hcloses⟩
    | onceLeft => exact rfl
    | _ => trivial
  · intro e he
    refine h.knows (hinv.knows e) fun hc hinside => he ?_
    exact hinv.once.unique () e c hinside hc

theorem Inv.move_stage : s'.Stage := by
  have hstage := hinv.stage
  by_cases hinside : (x.place c).Inside ()
  · have hrunning := (hinv.once.iff ()).mpr ⟨c, hinside⟩
    have hknows := hinv.knows c
    generalize x.place c = p at h hknows hinside
    cases h with
    | onceLeft => exact ⟨(nomatch ·), fun _ => hknows⟩
    | closedSet | runCancelledByClose | cancelsCalled | probesAwaited | runsAwaited
    | closeEngineCalled | closeEngineReturned | ownershipClosed =>
      constructor <;> intro honce <;> cases hrunning.symm.trans honce
    | _ => exact hinside.elim
  · have ho := h.outside hinside
    constructor
    · intro hidle
      rcases ho.once with honce | honce
      · obtain ⟨hcloses, hreleased⟩ := hstage.idle (honce.symm.trans hidle)
        exact ⟨ho.closes.trans hcloses, ho.released.trans hreleased⟩
      · cases honce.symm.trans hidle
    · intro hdone
      rcases ho.once with honce | honce
      · obtain ⟨hclosed, hprobes, hruns, hone⟩ := hstage.done (honce.symm.trans hdone)
        obtain ⟨-, hfewerProbes, hfewerRuns⟩ := ho.fewer hclosed
        exact ⟨ho.closed.trans hclosed, by omega, by omega, ho.closes.trans hone⟩
      · cases honce.symm.trans hdone

theorem Inv.move : Inv B (x.move c s' p') where
  active := hinv.move_active h
  entries := hinv.move_entries h
  valid := hinv.move_valid h
  bound := hinv.move_bound h
  runs := hinv.move_runs h
  probes := hinv.move_probes h
  once := hinv.move_once h
  knows := hinv.move_knows h
  stage := hinv.move_stage h

end Moves

theorem Inv.reaches {x y : Pool State Place} (hinv : Inv B x) (h : Pool.Reaches (Moves B) x y) :
    Inv B y :=
  h.invariant (fun _ _ _ _ hinv hmoves => hinv.move hmoves) hinv

/-! ## The life of a backend -/

namespace Place

/-- A `Close` that has called the `cancel` functions, or has seen that another one is done. -/
def Cancels : Place → Prop
  | .quiescing | .draining | .drained | .closing | .unlocking _ | .unlocked _ |
    .returned (.close _) => True
  | _ => False

theorem counted_of_digest {p : Place} {digest : String} (h : p.digest = some digest) :
    p.counted = true := by
  cases p with
  | registered _ _ _ | running _ _ _ | ran _ _ | cancelled _ _ => rfl
  | _ => cases h

end Place

section Life

variable {x y : Pool State Place}

/-- A registered call is cancelled before it is deregistered. -/
theorem Inv.cancelled_of_registered (hinv : Inv B x) (hreach : Pool.Reaches (Moves B) x y) {d : Nat}
    (hd : (x.place d).digest.isSome = true) :
    (y.place d).digest.isSome = true ∨ d ∈ y.shared.cancelled := by
  have hboth : Inv B y ∧ ((y.place d).digest.isSome = true ∨ d ∈ y.shared.cancelled) := by
    refine hreach.invariant (I := fun z => Inv B z ∧
      ((z.place d).digest.isSome = true ∨ d ∈ z.shared.cancelled)) ?_ ⟨hinv, .inl hd⟩
    rintro z c s p ⟨hz, hcase⟩ hmoves
    refine ⟨hz.move hmoves, ?_⟩
    rcases hcase with hsome | hcancelled
    · by_cases hcd : d = c
      · subst hcd
        rw [Pool.place_move_self, Pool.shared_move]
        have hknows := hz.knows d
        generalize z.place d = q at hmoves hsome hknows
        cases hmoves with
        | runDeregistered => exact .inr hknows
        | engineCalled | engineReturned | cancelCalled => exact .inl rfl
        | _ => cases hsome
      · rw [Pool.place_move_of_ne _ hcd]
        exact .inl hsome
    · exact .inr (hmoves.cancelled hcancelled)
  exact hboth.2

theorem Inv.not_registered (hinv : Inv B x) (hruns : x.shared.runs = 0) (d : Nat) :
    ¬(x.place d).counted = true := by
  intro hd
  have hpos := hinv.runs.pos hd
  omega

/-- Once a `Close` has called the `cancel` functions, every registered call is cancelled. -/
theorem Inv.cancelled_of_cancels (hinv : Inv B x) {c : Nat} (hc : (x.place c).Cancels) {d : Nat}
    (hd : (x.place d).digest.isSome = true) : d ∈ x.shared.cancelled := by
  obtain ⟨digest, hdigest⟩ := Option.isSome_iff_exists.mp hd
  have hnone (hruns : x.shared.runs = 0) : d ∈ x.shared.cancelled :=
    absurd (Place.counted_of_digest hdigest) (hinv.not_registered hruns d)
  have hentry := (hinv.entries d digest).mpr hdigest
  have hknows := hinv.knows c
  generalize x.place c = p at hc hknows
  cases p with
  | quiescing | draining => exact hknows.1.2 _ hentry
  | drained | closing | unlocking errors | unlocked errors => exact hnone hknows.2.2.1
  | returned answer =>
    cases answer with
    | close errors => exact hnone (hinv.stage.done hknows).2.2.1
    | _ => exact hc.elim
  | _ => exact hc.elim

/-- Once `engine.Close` has been called no other call of the engine is in progress. -/
theorem Inv.closes (hinv : Inv B x) :
    x.shared.closes = 0 ∨ x.shared.closes = 1 ∧ x.shared.probes = 0 ∧ x.shared.runs = 0 := by
  cases honce : x.shared.closeOnce with
  | idle => exact .inl (hinv.stage.idle honce).1
  | done =>
    obtain ⟨-, hprobes, hruns, hone⟩ := hinv.stage.done honce
    exact .inr ⟨hone, hprobes, hruns⟩
  | running =>
    obtain ⟨c, hinside⟩ := (hinv.once.iff ()).mp honce
    have hknows := hinv.knows c
    generalize x.place c = p at hinside hknows
    cases p with
    | entered => exact .inl hknows.1
    | cancelling rest | quiescing => exact .inl hknows.2.1
    | draining => exact .inl hknows.2.2.1
    | drained => exact .inl hknows.2.2.2.1
    | closing | unlocking errors => exact .inr ⟨hknows.2.2.2.1, hknows.2.1, hknows.2.2.1⟩
    | unlocked errors => exact .inr ⟨hknows.2.2.2, hknows.2.1, hknows.2.2.1⟩
    | _ => exact hinside.elim

/-- Once the ownership lock is released no call of the engine is in progress. -/
theorem Inv.not_inEngine (hinv : Inv B x) (hreleased : x.shared.released = true) (d : Nat) :
    ¬(x.place d).InEngine := by
  intro hd
  have hzero : x.shared.probes = 0 ∧ x.shared.runs = 0 := by
    rcases hinv.closes with hzero | ⟨-, hboth⟩
    · -- before `engine.Close` the lock is held
      cases honce : x.shared.closeOnce with
      | idle =>
        obtain ⟨-, hheld⟩ := hinv.stage.idle honce
        cases hreleased.symm.trans hheld
      | done => exact (hinv.stage.done honce).2.imp_right And.left
      | running =>
        obtain ⟨c, hinside⟩ := (hinv.once.iff ()).mp honce
        have hknows := hinv.knows c
        generalize x.place c = p at hinside hknows
        cases p with
        | entered => cases hreleased.symm.trans hknows.2
        | cancelling rest | quiescing => cases hreleased.symm.trans hknows.2.2
        | draining => cases hreleased.symm.trans hknows.2.2.2
        | drained | closing | unlocking errors => cases hreleased.symm.trans hknows.2.2.2.2
        | unlocked errors => exact ⟨hknows.2.1, hknows.2.2.1⟩
        | _ => exact hinside.elim
    · exact hboth
  have hknows := hinv.knows d
  have hcounted := hinv.not_registered hzero.2 d
  have hprobe : ¬(x.place d).probe = true := by
    intro hprobe
    have hpos := hinv.probes.pos hprobe
    omega
  generalize x.place d = p at hd hknows hcounted hprobe
  cases p with
  | running request input devices => exact hcounted rfl
  | probing => exact hprobe rfl
  | closing => cases hreleased.symm.trans hknows.2.2.2.2
  | _ => exact hd.elim

theorem Moves.released {s s' : State} {p p' : Place} {c : Nat} (h : Moves B c s p s' p')
    (hreleased : s.released = true) : s'.released = true := by
  cases h with
  | runRegistered hvalid hregister =>
    obtain ⟨-, -, -, rfl⟩ := register_eq_ok hregister
    exact hreleased
  | ownershipClosed failed => rfl
  | _ => exact hreleased

end Life

/-- **The life of a containerd backend**, in every interleaving of any number of calls. -/
theorem containerd_backend_lifecycle (B : Setup) (x : Pool State Place)
    (hreach : Pool.Reaches (Moves B) start x) :
    -- at most `maximum` runs are in the engine, all under different names
    (∀ calls : Finset Nat, (∀ c ∈ calls, (x.place c).Running) → calls.card ≤ B.maximum) ∧
    (∀ c d request input devices request' input' devices',
      x.place c = .running request input devices → x.place d = .running request' input' devices' →
      runtimeID request.executionDigest = runtimeID request'.executionDigest → c = d) ∧
    -- the set that `Close` cancels has every run that was admitted
    (∀ c s' cancels, x.place c = .entered → Moves B c x.shared .entered s' (.cancelling cancels) →
      ∀ d, (x.place d).digest.isSome = true → d ∈ cancels) ∧
    -- and all of them are cancelled once it is through with them
    (∀ c d, x.place c = .close ∨ x.place c = .entered → (x.place d).digest.isSome = true →
      ∀ y, Pool.Reaches (Moves B) x y → (y.place c).Cancels → d ∈ y.shared.cancelled) ∧
    -- `engine.Close` comes once, after every other call of the engine has returned
    x.shared.closes ≤ 1 ∧
    (0 < x.shared.closes → ∀ d, ¬(x.place d).counted = true ∧ x.place d ≠ .probing) ∧
    -- and after the lock is released there is none
    (x.shared.released = true → ∀ y, Pool.Reaches (Moves B) x y → ∀ d, ¬(y.place d).InEngine) := by
  have hinv : Inv B x := inv_start.reaches hreach
  refine ⟨?_, ?_, ?_, ?_, ?_, ?_, ?_⟩
  · intro calls hcalls
    have hsubset : calls ⊆ x.shared.active.image Prod.snd := by
      intro c hc
      have hrunning := hcalls c hc
      have hentries := hinv.entries c
      generalize x.place c = p at hrunning hentries
      cases p with
      | running request input devices =>
        exact Finset.mem_image.mpr ⟨_, (hentries request.executionDigest).mpr rfl, rfl⟩
      | _ => exact hrunning.elim
    exact ((Finset.card_le_card hsubset).trans Finset.card_image_le).trans hinv.bound
  · intro c d request input devices request' input' devices' hc hd hname
    have hcdigest : (x.place c).digest = some request.executionDigest := by
      rw [hc]
      rfl
    have hddigest : (x.place d).digest = some request'.executionDigest := by
      rw [hd]
      rfl
    have hsame := runtimeID_injective (hinv.valid _ _ hcdigest) (hinv.valid _ _ hddigest) hname
    exact hinv.active.unique _ c d hcdigest (hsame ▸ hddigest)
  · intro c s' cancels _ hmoves d hd
    obtain ⟨digest, hdigest⟩ := Option.isSome_iff_exists.mp hd
    cases hmoves with
    | closedSet hcancels =>
      exact (hcancels d).mpr (Finset.mem_image.mpr ⟨_, (hinv.entries d digest).mpr hdigest, rfl⟩)
  · intro c d _ hd y hy hcancels
    rcases hinv.cancelled_of_registered hy hd with hsome | hcancelled
    · exact (hinv.reaches hy).cancelled_of_cancels hcancels hsome
    · exact hcancelled
  · have hcloses := hinv.closes
    omega
  · intro hpos d
    rcases hinv.closes with hzero | ⟨-, hprobes, hruns⟩
    · omega
    · refine ⟨hinv.not_registered hruns d, fun hd => ?_⟩
      have hprobe := hinv.probes.pos (c := d) (by rw [hd]; rfl)
      omega
  · intro hreleased y hy d
    have hyreleased : y.shared.released = true :=
      hy.invariant (I := fun z => z.shared.released = true)
        (fun _ _ _ _ hz hmoves => hmoves.released hz) hreleased
    exact (hinv.reaches hy).not_inEngine hyreleased d

/-- A backend for one run at a time. -/
def sampleSetup : Setup := ⟨1, ⟨[], List.nodup_nil⟩⟩

/-- A run is in the engine; then a `Close` comes, cancels it and returns once it is out. -/
theorem containerd_backend_lifecycle_sample :
    ∃ x y : Pool State Place, Pool.Reaches (Moves sampleSetup) start x ∧ (x.place 0).Running ∧
      x.shared.closes ≤ 1 ∧ Pool.Reaches (Moves sampleSetup) start y ∧
      y.place 1 = .returned (.close []) ∧ y.shared.cancelled = {0} ∧ y.shared.closes ≤ 1 ∧
      ∀ z, Pool.Reaches (Moves sampleSetup) y z → ∀ d, ¬(z.place d).InEngine := by
  have hvalid : validateRequest sampleRequest [] 0 = .ok () := by decide +kernel
  have hregister : State.init.register 1 sampleRequest.executionDigest 0 =
      .ok { State.init with active := {(sampleRequest.executionDigest, 0)}, runs := 1 } := rfl
  have hcalled : Pool.Reaches (Moves sampleSetup) start
      (start.move 0 .init (.run sampleRequest [] [])) := Pool.Reaches.move .refl rfl .runCalled
  have hregistered := hcalled.move (Pool.place_move_self _ _ _ _) (.runRegistered hvalid hregister)
  have hrunning := hregistered.move (Pool.place_move_self _ _ _ _) .engineCalled
  -- `Close` cancels the run and waits for it
  have hentered := (hrunning.move (c := 1) rfl .closeCalled).move (c := 1) rfl (.onceEntered rfl)
  have hcancels : ∀ n, n ∈ [0] ↔
      n ∈ ({(sampleRequest.executionDigest, 0)} : Finset (String × Nat)).image Prod.snd := by simp
  have hcancelling := hentered.move (c := 1) rfl (.closedSet hcancels)
  have hdraining := ((hcancelling.move (c := 1) rfl .runCancelledByClose).move (c := 1) rfl
    .cancelsCalled).move (c := 1) rfl (.probesAwaited rfl)
  -- the run comes back
  have hran := (hdraining.move (c := 0) rfl (.engineReturned .failed true)).move (c := 0) rfl
    .cancelCalled
  have hdone := (hran.move (c := 0) rfl .runDeregistered).move (c := 0) rfl .runDone
  have hclosing := (hdone.move (c := 1) rfl (.runsAwaited rfl)).move (c := 1) rfl
    .closeEngineCalled
  have hunlocked := (hclosing.move (c := 1) rfl (.closeEngineReturned (.value ()))).move (c := 1)
    rfl (.ownershipClosed false)
  have hclosed := hunlocked.move (c := 1) rfl .onceLeft
  have hlife := (containerd_backend_lifecycle _ _ hclosed).2.2.2.2
  refine ⟨_, _, hrunning, ?_, (containerd_backend_lifecycle _ _ hrunning).2.2.2.2.1,
    hclosed, rfl, rfl, hlife.1, hlife.2.2 rfl⟩
  rw [Pool.place_move_self]
  trivial

end TosAi.Workload.Containerd
