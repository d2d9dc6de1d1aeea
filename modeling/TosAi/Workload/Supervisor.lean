/-
  `SupervisedBackend` (`pkg/executor/supervisor.go`).

  A call is at a place of the source: before its mutex section, between its sections, in a
  call of the driver, or returned.  The steps are the mutex sections, the operations on the
  slot channel, those on the two wait groups, and the calls of the driver; the driver may
  return, fail or panic.
-/
import TosAi.Foundation.Pool
import TosAi.SoftwareWork.Policy

set_option autoImplicit false

namespace TosAi.Workload

open Foundation
open Foundation.Json (Bytes)
open SoftwareWork (Err ContainerRequest RunResult digestPattern)

/-- How a call of a driver or an engine ends. -/
inductive Outcome (α : Type) where
  | value (a : α)
  | failed
  | panicked

/-- What a method returned. -/
inductive Answer where
  | run (result : Except Err RunResult)
  | check (result : Except Err Unit)
  | close (result : Except Err Unit)

namespace Supervisor

/-! ## The state -/

structure State where
  active : Finset String
  /-- the elements in the channel `slots` -/
  slots : Nat
  isClosed : Bool
  probes : Nat
  wait : Nat
  closeOnce : Once
  closeErr : Except Err Unit
  /-- the calls of `driver.Close` so far -/
  closes : Nat

def State.init : State := ⟨∅, 0, false, 0, 0, .idle, .ok (), 0⟩

/-- The mutex section of `RunIsolated`. -/
def State.register (maxActive : Nat) (s : State) (digest : String) : Except Err State :=
  if s.isClosed then .error (.text "isolated backend supervisor is closed")
  else if digest ∈ s.active then .error (.text "isolated execution is already active")
  else if s.slots < maxActive then
    .ok { s with slots := s.slots + 1, active := insert digest s.active, wait := s.wait + 1 }
  else .error (.text "isolated backend capacity is exhausted")

/-- What `RunIsolated` makes of the end of the driver's call; `cancelled` is whether `ctx.Err()` is
an error by then. -/
def runAnswer (cancelled : Bool) : Outcome RunResult → Except Err RunResult
  | .value result => if cancelled then .error .context else .ok result
  | .failed | .panicked =>
    if cancelled then .error .context else .error (.text "isolated backend driver failed")

/-- What `CheckReady` makes of the end of the driver's call. -/
def checkAnswer (cancelled : Bool) : Outcome Unit → Except Err Unit
  | .value () => if cancelled then .error .context else .ok ()
  | .failed | .panicked =>
    if cancelled then .error .context else .error (.text "isolated backend driver is unavailable")

def callDriverClose : Outcome Unit → Except Err Unit
  | .value () => .ok ()
  | .failed => .error (.text "close isolated backend driver")
  | .panicked => .error (.text "isolated backend close panicked")

/-! ## The places of a call -/

inductive Place where
  | idle
  /-- `RunIsolated` -/
  | run (request : ContainerRequest) (input : Bytes)
  | registered (request : ContainerRequest) (input : Bytes)
  /-- in `driver.RunIsolated` -/
  | driving (request : ContainerRequest) (input : Bytes)
  /-- the deferred function is next -/
  | driven (digest : String) (answer : Except Err RunResult)
  | deregistered (answer : Except Err RunResult)
  | released (answer : Except Err RunResult)
  /-- `CheckReady` -/
  | check
  | admitted
  /-- in `driver.CheckReady` -/
  | probing
  | probed (answer : Except Err Unit)
  /-- `Close` -/
  | close
  /-- in the function of `closeOnce` -/
  | entered
  | quiescing
  | quiet
  /-- in `driver.Close` -/
  | closing
  | waiting
  | returned (answer : Answer)

/-- One step of a call. -/
inductive Moves (maxActive c : Nat) (s : State) : Place → State → Place → Prop where
  | runCalled {request : ContainerRequest} {input : Bytes} :
      Moves maxActive c s .idle s (.run request input)
  | runCancelled {request : ContainerRequest} {input : Bytes} :
      Moves maxActive c s (.run request input) s (.returned (.run (.error .context)))
  | runInvalid {request : ContainerRequest} {input : Bytes}
      (hdigest : digestPattern request.executionDigest = false) :
      Moves maxActive c s (.run request input) s
        (.returned (.run (.error (.text "invalid isolated execution digest"))))
  | runRefused {request : ContainerRequest} {input : Bytes} {err : Err}
      (hdigest : digestPattern request.executionDigest = true)
      (hregister : s.register maxActive request.executionDigest = .error err) :
      Moves maxActive c s (.run request input) s (.returned (.run (.error err)))
  | runRegistered {s' : State} {request : ContainerRequest} {input : Bytes}
      (hdigest : digestPattern request.executionDigest = true)
      (hregister : s.register maxActive request.executionDigest = .ok s') :
      Moves maxActive c s (.run request input) s' (.registered request input)
  | driverCalled {request : ContainerRequest} {input : Bytes} :
      Moves maxActive c s (.registered request input) s (.driving request input)
  | driverReturned {request : ContainerRequest} {input : Bytes}
      (outcome : Outcome RunResult) (cancelled : Bool) :
      Moves maxActive c s (.driving request input) s
        (.driven request.executionDigest (runAnswer cancelled outcome))
  | runDeregistered {digest : String} {answer : Except Err RunResult} :
      Moves maxActive c s (.driven digest answer) { s with active := s.active.erase digest }
        (.deregistered answer)
  | slotReturned {answer : Except Err RunResult} (hslots : 0 < s.slots) :
      Moves maxActive c s (.deregistered answer) { s with slots := s.slots - 1 } (.released answer)
  | runDone {answer : Except Err RunResult} :
      Moves maxActive c s (.released answer) { s with wait := s.wait - 1 } (.returned (.run answer))
  | checkCalled : Moves maxActive c s .idle s .check
  | checkCancelled : Moves maxActive c s .check s (.returned (.check (.error .context)))
  | checkRefused (hclosed : s.isClosed = true) : Moves maxActive c s .check s
        (.returned (.check (.error (.text "isolated backend supervisor is closed"))))
  | checkAdmitted (hclosed : s.isClosed = false) :
      Moves maxActive c s .check { s with probes := s.probes + 1 } .admitted
  | probeCalled : Moves maxActive c s .admitted s .probing
  | probeReturned (outcome : Outcome Unit) (cancelled : Bool) :
      Moves maxActive c s .probing s (.probed (checkAnswer cancelled outcome))
  | probeDone {answer : Except Err Unit} :
      Moves maxActive c s (.probed answer) { s with probes := s.probes - 1 }
        (.returned (.check answer))
  | closeCalled : Moves maxActive c s .idle s .close
  | onceEntered (honce : s.closeOnce = .idle) :
      Moves maxActive c s .close { s with closeOnce := .running } .entered
  | onceSkipped (honce : s.closeOnce = .done) :
      Moves maxActive c s .close s (.returned (.close s.closeErr))
  | closedSet : Moves maxActive c s .entered { s with isClosed := true } .quiescing
  | probesAwaited (hprobes : s.probes = 0) : Moves maxActive c s .quiescing s .quiet
  | closeDriverCalled : Moves maxActive c s .quiet { s with closes := s.closes + 1 } .closing
  | closeDriverReturned (outcome : Outcome Unit) :
      Moves maxActive c s .closing { s with closeErr := callDriverClose outcome } .waiting
  | runsAwaited (hwait : s.wait = 0) :
      Moves maxActive c s .waiting { s with closeOnce := .done } (.returned (.close s.closeErr))

/-- No call has been made. -/
def start : Pool State Place := ⟨.init, fun _ => .idle⟩

/-! ## What a call holds -/

namespace Place

/-- The digest of a call between its registration and its deregistration. -/
def digest : Place → Option String
  | .registered request _ | .driving request _ => some request.executionDigest
  | .driven digest _ => some digest
  | _ => none

/-- The call has an element in `slots`. -/
def slot : Place → Bool
  | .registered _ _ | .driving _ _ | .driven _ _ | .deregistered _ => true
  | _ => false

/-- The call is counted by `wait`. -/
def awaited : Place → Bool
  | .registered _ _ | .driving _ _ | .driven _ _ | .deregistered _ | .released _ => true
  | _ => false

/-- The call is counted by `probes`. -/
def probe : Place → Bool
  | .admitted | .probing | .probed _ => true
  | _ => false

/-- The call is in `driver.RunIsolated`. -/
def Driving : Place → Prop
  | .driving _ _ => True
  | _ => False

/-- The call is in the function of `closeOnce`. -/
def Inside : Place → Unit → Prop
  | .entered, _ | .quiescing, _ | .quiet, _ | .closing, _ | .waiting, _ => True
  | _, _ => False

/-- What a call that is closing knows. -/
def Knows (s : State) : Place → Prop
  | .entered => s.closes = 0
  | .quiescing => s.isClosed = true ∧ s.closes = 0
  | .quiet => s.isClosed = true ∧ s.probes = 0 ∧ s.closes = 0
  | .closing | .waiting => s.isClosed = true ∧ s.probes = 0 ∧ s.closes = 1
  | .returned (.close _) => s.closeOnce = .done
  | _ => True

/-- The call has not begun or has returned. -/
def Settled : Place → Prop
  | .idle | .returned _ => True
  | _ => False

end Place

/-- What `closeOnce` says. -/
structure State.Stage (s : State) : Prop where
  idle : s.closeOnce = .idle → s.closes = 0
  done : s.closeOnce = .done → s.isClosed = true ∧ s.probes = 0 ∧ s.wait = 0 ∧ s.closes = 1

structure Inv (maxActive : Nat) (x : Pool State Place) : Prop where
  active : Pool.Owned (fun p d => p.digest = some d) (· ∈ x.shared.active) x
  slots : Counts x.shared.slots fun c => (x.place c).slot = true
  wait : Counts x.shared.wait fun c => (x.place c).awaited = true
  probes : Counts x.shared.probes fun c => (x.place c).probe = true
  bound : x.shared.slots ≤ maxActive
  once : Pool.Owned Place.Inside (fun _ => x.shared.closeOnce = .running) x
  knows : ∀ c, (x.place c).Knows x.shared
  stage : x.shared.Stage

variable {maxActive : Nat} {p : Place}

theorem inv_start : Inv maxActive start where
  active := by
    constructor
    · exact fun d => iff_of_false (Finset.notMem_empty d) (by rintro ⟨_, h⟩; cases h)
    · intro _ _ _ h
      cases h
  slots := .none fun _ => Bool.false_ne_true
  wait := .none fun _ => Bool.false_ne_true
  probes := .none fun _ => Bool.false_ne_true
  bound := Nat.zero_le _
  once := ⟨fun _ => iff_of_false (nomatch ·) fun ⟨_, h⟩ => h, fun _ _ _ h => h.elim⟩
  knows := fun _ => trivial
  stage := ⟨fun _ => rfl, (nomatch ·)⟩

theorem register_eq_ok {s s' : State} {digest : String} (h : s.register maxActive digest = .ok s') :
    s.isClosed = false ∧ digest ∉ s.active ∧ s.slots < maxActive ∧
      s' = { s with
        slots := s.slots + 1, active := insert digest s.active, wait := s.wait + 1 } := by
  unfold State.register at h
  split at h
  · cases h
  · next hclosed =>
      split at h
      · cases h
      · next hactive =>
          split at h
          · next hslots =>
              exact ⟨Bool.eq_false_of_not_eq_true hclosed, hactive, hslots, (Except.ok.inj h).symm⟩
          · cases h

section Moves

variable {x : Pool State Place} {c : Nat} {s' : State} {p' : Place}

/-- What a call can do that is not in the function of `closeOnce`. -/
theorem Moves.outside {s : State} (h : Moves maxActive c s p s' p') (hp : ¬p.Inside ()) :
    s'.isClosed = s.isClosed ∧ s'.closes = s.closes ∧
      (s'.closeOnce = s.closeOnce ∨ s'.closeOnce = .running) ∧
      (s.isClosed = true → s'.probes ≤ s.probes ∧ s'.wait ≤ s.wait) := by
  cases h with
  | runRegistered hdigest hregister =>
    obtain ⟨hopen, -, -, rfl⟩ := register_eq_ok hregister
    refine ⟨rfl, rfl, .inl rfl, fun hclosed => ?_⟩
    rw [hopen] at hclosed
    cases hclosed
  | checkAdmitted hopen =>
    refine ⟨rfl, rfl, .inl rfl, fun hclosed => ?_⟩
    rw [hopen] at hclosed
    cases hclosed
  | onceEntered hidle => exact ⟨rfl, rfl, .inr rfl, fun _ => ⟨le_rfl, le_rfl⟩⟩
  | runDone => exact ⟨rfl, rfl, .inl rfl, fun _ => ⟨le_rfl, Nat.sub_le _ _⟩⟩
  | probeDone => exact ⟨rfl, rfl, .inl rfl, fun _ => ⟨Nat.sub_le _ _, le_rfl⟩⟩
  | closedSet | probesAwaited | closeDriverCalled | closeDriverReturned | runsAwaited =>
    exact absurd trivial hp
  | _ => exact ⟨rfl, rfl, .inl rfl, fun _ => ⟨le_rfl, le_rfl⟩⟩

theorem Moves.closeOnce {s : State} (h : Moves maxActive c s p s' p')
    (hdone : s.closeOnce = .done) : s'.closeOnce = .done := by
  cases h with
  | runRegistered hdigest hregister =>
    obtain ⟨-, -, -, rfl⟩ := register_eq_ok hregister
    exact hdone
  | onceEntered hidle =>
    rw [hdone] at hidle
    cases hidle
  | runsAwaited hwait => rfl
  | _ => exact hdone

/-- What another call knows stays true. -/
theorem Moves.knows {s : State} {p q : Place} (h : Moves maxActive c s p s' p') (hq : q.Knows s)
    (hone : p.Inside () → ¬q.Inside ()) : q.Knows s' := by
  have houtside (hinside : q.Inside ()) := h.outside fun hp => hone hp hinside
  cases q with
  | entered =>
    obtain ⟨-, hcloses, -⟩ := houtside trivial
    exact hcloses.trans hq
  | quiescing =>
    obtain ⟨hclosed, hcloses, -⟩ := houtside trivial
    exact ⟨hclosed.trans hq.1, hcloses.trans hq.2⟩
  | quiet | closing | waiting =>
    obtain ⟨hclosed, hcloses, -, hfewer⟩ := houtside trivial
    exact ⟨hclosed.trans hq.1, Nat.le_zero.mp (hq.2.1 ▸ (hfewer hq.1).1), hcloses.trans hq.2.2⟩
  | returned answer =>
    cases answer with
    | close result => exact h.closeOnce hq
    | _ => trivial
  | _ => trivial

variable (hinv : Inv maxActive x) (h : Moves maxActive c x.shared (x.place c) s' p')
include hinv h

theorem Inv.move_active :
    Pool.Owned (fun p d => p.digest = some d) (· ∈ s'.active) (x.move c s' p') := by
  have hactive := hinv.active
  generalize hp : x.place c = p at h
  cases h with
  | runRegistered hdigest hregister =>
    obtain ⟨-, hfresh, -, rfl⟩ := register_eq_ok hregister
    apply hactive.move
    · rintro d hd hmem
      obtain rfl := Option.some.inj hd
      exact absurd hmem hfresh
    · intro d
      rw [hp]
      simp only [Finset.mem_insert, Place.digest, Option.some.injEq, reduceCtorEq,
        not_false_eq_true, and_true, eq_comm]
  | runDeregistered =>
    apply hactive.move
    · exact fun d hd => nomatch hd
    · intro d
      rw [hp]
      simp only [Finset.mem_erase, Place.digest, reduceCtorEq, Option.some.injEq, false_or, ne_eq]
      rw [and_comm, eq_comm]
  | _ =>
    apply hactive.stay
    intro d
    rw [hp]
    rfl

theorem Inv.move_slots :
    Counts s'.slots (fun d => ((x.move c s' p').place d).slot = true) ∧ s'.slots ≤ maxActive := by
  have hbound := hinv.bound
  refine ⟨Pool.counts_move hinv.slots fun hpos => ?_, ?_⟩ <;>
    generalize x.place c = p at h
  · cases h with
    | runRegistered hdigest hregister =>
      obtain ⟨-, -, -, rfl⟩ := register_eq_ok hregister
      rfl
    | slotReturned hslots => exact Nat.sub_add_cancel hslots
    | _ => rfl
  · cases h with
    | runRegistered hdigest hregister =>
      obtain ⟨-, -, hslots, rfl⟩ := register_eq_ok hregister
      exact hslots
    | slotReturned hslots => exact (Nat.sub_le _ _).trans hbound
    | _ => exact hbound

theorem Inv.move_wait :
    Counts s'.wait fun d => ((x.move c s' p').place d).awaited = true := by
  refine Pool.counts_move hinv.wait fun hpos => ?_
  generalize x.place c = p at h hpos
  cases h with
  | runRegistered hdigest hregister =>
    obtain ⟨-, -, -, rfl⟩ := register_eq_ok hregister
    rfl
  | runDone => exact Nat.sub_add_cancel (hpos rfl)
  | _ => rfl

theorem Inv.move_probes :
    Counts s'.probes fun d => ((x.move c s' p').place d).probe = true := by
  refine Pool.counts_move hinv.probes fun hpos => ?_
  generalize x.place c = p at h hpos
  cases h with
  | runRegistered hdigest hregister =>
    obtain ⟨-, -, -, rfl⟩ := register_eq_ok hregister
    rfl
  | probeDone => exact Nat.sub_add_cancel (hpos rfl)
  | _ => rfl

theorem Inv.move_once :
    Pool.Owned Place.Inside (fun _ => s'.closeOnce = .running) (x.move c s' p') := by
  have honce := hinv.once
  generalize hp : x.place c = p at h
  cases h with
  | runRegistered hdigest hregister =>
    obtain ⟨-, -, -, rfl⟩ := register_eq_ok hregister
    apply honce.stay
    intro u
    rw [hp]
    rfl
  | onceEntered hidle =>
    apply honce.move
    · intro u _ hrunning
      rw [hidle] at hrunning
      cases hrunning
    · exact fun u => iff_of_true rfl (.inl trivial)
  | runsAwaited hwait =>
    apply honce.move
    · exact fun u hinside => hinside.elim
    · intro u
      rw [hp]
      refine iff_of_false (nomatch ·) ?_
      rintro (hinside | ⟨-, hnot⟩)
      · exact hinside
      · exact hnot trivial
  | _ =>
    apply honce.stay
    intro u
    rw [hp]
    rfl

/-- What the call knows that has moved. -/
theorem Inv.move_knows (d : Nat) :
    ((x.move c s' p').place d).Knows s' := by
  refine Pool.forall_move (P := fun _ (q : Place) => q.Knows s') ?_ ?_ d
  · have hknows := hinv.knows c
    have hstage := hinv.stage
    generalize x.place c = p at h hknows
    cases h with
    | onceEntered hidle =>
      exact hstage.idle hidle
    | onceSkipped hdone => exact hdone
    | closedSet => exact ⟨rfl, hknows⟩
    | probesAwaited hprobes => exact ⟨hknows.1, hprobes, hknows.2⟩
    | closeDriverCalled => exact ⟨hknows.1, hknows.2.1, congrArg (· + 1) hknows.2.2⟩
    | closeDriverReturned outcome => exact hknows
    | runsAwaited hwait => exact rfl
    | _ => trivial
  · intro e he
    refine h.knows (hinv.knows e) fun hc hinside => he ?_
    exact hinv.once.unique () e c hinside hc

theorem Inv.move_stage : s'.Stage := by
  have hstage := hinv.stage
  by_cases hinside : (x.place c).Inside ()
  · -- the call that closes, and only it, says that it is done
    have hrunning := (hinv.once.iff ()).mpr ⟨c, hinside⟩
    have hknows := hinv.knows c
    generalize x.place c = p at h hknows hinside
    cases h with
    | runsAwaited hwait => exact ⟨(nomatch ·), fun _ => ⟨hknows.1, hknows.2.1, hwait, hknows.2.2⟩⟩
    | closedSet | probesAwaited | closeDriverCalled | closeDriverReturned =>
      constructor <;> intro honce <;> cases hrunning.symm.trans honce
    | _ => exact hinside.elim
  · obtain ⟨hclosed, hcloses, honce, hfewer⟩ := h.outside hinside
    constructor
    · intro hidle
      rcases honce with honce | honce
      · exact hcloses.trans (hstage.idle (honce.symm.trans hidle))
      · cases honce.symm.trans hidle
    · intro hdone
      rcases honce with honce | honce
      · obtain ⟨hc, hprobes, hwait, hone⟩ := hstage.done (honce.symm.trans hdone)
        obtain ⟨hfewerProbes, hfewerWaits⟩ := hfewer hc
        exact ⟨hclosed.trans hc, by omega, by omega, hcloses.trans hone⟩
      · cases honce.symm.trans hdone

theorem Inv.move :
    Inv maxActive (x.move c s' p') where
  active := hinv.move_active h
  slots := (hinv.move_slots h).1
  wait := hinv.move_wait h
  probes := hinv.move_probes h
  bound := (hinv.move_slots h).2
  once := hinv.move_once h
  knows := hinv.move_knows h
  stage := hinv.move_stage h

end Moves

theorem inv_of_reaches {x : Pool State Place} (h : Pool.Reaches (Moves maxActive) start x) :
    Inv maxActive x :=
  h.invariant (fun _ _ _ _ hinv hmoves => hinv.move hmoves) inv_start

/-! ## The life of a supervised backend -/

theorem Place.slot_of_driving (h : p.Driving) : p.slot = true := by
  cases p with
  | driving request input => rfl
  | _ => exact h.elim

theorem Place.slot_of_digest {digest : String} (h : p.digest = some digest) : p.slot = true := by
  cases p with
  | registered _ _ | driving _ _ | driven _ _ => rfl
  | _ => cases h

theorem Place.awaited_of_slot (h : p.slot = true) : p.awaited = true := by
  cases p with
  | registered _ _ | driving _ _ | driven _ _ | deregistered _ => rfl
  | _ => cases h

theorem Place.not_awaited_of_settled (h : p.Settled) : ¬p.awaited = true := by
  cases p with
  | idle | returned _ => exact Bool.false_ne_true
  | _ => exact h.elim

/-- Once `driver.Close` has been called there is no probe. -/
theorem Inv.closes {x : Pool State Place} (hinv : Inv maxActive x) :
    x.shared.closes = 0 ∨ x.shared.closes = 1 ∧ x.shared.probes = 0 := by
  cases honce : x.shared.closeOnce with
  | idle => exact .inl (hinv.stage.idle honce)
  | done =>
    obtain ⟨-, hprobes, -, hone⟩ := hinv.stage.done honce
    exact .inr ⟨hone, hprobes⟩
  | running =>
    obtain ⟨c, hinside⟩ := (hinv.once.iff ()).mp honce
    have hknows := hinv.knows c
    generalize x.place c = p at hinside hknows
    cases p with
    | entered => exact .inl hknows
    | quiescing => exact .inl hknows.2
    | quiet => exact .inl hknows.2.2
    | closing | waiting => exact .inr ⟨hknows.2.2, hknows.2.1⟩
    | _ => exact hinside.elim

/-- Once a `Close` has returned nothing is in the driver. -/
theorem Inv.not_driving {x : Pool State Place} (hinv : Inv maxActive x) {c : Nat}
    {answer : Except Err Unit} (hc : x.place c = .returned (.close answer)) (d : Nat) :
    ¬(x.place d).Driving := by
  intro hd
  have hknows := hinv.knows c
  rw [hc] at hknows
  obtain ⟨-, -, hwait, -⟩ := hinv.stage.done hknows
  have hpos := hinv.wait.pos (Place.awaited_of_slot (Place.slot_of_driving hd))
  omega

/-- **The life of a supervised backend**, in every interleaving of any number of calls. -/
theorem supervised_backend_lifecycle (maxActive : Nat) (x : Pool State Place)
    (hreach : Pool.Reaches (Moves maxActive) start x) :
    -- at most `maxActive` calls are in the driver, all with different digests
    (∀ calls : Finset Nat, (∀ c ∈ calls, (x.place c).Driving) → calls.card ≤ maxActive) ∧
    (∀ c d request input request' input', x.place c = .driving request input →
      x.place d = .driving request' input' → request.executionDigest = request'.executionDigest →
        c = d) ∧
    -- the active set and the slots
    (∀ digest, digest ∈ x.shared.active ↔ ∃ c, (x.place c).digest = some digest) ∧
    x.shared.active.card ≤ x.shared.slots ∧ x.shared.slots ≤ maxActive ∧
    Counts x.shared.slots (fun c => (x.place c).slot = true) ∧
    ((∀ c, (x.place c).Settled) → x.shared.slots = 0 ∧ x.shared.active = ∅ ∧ x.shared.wait = 0) ∧
    -- `driver.Close`
    x.shared.closes ≤ 1 ∧ (∀ c, x.place c = .probing → x.shared.closes = 0) ∧
    -- a `Close` that has returned
    (∀ c answer, x.place c = .returned (.close answer) → ∀ y, Pool.Reaches (Moves maxActive) x y →
      ∀ d, ¬(y.place d).Driving) := by
  have hinv := inv_of_reaches hreach
  refine ⟨?_, ?_, hinv.active.iff, ?_, hinv.bound, hinv.slots, ?_, ?_, ?_, ?_⟩
  · intro calls hcalls
    have hcard := hinv.slots.card_le fun c hc => Place.slot_of_driving (hcalls c hc)
    exact hcard.trans hinv.bound
  · intro c d request input request' input' hc hd hsame
    refine hinv.active.unique request.executionDigest c d ?_ ?_
    · rw [hc]
      rfl
    · rw [hd, hsame]
      rfl
  · refine hinv.slots.card_le_of_owner (fun c => (x.place c).digest) fun digest hdigest => ?_
    obtain ⟨c, hc⟩ := (hinv.active.iff digest).mp hdigest
    exact ⟨c, Place.slot_of_digest hc, hc⟩
  · intro hsettled
    have hnone (c : Nat) : ¬(x.place c).awaited = true := Place.not_awaited_of_settled (hsettled c)
    refine ⟨hinv.slots.eq_zero fun c hc => hnone c (Place.awaited_of_slot hc), ?_,
      hinv.wait.eq_zero hnone⟩
    rw [Finset.eq_empty_iff_forall_notMem]
    intro digest hdigest
    obtain ⟨c, hc⟩ := (hinv.active.iff digest).mp hdigest
    exact hnone c (Place.awaited_of_slot (Place.slot_of_digest hc))
  · have hcloses := hinv.closes
    omega
  · intro c hc
    rcases hinv.closes with hzero | ⟨-, hprobes⟩
    · exact hzero
    · have hpos := hinv.probes.pos (c := c) (by rw [hc]; rfl)
      omega
  · intro c answer hc y hy d
    have hyinv : Inv maxActive y :=
      hy.invariant (fun _ _ _ _ hinv hmoves => hinv.move hmoves) hinv
    refine hyinv.not_driving (hy.stays (P := (· = .returned (.close answer))) ?_ hc) d
    rintro c s p s' p' rfl hmoves
    cases hmoves

end Supervisor

/-- A request with nothing unusual. -/
def sampleRequest : ContainerRequest where
  executionDigest := "sha256:" ++ String.ofList (List.replicate 64 '0')
  imageDigest := "sha256:" ++ String.ofList (List.replicate 64 '0')
  entrypoint := ["/bin/true"]
  workingDirectory := ""
  environment := []
  workspaceArchive := false
  userID := 1
  groupID := 1
  readOnlyRoot := true
  noNewPrivileges := true
  network := .none
  allowedHosts := []
  allowGPU := false
  limits := ⟨1000, 2 ^ 20, 2 ^ 20, 10, 10 ^ 9, 1024, 0⟩

namespace Supervisor

/-- A call is in the driver; then a `Close` comes, and returns once the call has. -/
theorem supervised_backend_lifecycle_sample :
    ∃ x y : Pool State Place, Pool.Reaches (Moves 1) start x ∧ (x.place 0).Driving ∧
      x.shared.slots = 1 ∧ x.shared.active.card ≤ x.shared.slots ∧
      Pool.Reaches (Moves 1) start y ∧ y.place 1 = .returned (.close (.ok ())) ∧
      y.shared.closes ≤ 1 ∧ ∀ z, Pool.Reaches (Moves 1) y z → ∀ d, ¬(z.place d).Driving := by
  have hdigest : digestPattern sampleRequest.executionDigest = true := by decide +kernel
  have hregister : State.init.register 1 sampleRequest.executionDigest =
      .ok { State.init with slots := 1, active := {sampleRequest.executionDigest}, wait := 1 } :=
        rfl
  have hcalled : Pool.Reaches (Moves 1) start (start.move 0 .init (.run sampleRequest [])) :=
    Pool.Reaches.move .refl rfl .runCalled
  have hregistered := hcalled.move (Pool.place_move_self _ _ _ _) (.runRegistered hdigest hregister)
  have hdriving := hregistered.move (Pool.place_move_self _ _ _ _) .driverCalled
  -- `Close` gets as far as waiting for the call
  have hentered := (hdriving.move (c := 1) rfl .closeCalled).move (c := 1) rfl (.onceEntered rfl)
  have hquiet := (hentered.move (c := 1) rfl .closedSet).move (c := 1) rfl (.probesAwaited rfl)
  have hwaiting := (hquiet.move (c := 1) rfl .closeDriverCalled).move (c := 1) rfl
    (.closeDriverReturned (.value ()))
  -- the call comes back
  have hdriven := hwaiting.move (c := 0) rfl (.driverReturned .failed false)
  have hreleased := (hdriven.move (c := 0) rfl .runDeregistered).move (c := 0) rfl
    (.slotReturned Nat.one_pos)
  have hclosed := (hreleased.move (c := 0) rfl .runDone).move (c := 1) rfl (.runsAwaited rfl)
  have hlife := (supervised_backend_lifecycle 1 _ hclosed).2.2.2.2.2.2.2
  refine ⟨_, _, hdriving, ?_, rfl, (supervised_backend_lifecycle 1 _ hdriving).2.2.2.1,
    hclosed, rfl, hlife.1, hlife.2.2 1 _ rfl⟩
  rw [Pool.place_move_self]
  trivial

end Supervisor

end TosAi.Workload
