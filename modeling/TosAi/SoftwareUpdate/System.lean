/-
  Managers on one root: calls one after another, each of which may be cut off.

  A manager is numbered by the `Open` that made it.  Calls do not overlap, because a
  method holds `m.mu`, and a second manager does not get past `dirlock.Acquire`.  The
  process may die between any two operations of a call, which leaves the files as they
  are and gives the directory back.  `Setting` says which operations may fail, in
  `Open` and in the other methods, and which manifests are staged.
-/
import TosAi.Foundation.Contents
import TosAi.SoftwareUpdate.Program

set_option autoImplicit false

namespace TosAi.SoftwareUpdate

open Foundation

/-! ## The meaning of the operations -/

/-- The root and who owns it. -/
structure Site where
  fs : Fs FileName
  owner : Option Nat

/-- Manager `m` has given the root back. -/
def Site.vacate (m : Nat) (s : Site) : Site :=
  { s with owner := if s.owner = some m then none else s.owner }

/-- `apply m o s answer s'`: manager `m` performs `o`.  Releasing the directory closes
its descriptor even where it reports an error. -/
def Op.apply (m : Nat) : (o : Op) → Site → o.Res → Site → Prop
  | .file o, s, answer, s' => ∃ fs', o.apply m s.fs answer fs' ∧ s' = { s with fs := fs' }
  | .syncDirectory d, s, answer, s' =>
    (answer = true ∧ s' = { s with fs := s.fs.syncNames fun n => n.directory == d }) ∨
      (answer = false ∧ s' = s)
  | .acquireDirectory, s, answer, s' =>
    (answer = true ∧ s.owner = none ∧ s' = { s with owner := some m }) ∨
      (answer = false ∧ s' = s)
  | .releaseDirectory, s, _, s' => s' = s.vacate m
  | .makeDirectory _, s, _, s' | .privateDirectory _, s, _, s' | .openDirectory _, s, _, s'
  | .contextErr, s, _, s' => s' = s

/-- The operation does not fail for a reason of its own.  The context is the caller's, and
no method asks for a fresh name. -/
def Op.healthy : (o : Op) → Site → o.Res → Prop
  | .file (.createTemp _), _, _ => True
  | .file o, s, answer => o.healthy s.fs answer
  | .acquireDirectory, s, answer => answer = s.owner.isNone
  | .contextErr, _, _ => True
  | .makeDirectory _, _, answer | .privateDirectory _, _, answer | .openDirectory _, _, answer
  | .syncDirectory _, _, answer | .releaseDirectory, _, answer => answer = true

/-- The answers that operations may give. -/
abbrev Faults := (o : Op) → Site → o.Res → Prop

/-- How the operations of manager `m` may turn out. -/
def behave (F : Faults) (m : Nat) (o : Op) (s : Site) (answer : o.Res) (s' : Site) : Prop :=
  o.apply m s answer s' ∧ F o s answer

/-- An operation that does not fail, as a function. -/
def Op.run (m : Nat) : (o : Op) → Site → o.Res × Site
  | .file o, s => ((o.run m s.fs).1, { s with fs := (o.run m s.fs).2 })
  | .syncDirectory d, s => (true, { s with fs := s.fs.syncNames fun n => n.directory == d })
  | .acquireDirectory, s =>
    if s.owner = none then (true, { s with owner := some m }) else (false, s)
  | .releaseDirectory, s => (true, s.vacate m)
  | .contextErr, s => (false, s)
  | .makeDirectory _, s | .privateDirectory _, s | .openDirectory _, s => (true, s)

theorem behave_run (m : Nat) (o : Op) (s : Site) :
    behave Op.healthy m o s (o.run m s).1 (o.run m s).2 := by
  cases o with
  | file o =>
    refine ⟨⟨_, o.apply_run s.fs, rfl⟩, ?_⟩
    have hhealthy := fun h => FsOp.healthy_run (c := m) (o := o) h s.fs
    cases o with
    | createTemp kind => exact trivial
    | _ => exact hhealthy rfl
  | makeDirectory d | privateDirectory d | openDirectory d => exact ⟨rfl, rfl⟩
  | syncDirectory d => exact ⟨.inl ⟨rfl, rfl⟩, rfl⟩
  | acquireDirectory =>
    cases howner : s.owner with
    | none | some k => simp [behave, Op.apply, Op.healthy, Op.run, howner]
  | releaseDirectory => exact ⟨rfl, rfl⟩
  | contextErr => exact ⟨rfl, trivial⟩

/-! ## Runs -/

/-- The state that `state.json` holds; a new root has none. -/
def persisted (fs : Fs FileName) : State :=
  match fs.now (.plain .state) with
  | none => State.initial
  | some file => (decodeState file.data).getD State.initial

/-- What may happen in a run. -/
structure Setting where
  opening : Faults
  calling : Faults
  accepts : Manifest → Prop

/-- The manifest of the call, if there is one, is among those staged. -/
def Setting.admits (S : Setting) : Method → Prop
  | .stage request => S.accepts request.manifest
  | .activatePending | .confirmHealthy | .rollback => True

structure World where
  site : Site
  managers : Nat → Option Manager
  /-- The number of the next `Open`. -/
  next : Nat
  /-- The last `ActivatePending` that changed `state.json`: the number the next `Open` had
  then, and the slot it made active. -/
  activation : Option (Nat × SlotName)

namespace World

def init : World := ⟨⟨.empty, none⟩, fun _ => none, 0, none⟩

/-- The state on disk. -/
def disk (w : World) : State := persisted w.site.fs

/-- `activation` after a call. -/
def noted (w : World) (method : Method) (site : Site) : Option (Nat × SlotName) :=
  match method with
  | .activatePending =>
    if persisted site.fs = w.disk then w.activation
    else (persisted site.fs).active.map fun slot => (w.next, slot)
  | .stage _ | .confirmHealthy | .rollback => w.activation

/-- `Open` has returned. -/
def opened (w : World) (site : Site) (value : Except Err State) : World :=
  { w with
    site
    managers := Function.update w.managers w.next
      (match value with
        | .ok s => some ⟨s, false, none⟩
        | .error _ => none)
    next := w.next + 1 }

/-- The process died in `Open`. -/
def openDied (w : World) (site : Site) : World :=
  { w with site := site.vacate w.next, next := w.next + 1 }

/-- A method has returned. -/
def called (w : World) (n : Nat) (m : Manager) (method : Method) (site : Site)
    (value : Except Err State) : World :=
  { w with
    site
    managers := Function.update w.managers n (some (m.after value))
    activation := w.noted method site }

/-- The process died in a method. -/
def callDied (w : World) (n : Nat) (method : Method) (site : Site) : World :=
  { w with
    site := site.vacate n
    managers := Function.update w.managers n none
    activation := w.noted method site }

end World

/-- What a step is. -/
inductive Label where
  | opened (ok : Bool)
  | openDied
  | called (n : Nat) (method : Method) (ok : Bool)
  | callDied (n : Nat) (method : Method)
  | closed (n : Nat)
  | died (n : Nat)

section Steps

variable (K : Crypto) (cfg : Config) (S : Setting)

inductive Step : World → Label → World → Prop where
  | opened {w : World} {site : Site} {value : Except Err State}
      (hsteps : Prog.Steps (behave S.opening w.next) (openManager K cfg).run w.site (.ret value)
        site) : Step w (.opened value.isOk) (w.opened site value)
  | openDied {w : World} {site : Site} {rest : Prog Op Op.Res (Except Err State)}
      (hsteps : Prog.Steps (behave S.opening w.next) (openManager K cfg).run w.site rest site) :
      Step w .openDied (w.openDied site)
  | called {w : World} {n : Nat} {m : Manager} {method : Method} {site : Site}
      {value : Except Err State} (hmanager : w.managers n = some m) (hadmits : S.admits method)
      (hsteps : Prog.Steps (behave S.calling n) (method.body K cfg m).run w.site (.ret value)
        site) : Step w (.called n method value.isOk) (w.called n m method site value)
  | callDied {w : World} {n : Nat} {m : Manager} {method : Method} {site : Site}
      {rest : Prog Op Op.Res (Except Err State)} (hmanager : w.managers n = some m)
      (hadmits : S.admits method)
      (hsteps : Prog.Steps (behave S.calling n) (method.body K cfg m).run w.site rest site) :
      Step w (.callDied n method) (w.callDied n method site)
  | closed {w : World} {n : Nat} {m m' : Manager} {site : Site}
      (hmanager : w.managers n = some m)
      (hsteps : Prog.Steps (behave S.calling n) (closeManager m).run w.site (.ret (.ok m'))
        site) :
      Step w (.closed n) { w with site, managers := Function.update w.managers n (some m') }
  | died {w : World} (n : Nat) :
      Step w (.died n)
        { w with site := w.site.vacate n, managers := Function.update w.managers n none }

/-- Steps one after another, all of whose labels satisfy `A`. -/
inductive Run (A : World → Label → World → Prop) : World → World → Prop where
  | refl (w : World) : Run A w w
  | tail {w w' w'' : World} {label : Label} (hrun : Run A w w')
      (hstep : Step K cfg S w' label w'') (hA : A w' label w'') : Run A w w''

/-- A run of any steps. -/
abbrev Reach : World → World → Prop := Run K cfg S fun _ _ _ => True

end Steps

end TosAi.SoftwareUpdate
