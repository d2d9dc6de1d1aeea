/-
  Stores on one directory: calls one after another, each of which may be cut off.

  A call of a store holds `store.mu`, and a second store does not get past
  `dirlock.Acquire`, so calls do not overlap here.  The process may die between any two
  operations of a call.  That leaves the files as they are and gives the directory back, and
  the store has to be opened again.  A power loss also undoes what has not reached the disk;
  it is a step only where all the challenge records have.
-/
import TosAi.Foundation.Contents
import TosAi.PrivateIngress.Program

set_option autoImplicit false

namespace TosAi.PrivateIngress

open Foundation
open Foundation.Json (Bytes)

/-! ## The meaning of the operations -/

/-- The directory and the store on it. -/
structure Site where
  fs : Fs FileName
  /-- The directory lock is held. -/
  owned : Bool
  /-- `store.lock != nil` -/
  lock : Bool
  key : Bytes
  /-- The key has been overwritten. -/
  zeroed : Bool
  /-- The call that holds `store.mu`. -/
  mu : Option Nat

/-- There is no store. -/
def Site.dead (fs : Fs FileName) : Site := ⟨fs, false, false, [], false, none⟩

/-- The lock file exists. -/
def touchLock (c : Nat) (fs : Fs FileName) : Fs FileName :=
  if fs.now .lock = none then fs.modify .lock (Slot.create c 0o600) else fs

section Operations

variable (P : Protocol)

/-- `apply c o s answer s'`: call `c` performs `o`.  A private key has 32 bytes. -/
def Op.apply (c : Nat) : (o : Op) → Site → o.Res P → Site → Prop
  | .file o, s, answer, s' => ∃ fs', o.apply c s.fs answer fs' ∧ s' = { s with fs := fs' }
  | .unlink n, s, answer, s' =>
    ((s.fs.now n).isSome ∧ answer = .ok () ∧ s' = { s with fs := s.fs.modify n Slot.unlink }) ∨
    (s.fs.now n = none ∧ answer = .error .notExist ∧ s' = s) ∨
    (answer = .error .io ∧ s' = s)
  | .acquireDirectory, s, answer, s' =>
    (answer = true ∧ s.owned = false ∧
      s' = { s with owned := true, fs := touchLock c s.fs }) ∨
    (answer = false ∧ s' = s)
  | .releaseDirectory, s, _, s' => s' = { s with owned := false }
  | .makeStore key, s, _, s' => s' = { s with lock := true, key, zeroed := false, mu := none }
  | .lockHeld, s, answer, s' => answer = s.lock ∧ s' = s
  | .clearLock, s, _, s' => s' = { s with lock := false }
  | .lockMutex, s, _, s' => s.mu = none ∧ s' = { s with mu := some c }
  | .unlockMutex, s, _, s' => s' = { s with mu := none }
  | .signingKey, s, answer, s' => answer = s.key ∧ s' = s
  | .zeroKey, s, _, s' => s' = { s with key := s.key.map fun _ => 0, zeroed := true }
  | .generateKey, s, answer, s' => (∀ keys, answer = some keys → keys.1.length = 32) ∧ s' = s
  | .makeDirectory, s, _, s' | .privateDirectory, s, _, s' | .openDirectory, s, _, s'
  | .closeDirectory, s, _, s' | .circumstances, s, _, s' | .random, s, _, s' => s' = s

/-- The operation does not fail for a reason of its own.  Random names do not repeat; the
clock and the authorities are not the store's. -/
def Op.healthy : (o : Op) → Site → o.Res P → Prop
  | .file (.createTemp _), _, _ => True
  | .file o, s, answer => o.healthy s.fs answer
  | .unlink _, _, answer => answer ≠ .error .io
  | .acquireDirectory, s, answer => answer = !s.owned
  | .generateKey, _, answer => answer.isSome
  | .random, s, answer =>
    ∃ random, answer = some random ∧ ∀ hex, s.fs.now (.temporary hex random) = none
  | .makeDirectory, _, answer | .privateDirectory, _, answer | .openDirectory, _, answer
  | .closeDirectory, _, answer | .releaseDirectory, _, answer => answer = true
  | .makeStore _, _, _ | .lockHeld, _, _ | .clearLock, _, _ | .lockMutex, _, _
  | .unlockMutex, _, _ | .signingKey, _, _ | .zeroKey, _, _ | .circumstances, _, _ => True

/-- The answers that operations may give. -/
abbrev Faults := (o : Op) → Site → o.Res P → Prop

end Operations

/-- How the operations of call `c` may turn out. -/
def behave {P : Protocol} (F : Faults P) (c : Nat) (o : Op) (s : Site) (answer : o.Res P)
    (s' : Site) : Prop :=
  o.apply P c s answer s' ∧ F o s answer

/-! ## Runs -/

structure World (P : Protocol) where
  site : Site
  /-- The calls that have returned a value, the last one first. -/
  history : List (Method × Outcome P)

namespace World

variable {P : Protocol}

def init : World P := ⟨.dead .empty, []⟩

/-- A call has returned. -/
def called (w : World P) (site : Site) (method : Method) (value : Except Err (Outcome P)) :
    World P where
  site := site
  history :=
    match value with
    | .ok outcome => (method, outcome) :: w.history
    | .error _ => w.history

/-- The process has died. -/
def died (w : World P) (site : Site) : World P := { w with site := .dead site.fs }

end World

/-- What a step is. -/
inductive Label (P : Protocol) where
  | opened
  | openDied
  | called (method : Method) (value : Except Err (Outcome P))
  | died (method : Method)
  | powerLoss

/-- The challenge records have all reached the disk. -/
def Durable (fs : Fs FileName) : Prop :=
  ∀ hex, fs.outcomes (.challenge hex) = [fs.now (.challenge hex)]

section Steps

variable (P : Protocol) (cfg : Config) (F : Faults P)

inductive Step : World P → Label P → World P → Prop where
  | opened {w : World P} {c : Nat} {site : Site} {value : Except Err Unit}
      (hclosed : w.site.owned = false)
      (hsteps : Prog.Steps (behave F c) (openStore P cfg).run w.site (.ret value) site) :
      Step w .opened { w with site }
  | openDied {w : World P} {c : Nat} {site : Site}
      {rest : Prog Op (Op.Res P) (Except Err Unit)} (hclosed : w.site.owned = false)
      (hsteps : Prog.Steps (behave F c) (openStore P cfg).run w.site rest site) :
      Step w .openDied (w.died site)
  | called {w : World P} {c : Nat} {method : Method} {site : Site}
      {value : Except Err (Outcome P)}
      (hsteps : Prog.Steps (behave F c) (method.body P cfg).run w.site (.ret value) site) :
      Step w (.called method value) (w.called site method value)
  | died {w : World P} {c : Nat} {method : Method} {site : Site}
      {rest : Prog Op (Op.Res P) (Except Err (Outcome P))}
      (hsteps : Prog.Steps (behave F c) (method.body P cfg).run w.site rest site) :
      Step w (.died method) (w.died site)
  | powerLoss {w : World P} {found : FileName → Option File}
      (hfound : ∀ n, found n ∈ w.site.fs.outcomes n) (hdurable : Durable w.site.fs) :
      Step w .powerLoss { w with site := .dead (w.site.fs.reboot found hfound) }

/-- Steps one after another, all of which satisfy `A`. -/
inductive Run (A : World P → Label P → World P → Prop) : World P → World P → Prop where
  | refl (w : World P) : Run A w w
  | tail {w w' w'' : World P} {label : Label P} (hrun : Run A w w')
      (hstep : Step P cfg F w' label w'') (hA : A w' label w'') : Run A w w''

end Steps

/-! ## Computing a run -/

/-- What the operations that choose something answer. -/
structure Given (P : Protocol) where
  seen : Option (Circumstances P)
  privateKey : Bytes
  publicKey : Bytes
  length_privateKey : privateKey.length = 32

/-- The random part of a name. -/
def FileName.random : FileName → String
  | .temporary _ random => random
  | .challenge _ | .object _ | .lock => ""

/-- A text longer than the random parts of all the names. -/
def freshRandom (fs : Fs FileName) : String :=
  String.ofList (List.replicate ((fs.names.map fun n => n.random.toList.length).sum + 1) 'r')

theorem freshRandom_fresh (fs : Fs FileName) (hex : String) :
    fs.now (.temporary hex (freshRandom fs)) = none := by
  by_contra hsome
  have hmem : FileName.temporary hex (freshRandom fs) ∈ fs.listing :=
    Fs.mem_listing.mpr (Option.isSome_iff_ne_none.mpr hsome)
  have hname := List.mem_map_of_mem (f := fun n : FileName => n.random.toList.length)
    (List.mem_of_mem_filter hmem)
  have hle := List.le_sum_of_mem hname
  simp only [FileName.random, freshRandom, String.toList_ofList, List.length_replicate] at hle
  omega

section Choose

variable {P : Protocol} (G : Given P)

/-- An operation that does not fail, as a function, if there is an answer. -/
def Op.choose (c : Nat) : (o : Op) → Site → Option (o.Res P × Site)
  | .file o, s => some ((o.run c s.fs).1, { s with fs := (o.run c s.fs).2 })
  | .unlink n, s =>
    some (if (s.fs.now n).isSome then (.ok (), { s with fs := s.fs.modify n Slot.unlink })
      else (.error .notExist, s))
  | .acquireDirectory, s =>
    some (if s.owned then (false, s)
      else (true, { s with owned := true, fs := touchLock c s.fs }))
  | .releaseDirectory, s => some (true, { s with owned := false })
  | .makeStore key, s => some ((), { s with lock := true, key, zeroed := false, mu := none })
  | .lockHeld, s => some (s.lock, s)
  | .clearLock, s => some ((), { s with lock := false })
  | .lockMutex, s => if s.mu = none then some ((), { s with mu := some c }) else none
  | .unlockMutex, s => some ((), { s with mu := none })
  | .signingKey, s => some (s.key, s)
  | .zeroKey, s => some ((), { s with key := s.key.map fun _ => 0, zeroed := true })
  | .generateKey, s => some (some (G.privateKey, G.publicKey), s)
  | .random, s => some (some (freshRandom s.fs), s)
  | .circumstances, s => G.seen.map fun seen => (seen, s)
  | .makeDirectory, s | .privateDirectory, s | .openDirectory, s | .closeDirectory, s =>
    some (true, s)

theorem behave_choose {c : Nat} {o : Op} {s : Site} {r : o.Res P × Site}
    (h : o.choose G c s = some r) : behave (Op.healthy P) c o s r.1 r.2 := by
  cases o with
  | file o =>
    obtain rfl := Option.some.inj h
    refine ⟨⟨_, o.apply_run s.fs, rfl⟩, ?_⟩
    have hhealthy := fun h => FsOp.healthy_run (c := c) (o := o) h s.fs
    cases o with
    | createTemp kind => exact trivial
    | _ => exact hhealthy rfl
  | unlink n =>
    obtain rfl := Option.some.inj h
    cases hnow : s.fs.now n with
    | none | some f => simp [behave, Op.apply, Op.healthy, hnow]
  | acquireDirectory =>
    obtain rfl := Option.some.inj h
    cases howned : s.owned with
    | true | false => simp [behave, Op.apply, Op.healthy, howned]
  | lockMutex =>
    simp only [Op.choose, Option.ite_none_right_eq_some, Option.some.injEq] at h
    obtain ⟨hfree, rfl⟩ := h
    exact ⟨⟨hfree, rfl⟩, trivial⟩
  | generateKey =>
    obtain rfl := Option.some.inj h
    refine ⟨⟨?_, rfl⟩, rfl⟩
    intro keys hkeys
    obtain rfl := Option.some.inj hkeys
    exact G.length_privateKey
  | random =>
    obtain rfl := Option.some.inj h
    exact ⟨rfl, _, rfl, freshRandom_fresh s.fs⟩
  | releaseDirectory | makeDirectory | privateDirectory | openDirectory | closeDirectory =>
    obtain rfl := Option.some.inj h
    exact ⟨rfl, rfl⟩
  | lockHeld | signingKey =>
    obtain rfl := Option.some.inj h
    exact ⟨⟨rfl, rfl⟩, trivial⟩
  | makeStore key | clearLock | unlockMutex | zeroKey =>
    obtain rfl := Option.some.inj h
    exact ⟨rfl, trivial⟩
  | circumstances =>
    simp only [Op.choose, Option.map_eq_some_iff] at h
    obtain ⟨seen, -, rfl⟩ := h
    exact ⟨rfl, trivial⟩

end Choose

end TosAi.PrivateIngress
