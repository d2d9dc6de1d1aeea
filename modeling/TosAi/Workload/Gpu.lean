/-
  `gpuisolation.Client` in front of a containerd backend.

  A call is at a place of the client and, once it has called the backend, at one of the
  backend; every step of the pair is a step of the backend or leaves it alone, so what holds
  of every run of a backend holds here.  Calls that go to the backend directly may run beside
  those of the client, as long as they bring no devices.
-/
import TosAi.Workload.Containerd
import TosAi.Workload.Lease

set_option autoImplicit false

namespace TosAi.Workload.Gpu

open Foundation
open Foundation.Json (Bytes)
open SoftwareWork (Err ContainerRequest RunResult digestPattern)

/-! ## The state -/

structure State where
  backend : Containerd.State
  leased : Leases

def State.init : State := ⟨.init, []⟩

/-- The places of the client. -/
inductive Stand where
  | idle
  /-- `RunIsolated` -/
  | call (request : ContainerRequest) (input : Bytes)
  /-- in `backend.RunIsolatedOnDevices`, with these devices acquired -/
  | inside (owner : String) (taken : List String)
  /-- the deferred `release` is next -/
  | releasing (owner : String) (taken : List String) (answer : Except Err RunResult)
  | returned (answer : Except Err RunResult)
  /-- a call of the backend by someone else -/
  | direct

/-- The place of a call in the client, and in the backend. -/
structure Place where
  client : Stand
  backend : Containerd.Place

/-- What `RunIsolated` makes of the backend's answer. -/
def clientAnswer (cancelled : Bool) : Except Err RunResult → Except Err RunResult
  | .error _ => .error (.text "GPU isolation backend failed")
  | .ok result => if cancelled then .error .context else .ok result

/-- One step of a call. -/
inductive Moves (B : Containerd.Setup) (devices : List String) (c : Nat) (s : State) :
    Place → State → Place → Prop where
  | called {request : ContainerRequest} {input : Bytes} :
      Moves B devices c s ⟨.idle, .idle⟩ s ⟨.call request input, .idle⟩
  | callInvalid {request : ContainerRequest} {input : Bytes}
      (hdigest : digestPattern request.executionDigest = false) :
      Moves B devices c s ⟨.call request input, .idle⟩ s
        ⟨.returned (.error (.text "invalid GPU isolation request")), .idle⟩
  | callCancelled {request : ContainerRequest} {input : Bytes} :
      Moves B devices c s ⟨.call request input, .idle⟩ s ⟨.returned (.error .context), .idle⟩
  | callInconsistent {request : ContainerRequest} {input : Bytes}
      (hcount : request.allowGPU ≠ decide (0 < request.limits.gpuDeviceCount.toNat)) :
      Moves B devices c s ⟨.call request input, .idle⟩ s
        ⟨.returned (.error (.text "GPU isolation request is inconsistent")), .idle⟩
  | callRefused {request : ContainerRequest} {input : Bytes} {err : Err}
      (hacquire : acquire devices s.leased request.executionDigest
        request.limits.gpuDeviceCount.toNat = .error err) :
      Moves B devices c s ⟨.call request input, .idle⟩ s ⟨.returned (.error err), .idle⟩
  | acquired {request : ContainerRequest} {input : Bytes} {taken : List String}
      {leased : Leases} (hdigest : digestPattern request.executionDigest = true)
      (hcount : request.allowGPU = decide (0 < request.limits.gpuDeviceCount.toNat))
      (hacquire : acquire devices s.leased request.executionDigest
        request.limits.gpuDeviceCount.toNat = .ok (taken, leased)) :
      Moves B devices c s ⟨.call request input, .idle⟩ { s with leased := leased }
        ⟨.inside request.executionDigest taken, .onDevices request input taken⟩
  | backendMoves {owner : String} {taken : List String} {p q : Containerd.Place}
      {b : Containerd.State} (hbegun : p ≠ .idle) (hmoves : Containerd.Moves B c s.backend p b q) :
      Moves B devices c s ⟨.inside owner taken, p⟩ { s with backend := b } ⟨.inside owner taken, q⟩
  | backendReturned {owner : String} {taken : List String}
      {answer : Except Err RunResult} (cancelled : Bool) :
      Moves B devices c s ⟨.inside owner taken, .returned (.run answer)⟩ s
        ⟨.releasing owner taken (clientAnswer cancelled answer), .returned (.run answer)⟩
  | released {owner : String} {taken : List String}
      {answer : Except Err RunResult} {p : Containerd.Place} :
      Moves B devices c s ⟨.releasing owner taken answer, p⟩
        { s with leased := release owner taken s.leased } ⟨.returned answer, p⟩
  | directCalled {p : Containerd.Place} {b : Containerd.State}
      (hdevices : ∀ request input aliases, p ≠ .onDevices request input aliases)
      (hmoves : Containerd.Moves B c s.backend .idle b p) :
      Moves B devices c s ⟨.idle, .idle⟩ { s with backend := b } ⟨.direct, p⟩
  | directMoves {p q : Containerd.Place} {b : Containerd.State}
      (hbegun : p ≠ .idle) (hmoves : Containerd.Moves B c s.backend p b q) :
      Moves B devices c s ⟨.direct, p⟩ { s with backend := b } ⟨.direct, q⟩

/-- No call has been made. -/
def start : Pool State Place := ⟨.init, fun _ => ⟨.idle, .idle⟩⟩

/-! ## What a call holds -/

namespace Stand

/-- The aliases that the call has acquired and not released. -/
def aliases : Stand → List String
  | .inside _ taken | .releasing _ taken _ => taken
  | _ => []

/-- The execution that they are leased to. -/
def owner : Stand → Option String
  | .inside owner _ | .releasing owner _ _ => some owner
  | _ => none

/-- The call has not begun or has returned. -/
def Settled : Stand → Prop
  | .idle | .returned _ | .direct => True
  | _ => False

end Stand

/-- What the devices of a call are at its place in the backend. -/
def Assigned (B : Containerd.Setup) (taken : List String) : Containerd.Place → Prop
  | .idle => False
  | .onDevices _ _ aliases => aliases = taken
  | .run _ _ devices =>
    List.Forall₂ (fun name device => B.gpuDevices.get? name = some device) taken devices
  | .registered request _ devices | .running request _ devices =>
    List.Forall₂ (fun name device => B.gpuDevices.get? name = some device) taken devices ∧
      devices.length = request.limits.gpuDeviceCount.toNat
  | _ => True

/-- What holds of a call at its place. -/
def Sound (B : Containerd.Setup) (p : Place) : Prop :=
  match p.client with
  | .inside _ taken => taken.Nodup ∧ Assigned B taken p.backend
  | .releasing _ taken _ => taken.Nodup ∧ ¬p.backend.Running
  | .direct => Assigned B [] p.backend
  | _ => ¬p.backend.Running

structure Inv (B : Containerd.Setup) (devices : List String) (x : Pool State Place) : Prop where
  table : Tabled devices x.shared.leased
  leases : Pool.Owned (fun p name => name ∈ p.client.aliases) (· ∈ x.shared.leased.map Prod.fst) x
  owners : ∀ c name owner, name ∈ (x.place c).client.aliases →
    (x.place c).client.owner = some owner → (name, owner) ∈ x.shared.leased
  exclusive : ∀ c d, (x.place c).client.aliases ≠ [] → (x.place d).client.aliases ≠ [] →
    (x.place c).client.owner = (x.place d).client.owner → c = d
  sound : ∀ c, Sound B (x.place c)

variable {B : Containerd.Setup} {devices : List String}

theorem tabled_init : Tabled devices State.init.leased :=
  ⟨List.nodup_nil, fun _ hname => nomatch hname⟩

theorem inv_start : Inv B devices start where
  table := tabled_init
  leases := by
    constructor
    · exact fun name => iff_of_false List.not_mem_nil (by rintro ⟨_, h⟩; cases h)
    · intro _ _ _ h
      cases h
  owners := by
    intro _ _ _ h
    cases h
  exclusive := fun _ _ hne => absurd rfl hne
  sound := fun _ h => h

/-- The backend keeps to the devices it was given. -/
theorem Assigned.moves {c : Nat} {s s' : Containerd.State} {p q : Containerd.Place}
    {taken : List String}
    (h : Assigned B taken p) (hmoves : Containerd.Moves B c s p s' q) : Assigned B taken q := by
  cases hmoves with
  | runCalled | devicesCalled | checkCalled | closeCalled => exact h.elim
  | devicesAssigned hassign =>
    obtain rfl := h
    exact (assignDevices_ok hassign).2.2.2
  | runRegistered hvalid hregister => exact ⟨h, (validateRequest_ok hvalid).2.2⟩
  | engineCalled => exact h
  | _ => trivial

section Moves

variable {x : Pool State Place} {c : Nat} {s' : State} {p' : Place}

/-- What a step does to the leases: nothing, or the call acquires or releases its own. -/
theorem Moves.leases {s : State} {p : Place} (h : Moves B devices c s p s' p') :
    (s'.leased = s.leased ∧ p'.client.aliases = p.client.aliases ∧
      (p'.client.aliases ≠ [] → p'.client.owner = p.client.owner)) ∨
    (∃ owner taken count, p.client.aliases = [] ∧ p'.client = .inside owner taken ∧
      acquire devices s.leased owner count = .ok (taken, s'.leased)) ∨
    ∃ owner taken, p.client.aliases = taken ∧ p.client.owner = some owner ∧ p'.client.aliases = [] ∧
      s'.leased = release owner taken s.leased := by
  cases h with
  | acquired hdigest hcount hacquire => exact .inr (.inl ⟨_, _, _, rfl, rfl, hacquire⟩)
  | released => exact .inr (.inr ⟨_, _, rfl, rfl, rfl, rfl⟩)
  | backendMoves | backendReturned => exact .inl ⟨rfl, rfl, fun _ => rfl⟩
  | _ => exact .inl ⟨rfl, rfl, fun hne => absurd rfl hne⟩

/-- What is left when a call has released its own. -/
theorem Inv.release (hinv : Inv B devices x) {owner : String}
    (howner : (x.place c).client.owner = some owner) :
    Gpu.release owner (x.place c).client.aliases x.shared.leased =
      x.shared.leased.filter fun entry => entry.1 ∉ (x.place c).client.aliases := by
  have hnodup : (x.place c).client.aliases.Nodup := by
    have hsound := hinv.sound c
    unfold Sound at hsound
    cases hclient : (x.place c).client with
    | inside owner taken | releasing owner taken answer =>
      rw [hclient] at hsound
      exact hsound.1
    | _ => exact List.nodup_nil
  exact release_eq_filter hinv.table.nodup hnodup fun name hname =>
    hinv.owners c name owner hname howner

/-- Who owns a lease is in the table. -/
theorem Inv.mem_owners (hinv : Inv B devices x) {d : Nat} {owner : String}
    (hd : (x.place d).client.aliases ≠ []) (howner : (x.place d).client.owner = some owner) :
    owner ∈ x.shared.leased.map Prod.snd := by
  obtain ⟨name, hname⟩ := List.exists_mem_of_ne_nil _ hd
  exact List.mem_map_of_mem (f := Prod.snd) (hinv.owners d name owner hname howner)

variable (hdevices : devices.Nodup) (hinv : Inv B devices x)
  (h : Moves B devices c x.shared (x.place c) s' p')
include hdevices hinv h

theorem Inv.move_table : Tabled devices s'.leased := by
  have htable := hinv.table
  rcases h.leases with
    ⟨hsame, -⟩ | ⟨owner, taken, count, -, -, hacquire⟩ | ⟨owner, taken, rfl, howner, -, hrelease⟩
  · rw [hsame]
    exact htable
  · obtain ⟨hleased, -, hnodup, hfree, -⟩ := acquire_ok htable hdevices hacquire
    have hkeys : s'.leased.map Prod.fst = x.shared.leased.map Prod.fst ++ taken := by
      rw [hleased, List.map_append, List.map_map]
      simp [Function.comp_def]
    constructor
    · rw [hkeys, List.nodup_append]
      refine ⟨htable.nodup, hnodup, fun name hname other hother heq => ?_⟩
      exact (hfree other hother).2 (heq ▸ hname)
    · intro name hname
      rw [hkeys] at hname
      rcases List.mem_append.mp hname with hold | hnew
      · exact htable.subset name hold
      · exact (hfree name hnew).1
  · rw [hrelease, hinv.release howner]
    have hsublist : ((x.shared.leased.filter fun entry => entry.1 ∉ (x.place c).client.aliases).map
        Prod.fst).Sublist (x.shared.leased.map Prod.fst) := List.filter_sublist.map Prod.fst
    exact ⟨htable.nodup.sublist hsublist,
      fun name hname => htable.subset name (hsublist.subset hname)⟩

theorem Inv.move_leases :
    Pool.Owned (fun p name => name ∈ p.client.aliases) (· ∈ s'.leased.map Prod.fst)
      (x.move c s' p') := by
  have hleases := hinv.leases
  rcases h.leases with ⟨hsame, haliases, -⟩ | ⟨owner, taken, count, hnone, hclient, hacquire⟩ |
      ⟨owner, taken, rfl, howner, hnone, hrelease⟩
  · rw [hsame]
    refine hleases.stay fun name => ?_
    rw [haliases]
  · obtain ⟨hleased, -, -, hfree, -⟩ := acquire_ok hinv.table hdevices hacquire
    have haliases : p'.client.aliases = taken := by rw [hclient]; rfl
    apply hleases.move
    · intro name hname hthing
      rw [haliases] at hname
      exact absurd hthing (hfree name hname).2
    · intro name
      rw [haliases, hnone, hleased]
      simp [or_comm]
  · apply hleases.move
    · intro name hname
      rw [hnone] at hname
      cases hname
    · intro name
      rw [hrelease, hinv.release howner, hnone]
      simp only [List.mem_map, List.mem_filter, decide_eq_true_eq, Prod.exists, exists_and_right,
        exists_eq_right, List.not_mem_nil, false_or]

theorem Inv.move_owners (d : Nat) (name owner : String)
    (hname : name ∈ ((x.move c s' p').place d).client.aliases)
    (howner : ((x.move c s' p').place d).client.owner = some owner) :
    (name, owner) ∈ s'.leased := by
  refine Pool.forall_move (P := fun _ (q : Place) => ∀ name owner, name ∈ q.client.aliases →
    q.client.owner = some owner → (name, owner) ∈ s'.leased) ?_ ?_ d name owner hname howner <;>
    rcases h.leases with
      ⟨hsame, haliases, howners⟩ | ⟨by', taken, count, hnone, hclient, hacquire⟩ |
      ⟨by', taken, rfl, hby, hnone, hrelease⟩
  · intro name owner hname howner
    rw [hsame]
    rw [howners (List.ne_nil_of_mem hname)] at howner
    exact hinv.owners c name owner (haliases ▸ hname) howner
  · intro name owner hname howner
    rw [hclient] at hname howner
    obtain rfl := Option.some.inj howner
    rw [(acquire_ok hinv.table hdevices hacquire).1]
    exact List.mem_append_right _ (List.mem_map_of_mem hname)
  · intro name owner hname
    rw [hnone] at hname
    cases hname
  · intro e he name owner hname howner
    rw [hsame]
    exact hinv.owners e name owner hname howner
  · intro e he name owner hname howner
    rw [(acquire_ok hinv.table hdevices hacquire).1]
    exact List.mem_append_left _ (hinv.owners e name owner hname howner)
  · intro e he name owner hname howner
    rw [hrelease, hinv.release hby, List.mem_filter, decide_eq_true_eq]
    refine ⟨hinv.owners e name owner hname howner, fun hmine => he ?_⟩
    exact hinv.leases.unique name e c hname hmine

theorem Inv.move_exclusive (d e : Nat) (hd : ((x.move c s' p').place d).client.aliases ≠ [])
    (he : ((x.move c s' p').place e).client.aliases ≠ [])
    (hsame : ((x.move c s' p').place d).client.owner = ((x.move c s' p').place e).client.owner) :
    d = e := by
  -- another call has not the owner of the one that has moved
  have hother (e : Nat) (hec : e ≠ c) (hp : p'.client.aliases ≠ [])
      (he : (x.place e).client.aliases ≠ []) : p'.client.owner ≠ (x.place e).client.owner := by
    intro heq
    rcases h.leases with ⟨-, haliases, howners⟩ | ⟨owner, taken, count, hnone, hclient, hacquire⟩ |
        ⟨owner, taken, -, -, hnone, -⟩
    · rw [howners hp] at heq
      exact hec (hinv.exclusive c e (haliases ▸ hp) he heq).symm
    · rw [hclient] at hp heq
      exact (acquire_ok hinv.table hdevices hacquire).2.2.2.2 hp (hinv.mem_owners he heq.symm)
    · exact hp hnone
  by_cases hdc : d = c <;> by_cases hec : e = c
  · rw [hdc, hec]
  · subst hdc
    rw [Pool.place_move_self] at hd hsame
    rw [Pool.place_move_of_ne _ hec] at he hsame
    exact absurd hsame (hother e hec hd he)
  · subst hec
    rw [Pool.place_move_self] at he hsame
    rw [Pool.place_move_of_ne _ hdc] at hd hsame
    exact absurd hsame.symm (hother d hdc he hd)
  · rw [Pool.place_move_of_ne _ hdc] at hd hsame
    rw [Pool.place_move_of_ne _ hec] at he hsame
    exact hinv.exclusive d e hd he hsame

theorem Inv.move_sound (d : Nat) : Sound B ((x.move c s' p').place d) := by
  refine Pool.forall_move (P := fun _ (q : Place) => Sound B q) ?_ (fun e _ => hinv.sound e) d
  have hsound := hinv.sound c
  have htable := hinv.table
  generalize x.place c = p at h hsound
  cases h with
  | acquired hdigest hcount hacquire => exact ⟨(acquire_ok htable hdevices hacquire).2.2.1, rfl⟩
  | backendMoves hbegun hmoves => exact ⟨hsound.1, Assigned.moves hsound.2 hmoves⟩
  | backendReturned cancelled => exact ⟨hsound.1, id⟩
  | released => exact hsound.2
  | directCalled hnone hmoves =>
    cases hmoves with
    | runCalled => exact .nil
    | devicesCalled => exact absurd rfl (hnone _ _ _)
    | checkCalled | closeCalled => trivial
  | directMoves hbegun hmoves => exact Assigned.moves hsound hmoves
  | _ => exact id

theorem Inv.move : Inv B devices (x.move c s' p') where
  table := hinv.move_table hdevices h
  leases := hinv.move_leases hdevices h
  owners := hinv.move_owners hdevices h
  exclusive := hinv.move_exclusive hdevices h
  sound := hinv.move_sound hdevices h

end Moves

theorem inv_of_reaches (hdevices : devices.Nodup) {x : Pool State Place}
    (h : Pool.Reaches (Moves B devices) start x) : Inv B devices x :=
  h.invariant (fun _ _ _ _ hinv hmoves => hinv.move hdevices hmoves) inv_start

/-! ## The way to the engine -/

/-- What a call meets on its way: the aliases `taken`, the table with them, their devices
and the state of the backend with the run in it. -/
structure Ready (B : Containerd.Setup) (devices : List String) (c : Nat) (s : State)
    (request : ContainerRequest) (input : Bytes) (taken : List String) (leased : Leases)
    (held : List String) (after : Containerd.State) : Prop where
  acquire : acquire devices s.leased request.executionDigest request.limits.gpuDeviceCount.toNat =
    .ok (taken, leased)
  assign : assignDevices B.gpuDevices request taken = .ok held
  valid : validateRequest request input held.length = .ok ()
  register : s.backend.register B.maximum request.executionDigest c = .ok after

section Ready

variable {c : Nat} {s : State} {request : ContainerRequest} {input : Bytes}
  {taken held : List String} {leased : Leases} {after : Containerd.State}

/-- The client, the aliases, the section of the backend, the engine. -/
theorem Ready.alone (h : Ready B devices c s request input taken leased held after) :
    Pool.Alone (Moves B devices) c (s, ⟨.call request input, .idle⟩)
      (⟨after, leased⟩, ⟨.inside request.executionDigest taken, .running request input held⟩) := by
  obtain ⟨hdigest, hallow, hcount⟩ := validateRequest_ok h.valid
  rw [hcount] at hallow
  have hacquired : Moves B devices c s ⟨.call request input, .idle⟩ ⟨s.backend, leased⟩
      ⟨.inside request.executionDigest taken, .onDevices request input taken⟩ :=
    .acquired hdigest hallow h.acquire
  have hassigned : Moves B devices c ⟨s.backend, leased⟩
      ⟨.inside request.executionDigest taken, .onDevices request input taken⟩ ⟨s.backend, leased⟩
      ⟨.inside request.executionDigest taken, .run request input held⟩ :=
    .backendMoves (nomatch ·) (.devicesAssigned h.assign)
  have hregistered : Moves B devices c ⟨s.backend, leased⟩
      ⟨.inside request.executionDigest taken, .run request input held⟩ ⟨after, leased⟩
      ⟨.inside request.executionDigest taken, .registered request input held⟩ :=
    .backendMoves (nomatch ·) (.runRegistered h.valid h.register)
  have hrunning : Moves B devices c ⟨after, leased⟩
      ⟨.inside request.executionDigest taken, .registered request input held⟩ ⟨after, leased⟩
      ⟨.inside request.executionDigest taken, .running request input held⟩ :=
    .backendMoves (nomatch ·) .engineCalled
  refine Relation.ReflTransGen.head (b := (⟨s.backend, leased⟩, _)) hacquired ?_
  refine Relation.ReflTransGen.head (b := (⟨s.backend, leased⟩, _)) hassigned ?_
  refine Relation.ReflTransGen.head (b := (⟨after, leased⟩, _)) hregistered ?_
  exact Relation.ReflTransGen.single hrunning

/-- The call has found its context cancelled. -/
def Place.Cancelled (p : Place) : Prop :=
  p.client = .returned (.error .context) ∨ p.backend = .returned (.run (.error .context))

/-- It is in the engine, with as many devices of the operator. -/
def Place.InEngine (B : Containerd.Setup) (request : ContainerRequest) (input : Bytes) (count : Nat)
    (p : Place) : Prop :=
  ∃ taken held, p = ⟨.inside request.executionDigest taken, .running request input held⟩ ∧
    held.length = count ∧ ∀ device ∈ held, device ∈ B.gpuDevices.entries.map Prod.snd

/-- At each place there is one step that does not give up. -/
theorem Ready.inevitable (h : Ready B devices c s request input taken leased held after)
    {count : Nat} (hlength : held.length = count)
    (hheld : ∀ device ∈ held, device ∈ B.gpuDevices.entries.map Prod.snd) :
    Pool.Inevitable (Moves B devices) c Place.Cancelled (Place.InEngine B request input count) s
      ⟨.call request input, .idle⟩ := by
  obtain ⟨hdigest, hallow, hcount⟩ := validateRequest_ok h.valid
  rw [hcount] at hallow
  refine .next ⟨_, _, .acquired hdigest hallow h.acquire, fun h => h.elim nofun nofun⟩
    fun s₁ p₁ hmoves₁ hnot₁ => ?_
  cases hmoves₁ with
  | callInvalid hinvalid => exact absurd (hdigest.symm.trans hinvalid) (by decide)
  | callCancelled => exact absurd (.inl rfl) hnot₁
  | callInconsistent hcount => exact absurd hallow hcount
  | callRefused hrefused =>
    rw [h.acquire] at hrefused
    cases hrefused
  | acquired _ _ hacquire =>
    obtain ⟨rfl, rfl⟩ := Prod.mk.inj (Except.ok.inj (h.acquire.symm.trans hacquire))
    refine .next
      ⟨_, _, .backendMoves (nomatch ·) (.devicesAssigned h.assign), fun h => h.elim nofun nofun⟩
      fun s₂ p₂ hmoves₂ _ => ?_
    cases hmoves₂ with
    | backendMoves _ hmoves₂ =>
      cases hmoves₂ with
      | devicesRefused hrefused =>
        rw [h.assign] at hrefused
        cases hrefused
      | devicesAssigned hassign =>
        obtain rfl := Except.ok.inj (h.assign.symm.trans hassign)
        refine .next ⟨_, _, .backendMoves (nomatch ·) (.runRegistered h.valid h.register),
          fun h => h.elim nofun nofun⟩ fun s₃ p₃ hmoves₃ hnot₃ => ?_
        cases hmoves₃ with
        | backendMoves _ hmoves₃ =>
          cases hmoves₃ with
          | runCancelled => exact absurd (.inr rfl) hnot₃
          | runInvalid hinvalid =>
            rw [h.valid] at hinvalid
            cases hinvalid
          | runRefused _ hrefused =>
            rw [h.register] at hrefused
            cases hrefused
          | runRegistered _ hregister =>
            refine .next
              ⟨_, _, .backendMoves (nomatch ·) .engineCalled, fun h => h.elim nofun nofun⟩
              fun s₄ p₄ hmoves₄ _ => ?_
            cases hmoves₄ with
            | backendMoves _ hmoves₄ =>
              cases hmoves₄ with
              | engineCalled => exact .here ⟨taken, held, rfl, hlength, hheld⟩

end Ready

/-! ## Exclusive devices -/

variable {request : ContainerRequest} {input : Bytes}

/-- A run in the engine has the devices that its call has leased. -/
theorem Inv.assigned {x : Pool State Place} (hinv : Inv B devices x) {c : Nat} {held : List String}
    (hc : (x.place c).backend = .running request input held) :
    (x.place c).client.aliases.Nodup ∧
      List.Forall₂ (fun name device => B.gpuDevices.get? name = some device)
        (x.place c).client.aliases held ∧
      held.length = request.limits.gpuDeviceCount.toNat := by
  have hsound := hinv.sound c
  rw [Sound, hc] at hsound
  cases hclient : (x.place c).client with
  | inside owner taken =>
    rw [hclient] at hsound
    exact ⟨hsound.1, hsound.2⟩
  | direct =>
    rw [hclient] at hsound
    exact ⟨List.nodup_nil, hsound⟩
  | releasing owner taken answer =>
    rw [hclient] at hsound
    exact absurd trivial hsound.2
  | _ =>
    rw [hclient] at hsound
    exact absurd trivial hsound

theorem exists_of_forall₂ {α β : Type} {R : α → β → Prop} {as : List α} {bs : List β}
    (h : List.Forall₂ R as bs) {b : β} (hb : b ∈ bs) : ∃ a ∈ as, R a b := by
  induction h with
  | nil => cases hb
  | @cons a b' as bs hab hrest ih =>
    rcases List.mem_cons.mp hb with rfl | hb
    · exact ⟨a, List.mem_cons_self .., hab⟩
    · obtain ⟨a', ha', hR⟩ := ih hb
      exact ⟨a', List.mem_cons_of_mem _ ha', hR⟩

/-- Different names have different values if no value has two names. -/
theorem nodup_of_forall₂ {α β : Type} {R : α → β → Prop}
    (hinjective : ∀ a a' b, R a b → R a' b → a = a')
    {as : List α} {bs : List β} (h : List.Forall₂ R as bs) (has : as.Nodup) : bs.Nodup := by
  induction h with
  | nil => exact List.nodup_nil
  | @cons a b as bs hab hrest ih =>
    obtain ⟨ha, has⟩ := List.nodup_cons.mp has
    refine List.nodup_cons.mpr ⟨fun hb => ?_, ih has⟩
    obtain ⟨a', ha', hR⟩ := exists_of_forall₂ hrest hb
    exact ha (hinjective a' a b hR hab ▸ ha')

/-- **Devices are exclusive**, in every interleaving of any number of calls. -/
theorem gpu_devices_exclusive (B : Containerd.Setup) (deviceName : String → Option String)
    (permitGPU : Bool) (maximum : UInt32)
    (hmap : validateGPUDeviceMap deviceName B.gpuDevices permitGPU maximum = .ok ())
    (aliases devices : List String) (hnew : newClient aliases = .ok devices) (x : Pool State Place)
    (hreach : Pool.Reaches (Moves B devices) start x) :
    -- runs in the engine have no device in common
    (∀ c d request input held request' input' held', c ≠ d →
      (x.place c).backend = .running request input held →
      (x.place d).backend = .running request' input' held' → held.Disjoint held') ∧
    -- each has as many different devices of the operator as it asked for
    (∀ c request input held, (x.place c).backend = .running request input held →
      held.length = request.limits.gpuDeviceCount.toNat ∧ held.Nodup ∧
      ∀ device ∈ held, device ∈ B.gpuDevices.entries.map Prod.snd) ∧
    -- what is leased is what a call has acquired and not released
    (∀ name owner, (name, owner) ∈ x.shared.leased ↔
      ∃ c, name ∈ (x.place c).client.aliases ∧ (x.place c).client.owner = some owner) ∧
    -- no execution has two leases
    (∀ c d, (x.place c).client.aliases ≠ [] → (x.place d).client.aliases ≠ [] →
      (x.place c).client.owner = (x.place d).client.owner → c = d) ∧
    -- and everything is available again once every call has returned
    ((∀ c, (x.place c).client.Settled) → available devices x.shared.leased = devices.length) := by
  have hinv : Inv B devices x := inv_of_reaches (newClient_nodup hnew).1 hreach
  refine ⟨?_, ?_, ?_, hinv.exclusive, ?_⟩
  · intro c d request input held request' input' held' hcd hc hd device hcdevice hddevice
    obtain ⟨-, hcassigned, -⟩ := hinv.assigned hc
    obtain ⟨-, hdassigned, -⟩ := hinv.assigned hd
    obtain ⟨name, hname, hget⟩ := exists_of_forall₂ hcassigned hcdevice
    obtain ⟨other, hother, hget'⟩ := exists_of_forall₂ hdassigned hddevice
    obtain rfl := get?_injective hmap hget hget'
    exact hcd (hinv.leases.unique name c d hname hother)
  · intro c request input held hc
    obtain ⟨hnodup, hassigned, hlength⟩ := hinv.assigned hc
    have hinjective (name other device : String) (hname : B.gpuDevices.get? name = some device)
        (hother : B.gpuDevices.get? other = some device) : name = other :=
          get?_injective hmap hname hother
    refine ⟨hlength, nodup_of_forall₂ hinjective hassigned hnodup, ?_⟩
    intro device hdevice
    obtain ⟨name, -, hget⟩ := exists_of_forall₂ hassigned hdevice
    exact List.mem_map_of_mem (f := Prod.snd) (mem_of_get? hget)
  · intro name owner
    constructor
    · intro hmem
      obtain ⟨c, hname⟩ := (hinv.leases.iff name).mp (List.mem_map_of_mem (f := Prod.fst) hmem)
      refine ⟨c, hname, ?_⟩
      -- the call has an owner, and the table has one owner for the alias
      cases howner : (x.place c).client.owner with
      | none =>
        cases hclient : (x.place c).client <;> rw [hclient] at hname howner <;>
          cases howner <;> cases hname
      | some other =>
        have hother := hinv.owners c name other hname howner
        have hsame := List.inj_on_of_nodup_map hinv.table.nodup hmem hother rfl
        rw [(Prod.mk.inj hsame).2]
    · rintro ⟨c, hname, howner⟩
      exact hinv.owners c name owner hname howner
  · intro hsettled
    have hempty : x.shared.leased = [] := by
      rw [List.eq_nil_iff_forall_not_mem]
      rintro ⟨name, owner⟩ hmem
      obtain ⟨c, hname⟩ := (hinv.leases.iff name).mp (List.mem_map_of_mem (f := Prod.fst) hmem)
      have hc := hsettled c
      generalize (x.place c).client = p at hname hc
      cases p with
      | inside | releasing | call => exact hc.elim
      | idle | returned | direct => cases hname
    rw [hempty, available]
    simp

/-- A map of two devices. -/
def sampleDevices : DeviceMap where
  entries := [("gpu-0", "vendor.com/gpu=0"), ("gpu-1", "vendor.com/gpu=1")]
  nodup := by decide

def sampleSetup : Containerd.Setup := ⟨2, sampleDevices⟩

/-- What `parser.ParseQualifiedName` makes of them. -/
def sampleDeviceName (device : String) : Option String :=
  [("vendor.com/gpu=0", "0"), ("vendor.com/gpu=1", "1")].lookup device

/-- A request for one device. -/
def sampleGpuRequest : ContainerRequest :=
  { sampleRequest with
    allowGPU := true
    limits := { sampleRequest.limits with gpuDeviceCount := 1 } }

/-- The same of another execution. -/
def otherGpuRequest : ContainerRequest :=
  { sampleGpuRequest with executionDigest := "sha256:" ++ String.ofList (List.replicate 64 '1') }

theorem newClient_sample : newClient ["gpu-0", "gpu-1"] = .ok ["gpu-0", "gpu-1"] := by
  have hsorted : sortBy id ["gpu-0", "gpu-1"] = ["gpu-0", "gpu-1"] :=
    List.mergeSort_of_pairwise (by decide)
  rw [newClient, hsorted]
  decide +kernel

/-- Two calls are in the engine, each on a device of its own. -/
theorem gpu_devices_exclusive_sample :
    ∃ (x : Pool State Place) (held held' : List String),
      Pool.Reaches (Moves sampleSetup ["gpu-0", "gpu-1"]) start x ∧
      (x.place 0).backend = .running sampleGpuRequest [] held ∧
      (x.place 1).backend = .running otherGpuRequest [] held' ∧ held.Disjoint held' ∧
      held.length = 1 ∧ held'.length = 1 := by
  have hmap : validateGPUDeviceMap sampleDeviceName sampleSetup.gpuDevices true 2 = .ok () := by
    decide +kernel
  let first : Containerd.State :=
    { Containerd.State.init with active := {(sampleGpuRequest.executionDigest, 0)}, runs := 1 }
  have hready : Ready sampleSetup ["gpu-0", "gpu-1"] 0 .init sampleGpuRequest [] ["gpu-0"]
      [("gpu-0", sampleGpuRequest.executionDigest)] ["vendor.com/gpu=0"] first :=
    ⟨by decide +kernel, by decide +kernel, by decide +kernel, rfl⟩
  have hcalled : Pool.Reaches (Moves sampleSetup ["gpu-0", "gpu-1"]) start
      (start.move 0 .init ⟨.call sampleGpuRequest [], .idle⟩) := Pool.Reaches.move .refl rfl .called
  have hrunning := hcalled.alone (c := 0) hready.alone
  have hfresh : otherGpuRequest.executionDigest ∉ first.active.image Prod.fst := by decide +kernel
  have hready' : Ready sampleSetup ["gpu-0", "gpu-1"] 1
      ⟨first, [("gpu-0", sampleGpuRequest.executionDigest)]⟩ otherGpuRequest [] ["gpu-1"]
      [("gpu-0", sampleGpuRequest.executionDigest), ("gpu-1", otherGpuRequest.executionDigest)]
      ["vendor.com/gpu=1"]
      { first with
        active := insert (otherGpuRequest.executionDigest, 1) first.active, runs := 2 } :=
    ⟨by decide +kernel, by decide +kernel, by decide +kernel,
      (if_neg Bool.false_ne_true).trans ((if_neg (by decide)).trans (if_neg hfresh))⟩
  have hboth := (hrunning.move (c := 1) rfl .called).alone (c := 1) hready'.alone
  have hexclusive :=
    gpu_devices_exclusive sampleSetup sampleDeviceName true 2 hmap _ _ newClient_sample _ hboth
  exact ⟨_, _, _, hboth, rfl, rfl, hexclusive.1 0 1 _ _ _ _ _ _ (by decide) rfl rfl,
    (hexclusive.2.1 0 _ _ _ rfl).1, (hexclusive.2.1 1 _ _ _ rfl).1⟩

/-! ## A client and its backend -/

/-- The call gets to the engine, with this many devices of the operator. -/
def RunsOn (B : Containerd.Setup) (devices : List String) (c : Nat) (s : State)
    (request : ContainerRequest) (input : Bytes) (count : Nat) : Prop :=
  ∃ s' taken held, Pool.Alone (Moves B devices) c (s, ⟨.call request input, .idle⟩)
      (s', ⟨.inside request.executionDigest taken, .running request input held⟩) ∧
    held.length = count ∧ ∀ device ∈ held, device ∈ B.gpuDevices.entries.map Prod.snd

/-- Where a call has come to that does not get to the engine. -/
def Stuck (s : State) (request : ContainerRequest) (input : Bytes) (s' : State) (p : Place) :
    Prop :=
  s' = s ∧ p = ⟨.call request input, .idle⟩ ∨
  p = ⟨.inside request.executionDigest [], .onDevices request input []⟩ ∨
  (p.backend = .idle ∧ ∃ answer, p.client = .returned answer) ∨
  ∃ answer, p.backend = .returned answer

/-- Without devices, or with an owner that has some, a call gets nowhere. -/
theorem stuck_of_alone {s s' : State} {c : Nat} {p : Place} (htable : Tabled devices s.leased)
    (hdevices : devices.Nodup)
    (hbad :
      ¬(0 < request.limits.gpuDeviceCount.toNat ∧ request.executionDigest ∉ s.leased.map Prod.snd))
    (h : Pool.Alone (Moves B devices) c (s, ⟨.call request input, .idle⟩) (s', p)) :
    Stuck s request input s' p := by
  refine h.invariant ?_ (.inl ⟨rfl, rfl⟩)
  rintro t q t' q' (⟨rfl, rfl⟩ | rfl | ⟨hidle, answer, hreturned⟩ | ⟨answer, hreturned⟩) hmoves
  · cases hmoves with
    | acquired hdigest hcount hacquire =>
      obtain ⟨-, hlength, -, -, howner⟩ := acquire_ok htable hdevices hacquire
      rename_i taken leased
      by_cases htaken : taken = []
      · subst htaken
        exact .inr (.inl rfl)
      · have hpos := List.length_pos_iff.mpr htaken
        exact absurd ⟨hlength ▸ hpos, howner htaken⟩ hbad
    | _ => exact .inr (.inr (.inl ⟨rfl, _, rfl⟩))
  · cases hmoves with
    | backendMoves hbegun hmoves =>
      cases hmoves with
      | devicesRefused hassign => exact .inr (.inr (.inr ⟨_, rfl⟩))
      | devicesAssigned hassign => exact absurd rfl (assignDevices_ok hassign).1
  · rcases q with ⟨client, backend⟩
    obtain rfl : client = .returned answer := hreturned
    obtain rfl : backend = .idle := hidle
    cases hmoves
  · rcases q with ⟨client, backend⟩
    obtain rfl : backend = .returned answer := hreturned
    cases hmoves with
    | backendMoves hbegun hmoves | directMoves hbegun hmoves => cases hmoves
    | backendReturned cancelled | released => exact .inr (.inr (.inr ⟨_, rfl⟩))

theorem exists_ready_of_free {s : State} {c : Nat} (htable : Tabled devices s.leased)
    (hdevices : devices.Nodup) (hknown : ∀ name ∈ devices, (B.gpuDevices.get? name).isSome = true)
    (hopen : s.backend.closed = false) (hspare : s.backend.active.card < B.maximum)
    (hinactive : request.executionDigest ∉ s.backend.active.image Prod.fst)
    (hvalid : validateRequest request input request.limits.gpuDeviceCount.toNat = .ok ())
    (hfree : (request.limits.gpuDeviceCount.toNat : Int) ≤ available devices s.leased)
    (hcount : 0 < request.limits.gpuDeviceCount.toNat)
    (howner : request.executionDigest ∉ s.leased.map Prod.snd) :
    ∃ taken leased held after, Ready B devices c s request input taken leased held after ∧
      held.length = request.limits.gpuDeviceCount.toNat ∧
      ∀ device ∈ held, device ∈ B.gpuDevices.entries.map Prod.snd := by
  obtain ⟨taken, leased, hacquire⟩ := acquire_of_free hfree howner
  obtain ⟨-, hlength, hnodup, htaken, -⟩ := acquire_ok htable hdevices hacquire
  have hnonempty : taken ≠ [] := List.length_pos_iff.mp (hlength ▸ hcount)
  obtain ⟨held, hresolve⟩ := resolveAliases_of_nodup hnodup
    (fun name hname => hknown name (htaken name hname).1)
    (fun name _ => List.not_mem_nil (a := name))
  have hassign : assignDevices B.gpuDevices request taken = .ok held := by
    refine require_bind_eq_ok.mpr ⟨?_, hresolve⟩
    rw [Bool.and_eq_true, Bool.not_eq_true', List.isEmpty_eq_false_iff, beq_iff_eq]
    exact ⟨hnonempty, hlength⟩
  have hmapped := (assignDevices_ok hassign).2.2.2
  have hheld : held.length = request.limits.gpuDeviceCount.toNat :=
    hmapped.length_eq.symm.trans hlength
  have hnot : ¬s.backend.closed = true := by
    rw [hopen]
    exact Bool.false_ne_true
  have hregister : s.backend.register B.maximum request.executionDigest c = .ok { s.backend with
      active := insert (request.executionDigest, c) s.backend.active,
      runs := s.backend.runs + 1 } := by
    rw [Containerd.State.register, if_neg hnot, if_neg (Nat.not_le.mpr hspare), if_neg hinactive]
  refine ⟨taken, leased, held, _, ⟨hacquire, hassign, hheld ▸ hvalid, hregister⟩, hheld, ?_⟩
  intro device hdevice
  obtain ⟨name, -, hget⟩ := exists_of_forall₂ hmapped hdevice
  exact List.mem_map_of_mem (f := Prod.snd) (mem_of_get? hget)

/-- **A client runs what its backend accepts** if and only if the request asks for devices and its
execution has none; then nothing but a cancelled context keeps the call from the engine. -/
theorem client_runs_iff (B : Containerd.Setup) (aliases devices : List String)
    (hnew : newClient aliases = .ok devices)
    (haliases : ∀ name ∈ aliases, (B.gpuDevices.get? name).isSome = true)
    (s : State) (htable : Tabled devices s.leased) (c : Nat) (request : ContainerRequest)
    (input : Bytes) (hopen : s.backend.closed = false)
    (hspare : s.backend.active.card < B.maximum)
    (hinactive : request.executionDigest ∉ s.backend.active.image Prod.fst)
    (hvalid : validateRequest request input request.limits.gpuDeviceCount.toNat = .ok ())
    (hfree : (request.limits.gpuDeviceCount.toNat : Int) ≤ available devices s.leased) :
    (RunsOn B devices c s request input request.limits.gpuDeviceCount.toNat ↔
      0 < request.limits.gpuDeviceCount.toNat ∧ request.executionDigest ∉ s.leased.map Prod.snd) ∧
    (0 < request.limits.gpuDeviceCount.toNat ∧ request.executionDigest ∉ s.leased.map Prod.snd →
      Pool.Inevitable (Moves B devices) c Place.Cancelled
        (Place.InEngine B request input request.limits.gpuDeviceCount.toNat) s
        ⟨.call request input, .idle⟩) := by
  obtain ⟨hdevices, hmem⟩ := newClient_nodup hnew
  have hready (hgood : 0 < request.limits.gpuDeviceCount.toNat ∧
      request.executionDigest ∉ s.leased.map Prod.snd) :=
    exists_ready_of_free (c := c) htable hdevices
      (fun name hname => haliases name ((hmem name).mp hname)) hopen hspare hinactive hvalid hfree
      hgood.1 hgood.2
  refine ⟨⟨?_, fun hgood => ?_⟩, fun hgood => ?_⟩
  · rintro ⟨s', taken, held, halone, -, -⟩
    by_contra hbad
    rcases stuck_of_alone htable hdevices hbad halone with
      ⟨-, heq⟩ | heq | ⟨hidle, -⟩ | ⟨answer, hreturned⟩
    · cases heq
    · cases heq
    · cases hidle
    · cases hreturned
  · obtain ⟨taken, leased, held, after, hready, hlength, hheld⟩ := hready hgood
    exact ⟨_, taken, held, hready.alone, hlength, hheld⟩
  · obtain ⟨taken, leased, held, after, hready, hlength, hheld⟩ := hready hgood
    exact hready.inevitable hlength hheld

theorem client_runs_sample :
    RunsOn sampleSetup ["gpu-0", "gpu-1"] 0 .init sampleGpuRequest [] 1 := by
  have haliases : ∀ name ∈ ["gpu-0", "gpu-1"],
      (sampleSetup.gpuDevices.get? name).isSome = true := by
    decide
  have hvalid : validateRequest sampleGpuRequest [] sampleGpuRequest.limits.gpuDeviceCount.toNat =
      .ok () := by
    decide +kernel
  exact (client_runs_iff sampleSetup _ _ newClient_sample haliases .init tabled_init 0
    sampleGpuRequest [] rfl (by decide) (Finset.notMem_empty _) hvalid (by decide)).1.mpr
    ⟨by decide, List.not_mem_nil⟩

/-- A request without devices is run by the backend, and not through the client. -/
theorem cpu_request_not_run :
    validateRequest sampleRequest [] sampleRequest.limits.gpuDeviceCount.toNat = .ok () ∧
    (∃ b, Pool.Alone (Containerd.Moves sampleSetup) 0 (State.init.backend, .run sampleRequest [] [])
      (b, .running sampleRequest [] [])) ∧
    ¬RunsOn sampleSetup ["gpu-0", "gpu-1"] 0 .init sampleRequest [] 0 := by
  have hvalid : validateRequest sampleRequest [] 0 = .ok () := by decide +kernel
  refine ⟨hvalid, ?_, ?_⟩
  · let after : Containerd.State := { Containerd.State.init with
      active := {(sampleRequest.executionDigest, 0)}, runs := 1 }
    have hregister : Containerd.State.init.register 2 sampleRequest.executionDigest 0 =
      .ok after := rfl
    have hregistered : Containerd.Moves sampleSetup 0 .init (.run sampleRequest [] []) after
        (.registered sampleRequest [] []) := .runRegistered hvalid hregister
    have hrunning : Containerd.Moves sampleSetup 0 after (.registered sampleRequest [] []) after
        (.running sampleRequest [] []) := .engineCalled
    exact ⟨after, Relation.ReflTransGen.head (b := (after, _)) hregistered (.single hrunning)⟩
  · rintro ⟨s', taken, held, halone, -, -⟩
    have hdevices : ["gpu-0", "gpu-1"].Nodup := by decide
    rcases stuck_of_alone tabled_init hdevices
      (fun hgood => absurd hgood.1 (by decide)) halone with
      ⟨-, heq⟩ | heq | ⟨hidle, -⟩ | ⟨answer, hreturned⟩
    · cases heq
    · cases heq
    · cases hidle
    · cases hreturned

end TosAi.Workload.Gpu
