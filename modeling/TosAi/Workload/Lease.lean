/-
  The lease table of `gpuisolation.Client` (`executor/gpuisolation/client.go`).

  A table has the aliases that are leased, each with the execution that owns it.  `acquire`
  takes the first free aliases of the client, `release` gives back what is still the owner's.
-/
import TosAi.Workload.Spec

set_option autoImplicit false

namespace TosAi.Workload.Gpu

open Foundation
open SoftwareWork (Err)

/-! ## Clients -/

def maxDevices : Nat := 64

def validAlias (value : String) : Bool := validGPUAlias value

/-- The loop of `New` over the sorted aliases. -/
def aliasesValid : Option String → List String → Bool
  | _, [] => true
  | before, name :: rest => validAlias name && before != some name && aliasesValid (some name) rest

/-- `New`: the devices of the client. -/
def newClient (aliases : List String) : Except Err (List String) := do
  require (!aliases.isEmpty && decide (aliases.length ≤ maxDevices))
    "invalid GPU isolation configuration"
  require (aliasesValid none (sortBy id aliases)) "invalid GPU device alias"
  return sortBy id aliases

theorem isChain_of_aliasesValid {before : Option String} {aliases : List String}
    (h : aliasesValid before aliases = true) : aliases.IsChain fun a b => id a ≠ id b := by
  induction aliases generalizing before with
  | nil => exact .nil
  | cons name rest ih =>
    simp only [aliasesValid, Bool.and_eq_true] at h
    cases rest with
    | nil => exact .singleton name
    | cons next rest =>
      have hnext := h.2
      simp only [aliasesValid, Bool.and_eq_true, bne_iff_ne, ne_eq, Option.some.injEq] at hnext
      exact .cons_cons hnext.1.2 (ih h.2)

theorem newClient_nodup {aliases devices : List String} (h : newClient aliases = .ok devices) :
    devices.Nodup ∧ ∀ name, name ∈ devices ↔ name ∈ aliases := by
  obtain ⟨-, h⟩ := require_bind_eq_ok.mp h
  obtain ⟨hvalid, h⟩ := require_bind_eq_ok.mp h
  obtain rfl := Except.ok.inj h
  have hsorted := pairwise_lt_sortBy (isChain_of_aliasesValid hvalid)
  exact ⟨hsorted.imp fun hlt => ne_of_lt hlt, fun name => (sortBy_perm aliases).mem_iff⟩

/-! ## Leases -/

/-- The map `leased`, from aliases to owners. -/
abbrev Leases := List (String × String)

variable {leased : Leases} {devices taken : List String} {count : Nat}

/-- The loop of `acquire`, with the aliases taken so far. -/
def takeDevices (owner : String) (count : Nat) :
    List String → List String → Leases → List String × Leases
  | [], taken, leased => (taken, leased)
  | name :: rest, taken, leased =>
    if (leased.lookup name).isSome then takeDevices owner count rest taken leased
    else if (taken ++ [name]).length = count then (taken ++ [name], leased ++ [(name, owner)])
    else takeDevices owner count rest (taken ++ [name]) (leased ++ [(name, owner)])

def acquire (devices : List String) (leased : Leases) (owner : String) (count : Nat) :
    Except Err (List String × Leases) :=
  if (devices.length : Int) - leased.length < count then
    .error (.text "GPU device capacity exhausted")
  else if count = 0 then .ok ([], leased)
  else if owner ∈ leased.map Prod.snd then .error (.text "execution already owns GPU devices")
  else .ok (takeDevices owner count devices [] leased)

/-- The loop of `release`. -/
def release (owner : String) : List String → Leases → Leases
  | [], leased => leased
  | name :: rest, leased =>
    release owner rest
      (if leased.lookup name = some owner then leased.filter (·.1 ≠ name) else leased)

/-- The number that `Available` returns. -/
def available (devices : List String) (leased : Leases) : Int := devices.length - leased.length

/-- A table of a client: no alias is leased twice, and only its own devices are. -/
structure Tabled (devices : List String) (leased : Leases) : Prop where
  nodup : (leased.map Prod.fst).Nodup
  subset : ∀ name ∈ leased.map Prod.fst, name ∈ devices

theorem lookup_isSome_iff {name : String} :
    (leased.lookup name).isSome = true ↔ name ∈ leased.map Prod.fst := by
  induction leased with
  | nil => simp
  | cons entry rest ih =>
    rcases entry with ⟨key, value⟩
    rw [List.lookup_cons, List.map_cons, List.mem_cons]
    cases hkey : name == key with
    | true => simp [beq_iff_eq.mp hkey]
    | false =>
      have hne : name ≠ key := by simpa using hkey
      simp only [ih, hne, false_or]

theorem lookup_eq_some_iff (hnodup : (leased.map Prod.fst).Nodup) {name owner : String} :
    leased.lookup name = some owner ↔ (name, owner) ∈ leased := by
  constructor
  · intro h
    obtain ⟨before, after, heq, -⟩ := List.lookup_eq_some_iff.mp h
    rw [heq]
    exact List.mem_append_right _ (List.mem_cons_self ..)
  · intro hmem
    obtain ⟨found, hfound⟩ := Option.isSome_iff_exists.mp
      (lookup_isSome_iff.mpr (List.mem_map_of_mem (f := Prod.fst) hmem))
    obtain ⟨before, after, heq, -⟩ := List.lookup_eq_some_iff.mp hfound
    have hother : (name, found) ∈ leased := by
      rw [heq]
      exact List.mem_append_right _ (List.mem_cons_self ..)
    have hsame := List.inj_on_of_nodup_map hnodup hmem hother rfl
    rw [hfound, (Prod.mk.inj hsame).2]

/-- What the loop of `acquire` takes of the devices that are left. -/
theorem takeDevices_spec (owner : String) {rest : List String} (hrest : rest.Nodup)
    (hcount : taken.length < count)
    (henough : count ≤ taken.length + (rest.filter fun name => name ∉ leased.map Prod.fst).length) :
    ∃ new : List String, takeDevices owner count rest taken leased =
        (taken ++ new, leased ++ new.map fun name => (name, owner)) ∧
      taken.length + new.length = count ∧ new.Nodup ∧
      ∀ name ∈ new, name ∈ rest ∧ name ∉ leased.map Prod.fst := by
  induction rest generalizing taken leased with
  | nil =>
    rw [List.filter_nil, List.length_nil] at henough
    omega
  | cons name rest ih =>
    obtain ⟨hname, hrest⟩ := List.nodup_cons.mp hrest
    rw [takeDevices]
    split
    · next hbusy =>
        -- a busy device is passed over
        have hleased := lookup_isSome_iff.mp hbusy
        rw [List.filter_cons_of_neg (by simpa using hleased)] at henough
        obtain ⟨new, htake, hlength, hnodup, hnew⟩ := ih hrest hcount henough
        exact ⟨new, htake, hlength, hnodup,
          fun other hother => ⟨List.mem_cons_of_mem _ (hnew other hother).1, (hnew other hother).2⟩⟩
    · next hfree =>
        have hnot : name ∉ leased.map Prod.fst :=
          fun hleased => hfree (lookup_isSome_iff.mpr hleased)
        have hlength : (taken ++ [name]).length = taken.length + 1 := by simp
        split
        · next henough =>
            refine ⟨[name], rfl, hlength ▸ henough, List.nodup_singleton name, ?_⟩
            intro other hother
            obtain rfl := List.mem_singleton.mp hother
            exact ⟨List.mem_cons_self .., hnot⟩
        · next hmore =>
            have hkeys (other : String) : other ∉ (leased ++ [(name, owner)]).map Prod.fst ↔
                other ∉ leased.map Prod.fst ∧ other ≠ name := by
              rw [List.map_append, List.mem_append, not_or]
              simp
            have hsame :
              (rest.filter fun other => other ∉ (leased ++ [(name, owner)]).map Prod.fst) =
                rest.filter fun other => other ∉ leased.map Prod.fst := by
              apply List.filter_congr
              intro other hother
              have hne : other ≠ name := fun heq => hname (heq ▸ hother)
              rw [decide_eq_decide, hkeys]
              exact and_iff_left hne
            rw [List.filter_cons_of_pos (by simpa using hnot), List.length_cons] at henough
            have hroom : (taken ++ [name]).length < count := by omega
            have henough : count ≤ (taken ++ [name]).length +
                (rest.filter
                  fun other => other ∉ (leased ++ [(name, owner)]).map Prod.fst).length := by
              rw [hsame]
              omega
            obtain ⟨new, htake, htotal, hnodup, hnew⟩ := ih hrest hroom henough
            refine ⟨name :: new, ?_, ?_, List.nodup_cons.mpr ⟨?_, hnodup⟩, ?_⟩
            · rw [htake]
              simp
            · rw [List.length_cons]
              omega
            · exact fun hmem => ((hkeys name).mp (hnew name hmem).2).2 rfl
            · intro other hother
              rcases List.mem_cons.mp hother with rfl | hmem
              · exact ⟨List.mem_cons_self .., hnot⟩
              · exact ⟨List.mem_cons_of_mem _ (hnew other hmem).1,
                  ((hkeys other).mp (hnew other hmem).2).1⟩

/-- As many devices are free as the capacity says. -/
theorem Tabled.free (htable : Tabled devices leased) (hdevices : devices.Nodup) :
    (devices.filter fun name => name ∉ leased.map Prod.fst).length + leased.length =
    devices.length := by
  have hperm :
      (devices.filter fun name => name ∈ leased.map Prod.fst).Perm (leased.map Prod.fst) := by
    rw [List.perm_ext_iff_of_nodup (hdevices.filter _) htable.nodup]
    intro name
    rw [List.mem_filter, decide_eq_true_eq]
    exact and_iff_right_of_imp (htable.subset name)
  have hlength := hperm.length_eq
  have hsum :=
    List.length_eq_length_filter_add (l := devices) fun name => decide (name ∈ leased.map Prod.fst)
  rw [List.length_map] at hlength
  simp only [decide_not]
  omega

/-- What `acquire` returns. -/
theorem acquire_ok {leased' : Leases} {owner : String} (htable : Tabled devices leased)
    (hdevices : devices.Nodup) (h : acquire devices leased owner count = .ok (taken, leased')) :
    leased' = leased ++ (taken.map fun name => (name, owner)) ∧ taken.length = count ∧ taken.Nodup ∧
      (∀ name ∈ taken, name ∈ devices ∧ name ∉ leased.map Prod.fst) ∧
      (taken ≠ [] → owner ∉ leased.map Prod.snd) := by
  unfold acquire at h
  split at h
  · cases h
  · next hcapacity =>
      split at h
      · next hzero =>
          obtain ⟨rfl, rfl⟩ := Prod.mk.inj (Except.ok.inj h)
          exact ⟨by simp, hzero.symm, List.nodup_nil, fun name hname => (nomatch hname),
            fun hne => absurd rfl hne⟩
      · next hzero =>
          split at h
          · cases h
          · next howner =>
              have hfree := htable.free hdevices
              have henough : count ≤ ([] : List String).length +
                  (devices.filter fun name => name ∉ leased.map Prod.fst).length := by
                rw [List.length_nil]
                omega
              obtain ⟨new, htake, hlength, hnodup, hnew⟩ :=
                takeDevices_spec owner hdevices (Nat.pos_of_ne_zero hzero) henough
              obtain ⟨rfl, rfl⟩ := Prod.mk.inj (htake.symm.trans (Except.ok.inj h))
              rw [List.length_nil, Nat.zero_add] at hlength
              exact ⟨rfl, hlength, hnodup, hnew, fun _ => howner⟩

/-- `acquire` succeeds if there is room and the execution owns nothing. -/
theorem acquire_of_free {owner : String} (hcapacity : (count : Int) ≤ available devices leased)
    (howner : owner ∉ leased.map Prod.snd) :
    ∃ taken leased', acquire devices leased owner count = .ok (taken, leased') := by
  have hroom : ¬(devices.length : Int) - leased.length < count := not_lt.mpr hcapacity
  by_cases hzero : count = 0
  · exact ⟨[], leased, by rw [acquire, if_neg hroom, if_pos hzero]⟩
  · exact ⟨_, _, by rw [acquire, if_neg hroom, if_neg hzero, if_neg howner]⟩

/-- `release` gives back what the owner has, and nothing else. -/
theorem release_eq_filter {owner : String} (hnodup : (leased.map Prod.fst).Nodup)
    (htaken : taken.Nodup) (howned : ∀ name ∈ taken, (name, owner) ∈ leased) :
    release owner taken leased = leased.filter fun entry => entry.1 ∉ taken := by
  induction taken generalizing leased with
  | nil => simp [release]
  | cons name rest ih =>
    obtain ⟨hname, hrest⟩ := List.nodup_cons.mp htaken
    have hlookup := (lookup_eq_some_iff hnodup).mpr (howned name (List.mem_cons_self ..))
    rw [release, if_pos hlookup]
    have hkept : ((leased.filter (·.1 ≠ name)).map Prod.fst).Nodup :=
      hnodup.sublist (List.filter_sublist.map Prod.fst)
    rw [ih hkept hrest, List.filter_filter]
    · apply List.filter_congr
      intro entry _
      rw [Bool.eq_iff_iff]
      simp only [Bool.and_eq_true, decide_eq_true_eq, List.mem_cons, not_or]
      exact and_comm
    · intro other hother
      have hne : other ≠ name := fun heq => hname (heq ▸ hother)
      exact List.mem_filter.mpr ⟨howned other (List.mem_cons_of_mem _ hother), by simpa using hne⟩

end TosAi.Workload.Gpu
