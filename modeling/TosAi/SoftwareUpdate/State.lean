/-
  The persistent state of the two release slots, and its transitions.

  The file `state.json` holds the four slot fields as texts; a text other than `a`,
  `b` and the empty one makes the state invalid, so a `State` has slots only.  Each
  operation of the manager is one function here.  `Coherent` is what all of them
  keep and `Stage` relies on: outside of a transition the active slot is the
  known-good one, and nothing else is referenced.
-/
import TosAi.SoftwareUpdate.Manifest

set_option autoImplicit false

namespace TosAi.SoftwareUpdate

open Foundation
open Foundation.Json (Bytes Codec Fields)

/-! ## The state -/

inductive SlotName where
  | a | b
  deriving DecidableEq, Repr

def SlotName.text : SlotName → String
  | .a => "a"
  | .b => "b"

structure State where
  version : Int64
  active : Option SlotName
  knownGood : Option SlotName
  pending : Option SlotName
  previous : Option SlotName
  awaitingHealth : Bool
  bootAttempted : Bool
  securityRevision : UInt64
  deriving DecidableEq, Repr

def stateVersion : Int64 := 1

/-- The state of a new root. -/
def State.initial : State := ⟨stateVersion, none, none, none, none, false, false, 0⟩

/-- `validateState`; the slots are valid by their type. -/
def State.validate (s : State) : Except Err Unit := do
  require (s.version == stateVersion) "invalid software update state version"
  require (!((s.pending.isSome && s.pending == s.active) ||
      (s.knownGood.isSome && s.active.isNone) ||
      (s.awaitingHealth && s.active.isNone) ||
      (!s.awaitingHealth && (s.previous.isSome || s.bootAttempted))))
    "inconsistent software update transition"

/-- `uniqueReferencedSlots`. -/
def State.references (s : State) : List SlotName :=
  ([s.active, s.knownGood, s.pending, s.previous].filterMap id).eraseDups

theorem State.mem_references {s : State} {slot : SlotName} :
    slot ∈ s.references ↔ s.active = some slot ∨ s.knownGood = some slot ∨
      s.pending = some slot ∨ s.previous = some slot := by
  simp only [references, List.mem_eraseDups, List.mem_filterMap, List.mem_cons,
    List.not_mem_nil, or_false, id_eq, exists_eq_right, eq_comm]

/-! ## JSON -/

/-- The state as it is decoded. -/
structure RawState where
  version : Int64
  active : String
  knownGood : String
  pending : String
  previous : String
  awaitingHealth : Bool
  bootAttempted : Bool
  securityRevision : UInt64

def rawStateCodec : Codec RawState :=
  .struct (.field "version" .int64 <| .optional "active" .string <|
      .optional "knownGood" .string <| .optional "pending" .string <|
      .optional "previous" .string <| .optional "awaitingHealth" .bool <|
      .optional "bootAttempted" .bool <| .field "securityRevision" .uint64 .nil)
    (fun r => (r.version, r.active, r.knownGood, r.pending, r.previous, r.awaitingHealth,
      r.bootAttempted, r.securityRevision, ()))
    (fun (a, b, c, d, e, f, g, h, ()) => ⟨a, b, c, d, e, f, g, h⟩) (fun _ => rfl) (fun _ => rfl)

/-- The text of a slot field. -/
def slotText (slot : Option SlotName) : String := slot.elim "" SlotName.text

/-- The slot of a text, if it is a valid one. -/
def readSlot (text : String) : Option (Option SlotName) :=
  if text = "" then some none
  else if text = "a" then some (some .a)
  else if text = "b" then some (some .b) else none

theorem readSlot_slotText (slot : Option SlotName) : readSlot (slotText slot) = some slot := by
  match slot with
  | none => rfl
  | some .a => rfl
  | some .b => rfl

def State.raw (s : State) : RawState :=
  ⟨s.version, slotText s.active, slotText s.knownGood, slotText s.pending, slotText s.previous,
    s.awaitingHealth, s.bootAttempted, s.securityRevision⟩

/-- The state, if all its slots are valid. -/
def RawState.known (r : RawState) : Option State := do
  let active ← readSlot r.active
  let knownGood ← readSlot r.knownGood
  let pending ← readSlot r.pending
  let previous ← readSlot r.previous
  some ⟨r.version, active, knownGood, pending, previous, r.awaitingHealth, r.bootAttempted,
    r.securityRevision⟩

/-- `json.Marshal`. -/
def State.marshal (s : State) : Bytes := rawStateCodec.marshal s.raw

/-- The strict decoder of `loadAndRecover`. -/
def decodeState (raw : Bytes) : Option State :=
  (rawStateCodec.unmarshal true raw).bind RawState.known

theorem decodeState_marshal (s : State) : decodeState s.marshal = some s := by
  rw [decodeState, State.marshal, rawStateCodec.unmarshal_marshal]
  simp [RawState.known, State.raw, readSlot_slotText]

/-- The file that holds a state. -/
def State.file (s : State) : File := ⟨0o600, s.marshal⟩

theorem size_slotText_le (slot : Option SlotName) :
    (Codec.string.enc (slotText slot)).size ≤ 8 := by
  match slot with
  | none => decide
  | some .a => decide
  | some .b => decide

theorem State.length_marshal_le (s : State) : s.marshal.length ≤ 1024 := by
  refine (Json.Value.length_print_le _).trans ?_
  have hversion : (Codec.int64.enc s.version).size ≤ 21 :=
    Json.length_integer_le (k := 20) (by decide) (by
      have := s.version.le_toInt
      have := s.version.toInt_lt
      omega)
  have hrevision : (Codec.uint64.enc s.securityRevision).size ≤ 20 :=
    Json.length_decimal_le (by decide) (by
      have := s.securityRevision.toNat_lt
      omega)
  have hbool : ∀ b, (Codec.bool.enc b).size ≤ 5 := fun _ => Nat.le_refl _
  have hlast {t : Unit} : Json.Value.sizeMembers (Fields.nil.enc t) ≤ 0 := Nat.le_refl 0
  refine Nat.le_trans (Nat.add_le_add_left (Fields.size_cons_le hversion <|
    Fields.size_cons_le (size_slotText_le s.active) <|
    Fields.size_cons_le (size_slotText_le s.knownGood) <|
    Fields.size_cons_le (size_slotText_le s.pending) <|
    Fields.size_cons_le (size_slotText_le s.previous) <|
    Fields.size_cons_le (hbool s.awaitingHealth) <|
    Fields.size_cons_le (hbool s.bootAttempted) <|
    Fields.size_cons_le hrevision hlast) 2) ?_
  decide

/-! ## The transitions -/

namespace State

/-- The slot `Stage` writes to. -/
def stageSlot (s : State) : SlotName := if s.active = some .a then .b else .a

def staged (s : State) (slot : SlotName) : State := { s with pending := some slot }

def activated (s : State) : State :=
  { s with
    previous := s.active
    active := s.pending
    pending := none
    awaitingHealth := true
    bootAttempted := false }

/-- `ConfirmHealthy`, `revision` being that of the active slot's manifest. -/
def confirmed (s : State) (revision : UInt64) : State :=
  { s with
    knownGood := s.active
    previous := none
    awaitingHealth := false
    bootAttempted := false
    securityRevision := if s.securityRevision < revision then revision else s.securityRevision }

def rolledBack (s : State) : State :=
  { s with
    active := s.knownGood
    pending := none
    previous := none
    awaitingHealth := false
    bootAttempted := false }

/-- The first start after an activation. -/
def booted (s : State) : State := { s with bootAttempted := true }

/-- The second start after an activation. -/
def fellBack (s : State) : State :=
  { s with
    active := s.knownGood
    previous := none
    awaitingHealth := false
    bootAttempted := false }

/-- What `loadAndRecover` makes of the state it read. -/
def recovered (s : State) : State :=
  if s.awaitingHealth && !s.bootAttempted then s.booted
  else if s.awaitingHealth then s.fellBack else s

/-- The three cases of a start. -/
theorem recovered_cases (s : State) :
    (s.awaitingHealth = true ∧ s.bootAttempted = false ∧ s.recovered = s.booted) ∨
      (s.awaitingHealth = true ∧ s.bootAttempted = true ∧ s.recovered = s.fellBack) ∨
      (s.awaitingHealth = false ∧ s.recovered = s) := by
  unfold recovered
  cases s.awaitingHealth <;> cases s.bootAttempted <;> simp

/-! ## Coherence -/

/-- The state passes `validateState`, nothing is pending during a transition, and
outside of one the active slot is the known-good one. -/
structure Coherent (s : State) : Prop where
  valid : s.validate = .ok ()
  waiting : s.awaitingHealth = true → s.pending = none
  settled : s.awaitingHealth = false → s.active = s.knownGood

/-- What `validateState` leaves to know. -/
structure Valid (s : State) : Prop where
  version : s.version = stateVersion
  pending : ∀ slot, s.pending = some slot → s.active ≠ some slot
  knownGood : s.active = none → s.knownGood = none
  awaiting : s.awaitingHealth = true → s.active ≠ none
  previous : s.awaitingHealth = false → s.previous = none
  boot : s.awaitingHealth = false → s.bootAttempted = false

variable {s : State}

theorem validate_eq_ok_iff : s.validate = .ok () ↔ s.Valid := by
  unfold validate
  simp only [seq_eq_ok_iff, require_eq_ok_iff, beq_iff_eq]
  constructor
  · rintro ⟨hversion, hrest⟩
    simp only [Bool.not_eq_true', Bool.or_eq_false_iff, Bool.and_eq_false_iff] at hrest
    obtain ⟨⟨⟨hpending, hgood⟩, hactive⟩, hidle⟩ := hrest
    refine ⟨hversion, fun slot hslot hsame => ?_, fun hnone => ?_, fun hawaiting hnone => ?_,
      fun hidle' => ?_, fun hidle' => ?_⟩
    · simp [hslot, hsame] at hpending
    · simpa [hnone] using hgood
    · simp [hawaiting, hnone] at hactive
    · simp only [hidle', Bool.not_false, Bool.true_eq_false, false_or] at hidle
      simpa using hidle.1
    · simp only [hidle', Bool.not_false, Bool.true_eq_false, false_or] at hidle
      exact hidle.2
  · intro h
    refine ⟨h.version, ?_⟩
    simp only [Bool.not_eq_true', Bool.or_eq_false_iff, Bool.and_eq_false_iff]
    refine ⟨⟨⟨?_, ?_⟩, ?_⟩, ?_⟩
    · cases hpending : s.pending with
      | none => exact .inl rfl
      | some slot => exact .inr (by simpa using (h.pending slot hpending).symm)
    · cases hactive : s.active with
      | none => exact .inl (by simp [h.knownGood hactive])
      | some slot => exact .inr rfl
    · cases hawaiting : s.awaitingHealth with
      | false => exact .inl rfl
      | true => exact .inr (by simpa [Option.isSome_iff_ne_none] using h.awaiting hawaiting)
    · cases hawaiting : s.awaitingHealth with
      | true => exact .inl rfl
      | false => exact .inr (by simp [h.previous hawaiting, h.boot hawaiting])

theorem Coherent.validity (h : s.Coherent) : s.Valid := validate_eq_ok_iff.mp h.valid

theorem coherent_initial : initial.Coherent where
  valid := rfl
  waiting := fun h => nomatch h
  settled := fun _ => rfl

variable (h : s.Coherent)
include h

/-- **Staging does not touch a referenced slot.** -/
theorem Coherent.stageSlot_not_mem (hpending : s.pending = none)
    (hidle : s.awaitingHealth = false) : s.stageSlot ∉ s.references := by
  have hne : s.active ≠ some s.stageSlot := by
    unfold stageSlot
    split
    · rename_i hactive
      simp [hactive]
    · assumption
  rw [mem_references, ← h.settled hidle, hpending, h.validity.previous hidle]
  simp [hne]

theorem Coherent.staged (hpending : s.pending = none)
    (hidle : s.awaitingHealth = false) : (s.staged s.stageSlot).Coherent where
  valid := by
    have hnot := h.stageSlot_not_mem hpending hidle
    refine validate_eq_ok_iff.mpr { h.validity with pending := fun slot hslot hactive => ?_ }
    obtain rfl := Option.some.inj hslot
    exact hnot (mem_references.mpr (.inl hactive))
  waiting := fun hawaiting => by
    rw [State.staged, hidle] at hawaiting
    cases hawaiting
  settled := h.settled

theorem Coherent.activated {slot : SlotName} (hpending : s.pending = some slot) :
    s.activated.Coherent where
  valid := by
    refine validate_eq_ok_iff.mpr ⟨h.validity.version, (fun _ hslot => nomatch hslot),
      fun hnone => ?_, fun _ hnone => ?_, (fun hidle => nomatch hidle),
      (fun hidle => nomatch hidle)⟩
    · rw [State.activated, hpending] at hnone
      cases hnone
    · rw [State.activated, hpending] at hnone
      cases hnone
  waiting := fun _ => rfl
  settled := fun hidle => nomatch hidle

theorem Coherent.confirmed (hawaiting : s.awaitingHealth = true)
    (revision : UInt64) : (s.confirmed revision).Coherent where
  valid := by
    refine validate_eq_ok_iff.mpr ⟨h.validity.version, fun slot hslot => ?_, fun hnone => hnone,
      (fun hawaiting' => nomatch hawaiting'), fun _ => rfl, fun _ => rfl⟩
    rw [State.confirmed, h.waiting hawaiting] at hslot
    cases hslot
  waiting := fun hawaiting' => nomatch hawaiting'
  settled := fun _ => rfl

theorem Coherent.rolledBack : s.rolledBack.Coherent where
  valid := validate_eq_ok_iff.mpr ⟨h.validity.version, (fun _ hslot => nomatch hslot),
    fun hnone => hnone, (fun hawaiting => nomatch hawaiting), fun _ => rfl, fun _ => rfl⟩
  waiting := fun hawaiting => nomatch hawaiting
  settled := fun _ => rfl

theorem Coherent.booted (hawaiting : s.awaitingHealth = true) :
    s.booted.Coherent where
  valid := by
    refine validate_eq_ok_iff.mpr { h.validity with boot := fun hidle => ?_ }
    rw [State.booted, hawaiting] at hidle
    cases hidle
  waiting := h.waiting
  settled := h.settled

theorem Coherent.fellBack (hawaiting : s.awaitingHealth = true) :
    s.fellBack.Coherent where
  valid := by
    refine validate_eq_ok_iff.mpr ⟨h.validity.version, fun slot hslot => ?_, fun hnone => hnone,
      (fun hawaiting' => nomatch hawaiting'), fun _ => rfl, fun _ => rfl⟩
    rw [State.fellBack, h.waiting hawaiting] at hslot
    cases hslot
  waiting := fun hawaiting' => nomatch hawaiting'
  settled := fun _ => rfl

theorem Coherent.recovered : s.recovered.Coherent := by
  obtain ⟨hawaiting, -, hs⟩ | ⟨hawaiting, -, hs⟩ | ⟨-, hs⟩ := s.recovered_cases <;> rw [hs]
  · exact h.booted hawaiting
  · exact h.fellBack hawaiting
  · exact h

end State

end TosAi.SoftwareUpdate
