/-
  What holds of the root between any two operations.

  `Holds fs d`: the disk is in the state `d`, which is coherent; every slot it
  references has a manifest and an artifact that pass `verifyInstalledSlot`; and the
  manifest of the known-good slot has the security revision of the state.  A method
  leaves the root in the state it found or in the one it stores, and does not touch
  the files of a referenced slot.
-/
import TosAi.SoftwareUpdate.Specs

set_option autoImplicit false

namespace TosAi.SoftwareUpdate

open Foundation

/-! ## The slots -/

/-- The slot passes `verifyInstalledSlot` with this manifest. -/
structure Installed (K : Crypto) (cfg : Config) (fs : Fs FileName) (revision : UInt64)
    (slot : SlotName) (manifest : Manifest) : Prop where
  file : fs.now (.plain (.manifest slot)) = some ⟨0o600, manifest.marshal⟩
  verified : manifest.verifyInstalled K (cfg.key manifest.keyID) cfg.target revision = .ok ()
  artifact : ∃ content, fs.now (.plain (.artifact slot)) = some ⟨0o500, content⟩ ∧
    Genuine K manifest content

/-- The files of the slots are the same. -/
def Undisturbed (slots : List SlotName) (fs fs' : Fs FileName) : Prop :=
  ∀ slot ∈ slots, fs'.now (.plain (.artifact slot)) = fs.now (.plain (.artifact slot)) ∧
    fs'.now (.plain (.manifest slot)) = fs.now (.plain (.manifest slot))

namespace Undisturbed

variable {slots : List SlotName} {fs fs' fs'' : Fs FileName} {N : FileName → Prop}

theorem refl (slots : List SlotName) (fs : Fs FileName) : Undisturbed slots fs fs :=
  fun _ _ => ⟨rfl, rfl⟩

theorem trans (h : Undisturbed slots fs fs') (h' : Undisturbed slots fs' fs'') :
    Undisturbed slots fs fs'' :=
  fun slot hslot =>
    ⟨(h' slot hslot).1.trans (h slot hslot).1, (h' slot hslot).2.trans (h slot hslot).2⟩

theorem of_agree (h : Fs.Agree N fs fs')
    (hN : ∀ slot ∈ slots, ¬N (.plain (.artifact slot)) ∧ ¬N (.plain (.manifest slot))) :
    Undisturbed slots fs fs' :=
  fun slot hslot => ⟨h _ (hN slot hslot).1, h _ (hN slot hslot).2⟩

theorem of_state (h : Fs.Agree (Pair .state) fs fs') : Undisturbed slots fs fs' :=
  of_agree h fun _ _ => by simp [Pair]

/-- What happens in another slot. -/
theorem of_inSlot {slot : SlotName} (h : Fs.Agree (InSlot slot) fs fs') (hslot : slot ∉ slots) :
    Undisturbed slots fs fs' := by
  refine of_agree h fun slot' hslot' => ?_
  have hne : slot' ≠ slot := fun h => hslot (h ▸ hslot')
  exact ⟨fun h => hne (Directory.slot.inj h), fun h => hne (Directory.slot.inj h)⟩

end Undisturbed

/-- The slots a state references are installed. -/
structure Stocked (K : Crypto) (cfg : Config) (P : Manifest → Prop) (fs : Fs FileName)
    (d : State) : Prop where
  coherent : d.Coherent
  installed : ∀ slot ∈ d.references, ∃ manifest, P manifest ∧
    Installed K cfg fs d.securityRevision slot manifest
  current : ∀ slot, d.knownGood = some slot → ∀ manifest : Manifest,
    fs.now (.plain (.manifest slot)) = some ⟨0o600, manifest.marshal⟩ →
      manifest.securityRevision = d.securityRevision

/-- The disk is in the state. -/
structure Holds (K : Crypto) (cfg : Config) (P : Manifest → Prop) (fs : Fs FileName)
    (d : State) : Prop where
  stocked : Stocked K cfg P fs d
  file : fs.now (.plain .state) = some d.file ∨
    (fs.now (.plain .state) = none ∧ d = State.initial)

variable {K : Crypto} {cfg : Config} {P : Manifest → Prop} {fs fs' : Fs FileName} {d d' : State}

theorem persisted_of_file (h : fs.now (.plain .state) = some d.file) : persisted fs = d := by
  simp [persisted, h, State.file, decodeState_marshal]

theorem Holds.persisted_eq (h : Holds K cfg P fs d) : persisted fs = d := by
  obtain hfile | ⟨hnone, rfl⟩ := h.file
  · exact persisted_of_file hfile
  · simp [persisted, hnone]

theorem Stocked.undisturbed (h : Stocked K cfg P fs d) (hsame : Undisturbed d.references fs fs') :
    Stocked K cfg P fs' d where
  coherent := h.coherent
  installed := by
    intro slot hslot
    obtain ⟨manifest, hP, hinstalled⟩ := h.installed slot hslot
    obtain ⟨hartifact, hmanifest⟩ := hsame slot hslot
    exact ⟨manifest, hP, hmanifest.trans hinstalled.file, hinstalled.verified, by
      rw [hartifact]; exact hinstalled.artifact⟩
  current := by
    intro slot hgood manifest hfile
    rw [(hsame slot (State.mem_references.mpr (.inr (.inl hgood)))).2] at hfile
    exact h.current slot hgood manifest hfile

/-- Reading a manifest file gives one manifest. -/
theorem manifest_eq_of_file {slot : SlotName} {manifest manifest' : Manifest}
    (h : fs.now (.plain (.manifest slot)) = some ⟨0o600, manifest.marshal⟩)
    (h' : fs.now (.plain (.manifest slot)) = some ⟨0o600, manifest'.marshal⟩) :
    manifest = manifest' := by
  rw [h] at h'
  have hmarshal : manifest.marshal = manifest'.marshal := congrArg File.data (Option.some.inj h')
  have hdecode := manifest.decode_marshal
  rw [hmarshal, Manifest.decode_marshal] at hdecode
  exact (Option.some.inj hdecode).symm

/-! ## The transitions keep the slots -/

variable (h : Stocked K cfg P fs d)
include h

/-- A transition that references no other slot and keeps the known-good one. -/
theorem Stocked.advance (hcoherent : d'.Coherent)
    (hslots : ∀ slot ∈ d'.references, slot ∈ d.references)
    (hrevision : d'.securityRevision = d.securityRevision) (hgood : d'.knownGood = d.knownGood) :
    Stocked K cfg P fs d' where
  coherent := hcoherent
  installed := by
    intro slot hslot
    rw [hrevision]
    exact h.installed slot (hslots slot hslot)
  current := by
    rw [hgood, hrevision]
    exact h.current

theorem Stocked.activated {slot : SlotName}
    (hpending : d.pending = some slot) : Stocked K cfg P fs d.activated := by
  refine h.advance (h.coherent.activated hpending) (fun slot hslot => ?_) rfl rfl
  rw [State.mem_references] at hslot ⊢
  simp only [State.activated, reduceCtorEq, false_or] at hslot
  tauto

theorem Stocked.rolledBack : Stocked K cfg P fs d.rolledBack := by
  refine h.advance h.coherent.rolledBack (fun slot hslot => ?_) rfl rfl
  rw [State.mem_references] at hslot ⊢
  simp only [State.rolledBack, reduceCtorEq, or_false] at hslot
  tauto

theorem Stocked.recovered : Stocked K cfg P fs d.recovered := by
  have hcoherent := h.coherent.recovered
  obtain ⟨-, -, hd⟩ | ⟨-, -, hd⟩ | ⟨-, hd⟩ := d.recovered_cases <;> rw [hd] at hcoherent ⊢
  · exact h.advance hcoherent (fun _ hslot => hslot) rfl rfl
  · refine h.advance hcoherent (fun slot hslot => ?_) rfl rfl
    rw [State.mem_references] at hslot ⊢
    simp only [State.fellBack, reduceCtorEq, or_false] at hslot
    tauto
  · exact h

/-- The confirmed slot is the only one left, and its revision becomes the state's. -/
theorem Stocked.confirmed {slot : SlotName} {manifest : Manifest}
    (hawaiting : d.awaitingHealth = true) (hactive : d.active = some slot)
    (hfile : fs.now (.plain (.manifest slot)) = some ⟨0o600, manifest.marshal⟩) :
    Stocked K cfg P fs (d.confirmed manifest.securityRevision) := by
  obtain ⟨manifest', hP, hinstalled⟩ :=
    h.installed slot (State.mem_references.mpr (.inl hactive))
  obtain rfl := manifest_eq_of_file hfile hinstalled.file
  have hle := Manifest.le_of_verifyInstalled hinstalled.verified
  have hrevision : (d.confirmed manifest.securityRevision).securityRevision =
      manifest.securityRevision := by
    simp only [State.confirmed]
    split
    · rfl
    · exact UInt64.le_antisymm hle (UInt64.not_lt.mp ‹_›)
  refine ⟨h.coherent.confirmed hawaiting _, fun slot' hslot' => ?_,
    fun slot' hgood other hother => ?_⟩
  · have hsame : slot' = slot := by
      rw [State.mem_references] at hslot'
      simpa [State.confirmed, hactive, h.coherent.waiting hawaiting, eq_comm] using hslot'
    subst hsame
    rw [hrevision]
    exact ⟨manifest, hP, hfile,
      Manifest.verifyInstalled_of_le hinstalled.verified (UInt64.le_refl _), hinstalled.artifact⟩
  · have hsame : slot' = slot := by simpa [State.confirmed, hactive, eq_comm] using hgood
    subst hsame
    rw [hrevision, manifest_eq_of_file hother hfile]

/-- A slot that has just been written is added. -/
theorem Stocked.staged (hpending : d.pending = none)
    (hidle : d.awaitingHealth = false) {manifest : Manifest} (hP : P manifest)
    (hinstalled : Installed K cfg fs d.securityRevision d.stageSlot manifest) :
    Stocked K cfg P fs (d.staged d.stageSlot) where
  coherent := h.coherent.staged hpending hidle
  installed := by
    intro slot hslot
    rw [State.mem_references] at hslot
    by_cases hsame : slot = d.stageSlot
    · subst hsame
      exact ⟨manifest, hP, hinstalled⟩
    · refine h.installed slot (State.mem_references.mpr ?_)
      simp only [State.staged, Option.some.injEq, Ne.symm hsame, false_or] at hslot
      tauto
  current := h.current

end TosAi.SoftwareUpdate
