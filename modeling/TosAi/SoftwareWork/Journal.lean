/-
  What `Claim` and `Complete` do among other calls.

  A claim belongs to the call that created its file: as long as the file is there, no
  other call creates, writes, removes or replaces it.  So a claim that is returned as a
  lease is on disk with nothing else under its name, and it stays so until the same call
  completes it.  A completed record is never changed again.
-/
import TosAi.SoftwareWork.Store

set_option autoImplicit false

namespace TosAi.SoftwareWork

open Foundation Foundation.Discipline

variable {r : Runner} {c : Nat} {s s' : System} {E : Err → System → Prop}

/-! ## The claim's file -/

/-- The call has not invoked the executor. -/
def Idle (c : Nat) (s : System) : Prop := s.hasInvoked c = false

theorem stays_idle : Stays r c (Idle c) := stays_of_frame fun _ _ hframe hs => hframe.idle hs

theorem steady_idle : Steady (Idle c) := by
  intro s s' h hs
  rw [Idle, System.hasInvoked, h.invoked]
  exact hs

/-- The claim's file is open in this call. -/
def Opened (c : Nat) (hex : String) (f : File) (s : System) : Prop :=
  Fs.Open c s.journal (.record hex) f ∧ Idle c s

/-- It may be removed. -/
def Removable (c : Nat) (hex : String) (s : System) : Prop := ∃ f, Claimed f ∧ Opened c hex f s

/-- It has been flushed. -/
def Synced (c : Nat) (hex : String) (f : File) (s : System) : Prop :=
  ((s.journal.slot (.record hex)).present = [some f] ∧
    (s.journal.slot (.record hex)).opener = c) ∧ Idle c s

/-- There is nothing else on disk under the name. -/
def Held (c : Nat) (hex : String) (f : File) (s : System) : Prop :=
  s.journal.outcomes (.record hex) = [some f] ∧ (s.journal.slot (.record hex)).opener = c

variable {f : File} {hex : String}

theorem now_of_present {a : Slot} (h : a.present = [some f]) : a.now = some f := by
  rw [Slot.present, List.cons.injEq] at h
  exact h.1

theorem now_of_outcomes {a : Slot} {o : Option File} (h : a.outcomes = [o]) : a.now = o := by
  rw [Slot.outcomes, Slot.present, List.cons_append, List.cons.injEq] at h
  exact h.1

theorem Synced.opened (h : Synced c hex f s) : Opened c hex f s :=
  ⟨⟨now_of_present h.1.1, h.1.2⟩, h.2⟩

theorem Held.opened (h : Held c hex f s) :
    Fs.Open c s.journal (.record hex) f :=
  ⟨now_of_outcomes h.1, h.2⟩

theorem Opened.settles (h : Fs.Open c s.journal (.record hex) f) (hframe : Frame c s s') :
    Settles (s.journal.slot (.record hex)) (s'.journal.slot (.record hex)) :=
  hframe.record hex (Option.isSome_iff_exists.mpr ⟨f, h.now⟩) h.opener

theorem stays_opened (hex : String) (f : File) : Stays r c (Opened c hex f) := by
  apply Stable.and _ stays_idle
  apply stays_of_frame
  intro s s' hframe hs
  have hslot := Opened.settles hs hframe
  exact ⟨hslot.now.trans hs.now, hslot.opener.trans hs.opener⟩

theorem stays_removable (hex : String) : Stays r c (Removable c hex) :=
  Stable.exists fun f => (Stable.const _).and (stays_opened hex f)

theorem stays_synced (hex : String) (f : File) : Stays r c (Synced c hex f) := by
  apply Stable.and _ stays_idle
  apply stays_of_frame
  intro s s' hframe hs
  have hslot := Opened.settles ⟨now_of_present hs.1, hs.2⟩ hframe
  exact ⟨hslot.present.trans hs.1, hslot.opener.trans hs.2⟩

theorem stays_held (hex : String) (f : File) : Stays r c (Held c hex f) := by
  apply stays_of_frame
  intro s s' hframe hs
  have hslot := Opened.settles hs.opened hframe
  exact ⟨hslot.single hs.1, hslot.opener.trans hs.2⟩

theorem steady_synced (hex : String) (f : File) : Steady (Synced c hex f) := by
  apply Steady.and _ steady_idle
  intro s s' h hs
  rw [h.journal]
  exact hs

theorem steady_held (hex : String) (f : File) : Steady (Held c hex f) := by
  intro s s' h hs
  rw [Held, h.journal]
  exact hs

theorem lasts_note (c : Nat) (failed : Bool) (s : System) : Lasts s (s.note c failed) where
  finished := fun _ _ h _ => h
  objects := fun _ _ h => h
  hashed := fun _ h => h
  began := fun _ _ h => h
  cancelled := fun _ h => h
  troubled := fun _ => troubled_note

/-! ## Going on after a step -/

section Recovery

variable {P : System → Prop} {Q : Unit → System → Prop}

theorem unlessDone_does {done : Bool} {recover : Work Unit} {message : String}
    (hdone : done = true → ∀ s, P s → Q () s)
    (hrecover : done = false → Does r c P recover (fun _ s => E (.text message) s) E) :
    Does r c P (unlessDone done recover message) Q E := by
  cases done with
  | true => exact .pure fun s _ hs => hdone rfl s hs
  | false =>
    apply Meets.bind (hrecover rfl)
    intro _
    exact .throw fun s _ hs => hs

end Recovery

/-- An operation on the journal that leaves it as it is. -/
theorem close_does (hc : c ≠ 0) (n : JournalName) {P : System → Prop} (hP : Stays r c P)
    (hnote : ∀ s failed, P s → P (s.note c failed)) :
    Does r c P (perform (.journal (.close n))) (fun _ => P) E := by
  apply Does.step hc hP
  · intro s _ _
    exact trivial
  · intro s answer s' _ hs happly _
    obtain ⟨fs', failed, rfl, -, -, rfl⟩ := happly
    exact hnote s failed hs

theorem remove_does (hc : c ≠ 0) (hex : String) :
    Does r c (Removable c hex) (perform (.journal (.remove (.record hex))))
      (fun _ => Idle c) E := by
  apply Does.step hc (stays_removable hex)
  · rintro s _ ⟨f, hclaimed, hopen, hidle⟩
    exact ⟨hidle, f, hopen, hclaimed⟩
  · rintro s answer s' _ ⟨f, -, -, hidle⟩ happly _
    obtain ⟨fs', failed, -, -, -, rfl⟩ := happly
    exact hidle

theorem removeClaim_does (hc : c ≠ 0) (hex : String) :
    Does r c (Removable c hex) (removeClaim (.record hex)) (fun _ => Idle c) E := by
  apply Meets.bind (remove_does hc hex)
  intro _
  exact .pure fun s _ hs => hs

theorem dropClaim_does (hc : c ≠ 0) (hex : String) :
    Does r c (Removable c hex) (dropClaim (.record hex)) (fun _ => Idle c) E := by
  apply Meets.bind (close_does hc (.record hex) (stays_removable hex) fun _ _ hs => hs)
  intro _
  exact removeClaim_does hc hex

/-! ## Writing a claim -/

/-- A property of the claim's file that survives the sync of its directory. -/
theorem syncJournal_does (hc : c ≠ 0) {P Q : System → Prop} (hP : Stays r c P)
    (hsteady : Steady P) (hsync : ∀ s, P s → Q { s with journal := s.journal.syncDir })
    (hnote : ∀ s failed, P s → P (s.note c failed))
    (hnote' : ∀ s failed, Q s → Q (s.note c failed)) :
    Does r c P syncJournal (fun _ => Q) (fun _ s => P s ∨ Q s) := by
  apply Meets.bind (Does.glance (o := .openJournal) hc trivial hP hsteady)
  intro opened
  apply Meets.bind (Does.ensure (Q := fun _ => P) (fun s _ hs => hs) (fun s _ hs => .inl hs))
  intro _
  apply Meets.bind (S := fun synced s => if synced then Q s else P s)
  · apply Does.step hc hP
    · intro s _ _
      exact trivial
    · intro s answer s' _ hs happly _
      obtain ⟨fs', failed, happly, -, -, rfl⟩ := happly
      obtain ⟨rfl, rfl⟩ | ⟨rfl, rfl⟩ := happly
      · exact hnote' _ failed (hsync s hs)
      · exact hnote _ failed hs
  · intro synced
    cases synced with
    | true => exact .ensure (fun s _ hs => hs) (fun s h _ => Bool.noConfusion h)
    | false => exact .ensure (fun s h _ => Bool.noConfusion h) (fun s _ hs => .inl hs)

variable {hex fp executionID : String} {known : Option File} {f : File} {k : Nat}

/-- What has been flushed is alone on disk once the directory is synced. -/
theorem Synced.held (h : Synced c hex f s) :
    Held c hex f { s with journal := s.journal.syncDir } := by
  refine ⟨?_, h.1.2⟩
  show ((s.journal.slot (.record hex)).settle).outcomes = [some f]
  have hpresent : (s.journal.slot (.record hex)).settle.present = [some f] := h.1.1
  rw [Slot.outcomes, hpresent]
  rfl

theorem writeClaim_does (hc : c ≠ 0) (hex : String) (hfp : digestPattern fp = true) :
    Does r c (Opened c hex ⟨0o600, []⟩) (writeClaim (.record hex) (.claimed fp))
      (fun _ s => Held c hex (JournalRecord.claimed fp).file s ∧ Idle c s) (fun _ => Idle c) := by
  have hclaim := claimed_file hfp
  apply Meets.bind (S := fun written s => if written then
    Opened c hex (JournalRecord.claimed fp).file s else Removable c hex s)
  · apply Does.step hc (stays_opened hex _)
    · intro s _ hs
      exact ⟨fp, hfp, rfl, hs.1⟩
    · intro s answer s' _ hs happly _
      obtain ⟨fs', failed, happly, -, -, rfl⟩ := happly
      obtain ⟨rfl, rfl⟩ | ⟨rfl, k, -, rfl⟩ := happly
      · exact ⟨hs.1.append _, hs.2⟩
      · exact ⟨_, ⟨fp, k, hfp, rfl⟩, hs.1.append _, hs.2⟩
  intro written
  apply Meets.bind (S := fun _ => Opened c hex (JournalRecord.claimed fp).file)
  · apply unlessDone_does
    · rintro rfl
      exact fun s hs => hs
    · rintro rfl
      exact dropClaim_does hc hex
  intro _
  apply Meets.bind (S := fun synced s => if synced then
    Synced c hex (JournalRecord.claimed fp).file s else Removable c hex s)
  · apply Does.step hc (stays_opened hex _)
    · intro s _ _
      exact trivial
    · intro s answer s' _ hs happly _
      obtain ⟨fs', failed, happly, -, -, rfl⟩ := happly
      obtain ⟨rfl, rfl⟩ | ⟨rfl, rfl⟩ := happly
      · refine ⟨⟨?_, (hs.1.flush).opener⟩, hs.2⟩
        show ((s.journal.modify (.record hex) (Slot.flush c)).slot (.record hex)).present = _
        rw [Fs.modify_slot_self]
        exact present_flush hs.1.now hs.1.opener
      · exact ⟨_, hclaim, hs⟩
  intro synced
  apply Meets.bind (S := fun _ => Synced c hex (JournalRecord.claimed fp).file)
  · apply unlessDone_does
    · rintro rfl
      exact fun s hs => hs
    · rintro rfl
      exact dropClaim_does hc hex
  intro _
  have hremovable : ∀ s, Synced c hex (JournalRecord.claimed fp).file s → Removable c hex s :=
    fun s hs => ⟨_, hclaim, hs.opened⟩
  apply Meets.bind (close_does hc (.record hex) (stays_synced hex _) fun _ _ hs => hs)
  intro closed
  apply Meets.bind (S := fun _ => Synced c hex (JournalRecord.claimed fp).file)
  · apply unlessDone_does
    · intro _
      exact fun s hs => hs
    · intro _
      exact (removeClaim_does hc hex).pre fun s _ hs => hremovable s hs
  intro _
  have hcommit := syncJournal_does (r := r) hc (stays_synced hex (JournalRecord.claimed fp).file)
    (Q := fun s => Held c hex (JournalRecord.claimed fp).file s ∧ Idle c s) (steady_synced hex _)
    (fun s hs => ⟨hs.held, hs.2⟩) (fun _ _ hs => hs) (fun _ _ hs => hs)
  apply Meets.bind (Meets.attempt hcommit)
  intro committed
  cases committed with
  | ok _ => exact .pure fun s _ hs => hs
  | error err =>
    apply Meets.bind (S := fun _ => Idle c)
    · apply (removeClaim_does hc hex).conseq _ (fun _ _ hs => hs) (fun _ _ hs => hs)
      intro s _ hs
      rcases hs with hs | hs
      · exact hremovable s hs
      · exact ⟨_, hclaim, hs.1.opened, hs.2⟩
    · intro _
      exact .throw fun s _ hs => hs

/-! ## Reading a record -/

/-- The record is known to be complete. -/
def KnownRecord (known : Option File) (hex : String) (s : System) : Prop :=
  ∀ f ∈ known, Finished f ∧ s.journal.now (.record hex) = some f

/-- A file that was found under the name. -/
structure Found (known : Option File) (hex : String) (f : File) (s : System) : Prop where
  kind : Claimed f ∨ Finished f
  stays : Finished f → s.journal.now (.record hex) = some f
  known : ∀ g ∈ known, f = g

theorem KnownRecord.lasts :
    ∀ s s', Lasts s s' → KnownRecord known hex s → KnownRecord known hex s' :=
  fun _ _ hlasts hs f hf => ⟨(hs f hf).1, hlasts.finished hex f (hs f hf).2 (hs f hf).1⟩

theorem Found.lasts :
    ∀ s s', Lasts s s' → Found known hex f s → Found known hex f s' :=
  fun _ _ hlasts hs => ⟨hs.kind, fun hf => hlasts.finished hex f (hs.stays hf) hf, hs.known⟩

/-- What keeps a known record from being read. -/
def Hindered (c : Nat) (known : Option File) (s : System) : Prop :=
  ∀ f ∈ known, f.data.length ≤ maxRecordBytes → s.troubled c = true

theorem lookAtRecord_does (hc : c ≠ 0) (known : Option File) (hex : String) (message : String) :
    Does r c (KnownRecord known hex) (lookAtRecord (.record hex) message)
      (fun seen s => Found known hex seen.file s) (fun _ => Hindered c known) := by
  apply Meets.bind (S := fun answer s => match answer with
    | .ok seen => Found known hex seen.file s
    | .error _ => Hindered c known s)
  · apply Does.step hc (stays_of_lasts KnownRecord.lasts)
    · intro s _ _
      exact trivial
    · intro s answer s' hinv hs happly _
      obtain ⟨fs', failed, happly, -, hhealthy, rfl⟩ := happly
      obtain ⟨rfl, ⟨f, hnow, rfl⟩ | ⟨hnow, rfl⟩ | rfl⟩ := happly
      · have hmem : some f ∈ s.journal.outcomes (.record hex) := by
          rw [← hnow]
          exact Slot.now_mem_outcomes _
        exact ⟨hinv.records hex f hmem, fun _ => hnow,
          fun g hg => Option.some.inj (hnow.symm.trans (hs g hg).2)⟩
      · intro g hg
        rw [(hs g hg).2] at hnow
        cases hnow
      · intro g hg _
        exact troubled_of_note (hhealthy.resolve_left fun h => h rfl)
  · intro answer
    cases answer with
    | ok seen => exact .pure fun s _ hs => hs
    | error err => exact .throw fun s _ hs => hs

/-- The record was read from a file under the name. -/
def ReadFrom (known : Option File) (hex : String) (record : JournalRecord) (s : System) : Prop :=
  ∃ f, decodeRecord f.data = some record ∧ Found known hex f s

theorem ReadFrom.lasts {record : JournalRecord} :
    ∀ s s', Lasts s s' → ReadFrom known hex record s → ReadFrom known hex record s' :=
  fun s s' hlasts hs => hs.imp fun _ hf => ⟨hf.1, hf.2.lasts s s' hlasts⟩

theorem readJournalRecord_does (hc : c ≠ 0) (known : Option File) (hex : String) :
    Does r c (KnownRecord known hex) (readJournalRecord (.record hex)) (ReadFrom known hex)
      (fun _ => Hindered c known) := by
  apply Meets.assume (∀ f ∈ known, Finished f) (fun s _ hs f hf => (hs f hf).1)
  intro hfinished
  have hlook (message : String) := Does.keep (R := KnownRecord known hex) KnownRecord.lasts
    (lookAtRecord_does (r := r) hc known hex message)
  apply Meets.bind ((hlook _).conseq (fun _ _ hs => ⟨hs, hs⟩) (fun _ _ hs => hs)
    (fun _ _ hs => hs.1))
  intro info
  apply Meets.bind (Does.ensure (Q := fun _ => KnownRecord known hex)
    (fun s _ hs => hs.2) ?_)
  swap
  · intro s hfails hs f hf hlength
    obtain ⟨fp, o, -, rfl⟩ := hfinished f hf
    have hpos := line_ne_nil (JournalRecord.completed fp o)
    rw [hs.1.known _ hf] at hfails
    simp only [JournalRecord.file] at hfails hlength
    simp [hpos, hlength] at hfails
  intro _
  apply Meets.bind ((hlook _).conseq (fun _ _ hs => ⟨hs, hs⟩) (fun _ _ hs => hs)
    (fun _ _ hs => hs.1))
  intro value
  unfold decoded
  cases hdecode : decodeRecord value.file.data with
  | some record => exact .pure fun s _ hs => ⟨value.file, hdecode, hs.1⟩
  | none =>
    apply Meets.throw
    intro s _ hs f hf _
    obtain ⟨fp, o, hfp, rfl⟩ := hfinished f hf
    rw [hs.1.known _ hf, decodeRecord_completed hfp o] at hdecode
    cases hdecode

theorem lookAtRecord_uses (n : JournalName) (message : String) :
    Body.Uses Looks (lookAtRecord n message) := by
  refine .bind (.perform trivial) fun answer => ?_
  cases answer with
  | ok seen => exact .pure seen
  | error err => exact .throw _

theorem readJournalRecord_uses (n : JournalName) : Body.Uses Looks (readJournalRecord n) := by
  refine .bind (lookAtRecord_uses n _) fun info => ?_
  refine .bind (.ensure _ _) fun _ => ?_
  refine .bind (lookAtRecord_uses n _) fun value => ?_
  unfold decoded
  split
  · exact .pure _
  · exact .throw _

/-- What is not touched by looking stays while a record is read. -/
theorem readJournalRecord_keeps (hc : c ≠ 0) (known : Option File) (hex : String)
    {R : System → Prop} (hR : Stays r c R) (hsteady : Steady R) :
    Does r c (fun s => KnownRecord known hex s ∧ R s) (readJournalRecord (.record hex))
      (fun record s => ReadFrom known hex record s ∧ R s) (fun _ s => Hindered c known s ∧ R s) :=
  .frame (readJournalRecord_uses _) hR
    (fun _ ho s _ s' happly _ => hsteady s s' (unmoved_of_looks hc ho happly))
    (readJournalRecord_does hc known hex)

/-! ## Claim -/

/-- What a claim has answered. -/
def ClaimedAs (c : Nat) (known : Option File) (hex fp : String) (lease : Bool)
    (record : JournalRecord) (s : System) : Prop :=
  if lease then Held c hex (JournalRecord.claimed fp).file s ∧ known = none
  else ReadFrom known hex record s ∧ record.fingerprint = fp

theorem stays_claimedAs (known : Option File) (hex fp : String) (lease : Bool)
    (record : JournalRecord) : Stays r c (ClaimedAs c known hex fp lease record) := by
  cases lease with
  | true => exact (stays_held hex _).and (.const _)
  | false => exact (stays_of_lasts ReadFrom.lasts).and (.const _)

/-- What keeps a claim from returning a known record of the same request. -/
def Refused (c : Nat) (known : Option File) (fp : String) (s : System) : Prop :=
  ∀ f ∈ known, f.data.length ≤ maxRecordBytes →
    (∃ o, f = (JournalRecord.completed fp o).file) → s.troubled c = true

theorem Refused.lasts :
    ∀ s s', Lasts s s' → Refused c known fp s → Refused c known fp s' :=
  fun _ _ hlasts hs f hf hlength ho => hlasts.troubled c (hs f hf hlength ho)

theorem refused_none : Refused c none fp s := fun _ hf => nomatch hf

/-- What is known when the exclusive create of a claim has answered. -/
def Answered (c : Nat) (known : Option File) (hex fp : String) (s : System) :
    Except FsErr Unit → Prop
  | .ok _ => known = none ∧ Opened c hex ⟨0o600, []⟩ s
  | .error .exist => KnownRecord known hex s ∧ Idle c s
  | .error _ => Refused c known fp s ∧ Idle c s

theorem claimRecord_does (hc : c ≠ 0) (known : Option File)
    (hname : recordName executionID = .record hex) (hfp : digestPattern fp = true) :
    Does r c (fun s => KnownRecord known hex s ∧ Idle c s) (claimRecord executionID fp)
      (fun answer s => ClaimedAs c known hex fp answer.1 answer.2 s ∧ Idle c s)
      (fun _ s => Refused c known fp s ∧ Idle c s) := by
  have hstart : Stays r c fun s => KnownRecord known hex s ∧ Idle c s :=
    (stays_of_lasts KnownRecord.lasts).and stays_idle
  rw [claimRecord, hname]
  apply Meets.bind (S := fun answer s => Answered c known hex fp s answer)
  · apply Does.step hc hstart
    · intro s _ _
      exact ⟨hex, fp, rfl, rfl, hfp⟩
    · intro s answer s' _ hs happly hlasts
      obtain ⟨fs', failed, happly, -, hhealthy, rfl⟩ := happly
      obtain ⟨hnone, rfl, rfl⟩ | ⟨-, rfl, rfl⟩ | ⟨rfl, rfl⟩ := happly
      · refine ⟨?_, Fs.open_create 0o600, hs.2⟩
        cases known with
        | none => rfl
        | some f =>
          rw [(hs.1 f rfl).2] at hnone
          cases hnone
      · exact ⟨hs.1.lasts _ _ hlasts, hs.2⟩
      · refine ⟨fun f _ _ _ => ?_, hs.2⟩
        exact troubled_of_note (hhealthy.resolve_left fun h => h rfl)
  intro answer
  cases answer with
  | ok u =>
    apply Meets.assume (known = none) (fun _ _ hs => hs.1)
    rintro rfl
    apply Meets.bind ((writeClaim_does hc hex hfp).conseq (fun _ _ hs => hs.2) (fun _ _ hs => hs)
      (fun _ _ hs => ⟨refused_none, hs⟩))
    intro _
    apply Meets.pure
    intro s _ hs
    exact ⟨⟨hs.1, rfl⟩, hs.2⟩
  | error err =>
    cases err with
    | exist =>
      apply Meets.bind ((readJournalRecord_keeps hc known hex stays_idle steady_idle).conseq
        (fun _ _ hs => hs) (fun _ _ hs => hs)
        (fun _ _ hs => ⟨fun f hf hlength _ => hs.1 f hf hlength, hs.2⟩))
      intro existing
      apply Meets.bind (Does.ensure (Q := fun _ s => (ReadFrom known hex existing s ∧
        existing.fingerprint = fp) ∧ Idle c s)
        (fun s hsame hs => ⟨⟨hs.1, beq_iff_eq.mp hsame⟩, hs.2⟩) ?_)
      swap
      · rintro s hfails ⟨⟨f, hdecode, hfound⟩, hidle⟩
        refine ⟨?_, hidle⟩
        rintro g hg - ⟨o, rfl⟩
        rw [hfound.known _ hg, decodeRecord_completed hfp o] at hdecode
        obtain rfl := Option.some.inj hdecode
        simp [JournalRecord.completed] at hfails
      intro _
      apply Meets.pure
      intro s _ hs
      exact hs
    | notExist | io => exact .throw fun s _ hs => hs

/-- The mutex of the journal does not concern the files. -/
theorem locked_does {α : Type} (hc : c ≠ 0) {P : System → Prop} {body : Work α}
    {Q : α → System → Prop} {E : Err → System → Prop} (hP : Stays r c P) (hsteady : Steady P)
    (hQ : ∀ a, Stays r c (Q a) ∧ Steady (Q a)) (hE : ∀ e, Stays r c (E e) ∧ Steady (E e))
    (hbody : Does r c P body Q E) : Does r c P (locked body) Q E := by
  apply Meets.bind (Does.glance (o := .lockMutex) hc trivial hP hsteady)
  intro _
  apply Does.deferred hbody
  · intro answer
    cases answer with
    | ok a => exact Does.glance (o := .unlockMutex) hc trivial (hQ a).1 (hQ a).2
    | error e => exact Does.glance (o := .unlockMutex) hc trivial (hE e).1 (hE e).2

theorem steady_claimedAs (known : Option File) (hex fp : String) (lease : Bool)
    (record : JournalRecord) : Steady (ClaimedAs c known hex fp lease record) := by
  cases lease with
  | true =>
    intro s s' h hs
    exact ⟨steady_held hex _ s s' h hs.1, hs.2⟩
  | false =>
    intro s s' h hs
    exact ⟨hs.1.lasts s s' h.lasts, hs.2⟩

/-- **`Claim` among others.** -/
theorem claim_does (hc : c ≠ 0) (known : Option File) (fp : String)
    (hname : recordName executionID = .record hex) :
    Does r c (fun s => KnownRecord known hex s ∧ Idle c s) (claim executionID fp)
      (fun answer s => digestPattern fp = true ∧
        ClaimedAs c known hex fp answer.1 answer.2 s ∧ Idle c s)
      (fun _ s => (digestPattern executionID = true → digestPattern fp = true →
        Refused c known fp s) ∧ Idle c s) := by
  have hstart : Stays r c fun s => KnownRecord known hex s ∧ Idle c s :=
    (stays_of_lasts KnownRecord.lasts).and stays_idle
  apply Meets.bind (Does.ensure (Q := fun _ s => digestPattern fp = true ∧
    KnownRecord known hex s ∧ Idle c s)
    (fun s hpatterns hs => ⟨(Bool.and_eq_true _ _ ▸ hpatterns).2, hs⟩) ?_)
  swap
  · intro s hfails hs
    refine ⟨fun hid hfp => ?_, hs.2⟩
    rw [hid, hfp] at hfails
    cases hfails
  intro _
  apply Meets.assume (digestPattern fp = true) (fun _ _ hs => hs.1)
  intro hfp
  have hlocked := locked_does (r := r) hc hstart
    ((steady_of_lasts KnownRecord.lasts).and steady_idle)
    (fun answer : Bool × JournalRecord =>
      ⟨(stays_claimedAs known hex fp answer.1 answer.2).and stays_idle,
      (steady_claimedAs known hex fp answer.1 answer.2).and steady_idle⟩)
    (fun _ => ⟨(stays_of_lasts Refused.lasts).and stays_idle,
      (steady_of_lasts Refused.lasts).and steady_idle⟩)
    (claimRecord_does hc known hname hfp)
  exact hlocked.conseq (fun _ _ hs => hs.2) (fun _ _ hs => ⟨hfp, hs⟩)
    (fun _ _ hs => ⟨fun _ _ => hs.1, hs.2⟩)

/-! ## Complete -/

/-- The temporary name is this call's, or there is nothing under it any more. -/
def Spare (c k : Nat) (s : System) : Prop :=
  .temporary k ∈ s.journal.names ∧ ((s.journal.slot (.temporary k)).opener = c ∨
    ((s.journal.slot (.temporary k)).opener = 0 ∧ s.journal.now (.temporary k) = none))

/-- The temporary file is open in this call. -/
def Draft (c k : Nat) (f : File) (s : System) : Prop :=
  .temporary k ∈ s.journal.names ∧ Fs.Open c s.journal (.temporary k) f

/-- It has been flushed. -/
def FlushedDraft (c k : Nat) (f : File) (s : System) : Prop :=
  .temporary k ∈ s.journal.names ∧ (s.journal.slot (.temporary k)).present = [some f] ∧
    (s.journal.slot (.temporary k)).opener = c

theorem Draft.spare (h : Draft c k f s) : Spare c k s := ⟨h.1, .inl h.2.opener⟩

theorem FlushedDraft.spare (h : FlushedDraft c k f s) : Spare c k s :=
  ⟨h.1, .inl h.2.2⟩

theorem stays_spare (k : Nat) : Stays r c (Spare c k) := by
  apply stays_of_frame
  rintro s s' hframe ⟨hmem, hs⟩
  have hslot := hframe.temporary k hmem (hs.imp_right And.left)
  refine ⟨hframe.names _ hmem, ?_⟩
  rw [hslot.opener, Fs.now, hslot.now]
  exact hs

theorem stays_draft (k : Nat) (f : File) : Stays r c (Draft c k f) := by
  apply stays_of_frame
  rintro s s' hframe ⟨hmem, hopen⟩
  have hslot := hframe.temporary k hmem (.inl hopen.opener)
  exact ⟨hframe.names _ hmem, hslot.now.trans hopen.now, hslot.opener.trans hopen.opener⟩

theorem stays_flushedDraft (k : Nat) (f : File) : Stays r c (FlushedDraft c k f) := by
  apply stays_of_frame
  rintro s s' hframe ⟨hmem, hpresent, hopener⟩
  have hslot := hframe.temporary k hmem (.inl hopener)
  exact ⟨hframe.names _ hmem, hslot.present.trans hpresent, hslot.opener.trans hopener⟩

/-- The claim of a call that has an outcome to put in its place. -/
structure Completing (r : Runner) (c : Nat) (hex fp : String) (o : Outcome) (s : System) :
    Prop where
  held : Held c hex (JournalRecord.claimed fp).file s
  short : o.Short
  backed : r.Backed s o

theorem stays_completing (hex fp : String) (o : Outcome) : Stays r c (Completing r c hex fp o) :=
  fun s s' h hs => ⟨stays_held hex _ s s' h hs.held, hs.short,
    hs.backed.mono (frame_of_interferes h).lasts⟩

theorem steady_completing (hex fp : String) (o : Outcome) : Steady (Completing r c hex fp o) :=
  fun s s' h hs => ⟨steady_held hex _ s s' h hs.held, hs.short, hs.backed.mono h.lasts⟩

/-- What is done to a temporary file does not concern the claim. -/
theorem Completing.aside {o : Outcome} (h : Completing r c hex fp o s) {f : Slot → Slot}
    {failed : Bool}
    (hlasts : Lasts s
      (System.note c failed { s with journal := s.journal.modify (.temporary k) f })) :
    Completing r c hex fp o (System.note c failed
      { s with journal := s.journal.modify (.temporary k) f }) := by
  refine ⟨?_, h.short, h.backed.mono hlasts⟩
  have hslot :
      (s.journal.modify (.temporary k) f).slot (.record hex) = s.journal.slot (.record hex) :=
    Fs.modify_slot_of_ne _ _ (fun h => nomatch h)
  have hheld := h.held
  rw [Held, Fs.outcomes, ← hslot] at hheld
  exact hheld

theorem closeCompletion_does (hc : c ≠ 0) (k : Nat) :
    Does r c (Spare c k) (closeCompletion (.temporary k)) (fun _ => Spare c k) E := by
  apply Meets.bind (close_does hc (.temporary k) (stays_spare k) fun _ _ hs => hs)
  intro _
  exact .pure fun s _ hs => hs

/-- A step on the temporary file that gives it up when it fails. -/
theorem giveUp_does (hc : c ≠ 0) {done : Bool} {message : String} {P : System → Prop} :
    Does r c (fun s => if done then P s else Spare c k s)
      (unlessDone done (closeCompletion (.temporary k)) message) (fun _ => P)
      (fun _ => Spare c k) := by
  apply unlessDone_does
  · rintro rfl
    exact fun s hs => hs
  · rintro rfl
    exact closeCompletion_does hc k

/-- The name of a record holds this outcome. -/
def Complete (hex fp : String) (o : Outcome) (s : System) : Prop :=
  digestPattern fp = true ∧
    s.journal.now (.record hex) = some (JournalRecord.completed fp o).file

theorem Complete.lasts {o : Outcome} :
    ∀ s s', Lasts s s' → Complete hex fp o s → Complete hex fp o s' :=
  fun _ _ hlasts hs => ⟨hs.1, hlasts.finished hex _ hs.2 ⟨fp, o, hs.1, rfl⟩⟩

theorem commitRecord_does (hc : c ≠ 0) (k : Nat) (hex : String) (o : Outcome)
    (hfp : digestPattern fp = true) :
    Does r c (fun s => Completing r c hex fp o s ∧ Draft c k ⟨0o600, []⟩ s)
      (commitRecord (.record hex) (.temporary k) (.completed fp o))
      (fun _ s => Complete hex fp o s ∧ Spare c k s) (fun _ => Spare c k) := by
  have hclaim := stays_completing (r := r) (c := c) hex fp o
  have hempty := hclaim.and (stays_draft k ⟨0o600, []⟩)
  apply Meets.bind (S := fun guarded s => if guarded then
    Completing r c hex fp o s ∧ Draft c k ⟨0o600, []⟩ s else Spare c k s)
  · apply Does.step hc hempty
    · intro s _ _
      exact trivial
    · intro s answer s' _ hs happly hlasts
      obtain ⟨fs', failed, happly, -, -, rfl⟩ := happly
      obtain ⟨rfl, rfl⟩ | ⟨rfl, rfl⟩ := happly
      · exact ⟨hs.1.aside hlasts, mem_names_modify hs.2.1, hs.2.2.chmod 0o600⟩
      · exact hs.2.spare
  intro guarded
  apply Meets.bind (giveUp_does hc)
  intro _
  have hdraft := hclaim.and (stays_draft k (JournalRecord.completed fp o).file)
  apply Meets.bind (S := fun written s => if written then
    Completing r c hex fp o s ∧ Draft c k (JournalRecord.completed fp o).file s else Spare c k s)
  · apply Does.step hc hempty
    · intro s _ _
      exact trivial
    · intro s answer s' _ hs happly hlasts
      obtain ⟨fs', failed, happly, -, -, rfl⟩ := happly
      obtain ⟨rfl, rfl⟩ | ⟨rfl, j, -, rfl⟩ := happly
      · exact ⟨hs.1.aside hlasts, mem_names_modify hs.2.1, hs.2.2.append _⟩
      · exact ⟨mem_names_modify hs.2.1, .inl (hs.2.2.append _).opener⟩
  intro written
  apply Meets.bind (giveUp_does hc)
  intro _
  have hflushed := hclaim.and (stays_flushedDraft k (JournalRecord.completed fp o).file)
  apply Meets.bind (S := fun synced s => if synced then
    Completing r c hex fp o s ∧ FlushedDraft c k (JournalRecord.completed fp o).file s
    else Spare c k s)
  · apply Does.step hc hdraft
    · intro s _ _
      exact trivial
    · intro s answer s' _ hs happly hlasts
      obtain ⟨fs', failed, happly, -, -, rfl⟩ := happly
      obtain ⟨rfl, rfl⟩ | ⟨rfl, rfl⟩ := happly
      · refine ⟨hs.1.aside hlasts, mem_names_modify hs.2.1, ?_, hs.2.2.flush.opener⟩
        show ((s.journal.modify (.temporary k) (Slot.flush c)).slot (.temporary k)).present = _
        rw [Fs.modify_slot_self]
        exact present_flush hs.2.2.now hs.2.2.opener
      · exact hs.2.spare
  intro synced
  apply Meets.bind (giveUp_does hc)
  intro _
  apply Meets.bind (close_does hc (.temporary k) hflushed fun _ _ hs =>
    ⟨⟨hs.1.held, hs.1.short, hs.1.backed.mono (lasts_note c _ _)⟩, hs.2⟩)
  intro closed
  apply Meets.bind (Does.ensure (Q := fun _ s => Completing r c hex fp o s ∧
    FlushedDraft c k (JournalRecord.completed fp o).file s) (fun s _ hs => hs)
    (fun s _ hs => hs.2.spare))
  intro _
  have hcomplete : Stays r c (Complete hex fp o) := stays_of_lasts Complete.lasts
  have hdone := hcomplete.and (stays_spare k)
  apply Meets.bind (S := fun renamed s => if renamed then Complete hex fp o s ∧ Spare c k s
    else Spare c k s)
  · apply Does.step hc hflushed
    · intro s _ hs
      exact ⟨k, hex, fp, o, rfl, rfl, hfp, hs.2.2.1, hs.2.2.2, hs.1.held.opened, hs.1.short,
        hs.1.backed⟩
    · intro s answer s' _ hs happly _
      have hne : JournalName.record hex ≠ .temporary k := fun h => by cases h
      obtain ⟨fs', failed, happly, -, -, rfl⟩ := happly
      obtain ⟨rfl, -, rfl⟩ | ⟨rfl, rfl⟩ := happly
      · refine ⟨⟨hfp, ?_⟩, ?_, .inr ?_⟩
        · show ((s.journal.rename (.temporary k) (.record hex)).slot (.record hex)).now = _
          rw [Fs.rename_slot_target _ hne]
          exact now_of_present hs.2.2.1
        · exact mem_names_modify (mem_names_modify hs.2.1)
        · show ((s.journal.rename (.temporary k) (.record hex)).slot (.temporary k)).opener = 0 ∧
            ((s.journal.rename (.temporary k) (.record hex)).slot (.temporary k)).now = none
          rw [Fs.rename_slot_source _ hne.symm]
          exact ⟨rfl, rfl⟩
      · exact hs.2.spare
  intro renamed
  apply Meets.bind (S := fun _ s => Complete hex fp o s ∧ Spare c k s)
  · cases renamed with
    | true => exact .ensure (fun s _ hs => hs) (fun s h _ => Bool.noConfusion h)
    | false => exact .ensure (fun s h _ => Bool.noConfusion h) (fun s _ hs => hs)
  intro _
  have hsteady : Steady fun s => Complete hex fp o s ∧ Spare c k s := by
    intro s s' h hs
    rw [Complete, Spare, h.journal]
    exact hs
  have hsync := syncJournal_does (r := r) hc hdone hsteady
    (Q := fun s => Complete hex fp o s ∧ Spare c k s) (fun s hs => hs) (fun _ _ hs => hs)
    (fun _ _ hs => hs)
  exact hsync.conseq (fun _ _ hs => hs) (fun _ _ hs => hs)
    (fun _ _ hs => hs.elim And.right And.right)

/-- The deferred removal of the temporary file. -/
theorem removeSpare_does (hc : c ≠ 0) (k : Nat) {P : System → Prop}
    (hP : ∀ s s', Lasts s s' → P s → P s') :
    Does r c (fun s => P s ∧ Spare c k s) (perform (.journal (.remove (.temporary k)))) (fun _ => P)
      E := by
  apply Does.step hc ((stays_of_lasts hP).and (stays_spare k))
  · intro s _ hs
    exact hs.2.2.symm.imp_left And.right
  · intro s answer s' _ hs _ hlasts
    exact hP s s' hlasts hs.1

theorem completeRecord_does (hc : c ≠ 0) (o : Outcome)
    (hname : recordName executionID = .record hex) (hfp : digestPattern fp = true) :
    Does r c (Completing r c hex fp o) (completeRecord executionID fp o)
      (fun _ => Complete hex fp o) (fun _ _ => True) := by
  have hclaim := stays_completing (r := r) (c := c) hex fp o
  rw [completeRecord, hname]
  have hread : Does r c (Completing r c hex fp o) (readJournalRecord (.record hex))
      (fun _ => Completing r c hex fp o) (fun _ => Completing r c hex fp o) :=
    (readJournalRecord_keeps hc none hex hclaim (steady_completing hex fp o)).conseq
      (fun _ _ hs => ⟨(fun _ hf => nomatch hf), hs⟩) (fun _ _ hs => hs.2) (fun _ _ hs => hs.2)
  apply Meets.bind (Meets.attempt hread)
  intro existing
  apply Meets.conseq (P := Completing r c hex fp o) _ _ (fun _ _ hs => hs) (fun _ _ hs => hs)
  swap
  · intro s _ hs
    cases existing with
    | ok record => exact hs
    | error err => exact hs
  apply Meets.bind (Does.ensure (Q := fun _ => Completing r c hex fp o) (fun s _ hs => hs)
    (fun _ _ _ => trivial))
  intro _
  apply Meets.bind (S := fun answer s => ∀ n, answer = some n →
    ∃ k, n = .temporary k ∧ Completing r c hex fp o s ∧ Draft c k ⟨0o600, []⟩ s)
  · apply Does.step hc hclaim
    · intro s _ _ n hn
      exact hn
    · intro s answer s' _ hs happly hlasts n hn
      obtain ⟨fs', failed, happly, -, -, rfl⟩ := happly
      obtain ⟨m, hkind, -, rfl, rfl⟩ | ⟨rfl, rfl⟩ := happly
      · obtain rfl := Option.some.inj hn
        cases m with
        | record hex => exact hkind.elim
        | temporary k =>
          refine ⟨k, rfl, hs.aside hlasts, ?_, Fs.open_create 0o600⟩
          exact mem_names_self
      · cases hn
  intro answer
  cases answer with
  | none => exact .throw fun _ _ _ => trivial
  | some n =>
    apply Meets.conseq (P := fun s => ∃ k, n = .temporary k ∧ Completing r c hex fp o s ∧
      Draft c k ⟨0o600, []⟩ s) _ (fun s _ hs => hs n rfl) (fun _ _ hs => hs) (fun _ _ hs => hs)
    apply Meets.choose
    intro k
    apply Meets.assume (n = .temporary k) (fun _ _ hs => hs.1)
    rintro rfl
    have hbody := commitRecord_does (r := r) hc k hex o hfp
    apply Does.deferred (hbody.pre fun _ _ hs => hs.2)
    · intro result
      cases result with
      | ok _ => exact removeSpare_does hc k Complete.lasts
      | error err =>
        exact (removeSpare_does hc k (P := fun _ => True) fun _ _ _ _ => trivial).pre
          fun _ _ hs => ⟨trivial, hs⟩

/-- **`Complete` among others.** -/
theorem complete_does (hc : c ≠ 0) (o : Outcome) (hname : recordName executionID = .record hex)
    (hfp : digestPattern fp = true) :
    Does r c (Completing r c hex fp o) (complete executionID fp o)
      (fun _ => Complete hex fp o) (fun _ _ => True) :=
  locked_does hc (stays_completing hex fp o) (steady_completing hex fp o)
    (fun _ => ⟨stays_of_lasts Complete.lasts, steady_of_lasts Complete.lasts⟩)
    (fun _ => ⟨stays_true, fun _ _ _ _ => trivial⟩) (completeRecord_does hc o hname hfp)

end TosAi.SoftwareWork
