/-
  What the parts of the methods do to the files, whatever fails and wherever the
  process dies.

  `Keeps N s t` is the frame: of the site only files of `N` have changed.  Each part has
  one specification: the states on the way, the end, and the errors.
-/
import TosAi.PrivateIngress.System

set_option autoImplicit false

namespace TosAi.PrivateIngress

open Foundation
open Foundation.Json (Bytes)

variable {P : Protocol} {F : Faults P} {c : Nat} {s t u : Site} {I : Site → Prop}

/-- No operation fails. -/
def Sane (F : Faults P) : Prop := ∀ o s answer, F o s answer → o.healthy P s answer

theorem sane_healthy : Sane (Op.healthy P) := fun _ _ _ h => h

/-! ## Frames -/

/-- Of the site only files of `N` have changed. -/
structure Keeps (N : FileName → Prop) (s t : Site) : Prop where
  same : t = { s with fs := t.fs }
  still : ∀ n, ¬N n → Fs.Still n s.fs t.fs

namespace Keeps

variable {N N' : FileName → Prop}

theorem refl (s : Site) : Keeps N s s := ⟨rfl, fun n _ => .refl n _⟩

theorem trans (h : Keeps N s t) (h' : Keeps N t u) : Keeps N s u := by
  refine ⟨?_, fun n hn => (h.still n hn).trans (h'.still n hn)⟩
  rw [h'.same, h.same]

theorem mono (h : Keeps N s t) (hsub : ∀ n, N n → N' n) : Keeps N' s t :=
  ⟨h.same, fun n hn => h.still n fun hmem => hn (hsub n hmem)⟩

theorem syncDir (s : Site) : Keeps N s { s with fs := s.fs.syncDir } :=
  ⟨rfl, fun n _ => .syncDir n _⟩

end Keeps

theorem keeps_file {o : FsOp FileName} {answer : o.Res} (h : (Op.file o).apply P c s answer t) :
    Keeps o.alters s t := by
  obtain ⟨fs', hop, rfl⟩ := h
  exact ⟨rfl, fun n hn => FsOp.still hop hn⟩

/-! ## Syncing the directory -/

variable {n : FileName} {raw : Bytes} {hex random : String} {E : Err → Site → Prop}

/-- An operation that leaves the site alone. -/
theorem survives_ask {o : Op} (hI : I s) (hsame : ∀ answer t, o.apply P c s answer t → t = s) :
    Survives (behave F c) I (perform o) s (fun _ t => t = s) E := by
  refine .perform hI ?_
  intro answer t ⟨hop, _⟩
  obtain rfl := hsame answer t hop
  exact ⟨hI, rfl⟩

theorem survives_syncPrivateDirectory (hI : I s) (hsynced : I { s with fs := s.fs.syncDir }) :
    Survives (behave F c) I (syncPrivateDirectory : Ingress P Unit) s
      (fun _ t => t = { s with fs := s.fs.syncDir })
      (fun _ t => t = s ∨ t = { s with fs := s.fs.syncDir }) := by
  unfold syncPrivateDirectory
  refine .bind (survives_ask hI fun _ _ h => h) ?_
  intro opened t _ hsame
  subst hsame
  refine .bind (R := fun _ u => u = t) (.ensure hI (fun _ => rfl) fun _ => .inl rfl) ?_
  intro _ u _ hsame
  subst hsame
  refine .bind (R := fun synced v => (v = u ∨ v = { u with fs := u.fs.syncDir }) ∧
      (synced = true → v = { u with fs := u.fs.syncDir })) (.perform hI ?_) ?_
  · intro synced v ⟨hop, _⟩
    obtain ⟨fs', ⟨rfl, rfl⟩ | ⟨rfl, rfl⟩, rfl⟩ := hop
    · exact ⟨hsynced, .inr rfl, fun _ => rfl⟩
    · exact ⟨hI, .inl rfl, fun h => Bool.noConfusion h⟩
  intro synced v hIv ⟨heither, hdone⟩
  refine .bind (survives_ask hIv fun _ _ h => h) ?_
  intro closed x _ hsame
  subst hsame
  refine .ensure hIv (fun hall => ?_) fun _ => heither
  rw [Bool.and_eq_true] at hall
  exact hdone hall.1

/-! ## Writing a new file -/

theorem survives_createFile (hI : I s)
    (hcreated : s.fs.now n = none → I { s with fs := s.fs.modify n (Slot.create c 0o600) }) :
    Survives (behave F c) I (createFile n : Ingress P Unit) s
      (fun _ t => s.fs.now n = none ∧ t = { s with fs := s.fs.modify n (Slot.create c 0o600) })
      (fun _ t => t = s) := by
  unfold createFile
  refine .bind (R := fun answer t =>
      (answer = .ok () → s.fs.now n = none ∧
        t = { s with fs := s.fs.modify n (Slot.create c 0o600) }) ∧
      (answer ≠ .ok () → t = s)) (.perform hI ?_) ?_
  · intro answer t ⟨hop, _⟩
    obtain ⟨fs', ⟨hfree, rfl, rfl⟩ | ⟨_, rfl, rfl⟩ | ⟨rfl, rfl⟩, rfl⟩ := hop
    · exact ⟨hcreated hfree, fun _ => ⟨hfree, rfl⟩, fun h => absurd rfl h⟩
    · exact ⟨hI, (fun h => nomatch h), fun _ => rfl⟩
    · exact ⟨hI, (fun h => nomatch h), fun _ => rfl⟩
  intro answer t hIt ⟨hok, hfailed⟩
  cases answer with
  | ok value => exact .pure hIt (hok rfl)
  | error e => exact .throw hIt (hfailed fun h => nomatch h)

/-- Some of the bytes are in the file, which call `c` has created. -/
structure Partly (c : Nat) (n : FileName) (raw : Bytes) (s t : Site) : Prop where
  keeps : Keeps (· = n) s t
  «open» : ∃ k, t.fs.Open c n ⟨0o600, raw.take k⟩

/-- All of them are, and on the disk. -/
structure Wholly (c : Nat) (n : FileName) (raw : Bytes) (t : Site) : Prop where
  «open» : t.fs.Open c n ⟨0o600, raw⟩
  loose : (t.fs.slot n).loose = []

theorem Partly.created (raw : Bytes) :
    Partly c n raw s { s with fs := s.fs.modify n (Slot.create c 0o600) } where
  keeps := ⟨rfl, fun _ hm => .modify_of_ne hm⟩
  «open» := ⟨0, Fs.open_create 0o600⟩

theorem survives_writeSynced (hopen : s.fs.Open c n ⟨0o600, []⟩)
    (hI : ∀ t, Partly c n raw s t → I t) :
    Survives (behave F c) I (writeSynced n raw : Ingress P Bool) s
      (fun ok t => Partly c n raw s t ∧ (ok = true → Wholly c n raw t)) E := by
  unfold writeSynced
  have hstart : Partly c n raw s s := ⟨.refl s, 0, hopen⟩
  refine .bind (R := fun written t => Partly c n raw s t ∧
      (written = true → t.fs.Open c n ⟨0o600, raw⟩)) (.perform (hI s hstart) ?_) ?_
  · rintro written t ⟨hop, -⟩
    have hkeeps : Keeps (· = n) s t := keeps_file hop
    obtain ⟨fs', ⟨rfl, rfl⟩ | ⟨rfl, k, -, rfl⟩, rfl⟩ := hop
    · have hall := hopen.append raw
      have hpartly : Partly c n raw s { s with fs := s.fs.modify n (Slot.append c raw) } :=
        ⟨hkeeps, raw.length, by simpa using hall⟩
      exact ⟨hI _ hpartly, hpartly, fun _ => hall⟩
    · have hsome := hopen.append (raw.take k)
      have hpartly : Partly c n raw s
          { s with fs := s.fs.modify n (Slot.append c (raw.take k)) } := ⟨hkeeps, k, hsome⟩
      exact ⟨hI _ hpartly, hpartly, fun h => Bool.noConfusion h⟩
  rintro written t hIt ⟨hpartly, hwritten⟩
  refine .bind (R := fun synced u => Partly c n raw s u ∧ (synced = true → Wholly c n raw u)) ?_ ?_
  · cases written with
    | false => exact .pure hIt ⟨hpartly, fun h => Bool.noConfusion h⟩
    | true =>
      refine .perform hIt ?_
      rintro synced u ⟨hop, -⟩
      have hkeeps := hpartly.keeps.trans (keeps_file hop)
      obtain ⟨fs', ⟨rfl, rfl⟩ | ⟨rfl, rfl⟩, rfl⟩ := hop
      · have hflushed := (hwritten rfl).flush
        have hpartly' : Partly c n raw s { t with fs := t.fs.modify n (Slot.flush c) } :=
          ⟨hkeeps, raw.length, by simpa using hflushed⟩
        refine ⟨hI _ hpartly', hpartly', fun _ => ⟨hflushed, ?_⟩⟩
        simp [Slot.flush, (hwritten rfl).opener]
      · exact ⟨hIt, hpartly, fun h => Bool.noConfusion h⟩
  rintro synced u hIu ⟨hpartly', hsynced⟩
  refine .bind (survives_ask hIu ?_) ?_
  · intro _ v hop
    obtain ⟨fs', rfl, rfl⟩ := hop
    rfl
  intro closed v _ hsame
  subst hsame
  refine .pure hIu ⟨hpartly', fun hall => ?_⟩
  rw [Bool.and_eq_true] at hall
  exact hsynced hall.1

/-- The file is as it was, or it is new and has some of the bytes. -/
structure Creating (n : FileName) (raw : Bytes) (s t : Site) : Prop where
  keeps : Keeps (· = n) s t
  either : Fs.Still n s.fs t.fs ∨
    s.fs.now n = none ∧ ∃ k, t.fs.now n = some ⟨0o600, raw.take k⟩

/-- The file is new and has all of them. -/
structure Created (n : FileName) (raw : Bytes) (s t : Site) : Prop where
  keeps : Keeps (· = n) s t
  free : s.fs.now n = none
  now : t.fs.now n = some ⟨0o600, raw⟩
  loose : (t.fs.slot n).loose = []

theorem Creating.refl (s : Site) : Creating n raw s s :=
  ⟨.refl s, .inl (.refl n _)⟩

theorem Creating.of_partly (hfree : s.fs.now n = none) (h : Partly c n raw s t) :
    Creating n raw s t := by
  obtain ⟨k, hopen⟩ := h.open
  exact ⟨h.keeps, .inr ⟨hfree, k, hopen.now⟩⟩

/-- What holds of some contents holds of them after a sync. -/
theorem Creating.syncDir (h : Creating n raw s t) :
    Creating n raw s { t with fs := t.fs.syncDir } where
  keeps := h.keeps.trans (.syncDir t)
  either := h.either.imp (fun hstill => hstill.trans (.syncDir n _)) id

/-- **`createPrivate` creates the file or leaves it**, but may leave part of it. -/
theorem survives_createPrivate (n : FileName) (raw : Bytes) :
    Survives (behave F c) (Creating n raw s) (createPrivate n raw : Ingress P Unit) s
      (fun _ t => Created n raw s t) (fun _ _ => True) := by
  unfold createPrivate
  refine .bind (.conseq (survives_createFile (.refl s) fun hfree => .of_partly hfree (.created raw))
    (fun _ _ h => h) fun _ _ _ => trivial) ?_
  intro _ t₁ _ ⟨hfree, hsame⟩
  have hstart : Partly c n raw s t₁ := hsame ▸ .created raw
  have hopen : t₁.fs.Open c n ⟨0o600, []⟩ := hsame ▸ Fs.open_create 0o600
  have hway : ∀ t, Partly c n raw t₁ t → Partly c n raw s t :=
    fun t h => ⟨hstart.keeps.trans h.keeps, h.open⟩
  refine .bind (survives_writeSynced hopen fun t h => .of_partly hfree (hway t h)) ?_
  intro ok t₂ hI₂ ⟨hpartly, hwholly⟩
  refine .bind (R := fun _ t => t = t₂ ∧ ok = true)
    (.ensure hI₂ (fun h => ⟨rfl, h⟩) fun _ => trivial) ?_
  intro _ t₃ _ ⟨hsame₃, hok⟩
  subst hsame₃
  have hwhole := hwholly hok
  refine .conseq (survives_syncPrivateDirectory hI₂ hI₂.syncDir) ?_ fun _ _ _ => trivial
  intro _ t hsynced
  subst hsynced
  exact ⟨hI₂.syncDir.keeps, hfree, hwhole.open.now, hwhole.loose⟩

/-! ## Replacing a record -/

/-- The record of a name and its temporary files. -/
def Rewrites (hex : String) (n : FileName) : Prop :=
  n = .challenge hex ∨ ∃ random, n = .temporary hex random

/-- The record is new.  A power loss leaves it or what it could leave before. -/
structure Rewritten (hex : String) (raw : Bytes) (s t : Site) : Prop where
  now : t.fs.now (.challenge hex) = some ⟨0o600, raw⟩
  loose : (t.fs.slot (.challenge hex)).loose = []
  outcomes : ∀ o ∈ t.fs.outcomes (.challenge hex),
    o = some ⟨0o600, raw⟩ ∨ o ∈ s.fs.outcomes (.challenge hex)

/-- The record is as it was, or new. -/
structure Replacing (hex : String) (raw : Bytes) (s t : Site) : Prop where
  keeps : Keeps (Rewrites hex) s t
  either : Fs.Still (.challenge hex) s.fs t.fs ∨ Rewritten hex raw s t

/-- The record is new, and on the disk. -/
structure Replaced (hex : String) (raw : Bytes) (s t : Site) : Prop where
  keeps : Keeps (Rewrites hex) s t
  rewritten : Rewritten hex raw s t
  settled : t.fs.outcomes (.challenge hex) = [some ⟨0o600, raw⟩]

theorem Replacing.of_temporary (h : Keeps (· = .temporary hex random) s t) :
    Replacing hex raw s t where
  keeps := h.mono fun _ hn => .inr ⟨random, hn⟩
  either := .inl (h.still _ fun h => nomatch h)

theorem Rewritten.syncDir (h : Rewritten hex raw s t) :
    Rewritten hex raw s { t with fs := t.fs.syncDir } where
  now := h.now
  loose := h.loose
  outcomes := fun o ho => h.outcomes o (Slot.mem_outcomes_settle ho)

theorem Rewritten.settled (h : Rewritten hex raw s t) :
    (t.fs.syncDir).outcomes (.challenge hex) = [some ⟨0o600, raw⟩] := by
  have hnow : (t.fs.slot (.challenge hex)).now = some ⟨0o600, raw⟩ := h.now
  simp [Fs.outcomes, Slot.outcomes, Slot.settle, Slot.present, hnow, h.loose]

/-- The temporary file takes the place of the record. -/
theorem rewritten_rename (hwhole : Wholly c (.temporary hex random) raw s) :
    Rewritten hex raw s
      { s with fs := s.fs.rename (.temporary hex random) (.challenge hex) } := by
  have hslot := s.fs.rename_slot_target
    (show FileName.challenge hex ≠ .temporary hex random from fun h => nomatch h)
  have hnow : (s.fs.slot (.temporary hex random)).now = some ⟨0o600, raw⟩ := hwhole.open.now
  refine ⟨?_, ?_, fun o ho => ?_⟩
  · rw [Fs.now, hslot]
    exact hnow
  · rw [hslot]
    exact hwhole.loose
  · rw [Fs.outcomes, hslot] at ho
    refine (Slot.mem_outcomes_replace ho).imp_left fun hpresent => ?_
    simpa [Slot.present, hnow, hwhole.loose] using hpresent

theorem survives_randomName (hI : I s) :
    Survives (behave F c) I (randomName : Ingress P String) s (fun _ t => t = s)
      (fun _ _ => True) := by
  unfold randomName
  refine .bind (survives_ask hI fun _ _ h => h) ?_
  intro answer t _ hsame
  subst hsame
  cases answer with
  | some random => exact .pure hI rfl
  | none => exact .throw hI trivial

theorem survives_discardUnless {ok : Bool} {Q : Unit → Site → Prop}
    (hI : ∀ t, Keeps (· = n) s t → I t) (hok : ok = true → Q () s) :
    Survives (behave F c) I (discardUnless ok n : Ingress P Unit) s Q (fun _ _ => True) := by
  unfold discardUnless
  cases ok with
  | true => exact .pure (hI s (.refl s)) (hok rfl)
  | false =>
    refine .bind (R := fun _ t => Keeps (· = n) s t) (.perform (hI s (.refl s)) ?_) ?_
    · intro _ t ⟨hop, _⟩
      have hkeeps : Keeps (· = n) s t := keeps_file hop
      exact ⟨hI t hkeeps, hkeeps⟩
    intro _ t hIt _
    exact .throw hIt trivial

/-- **`replacePrivate` replaces the record or leaves it.** -/
theorem survives_replacePrivate (hex : String) (raw : Bytes) :
    Survives (behave F c) (Replacing hex raw s) (replacePrivate hex raw : Ingress P Unit) s
      (fun _ t => Replaced hex raw s t) (fun _ _ => True) := by
  unfold replacePrivate
  have hstart : Replacing hex raw s s :=
    .of_temporary (Keeps.refl (N := (· = FileName.temporary hex "")) s)
  refine .bind (survives_randomName hstart) ?_
  intro random t₀ _ hsame
  subst hsame
  have hway : ∀ t, Keeps (· = .temporary hex random) t₀ t → Replacing hex raw t₀ t :=
    fun t h => .of_temporary h
  refine .bind (.conseq (survives_createFile hstart fun _ =>
    hway _ (Partly.created (c := c) raw).keeps) (fun _ _ h => h) fun _ _ _ => trivial) ?_
  intro _ t₁ _ ⟨_, hsame⟩
  have hpartly₁ : Partly c (.temporary hex random) raw t₀ t₁ := hsame ▸ .created raw
  have hopen : t₁.fs.Open c (.temporary hex random) ⟨0o600, []⟩ := hsame ▸ Fs.open_create 0o600
  refine .bind (survives_writeSynced hopen fun t h => hway t (hpartly₁.keeps.trans h.keeps)) ?_
  intro ok t₂ _ ⟨hpartly, hwholly⟩
  have hkeeps₂ := hpartly₁.keeps.trans hpartly.keeps
  refine .bind (R := fun _ t => t = t₂ ∧ ok = true)
    (survives_discardUnless (fun t h => hway t (hkeeps₂.trans h)) fun h => ⟨rfl, h⟩) ?_
  intro _ t₃ _ ⟨hsame₃, hok⟩
  subst hsame₃
  have hwhole := hwholly hok
  have hstill := hkeeps₂.still (.challenge hex) fun h => by cases h
  refine .bind (R := fun renamed t => Replacing hex raw t₀ t ∧
      (renamed = true → Rewritten hex raw t₀ t)) (.perform (hway t₃ hkeeps₂) ?_) ?_
  · intro renamed t ⟨hop, _⟩
    have hkeeps : Keeps (Rewrites hex) t₀ t :=
      (hkeeps₂.mono fun _ hn => .inr ⟨random, hn⟩).trans
        ((keeps_file hop).mono fun _ hn => hn.elim (fun h => .inr ⟨random, h⟩) .inl)
    obtain ⟨fs', ⟨rfl, -, rfl⟩ | ⟨rfl, rfl⟩, rfl⟩ := hop
    · have hrewritten := rewritten_rename hwhole
      have hrewritten' : Rewritten hex raw t₀
          { t₃ with fs := t₃.fs.rename (.temporary hex random) (.challenge hex) } :=
        ⟨hrewritten.now, hrewritten.loose,
          fun o ho => (hrewritten.outcomes o ho).imp_right (hstill.outcomes o)⟩
      have hreplacing : Replacing hex raw t₀
          { t₃ with fs := t₃.fs.rename (.temporary hex random) (.challenge hex) } :=
        ⟨hkeeps, .inr hrewritten'⟩
      exact ⟨hreplacing, hreplacing, fun _ => hrewritten'⟩
    · have hreplacing := hway t₃ hkeeps₂
      exact ⟨hreplacing, hreplacing, fun h => Bool.noConfusion h⟩
  intro renamed t₄ hI₄ ⟨_, hrewritten⟩
  refine .bind (R := fun _ t => t = t₄ ∧ renamed = true)
    (.ensure hI₄ (fun h => ⟨rfl, h⟩) fun _ => trivial) ?_
  intro _ t₅ _ ⟨hsame₅, htrue⟩
  subst hsame₅
  have hnew := hrewritten htrue
  have hI₅ : Replacing hex raw t₀ { t₅ with fs := t₅.fs.syncDir } :=
    ⟨hI₄.keeps.trans (.syncDir t₅), .inr hnew.syncDir⟩
  refine .conseq (survives_syncPrivateDirectory hI₄ hI₅) ?_ fun _ _ _ => trivial
  intro _ t hsynced
  subst hsynced
  exact ⟨hI₅.keeps, hnew.syncDir, hnew.settled⟩

/-! ## Reading -/

theorem survives_readFile (hI : I s) :
    Survives (behave F c) I (readFile n : Ingress P File) s
      (fun f t => t = s ∧ s.fs.now n = some f)
      (fun e t => t = s ∧ (e = .notExist → s.fs.now n = none) ∧
        (Sane F → s.fs.now n = none ∧ e = .notExist)) := by
  unfold readFile
  refine .bind
    (R := fun answer t => t = s ∧ (∀ seen, answer = .ok seen → s.fs.now n = some seen.file) ∧
      ∀ e, answer = .error e → e ≠ .exist ∧ (e = .notExist → s.fs.now n = none) ∧
        (Sane F → e ≠ .io)) (.perform hI ?_) ?_
  · intro answer t ⟨hop, hF⟩
    obtain ⟨fs', ⟨rfl, ⟨f, hnow, rfl⟩ | ⟨hnone, rfl⟩ | rfl⟩, rfl⟩ := hop
    · refine ⟨hI, rfl, ?_, (fun _ h => nomatch h)⟩
      intro seen hseen
      obtain rfl := Except.ok.inj hseen
      exact hnow
    · refine ⟨hI, rfl, (fun _ h => nomatch h), ?_⟩
      intro e he
      obtain rfl := Except.error.inj he
      exact ⟨(fun h => nomatch h), fun _ => hnone, fun _ h => nomatch h⟩
    · refine ⟨hI, rfl, (fun _ h => nomatch h), ?_⟩
      intro e he
      obtain rfl := Except.error.inj he
      exact ⟨(fun h => nomatch h), (fun h => nomatch h), fun hsane => absurd rfl (hsane _ _ _ hF)⟩
  intro answer t hIt ⟨hsame, hok, herror⟩
  cases answer with
  | ok seen => exact .pure hIt ⟨hsame, hok seen rfl⟩
  | error e =>
    obtain ⟨hexist, hnone, hio⟩ := herror e rfl
    refine .throw hIt ⟨hsame, fun he => ?_, fun hsane => ?_⟩
    · cases e with
      | exist => exact absurd rfl hexist
      | notExist => exact hnone rfl
      | io => cases he
    · cases e with
      | exist => exact absurd rfl hexist
      | notExist => exact ⟨hnone rfl, rfl⟩
      | io => exact absurd rfl (hio hsane)

/-- A reader finds the record under the name. -/
def Found (P : Protocol) (fs : Fs FileName) (hex : String) (r : Record) : Prop :=
  ∃ f, fs.now (.challenge hex) = some f ∧ readRecord P f = .ok r

theorem readRecord_ne_notExist (f : File) : readRecord P f ≠ .error .notExist := by
  unfold readRecord
  split
  · split
    · exact fun h => nomatch h
    · exact fun h => nomatch h
  · exact fun h => nomatch h

theorem survives_readChallenge (hI : I s) :
    Survives (behave F c) I (readChallenge hex : Ingress P Record) s
      (fun r t => t = s ∧ Found P s.fs hex r)
      (fun e t => t = s ∧ (e = .notExist → s.fs.now (.challenge hex) = none)) := by
  unfold readChallenge
  refine .bind (.conseq (survives_readFile hI) (fun _ _ h => h) fun _ _ h => ⟨h.1, h.2.1⟩) ?_
  intro f t hIt ⟨hsame, hnow⟩
  refine .result hIt (fun r hr => ⟨hsame, f, hnow, hr⟩) ?_
  intro e he
  refine ⟨hsame, fun hnot => ?_⟩
  exact absurd (hnot ▸ he) (readRecord_ne_notExist f)

theorem survives_findIn {digest : String} (hI : I s) (entries : List FileName) :
    Survives (behave F c) I (findIn digest entries : Ingress P (String × Record)) s
      (fun found t => t = s ∧ Found P s.fs found.1 found.2 ∧ found.2.hasDigest P digest = true)
      (fun _ t => t = s) := by
  induction entries with
  | nil => exact .throw hI rfl
  | cons entry entries ih =>
    cases entry with
    | challenge hex =>
      unfold findIn
      split
      · refine .bind (R := fun value t => t = s ∧ ∀ r, value = .ok r → Found P s.fs hex r)
          (.attempt (survives_readChallenge hI) ?_ ?_) ?_
        · intro r t ⟨hsame, hfound⟩
          refine ⟨hsame, fun r' hr' => ?_⟩
          obtain rfl := Except.ok.inj hr'
          exact hfound
        · intro e t ⟨hsame, _⟩
          exact ⟨hsame, fun _ h => nomatch h⟩
        intro value t _ ⟨hsame, hok⟩
        subst hsame
        cases value with
        | ok r =>
          dsimp only
          split
          · exact .pure hI ⟨rfl, hok r rfl, ‹_›⟩
          · exact ih
        | error e => exact ih
      · exact ih
    | temporary hex random => exact ih
    | object hex => exact ih
    | lock => exact ih

/-- **`findChallenge`** finds a record of the digest. -/
theorem survives_findChallenge {digest : String} (hI : I s) :
    Survives (behave F c) I (findChallenge digest : Ingress P (String × Record)) s
      (fun found t => t = s ∧ Found P s.fs found.1 found.2 ∧ found.2.hasDigest P digest = true)
      (fun _ t => t = s) := by
  unfold findChallenge readDirectory
  refine .bind (R := fun _ t => t = s) (.bind (survives_ask hI ?_) ?_) ?_
  · intro answer t hop
    obtain ⟨fs', ⟨rfl, _⟩, rfl⟩ := hop
    rfl
  · intro answer t _ hsame
    subst hsame
    cases answer with
    | some entries => exact .pure hI rfl
    | none => exact .throw hI rfl
  intro entries t _ hsame
  subst hsame
  refine .bind (R := fun _ u => u = t) (.ensure hI (fun _ => rfl) fun _ => rfl) ?_
  intro _ u _ hsame
  subst hsame
  exact survives_findIn hI entries

/-! ## Objects -/

/-- The object holds the content; it did before, or there was none. -/
structure Stored (n : FileName) (content : Bytes) (s t : Site) : Prop where
  keeps : Keeps (· = n) s t
  now : ∃ f, t.fs.now n = some f ∧ f.data = content
  either : s.fs.now n = none ∨ t.fs.now n = s.fs.now n

theorem survives_storeObject (n : FileName) (content : Bytes) :
    Survives (behave F c) (Creating n content s) (storeObject P n content) s
      (fun _ t => Stored n content s t) (fun _ _ => True) := by
  unfold storeObject
  refine .bind (R := fun value t => value = .ok () → Created n content s t)
    (.attempt (survives_createPrivate n content) (fun _ _ h _ => h) fun _ _ _ h => nomatch h) ?_
  intro value t hIt hok
  cases value with
  | ok value =>
    have hcreated := hok rfl
    exact .pure hIt ⟨hcreated.keeps, ⟨_, hcreated.now, rfl⟩, .inl hcreated.free⟩
  | error e =>
    have heither : s.fs.now n = none ∨ t.fs.now n = s.fs.now n :=
      hIt.either.elim (fun h => .inr h.now) fun h => .inl h.1
    refine .bind (R := fun value u => u = t ∧ ∀ f, value = .ok f → t.fs.now n = some f)
      (.attempt (survives_readFile hIt) ?_ ?_) ?_
    · intro f u ⟨hsame, hnow⟩
      refine ⟨hsame, fun f' hf' => ?_⟩
      obtain rfl := Except.ok.inj hf'
      exact hnow
    · intro _ u ⟨hsame, _⟩
      exact ⟨hsame, fun _ h => nomatch h⟩
    intro value u _ ⟨hsame, hread⟩
    subst hsame
    cases value with
    | ok f =>
      refine .ensure hIt (fun hequal => ?_) fun _ => trivial
      exact ⟨hIt.keeps, ⟨f, hread f rfl, by simpa using hequal⟩, heither⟩
    | error e' => exact .throw hIt trivial

/-- The object is as it was, or gone. -/
structure Removing (n : FileName) (s t : Site) : Prop where
  keeps : Keeps (· = n) s t
  either : t.fs.now n = s.fs.now n ∨ t.fs.now n = none

/-- The object is gone, and the directory is on the disk. -/
structure Removed (n : FileName) (s t : Site) : Prop where
  keeps : Keeps (· = n) s t
  now : t.fs.now n = none
  old : ∀ m, (t.fs.slot m).old = []

theorem Removing.syncDir (h : Removing n s t) :
    Removing n s { t with fs := t.fs.syncDir } := ⟨h.keeps.trans (.syncDir t), h.either⟩

theorem survives_removeObject (n : FileName) :
    Survives (behave F c) (Removing n s) (removeObject P n) s (fun _ t => Removed n s t)
      (fun _ _ => True) := by
  unfold removeObject
  have hstart : Removing n s s := ⟨.refl s, .inl rfl⟩
  refine .bind (R := fun removed t => Removing n s t ∧
      (removed ≠ .error .io → t.fs.now n = none)) (.perform hstart ?_) ?_
  · intro removed t ⟨hop, _⟩
    obtain ⟨-, rfl, rfl⟩ | ⟨hnone, rfl, rfl⟩ | ⟨rfl, rfl⟩ := hop
    · have hgone := s.fs.modify_unlink_now n
      have hremoving : Removing n s { s with fs := s.fs.modify n Slot.unlink } :=
        ⟨⟨rfl, fun _ hm => .modify_of_ne hm⟩, .inr hgone⟩
      exact ⟨hremoving, hremoving, fun _ => hgone⟩
    · exact ⟨hstart, hstart, fun _ => hnone⟩
    · exact ⟨hstart, hstart, fun h => absurd rfl h⟩
  intro removed t hIt ⟨_, hgone⟩
  refine .bind (R := fun _ u => u = t ∧ t.fs.now n = none)
    (.ensure hIt (fun h => ⟨rfl, hgone (by simpa using h)⟩) fun _ => trivial) ?_
  intro _ u _ ⟨hsame, hnone⟩
  subst hsame
  refine .bind (survives_ask hIt fun _ _ h => h) ?_
  intro opened v _ hsame
  subst hsame
  refine .bind (R := fun _ w => w = v) (.ensure hIt (fun _ => rfl) fun _ => trivial) ?_
  intro _ w _ hsame
  subst hsame
  refine .bind (R := fun synced x => synced = true → Removed n s x) (.perform hIt ?_) ?_
  · intro synced x ⟨hop, _⟩
    obtain ⟨fs', ⟨rfl, rfl⟩ | ⟨rfl, rfl⟩, rfl⟩ := hop
    · exact ⟨hIt.syncDir, fun _ => ⟨hIt.syncDir.keeps, hnone, fun _ => rfl⟩⟩
    · exact ⟨hIt, fun h => Bool.noConfusion h⟩
  intro synced x hIx hdone
  refine .bind (survives_ask hIx fun _ _ h => h) ?_
  intro closed y _ hsame
  subst hsame
  exact .ensure hIx hdone fun _ => trivial

end TosAi.PrivateIngress
