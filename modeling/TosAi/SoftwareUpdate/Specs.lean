/-
  What the parts of the methods do to the files, whatever fails and wherever the
  process dies.

  `Site.Keeps N s t` is the frame: only names of `N` have changed.  Each part has one
  specification: the states on the way, the end, and the errors.  An error says what it
  left behind; under `Sane` faults, of which there are none, it is excluded, and under
  `Firm` ones it leaves `state.json` as it was.
-/
import TosAi.SoftwareUpdate.System

set_option autoImplicit false

namespace TosAi.SoftwareUpdate

open Foundation
open Foundation.Json (Bytes)

/-! ## Faults -/

/-- No operation fails. -/
def Sane (F : Faults) : Prop := ∀ o s answer, F o s answer → o.healthy s answer

/-- Nothing fails once `state.json` has been replaced. -/
structure Firm (F : Faults) : Prop where
  protect : ∀ mode s, ¬F (.file (.chmod (.plain .state) mode)) s false
  openRoot : ∀ s, ¬F (.openDirectory .root) s false
  syncRoot : ∀ s, ¬F (.syncDirectory .root) s false

theorem Sane.firm {F : Faults} (h : Sane F) : Firm F where
  protect := fun mode s hfails => nomatch h (.file (.chmod (.plain .state) mode)) s false hfails
  openRoot := fun s hfails => nomatch h (.openDirectory .root) s false hfails
  syncRoot := fun s hfails => nomatch h (.syncDirectory .root) s false hfails

/-! ## Frames -/

/-- Of the site only files of `N` have changed. -/
structure Site.Keeps (N : FileName → Prop) (s t : Site) : Prop where
  owner : t.owner = s.owner
  files : Fs.Agree N s.fs t.fs

namespace Site.Keeps

variable {N N' : FileName → Prop} {s t u : Site}

theorem refl (s : Site) : s.Keeps N s := ⟨rfl, .refl _⟩

theorem trans (h : s.Keeps N t) (h' : t.Keeps N u) : s.Keeps N u :=
  ⟨h'.owner.trans h.owner, h.files.trans h'.files⟩

theorem mono (h : s.Keeps N t) (hsub : ∀ n, N n → N' n) : s.Keeps N' t :=
  ⟨h.owner, h.files.mono hsub⟩

end Site.Keeps

variable {F : Faults} {m : Nat} {s t : Site} {I : Site → Prop}

theorem keeps_file {o : FsOp FileName} {answer : o.Res} (h : (Op.file o).apply m s answer t) :
    s.Keeps o.touches t := by
  obtain ⟨fs', hop, rfl⟩ := h
  exact ⟨rfl, FsOp.agree hop⟩

/-! ## Temporary files -/

/-- Only the temporary file of an entry. -/
def Scratch (entry : Entry) (n : FileName) : Prop := n = .temporary entry

variable {entry : Entry} {E : Err → Site → Prop} {f : File} {mode : Nat}

theorem survives_remove (hI : ∀ t, s.Keeps (Scratch entry) t → I t) :
    Survives (behave F m) I (perform (.file (.remove (.temporary entry)))) s
      (fun _ t => s.Keeps (Scratch entry) t ∧ (Sane F → t.fs.now (.temporary entry) = none)) E := by
  refine .perform (hI s (.refl s)) fun answer t ⟨hop, hF⟩ => ?_
  have hkeeps : s.Keeps (Scratch entry) t := keeps_file hop
  refine ⟨hI t hkeeps, hkeeps, fun hsane => ?_⟩
  have hhealthy := hsane _ _ _ hF
  obtain ⟨fs', ⟨-, -, rfl⟩ | ⟨hfalse, rfl⟩, rfl⟩ := hop
  · exact Fs.modify_unlink_now _ _
  · have hnone : (s.fs.now (.temporary entry)).isSome = false := hhealthy.symm.trans hfalse
    simpa using hnone

theorem survives_discardUnless {ok : Bool} {err : Err} {Q : Unit → Site → Prop}
    (hI : ∀ t, s.Keeps (Scratch entry) t → I t) (hok : ok = true → Q () s)
    (herror : ok = false → ∀ t, s.Keeps (Scratch entry) t → E err t) :
    Survives (behave F m) I (discardUnless ok entry err) s Q E := by
  unfold discardUnless
  cases ok with
  | true => exact .pure (hI s (.refl s)) (hok rfl)
  | false =>
    refine .bind (survives_remove hI) fun _ t hIt ⟨hkeeps, _⟩ => ?_
    exact .throw hIt (herror rfl t hkeeps)

/-- The temporary file exists only if it was not there before. -/
theorem survives_createTemporary {message : String} (hI : ∀ t, s.Keeps (Scratch entry) t → I t) :
    Survives (behave F m) I (createTemporary entry mode message) s
      (fun _ t => s.Keeps (Scratch entry) t ∧ t.fs.Open m (.temporary entry) ⟨mode, []⟩)
      (fun _ t => s.Keeps (Scratch entry) t ∧
        (Sane F → (s.fs.now (.temporary entry)).isSome)) := by
  unfold createTemporary
  refine .bind (R := fun answer t => s.Keeps (Scratch entry) t ∧
      (answer = .ok () → t.fs.Open m (.temporary entry) ⟨mode, []⟩) ∧
      (answer ≠ .ok () → Sane F → (s.fs.now (.temporary entry)).isSome)) ?_ ?_
  · refine .perform (hI s (.refl s)) fun answer t ⟨hop, hF⟩ => ?_
    have hkeeps : s.Keeps (Scratch entry) t := keeps_file hop
    refine ⟨hI t hkeeps, hkeeps, fun hok => ?_, fun hfailed hsane => ?_⟩
    · obtain ⟨fs', ⟨-, -, rfl⟩ | ⟨-, rfl, rfl⟩ | ⟨rfl, rfl⟩, rfl⟩ := hop
      · exact Fs.open_create mode
      · cases hok
      · cases hok
    · obtain ⟨fs', ⟨-, rfl, rfl⟩ | ⟨hsome, -, rfl⟩ | ⟨rfl, rfl⟩, rfl⟩ := hop
      · exact absurd rfl hfailed
      · exact hsome
      · exact absurd rfl (hsane _ _ _ hF)
  · intro answer t hIt ⟨hkeeps, hopen, hfailed⟩
    cases answer with
    | ok u => exact .pure hIt ⟨hkeeps, hopen rfl⟩
    | error e => exact .throw hIt ⟨hkeeps, hfailed (fun h => nomatch h)⟩

/-- A write to a temporary file of ours. -/
theorem survives_write {bytes : Bytes} (hopen : s.fs.Open m (.temporary entry) f)
    (hI : ∀ t, s.Keeps (Scratch entry) t → I t) :
    Survives (behave F m) I (perform (.file (.write (.temporary entry) bytes))) s
      (fun written t => s.Keeps (Scratch entry) t ∧ (Sane F → written = true) ∧
        (written = true → t.fs.Open m (.temporary entry) { f with data := f.data ++ bytes }))
          E := by
  refine .perform (hI s (.refl s)) fun answer t ⟨hop, hF⟩ => ?_
  have hkeeps : s.Keeps (Scratch entry) t := keeps_file hop
  refine ⟨hI t hkeeps, hkeeps, fun hsane => hsane _ _ _ hF, fun htrue => ?_⟩
  obtain ⟨fs', ⟨-, rfl⟩ | ⟨hfalse, -⟩, rfl⟩ := hop
  · exact hopen.append bytes
  · rw [htrue] at hfalse
    cases hfalse

theorem survives_sync (hI : ∀ t, s.Keeps (Scratch entry) t → I t) :
    Survives (behave F m) I (perform (.file (.sync (.temporary entry)))) s
      (fun synced t => s.Keeps (Scratch entry) t ∧ (Sane F → synced = true) ∧
        ∀ f, s.fs.Open m (.temporary entry) f → t.fs.Open m (.temporary entry) f) E := by
  refine .perform (hI s (.refl s)) fun answer t ⟨hop, hF⟩ => ?_
  have hkeeps : s.Keeps (Scratch entry) t := (keeps_file hop).mono fun _ h => h.elim
  refine ⟨hI t hkeeps, hkeeps, fun hsane => hsane _ _ _ hF, fun f hopen => ?_⟩
  obtain ⟨fs', ⟨-, rfl⟩ | ⟨-, rfl⟩, rfl⟩ := hop
  · exact hopen.flush
  · exact hopen

theorem survives_close (hI : I s) :
    Survives (behave F m) I (perform (.file (.close (.temporary entry)))) s
      (fun closed t => t = s ∧ (Sane F → closed = true)) E := by
  refine .perform hI fun answer t ⟨hop, hF⟩ => ?_
  obtain ⟨fs', rfl, rfl⟩ := hop
  exact ⟨hI, rfl, fun hsane => hsane _ _ _ hF⟩

/-! ## Replacing a file -/

/-- An entry and its temporary file. -/
def Pair (entry : Entry) (n : FileName) : Prop := n = .plain entry ∨ n = .temporary entry

theorem Pair.of_scratch (n : FileName) (h : Scratch entry n) : Pair entry n := .inr h

theorem keeps_plain (h : s.Keeps (Scratch entry) t) (entry' : Entry) :
    t.fs.now (.plain entry') = s.fs.now (.plain entry') :=
  h.files _ fun h => nomatch h

/-- The entry is as it was, or it is `f`. -/
structure Replacing (entry : Entry) (f : File) (s t : Site) : Prop where
  keeps : s.Keeps (Pair entry) t
  either : t.fs.now (.plain entry) = s.fs.now (.plain entry) ∨ t.fs.now (.plain entry) = some f

theorem Replacing.of_scratch (h : s.Keeps (Scratch entry) t) :
    Replacing entry f s t :=
  ⟨h.mono Pair.of_scratch, .inl (keeps_plain h entry)⟩

theorem Replacing.scratch {u : Site} (h : Replacing entry f s t)
    (hkeeps : t.Keeps (Scratch entry) u) : Replacing entry f s u := by
  refine ⟨h.keeps.trans (hkeeps.mono Pair.of_scratch), ?_⟩
  rw [keeps_plain hkeeps entry]
  exact h.either

/-- The temporary file takes the place of the entry. -/
theorem survives_rename (hopen : s.fs.Open m (.temporary entry) f) :
    Survives (behave F m) (Replacing entry f s)
      (perform (.file (.rename (.temporary entry) (.plain entry)))) s
      (fun renamed t => s.Keeps (Pair entry) t ∧ (Sane F → renamed = true) ∧
        (renamed = true → t.fs.Open m (.plain entry) f) ∧ (renamed = false → t = s)) E := by
  refine .perform (.of_scratch (.refl s)) fun answer t ⟨hop, hF⟩ => ?_
  have hkeeps : s.Keeps (Pair entry) t :=
    (keeps_file hop).mono fun n hn => hn.elim .inr .inl
  have hsome : (s.fs.now (.temporary entry)).isSome = true := by rw [hopen.now]; rfl
  have hhealthy : Sane F → answer = true := fun hsane => (hsane _ _ _ hF).trans hsome
  obtain ⟨fs', ⟨rfl, -, rfl⟩ | ⟨rfl, rfl⟩, rfl⟩ := hop
  · have hopen' := hopen.rename (b := .plain entry) (fun h => nomatch h)
    exact ⟨⟨hkeeps, .inr hopen'.now⟩, hkeeps, fun _ => rfl, fun _ => hopen', (fun h => nomatch h)⟩
  · exact ⟨⟨hkeeps, .inl rfl⟩, hkeeps, hhealthy, (fun h => nomatch h), fun _ => rfl⟩

/-- Setting the bits of a file of ours. -/
theorem survives_chmod (hopen : s.fs.Open m (.plain entry) f) (hI : ∀ t, s.Keeps (Pair entry) t →
      (t.fs.now (.plain entry) = some f ∨ t.fs.now (.plain entry) = some { f with perm := mode }) →
      I t) :
    Survives (behave F m) I (perform (.file (.chmod (.plain entry) mode))) s
      (fun changed t => s.Keeps (Pair entry) t ∧
        F (.file (.chmod (.plain entry) mode)) s changed ∧
        (changed = true → t.fs.now (.plain entry) = some { f with perm := mode })) E := by
  refine .perform (hI s (.refl s) (.inl hopen.now)) fun answer t ⟨hop, hF⟩ => ?_
  have hkeeps : s.Keeps (Pair entry) t := (keeps_file hop).mono fun n hn => .inl hn
  obtain ⟨fs', ⟨-, rfl⟩ | ⟨rfl, rfl⟩, rfl⟩ := hop
  · have hopen' := hopen.chmod mode
    exact ⟨hI _ hkeeps (.inr hopen'.now), hkeeps, hF, fun _ => hopen'.now⟩
  · exact ⟨hI _ hkeeps (.inl hopen.now), hkeeps, hF, fun h => nomatch h⟩

/-- The errors of `writeAtomic`. -/
structure Unwritten (F : Faults) (entry : Entry) (mode : Nat) (f : File) (s t : Site) : Prop where
  replacing : Replacing entry f s t
  /-- If the bits of the entry can be set, it is as it was. -/
  kept : (∀ s, ¬F (.file (.chmod (.plain entry) mode)) s false) →
    t.fs.now (.plain entry) = s.fs.now (.plain entry)
  /-- If nothing fails, there was a temporary file before. -/
  occupied : Sane F → (s.fs.now (.temporary entry)).isSome

/-- **`writeAtomic` replaces the file or leaves it.** -/
theorem survives_writeAtomic (entry : Entry) (data : Bytes) (mode : Nat) :
    Survives (behave F m) (Replacing entry ⟨mode, data⟩ s) (writeAtomic entry data mode) s
      (fun _ t => s.Keeps (Pair entry) t ∧ t.fs.now (.plain entry) = some ⟨mode, data⟩)
      (fun _ t => Unwritten F entry mode ⟨mode, data⟩ s t) := by
  unfold writeAtomic
  have hstart : ∀ t, s.Keeps (Scratch entry) t → Replacing entry ⟨mode, data⟩ s t :=
    fun t => .of_scratch
  refine .bind (.conseq (survives_createTemporary hstart) (fun _ _ h => h)
    fun _ t ⟨hkeeps, hoccupied⟩ => ⟨hstart t hkeeps, fun _ => keeps_plain hkeeps entry, hoccupied⟩)
    fun _ t₁ _ ⟨hkeeps₁, hopen₁⟩ => ?_
  refine .bind (survives_write hopen₁ fun t h => hstart t (hkeeps₁.trans h))
    fun written t₂ _ ⟨hkeeps₂, hwritten, hopen₂⟩ => ?_
  replace hkeeps₂ := hkeeps₁.trans hkeeps₂
  refine .bind (survives_sync fun t h => hstart t (hkeeps₂.trans h))
    fun synced t₃ _ ⟨hkeeps₃, hsynced, hopen₃⟩ => ?_
  replace hkeeps₃ := hkeeps₂.trans hkeeps₃
  refine .bind (survives_close (hstart t₃ hkeeps₃)) fun closed t₄ _ ⟨hsame, hclosed⟩ => ?_
  subst hsame
  refine .bind (R := fun _ t => s.Keeps (Scratch entry) t ∧
      t.fs.Open m (.temporary entry) ⟨mode, data⟩)
    (survives_discardUnless (fun t h => hstart t (hkeeps₃.trans h)) (fun hall => ?_)
      fun hfailed t h => ?_) fun _ t₅ _ ⟨hkeeps₅, hopen₅⟩ => ?_
  · simp only [Bool.and_eq_true] at hall
    exact ⟨hkeeps₃, hopen₃ _ (hopen₂ hall.1.1)⟩
  · refine ⟨hstart t (hkeeps₃.trans h), fun _ => keeps_plain (hkeeps₃.trans h) entry,
      fun hsane => ?_⟩
    simp [hwritten hsane, hsynced hsane, hclosed hsane] at hfailed
  have hafter : ∀ t, Replacing entry ⟨mode, data⟩ t₅ t → Replacing entry ⟨mode, data⟩ s t :=
    fun t h => ⟨(hkeeps₅.mono Pair.of_scratch).trans h.keeps,
      h.either.imp_left fun h => h.trans (keeps_plain hkeeps₅ entry)⟩
  refine .bind (.mono (survives_rename hopen₅) hafter (fun _ _ h => h) fun _ _ h => h)
    fun renamed t₆ hI₆ ⟨hkeeps₆, hrenamed, hopen₆, hsame⟩ => ?_
  refine .bind (R := fun _ t => t = t₆ ∧ renamed = true)
    (survives_discardUnless (fun _ => hI₆.scratch) (fun htrue => ⟨rfl, htrue⟩) fun hfalse t h => ?_)
    fun _ t₇ _ ⟨hsame₇, htrue⟩ => ?_
  · obtain rfl := hsame hfalse
    refine ⟨hI₆.scratch h, fun _ => keeps_plain (hkeeps₅.trans h) entry, fun hsane => ?_⟩
    rw [hrenamed hsane] at hfalse
    cases hfalse
  subst hsame₇
  replace hkeeps₆ := (hkeeps₅.mono Pair.of_scratch).trans hkeeps₆
  refine .bind (survives_chmod (hopen₆ htrue) fun t h hfile => ⟨hkeeps₆.trans h, .inr ?_⟩)
    fun changed t₈ hI₈ ⟨hkeeps₈, hF, hfile⟩ => ?_
  · exact hfile.elim id id
  refine .ensure hI₈ (fun hchanged => ⟨hkeeps₆.trans hkeeps₈, hfile hchanged⟩) fun hchanged => ?_
  rw [hchanged] at hF
  exact ⟨hI₈, fun hprotect => absurd hF (hprotect _), fun hsane => nomatch hsane _ _ _ hF⟩

/-! ## Storing the state -/

/-- No name at all. -/
def Nowhere (_ : FileName) : Prop := False

theorem Site.Keeps.nowhere {N : FileName → Prop} (h : s.Keeps Nowhere t) : s.Keeps N t :=
  h.mono fun _ h => h.elim

theorem Site.Keeps.now_eq (h : s.Keeps Nowhere t) (n : FileName) : t.fs.now n = s.fs.now n :=
  h.files n fun h => h

theorem survives_syncDirectory {d : Directory} (hI : ∀ t, s.Keeps Nowhere t → I t) :
    Survives (behave F m) I (syncDirectory d) s (fun _ t => s.Keeps Nowhere t)
      (fun _ t => s.Keeps Nowhere t ∧
        ¬((∀ s, ¬F (.openDirectory d) s false) ∧ ∀ s, ¬F (.syncDirectory d) s false)) := by
  unfold syncDirectory
  refine .bind (R := fun opened t => t = s ∧ F (.openDirectory d) s opened)
    (.perform (hI s (.refl s)) fun opened t ⟨hop, hF⟩ =>
      ⟨hI t (by rw [hop]; exact .refl s), hop, hF⟩)
    fun opened t hIt ⟨hsame, hopened⟩ => ?_
  subst hsame
  refine .bind (R := fun _ u => u = t)
    (.ensure hIt (fun _ => rfl) fun hfalse => ⟨.refl t, fun hnone => hnone.1 t (hfalse ▸ hopened)⟩)
    fun _ u _ hsame => ?_
  subst hsame
  refine .bind (R := fun synced v => u.Keeps Nowhere v ∧ F (.syncDirectory d) u synced)
    (.perform hIt fun synced v ⟨hop, hF⟩ => ?_) fun synced v hIv ⟨hkeeps, hsynced⟩ => ?_
  · have hkeeps : u.Keeps Nowhere v := by
      obtain ⟨-, rfl⟩ | ⟨-, rfl⟩ := hop
      · exact ⟨rfl, fun n _ => Fs.syncNames_now _ _ n⟩
      · exact .refl _
    exact ⟨hI v hkeeps, hkeeps, hF⟩
  exact .ensure hIv (fun _ => hkeeps) fun hfalse =>
    ⟨hkeeps, fun hnone => hnone.2 u (hfalse ▸ hsynced)⟩

/-- The errors of `storeState`. -/
structure Unstored (F : Faults) (f : File) (s t : Site) : Prop where
  replacing : Replacing .state f s t
  kept : Firm F → t.fs.now (.plain .state) = s.fs.now (.plain .state)
  occupied : Sane F → (s.fs.now (.temporary .state)).isSome

theorem Replacing.nowhere {u : Site} (h : Replacing entry f s t) (hkeeps : t.Keeps Nowhere u) :
    Replacing entry f s u := h.scratch hkeeps.nowhere

theorem survives_storeState {st : State} (hvalid : st.validate = .ok ()) :
    Survives (behave F m) (Replacing .state st.file s) (storeState st) s
      (fun _ t => s.Keeps (Pair .state) t ∧ t.fs.now (.plain .state) = some st.file)
      (fun _ t => Unstored F st.file s t) := by
  unfold storeState
  rw [hvalid]
  refine .bind (R := fun _ t => t = s) (.pure (.of_scratch (.refl s)) rfl) fun _ t _ hsame => ?_
  subst hsame
  refine .bind (.conseq (survives_writeAtomic .state st.marshal 0o600) (fun _ _ h => h)
    fun _ u h => ⟨h.replacing, fun hfirm => h.kept (hfirm.protect 0o600), h.occupied⟩)
    fun _ u hIu ⟨hkeeps, hnow⟩ => ?_
  refine .conseq (survives_syncDirectory fun _ => hIu.nowhere)
    (fun _ v hkeeps' => ⟨hkeeps.trans hkeeps'.nowhere, (hkeeps'.now_eq _).trans hnow⟩)
    fun _ v ⟨hkeeps', hfails⟩ => ⟨hIu.nowhere hkeeps', fun hfirm => ?_, fun hsane => ?_⟩
  · exact absurd ⟨hfirm.openRoot, hfirm.syncRoot⟩ hfails
  · exact absurd ⟨hsane.firm.openRoot, hsane.firm.syncRoot⟩ hfails

/-! ## Reading -/

/-- What reading a private file says about it. -/
structure Found (F : Faults) (entry : Entry) (maximum mode : Nat) (s : Site)
    (r : Except FsErr Bytes) : Prop where
  ok : ∀ data, r = .ok data → s.fs.now (.plain entry) = some ⟨mode, data⟩
  absent : r = .error .notExist → s.fs.now (.plain entry) = none
  missing : Sane F → s.fs.now (.plain entry) = none → r = .error .notExist
  fits : Sane F → ∀ data, s.fs.now (.plain entry) = some ⟨mode, data⟩ →
    data.length ≤ maximum → r = .ok data

theorem survives_read (hI : I s) :
    Survives (behave F m) I (perform (.file (.read (.plain entry)))) s
      (fun answer t => t = s ∧
        (∀ seen, answer = .ok seen → s.fs.now (.plain entry) = some seen.file) ∧
        (answer = .error .notExist → s.fs.now (.plain entry) = none) ∧
        (Sane F → ∀ e, answer = .error e → s.fs.now (.plain entry) = none ∧ e = .notExist)) E := by
  refine .perform hI fun answer t ⟨hop, hF⟩ => ?_
  obtain ⟨fs', ⟨rfl, hanswer⟩, rfl⟩ := hop
  refine ⟨hI, rfl, fun seen hok => ?_, fun hmissing => ?_, fun hsane e herror => ?_⟩
  · obtain ⟨f, hf, rfl⟩ | ⟨-, rfl⟩ | rfl := hanswer
    · cases hok
      exact hf
    · cases hok
    · cases hok
  · obtain ⟨f, -, rfl⟩ | ⟨hnone, -⟩ | rfl := hanswer
    · cases hmissing
    · exact hnone
    · cases hmissing
  · obtain ⟨f, -, rfl⟩ | ⟨hnone, rfl⟩ | rfl := hanswer
    · cases herror
    · cases herror
      exact ⟨hnone, rfl⟩
    · exact absurd rfl (hsane _ _ _ hF)

theorem survives_readPrivateFile {maximum : Nat} (hI : I s) :
    Survives (behave F m) I (readPrivateFile entry maximum mode) s
      (fun r t => t = s ∧ Found F entry maximum mode s r) E := by
  unfold readPrivateFile
  refine .bind (survives_read hI) fun answer t hIt ⟨hsame, hseen, hmissing, hsane⟩ => ?_
  subst hsame
  cases answer with
  | error e =>
    refine .pure hIt ⟨rfl, (fun data h => nomatch h), fun h => ?_, fun hs _ => ?_,
      fun hs data hdata _ => ?_⟩
    · exact hmissing (by simpa using h)
    · rw [(hsane hs e rfl).2]
    · rw [(hsane hs e rfl).1] at hdata
      cases hdata
  | ok seen =>
    have hnow := hseen seen rfl
    refine .pure hIt ⟨rfl, fun data h => ?_, fun h => ?_, fun _ hnone => ?_,
      fun _ data hdata hle => ?_⟩
    · split at h
      · rename_i hgood
        simp only [Bool.and_eq_true, beq_iff_eq, decide_eq_true_eq] at hgood
        cases h
        rw [hnow, ← hgood.1]
      · cases h
    · split at h <;> cases h
    · rw [hnow] at hnone
      cases hnone
    · rw [hnow] at hdata
      rw [Option.some.inj hdata]
      simp [hle]

theorem survives_readManifest {slot : SlotName} {manifest : Manifest}
    (hmanifest : s.fs.now (.plain (.manifest slot)) = some ⟨0o600, manifest.marshal⟩) (hI : I s) :
    Survives (behave F m) I (readManifest slot) s (fun found t => t = s ∧ found = manifest)
      (fun _ t => t = s ∧ (Sane F → maxManifestBytes < manifest.marshal.length)) := by
  unfold readManifest
  refine .bind (survives_readPrivateFile hI) fun r t hIt ⟨hsame, hfound⟩ => ?_
  subst hsame
  cases r with
  | error e =>
    refine .throw hIt ⟨rfl, fun hsane => ?_⟩
    by_contra hle
    cases hfound.fits hsane _ hmanifest (Nat.le_of_not_lt hle)
  | ok data =>
    have hdata : data = manifest.marshal := by
      have hsame := (hfound.ok data rfl).symm.trans hmanifest
      exact congrArg File.data (Option.some.inj hsame)
    subst hdata
    simp only [Manifest.decode_marshal]
    exact .pure hIt ⟨rfl, rfl⟩

/-! ## Staging an artifact -/

/-- The names in the directory of a slot. -/
def InSlot (slot : SlotName) (n : FileName) : Prop := n.directory = .slot slot

theorem InSlot.of_artifact {slot : SlotName} (n : FileName) (h : Pair (.artifact slot) n) :
    InSlot slot n := by
  obtain rfl | rfl := h <;> rfl

theorem InSlot.of_manifest {slot : SlotName} (n : FileName) (h : Pair (.manifest slot) n) :
    InSlot slot n := by
  obtain rfl | rfl := h <;> rfl

/-- The temporary files in the directory of a slot. -/
def Leftover (slot : SlotName) (n : FileName) : Prop :=
  n = .temporary (.artifact slot) ∨ n = .temporary (.manifest slot)

theorem InSlot.of_leftover {slot : SlotName} (n : FileName) (h : Leftover slot n) :
    InSlot slot n := by
  obtain rfl | rfl := h <;> rfl

theorem survives_cleanInterruptedFiles {slot : SlotName}
    (hI : ∀ t, s.Keeps (Leftover slot) t → I t) :
    Survives (behave F m) I (cleanInterruptedFiles slot) s
      (fun _ t => s.Keeps (Leftover slot) t) E := by
  unfold cleanInterruptedFiles
  have hfirst : ∀ {t}, s.Keeps (Scratch (.artifact slot)) t → s.Keeps (Leftover slot) t :=
    fun h => h.mono fun _ h => .inl h
  refine .bind (survives_remove fun t h => hI t (hfirst h)) fun _ t _ ⟨hkeeps, _⟩ => ?_
  have hsecond : ∀ {u}, t.Keeps (Scratch (.manifest slot)) u → s.Keeps (Leftover slot) u :=
    fun h => (hfirst hkeeps).trans (h.mono fun _ h => .inr h)
  refine .bind (survives_remove fun u h => hI u (hsecond h)) fun _ u hIu ⟨hkeeps', _⟩ => ?_
  exact .pure hIu (hsecond hkeeps')

section Copy

variable {slot : SlotName}

theorem survives_contextErr {E : Err → Site → Prop} (hI : I s) :
    Survives (behave F m) I (perform .contextErr) s (fun _ t => t = s) E :=
  .perform hI fun _ t ⟨hop, _⟩ => ⟨by rwa [show t = s from hop], hop⟩

/-- What has been copied is what the hash has seen. -/
theorem survives_copyArtifact {err : Option Err} (pieces : List Bytes) {limit : Nat}
    {copied : Bytes} {perm : Nat} (hI : ∀ t, s.Keeps (Scratch (.artifact slot)) t → I t)
    (hopen : s.fs.Open m (.temporary (.artifact slot)) ⟨perm, copied⟩) :
    Survives (behave F m) I (copyArtifact slot err pieces limit copied) s
      (fun all t => s.Keeps (Scratch (.artifact slot)) t ∧
        t.fs.Open m (.temporary (.artifact slot)) ⟨perm, all⟩)
      (fun _ t => s.Keeps (Scratch (.artifact slot)) t) := by
  induction pieces generalizing s limit copied with
  | nil =>
    have hIs := hI s (.refl s)
    cases limit with
    | zero => exact .pure hIs ⟨.refl s, hopen⟩
    | succ limit =>
      refine .bind (survives_contextErr hIs) fun cancelled t _ hsame => ?_
      subst hsame
      refine .bind (R := fun _ u => u = t) (.ensure hIs (fun _ => rfl) fun _ => .refl t)
        fun _ u _ hsame => ?_
      subst hsame
      cases err with
      | none => exact .pure hIs ⟨.refl u, hopen⟩
      | some err => exact .throw hIs (.refl u)
  | cons piece rest ih =>
    have hIs := hI s (.refl s)
    cases limit with
    | zero => exact .pure hIs ⟨.refl s, hopen⟩
    | succ limit =>
      refine .bind (survives_contextErr hIs) fun cancelled t _ hsame => ?_
      subst hsame
      refine .bind (R := fun _ u => u = t) (.ensure hIs (fun _ => rfl) fun _ => .refl t)
        fun _ u _ hsame => ?_
      subst hsame
      refine .bind (survives_write hopen hI) fun written v hIv ⟨hkeeps, _, hopen'⟩ => ?_
      refine .bind (R := fun _ x => x = v ∧ written = true)
        (.ensure hIv (fun htrue => ⟨rfl, htrue⟩) fun _ => hkeeps)
        fun _ x _ ⟨hsame, htrue⟩ => ?_
      subst hsame
      exact .conseq (ih (fun y h => hI y (hkeeps.trans h)) (hopen' htrue))
        (fun _ y ⟨h, hopen⟩ => ⟨hkeeps.trans h, hopen⟩) fun _ y h => hkeeps.trans h

variable {K : Crypto} {manifest : Manifest}

/-- The artifact is what the manifest says. -/
structure Genuine (K : Crypto) (manifest : Manifest) (content : Bytes) : Prop where
  verified : manifest.verifyArtifact K content = .ok ()
  size : UInt64.ofNat content.length = manifest.sizeBytes

theorem genuine_of_copied {copied : Bytes} (hstart : manifest.verifyArtifactStart = .ok ())
    (hcopied : manifest.verifyCopied K copied = .ok ()) : Genuine K manifest copied := by
  refine ⟨Manifest.verifyArtifact_of_copied hstart hcopied, ?_⟩
  unfold Manifest.verifyCopied at hcopied
  simp only [seq_eq_ok_iff, require_eq_ok_iff, decide_eq_true_eq] at hcopied
  rw [hcopied.1, UInt64.ofNat_toNat]

theorem survives_verifyStream {reader : Reader} {perm : Nat}
    (hI : ∀ t, s.Keeps (Scratch (.artifact slot)) t → I t)
    (hopen : s.fs.Open m (.temporary (.artifact slot)) ⟨perm, []⟩) :
    Survives (behave F m) I (verifyStream K slot manifest reader) s
      (fun _ t => s.Keeps (Scratch (.artifact slot)) t ∧
        ∃ content, t.fs.Open m (.temporary (.artifact slot)) ⟨perm, content⟩ ∧
          Genuine K manifest content)
      (fun _ t => s.Keeps (Scratch (.artifact slot)) t) := by
  unfold verifyStream
  refine .bind (R := fun _ t => t = s ∧ manifest.verifyArtifactStart = .ok ())
    (.result (hI s (.refl s)) (fun _ h => ⟨rfl, h⟩) fun _ _ => .refl s)
    fun _ t _ ⟨hsame, hstart⟩ => ?_
  subst hsame
  refine .bind (survives_copyArtifact reader.pieces hI hopen)
    fun copied u hIu ⟨hkeeps, hopen'⟩ => ?_
  exact .result hIu (fun _ h => ⟨hkeeps, copied, hopen', genuine_of_copied hstart h⟩)
    fun _ _ => hkeeps

/-- The artifact of the slot is there, or the slot has been touched in vain. -/
theorem survives_stageArtifact {reader : Reader} (hI : ∀ t, s.Keeps (InSlot slot) t → I t) :
    Survives (behave F m) I (stageArtifact K slot manifest reader) s
      (fun _ t => s.Keeps (InSlot slot) t ∧
        ∃ content, t.fs.now (.plain (.artifact slot)) = some ⟨0o500, content⟩ ∧
          Genuine K manifest content)
      (fun _ t => s.Keeps (InSlot slot) t) := by
  unfold stageArtifact
  have hscratch : ∀ {t u : Site}, s.Keeps (InSlot slot) t → t.Keeps (Scratch (.artifact slot)) u →
      s.Keeps (InSlot slot) u :=
    fun h h' => h.trans ((h'.mono Pair.of_scratch).mono InSlot.of_artifact)
  refine .bind (survives_cleanInterruptedFiles fun t h => hI t (h.mono InSlot.of_leftover))
    fun _ t₁ _ hkeeps₁ => ?_
  replace hkeeps₁ := hkeeps₁.mono InSlot.of_leftover
  refine .bind (.conseq (survives_createTemporary fun t h => hI t (hscratch hkeeps₁ h))
    (fun _ _ h => h) fun _ t h => hscratch hkeeps₁ h.1) fun _ t₂ _ ⟨hkeeps₂, hopen₂⟩ => ?_
  replace hkeeps₂ := hscratch hkeeps₁ hkeeps₂
  refine .bind (R := fun verified t => t₂.Keeps (Scratch (.artifact slot)) t ∧
      (passes verified = true → ∃ content,
        t.fs.Open m (.temporary (.artifact slot)) ⟨0o600, content⟩ ∧ Genuine K manifest content))
    (.attempt (survives_verifyStream (fun t h => hI t (hscratch hkeeps₂ h)) hopen₂)
      (fun _ t h => ⟨h.1, fun _ => h.2⟩) fun _ t h => ⟨h, fun h => nomatch h⟩)
    fun verified t₃ _ ⟨hkeeps₃, hcontent₃⟩ => ?_
  replace hkeeps₃ := hscratch hkeeps₂ hkeeps₃
  refine .bind (survives_sync fun t h => hI t (hscratch hkeeps₃ h))
    fun synced t₄ _ ⟨hkeeps₄, _, hopen₄⟩ => ?_
  replace hkeeps₄ := hscratch hkeeps₃ hkeeps₄
  refine .bind (survives_close (hI t₄ hkeeps₄)) fun closed t₅ _ ⟨hsame, _⟩ => ?_
  subst hsame
  refine .bind (R := fun _ t => t = t₅ ∧ passes verified = true)
    (survives_discardUnless (fun t h => hI t (hscratch hkeeps₄ h)) (fun hall => ?_)
      fun _ t h => hscratch hkeeps₄ h) fun _ t₆ _ ⟨hsame, hverified⟩ => ?_
  · simp only [Bool.and_eq_true] at hall
    exact ⟨rfl, hall.1.1⟩
  subst hsame
  refine .bind (survives_contextErr (hI t₆ hkeeps₄)) fun cancelled t₇ _ hsame => ?_
  subst hsame
  refine .bind (R := fun _ t => t = t₇)
    (survives_discardUnless (fun t h => hI t (hscratch hkeeps₄ h)) (fun _ => rfl)
      fun _ t h => hscratch hkeeps₄ h) fun _ t₈ _ hsame => ?_
  subst hsame
  obtain ⟨content, hopen, hgenuine⟩ := hcontent₃ hverified
  replace hopen := hopen₄ _ hopen
  refine .bind (.mono (survives_rename hopen)
    (fun t h => hI t (hkeeps₄.trans (h.keeps.mono InSlot.of_artifact))) (fun _ _ h => h)
    fun _ _ h => h) fun renamed t₉ hI₉ ⟨hkeeps₉, _, hopen₉, _⟩ => ?_
  replace hkeeps₉ := hkeeps₄.trans (hkeeps₉.mono InSlot.of_artifact)
  refine .bind (R := fun _ t => t = t₉ ∧ renamed = true)
    (survives_discardUnless (fun t h => hI t (hscratch hkeeps₉ h)) (fun htrue => ⟨rfl, htrue⟩)
      fun _ t h => hscratch hkeeps₉ h) fun _ t₁₀ _ ⟨hsame, htrue⟩ => ?_
  subst hsame
  refine .bind (survives_chmod (hopen₉ htrue)
    fun t h _ => hI t (hkeeps₉.trans (h.mono InSlot.of_artifact)))
    fun changed t₁₁ hI₁₁ ⟨hkeeps₁₁, _, hnow⟩ => ?_
  replace hkeeps₁₁ := hkeeps₉.trans (hkeeps₁₁.mono InSlot.of_artifact)
  exact .ensure hI₁₁ (fun hchanged => ⟨hkeeps₁₁, content, hnow hchanged, hgenuine⟩)
    fun _ => hkeeps₁₁

end Copy

end TosAi.SoftwareUpdate
