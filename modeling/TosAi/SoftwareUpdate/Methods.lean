/-
  What `Open` and the methods do to the root.

  Each of them comes to an end in which the state returned is the one on disk, or to an
  error; on the way and after an error the disk is in the old state or the new one
  (`Between`).  An error under `Firm` faults leaves `state.json` as it was, and `Open`
  has no error where nothing fails.
-/
import TosAi.SoftwareUpdate.Invariant

set_option autoImplicit false

namespace TosAi.SoftwareUpdate

open Foundation

variable {K : Crypto} {cfg : Config} {P : Manifest → Prop} {F : Faults} {n : Nat} {s t u : Site}
  {d d' : State} {I : Site → Prop}

/-! ## Storing a state -/

/-- The disk is in the state `d` or in a `next` one. -/
structure Between (K : Crypto) (cfg : Config) (P : Manifest → Prop) (d : State)
    (next : State → Prop) (s t : Site) : Prop where
  owner : t.owner = s.owner
  undisturbed : Undisturbed d.references s.fs t.fs
  holds : Holds K cfg P t.fs d ∨ ∃ d', next d' ∧ Holds K cfg P t.fs d'

variable {next : State → Prop}

theorem Holds.undisturbed (h : Holds K cfg P s.fs d) (hsame : Undisturbed d.references s.fs t.fs)
    (hfile : t.fs.now (.plain .state) = s.fs.now (.plain .state)) : Holds K cfg P t.fs d :=
  ⟨h.stocked.undisturbed hsame, by rw [hfile]; exact h.file⟩

/-- Other names have changed. -/
theorem Holds.between (h : Holds K cfg P s.fs d) {N : FileName → Prop} (hkeeps : s.Keeps N t)
    (hslots : Undisturbed d.references s.fs t.fs) (hN : ¬N (.plain .state)) :
    Between K cfg P d next s t :=
  ⟨hkeeps.owner, hslots, .inl (h.undisturbed hslots (hkeeps.files _ hN))⟩

theorem Holds.between_refl (h : Holds K cfg P s.fs d) : Between K cfg P d next s s :=
  ⟨rfl, .refl _ _, .inl h⟩

theorem Between.after (howner : t.owner = s.owner) (hslots : Undisturbed d.references s.fs t.fs)
    (h : Between K cfg P d next t u) : Between K cfg P d next s u :=
  ⟨h.owner.trans howner, hslots.trans h.undisturbed, h.holds⟩

/-- Where `state.json` has been replaced or not. -/
theorem Holds.replacing (h : Holds K cfg P s.fs d) (hstocked : Stocked K cfg P s.fs d')
    (hnext : next d') (hreplacing : Replacing .state d'.file s t) : Between K cfg P d next s t := by
  refine ⟨hreplacing.keeps.owner, .of_state hreplacing.keeps.files, ?_⟩
  obtain hold | hnew := hreplacing.either
  · exact .inl (h.undisturbed (.of_state hreplacing.keeps.files) hold)
  · exact .inr ⟨d', hnext, hstocked.undisturbed (.of_state hreplacing.keeps.files), .inl hnew⟩

/-- The end of a method: the new state is on disk. -/
structure Done (K : Crypto) (cfg : Config) (P : Manifest → Prop) (d : State)
    (next : State → Prop) (s : Site) (r : State) (t : Site) : Prop where
  between : Between K cfg P d next s t
  next : next r
  file : t.fs.now (.plain .state) = some r.file
  stocked : Stocked K cfg P t.fs r

/-- The error of a method. -/
structure Failed (K : Crypto) (cfg : Config) (P : Manifest → Prop) (F : Faults) (d : State)
    (next : State → Prop) (s t : Site) : Prop where
  between : Between K cfg P d next s t
  kept : Firm F → t.fs.now (.plain .state) = s.fs.now (.plain .state)

theorem survives_store (h : Holds K cfg P s.fs d) (hstocked : Stocked K cfg P s.fs d')
    (hnext : next d') :
    Survives (behave F n) (Between K cfg P d next s)
      (do storeState d'
          pure d') s
      (fun r t => r = d' ∧ Done K cfg P d next s r t)
      (fun _ t => Failed K cfg P F d next s t ∧
        (Sane F → (s.fs.now (.temporary .state)).isSome)) := by
  have hbetween := fun t => h.replacing (t := t) hstocked hnext
  refine .bind (.mono (survives_storeState hstocked.coherent.valid) hbetween (fun _ _ h => h)
    fun _ t h => ⟨⟨hbetween t h.replacing, h.kept⟩, h.occupied⟩) fun _ t hIt ⟨hkeeps, hfile⟩ => ?_
  exact .pure hIt ⟨rfl, hIt, hnext, hfile, hstocked.undisturbed (.of_state hkeeps.files)⟩

/-! ## The methods -/

/-- A body that stores a state of `next`, or fails. -/
abbrev Performs (K : Crypto) (cfg : Config) (P : Manifest → Prop) (F : Faults) (n : Nat) (d : State)
    (next : State → Prop) (s : Site) (body : Updating State) : Prop :=
  Survives (behave F n) (Between K cfg P d next s) body s (Done K cfg P d next s)
    fun _ t => Failed K cfg P F d next s t

theorem performs_store (h : Holds K cfg P s.fs d) (hstocked : Stocked K cfg P s.fs d')
    (hnext : next d') :
    Performs K cfg P F n d next s (do storeState d'; pure d') :=
  .conseq (survives_store h hstocked hnext) (fun _ _ h => h.2) fun _ _ h => h.1

theorem performs_checked {ready : Bool} {err : Err} (h : Holds K cfg P s.fs d)
    (hready : ready = true → Stocked K cfg P s.fs d' ∧ next d') :
    Performs K cfg P F n d next s (do Body.ensure ready err; storeState d'; pure d') := by
  refine .bind (R := fun _ t => t = s ∧ ready = true) (.ensure h.between_refl
    (fun hok => ⟨rfl, hok⟩) fun _ => ⟨h.between_refl, fun _ => rfl⟩) fun _ t _ ⟨hsame, hok⟩ => ?_
  subst hsame
  exact performs_store h (hready hok).1 (hready hok).2

/-- What a successful call does to the state. -/
inductive Effect (d : State) : Method → State → Prop where
  | staged {request : StageRequest} (hpending : d.pending = none)
      (hidle : d.awaitingHealth = false) : Effect d (.stage request) (d.staged d.stageSlot)
  | activated {slot : SlotName} (hpending : d.pending = some slot)
      (hidle : d.awaitingHealth = false) : Effect d .activatePending d.activated
  | confirmed (hawaiting : d.awaitingHealth = true) (hboot : d.bootAttempted = true)
      (revision : UInt64) : Effect d .confirmHealthy (d.confirmed revision)
  | rolledBack (hgood : d.knownGood ≠ none) : Effect d .rollback d.rolledBack

variable {m : Manager} {method : Method}

/-- What the checks of `Stage` establish. -/
structure Stageable (K : Crypto) (cfg : Config) (m : Manager) (request : StageRequest) : Prop where
  closed : m.closed = false
  pending : m.state.pending = none
  idle : m.state.awaitingHealth = false
  verified : request.manifest.verifyInstalled K (cfg.key request.manifest.keyID) cfg.target
    m.state.securityRevision = .ok ()

theorem stageable_of_check {request : StageRequest} {reader : Reader}
    (h : stageCheck K cfg m request = .ok reader) : Stageable K cfg m request := by
  unfold stageCheck at h
  split at h
  · simp only [seq_eq_ok_iff, require_eq_ok_iff] at h
    obtain ⟨hclosed, hpending, -, hverify⟩ := h
    simp only [Bool.and_eq_true, Bool.not_eq_true', Option.isNone_iff_eq_none] at hclosed hpending
    split at hverify
    · exact ⟨hclosed, hpending.1, hpending.2, Manifest.verifyInstalled_of_verify ‹_›⟩
    · cases hverify
  · cases h

variable (h : Holds K cfg P s.fs m.state)
include h

theorem performs_stage {request : StageRequest} (hP : P request.manifest) :
    Performs K cfg P F n m.state (Effect m.state (.stage request)) s (stage K cfg m request) := by
  unfold stage
  refine .bind (R := fun _ t => t = s ∧ Stageable K cfg m request)
    (.result h.between_refl (fun _ hok => ⟨rfl, stageable_of_check hok⟩)
      fun _ _ => ⟨h.between_refl, fun _ => rfl⟩) ?_
  rintro reader t₀ - ⟨hsame, hstage⟩
  subst hsame
  have hslot := h.stocked.coherent.stageSlot_not_mem hstage.pending hstage.idle
  -- Up to `storeState` only the directory of the staged slot changes.
  have hinside : ∀ {t}, t₀.Keeps (InSlot m.state.stageSlot) t →
      Between K cfg P m.state (Effect m.state (.stage request)) t₀ t :=
    fun hkeeps => h.between hkeeps (.of_inSlot hkeeps.files hslot) fun h => by cases h
  have hfails : ∀ {t}, t₀.Keeps (InSlot m.state.stageSlot) t →
      Failed K cfg P F m.state (Effect m.state (.stage request)) t₀ t :=
    fun hkeeps => ⟨hinside hkeeps, fun _ => hkeeps.files _ fun h => by cases h⟩
  refine .bind (.conseq (survives_stageArtifact fun _ => hinside) (fun _ _ h => h)
    fun _ _ => hfails) ?_
  rintro - t₁ - ⟨hkeeps₁, content, hartifact, hgenuine⟩
  have hmanifest : ∀ {t}, t₁.Keeps (Pair (.manifest m.state.stageSlot)) t →
      t₀.Keeps (InSlot m.state.stageSlot) t :=
    fun hkeeps => hkeeps₁.trans (hkeeps.mono InSlot.of_manifest)
  refine .bind (.mono (survives_writeAtomic _ _ _) (fun _ h => hinside (hmanifest h.keeps))
    (fun _ _ h => h) fun _ _ h => hfails (hmanifest h.replacing.keeps)) ?_
  rintro - t₂ - ⟨hkeeps₂, hfile⟩
  have hsync : ∀ {t}, t₂.Keeps Nowhere t → t₀.Keeps (InSlot m.state.stageSlot) t :=
    fun hkeeps => (hmanifest hkeeps₂).trans hkeeps.nowhere
  refine .bind (.conseq (survives_syncDirectory fun _ h => hinside (hsync h)) (fun _ _ h => h)
    fun _ _ h => hfails (hsync h.1)) fun _ t₃ hI₃ hkeeps₃ => ?_
  have hinstalled : Installed K cfg t₃.fs m.state.securityRevision m.state.stageSlot
      request.manifest := by
    refine ⟨(hkeeps₃.now_eq _).trans hfile, hstage.verified, content, ?_, hgenuine⟩
    rw [hkeeps₃.now_eq, hkeeps₂.files _ (by simp [Pair]), hartifact]
  have hholds₃ : Holds K cfg P t₃.fs m.state :=
    h.undisturbed hI₃.undisturbed ((hsync hkeeps₃).files _ fun h => by cases h)
  have hcompose : ∀ {u}, Between K cfg P m.state (Effect m.state (.stage request)) t₃ u →
      Between K cfg P m.state (Effect m.state (.stage request)) t₀ u :=
    fun h => h.after hI₃.owner hI₃.undisturbed
  refine .mono (survives_store hholds₃
    (hholds₃.stocked.staged hstage.pending hstage.idle hP hinstalled)
    (.staged hstage.pending hstage.idle)) (fun _ => hcompose)
    (fun _ _ hdone => { hdone.2 with between := hcompose hdone.2.between })
    fun _ u hfailed => ⟨hcompose hfailed.1.between, fun hfirm => ?_⟩
  exact (hfailed.1.kept hfirm).trans ((hsync hkeeps₃).files _ fun h => by cases h)

theorem performs_activatePending :
    Performs K cfg P F n m.state (Effect m.state .activatePending) s (activatePending m) := by
  refine performs_checked h fun hready => ?_
  simp only [Bool.and_eq_true, Bool.not_eq_true'] at hready
  obtain ⟨slot, hpending⟩ := Option.isSome_iff_exists.mp hready.1.2
  exact ⟨h.stocked.activated hpending, .activated hpending hready.2⟩

theorem performs_rollback :
    Performs K cfg P F n m.state (Effect m.state .rollback) s (rollback m) := by
  refine performs_checked h fun hready => ?_
  simp only [Bool.and_eq_true] at hready
  exact ⟨h.stocked.rolledBack, .rolledBack (Option.isSome_iff_ne_none.mp hready.1.2)⟩

theorem performs_confirmHealthy :
    Performs K cfg P F n m.state (Effect m.state .confirmHealthy) s (confirmHealthy m) := by
  unfold confirmHealthy
  split
  · rename_i slot hready hactive
    simp only [Bool.and_eq_true] at hready
    obtain ⟨⟨-, hawaiting⟩, hboot⟩ := hready
    obtain ⟨manifest, -, hinstalled⟩ :=
      h.stocked.installed slot (State.mem_references.mpr (.inl hactive))
    unfold confirmSlot
    refine .bind (.conseq (survives_readManifest hinstalled.file h.between_refl) (fun _ _ h => h)
      fun _ t ⟨hsame, _⟩ => ?_) fun found t _ ⟨hsame, hfound⟩ => ?_
    · subst hsame
      exact ⟨h.between_refl, fun _ => rfl⟩
    · subst hsame hfound
      exact performs_store h (h.stocked.confirmed hawaiting hactive hinstalled.file)
        (.confirmed hawaiting hboot _)
  · exact .throw h.between_refl ⟨h.between_refl, fun _ => rfl⟩

/-- **Every method** of an open manager. -/
theorem performs_method (hP : ∀ request, method = .stage request → P request.manifest) :
    Performs K cfg P F n m.state (Effect m.state method) s (method.body K cfg m) := by
  cases method with
  | stage request => exact performs_stage h (hP request rfl)
  | activatePending => exact performs_activatePending h
  | confirmHealthy => exact performs_confirmHealthy h
  | rollback => exact performs_rollback h

omit h

/-- A closed manager does nothing. -/
theorem survives_closed (hclosed : m.closed = true) (method : Method) :
    Survives (behave F n) (· = s) (method.body K cfg m) s (fun _ _ => False)
      (fun _ t => t = s) := by
  cases method with
  | stage request =>
    refine .bind (R := fun _ _ => False) (.result rfl (fun _ hok => ?_) fun _ _ => rfl)
      fun _ _ _ h => h.elim
    have hopen := (stageable_of_check hok).closed
    rw [hclosed] at hopen
    cases hopen
  | activatePending | rollback =>
    refine .bind (R := fun _ _ => False) (.ensure rfl (fun hready => ?_) fun _ => rfl)
      fun _ _ _ h => h.elim
    simp [hclosed] at hready
  | confirmHealthy =>
    show Survives _ _ (confirmHealthy m) _ _ _
    unfold confirmHealthy
    rw [hclosed]
    exact .throw rfl rfl

/-! ## Open -/

theorem passes_eq_true {value : Except Err Unit} : passes value = true ↔ value = .ok () := by
  cases value with
  | ok u | error e => simp [passes]

/-- A check without effect. -/
theorem survives_check {ok : Bool} {err : Err} {E : Err → Site → Prop} (hI : I s)
    (herror : ok = false → E err s) :
    Survives (behave F n) I (Body.ensure ok err) s (fun _ t => t = s ∧ ok = true) E :=
  .ensure hI (fun h => ⟨rfl, h⟩) herror

theorem survives_verifyInstalledSlot {revision : UInt64} {slot : SlotName} {manifest : Manifest}
    (h : Installed K cfg s.fs revision slot manifest) (hI : I s) :
    Survives (behave F n) I (verifyInstalledSlot K cfg revision slot) s (fun _ t => t = s)
      (fun _ t => t = s ∧ (Sane F → maxManifestBytes < manifest.marshal.length)) := by
  unfold verifyInstalledSlot
  refine .bind (survives_readManifest h.file hI) fun found t hIt ⟨hsame, hfound⟩ => ?_
  subst hsame hfound
  refine .bind (survives_check hIt fun hfalse => ?_) fun _ u _ ⟨hsame, _⟩ => ?_
  · rw [passes_eq_true.mpr h.verified] at hfalse
    cases hfalse
  subst hsame
  obtain ⟨content, hartifact, hgenuine⟩ := h.artifact
  refine .bind (survives_read hIt) fun answer v _ ⟨hsame, hseen, _, hsane⟩ => ?_
  subst hsame
  cases answer with
  | error e =>
    have hfails : Sane F → maxManifestBytes < found.marshal.length := by
      intro hF
      have hnone := (hsane hF e rfl).1
      rw [hartifact] at hnone
      cases hnone
    cases e <;> exact .throw hIt ⟨rfl, hfails⟩
  | ok seen =>
    have hfile := (hseen seen rfl).symm.trans hartifact
    obtain ⟨file, version⟩ := seen
    obtain rfl : file = ⟨0o500, content⟩ := Option.some.inj hfile
    show Survives _ _ (verifyInstalledArtifact K found ⟨0o500, content⟩) _ _ _
    unfold verifyInstalledArtifact
    refine .bind (survives_check hIt fun hfalse => ?_) fun _ x _ ⟨hsame, _⟩ => ?_
    · simp [hgenuine.size] at hfalse
    subst hsame
    refine .ensure hIt (fun _ => rfl) fun hfalse => ?_
    rw [passes_eq_true.mpr hgenuine.verified] at hfalse
    cases hfalse

/-- Every manifest that is staged can be read again. -/
def ReadsBack (P : Manifest → Prop) : Prop :=
  ∀ manifest, P manifest → manifest.marshal.length ≤ maxManifestBytes

theorem survives_verifyInstalledSlots {revision : UInt64} (slots : List SlotName)
    (h : ∀ slot ∈ slots, ∃ manifest, P manifest ∧ Installed K cfg s.fs revision slot manifest)
    (hI : I s) :
    Survives (behave F n) I (verifyInstalledSlots K cfg revision slots) s (fun _ t => t = s)
      (fun _ t => t = s ∧ (Sane F → ¬ReadsBack P)) := by
  induction slots with
  | nil => exact .pure hI rfl
  | cons slot rest ih =>
    obtain ⟨manifest, hP, hinstalled⟩ := h slot List.mem_cons_self
    refine .bind (.conseq (survives_verifyInstalledSlot hinstalled hI) (fun _ _ h => h)
      fun _ t ⟨hsame, hfails⟩ => ⟨hsame, fun hsane hback => ?_⟩) fun _ t _ hsame => ?_
    · exact absurd (hback manifest hP) (Nat.not_le_of_lt (hfails hsane))
    · subst hsame
      exact ih fun slot hslot => h slot (List.mem_cons_of_mem _ hslot)

/-- The errors of `Open` once it owns the root. -/
structure Unopened (K : Crypto) (cfg : Config) (P : Manifest → Prop) (F : Faults) (d : State)
    (s t : Site) : Prop where
  between : Between K cfg P d (· = d.recovered) s t
  excuse : Sane F → (s.fs.now (.temporary .state)).isSome ∨ ¬ReadsBack P

/-- Storing the recovered state. -/
theorem survives_storeRecovered (h : Holds K cfg P s.fs d) (hrecovered : d' = d.recovered) :
    Survives (behave F n) (Between K cfg P d (· = d.recovered) s)
      (do storeState d'
          pure d') s
      (Done K cfg P d (· = d.recovered) s) (fun _ t => Unopened K cfg P F d s t) := by
  subst hrecovered
  exact .conseq (survives_store h h.stocked.recovered rfl) (fun _ _ h => h.2)
    fun _ _ h => ⟨h.1.between, fun hsane => .inl (h.2 hsane)⟩

theorem survives_recoverState (h : Holds K cfg P s.fs d)
    (hfile : s.fs.now (.plain .state) = some d.file) :
    Survives (behave F n) (Between K cfg P d (· = d.recovered) s) (recoverState K cfg d) s
      (Done K cfg P d (· = d.recovered) s) (fun _ t => Unopened K cfg P F d s t) := by
  unfold recoverState
  refine .bind (survives_check h.between_refl fun hfalse => ?_) fun _ t _ ⟨hsame, _⟩ => ?_
  · rw [passes_eq_true.mpr h.stocked.coherent.valid] at hfalse
    cases hfalse
  subst hsame
  refine .bind (.conseq (survives_verifyInstalledSlots _ h.stocked.installed h.between_refl)
    (fun _ _ h => h) fun _ t ⟨hsame, hfails⟩ => ?_) fun _ t' _ hsame => ?_
  · subst hsame
    exact ⟨h.between_refl, fun hsane => .inr (hfails hsane)⟩
  subst hsame
  split
  · rename_i hfirst
    exact survives_storeRecovered h (by rw [State.recovered, if_pos hfirst])
  · rename_i hfirst
    split
    · rename_i hsecond
      exact survives_storeRecovered h (by rw [State.recovered, if_neg hfirst, if_pos hsecond])
    · rename_i hsecond
      have hsame : d = d.recovered := by rw [State.recovered, if_neg hfirst, if_neg hsecond]
      exact .pure h.between_refl ⟨h.between_refl, hsame, hfile, h.stocked⟩

theorem State.fits (d : State) : d.marshal.length ≤ maxStateBytes :=
  d.length_marshal_le.trans (by decide)

theorem survives_loadAndRecover (h : Holds K cfg P s.fs d) :
    Survives (behave F n) (Between K cfg P d (· = d.recovered) s) (loadAndRecover K cfg) s
      (Done K cfg P d (· = d.recovered) s) (fun _ t => Unopened K cfg P F d s t) := by
  unfold loadAndRecover
  refine .bind (survives_readPrivateFile h.between_refl) fun r t _ ⟨hsame, hfound⟩ => ?_
  subst hsame
  cases r with
  | ok data =>
    have hnow := hfound.ok data rfl
    have hfile : t.fs.now (.plain .state) = some d.file := by
      obtain hfile | ⟨hnone, -⟩ := h.file
      · exact hfile
      · rw [hnow] at hnone
        cases hnone
    have hdata : data = d.marshal :=
      congrArg File.data (Option.some.inj (hnow.symm.trans hfile))
    subst hdata
    simp only [decodeState_marshal]
    exact survives_recoverState h hfile
  | error e =>
    have hother : e ≠ .notExist → Sane F → False := by
      intro hne hsane
      obtain hfile | ⟨hnone, -⟩ := h.file
      · cases hfound.fits hsane d.marshal hfile d.fits
      · exact hne (by simpa using hfound.missing hsane hnone)
    cases e with
    | notExist =>
      obtain hfile | ⟨-, rfl⟩ := h.file
      · rw [hfound.absent rfl] at hfile
        cases hfile
      · exact survives_storeRecovered h rfl
    | exist | io =>
      exact .throw h.between_refl
        ⟨h.between_refl, fun hsane => (hother (fun h => nomatch h) hsane).elim⟩

/-- An operation without effect, whose failure is an error. -/
theorem survives_inert {o : Op} {E : Err → Site → Prop} (hI : I s)
    (hinert : ∀ answer t, o.apply n s answer t → t = s) :
    Survives (behave F n) I (perform o) s (fun answer t => t = s ∧ F o s answer) E :=
  .perform hI fun answer t ⟨hop, hF⟩ => by
    have hsame := hinert answer t hop
    exact ⟨hsame ▸ hI, hsame, hF⟩

theorem survives_prepareSlot {slot : SlotName} (hI : ∀ t, s.Keeps (Leftover slot) t → I t) :
    Survives (behave F n) I (prepareSlot slot) s (fun _ t => s.Keeps (Leftover slot) t)
      (fun _ t => t = s ∧ ¬Sane F) := by
  unfold prepareSlot
  have hIs := hI s (.refl s)
  refine .bind (survives_inert hIs fun _ _ hop => hop) fun made t _ ⟨hsame, hmade⟩ => ?_
  subst hsame
  refine .bind (survives_check hIs fun hfalse => ⟨rfl, fun hsane => ?_⟩) fun _ u _ ⟨hsame, _⟩ => ?_
  · have htrue : made = true := hsane _ _ _ hmade
    rw [htrue] at hfalse
    cases hfalse
  subst hsame
  refine .bind (survives_inert hIs fun _ _ hop => hop) fun isPrivate v _ ⟨hsame, hprivate⟩ => ?_
  subst hsame
  refine .bind (survives_check hIs fun hfalse => ⟨rfl, fun hsane => ?_⟩) fun _ x _ ⟨hsame, _⟩ => ?_
  · have htrue : isPrivate = true := hsane _ _ _ hprivate
    rw [htrue] at hfalse
    cases hfalse
  subst hsame
  exact survives_cleanInterruptedFiles hI

theorem survives_openOwned (h : Holds K cfg P s.fs d) :
    Survives (behave F n) (Between K cfg P d (· = d.recovered) s) (openOwned K cfg) s
      (Done K cfg P d (· = d.recovered) s)
      (fun _ t => Between K cfg P d (· = d.recovered) s t ∧ (Sane F → ¬ReadsBack P)) := by
  unfold openOwned
  -- Up to `loadAndRecover` only temporary files are removed.
  have htemporary : ∀ {N : FileName → Prop} {t u : Site}, Between K cfg P d (· = d.recovered) s t →
      t.fs.now (.plain .state) = s.fs.now (.plain .state) → t.Keeps N u →
      (∀ entry, ¬N (.plain entry)) → Between K cfg P d (· = d.recovered) s u := by
    intro N t u hbetween hstate hkeeps hN
    refine .after hbetween.owner hbetween.undisturbed (Holds.between ?_ hkeeps ?_ (hN .state))
    · exact h.undisturbed hbetween.undisturbed hstate
    · exact .of_agree hkeeps.files fun _ _ => ⟨hN _, hN _⟩
  have hscratch : ∀ entry, ¬Scratch .state (.plain entry) := fun _ h => nomatch h
  have hleftover : ∀ slot entry, ¬Leftover slot (.plain entry) := by
    intro slot entry
    simp [Leftover]
  refine .bind (survives_remove fun t h' => htemporary h.between_refl rfl h' hscratch)
    fun _ t₁ hI₁ ⟨hkeeps₁, hnone⟩ => ?_
  have hstate₁ := hkeeps₁.files _ (hscratch .state)
  refine .bind (.conseq (survives_prepareSlot fun t h' => htemporary hI₁ hstate₁ h' (hleftover .a))
    (fun _ _ h => h) fun _ t ⟨hsame, hsane⟩ => ?_) fun _ t₂ hI₂ hkeeps₂ => ?_
  · subst hsame
    exact ⟨hI₁, fun h => absurd h hsane⟩
  have hstate₂ := (hkeeps₂.files _ (hleftover .a .state)).trans hstate₁
  refine .bind (.conseq (survives_prepareSlot fun t h' => htemporary hI₂ hstate₂ h' (hleftover .b))
    (fun _ _ h => h) fun _ t ⟨hsame, hsane⟩ => ?_) fun _ t₃ hI₃ hkeeps₃ => ?_
  · subst hsame
    exact ⟨hI₂, fun h => absurd h hsane⟩
  have hstate₃ := (hkeeps₃.files _ (hleftover .b .state)).trans hstate₂
  have hnone₃ : Sane F → t₃.fs.now (.temporary .state) = none := by
    intro hsane
    rw [hkeeps₃.files _ (by simp [Leftover]), hkeeps₂.files _ (by simp [Leftover])]
    exact hnone hsane
  have hcompose : ∀ {u}, Between K cfg P d (· = d.recovered) t₃ u →
      Between K cfg P d (· = d.recovered) s u :=
    fun h => h.after hI₃.owner hI₃.undisturbed
  refine .mono (survives_loadAndRecover (h.undisturbed hI₃.undisturbed hstate₃)) (fun _ => hcompose)
    (fun _ _ hdone => { hdone with between := hcompose hdone.between })
    fun _ u hfailed => ⟨hcompose hfailed.between, fun hsane => ?_⟩
  exact (hfailed.excuse hsane).resolve_left (by simp [hnone₃ hsane])

/-- The root while `Open` runs under the number `n`. -/
structure Opening (K : Crypto) (cfg : Config) (P : Manifest → Prop) (d : State) (n : Nat)
    (s t : Site) : Prop where
  undisturbed : Undisturbed d.references s.fs t.fs
  owner : t.owner = s.owner ∨ (s.owner = none ∧ t.owner = some n)
  holds : Holds K cfg P t.fs d ∨ Holds K cfg P t.fs d.recovered
  barred : s.owner ≠ none → t.fs = s.fs

/-- `Open` has returned a manager. -/
structure Opened (K : Crypto) (cfg : Config) (P : Manifest → Prop) (d : State) (n : Nat)
    (s : Site) (r : State) (t : Site) : Prop where
  opening : Opening K cfg P d n s t
  owner : t.owner = some n
  unowned : s.owner = none
  state : r = d.recovered
  file : t.fs.now (.plain .state) = some r.file

/-- The errors of `Open`. -/
structure OpenFailed (K : Crypto) (cfg : Config) (P : Manifest → Prop) (F : Faults) (d : State)
    (n : Nat) (s t : Site) : Prop where
  opening : Opening K cfg P d n s t
  owner : t.owner = s.owner
  excuse : Sane F → cfg.check = .ok () → s.owner = none → ¬ReadsBack P

theorem survives_releasing {body : Updating State} {Q : State → Site → Prop}
    {E E' : Err → Site → Prop} (h : Survives (behave F n) I body s Q E)
    (hI : ∀ t, I t → I (t.vacate n)) (hE : ∀ e t, E e t → E' e (t.vacate n)) :
    Survives (behave F n) I (releasing body) s Q E' := by
  unfold releasing
  refine .bind (.attempt (R := Discipline.Returns Q E) h (fun _ _ h => h) fun _ _ h => h)
    fun r t hIt hr => ?_
  cases r with
  | ok a => exact .pure hIt hr
  | error e =>
    refine .bind (R := fun _ u => u = t.vacate n)
      (.perform hIt fun _ u ⟨hop, _⟩ => ⟨by rw [show u = t.vacate n from hop]; exact hI t hIt, hop⟩)
      fun _ u hIu hsame => ?_
    subst hsame
    exact .throw hIu (hE e t hr)

theorem survives_openManager (h : Holds K cfg P s.fs d) :
    Survives (behave F n) (Opening K cfg P d n s) (openManager K cfg) s
      (Opened K cfg P d n s) (fun _ t => OpenFailed K cfg P F d n s t) := by
  unfold openManager
  have hstart : Opening K cfg P d n s s := ⟨.refl _ _, .inl rfl, .inl h, fun _ => rfl⟩
  refine .bind (R := fun _ t => t = s ∧ cfg.check = .ok ())
    (.result hstart (fun _ hok => ⟨rfl, hok⟩) fun e herror => ⟨hstart, rfl, fun _ hok => ?_⟩)
    fun _ t₀ _ ⟨hsame, hcheck⟩ => ?_
  · rw [herror] at hok
    cases hok
  subst hsame
  have hfails : ∀ {ok : Bool} {e : Err}, (Sane F → t₀.owner = none → ok = true) → ok = false →
      OpenFailed K cfg P F d n t₀ t₀ := by
    intro ok e hok hfalse
    refine ⟨hstart, rfl, fun hsane _ hnone => ?_⟩
    rw [hok hsane hnone] at hfalse
    cases hfalse
  refine .bind (survives_inert hstart fun _ _ hop => hop) fun made t₁ _ ⟨hsame, hmade⟩ => ?_
  subst hsame
  refine .bind (survives_check hstart (hfails (e := .io) fun hsane _ => hsane _ _ _ hmade))
    fun _ t₂ _ ⟨hsame, _⟩ => ?_
  subst hsame
  refine .bind (survives_inert hstart fun _ _ hop => hop) fun isPrivate t₃ _ ⟨hsame, hprivate⟩ => ?_
  subst hsame
  refine .bind (survives_check hstart (hfails (e := .io) fun hsane _ => hsane _ _ _ hprivate))
    fun _ t₄ _ ⟨hsame, _⟩ => ?_
  subst hsame
  refine .bind (R := fun acquired t => (Sane F → t₄.owner = none → acquired = true) ∧
      (acquired = false → t = t₄) ∧
      (acquired = true → t₄.owner = none ∧ t = { t₄ with owner := some n }))
    (.perform hstart fun acquired t ⟨hop, hF⟩ => ?_) fun acquired t₅ hI₅ ⟨hsane, hlost, hwon⟩ => ?_
  · have hhealthy : Sane F → t₄.owner = none → acquired = true := by
      intro hsane hnone
      have hanswer : acquired = t₄.owner.isNone := hsane _ _ _ hF
      rw [hanswer, hnone]
      rfl
    obtain ⟨rfl, hnone, rfl⟩ | ⟨rfl, rfl⟩ := hop
    · exact ⟨⟨.refl _ _, .inr ⟨hnone, rfl⟩, .inl h, fun _ => rfl⟩, hhealthy,
        (fun h => Bool.noConfusion h), fun _ => ⟨hnone, rfl⟩⟩
    · exact ⟨hstart, hhealthy, fun _ => rfl, fun h => Bool.noConfusion h⟩
  refine .bind (survives_check hI₅ fun hfalse => ?_) fun _ t₆ _ ⟨hsame, htrue⟩ => ?_
  · rw [hlost hfalse]
    exact hfails (e := .io) hsane hfalse
  subst hsame
  obtain ⟨hnone, hsite⟩ := hwon htrue
  have hfs : t₆.fs = t₄.fs := by rw [hsite]
  have howner : t₆.owner = some n := by rw [hsite]
  have hvacate : ∀ t : Site, t.owner = some n → (t.vacate n).owner = t₄.owner := by
    intro t ht
    simp [Site.vacate, ht, hnone]
  have hopening : ∀ {t : Site}, Between K cfg P d (· = d.recovered) t₆ t →
      (t.owner = some n) ∧ Undisturbed d.references t₄.fs t.fs ∧
        (Holds K cfg P t.fs d ∨ Holds K cfg P t.fs d.recovered) := by
    intro t hbetween
    refine ⟨hbetween.owner.trans howner, hfs ▸ hbetween.undisturbed, hbetween.holds.imp_right ?_⟩
    rintro ⟨d', rfl, hholds⟩
    exact hholds
  refine survives_releasing (E := fun _ t => Between K cfg P d (· = d.recovered) t₆ t ∧
      (Sane F → ¬ReadsBack P)) (.mono (survives_openOwned (hfs ▸ h)) (fun t hbetween => ?_)
      (fun r t hdone => ?_) fun _ _ h => h) (fun t hI => ?_) fun e t ⟨hbetween, hsane⟩ => ?_
  · obtain ⟨ho, hu, hh⟩ := hopening hbetween
    exact ⟨hu, .inr ⟨hnone, ho⟩, hh, fun hsome => absurd hnone hsome⟩
  · obtain ⟨ho, hu, hh⟩ := hopening hdone.between
    exact ⟨⟨hu, .inr ⟨hnone, ho⟩, hh, fun hsome => absurd hnone hsome⟩, ho, hnone, hdone.next,
      hdone.file⟩
  · refine ⟨hI.undisturbed, ?_, hI.holds, hI.barred⟩
    obtain hsame | ⟨-, ho⟩ := hI.owner
    · exact .inl (by simp [Site.vacate, hsame, hnone])
    · exact .inl (hvacate t ho)
  · obtain ⟨ho, hu, hh⟩ := hopening hbetween
    exact ⟨⟨hu, .inl (hvacate t ho), hh, fun hsome => absurd hnone hsome⟩, hvacate t ho,
      fun hs _ _ => hsane hs⟩

end TosAi.SoftwareUpdate
