/-
  The invariant of every run.

  `Advance` says what one step can do: it keeps the invariant, it does not touch the
  files of a referenced slot, and the state on disk stays or moves as `Move` allows.
  The other modules argue from `Advance` alone.

  The steps may fail as they like in `Open`; in the other methods nothing may fail once
  `state.json` has been replaced (`Firm`).
-/
import TosAi.SoftwareUpdate.Methods

set_option autoImplicit false

namespace TosAi.SoftwareUpdate

open Foundation

variable {K : Crypto} {cfg : Config} {P : Manifest → Prop} {w w' : World} {label : Label}

/-! ## The invariant -/

/-- The manager is in use. -/
def World.Live (w : World) (k : Nat) (m : Manager) : Prop :=
  w.managers k = some m ∧ m.closed = false

/-- A candidate comes from the last activation, and once its start has been noted the
manager in use is one opened after it. -/
def Tried (w : World) : Prop :=
  w.disk.awaitingHealth = true → ∃ k slot, w.activation = some (k, slot) ∧
    w.disk.active = some slot ∧ k ≤ w.next ∧
    (w.disk.bootAttempted = true → ∀ j m, w.Live j m → k ≤ j)

structure Inv (K : Crypto) (cfg : Config) (P : Manifest → Prop) (w : World) : Prop where
  holds : Holds K cfg P w.site.fs w.disk
  fresh : ∀ k, w.next ≤ k → w.managers k = none
  live : ∀ k m, w.Live k m →
    w.site.owner = some k ∧ w.site.fs.now (.plain .state) = some m.state.file
  held : ∀ k, w.site.owner = some k → ∃ m, w.Live k m
  tried : Tried w

theorem inv_init : Inv K cfg P World.init where
  holds := {
    stocked := {
      coherent := State.coherent_initial
      installed := fun _ hslot => nomatch hslot
      current := fun _ hgood => nomatch hgood }
    file := .inr ⟨rfl, rfl⟩ }
  fresh := fun _ _ => rfl
  live := fun _ _ hlive => nomatch hlive.1
  held := fun _ howner => nomatch howner
  tried := fun hawaiting => nomatch hawaiting

namespace Inv

variable (h : Inv K cfg P w)
include h

/-- **Memory and disk agree.** -/
theorem state_eq {k : Nat} {m : Manager} (hlive : w.Live k m) : m.state = w.disk :=
  (persisted_of_file (h.live k m hlive).2).symm

theorem live_unique {k j : Nat} {m m' : Manager} (hk : w.Live k m) (hj : w.Live j m') : j = k := by
  have howner := (h.live k m hk).1
  rw [(h.live j m' hj).1] at howner
  exact Option.some.inj howner

theorem lt_next {k : Nat} {m : Manager} (hk : w.managers k = some m) : k < w.next := by
  by_contra hle
  rw [h.fresh k (Nat.le_of_not_lt hle)] at hk
  cases hk

end Inv

/-- What a step may make of the state on disk. -/
inductive Move (w : World) : Label → State → Prop where
  | opened (ok : Bool) : Move w (.opened ok) w.disk.recovered
  | openDied : Move w .openDied w.disk.recovered
  | called {k : Nat} {m : Manager} {method : Method} {d : State} (hlive : w.Live k m)
      (heffect : Effect w.disk method d) (ok : Bool) : Move w (.called k method ok) d
  | callDied {k : Nat} {m : Manager} {method : Method} {d : State} (hlive : w.Live k m)
      (heffect : Effect w.disk method d) : Move w (.callDied k method) d

structure Advance (K : Crypto) (cfg : Config) (P : Manifest → Prop) (w : World) (label : Label)
    (w' : World) : Prop where
  inv : Inv K cfg P w'
  undisturbed : Undisturbed w.disk.references w.site.fs w'.site.fs
  move : w'.disk = w.disk ∨ Move w label w'.disk

/-! ## Steps that leave the disk -/

theorem Holds.here {fs : Fs FileName} {d : State} (h : Holds K cfg P fs d) :
    Holds K cfg P fs (persisted fs) := by
  rwa [h.persisted_eq]

/-- The candidate stays the same. -/
theorem Tried.keep (h : Tried w) (hactivation : w'.activation = w.activation)
    (hnext : w.next ≤ w'.next)
    (hdisk : w'.disk.awaitingHealth = true → w.disk.awaitingHealth = true ∧
      w'.disk.active = w.disk.active)
    (hlive : w'.disk.bootAttempted = true → ∀ j m, w'.Live j m → w.next ≤ j ∨
      (w.disk.bootAttempted = true ∧ ∃ m', w.Live j m')) : Tried w' := by
  intro hawaiting
  obtain ⟨hawaiting', hactive⟩ := hdisk hawaiting
  obtain ⟨k, slot, hactivated, hslot, hk, hboot⟩ := h hawaiting'
  refine ⟨k, slot, hactivation.trans hactivated, hactive.trans hslot, hk.trans hnext,
    fun hboot' j m hj => ?_⟩
  obtain hnew | ⟨hold, m', hm'⟩ := hlive hboot' j m hj
  · exact hk.trans hnew
  · exact hboot hold j m' hm'

/-- Some managers are gone, and the root may be given back. -/
theorem Inv.fewer (h : Inv K cfg P w) (hfs : w'.site.fs = w.site.fs)
    (hactivation : w'.activation = w.activation) (hnext : w.next ≤ w'.next)
    (hfresh : ∀ k, w'.next ≤ k → w'.managers k = none)
    (hlive : ∀ k m, w'.Live k m → w.Live k m ∧ w'.site.owner = w.site.owner)
    (hheld : ∀ k, w'.site.owner = some k → ∃ m, w'.Live k m) :
    Advance K cfg P w label w' := by
  have hdisk : w'.disk = w.disk := congrArg persisted hfs
  refine ⟨⟨?_, hfresh, fun k m hk => ?_, hheld, ?_⟩, ?_, .inl hdisk⟩
  · rw [hdisk, hfs]
    exact h.holds
  · obtain ⟨hk, howner⟩ := hlive k m hk
    rw [howner, hfs]
    exact h.live k m hk
  · refine h.tried.keep hactivation hnext (fun hawaiting => ?_) fun hboot j m hj => .inr ⟨?_, m, ?_⟩
    · rw [hdisk] at hawaiting ⊢
      exact ⟨hawaiting, rfl⟩
    · rwa [hdisk] at hboot
    · exact (hlive j m hj).1
  · rw [hfs]
    exact .refl _ _

variable {site : Site} {k n : Nat} {F : Faults} {m : Manager} {method : Method}

theorem Site.vacate_owner {s : Site} (h : s.owner = some k) (hne : k ≠ n) :
    (s.vacate n).owner = s.owner := by
  simp [Site.vacate, h, hne]

theorem Site.owner_of_vacate {s : Site} (h : (s.vacate n).owner = some k) :
    k ≠ n ∧ s.owner = some k := by
  by_cases howner : s.owner = some n
  · simp [Site.vacate, howner] at h
  · simp only [Site.vacate, if_neg howner] at h
    refine ⟨?_, h⟩
    rintro rfl
    exact howner h

theorem advance_died (h : Inv K cfg P w) (n : Nat) :
    Advance K cfg P w label
      { w with site := w.site.vacate n, managers := Function.update w.managers n none } := by
  refine h.fewer rfl rfl (Nat.le_refl _) (fun k hk => ?_) (fun k m ⟨hk, hopen⟩ => ?_)
    fun k hk => ?_
  · by_cases hkn : k = n
    · simp [hkn]
    · simpa [Function.update_of_ne hkn] using h.fresh k hk
  · have hne : k ≠ n := by
      rintro rfl
      simp at hk
    simp only [Function.update_of_ne hne] at hk
    exact ⟨⟨hk, hopen⟩, Site.vacate_owner (h.live k m ⟨hk, hopen⟩).1 hne⟩
  · obtain ⟨hne, howner⟩ := Site.owner_of_vacate hk
    obtain ⟨m, hm, hopen⟩ := h.held k howner
    exact ⟨m, by simpa [Function.update_of_ne hne] using hm, hopen⟩

theorem advance_closed (h : Inv K cfg P w) {m' : Manager} (hmanager : w.managers n = some m)
    (hsteps : Prog.Steps (behave F n) (closeManager m).run w.site (.ret (.ok m')) site) :
    Advance K cfg P w label
      { w with site, managers := Function.update w.managers n (some m') } := by
  have hspec : Survives (behave F n) (fun _ => True) (closeManager m) w.site
      (fun r t => r.closed = true ∧ t.fs = w.site.fs ∧
        (∀ k, k ≠ n → w.site.owner = some k → t.owner = w.site.owner) ∧
        ∀ k, t.owner = some k → w.site.owner = some k ∧ k ≠ n) fun _ _ => False := by
    unfold closeManager
    split
    · rename_i hclosed
      refine .pure trivial ⟨hclosed, rfl, fun _ _ _ => rfl, fun k hk => ⟨hk, ?_⟩⟩
      rintro rfl
      obtain ⟨m'', hm'', hopen⟩ := h.held k hk
      rw [hmanager] at hm''
      cases hm''
      rw [hclosed] at hopen
      cases hopen
    · refine .bind (R := fun _ t => t = w.site.vacate n) (.perform trivial fun _ _ ⟨hop, _⟩ =>
        ⟨trivial, hop⟩) fun _ t _ hsame => .pure trivial ⟨rfl, ?_⟩
      subst hsame
      exact ⟨rfl, fun k hne hk => Site.vacate_owner hk hne,
        fun k hk => (Site.owner_of_vacate hk).symm⟩
  obtain ⟨hclosed, hfs, howner, hheld⟩ := hspec.ends hsteps
  refine h.fewer hfs rfl (Nat.le_refl _) (fun k hk => ?_) (fun k m'' ⟨hk, hopen⟩ => ?_)
    fun k hk => ?_
  · have hne : k ≠ n := by
      rintro rfl
      exact absurd (h.lt_next hmanager) (Nat.not_lt_of_le hk)
    simpa [Function.update_of_ne hne] using h.fresh k hk
  · have hne : k ≠ n := by
      rintro rfl
      simp only [Function.update_self, Option.some.injEq] at hk
      subst hk
      rw [hclosed] at hopen
      cases hopen
    simp only [Function.update_of_ne hne] at hk
    exact ⟨⟨hk, hopen⟩, howner k hne (h.live k m'' ⟨hk, hopen⟩).1⟩
  · obtain ⟨hk, hne⟩ := hheld k hk
    obtain ⟨m'', hm'', hopen⟩ := h.held k hk
    exact ⟨m'', by simpa [Function.update_of_ne hne] using hm'', hopen⟩

/-! ## Open -/

theorem State.recovered_candidate {d : State} (h : d.recovered.awaitingHealth = true) :
    d.awaitingHealth = true ∧ d.recovered.active = d.active := by
  obtain ⟨hawaiting, -, hd⟩ | ⟨-, -, hd⟩ | ⟨hidle, hd⟩ := d.recovered_cases <;> rw [hd] at h ⊢
  · exact ⟨hawaiting, rfl⟩
  · cases h
  · exact ⟨h, rfl⟩

/-- What `Open` leaves, whether it returned or died. -/
theorem advance_opening (h : Inv K cfg P w) (hopening : Opening K cfg P w.disk w.next w.site site)
    (hfs : w'.site.fs = site.fs) (hactivation : w'.activation = w.activation)
    (hnext : w'.next = w.next + 1) (hmove : w'.disk = w.disk.recovered → Move w label w'.disk)
    (hfresh : ∀ k, w'.next ≤ k → w'.managers k = none)
    (hlive : ∀ k m, w'.Live k m →
      (k = w.next ∧ w'.site.owner = some k ∧ site.fs.now (.plain .state) = some m.state.file) ∨
      (w.Live k m ∧ w'.site.owner = w.site.owner))
    (hheld : ∀ k, w'.site.owner = some k → ∃ m, w'.Live k m) : Advance K cfg P w label w' := by
  have hdisk : w'.disk = w.disk ∨ w'.disk = w.disk.recovered := by
    refine hopening.holds.imp (fun hholds => ?_) fun hholds => ?_
    · exact (congrArg persisted hfs).trans hholds.persisted_eq
    · exact (congrArg persisted hfs).trans hholds.persisted_eq
  have hbarred : ∀ k m, w.Live k m → w'.site.fs = w.site.fs := by
    intro k m hk
    refine hfs.trans (hopening.barred ?_)
    rw [(h.live k m hk).1]
    exact fun h => nomatch h
  refine ⟨⟨?_, hfresh, fun k m hk => ?_, hheld, ?_⟩, ?_, hdisk.imp_right hmove⟩
  · have hholds : Holds K cfg P site.fs (persisted site.fs) :=
      hopening.holds.elim Holds.here Holds.here
    rw [World.disk, hfs]
    exact hholds
  · obtain ⟨-, howner, hfile⟩ | ⟨hold, howner⟩ := hlive k m hk
    · exact ⟨howner, hfs ▸ hfile⟩
    · rw [howner, hbarred k m hold]
      exact h.live k m hold
  · refine h.tried.keep hactivation (hnext ▸ Nat.le_succ _) (fun hawaiting => ?_)
      fun hboot j m hj => ?_
    · obtain hsame | hrecovered := hdisk
      · rw [hsame] at hawaiting ⊢
        exact ⟨hawaiting, rfl⟩
      · rw [hrecovered] at hawaiting ⊢
        exact State.recovered_candidate hawaiting
    · obtain ⟨rfl, -, -⟩ | ⟨hold, -⟩ := hlive j m hj
      · exact .inl (Nat.le_refl _)
      · have hsame : w'.disk = w.disk := congrArg persisted (hbarred j m hold)
        rw [hsame] at hboot
        exact .inr ⟨hboot, m, hold⟩
  · rw [hfs]
    exact hopening.undisturbed

theorem advance_opened (h : Inv K cfg P w) {value : Except Err State}
    (hsteps : Prog.Steps (behave F w.next) (openManager K cfg).run w.site (.ret value) site) :
    Advance K cfg P w (.opened value.isOk) (w.opened site value) := by
  have hend := (survives_openManager (F := F) (n := w.next) h.holds).ends hsteps
  have hopening : Opening K cfg P w.disk w.next w.site site := by
    cases value with
    | ok r | error e => exact hend.opening
  have hold : ∀ k m, w.Live k m → (w.opened site value).Live k m := by
    intro k m hk
    have hne : k ≠ w.next := Nat.ne_of_lt (h.lt_next hk.1)
    exact ⟨by simpa [World.opened, Function.update_of_ne hne] using hk.1, hk.2⟩
  refine advance_opening h hopening rfl rfl rfl (fun hrecovered => ?_) (fun k hk => ?_)
    (fun k m ⟨hk, hopen⟩ => ?_) fun k hk => ?_
  · rw [hrecovered]
    exact .opened _
  · have hlt : w.next < k := hk
    simpa [World.opened, Function.update_of_ne (Nat.ne_of_gt hlt)] using h.fresh k
      (Nat.le_of_lt hlt)
  · by_cases hkn : k = w.next
    · subst hkn
      cases value with
      | error e => simp [World.opened] at hk
      | ok r =>
        have hm : (⟨r, false, none⟩ : Manager) = m := by simpa [World.opened] using hk
        subst hm
        exact .inl ⟨rfl, hend.owner, hend.file⟩
    · simp only [World.opened, Function.update_of_ne hkn] at hk
      refine .inr ⟨⟨hk, hopen⟩, ?_⟩
      cases value with
      | error e => exact hend.owner
      | ok r =>
        have howner := (h.live k m ⟨hk, hopen⟩).1
        rw [hend.unowned] at howner
        cases howner
  · replace hk : site.owner = some k := hk
    cases value with
    | error e =>
      obtain ⟨m, hm⟩ := h.held k (hend.owner.symm.trans hk)
      exact ⟨m, hold k m hm⟩
    | ok r =>
      obtain rfl : w.next = k := Option.some.inj (hend.owner.symm.trans hk)
      exact ⟨⟨r, false, none⟩, by simp [World.opened], rfl⟩

theorem advance_openDied (h : Inv K cfg P w) {rest : Prog Op Op.Res (Except Err State)}
    (hsteps : Prog.Steps (behave F w.next) (openManager K cfg).run w.site rest site) :
    Advance K cfg P w .openDied (w.openDied site) := by
  have hopening := (survives_openManager (F := F) (n := w.next) h.holds).cut hsteps
  refine advance_opening h hopening rfl rfl rfl (fun hrecovered => ?_) (fun k hk => ?_)
    (fun k m hk => .inr ⟨hk, ?_⟩) fun k hk => ?_
  · rw [hrecovered]
    exact .openDied
  · exact h.fresh k (Nat.le_of_lt hk)
  · have howner := (h.live k m hk).1
    have hsame : site.owner = w.site.owner := by
      obtain hsame | ⟨hnone, -⟩ := hopening.owner
      · exact hsame
      · rw [hnone] at howner
        cases howner
    have hne : k ≠ w.next := Nat.ne_of_lt (h.lt_next hk.1)
    exact (Site.vacate_owner (hsame.trans howner) hne).trans hsame
  · obtain ⟨hne, howner⟩ := Site.owner_of_vacate hk
    obtain hsame | ⟨-, hself⟩ := hopening.owner
    · exact h.held k (hsame.symm.trans howner)
    · exact absurd (Option.some.inj (howner.symm.trans hself)) hne

/-! ## The methods -/

theorem World.noted_of_same (h : persisted site.fs = w.disk) :
    w.noted method site = w.activation := by
  cases method with
  | activatePending => simp [World.noted, h]
  | stage request => rfl
  | confirmHealthy => rfl
  | rollback => rfl

/-- After a call that may have stored a state. -/
theorem tried_of_effect (h : Inv K cfg P w) (hlive : w.Live k m)
    (hdisk : persisted site.fs = w.disk ∨ Effect w.disk method (persisted site.fs))
    (hfs : w'.site.fs = site.fs) (hactivation : w'.activation = w.noted method site)
    (hnext : w'.next = w.next) (hfewer : ∀ j m', w'.Live j m' → j = k) : Tried w' := by
  have hsame : w'.disk = persisted site.fs := congrArg persisted hfs
  have hkeep : w.noted method site = w.activation →
      (w'.disk.awaitingHealth = true → w.disk.awaitingHealth = true ∧
        w'.disk.active = w.disk.active) →
      (w'.disk.bootAttempted = true → w.disk.bootAttempted = true) → Tried w' :=
    fun hnoted hawaiting hboot => h.tried.keep (hactivation.trans hnoted) (Nat.le_of_eq hnext.symm)
      hawaiting fun hb j m' hj => .inr ⟨hboot hb, m, hfewer j m' hj ▸ hlive⟩
  obtain hstay | heffect := hdisk
  · rw [hsame, hstay] at hkeep
    exact hkeep (World.noted_of_same hstay) (fun hawaiting => ⟨hawaiting, rfl⟩) id
  · generalize hd : persisted site.fs = d at heffect
    rw [hsame, hd] at hkeep
    cases heffect with
    | staged hpending hidle => exact hkeep rfl (fun hawaiting => ⟨hawaiting, rfl⟩) id
    | confirmed hawaiting hboot revision =>
      exact hkeep rfl (fun h => nomatch h) (fun h => nomatch h)
    | rolledBack hgood => exact hkeep rfl (fun h => nomatch h) (fun h => nomatch h)
    | @activated slot hpending hidle =>
      have hmoved : w.disk.activated ≠ w.disk := by
        intro heq
        have hawaiting : w.disk.activated.awaitingHealth = true := rfl
        rw [heq, hidle] at hawaiting
        cases hawaiting
      intro _
      rw [hsame, hd]
      refine ⟨w.next, slot, ?_, hpending, Nat.le_of_eq hnext.symm, fun hboot => nomatch hboot⟩
      rw [hactivation, World.noted, hd, if_neg hmoved]
      show Option.map _ w.disk.pending = _
      rw [hpending]
      rfl

/-- What a call on a manager in use leaves, whether it returned or died. -/
theorem advance_method (h : Inv K cfg P w) (hlive : w.Live k m)
    (hbetween : Between K cfg P w.disk (Effect w.disk method) w.site site)
    (hfs : w'.site.fs = site.fs) (hactivation : w'.activation = w.noted method site)
    (hnext : w'.next = w.next) (hothers : ∀ j, j ≠ k → w'.managers j = w.managers j)
    (hmove : Effect w.disk method w'.disk → Move w label w'.disk)
    (hself : ∀ m', w'.Live k m' → w'.site.owner = some k ∧
      site.fs.now (.plain .state) = some m'.state.file)
    (hheld : ∀ j, w'.site.owner = some j → ∃ m', w'.Live j m') :
    Advance K cfg P w label w' := by
  have hdisk : persisted site.fs = w.disk ∨ Effect w.disk method (persisted site.fs) := by
    obtain hold | ⟨d, heffect, hnew⟩ := hbetween.holds
    · exact .inl hold.persisted_eq
    · exact .inr (hnew.persisted_eq.symm ▸ heffect)
  have hfewer : ∀ j m', w'.Live j m' → j = k := by
    intro j m' ⟨hj, hopen⟩
    by_contra hne
    rw [hothers j hne] at hj
    exact hne (h.live_unique hlive ⟨hj, hopen⟩)
  have hsame : w'.disk = persisted site.fs := congrArg persisted hfs
  refine ⟨⟨?_, fun j hj => ?_, fun j m' hj => ?_, hheld, ?_⟩, ?_, ?_⟩
  · rw [hsame, hfs]
    obtain hold | ⟨d, -, hnew⟩ := hbetween.holds
    · exact hold.here
    · exact hnew.here
  · have hlt := h.lt_next hlive.1
    rw [hnext] at hj
    rw [hothers j (Nat.ne_of_gt (Nat.lt_of_lt_of_le hlt hj))]
    exact h.fresh j hj
  · obtain rfl := hfewer j m' hj
    exact hfs ▸ hself m' hj
  · exact tried_of_effect h hlive hdisk hfs hactivation hnext hfewer
  · rw [hfs]
    exact hbetween.undisturbed
  · rw [← hsame] at hdisk
    exact hdisk.imp_right hmove

theorem advance_called (h : Inv K cfg P w) (hfirm : Firm F)
    (hP : ∀ request, method = .stage request → P request.manifest) {value : Except Err State}
    (hmanager : w.managers k = some m)
    (hsteps : Prog.Steps (behave F k) (method.body K cfg m).run w.site (.ret value) site) :
    Advance K cfg P w (.called k method value.isOk) (w.called k m method site value) := by
  cases hclosed : m.closed with
  | true =>
    have hend := (survives_closed hclosed method).ends hsteps
    cases value with
    | ok r => exact hend.elim
    | error e =>
      have hsite : site = w.site := hend
      subst hsite
      have hmanagers : Function.update w.managers k (some m) = w.managers := by
        rw [← hmanager, Function.update_eq_self]
      refine h.fewer rfl (World.noted_of_same rfl) (Nat.le_refl _) (fun j hj => ?_)
        (fun j m' hj => ⟨?_, rfl⟩) fun j hj => ?_
      · simpa [World.called, Manager.after, hmanagers] using h.fresh j hj
      · simpa [World.called, Manager.after, hmanagers, World.Live] using hj
      · simpa [World.called, Manager.after, hmanagers, World.Live] using h.held j hj
  | false =>
    have hlive : w.Live k m := ⟨hmanager, hclosed⟩
    have hstate := h.state_eq hlive
    have hend := (performs_method (F := F) (n := k) (hstate ▸ h.holds) hP).ends hsteps
    have hbetween : Between K cfg P w.disk (Effect w.disk method) w.site site := by
      rw [← hstate]
      cases value with
      | ok r | error e => exact hend.between
    refine advance_method h hlive hbetween rfl rfl rfl (fun j hj => Function.update_of_ne hj _ _)
      (fun heffect => .called hlive heffect _) (fun m' ⟨hm', _⟩ => ?_) fun j hj => ?_
    · obtain rfl : m.after value = m' := by simpa [World.called] using hm'
      refine ⟨hbetween.owner.trans (h.live k m hlive).1, ?_⟩
      cases value with
      | ok r => exact hend.file
      | error e => exact (hend.kept hfirm).trans (h.live k m hlive).2
    · have howner := hbetween.owner.trans (h.live k m hlive).1
      obtain rfl : k = j := Option.some.inj (howner.symm.trans hj)
      exact ⟨m.after value, by simp [World.called], by cases value <;> exact hclosed⟩

theorem advance_callDied (h : Inv K cfg P w)
    (hP : ∀ request, method = .stage request → P request.manifest)
    {rest : Prog Op Op.Res (Except Err State)} (hmanager : w.managers k = some m)
    (hsteps : Prog.Steps (behave F k) (method.body K cfg m).run w.site rest site) :
    Advance K cfg P w (.callDied k method) (w.callDied k method site) := by
  cases hclosed : m.closed with
  | true =>
    have hsite : site = w.site := (survives_closed hclosed method).cut hsteps
    subst hsite
    rw [World.callDied, World.noted_of_same rfl]
    exact advance_died h k
  | false =>
    have hlive : w.Live k m := ⟨hmanager, hclosed⟩
    have hstate := h.state_eq hlive
    have hbetween := (performs_method (F := F) (n := k) (hstate ▸ h.holds) hP).cut hsteps
    rw [hstate] at hbetween
    refine advance_method h hlive hbetween rfl rfl rfl (fun j hj => Function.update_of_ne hj _ _)
      (fun heffect => .callDied hlive heffect) (fun m' ⟨hm', _⟩ => ?_) fun j hj => ?_
    · simp [World.callDied] at hm'
    · obtain ⟨hne, howner⟩ := Site.owner_of_vacate hj
      have hself := hbetween.owner.trans (h.live k m hlive).1
      exact absurd (Option.some.inj (howner.symm.trans hself)) hne

/-! ## Runs -/

section Runs

variable {S : Setting}

/-- **What one step can do.** -/
theorem advance_of_step (hfirm : Firm S.calling) (h : Inv K cfg S.accepts w)
    (hstep : Step K cfg S w label w') : Advance K cfg S.accepts w label w' := by
  have hadmitted : ∀ {method}, S.admits method →
      ∀ request, method = .stage request → S.accepts request.manifest := by
    rintro method hadmits request rfl
    exact hadmits
  cases hstep with
  | opened hsteps => exact advance_opened h hsteps
  | openDied hsteps => exact advance_openDied h hsteps
  | called hmanager hadmits hsteps =>
    exact advance_called h hfirm (hadmitted hadmits) hmanager hsteps
  | callDied hmanager hadmits hsteps =>
    exact advance_callDied h (hadmitted hadmits) hmanager hsteps
  | closed hmanager hsteps => exact advance_closed h hmanager hsteps
  | died n => exact advance_died h n

theorem inv_of_run (hfirm : Firm S.calling) {A : World → Label → World → Prop}
    (h : Inv K cfg S.accepts w) (hrun : Run K cfg S A w w') : Inv K cfg S.accepts w' := by
  induction hrun with
  | refl => exact h
  | tail _ hstep _ ih => exact (advance_of_step hfirm ih hstep).inv

/-- **The invariant holds in every world that is reached.** -/
theorem inv_of_reach (hfirm : Firm S.calling) (hreach : Reach K cfg S World.init w) :
    Inv K cfg S.accepts w :=
  inv_of_run hfirm inv_init hreach

end Runs

end TosAi.SoftwareUpdate
