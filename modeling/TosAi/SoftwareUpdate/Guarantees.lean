/-
  What the update manager guarantees.

  `crash_safe`: the process may die anywhere, the next `Open` succeeds, a referenced slot
  is never written to, and a candidate gets one start.  `rollback_protected`: the security
  revision and the known-good slot move only with `ConfirmHealthy`.
  `memory_agrees`: what a manager has in memory is what `state.json` holds, provided that
  nothing fails after its replacement; `memory_diverges` is the case where something does.
-/
import TosAi.SoftwareUpdate.Runs

set_option autoImplicit false

namespace TosAi.SoftwareUpdate

open Foundation

variable {K : Crypto} {cfg : Config} {P : Manifest → Prop} {S : Setting} {w w' : World}
  {label : Label}

/-! ## Starting again -/

theorem sane_healthy : Sane Op.healthy := fun _ _ _ h => h

/-- No operation fails, and the manifests staged satisfy `P`. -/
def reliable (P : Manifest → Prop) : Setting := ⟨Op.healthy, Op.healthy, P⟩

theorem firm_reliable : Firm (reliable P).calling := sane_healthy.firm

theorem open_succeeds (hback : ReadsBack P) (hcheck : cfg.check = .ok ()) (h : Inv K cfg P w)
    (hidle : ∀ k m, ¬w.Live k m) :
    Ends (behave Op.healthy w.next) (openManager K cfg) w.site
      (fun r t => r = w.disk.recovered ∧ t.fs.now (.plain .state) = some r.file)
      (fun _ _ => False) := by
  have hnone : w.site.owner = none := by
    cases howner : w.site.owner with
    | none => rfl
    | some k =>
      obtain ⟨m, hlive⟩ := h.held k howner
      exact absurd hlive (hidle k m)
  have hsurvives := survives_openManager (F := Op.healthy) (n := w.next) h.holds
  have hends := hsurvives.always fun o s => ⟨_, _, behave_run w.next o s⟩
  exact Ends.conseq hends (fun r t hopened => ⟨hopened.state, hopened.file⟩)
    fun e t hfailed => hfailed.excuse sane_healthy hcheck hnone hback

/-! ## The trial of a candidate -/

/-- The step is one of an `Open`. -/
def Label.isOpen : Label → Bool
  | .opened _ | .openDied => true
  | _ => false

/-- The step is one of an `ActivatePending`. -/
def Label.isActivation : Label → Bool
  | .called _ .activatePending _ | .callDied _ .activatePending => true
  | _ => false

/-- The step is one of a `ConfirmHealthy` of the manager. -/
def Label.isConfirmation (k : Nat) : Label → Prop
  | .called n .confirmHealthy _ | .callDied n .confirmHealthy => n = k
  | _ => False

/-- The step is one of an `Open`, a `ConfirmHealthy` or a `Rollback`. -/
def Label.decides : Label → Bool
  | .opened _ | .openDied | .called _ .confirmHealthy _ | .callDied _ .confirmHealthy
  | .called _ .rollback _ | .callDied _ .rollback => true
  | _ => false

/-- No `Open`, `ConfirmHealthy` or `Rollback` takes effect. -/
def Quiet (w : World) (label : Label) (w' : World) : Prop :=
  label.decides = true → w'.disk = w.disk

/-- While a candidate is on trial nothing else is staged or activated. -/
theorem disk_of_quiet (hadvance : Advance K cfg P w label w') (hquiet : Quiet w label w')
    (hawaiting : w.disk.awaitingHealth = true) : w'.disk = w.disk := by
  have hdecides : ∀ {method d}, Effect w.disk method d →
      method = .confirmHealthy ∨ method = .rollback := by
    intro method d heffect
    cases heffect with
    | staged hpending hidle | activated hpending hidle =>
      rw [hidle] at hawaiting
      cases hawaiting
    | confirmed hawaiting hboot revision => exact .inl rfl
    | rolledBack hgood => exact .inr rfl
  obtain hstay | hmove := hadvance.move
  · exact hstay
  · refine hquiet ?_
    generalize w'.disk = d at hmove
    cases hmove with
    | opened ok => rfl
    | openDied => rfl
    | called hlive heffect ok => obtain rfl | rfl := hdecides heffect <;> rfl
    | callDied hlive heffect => obtain rfl | rfl := hdecides heffect <;> rfl

theorem disk_of_quiet_run (hfirm : Firm S.calling) (h : Inv K cfg S.accepts w)
    (hawaiting : w.disk.awaitingHealth = true) (hrun : Run K cfg S Quiet w w') :
    w'.disk = w.disk := by
  induction hrun with
  | refl => rfl
  | tail hrun hstep hquiet ih =>
    have hinv := inv_of_run hfirm h hrun
    rw [← ih] at hawaiting
    exact (disk_of_quiet (advance_of_step hfirm hinv hstep) hquiet hawaiting).trans ih

/-- An `Open` that takes effect. -/
theorem disk_of_open (hadvance : Advance K cfg P w label w') (hopen : label.isOpen = true)
    (hmoved : w'.disk ≠ w.disk) : w'.disk = w.disk.recovered := by
  have hmove := hadvance.move.resolve_left hmoved
  generalize w'.disk = d at hmove
  cases hmove with
  | opened ok => rfl
  | openDied => rfl
  | called hlive heffect ok | callDied hlive heffect => cases hopen

/-- An `ActivatePending` that takes effect. -/
theorem disk_of_activation (hadvance : Advance K cfg P w label w')
    (hactivation : label.isActivation = true) (hmoved : w'.disk ≠ w.disk) :
    w'.disk = w.disk.activated := by
  have hmove := hadvance.move.resolve_left hmoved
  generalize w'.disk = d at hmove
  cases hmove with
  | opened ok | openDied => cases hactivation
  | called hlive heffect ok | callDied hlive heffect =>
    cases heffect with
    | activated hpending hidle => rfl
    | _ => cases hactivation

/-- The first start after the candidate was activated in `w₁`. -/
structure FirstStart (w w₁ w₃ : World) : Prop where
  active : w₃.disk.active = w.disk.pending
  candidate : w₃.disk.active = w₁.disk.active
  awaiting : w₃.disk.awaitingHealth = true
  attempted : w₃.disk.bootAttempted = true

/-- The second start. -/
structure SecondStart (w w₅ : World) : Prop where
  active : w₅.disk.active = w₅.disk.knownGood
  knownGood : w₅.disk.knownGood = w.disk.knownGood
  settled : w₅.disk.awaitingHealth = false

/-- A candidate activated from `w` to `w₁` gets one start. -/
def OneStart (K : Crypto) (cfg : Config) (S : Setting) (w w₁ : World) : Prop :=
  ∀ w₂ label₃ w₃, Run K cfg S Quiet w₁ w₂ → Step K cfg S w₂ label₃ w₃ → label₃.isOpen = true →
    w₃.disk ≠ w₂.disk → FirstStart w w₁ w₃ ∧
      ∀ w₄ label₅ w₅, Run K cfg S Quiet w₃ w₄ → Step K cfg S w₄ label₅ w₅ →
        label₅.isOpen = true → w₅.disk ≠ w₄.disk → SecondStart w w₅

theorem one_start (hfirm : Firm S.calling) (h : Inv K cfg S.accepts w) {w₁ : World}
    (hstep : Step K cfg S w label w₁) (hactivation : label.isActivation = true)
    (hmoved : w₁.disk ≠ w.disk) : OneStart K cfg S w w₁ := by
  have hadvance₁ := advance_of_step hfirm h hstep
  have hdisk₁ := disk_of_activation hadvance₁ hactivation hmoved
  intro w₂ label₃ w₃ hrun₂ hstep₃ hopen₃ hmoved₃
  have hdisk₂ : w₂.disk = w.disk.activated := by
    rw [← hdisk₁]
    exact disk_of_quiet_run hfirm hadvance₁.inv (by rw [hdisk₁]; rfl) hrun₂
  have hadvance₃ := advance_of_step hfirm (inv_of_run hfirm hadvance₁.inv hrun₂) hstep₃
  have hdisk₃ : w₃.disk = w.disk.activated.booted := by
    rw [disk_of_open hadvance₃ hopen₃ hmoved₃, hdisk₂]
    rfl
  refine ⟨⟨?_, ?_, ?_, ?_⟩, fun w₄ label₅ w₅ hrun₄ hstep₅ hopen₅ hmoved₅ => ?_⟩
  · rw [hdisk₃]
    rfl
  · rw [hdisk₃, hdisk₁]
    rfl
  · rw [hdisk₃]
    rfl
  · rw [hdisk₃]
    rfl
  · have hdisk₄ := disk_of_quiet_run hfirm hadvance₃.inv (by rw [hdisk₃]; rfl) hrun₄
    have hadvance₅ := advance_of_step hfirm (inv_of_run hfirm hadvance₃.inv hrun₄) hstep₅
    have hdisk₅ : w₅.disk = w.disk.activated.booted.fellBack := by
      rw [disk_of_open hadvance₅ hopen₅ hmoved₅, hdisk₄, hdisk₃]
      rfl
    refine ⟨?_, ?_, ?_⟩ <;> rw [hdisk₅] <;> rfl

/-! ## A release on its way -/

section Sample

def sampleCrypto : Crypto := ⟨fun _ => List.replicate 32 0, fun _ _ _ => true⟩

def sampleConfig : Config := ⟨"/", "t", [("k", List.replicate 32 0)]⟩

def sampleManifest : Manifest where
  version := 1
  artifact := "a"
  digest := "sha256:0000000000000000000000000000000000000000000000000000000000000000"
  sizeBytes := 1
  target := "t"
  securityRevision := 7
  issuedAt := 0
  expiresAt := 1000
  keyID := "k"
  signature := ""

def sampleStage : Method := .stage ⟨true, sampleManifest, some ⟨[[0]], none⟩, 0⟩

/-- An `Open` in which nothing fails. -/
def World.runOpen (w : World) : World :=
  let r := (openManager sampleCrypto sampleConfig).run.exec (Op.run w.next) w.site
  w.opened r.2 r.1

/-- A call, its operations turning out as chosen: whether it succeeds, and the world after it. -/
def World.runCall (choose : (o : Op) → Site → o.Res × Site) (k : Nat) (method : Method)
    (w : World) : Bool × World :=
  match w.managers k with
  | none => (false, w)
  | some m =>
    let r := (method.body sampleCrypto sampleConfig m).run.exec choose w.site
    (r.1.isOk, w.called k m method r.2 r.1)

/-- The sample manifest is the only one. -/
abbrev SampleReach : World → World → Prop :=
  Reach sampleCrypto sampleConfig (reliable (· = sampleManifest))

theorem step_runOpen (hS : S.opening = Op.healthy) :
    ∃ label, Step sampleCrypto sampleConfig S w label w.runOpen := by
  have hsteps := Prog.steps_exec (behave_run w.next)
    (openManager sampleCrypto sampleConfig).run w.site
  rw [← hS] at hsteps
  exact ⟨_, .opened hsteps⟩

theorem reach_runOpen {w₀ : World} (h : SampleReach w₀ w) : SampleReach w₀ w.runOpen := by
  obtain ⟨label, hstep⟩ := step_runOpen (w := w) (S := reliable (· = sampleManifest)) rfl
  exact h.tail hstep trivial

theorem step_runCall {choose : (o : Op) → Site → o.Res × Site} {k : Nat} (method : Method)
    (hchoose : ∀ o s, behave S.calling k o s (choose o s).1 (choose o s).2)
    (hadmits : S.admits method) (hm : (w.managers k).isSome) :
    Step sampleCrypto sampleConfig S w (.called k method (w.runCall choose k method).1)
      (w.runCall choose k method).2 := by
  obtain ⟨m, hm⟩ := Option.isSome_iff_exists.mp hm
  unfold World.runCall
  rw [hm]
  exact .called hm hadmits (Prog.steps_exec hchoose _ _)

theorem reach_runCall {w₀ : World} {k : Nat} (method : Method)
    (hadmits : (reliable (· = sampleManifest)).admits method) (hm : (w.managers k).isSome)
    (h : SampleReach w₀ w) : SampleReach w₀ (w.runCall (Op.run k) k method).2 :=
  h.tail (step_runCall method (behave_run k) hadmits hm) trivial

def sampleOpened : World := World.init.runOpen

def sampleStaged : World := (sampleOpened.runCall (Op.run 0) 0 sampleStage).2

def sampleActivated : World := (sampleStaged.runCall (Op.run 0) 0 .activatePending).2

/-- The process dies, and the candidate is started. -/
def sampleDied : World :=
  { sampleActivated with
    site := sampleActivated.site.vacate 0
    managers := Function.update sampleActivated.managers 0 none }

def sampleBooted : World := sampleDied.runOpen

theorem reach_sampleOpened : SampleReach World.init sampleOpened := reach_runOpen (.refl _)

theorem reach_sampleStaged : SampleReach World.init sampleStaged :=
  reach_runCall sampleStage rfl (by decide +kernel) reach_sampleOpened

theorem reach_sampleDied : SampleReach World.init sampleDied :=
  .tail (reach_runCall .activatePending trivial (by decide +kernel) reach_sampleStaged)
    (.died 0) trivial

theorem reach_sampleBooted : SampleReach World.init sampleBooted := reach_runOpen reach_sampleDied

theorem readsBack_sample : ReadsBack (· = sampleManifest) := by
  rintro manifest rfl
  decide +kernel

end Sample

/-! ## Crash safety -/

/-- **Crash safety.** -/
theorem crash_safe (hback : ReadsBack P) (hcheck : cfg.check = .ok ())
    (hreach : Reach K cfg (reliable P) World.init w) :
    ((∀ k m, ¬w.Live k m) → Ends (behave (reliable P).opening w.next) (openManager K cfg) w.site
      (fun r t => r = w.disk.recovered ∧ t.fs.now (.plain .state) = some r.file)
      (fun _ _ => False)) ∧
    (∀ k m request reader, w.managers k = some m → stageCheck K cfg m request = .ok reader →
      m.state.stageSlot ∉ w.disk.references) ∧
    (∀ label w', Step K cfg (reliable P) w label w' →
      Undisturbed w.disk.references w.site.fs w'.site.fs) ∧
    (∀ label w', Step K cfg (reliable P) w label w' → label.isActivation = true →
      w'.disk ≠ w.disk → OneStart K cfg (reliable P) w w') := by
  have h : Inv K cfg P w := inv_of_reach firm_reliable hreach
  refine ⟨open_succeeds hback hcheck h, fun k m request reader hm hcheck => ?_,
    fun label w' hstep => ?_, fun label w' hstep => ?_⟩
  · have hstage := stageable_of_check hcheck
    have hstate := h.state_eq ⟨hm, hstage.closed⟩
    rw [← hstate]
    refine State.Coherent.stageSlot_not_mem ?_ hstage.pending hstage.idle
    rw [hstate]
    exact h.holds.stocked.coherent
  · exact (advance_of_step (S := reliable P) firm_reliable h hstep).undisturbed
  · exact one_start firm_reliable h hstep

/-- The process dies after `ActivatePending`, and the next `Open` starts the candidate. -/
theorem crash_safe_activated :
    SampleReach World.init sampleDied ∧
      sampleDied.disk.recovered = { sampleDied.disk with bootAttempted := true } ∧
      Ends (behave (reliable (· = sampleManifest)).opening sampleDied.next)
        (openManager sampleCrypto sampleConfig) sampleDied.site
        (fun r t => r = sampleDied.disk.recovered ∧ t.fs.now (.plain .state) = some r.file)
        (fun _ _ => False) := by
  refine ⟨reach_sampleDied, by decide +kernel, ?_⟩
  refine (crash_safe readsBack_sample rfl reach_sampleDied).1 fun k m hlive => ?_
  have howner := ((inv_of_reach firm_reliable reach_sampleDied).live k m hlive).1
  rw [show sampleDied.site.owner = none by decide +kernel] at howner
  cases howner

/-! ## Calls that return -/

/-- A call on a manager in use. -/
structure Called (w : World) (k : Nat) (m : Manager) (method : Method) (ok : Bool) (m' : Manager)
    (w' : World) : Prop where
  manager : w'.managers k = some m'
  file : w'.site.fs.now (.plain .state) = some m'.state.file
  effect : ok = true → Effect w.disk method w'.disk
  failed : ok = false → m' = m ∧
    w'.site.fs.now (.plain .state) = w.site.fs.now (.plain .state)

theorem called_of_step (hfirm : Firm S.calling) (h : Inv K cfg S.accepts w) {k : Nat} {m : Manager}
    {method : Method} {ok : Bool} (hlive : w.Live k m)
    (hstep : Step K cfg S w (.called k method ok) w') : ∃ m', Called w k m method ok m' w' := by
  cases hstep with
  | @called _ m₀ _ site value hmanager hadmits hsteps =>
    obtain rfl : m = m₀ := Option.some.inj (hlive.1.symm.trans hmanager)
    have hstate := h.state_eq hlive
    have hadmitted : ∀ request, method = .stage request → S.accepts request.manifest := by
      rintro request rfl
      exact hadmits
    have hend :=
      (performs_method (F := S.calling) (n := k) (hstate ▸ h.holds) hadmitted).ends hsteps
    refine ⟨m.after value, Function.update_self _ _ _, ?_, fun hok => ?_, fun hfailed => ?_⟩
    · cases value with
      | ok r => exact hend.file
      | error e => exact (hend.kept hfirm).trans (h.live k m hlive).2
    · cases value with
      | ok r =>
        have hdisk : (w.called k m method site (.ok r)).disk = r := persisted_of_file hend.file
        rw [hdisk, ← hstate]
        exact hend.next
      | error e => cases hok
    · cases value with
      | ok r => cases hfailed
      | error e => exact ⟨rfl, hend.kept hfirm⟩

theorem live_of_success {k : Nat} {method : Method}
    (hstep : Step K cfg S w (.called k method true) w') : ∃ m, w.Live k m := by
  generalize hlabel : Label.called k method true = label at hstep
  cases hstep with
  | @called _ m _ site value hmanager hadmits hsteps =>
    obtain ⟨rfl, rfl, hok⟩ := Label.called.inj hlabel
    cases hclosed : m.closed with
    | false => exact ⟨m, hmanager, hclosed⟩
    | true =>
      have hend := (survives_closed hclosed method).ends hsteps
      cases value with
      | ok r => exact hend.elim
      | error e => cases hok
  | _ => cases hlabel

/-! ## Rollback protection -/

theorem State.recovered_revision (d : State) :
    d.recovered.securityRevision = d.securityRevision := by
  obtain ⟨-, -, hd⟩ | ⟨-, -, hd⟩ | ⟨-, hd⟩ := d.recovered_cases <;> rw [hd] <;> rfl

theorem State.recovered_knownGood (d : State) : d.recovered.knownGood = d.knownGood := by
  obtain ⟨-, -, hd⟩ | ⟨-, -, hd⟩ | ⟨-, hd⟩ := d.recovered_cases <;> rw [hd] <;> rfl

/-- The step stores the confirmation of the candidate, by a manager opened after its activation. -/
theorem confirmation_of_effect (h : Inv K cfg P w) {k : Nat} {m : Manager} {d : State}
    (hlive : w.Live k m) (heffect : Effect w.disk .confirmHealthy d) :
    ∃ j slot, w.activation = some (j, slot) ∧ w.disk.active = some slot ∧ j ≤ k ∧
      d.knownGood = some slot ∧ w.disk.securityRevision ≤ d.securityRevision := by
  cases heffect with
  | confirmed hawaiting hboot revision =>
    obtain ⟨j, slot, hactivation, hactive, -, hopened⟩ := h.tried hawaiting
    refine ⟨j, slot, hactivation, hactive, hopened hboot k m hlive, hactive, ?_⟩
    simp only [State.confirmed]
    split
    · exact UInt64.le_of_lt ‹_›
    · exact UInt64.le_refl _

/-- What a step does to the known-good slot and the revision. -/
theorem confirmation_of_move (h : Inv K cfg P w) {d : State} (hmove : Move w label d) :
    (d.knownGood = w.disk.knownGood ∧ d.securityRevision = w.disk.securityRevision) ∨
      (w.disk.securityRevision ≤ d.securityRevision ∧ ∃ k j slot, label.isConfirmation k ∧
        w.activation = some (j, slot) ∧ j ≤ k ∧ d.knownGood = some slot) := by
  have hcall : ∀ {k m method}, w.Live k m → Effect w.disk method d →
      (d.knownGood = w.disk.knownGood ∧ d.securityRevision = w.disk.securityRevision) ∨
        (method = .confirmHealthy ∧ w.disk.securityRevision ≤ d.securityRevision ∧
          ∃ j slot, w.activation = some (j, slot) ∧ j ≤ k ∧ d.knownGood = some slot) := by
    intro k m method hlive heffect
    cases method with
    | stage request | activatePending | rollback =>
      cases heffect
      exact .inl ⟨rfl, rfl⟩
    | confirmHealthy =>
      obtain ⟨j, slot, hactivation, -, hle, hgood, hrevision⟩ :=
        confirmation_of_effect h hlive heffect
      exact .inr ⟨rfl, hrevision, j, slot, hactivation, hle, hgood⟩
  cases hmove with
  | opened ok | openDied => exact .inl ⟨State.recovered_knownGood _, State.recovered_revision _⟩
  | called hlive heffect ok | callDied hlive heffect =>
    refine (hcall hlive heffect).imp_right ?_
    rintro ⟨rfl, hrevision, j, slot, hrest⟩
    exact ⟨hrevision, _, j, slot, rfl, hrest⟩

/-- **Rollback protection and confirmation.** -/
theorem rollback_protected (hfirm : Firm S.calling) (hreach : Reach K cfg S World.init w) :
    (∀ label w', Step K cfg S w label w' →
      w.disk.securityRevision ≤ w'.disk.securityRevision ∧
      (w'.disk.securityRevision ≠ w.disk.securityRevision → ∃ k, label.isConfirmation k)) ∧
    (∀ slot, w.disk.knownGood = some slot → ∃ manifest : Manifest,
      w.site.fs.now (.plain (.manifest slot)) = some ⟨0o600, manifest.marshal⟩ ∧
        manifest.securityRevision = w.disk.securityRevision) ∧
    (∀ slot, w.disk.active = some slot ∨ w.disk.pending = some slot → ∃ manifest : Manifest,
      w.site.fs.now (.plain (.manifest slot)) = some ⟨0o600, manifest.marshal⟩ ∧
        w.disk.securityRevision ≤ manifest.securityRevision) ∧
    (∀ k w', Step K cfg S w (.called k .confirmHealthy true) w' → ∃ j slot,
      w.activation = some (j, slot) ∧ w.disk.active = some slot ∧ j ≤ k) ∧
    (∀ label w', Step K cfg S w label w' → w'.disk.knownGood ≠ w.disk.knownGood →
      ∃ k j slot, label.isConfirmation k ∧ w.activation = some (j, slot) ∧ j ≤ k ∧
        w'.disk.knownGood = some slot) := by
  have h := inv_of_reach hfirm hreach
  refine ⟨fun label w' hstep => ?_, fun slot hgood => ?_, fun slot hslot => ?_,
    fun k w' hstep => ?_, fun label w' hstep hmoved => ?_⟩
  · obtain hstay | hmove := (advance_of_step hfirm h hstep).move
    · rw [hstay]
      exact ⟨UInt64.le_refl _, fun hne => absurd rfl hne⟩
    · obtain ⟨-, hsame⟩ | ⟨hle, k, -, -, hconfirmation, -⟩ := confirmation_of_move h hmove
      · rw [hsame]
        exact ⟨UInt64.le_refl _, fun hne => absurd rfl hne⟩
      · exact ⟨hle, fun _ => ⟨k, hconfirmation⟩⟩
  · obtain ⟨manifest, -, hinstalled⟩ :=
      h.holds.stocked.installed slot (State.mem_references.mpr (.inr (.inl hgood)))
    exact ⟨manifest, hinstalled.file, h.holds.stocked.current slot hgood manifest hinstalled.file⟩
  · obtain ⟨manifest, -, hinstalled⟩ := h.holds.stocked.installed slot
      (State.mem_references.mpr (hslot.imp_right fun hp => .inr (.inl hp)))
    exact ⟨manifest, hinstalled.file, Manifest.le_of_verifyInstalled hinstalled.verified⟩
  · obtain ⟨m, hlive⟩ := live_of_success hstep
    obtain ⟨m', hcalled⟩ := called_of_step hfirm h hlive hstep
    obtain ⟨j, slot, hactivation, hactive, hle, -⟩ :=
      confirmation_of_effect h hlive (hcalled.effect rfl)
    exact ⟨j, slot, hactivation, hactive, hle⟩
  · obtain hstay | hmove := (advance_of_step hfirm h hstep).move
    · exact absurd (congrArg State.knownGood hstay) hmoved
    · obtain ⟨hsame, -⟩ | ⟨-, hrest⟩ := confirmation_of_move h hmove
      · exact absurd hsame hmoved
      · exact hrest

/-- The sample release is confirmed, by the manager opened after its activation. -/
theorem rollback_protected_confirmed :
    ∃ w', Step sampleCrypto sampleConfig (reliable (· = sampleManifest)) sampleBooted
        (.called 1 .confirmHealthy true) w' ∧
      w'.disk.knownGood = some .a ∧ w'.disk.securityRevision = 7 ∧
      ∃ j slot, sampleBooted.activation = some (j, slot) ∧ sampleBooted.disk.active = some slot ∧
        j ≤ 1 := by
  have hstep := step_runCall (w := sampleBooted) (k := 1) (S := reliable (· = sampleManifest))
    .confirmHealthy (behave_run 1) trivial (by decide +kernel)
  rw [show (sampleBooted.runCall (Op.run 1) 1 .confirmHealthy).1 = true by decide +kernel] at hstep
  refine ⟨_, hstep, by decide +kernel, by decide +kernel, ?_⟩
  exact (rollback_protected firm_reliable reach_sampleBooted).2.2.2.1 1 _ hstep

/-! ## Memory and disk -/

theorem live_of_open {k : Nat} (h : (w.managers k).map Manager.closed = some false) :
    ∃ m, w.Live k m :=
  Option.map_eq_some_iff.mp h

/-- **Memory and disk agree** after every call that returns, and an error changes neither. -/
theorem memory_agrees (hfirm : Firm S.calling) (hreach : Reach K cfg S World.init w) {k : Nat}
    {m : Manager} {method : Method} {ok : Bool} (hlive : w.Live k m)
    (hstep : Step K cfg S w (.called k method ok) w') :
    ∃ m' file, w'.managers k = some m' ∧ w'.site.fs.now (.plain .state) = some file ∧
      decodeState file.data = some m'.state ∧
      (ok = false → m'.state = m.state ∧
        w'.site.fs.now (.plain .state) = w.site.fs.now (.plain .state)) := by
  obtain ⟨m', hcalled⟩ := called_of_step hfirm (inv_of_reach hfirm hreach) hlive hstep
  refine ⟨m', m'.state.file, hcalled.manager, hcalled.file, decodeState_marshal m'.state,
    fun hfailed => ?_⟩
  obtain ⟨rfl, hfile⟩ := hcalled.failed hfailed
  exact ⟨rfl, hfile⟩

/-- The sample release is staged. -/
theorem memory_agrees_staged :
    ∃ m' file, sampleStaged.managers 0 = some m' ∧
      sampleStaged.site.fs.now (.plain .state) = some file ∧
      decodeState file.data = some m'.state ∧ sampleStaged.disk.pending = some .a := by
  have hstep := step_runCall (w := sampleOpened) (k := 0) (S := reliable (· = sampleManifest))
    sampleStage (behave_run 0) rfl (by decide +kernel)
  obtain ⟨m, hlive⟩ := live_of_open (w := sampleOpened) (k := 0) (by decide +kernel)
  obtain ⟨m', file, hm', hfile, hdecode, -⟩ :=
    memory_agrees firm_reliable reach_sampleOpened hlive hstep
  exact ⟨m', file, hm', hfile, hdecode, by decide +kernel⟩

/-- The root cannot be synced, and nothing else fails. -/
def rootUnsynced : Faults
  | .syncDirectory .root, _, answer => answer = false
  | o, s, answer => o.healthy s answer

def unsynced : Setting := ⟨Op.healthy, rootUnsynced, (· = sampleManifest)⟩

/-- The operations as functions, with the sync of the root failing. -/
def Op.runUnsynced (m : Nat) : (o : Op) → Site → o.Res × Site
  | .syncDirectory .root, s => (false, s)
  | o, s => o.run m s

theorem behave_runUnsynced (m : Nat) (o : Op) (s : Site) :
    behave rootUnsynced m o s (o.runUnsynced m s).1 (o.runUnsynced m s).2 := by
  have hrun := behave_run m o s
  cases o with
  | syncDirectory d =>
    cases d with
    | root => exact ⟨.inr ⟨rfl, rfl⟩, rfl⟩
    | slot slot => exact hrun
  | _ => exact hrun

/-- **Memory and disk diverge**: `Stage` reports an error after it has replaced `state.json`,
which then references a slot that the manager takes for free. -/
theorem memory_diverges :
    ∃ w w', Reach sampleCrypto sampleConfig unsynced World.init w ∧
      Step sampleCrypto sampleConfig unsynced w (.called 0 sampleStage false) w' ∧
      (w'.managers 0).map (fun m => (m.state, m.closed)) = some (State.initial, false) ∧
      w'.disk = State.initial.staged .a ∧ State.initial.stageSlot ∈ w'.disk.references := by
  refine ⟨sampleOpened, (sampleOpened.runCall (Op.runUnsynced 0) 0 sampleStage).2, ?_,
    ?_, ?_, ?_, ?_⟩
  · obtain ⟨label, hstep⟩ := step_runOpen (w := World.init) (S := unsynced) rfl
    exact .tail (.refl _) hstep trivial
  · have hstep := step_runCall (w := sampleOpened) (k := 0) (S := unsynced) sampleStage
      (behave_runUnsynced 0) rfl (by decide +kernel)
    rwa [show (sampleOpened.runCall (Op.runUnsynced 0) 0 sampleStage).1 = false by
      decide +kernel] at hstep
  · decide +kernel
  · decide +kernel
  · decide +kernel

end TosAi.SoftwareUpdate
