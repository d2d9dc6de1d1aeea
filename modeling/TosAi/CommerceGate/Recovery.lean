/-
  What can be read back: after a successful call, and after a crash.

  The reader is stricter than the writers.  For a well-formed record the difference
  is two conditions: its text is at most two mebibytes, and none of its terminal
  effects has HTTP status 0.  `WF.readable_iff` says so; both results of this module
  are read off it.

  ONE FILE BLOCKS THE DIRECTORY.  Recovery stops at the first record it cannot read.
  `Prepare` creates the file of a record under its final name and writes it
  afterwards, so a process that dies between the two leaves a directory that no
  `Open` accepts (`prepare_death_blocks_open`).
-/
import TosAi.CommerceGate.AtMostOnce

set_option autoImplicit false

namespace TosAi.CommerceGate

open Foundation Relation

variable {C : Commerce}

/-- No terminal effect of the record has status 0. -/
def StatusesOk (e : Record) : Prop :=
  ∀ (id : String) (r : EffectRecord), e.effects[id]? = some r → r.state = "terminal" →
    r.httpStatus ≠ 0

/-- For an entry that is otherwise in order only the status of a terminal effect
matters. -/
theorem effectFieldsOk_iff {id : String} {r : EffectRecord}
    (h : effectFieldsOk id { r with httpStatus := 1 } = true) :
    effectFieldsOk id r = true ↔ (r.state = "terminal" → r.httpStatus ≠ 0) := by
  simp only [effectFieldsOk, Bool.and_eq_true] at h ⊢
  simp only [h.1, true_and]
  by_cases hterminal : r.state = "terminal"
  · have hdigest := h.2
    simp only [hterminal, bne_self_eq_false, Bool.false_or, Bool.and_eq_true] at hdigest ⊢
    simp [hdigest.1]
  · simp [hterminal]

variable {n : FileName} {e : Record} {s : System C}

/-- **What of a well-formed record keeps it from being read.** -/
theorem WF.readable_iff (hC : C.Lawful) (hwf : WF C n e) :
    Readable e ↔ e.marshal.length ≤ maxRecordBytes ∧ StatusesOk e := by
  constructor
  · intro h
    exact ⟨h.size, fun id r hr => (effectFieldsOk_iff (hwf.effects hC id r hr)).mp
      (h.effects id r hr)⟩
  · rintro ⟨hsize, hstatuses⟩
    exact ⟨hsize, hwf.fields hC, fun id r hr => (effectFieldsOk_iff (hwf.effects hC id r hr)).mpr
      (hstatuses id r hr)⟩

theorem Readable.statusesOk (h : Readable e) : StatusesOk e := by
  intro id r hr hterminal
  have hfields := h.effects id r hr
  simp only [effectFieldsOk, hterminal, bne_self_eq_false, Bool.false_or, Bool.and_eq_true,
    bne_iff_ne] at hfields
  exact hfields.2.2

/-! ## After a successful call -/

/-- The HTTP status a call returned, if it is a `PerformHTTPS`. -/
def Outcome.status? : Outcome C → Option Nat
  | .ok (.response response _) => some response.statusCode
  | _ => none

theorem ofNat_ne_zero_iff {status : Nat} (h : status < 1000) :
    UInt16.ofNat status ≠ 0 ↔ status ≠ 0 := by
  rw [not_iff_not, ← UInt16.toNat_inj, UInt16.toNat_ofNat', UInt16.toNat_zero]
  omega

theorem terminalize_getElem? (e : Record) (id : String) (prior : EffectRecord)
    (response : HTTPSResponse) : (e.terminalize id prior response).effects[id]? =
      some { prior with
        state := "terminal"
        responseDigest := response.digest
        httpStatus := UInt16.ofNat response.statusCode
        stateRevision := prior.stateRevision + 1 } := by
  rw [Record.terminalize, getElem?_insert_effect, if_pos rfl]

/-- The written record has a bad status only if it is the one just returned. -/
theorem Fine.statusesOk_iff {out : Outcome C} {w : Written} (hfine : Fine C out)
    (hwritten : out.written? = some w) :
    WF C w.name w.entry ∧ (StatusesOk w.entry ↔ out.status? ≠ some 0) := by
  unfold Outcome.written? at hwritten
  split at hwritten
  · subst hwritten
    obtain ⟨hwf, heffects⟩ := hfine
    refine ⟨hwf, iff_of_true (fun id r hr => ?_) (fun h => by cases h)⟩
    rw [heffects] at hr
    simp at hr
  · subst hwritten
    obtain ⟨hwf, hstatus, e, id, prior, hreadable, hprior, hentry⟩ := hfine
    refine ⟨hwf, ?_⟩
    simp only [Outcome.status?, ne_eq, Option.some.injEq]
    rw [← ne_eq, ← ofNat_ne_zero_iff hstatus, hentry]
    constructor
    · intro h
      exact h id _ (terminalize_getElem? e id prior _) rfl
    · intro h id' r hr hterminal
      rw [Record.terminalize, getElem?_insert_effect] at hr
      split at hr
      · obtain rfl := Option.some.inj hr
        exact h
      · exact hreadable.statusesOk id' r hr hterminal
  · obtain rfl := Option.some.inj hwritten
    obtain ⟨hwf, e, hreadable, heffects⟩ := hfine
    refine ⟨hwf, iff_of_true (fun id r hr => ?_) (fun h => by cases h)⟩
    rw [heffects] at hr
    exact hreadable.statusesOk id r hr
  · obtain rfl := Option.some.inj hwritten
    obtain ⟨hwf, e, hreadable, heffects⟩ := hfine
    refine ⟨hwf, iff_of_true (fun id r hr => ?_) (fun h => by cases h)⟩
    rw [heffects] at hr
    exact hreadable.statusesOk id r hr
  · cases hwritten

/-- **When a written record can be read back.**  In every quiet run, where a successful call
comes to its value, the record it wrote is all a power loss can leave under its name.  The name
is read as that record exactly if its text is within the reader's bound and the call did not
return HTTP status 0. -/
theorem written_read_back_iff (hC : C.Lawful) {cfg cfg' : Config (Op C) Res (System C) (Outcome C)}
    (hrun : (gateMachine C).Run Quiet (gateInit C) cfg) (hstep : (gateMachine C).Step cfg cfg')
    (hquiet : Quiet cfg'.shared) {c : Nat} {o : Op C} {next : Res o → Prog (Op C) Res (Outcome C)}
    {out : Outcome C} {w : Written} (hbefore : cfg.pool c = some (.op o next))
    (hafter : cfg'.pool c = some (.ret out)) (hwritten : out.written? = some w)
    (W : World C) (d : Nat) :
    cfg'.shared.fs.outcomes w.name = [some w.entry.file] ∧
      (Ends (W.works d) (readRecord w.name) cfg'.shared (fun found _ => found.1 = w.entry)
        (fun _ _ => False) ↔ w.entry.marshal.length ≤ maxRecordBytes ∧ out.status? ≠ some 0) := by
  have hgood := (good_init C).of_run (gate_sound C) hrun
  obtain ⟨hpost, honDisk⟩ := hgood.post hstep hquiet hbefore hafter
  have hdisk : cfg'.shared.fs.outcomes w.name = [some w.entry.file] := honDisk w hwritten
  have hnow : cfg'.shared.fs.now w.name = some w.entry.file :=
    List.mem_singleton.mp (hdisk ▸ Slot.now_mem_outcomes _)
  obtain ⟨hwf, hstatuses⟩ := hpost.fine.statusesOk_iff hwritten
  rw [← hstatuses, ← hwf.readable_iff hC]
  refine ⟨hdisk, fun hreads => ?_, fun hreadable => ends_readRecord hnow hreadable rfl⟩
  cases hread : readFile w.entry.file with
  | ok e => exact (readFile_file_eq_ok_iff.mp hread).1
  | error err =>
    exact (hreads.not_both (E := fun _ _ => True) (ends_readRecord_refused hnow hread trivial)).elim

/-- The start of the sample execution is such a call. -/
theorem written_read_back_iff_started : ∃ cfg cfg' : Config (Op tolerant) Res (System tolerant)
      (Outcome tolerant), ∃ c out,
    (gateMachine tolerant).Run Quiet (gateInit tolerant) cfg ∧
    (gateMachine tolerant).Step cfg cfg' ∧ cfg'.pool c = some (.ret out) ∧
    out.written? = some ⟨sampleName, startedRecord⟩ ∧
    cfg'.shared.fs.outcomes sampleName = [some startedRecord.file] ∧
    (Ends ((calm 200 (by decide)).works c) (readRecord sampleName) cfg'.shared
      (fun found _ => found.1 = startedRecord) (fun _ _ => False) ↔
      startedRecord.marshal.length ≤ maxRecordBytes ∧ out.status? ≠ some 0) := by
  obtain ⟨cfg, hrun, hs, hstage, -⟩ := rehearse_prepared lax_noClose (fun _ _ h => nomatch h)
  have hpath : path (ticketFrom preparedRecord).executionID = sampleName := path_zeroDigest
  rw [← hpath] at hstage ⊢
  obtain ⟨r, t, cfg₁, o, next, rfl, ht, hrun₁, hbefore, hstep⟩ := run_land
    (W := calm 200 (by decide)) lax_noClose.toCoarse
      (hstage.vacant cfg.shared.next (Nat.le_refl _)).2.2
    (m := sampleStart) hstage.published
      (lax_noClose.begin 0 sampleStart cfg.shared (fun h => nomatch h) hs)
    (Q := fun r _ => r = .launch (launchFrom preparedRecord)
      ⟨path (ticketFrom preparedRecord).executionID, startedRecord⟩)
    (.chain (ends_start calm_starts ⟨begin_calls _ _ _, hstage.lock, hstage.free⟩
      (validDigest_ne_empty validDigest_zeroDigest) (by decide) hstage.disk.now
      readable_preparedRecord fun _ _ => rfl)) fun _ h => nomatch h
  have hreach := (hrun.trans hrun₁).mono fun _ h => h.quiet
  have hafter := Function.update_self (cfg.shared.next) (some (Prog.ret (Except.ok
    (Result.launch (launchFrom preparedRecord) (Written.mk
      (path (ticketFrom preparedRecord).executionID) startedRecord))))) cfg.pool
  exact ⟨cfg₁, _, cfg.shared.next, _, hreach, hstep, hafter, rfl, written_read_back_iff
    tolerant_lawful hreach hstep ht.quiet hbefore hafter rfl _ _⟩

/-- **A written record that is not read back.**  The exchange of `PerformHTTPS` is
answered with status 0; the call succeeds, the record it wrote is in the directory, and every
read of it fails. -/
theorem status_zero_unreadable : ∃ cfg : Config (Op tolerant) Res (System tolerant)
      (Outcome tolerant), ∃ c out w err,
    (gateMachine tolerant).Run Quiet (gateInit tolerant) cfg ∧
    (c, out) ∈ cfg.shared.returned ∧ out.written? = some w ∧
    cfg.shared.fs.now w.name = some w.entry.file ∧ readFile w.entry.file = .error err := by
  obtain ⟨cfg₀, hrun₀, hs₀, hstage₀, -⟩ := rehearse_prepared lax_noClose (fun _ _ h => nomatch h)
  obtain ⟨cfg₁, hrun₁, hs₁, hstage₁, -⟩ := hstage₀.started lax_noClose hs₀
  obtain ⟨cfg₂, -, hrun₂, hs₂, hstage₂, -⟩ := hstage₁.running lax_noClose hs₁
  obtain ⟨cfg₃, hrun₃, -, hmade, hnow, -⟩ := hstage₂.performed lax_noClose hs₂ 0 (by decide)
  have hreach := (((hrun₀.trans hrun₁).trans hrun₂).trans hrun₃).mono fun _ h => h.quiet
  cases hread : readFile (runningRecord.performed sampleCall ⟨0, [], zeroDigest⟩).file with
  | error err => exact ⟨cfg₃, _, _, _, err, hreach, hmade.mem, rfl, hnow, hread⟩
  | ok e =>
    have hreadable := (readFile_file_eq_ok_iff.mp hread).1
    exact absurd rfl (hreadable.statusesOk "e" _ (terminalize_getElem? _ _ _ _) rfl)

/-! ## After a crash -/

/-- The name is free, or holds a whole record that is not too long and has no
terminal effect with status 0. -/
def Intact (o : Option File) : Prop :=
  ∀ f, o = some f → ∃ e, f = Record.file e ∧ e.marshal.length ≤ maxRecordBytes ∧ StatusesOk e

/-- With a lawful library every record has a name of its own. -/
theorem Sane.invalid_eq_none (hC : C.Lawful) {o : Option File} (h : Sane C .invalid o) :
    o = none := by
  have hnever : ∀ {e : Record}, WF C .invalid e → False := by
    intro e hwf
    have hpath := hwf.path
    rw [path, if_pos (hwf.slot hC)] at hpath
    cases hpath
  rcases h with (hnone | ⟨e, kept, lost, hinitial, -⟩) | ⟨e, hwf, -⟩
  · exact hnone
  · exact (hnever hinitial.wf).elim
  · exact (hnever hwf).elim

/-- What a reader accepts under a record's name is a whole record. -/
theorem Sane.readable {f : File} (h : Sane C n (some f)) (hread : readFile f = .ok e) :
    f = e.file ∧ Readable e ∧ WF C n e := by
  rcases h with (hnone | ⟨e₁, kept, lost, -, htext, hlost, hfile⟩) | ⟨e₁, hwf, hfile⟩
  · cases hnone
  · rw [Option.some.inj hfile, readFile_truncated htext hlost] at hread
    cases hread
  · rw [Option.some.inj hfile] at hread
    obtain ⟨hreadable, rfl⟩ := readFile_file_eq_ok_iff.mp hread
    exact ⟨Option.some.inj hfile, hreadable, hwf⟩

theorem Inv.sane_now (hinv : Inv s) (hn : n.isRecord = true) :
    Sane C n (s.fs.now n) :=
  hinv.sane n hn _ (Slot.now_mem_outcomes _)

/-- **When the next `Open` succeeds.**  Take any point of a quiet run as the
directory before some operations, and any later point, reached without a power
loss, at which the lock of the directory is free: the process that held it may have
died between any two of its file operations.  An `Open` in which nothing fails then
succeeds, with every record that existed before kept and its interrupted state made
ambiguous, exactly if every record file is intact. -/
theorem open_succeeds_iff (hC : C.Lawful) {cfg₀ cfg : Config (Op C) Res (System C) (Outcome C)}
    (hreach : (gateMachine C).Run Quiet (gateInit C) cfg₀)
    (hrun : (gateMachine C).Run Quiet cfg₀ cfg)
    (hlosses : cfg.shared.losses = cfg₀.shared.losses) (howner : cfg.shared.owner = none)
    (W : World C) (directory : String)
    (hconfig : (pathIsAbs directory && pathClean directory == directory) = true) :
    Ends (W.works cfg.shared.next) (openGate directory true)
      (cfg.shared.begin cfg.shared.next (.openGate directory true))
      (fun _ t => ∀ n (e : Record), n.isRecord = true → cfg₀.shared.fs.now n = some e.file →
        ∃ e', (e' = e ∨ Follows e e') ∧ t.fs.now n = some e'.reopened.file)
      (fun _ _ => False) ↔
    ∀ n, n.isRecord = true → Intact (cfg.shared.fs.now n) := by
  have hinv := inv_of_run (hreach.trans hrun)
  have hgate : (cfg.shared.begin cfg.shared.next (.openGate directory true)).gateOf
      cfg.shared.next = cfg.shared.next := by
    simp [System.gateOf, begin_calls]
  constructor
  · intro hopens n hn f hnow
    have hsane := hinv.sane_now hn
    rw [hnow] at hsane
    cases n with
    | record hex =>
      cases hread : readFile f with
      | ok e =>
        obtain ⟨hfile, hreadable, hwf⟩ := hsane.readable hread
        exact ⟨e, hfile, (hwf.readable_iff hC).mp hreadable⟩
      | error err =>
        exact (hopens.not_both (ends_openGate_refused hgate howner hconfig hnow hread)).elim
    | invalid => cases hsane.invalid_eq_none hC
    | _ => cases hn
  · intro hintact
    refine ends_openGate hgate howner hconfig (fun hex f hnow => ?_) fun fs hfs n e hn hnow₀ => ?_
    · obtain ⟨e, rfl, hok⟩ := hintact (.record hex) rfl f hnow
      exact ⟨e, rfl, ((hinv.wf_now rfl hnow).readable_iff hC).mpr hok⟩
    · obtain ⟨e', hnow, hkept⟩ := (allKept_of_run hreach hrun).2 hlosses n e hn hnow₀
      refine ⟨e', hkept.imp (fun h => h.2) (fun h => h.2), ?_⟩
      cases n with
      | record hex => exact hfs.records hex e' hnow
      | invalid =>
        have hsane := hinv.sane_now (n := .invalid) rfl
        rw [hnow] at hsane
        cases hsane.invalid_eq_none hC
      | _ => cases hn

/-! ### A directory that stays closed, and one that opens -/

/-- A process dies. -/
theorem run_kill {A : System C → Prop} (cfg : Config (Op C) Res (System C) (Outcome C)) (g : Nat)
    (hs : A (cfg.shared.kill g)) :
    ∃ cfg', (gateMachine C).Run A cfg cfg' ∧ cfg'.shared = cfg.shared.kill g :=
  ⟨_, .single ⟨.env (.kill g), hs⟩, rfl⟩

theorem NoClose.kill (hs : NoClose s) (g : Nat) : NoClose (s.kill g) := by
  intro c g' hclose
  simp only [System.kill] at hclose
  split at hclose
  · cases hclose
  · exact hs c g' hclose

theorem Calm.kill (hs : Calm s) (g : Nat) : Calm (s.kill g) := ⟨hs.1.kill g, hs.2⟩

/-- **A death that closes the directory for good.**  `Prepare` has created the file
of its record and not yet written it when its process dies.  No `Open` in any world
succeeds after that. -/
theorem prepare_death_blocks_open : ∃ cfg₀ cfg : Config (Op tolerant) Res (System tolerant)
      (Outcome tolerant),
    (gateMachine tolerant).Run Quiet (gateInit tolerant) cfg₀ ∧
    (gateMachine tolerant).Run Quiet cfg₀ cfg ∧
    cfg.shared.losses = cfg₀.shared.losses ∧ cfg.shared.owner = none ∧
    ∀ (W : World tolerant) (directory : String),
      (pathIsAbs directory && pathClean directory == directory) = true →
      Ends (W.works cfg.shared.next) (openGate directory true)
        (cfg.shared.begin cfg.shared.next (.openGate directory true))
        (fun _ _ => False) (fun _ _ => True) := by
  obtain ⟨cfg₀, hrun₀, hs₀, hstage₀, -⟩ := rehearse_opened lax_calm calm_init
  have hpath : path samplePrepared.executionID = sampleName := path_zeroDigest
  have habsent := hstage₀.disk.now
  rw [← hpath] at habsent
  have hbegin := lax_calm.begin 0 samplePrepare cfg₀.shared (fun h => nomatch h) hs₀
  obtain ⟨q, t, rfl, hrun₁, -⟩ := run_halt (W := calm 200 (by decide)) lax_calm.toCoarse
    (hstage₀.vacant cfg₀.shared.next (Nat.le_refl _)).2.2 (g := 0) (m := samplePrepare)
    hstage₀.published hbegin (Q := fun _ _ => True)
    (Halts.within (halts_prepare calm_prepares ⟨begin_calls _ _ _, hstage₀.lock, hstage₀.free⟩
      habsent))
  have hs₁ := lax_calm.same (cfg₀.shared.begin 0 samplePrepare)
    (((cfg₀.shared.begin 0 samplePrepare).enterMutex cfg₀.shared.next 0).wrote
      (cfg₀.shared.fs.modify (path samplePrepared.executionID)
        (Slot.create cfg₀.shared.next 0o600)) cfg₀.shared.tokens) rfl rfl hbegin
  obtain ⟨cfg, hrun₂, hcfg⟩ := run_kill ⟨_, Function.update cfg₀.pool cfg₀.shared.next
    (some q)⟩ 0 (hs₁.kill 0)
  have hquiet : ∀ s : System tolerant, Calm s → Quiet s := fun _ h => h.1.quiet
  have hnow : cfg.shared.fs.now sampleName = some ⟨0o600, []⟩ := by
    rw [hcfg, ← hpath]
    simp [System.kill, Fs.now, Slot.create]
  have howner : cfg.shared.owner = none := by
    rw [hcfg]
    simp [System.kill, System.enterMutex, System.begin, hstage₀.owner]
  refine ⟨cfg₀, cfg, hrun₀.mono hquiet, (hrun₁.trans hrun₂).mono hquiet, ?_, howner,
    fun W directory hconfig => ?_⟩
  · rw [hcfg]
    rfl
  · exact ends_openGate_refused (by simp [System.gateOf, begin_calls]) howner hconfig hnow rfl

/-- A process dies after its `Start`: the directory is intact and opens. -/
theorem open_succeeds_iff_started : ∃ cfg₀ cfg : Config (Op tolerant) Res (System tolerant)
      (Outcome tolerant),
    (gateMachine tolerant).Run Quiet (gateInit tolerant) cfg₀ ∧
    (gateMachine tolerant).Run Quiet cfg₀ cfg ∧
    cfg₀.shared.fs.now sampleName = some startedRecord.file ∧
    (Ends ((calm 200 (by decide)).works cfg.shared.next) (openGate "/" true)
      (cfg.shared.begin cfg.shared.next (.openGate "/" true))
      (fun _ t => ∀ n (e : Record), n.isRecord = true → cfg₀.shared.fs.now n = some e.file →
        ∃ e', (e' = e ∨ Follows e e') ∧ t.fs.now n = some e'.reopened.file)
      (fun _ _ => False) ↔ ∀ n, n.isRecord = true → Intact (cfg.shared.fs.now n)) ∧
    ∀ n, n.isRecord = true → Intact (cfg.shared.fs.now n) := by
  obtain ⟨cfg, hrun, hs, hstage, -⟩ := rehearse_prepared lax_calm calm_init
  obtain ⟨cfg₀, hrun₀, hs₀, hstage₀, -⟩ := hstage.started lax_calm hs
  obtain ⟨cfg₁, hrun₁, hcfg⟩ := run_kill cfg₀ 0 (hs₀.kill 0)
  have hquiet : ∀ s : System tolerant, Calm s → Quiet s := fun _ h => h.1.quiet
  have howner : cfg₁.shared.owner = none := by
    rw [hcfg]
    simp [System.kill, hstage₀.owner]
  refine ⟨cfg₀, cfg₁, (hrun.trans hrun₀).mono hquiet, hrun₁.mono hquiet, hstage₀.disk.now,
    open_succeeds_iff tolerant_lawful ((hrun.trans hrun₀).mono hquiet) (hrun₁.mono hquiet)
      (by rw [hcfg]; rfl) howner _ "/" (by decide), fun n hn f hnow => ?_⟩
  rw [hcfg] at hnow
  by_cases hname : n = sampleName
  · rw [hname] at hnow
    have hfile := Option.some.inj (hstage₀.disk.now.symm.trans hnow)
    exact ⟨startedRecord, hfile.symm, readable_startedRecord.size,
      readable_startedRecord.statusesOk⟩
  · have hnone := hstage₀.disk.others n hn hname
    cases hnone.symm.trans hnow

/-! ## What a power loss leaves -/

/-- **No power loss undoes a start or an effect.**  It may leave nothing under a record's name,
the beginning of a first record, or a whole record; what was launched stays started, and an
effect that reached the network stays in its record. -/
theorem power_loss_keeps {cfg : Config (Op C) Res (System C) (Outcome C)}
    (hrun : (gateMachine C).Run Quiet (gateInit C) cfg) :
    (∀ n, n.isRecord = true → ∀ o ∈ cfg.shared.fs.outcomes n, Sane C n o) ∧
    (∀ c l w, (c, .ok (.launch l w)) ∈ cfg.shared.returned →
      ∀ o ∈ cfg.shared.fs.outcomes (path l.executionID), Holding Started o) ∧
    ∀ x ∈ cfg.shared.entered, ∀ o ∈ cfg.shared.fs.outcomes x.entry.name,
      Holding (HasEffect x.entry.effectID) o := by
  have hinv := inv_of_run hrun
  refine ⟨hinv.sane, fun c l w hlaunch => ?_, fun x hx => ?_⟩
  · exact (hinv.startToken _ _ (hinv.launched c l w hlaunch)).2.2
  · exact (hinv.effectToken _ _ _ (hinv.entered x hx).1.token).2.2

theorem power_loss_keeps_started : ∃ cfg, (gateMachine tolerant).Run Quiet (gateInit tolerant) cfg ∧
    ∀ o ∈ cfg.shared.fs.outcomes sampleName, Holding Started o := by
  obtain ⟨cfg, hrun, hs, hstage, -⟩ := rehearse_prepared lax_calm calm_init
  obtain ⟨cfg', hrun', -, -, hmade⟩ := hstage.started lax_calm hs
  have hreach := (hrun.trans hrun').mono fun _ h => h.1.quiet
  exact ⟨cfg', hreach, (power_loss_keeps hreach).2.1 _ _ _ hmade.mem⟩

end TosAi.CommerceGate
