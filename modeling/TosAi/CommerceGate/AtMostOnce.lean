/-
  What happens at most once: the start of an execution and the submission of an
  effect.

  Both follow from the tokens of the invariant, which belong to one call each.  The
  results are about every run in which `Close` does not overlap another call on its
  Gate, through any number of failed file operations, process deaths, power losses
  and reopenings.

  `Close` TAKES NO MUTEX, and `double_start` is what comes of it: a `Start` that has
  read its record before the `Close` goes on after another Gate has opened the
  directory and started the same execution.
-/
import TosAi.CommerceGate.Evolution

set_option autoImplicit false

namespace TosAi.CommerceGate

open Foundation Relation

variable {C : Commerce}

/-! ## Launches -/

/-- The launch a call returned, if it did. -/
def Outcome.launch? : Outcome C → Option Launch
  | .ok (.launch launch _) => some launch
  | _ => none

theorem Outcome.eq_of_launch? {out : Outcome C} {launch : Launch}
    (h : out.launch? = some launch) : ∃ written, out = .ok (.launch launch written) := by
  unfold Outcome.launch? at h
  split at h
  · exact ⟨_, by rw [Option.some.inj h]⟩
  · cases h

/-- The launches returned so far. -/
def launches (s : System C) : List Launch := s.returned.filterMap fun r => r.2.launch?

theorem mem_launches {s : System C} {c : Nat} {launch : Launch} {written : Written}
    (h : (c, .ok (.launch launch written)) ∈ s.returned) : launch ∈ launches s :=
  List.mem_filterMap.mpr ⟨_, h, rfl⟩

/-- Two launches are for different records: each has its start token. -/
theorem Inv.launches_pairwise {s : System C} (hinv : Inv s) :
    (launches s).Pairwise fun l l' => path l.executionID ≠ path l'.executionID := by
  unfold launches
  rw [List.pairwise_filterMap]
  have hdistinct : s.returned.Pairwise fun r r' => r.1 ≠ r'.1 := List.pairwise_map.mp hinv.once
  refine hdistinct.imp_of_mem fun {r r'} hr hr' hne l hl l' hl' hpath => ?_
  obtain ⟨c, out⟩ := r
  obtain ⟨c', out'⟩ := r'
  obtain ⟨w, rfl⟩ := Outcome.eq_of_launch? hl
  obtain ⟨w', rfl⟩ := Outcome.eq_of_launch? hl'
  have htoken := hinv.launched c l w hr
  rw [hpath, hinv.launched c' l' w' hr'] at htoken
  exact hne (Option.some.inj htoken).symm

theorem Inv.executionIDs_nodup {s : System C} (hinv : Inv s) :
    ((launches s).map Launch.executionID).Nodup :=
  List.pairwise_map.mpr (hinv.launches_pairwise.imp fun h hid => h (congrArg path hid))

/-- The launched execution is the one `Prepare` makes of the plan, under some
fence. -/
def LaunchOf (C : Commerce) (plan : Plan) (launch : Launch) : Prop :=
  ∃ fence prepared digest, preparePlan C plan fence = .ok (prepared, digest) ∧
    launch.executionID = prepared.executionID

/-- **Start returns a launch at most once** for an execution ID, and so at most once
for a plan, however its lists are ordered, whatever identifiers the caller wrote
into it, and under whichever writer generation it was prepared. -/
theorem start_at_most_once {cfg : Config (Op C) Res (System C) (Outcome C)}
    (hrun : (gateMachine C).Run NoClose (gateInit C) cfg) :
    ((launches cfg.shared).map Launch.executionID).Nodup ∧
    (launches cfg.shared).Pairwise fun l l' =>
      ∀ p q, SamePlan p q → LaunchOf C p l → ¬ LaunchOf C q l' := by
  have hinv := inv_of_run (hrun.mono fun _ h => h.quiet)
  refine ⟨hinv.executionIDs_nodup, hinv.launches_pairwise.imp ?_⟩
  rintro l l' hne p q hsame ⟨f, p', d, hp, hl⟩ ⟨f', q', d', hq, hl'⟩
  rw [hl, hl', preparePlan_executionID hp hq hsame] at hne
  exact hne rfl

/-- The rehearsed start is one. -/
theorem start_at_most_once_rehearsed : ∃ cfg : Config (Op tolerant) Res (System tolerant)
      (Outcome tolerant),
    (gateMachine tolerant).Run NoClose (gateInit tolerant) cfg ∧
    launchFrom preparedRecord ∈ launches cfg.shared ∧
    ((launches cfg.shared).map Launch.executionID).Nodup ∧
    (launches cfg.shared).Pairwise fun l l' =>
      ∀ p q, SamePlan p q → LaunchOf tolerant p l → ¬ LaunchOf tolerant q l' := by
  obtain ⟨cfg, hrun, hs, hstage, -⟩ := rehearse_prepared lax_noClose (fun _ _ h => nomatch h)
  obtain ⟨cfg', hrun', -, -, hmade⟩ := hstage.started lax_noClose hs
  exact ⟨cfg', hrun.trans hrun', mem_launches hmade.mem, start_at_most_once (hrun.trans hrun')⟩

/-! ## Hand-over -/

/-- **Hand-over is safe if `Close` comes alone.**  In a quiet run, over all the
Gates of the directory, an execution is launched at most once, and a record that is
ambiguous stays as it is. -/
theorem handover_of_quiet {cfg cfg' : Config (Op C) Res (System C) (Outcome C)}
    (hreach : (gateMachine C).Run Quiet (gateInit C) cfg)
    (hrun : (gateMachine C).Run Quiet cfg cfg')
    (hlosses : cfg'.shared.losses = cfg.shared.losses) :
    ((launches cfg'.shared).map Launch.executionID).Nodup ∧
    ∀ n (e : Record), n.isRecord = true → cfg.shared.fs.now n = some e.file →
      e.state = .ambiguousStart ∨ e.state = .ambiguousRun →
      ∃ e' : Record, cfg'.shared.fs.now n = some e'.file ∧ e'.state = e.state := by
  refine ⟨(inv_of_run (hreach.trans hrun)).executionIDs_nodup, fun n e hn hnow hstate => ?_⟩
  have hfinal : e.state.final = true := by
    rcases hstate with hstate | hstate <;> rw [hstate] <;> rfl
  obtain ⟨e', hnow', ⟨-, rfl⟩ | ⟨-, hfollows⟩⟩ :=
    (allKept_of_run hreach hrun).2 hlosses n e hn hnow
  · exact ⟨e', hnow', rfl⟩
  · exact ⟨e', hnow', final_absorbing hfollows.state hfinal⟩

/-- Gate A has started the execution and is closed; Gate B has opened the directory
and found the start ambiguous. -/
theorem handover_of_quiet_reopened : ∃ cfg : Config (Op tolerant) Res (System tolerant)
      (Outcome tolerant),
    (gateMachine tolerant).Run Quiet (gateInit tolerant) cfg ∧
    cfg.shared.fs.now sampleName = some startedRecord.reopened.file ∧
    startedRecord.reopened.state = .ambiguousStart ∧
    ((launches cfg.shared).map Launch.executionID).Nodup ∧
    ∀ n (e : Record), n.isRecord = true → cfg.shared.fs.now n = some e.file →
      e.state = .ambiguousStart ∨ e.state = .ambiguousRun →
      ∃ e' : Record, cfg.shared.fs.now n = some e'.file ∧ e'.state = e.state := by
  have hquiet : ∀ s : System tolerant, NoClose s → Quiet s := fun _ h => h.quiet
  obtain ⟨cfg, hrun, hs, hstage, hidle⟩ := rehearse_prepared lax_noClose (fun _ _ h => nomatch h)
  obtain ⟨cfg₁, hrun₁, hs₁, hstage₁, hmade₁⟩ := hstage.started lax_noClose hs
  obtain ⟨cfg₂, hrun₂, -, howner₂, hfs₂, hvacant₂, hmade₂⟩ := run_close coarse_quiet
    hstage₁.published hstage₁.lock hstage₁.owner hstage₁.vacant
    (quiet_begin (hmade₁.calls ▸ hidle) _ _) (calm 200 (by decide))
  have hdisk₂ : Disk sampleName (some startedRecord.file) cfg₂.shared.fs := by
    rw [hfs₂]
    exact hstage₁.disk
  have hs₂' : NoClose cfg₂.shared := by
    intro c g
    rw [hmade₂.calls]
    exact hs₁ c g
  obtain ⟨cfg₃, hrun₃, -, hstage₃, -⟩ := run_open lax_noClose hs₂' howner₂ hvacant₂ hdisk₂
    (.record readable_startedRecord) (calm 200 (by decide)) "/" (by decide)
  have hreach := (((hrun.trans hrun₁).mono hquiet).trans hrun₂).trans (hrun₃.mono hquiet)
  exact ⟨cfg₃, hreach, hstage₃.disk.now, rfl, handover_of_quiet hreach .refl rfl⟩

/-- The start of the sample execution. -/
def sampleStart : Method :=
  .start (ticketFrom preparedRecord) sampleFence (sampleAction "execution.start")

variable {cfg : Config (Op tolerant) Res (System tolerant) (Outcome tolerant)}

/-- A `Start` that has read its record returns the launch whatever has happened to
the record and to the directory since. -/
theorem Stage.halfStarted {g : Nat} {A : System tolerant → Prop} (hA : Lax A)
    (hs : A cfg.shared) (hstage : Stage g sampleName (some preparedRecord.file) cfg) :
    ∃ q cfg', (gateMachine tolerant).Run A cfg cfg' ∧ A cfg'.shared ∧
      cfg'.shared.published g = true ∧ cfg'.shared.lock g = true ∧ cfg'.shared.owner = some g ∧
      cfg'.shared.fs = cfg.shared.fs ∧ Vacant cfg' ∧
      cfg'.pool cfg.shared.next = some q ∧
      ∀ u, Prog.Always ((calm 200 (by decide)).works cfg.shared.next)
        (fun out _ => ∃ w, out = .ok (.launch (launchFrom preparedRecord) w)) q u := by
  have hid : (ticketFrom preparedRecord).executionID ≠ "" :=
    validDigest_ne_empty validDigest_zeroDigest
  have hsecret : (ticketFrom preparedRecord).secret ≠ "" := by decide
  have hpath : path (ticketFrom preparedRecord).executionID = sampleName := path_zeroDigest
  have hnow := hstage.disk.now
  rw [← hpath] at hnow
  have hbegin := hA.begin g sampleStart cfg.shared (fun h => nomatch h) hs
  obtain ⟨q, t, rfl, hrun, hrest⟩ := run_halt (W := calm 200 (by decide)) hA.toCoarse
    (hstage.vacant cfg.shared.next (Nat.le_refl _)).2.2 (g := g) (m := sampleStart)
    hstage.published hbegin
    (R := fun t => t = (cfg.shared.begin g sampleStart).enterMutex cfg.shared.next g)
    (K := fun _ => True) (Q := fun r _ => ∃ w, r = .launch (launchFrom preparedRecord) w)
    (Halts.within (halts_start calm_starts ⟨begin_calls _ _ _, hstage.lock, hstage.free⟩ hid hsecret
      hnow readable_preparedRecord fun _ _ _ _ => ⟨_, rfl⟩))
  refine ⟨q, _, hrun, hA.same (cfg.shared.begin g sampleStart) _ rfl rfl hbegin,
    hstage.published, hstage.lock, hstage.owner, rfl,
    fun c hc => ?_, Function.update_self .., fun u =>
      Prog.Always.mono (fun out v hout => ?_) (hrest u trivial)⟩
  · have hlt : cfg.shared.next < c := hc
    obtain ⟨hcall, hmu, hpool⟩ := hstage.vacant c (Nat.le_of_lt hlt)
    have hgate : c ≠ g := (hstage.opened.trans hlt).ne'
    simp [System.enterMutex, System.begin, hcall, hmu, hpool, hlt.ne', hgate]
  · cases out with
    | error e => exact hout.elim
    | ok r =>
      obtain ⟨w, rfl⟩ := hout
      exact ⟨w, rfl⟩

/-- **Two launches of one execution.**  Gate A reads the prepared record in `Start`
and is closed; Gate B opens the directory and starts the execution; the `Start` on
A goes on, replaces the record once more and returns a launch as well. -/
theorem double_start : ∃ cfg : Config (Op tolerant) Res (System tolerant) (Outcome tolerant),
    (gateMachine tolerant).Run Powered (gateInit tolerant) cfg ∧
    ¬ ((launches cfg.shared).map Launch.executionID).Nodup := by
  obtain ⟨cfg₁, hrun₁, hs₁, hstage₁, -⟩ := rehearse_prepared lax_powered rfl
  obtain ⟨q, cfg₂, hrun₂, hs₂, hgate₂, hlock₂, howner₂, hfs₂, hvacant₂, hpool₂, hrest⟩ :=
    hstage₁.halfStarted lax_powered hs₁
  -- the mutex of A is held, which `Close` does not look at
  obtain ⟨cfg₃, hrun₃, hs₃, howner₃, hfs₃, hvacant₃, hmade₃⟩ := run_close lax_powered.toCoarse
    hgate₂ hlock₂ howner₂ hvacant₂ hs₂ (calm 200 (by decide))
  have hdisk₃ : Disk sampleName (some preparedRecord.file) cfg₃.shared.fs := by
    rw [hfs₃, hfs₂]
    exact hstage₁.disk
  obtain ⟨cfg₄, hrun₄, hs₄, hstage₄, hmade₄, -⟩ := run_open lax_powered hs₃ howner₃ hvacant₃ hdisk₃
    (.record readable_preparedRecord) (calm 200 (by decide)) "/" (by decide)
  obtain ⟨cfg₅, hrun₅, hs₅, -, hmade₅⟩ := Stage.started lax_powered hs₄ hstage₄
  have hpool₅ : cfg₅.pool cfg₁.shared.next = some q := by
    rw [hmade₅.pool, hmade₄.pool, hmade₃.pool, hpool₂]
  obtain ⟨out, t, ⟨w, rfl⟩, hreturned, hrun₆⟩ :=
    run_resume lax_powered.toCoarse hpool₅ hs₅ (hrest cfg₅.shared)
  refine ⟨_, ((((hrun₁.trans hrun₂).trans hrun₃).trans hrun₄).trans hrun₅).trans hrun₆, ?_⟩
  simp [launches, System.finish, hreturned, hmade₅.returned, Outcome.launch?, List.filterMap_append,
    List.nodup_append]

/-! ## Effects -/

/-- **An effect is submitted at most once.**  `performPinnedHTTPS` is entered at most
once for an execution and a planned effect; it is entered only when whatever a power
loss may leave of the record shows the effect as submitted by the calling action;
and the record was in state `RUNNING` when the effect was admitted. -/
theorem effect_at_most_once {cfg : Config (Op C) Res (System C) (Outcome C)}
    (hrun : (gateMachine C).Run Quiet (gateInit C) cfg) :
    (cfg.shared.entered.map fun x =>
      (x.entry.admitted.plan.executionID, x.entry.effectID)).Nodup ∧
    ∀ x ∈ cfg.shared.entered, x.entry.admitted.state = .running ∧
      path x.entry.admitted.plan.executionID = x.entry.name ∧
      ∀ o ∈ x.durable, Holding (SubmittedBy x.entry.effectID x.entry.action) o := by
  have hinv := inv_of_run hrun
  refine ⟨?_, fun x hx => ?_⟩
  · have hnames := List.pairwise_map.mp hinv.enteredOnce
    refine List.pairwise_map.mpr (hnames.imp_of_mem fun {x y} hx hy hne hsame => hne ?_)
    obtain ⟨hid, heffect⟩ := Prod.mk.inj hsame
    have hpath := (hinv.entered x hx).1.path
    rw [hid, (hinv.entered y hy).1.path] at hpath
    rw [hpath, heffect]
  · have hfair := (hinv.entered x hx).1
    exact ⟨hfair.running, hfair.path, hfair.durable⟩

def sampleCall : EffectCall where
  launch := launchFrom preparedRecord
  request := ⟨"e", "GET", "/", [], []⟩
  action := sampleAction "executor.effect"
  fence := sampleFence
  hasCredentials := false
  hasRevalidate := true

def submittedRecord : Record := runningRecord.submit "e" (sampleAction "executor.effect")

theorem readable_submittedRecord : Readable submittedRecord where
  size := Record.marshal_length_le (by decide +kernel)
  fields := by decide +kernel
  effects := by
    intro id r hr
    rw [submittedRecord, Record.submit, getElem?_insert_effect] at hr
    split at hr
    · rename_i hid
      obtain rfl := Option.some.inj hr
      rw [← hid]
      decide +kernel
    · exact readable_runningRecord.effects id r hr

theorem calm_performs {status : Nat} {h : status < 1000} :
    (calm status h).Performs runningRecord sampleCall
      ⟨"e", zeroDigest, zeroDigest, "https.get", zeroDigest, "n", "", 1⟩
      ⟨"n", "https", "h", 443, ["8.8.8.8"], "h", false, 1, 1⟩ zeroDigest where
  running := rfl
  launched := ⟨rfl, rfl⟩
  planned := by decide +kernel
  bound := by decide +kernel
  bare := rfl
  allows := authorized_tolerant ..
  current := rfl
  valid := by decide +kernel
  absent := by simp [runningRecord, startedRecord, preparedRecord, initialRecord,
    Record.transition, Record.start]
  revalidates := rfl
  safe := rfl
  fits := Nat.zero_le _
  digested := rfl

/-- The effect of the sample execution is performed, and answered with the status. -/
theorem Stage.performed {g : Nat} {A : System tolerant → Prop} (hA : Lax A)
    (hs : A cfg.shared) (hstage : Stage g sampleName (some runningRecord.file) cfg) (status : Nat)
    (h : status < 1000) :
    ∃ cfg', (gateMachine tolerant).Run A cfg cfg' ∧ A cfg'.shared ∧
      Made (.response ⟨status, [], zeroDigest⟩ (some ⟨sampleName,
        runningRecord.performed sampleCall ⟨status, [], zeroDigest⟩⟩)) cfg cfg' ∧
      cfg'.shared.fs.now sampleName =
        some (runningRecord.performed sampleCall ⟨status, [], zeroDigest⟩).file ∧
      ∃ x ∈ cfg'.shared.entered, x.entry = ⟨sampleName, "e", sampleAction "executor.effect",
        runningRecord⟩ := by
  have hpath : path sampleCall.launch.executionID = sampleName := path_zeroDigest
  rw [← hpath] at hstage ⊢
  obtain ⟨cfg', hrun, hs', hstage', hmade, hentered⟩ :=
    Stage.performHTTPS (W := calm status h) hA hs
    calm_performs hstage readable_runningRecord readable_submittedRecord
  exact ⟨cfg', hrun, hs', hmade, hstage'.disk.now, hentered⟩

/-- The sample effect is one. -/
theorem effect_at_most_once_performed : ∃ cfg : Config (Op tolerant) Res (System tolerant)
      (Outcome tolerant),
    (gateMachine tolerant).Run Quiet (gateInit tolerant) cfg ∧
    (∃ x ∈ cfg.shared.entered, x.entry = ⟨sampleName, "e", sampleAction "executor.effect",
      runningRecord⟩) ∧
    (cfg.shared.entered.map fun x =>
      (x.entry.admitted.plan.executionID, x.entry.effectID)).Nodup ∧
    ∀ x ∈ cfg.shared.entered, x.entry.admitted.state = .running ∧
      path x.entry.admitted.plan.executionID = x.entry.name ∧
      ∀ o ∈ x.durable, Holding (SubmittedBy x.entry.effectID x.entry.action) o := by
  obtain ⟨cfg₀, hrun₀, hs₀, hstage₀, -⟩ := rehearse_prepared lax_noClose (fun _ _ h => nomatch h)
  obtain ⟨cfg₁, hrun₁, hs₁, hstage₁, -⟩ := hstage₀.started lax_noClose hs₀
  obtain ⟨cfg₂, -, hrun₂, hs₂, hstage₂, -⟩ := hstage₁.running lax_noClose hs₁
  obtain ⟨cfg₃, hrun₃, -, -, -, hentered⟩ := hstage₂.performed lax_noClose hs₂ 200 (by decide)
  have hreach := (((hrun₀.trans hrun₁).trans hrun₂).trans hrun₃).mono fun _ h => h.quiet
  exact ⟨cfg₃, hreach, hentered, effect_at_most_once hreach⟩

end TosAi.CommerceGate
