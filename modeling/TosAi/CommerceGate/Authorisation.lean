/-
  Start authorisation.

  `origin_sound` puts the calls together: the discipline of the recorded Gate holds in
  every run, with Gates closed and opened at any moment, processes dying and power lost.
  The rest reads off what a `Launch` and a ticket rest on, in seconds since 1970.
-/
import TosAi.CommerceGate.Tickets

set_option autoImplicit false

namespace TosAi.CommerceGate

open Foundation Foundation.Discipline

variable {C : Commerce} {α : Type} {c g : Nat} {m : Method}

/-! ## Every call -/

/-- A value that is neither a ticket nor a launch. -/
def Result.plain : Result C → Bool
  | .ticket _ _ | .launch _ _ => false
  | _ => true

def Method.isStart : Method → Bool
  | .start _ _ _ => true
  | _ => false

theorem justified_plain {h : History C} {result : Result C} (hplain : result.plain = true) :
    Justified h c m (.ok result) where
  launch := by
    rintro l w hout
    obtain rfl := Except.ok.inj hout
    cases hplain
  ticket := by
    rintro ticket w hout
    obtain rfl := Except.ok.inj hout
    cases hplain
  error := fun _ _ _ _ _ hout => nomatch hout

theorem justified_error {h : History C} {err : Err} (hm : m.isStart = false) :
    Justified h c m (.error err) where
  launch := fun _ _ hout => nomatch hout
  ticket := fun _ _ hout => nomatch hout
  error := by
    rintro ticket fence action _ rfl
    cases hm

/-- A specification of a whole call. -/
abbrev Accounts (c g : Nat) (m : Method) (body : Gated C (Result C)) : Prop :=
  Does c g m (Untouched c) body (fun result r => Justified r.history c m (.ok result))
    fun err r => Justified r.history c m (.error err)

theorem does_plain {body : Gated C α} {next : α → Gated C (Result C)} {f : α → Result C}
    (hbody : Tame c g m body) (hm : m.isStart = false) (hnext : ∀ a, next a = pure (f a))
    (hf : ∀ a, (f a).plain = true) : Accounts c g m (body >>= next) := by
  refine .bind (S := fun _ _ => True)
    (.conseq hbody (fun _ _ => trivial) (fun _ _ h => h) fun _ _ _ => justified_error hm)
    fun a => ?_
  rw [hnext a]
  exact .pure fun _ _ => justified_plain (hf a)

/-- **Every call** returns what is justified. -/
theorem does_body (m : Method) : Accounts (C := C) c g m (body C m) := by
  cases m with
  | openGate directory hasResolver =>
    exact does_plain (tame_openGate directory hasResolver) rfl (fun _ => rfl) fun _ => rfl
  | close => exact does_plain tame_closeGate rfl (fun _ => rfl) fun _ => rfl
  | prepare plan fence lifetime action =>
    refine .bind ((does_prepare plan fence lifetime action).conseq (fun _ h => h) (fun _ _ h => h)
      fun _ _ _ => justified_error rfl) fun ⟨ticket, written⟩ => ?_
    refine .pure fun r hr => ?_
    refine ⟨(fun _ _ hout => nomatch hout), ?_, fun _ _ _ _ hm => nomatch hm⟩
    rintro ticket' w hout
    obtain ⟨rfl, -⟩ := Result.ticket.inj (Except.ok.inj hout)
    exact ⟨plan, fence, lifetime, action, rfl, hr⟩
  | start ticket fence action =>
    refine .bind ((does_start ticket fence action).conseq (fun _ h => h.1) (fun _ _ h => h)
      fun err r hr => ⟨(fun _ _ hout => nomatch hout), (fun _ _ hout => nomatch hout),
        fun _ _ _ _ _ _ => hr⟩) fun ⟨launch, written⟩ => ?_
    refine .pure fun r hr => ?_
    refine ⟨?_, (fun _ _ hout => nomatch hout), fun _ _ _ _ _ hout => nomatch hout⟩
    rintro l w hout
    obtain ⟨rfl, rfl⟩ := Result.launch.inj (Except.ok.inj hout)
    obtain ⟨t, e, hl, hw⟩ := hr
    exact ⟨ticket, fence, action, t, e, rfl, hl, hw⟩
  | markRunning launch =>
    exact does_plain (tame_transition launch .starting .running "") rfl (fun _ => rfl) fun _ => rfl
  | complete launch terminal outcomeDigest =>
    exact does_plain (tame_complete launch terminal outcomeDigest) rfl (fun _ => rfl) fun _ => rfl
  | performHTTPS call =>
    exact does_plain (f := fun result => .response result.1 result.2) (tame_performHTTPS call) rfl
      (fun _ => rfl) fun _ => rfl
  | inspect executionID =>
    exact does_plain (tame_inspect executionID) rfl (fun _ => rfl) fun _ => rfl
  | exportOutcomeEvidence request =>
    exact does_plain (tame_exportOutcomeEvidence request) rfl (fun _ => rfl) fun _ => rfl
  | buildOperationOutcomeArtifacts request =>
    exact does_plain (tame_buildOperationOutcomeArtifacts request) rfl (fun _ => rfl) fun _ => rfl

/-! ## Every run -/

theorem not_creates_nil {n : FileName} {k : Nat} : ¬ Creates ([] : History C) c n k :=
  fun ⟨_, _, hmem, _⟩ => List.not_mem_nil hmem

theorem grounded_init : Grounded (⟨System.init, []⟩ : Ran C) where
  contents := by
    intro n _ f hf
    cases List.mem_singleton.mp hf
  opened := fun _ _ hf => nomatch hf
  used := by
    intro n f hf
    cases List.mem_singleton.mp hf
  fresh := fun _ hd => absurd rfl hd
  past := fun _ h => nomatch h
  returned := fun _ _ h => nomatch h
  made := ⟨fun _ _ _ h => (not_creates_nil h).elim, fun _ _ _ h => (not_creates_nil h).elim,
    fun _ _ _ _ _ h => (not_creates_nil h).elim⟩

/-- Fewer calls are in flight and the directory is one that might have been left. -/
theorem Grounded.env {r r' : Ran C} (hr : Grounded r) (hhistory : r'.history = r.history)
    (hnext : r'.state.next = r.state.next) (hreturned : r'.state.returned = r.state.returned)
    (hcalls : ∀ d call, r'.state.calls d = some call → r.state.calls d = some call)
    (houtcomes : ∀ n f, some f ∈ r'.state.fs.outcomes n → some f ∈ r.state.fs.outcomes n)
    (hopened : r'.state.fs.Opened r.state.next) (hmade : MadeOnce r') : Grounded r' := by
  have hnone : ∀ d, r.state.calls d = none → r'.state.calls d = none := by
    intro d hd
    cases hcall : r'.state.calls d with
    | none => rfl
    | some call =>
      rw [hcalls d call hcall] at hd
      cases hd
  refine ⟨fun n hn f hf => ?_, hnext ▸ hopened, fun n f hf => ?_, fun d hd => ?_,
    fun event hevent => ?_, fun d out hout => ?_, hmade⟩
  · rw [hhistory]
    exact hr.contents n hn f (houtcomes n f hf)
  · rw [hnext]
    exact hr.used n f (houtcomes n f hf)
  · rw [hnext]
    exact hr.fresh d fun h => hd (hnone d h)
  · rw [hhistory] at hevent
    rw [hnext]
    exact ⟨(hr.past event hevent).1, fun call hcall =>
      (hr.past event hevent).2 call (hcalls _ call hcall)⟩
  · rw [hreturned] at hout
    obtain ⟨hd, hcall, hrest⟩ := hr.returned d out hout
    rw [hnext, hhistory]
    exact ⟨hd, hnone d hcall, hrest⟩

theorem grounded_env {dead : Nat → Prop} {r r' : Ran C}
    (henv : (gateMachine C).recorded.env dead r r') (hr : Grounded r) : Grounded r' := by
  obtain ⟨s, history⟩ := r
  obtain ⟨s', history'⟩ := r'
  obtain ⟨henv, hhistory⟩ := henv
  obtain rfl : history' = history := hhistory
  change System.Env dead s s' at henv
  cases henv with
  | kill gate =>
    refine hr.env rfl rfl rfl (fun d call hcall => ?_) (fun _ _ h => h) hr.opened
      ⟨hr.made.epoch, hr.made.present, hr.made.once⟩
    change (if s.gateOf d = gate then none else s.calls d) = some call at hcall
    split at hcall
    · cases hcall
    · exact hcall
  | powerLoss found hfound =>
    have hleft : ∀ n f, some f ∈ (s.fs.reboot found hfound).outcomes n →
        some f ∈ s.fs.outcomes n := by
      intro n f hf
      rw [Fs.outcomes, Fs.reboot_slot, Slot.outcomes_reboot] at hf
      rw [List.mem_singleton.mp hf]
      exact hfound n
    have hepoch := hr.made.epoch
    refine hr.env rfl rfl rfl (fun _ _ h => nomatch h) hleft (fun n f hf => ?_)
      ⟨fun d n k h => Nat.le_succ_of_le (hepoch d n k h),
        fun d n _ h => absurd (hepoch d n _ h) (Nat.not_succ_le_self _), hr.made.once⟩
    exact hr.used n f (hleft n f (hf ▸ Slot.now_mem_outcomes _))

theorem grounded_start {r r' : Ran C} {p : Prog (Op C) Res (Outcome C)}
    (hstart : (gateMachine C).recorded.start c p r r') (hr : Grounded r) :
    Grounded r' ∧ Moves c r r' ∧ ∃ g m, p = program C m ∧ At c g m (Untouched c) r' := by
  obtain ⟨s, history⟩ := r
  obtain ⟨s', history'⟩ := r'
  obtain ⟨⟨rfl, g, m, rfl, -, hs'⟩, hhistory⟩ := hstart
  obtain rfl : history' = history := hhistory
  obtain rfl : s' = _ := hs'
  have hother : ∀ {d}, d < s.next → Function.update s.calls s.next (some (g, m)) d = s.calls d :=
    fun hd => Function.update_of_ne (Nat.ne_of_lt hd) _ _
  refine ⟨⟨hr.contents, fun n f hf => Nat.lt_succ_of_lt (hr.opened n f hf),
    fun _ _ _ => Nat.succ_pos _, fun d hd => ?_, fun event hevent => ?_, fun d out hout => ?_,
    hr.made.epoch, hr.made.present, hr.made.once⟩,
    ⟨⟨[], (List.append_nil _).symm, fun _ h => nomatch h⟩, fun d hd => Function.update_of_ne hd _ _,
      fun _ _ h => h, fun _ _ _ _ h => h⟩, g, m, rfl, Function.update_self _ _ _, ?_, ?_⟩
  · by_cases hd' : d = s.next
    · exact hd' ▸ Nat.lt_succ_self _
    · change Function.update s.calls s.next (some (g, m)) d ≠ none at hd
      rw [Function.update_of_ne hd'] at hd
      exact Nat.lt_succ_of_lt (hr.fresh d hd)
  · obtain ⟨hlt, hcalls⟩ := hr.past event hevent
    exact ⟨Nat.lt_succ_of_lt hlt, fun call hcall => hcalls call ((hother hlt).symm.trans hcall)⟩
  · obtain ⟨hlt, hnone, hrest⟩ := hr.returned d out hout
    exact ⟨Nat.lt_succ_of_lt hlt, (hother hlt).trans hnone, hrest⟩
  · intro event hevent hcall
    exact absurd (hr.past event hevent).1 (by rw [hcall]; exact Nat.lt_irrefl _)
  · exact hr.opened.blank

theorem lasting_returning {out : Outcome C} : Lasting c (Returning c out) :=
  fun _ _ h ⟨g, m, hcall, hjust⟩ => ⟨g, m, h.calls.trans hcall, hjust.mono h.history h.passive⟩

theorem grounded_finish {r : Ran C} {out : Outcome C} (hr : Grounded r)
    (hpost : Returning c out r) :
    Grounded ((gateMachine C).recorded.finish c out r) ∧
      Moves c r ((gateMachine C).recorded.finish c out r) := by
  obtain ⟨g, m, hcall, hjust⟩ := hpost
  have hlt : c < r.state.next := hr.fresh c (by rw [hcall]; exact Option.some_ne_none _)
  have hcalls : ∀ d call, Function.update r.state.calls c none d = some call →
      r.state.calls d = some call := by
    intro d call hd
    by_cases hdc : d = c
    · rw [hdc, Function.update_self] at hd
      cases hd
    · rwa [Function.update_of_ne hdc] at hd
  refine ⟨⟨hr.contents, hr.opened, hr.used, fun d hd => ?_, fun event hevent => ?_,
    fun d out' hout => ?_, hr.made.epoch, hr.made.present, hr.made.once⟩,
      ⟨[], (List.append_nil _).symm, fun _ h => nomatch h⟩,
    fun d hd => Function.update_of_ne hd _ _, fun _ _ h => h, fun _ _ _ _ h => h⟩
  · obtain ⟨call, hd⟩ := Option.ne_none_iff_exists'.mp hd
    exact hr.fresh d (by rw [hcalls d call hd]; exact Option.some_ne_none _)
  · obtain ⟨hpast, hsame⟩ := hr.past event hevent
    exact ⟨hpast, fun call h => hsame call (hcalls _ call h)⟩
  · rcases List.mem_append.mp hout with hold | hnew
    · obtain ⟨hd, hnone, hrest⟩ := hr.returned d out' hold
      have hdc : d ≠ c := by
        rintro rfl
        rw [hnone] at hcall
        cases hcall
      exact ⟨hd, (Function.update_of_ne hdc _ _).trans hnone, hrest⟩
    · obtain ⟨rfl, rfl⟩ := Prod.mk.inj (List.mem_singleton.mp hnew)
      refine ⟨hlt, Function.update_self _ _ _, g, m, fun event hevent hby => ?_, hjust⟩
      subst hby
      exact (hr.past event hevent).2 _ hcall

theorem origin_sound (C : Commerce) : (originDiscipline C).Sound where
  env := fun henv hok _ => grounded_env henv hok.2
  start := by
    intro c p r r' hstart hok _
    obtain ⟨hgrounded, hmoves, g, m, rfl, hat⟩ := grounded_start hstart hok.2
    refine ⟨hgrounded, hmoves, ?_⟩
    refine ((does_body m) r' ⟨trivial, hgrounded⟩ hat).mono fun out r hr => ?_
    cases out with
    | ok result | error err => exact ⟨g, m, hr⟩
  finish :=
    fun hpost hrely hok _ => grounded_finish hok.2 (lasting_returning.stable.rely hrely hpost)

/-- Every state of every run is grounded. -/
theorem grounded_of_run {cfg : Config (Op C) Res (Ran C) (Outcome C)}
    (hrun : (gateMachine C).recorded.Run (fun _ => True) ((gateInit C).recorded []) cfg) :
    Grounded cfg.shared := by
  have hinit : (originDiscipline C).Good ((gateInit C).recorded []) :=
    ⟨⟨trivial, grounded_init⟩, fun _ _ h => nomatch h⟩
  exact (hinit.of_run (origin_sound C) hrun).ok.2

end TosAi.CommerceGate
