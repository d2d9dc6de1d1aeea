/-
  Every run over one store and one journal root.

  `sound` collects the three methods, the start and the return of a call, the death of a
  process and a loss of power, so the invariant holds in every run.  `Later` is what two
  states of a run have to do with each other while no power is lost: what lasts is still
  there, and calls that began in between have found it.
-/
import TosAi.SoftwareWork.Execution

set_option autoImplicit false

namespace TosAi.SoftwareWork

open Foundation Foundation.Discipline

variable {r : Runner} {c : Nat} {s s' : System}

/-! ## Moves of the environment -/

/-- A move that leaves both directories and the history alone. -/
theorem Inv.of_same (hinv : Inv r s) (hlasts : Lasts s s') (hjournal : s'.journal = s.journal)
    (hobjects : s'.objects = s.objects) (hnext : s'.next = s.next) (hbegan : s'.began = s.began)
    (hinvoked : s'.invoked = s.invoked) (hlosses : s'.losses = s.losses)
    (hreturned : s'.returned = s.returned) : Inv r s' where
  first := by
    rw [hbegan, hnext]
    exact hinv.first
  fresh := by
    rw [hbegan, hnext]
    exact hinv.fresh
  objects := by
    intro hex f hf
    rw [hobjects] at hf
    exact (hinv.objects hex f hf).mono hlasts.hashed
  records := by
    rw [hjournal]
    exact hinv.records
  recorded := by
    intro i hi
    rw [hinvoked] at hi
    obtain ⟨⟨b, request, hb, hmethod, hid, hdisk, hhashed, hmarked⟩, hopener⟩ := hinv.recorded i hi
    refine ⟨⟨b, request, hlasts.began _ b hb, hmethod, hid, hdisk, hlasts.hashed _ hhashed, ?_⟩, ?_⟩
    · rw [hjournal]
      exact hmarked
    · rw [hjournal]
      exact hopener
  once := by
    rw [hinvoked]
    exact hinv.once
  backed := by
    intro hzero hex fp o hfp hnow
    rw [hlosses] at hzero
    rw [hjournal] at hnow
    obtain ⟨hshort, hbacked⟩ := hinv.backed hzero hex fp o hfp hnow
    exact ⟨hshort, hbacked.mono hlasts⟩
  kept := by
    intro hzero e he
    rw [hlosses] at hzero
    rw [hreturned] at he
    obtain ⟨b, hb, hkept⟩ := hinv.kept hzero e he
    exact ⟨b, hlasts.began _ b hb, hkept.mono hlasts id⟩

theorem Inv.powerLoss (hinv : Inv r s) (records : JournalName → Option File)
    (hrecords : ∀ n, records n ∈ s.journal.outcomes n) (objects : ObjectName → Option File)
    (hobjects : ∀ n, objects n ∈ s.objects.outcomes n) :
    Inv r (s.powerLoss records hrecords objects hobjects) where
  first := hinv.first
  fresh := hinv.fresh
  objects := by
    intro hex f hf
    have hfound :
      some f ∈ ((s.objects.slot (.object hex)).reboot (objects (.object hex))).outcomes := hf
    rw [Slot.outcomes_reboot, List.mem_singleton] at hfound
    have haddressed := hinv.objects hex f (hfound ▸ hobjects (.object hex))
    exact ⟨haddressed.perm, haddressed.name, haddressed.length, haddressed.hashed⟩
  records := by
    intro hex f hf
    have hfound :
      some f ∈ ((s.journal.slot (.record hex)).reboot (records (.record hex))).outcomes := hf
    rw [Slot.outcomes_reboot, List.mem_singleton] at hfound
    exact hinv.records hex f (hfound ▸ hrecords (.record hex))
  recorded := by
    intro i hi
    obtain ⟨⟨b, request, hb, hmethod, hid, hdisk, hhashed, hmarked⟩, -⟩ := hinv.recorded i hi
    refine ⟨⟨b, request, hb, hmethod, hid, hdisk, hhashed, ?_⟩, .inr rfl⟩
    intro o ho
    have hfound : o ∈ ((s.journal.slot (recordName i.executionID)).reboot
      (records (recordName i.executionID))).outcomes := ho
    rw [Slot.outcomes_reboot, List.mem_singleton] at hfound
    rw [hfound]
    exact hmarked _ (hrecords _)
  once := hinv.once
  backed := fun hzero => absurd hzero (Nat.succ_ne_zero _)
  kept := fun hzero => absurd hzero (Nat.succ_ne_zero _)

theorem inv_env {dead : Nat → Prop} (henv : System.Env dead s s') (hinv : Inv r s) : Inv r s' := by
  cases henv with
  | kill process => exact hinv.of_same (lasts_kill process s) rfl rfl rfl rfl rfl rfl rfl
  | cancel d => exact hinv.of_same (lasts_cancel d s) rfl rfl rfl rfl rfl rfl rfl
  | powerLoss records hrecords objects hobjects =>
    exact hinv.powerLoss records hrecords objects hobjects

/-! ## The start and the return of a call -/

/-- A call that has not begun has invoked nothing. -/
theorem Inv.idle (hinv : Inv r s) (hfresh : s.began c = none) : Idle c s := by
  simp only [Idle, System.hasInvoked, List.any_eq_false, beq_iff_eq]
  rintro i hi rfl
  obtain ⟨⟨b, request, hb, -⟩, -⟩ := hinv.recorded i hi
  rw [hfresh] at hb
  cases hb

/-- The state in which a call has just begun. -/
def System.begin (s : System) (process : Nat) (m : Method) : System :=
  { s with
    began := Function.update s.began s.next (some ⟨process, m, s.journal.now, s.objects.now⟩)
    next := s.next + 1 }

section Begin

variable (process : Nat) (m : Method)

theorem began_begin : (s.begin process m).began s.next =
    some ⟨process, m, s.journal.now, s.objects.now⟩ := Function.update_self _ _ _

theorem act_begin (hinv : Inv r s) : Act s.next s (s.begin process m) where
  call := Nat.ne_of_gt hinv.first.2
  records := fun _ => .inl (.refl _)
  finished := fun _ _ h _ => h
  temporaries := fun _ => .inl (.refl _)
  names := fun _ h => h
  objects := fun _ => .inl (.refl _)
  copies := fun _ => .inl (.refl _)
  hashed := fun _ h => h
  invoked := fun _ hi => .inl hi
  began := by
    intro d b hb
    have hne : d ≠ s.next := by
      rintro rfl
      rw [hinv.fresh _ (Nat.le_refl _)] at hb
      cases hb
    exact (Function.update_of_ne hne _ _).trans hb
  starts := by
    intro d b hb
    by_cases hd : d = s.next
    · subst hd
      rw [began_begin] at hb
      obtain rfl := Option.some.inj hb
      exact .inr ⟨rfl, rfl⟩
    · exact .inl ((Function.update_of_ne hd _ _).symm.trans hb)
  cancelled := rfl
  troubled := fun _ h => h
  losses := rfl

theorem inv_begin (hinv : Inv r s) : Inv r (s.begin process m) where
  first := by
    have hne : (0 : Nat) ≠ s.next := Nat.ne_of_lt hinv.first.2
    exact ⟨(Function.update_of_ne hne _ _).trans hinv.first.1, Nat.succ_pos _⟩
  fresh := by
    intro d hd
    have hlt : s.next < d := hd
    exact (Function.update_of_ne (Nat.ne_of_gt hlt) _ _).trans (hinv.fresh d (Nat.le_of_lt hlt))
  objects := fun hex f hf => (hinv.objects hex f hf).mono fun _ h => h
  records := hinv.records
  recorded := by
    intro i hi
    obtain ⟨⟨b, request, hb, hrest⟩, hopener⟩ := hinv.recorded i hi
    exact ⟨⟨b, request, (act_begin process m hinv).began _ b hb, hrest⟩, hopener⟩
  once := hinv.once
  backed := by
    intro hzero hex fp o hfp hnow
    obtain ⟨hshort, hbacked⟩ := hinv.backed hzero hex fp o hfp hnow
    exact ⟨hshort, hbacked.mono (act_begin process m hinv).lasts⟩
  kept := by
    intro hzero e he
    obtain ⟨b, hb, hkept⟩ := hinv.kept hzero e he
    have hlasts := (act_begin process m hinv).lasts
    exact ⟨b, hlasts.began _ b hb, hkept.mono hlasts id⟩

end Begin

/-! ## What each method answers -/

/-- The call began with this method where the directories were so. -/
def Begun (c process : Nat) (m : Method) (s₀ s : System) : Prop :=
  s.began c = some ⟨process, m, s₀.journal.now, s₀.objects.now⟩

theorem Begun.lasts {process : Nat} {m : Method} {s₀ : System} :
    ∀ s s', Lasts s s' → Begun c process m s₀ s → Begun c process m s₀ s' :=
  fun _ _ hlasts hs => hlasts.began _ _ hs

/-- The specification of a method. -/
abbrev Answers (r : Runner) (c : Nat) (P : System → Prop) (m : Method) : Prop :=
  Does r c P (body r m) (fun result s => (discipline r).post c (.ok result) s)
    (fun err s => (discipline r).post c (.error err) s)

theorem Answers.safe {P : System → Prop} {m : Method} (h : Answers r c P m)
    (hok : (discipline r).Ok s) (hs : P s) :
    (discipline r).Safe c ((discipline r).post c) (program r m) s := by
  apply (h s hok hs).mono
  intro answer t ht
  cases answer with
  | ok result => exact ht
  | error err => exact ht

section Methods

variable (hc : c ≠ 0) (process : Nat) (s₀ : System)

include hc

theorem put_answers (mediaType : String) (reader : Reader) :
    Answers r c (Begun c process (.put mediaType reader) s₀) (.put mediaType reader) := by
  apply Meets.bind ((Does.keep Begun.lasts (put_does (r := r) hc mediaType reader)).conseq
    (fun _ _ hs => ⟨trivial, hs⟩) (fun _ _ hs => hs) (fun _ _ hs => ⟨_, hs.2, trivial⟩))
  intro d
  apply Meets.pure
  intro s _ hs
  exact ⟨_, hs.2, hs.1.2⟩

theorem get_answers (digest : String) :
    Answers r c
      (fun s => Known (s₀.objects.now (objectName digest)) (trimStart "sha256:" digest) s ∧
      Begun c process (.get digest) s₀ s) (.get digest) := by
  apply Meets.bind ((Does.keep Begun.lasts (get_does (r := r) hc digest _)).conseq
    (fun _ _ hs => hs) (fun _ _ hs => hs)
    (fun _ _ hs => ⟨_, hs.2, fun f hf hpattern => hs.1 hpattern f hf⟩))
  intro bytes
  apply Meets.pure
  intro s _ hs
  exact ⟨_, hs.2, hs.1.1.1, hs.1.2, hs.1.1.2⟩

/-- `known` is the record that was complete before, if there was one. -/
theorem execute_answers (hlawful : r.Lawful) (request : Request) {hex : String}
    (hname : recordName request.executionID = .record hex) {known : Option File}
    (hknown : ∀ f, s₀.journal.now (.record hex) = some f → Finished f → known = some f) :
    Answers r c (fun s => (Begun c process (.execute request) s₀ s ∧ KnownRecord known hex s ∧
      Idle c s) ∧ Begun c process (.execute request) s₀ s) (.execute request) := by
  apply Meets.bind ((Does.keep (R := Begun c process (.execute request) s₀) Begun.lasts
    (execute_does (r := r) hc hlawful rfl hname)).conseq (fun _ _ hs => hs) (fun _ _ hs => hs) ?_)
  · intro o
    apply Meets.pure
    rintro s _ ⟨hgives, hbegun⟩
    refine ⟨_, hbegun, hgives.complete.1, ?_, hgives.hashed, ?_⟩
    · rw [hname]
      exact hgives.complete.2
    · intro f hf hfinished
      rw [hname] at hf
      exact hgives.known f (hknown f hf hfinished)
  · rintro err s ⟨hfails, hbegun⟩
    refine ⟨_, hbegun, hfails.hashed, ?_⟩
    intro f hf hfinished
    rw [hname] at hf
    exact hfails.known f (hknown f hf hfinished)

end Methods

theorem program_safe (hlawful : r.Lawful) (hinv : Inv r s) (process : Nat) (m : Method) :
    (discipline r).Safe s.next ((discipline r).post s.next) (program r m) (s.begin process m) := by
  have hc : s.next ≠ 0 := Nat.ne_of_gt hinv.first.2
  have hok : (discipline r).Ok (s.begin process m) := ⟨trivial, inv_begin process m hinv⟩
  have hbegun : Begun s.next process m s (s.begin process m) := began_begin process m
  cases m with
  | put mediaType reader => exact (put_answers hc process s mediaType reader).safe hok hbegun
  | get digest => exact (get_answers hc process s digest).safe hok ⟨fun f hf => hf, hbegun⟩
  | execute request =>
    have hidle : Idle s.next (s.begin process (.execute request)) :=
      hinv.idle (hinv.fresh _ (Nat.le_refl _))
    obtain ⟨known, hknown, hrecord⟩ : ∃ known : Option File,
        (∀ f, s.journal.now (recordName request.executionID) = some f → Finished f →
          known = some f) ∧
        ∀ f ∈ known, Finished f ∧ s.journal.now (recordName request.executionID) = some f := by
      by_cases hbefore : ∃ f, s.journal.now (recordName request.executionID) = some f ∧ Finished f
      · obtain ⟨f, hnow, hfinished⟩ := hbefore
        refine ⟨some f, fun g hg _ => hnow.symm.trans hg, ?_⟩
        rintro g hg
        obtain rfl := Option.some.inj hg
        exact ⟨hfinished, hnow⟩
      · exact ⟨none, fun f hf hfinished => absurd ⟨f, hf, hfinished⟩ hbefore,
          fun _ hf => nomatch hf⟩
    exact (execute_answers hc process s hlawful request rfl hknown).safe hok
      ⟨⟨hbegun, hrecord, hidle⟩, hbegun⟩

theorem act_finish (hc : c ≠ 0) (answer : Answer) : Act c s (s.finish c answer) where
  call := hc
  records := fun _ => .inl (.refl _)
  finished := fun _ _ h _ => h
  temporaries := fun _ => .inl (.refl _)
  names := fun _ h => h
  objects := fun _ => .inl (.refl _)
  copies := fun _ => .inl (.refl _)
  hashed := fun _ h => h
  invoked := fun _ hi => .inl hi
  began := fun _ _ h => h
  starts := fun _ _ h => .inl h
  cancelled := rfl
  troubled := fun _ h => h
  losses := rfl

/-- An answer stays true until it is returned. -/
theorem stays_post {answer : Answer} : Stays r c ((discipline r).post c answer) :=
  stays_of_frame fun _ _ hframe ⟨b, hb, hkept⟩ =>
    ⟨b, hframe.lasts.began c b hb, hkept.mono hframe.lasts hframe.idle⟩

theorem inv_finish (hinv : Inv r s) (hc : c ≠ 0) {answer : Answer}
    (hpost : (discipline r).post c answer s) : Inv r (s.finish c answer) := by
  have hlasts := (act_finish (s := s) hc answer).lasts
  exact
    { hinv with
      objects := fun hex f hf => (hinv.objects hex f hf).mono fun _ h => h
      recorded := fun i hi => ⟨(hinv.recorded i hi).claim, (hinv.recorded i hi).opener⟩
      backed := by
        intro hzero hex fp o hfp hnow
        obtain ⟨hshort, hbacked⟩ := hinv.backed hzero hex fp o hfp hnow
        exact ⟨hshort, hbacked.mono hlasts⟩
      kept := by
        intro hzero e he
        rcases List.mem_cons.mp he with rfl | he
        · obtain ⟨b, hb, hkept⟩ := hpost
          exact ⟨b, hb, hkept.mono hlasts id⟩
        · obtain ⟨b, hb, hkept⟩ := hinv.kept hzero e he
          exact ⟨b, hb, hkept.mono hlasts id⟩ }

/-! ## Every run -/

/-- **The discipline is sound.** -/
theorem sound (hlawful : r.Lawful) : (discipline r).Sound where
  env := fun henv hok _ => inv_env henv hok.2
  start := by
    rintro c p s s' ⟨rfl, process, m, rfl, rfl⟩ hok _
    exact ⟨inv_begin process m hok.2, act_begin process m hok.2,
      program_safe hlawful hok.2 process m⟩
  finish := by
    intro c answer s s' hpost hrely hok _
    have hpost := stays_post.rely hrely hpost
    have hc : c ≠ 0 := by
      rintro rfl
      obtain ⟨b, hb, -⟩ := hpost
      rw [hok.2.first.1] at hb
      cases hb
    exact ⟨inv_finish hok.2 hc hpost, act_finish hc answer⟩

theorem good_init (r : Runner) : (discipline r).Good workInit where
  ok := ⟨trivial, inv_init r⟩
  safe := fun _ _ hp => nomatch hp

/-- A run of calls over one store and one journal root. -/
abbrev Runs (r : Runner) (cfg cfg' : Config Op Res System Answer) : Prop :=
  (workMachine r).Run (fun _ => True) cfg cfg'

theorem good_of_runs (hlawful : r.Lawful) {cfg : Config Op Res System Answer}
    (hrun : Runs r workInit cfg) : (discipline r).Good cfg :=
  (good_init r).of_run (sound hlawful) hrun

/-- What a later state has to do with an earlier one. -/
structure Later (s s' : System) : Prop where
  losses : s.losses ≤ s'.losses
  lasts : s'.losses = s.losses → Lasts s s'
  records : s'.losses = s.losses → ∀ d b, s.began d = none → s'.began d = some b →
    ∀ hex f, s.journal.now (.record hex) = some f → Finished f → b.records (.record hex) = some f
  objects : s'.losses = s.losses → ∀ d b, s.began d = none → s'.began d = some b →
    ∀ hex f, s.objects.now (.object hex) = some f → b.objects (.object hex) = some f

theorem Lasts.trans {s t u : System} (h : Lasts s t) (h' : Lasts t u) : Lasts s u where
  finished := fun hex f hf hfinished => h'.finished hex f (h.finished hex f hf hfinished) hfinished
  objects := fun hex f hf => h'.objects hex f (h.objects hex f hf)
  hashed := fun b hb => h'.hashed b (h.hashed b hb)
  began := fun d b hb => h'.began d b (h.began d b hb)
  cancelled := fun d hd => h'.cancelled d (h.cancelled d hd)
  troubled := fun d hd => h'.troubled d (h.troubled d hd)

namespace Later

theorem refl (s : System) : Later s s where
  losses := Nat.le_refl _
  lasts := fun _ => .refl s
  records := fun _ d b hnone hsome => by
    rw [hnone] at hsome
    cases hsome
  objects := fun _ d b hnone hsome => by
    rw [hnone] at hsome
    cases hsome

/-- A call that began on the way began in one of the two halves. -/
theorem trans (s t u : System) (h : Later s t) (h' : Later t u) : Later s u := by
  have hsplit : u.losses = s.losses → t.losses = s.losses ∧ u.losses = t.losses := by
    intro heq
    have hst := h.losses
    have htu := h'.losses
    omega
  have hbegan : u.losses = s.losses → ∀ d b, u.began d = some b → t.began d = some b ∨
      t.began d = none := by
    intro heq d b hb
    cases ht : t.began d with
    | none => exact .inr rfl
    | some b' =>
      have hlast := (h'.lasts (hsplit heq).2).began d b' ht
      rw [hb] at hlast
      exact .inl hlast.symm
  exact {
    losses := Nat.le_trans h.losses h'.losses
    lasts := fun heq => (h.lasts (hsplit heq).1).trans (h'.lasts (hsplit heq).2)
    records := by
      intro heq d b hnone hsome hex f hf hfinished
      obtain ⟨hst, htu⟩ := hsplit heq
      rcases hbegan heq d b hsome with hbefore | hafter
      · exact h.records hst d b hnone hbefore hex f hf hfinished
      · exact h'.records htu d b hafter hsome hex f ((h.lasts hst).finished hex f hf hfinished)
          hfinished
    objects := by
      intro heq d b hnone hsome hex f hf
      obtain ⟨hst, htu⟩ := hsplit heq
      rcases hbegan heq d b hsome with hbefore | hafter
      · exact h.objects hst d b hnone hbefore hex f hf
      · exact h'.objects htu d b hafter hsome hex f ((h.lasts hst).objects hex f hf) }

theorem of_act (h : Act c s s') : Later s s' where
  losses := Nat.le_of_eq h.losses.symm
  lasts := fun _ => h.lasts
  records := by
    intro _ d b hnone hsome hex f hf _
    rcases h.starts d b hsome with hbefore | ⟨hrecords, -⟩
    · rw [hnone] at hbefore
      cases hbefore
    · rw [hrecords]
      exact hf
  objects := by
    intro _ d b hnone hsome hex f hf
    rcases h.starts d b hsome with hbefore | ⟨-, hobjects⟩
    · rw [hnone] at hbefore
      cases hbefore
    · rw [hobjects]
      exact hf

/-- A move of the environment in which no call begins. -/
theorem of_same (hlasts : s'.losses = s.losses → Lasts s s') (hlosses : s.losses ≤ s'.losses)
    (hbegan : s'.began = s.began) : Later s s' where
  losses := hlosses
  lasts := hlasts
  records := by
    intro _ d b hnone hsome
    rw [hbegan, hnone] at hsome
    cases hsome
  objects := by
    intro _ d b hnone hsome
    rw [hbegan, hnone] at hsome
    cases hsome

theorem of_env {dead : Nat → Prop} (henv : System.Env dead s s') : Later s s' := by
  cases henv with
  | kill process => exact of_same (fun _ => lasts_kill process s) (Nat.le_refl _) rfl
  | cancel d => exact of_same (fun _ => lasts_cancel d s) (Nat.le_refl _) rfl
  | powerLoss records hrecords objects hobjects =>
    exact of_same (fun heq => absurd heq (Nat.succ_ne_self _)) (Nat.le_succ _) rfl

end Later

theorem later_of_runs (hlawful : r.Lawful) {cfg cfg' : Config Op Res System Answer}
    (hgood : (discipline r).Good cfg) (hrun : Runs r cfg cfg') : Later cfg.shared cfg'.shared := by
  apply hgood.relates (sound hlawful) hrun Later Later.refl Later.trans
  intro s s' _ _ hmove
  cases hmove with
  | act c hact => exact .of_act hact
  | env dead henv => exact .of_env henv

end TosAi.SoftwareWork
