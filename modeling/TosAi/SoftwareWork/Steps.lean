/-
  What one operation can do.

  `Allowed` is the condition under which an operation keeps to the discipline.  What such
  an operation does to the name of a record is one of the six things `RecordStep` lists, and
  what it does to the name of an object one of two (`ObjectStep`).  `Local` collects this,
  and the invariant follows from it by cases (`Local.inv`), with no operation in sight.
-/
import TosAi.SoftwareWork.System

set_option autoImplicit false

namespace TosAi.SoftwareWork

open Foundation
open Foundation.Json (Bytes)

variable {r : Runner} {c : Nat} {s s' : System}

/-! ## What lasts -/

/-- What is never undone but by a loss of power. -/
structure Lasts (s s' : System) : Prop where
  finished : ∀ hex f, s.journal.now (.record hex) = some f → Finished f →
    s'.journal.now (.record hex) = some f
  objects : ∀ hex f, s.objects.now (.object hex) = some f → s'.objects.now (.object hex) = some f
  hashed : ∀ b ∈ s.hashed, b ∈ s'.hashed
  began : ∀ d b, s.began d = some b → s'.began d = some b
  cancelled : ∀ d, s.cancelled d = true → s'.cancelled d = true
  troubled : ∀ d, s.troubled d = true → s'.troubled d = true

theorem Lasts.refl (s : System) : Lasts s s where
  finished := fun _ _ h _ => h
  objects := fun _ _ h => h
  hashed := fun _ h => h
  began := fun _ _ h => h
  cancelled := fun _ h => h
  troubled := fun _ h => h

theorem Act.lasts (h : Act c s s') : Lasts s s' where
  finished := h.finished
  objects := by
    intro hex f hf
    rcases h.objects hex with hslot | hnone
    · exact hslot.now.trans hf
    · rw [hf] at hnone
      cases hnone
  hashed := h.hashed
  began := h.began
  cancelled := fun d hd => by rw [h.cancelled]; exact hd
  troubled := h.troubled

namespace Runner

theorem Stored.mono {d : Descriptor} {content : Bytes} (h : r.Stored s d content)
    (hlasts : Lasts s s') : r.Stored s' d content where
  digest := h.digest
  size := h.size
  length := h.length
  hashed := hlasts.hashed _ h.hashed
  object := by
    obtain ⟨f, hf⟩ := Option.isSome_iff_exists.mp h.object
    exact Option.isSome_iff_exists.mpr ⟨f, hlasts.objects _ f hf⟩

theorem Backed.mono {o : Outcome} (h : r.Backed s o) (hlasts : Lasts s s') : r.Backed s' o := by
  obtain ⟨output, report, artifact, hresult, htar, hreport, hartifact⟩ := h
  exact ⟨output, report, artifact, hresult, htar, hreport.mono hlasts, hartifact.mono hlasts⟩

theorem Executed.mono {b : Start} {invoked invoked' : Bool} {request : Request}
    {answer : Except Err Outcome} (h : r.Executed s c b invoked request answer)
    (hlasts : Lasts s s') (hinvoked : invoked = false → invoked' = false) :
    r.Executed s' c b invoked' request answer := by
  cases answer with
  | ok o =>
    obtain ⟨hfp, hnow, hhashed, hbegan⟩ := h
    exact ⟨hfp, hlasts.finished _ _ hnow ⟨_, o, hfp, rfl⟩, hlasts.hashed _ hhashed,
      fun f hf hfinished => (hbegan f hf hfinished).imp_right hinvoked⟩
  | error err =>
    refine ⟨fun haccepts => hlasts.hashed _ (h.1 haccepts), ?_⟩
    intro f hf hfinished
    obtain ⟨hidle, htroubled⟩ := h.2 f hf hfinished
    exact ⟨hinvoked hidle,
      fun o ho hshort haccepts => hlasts.troubled c (htroubled o ho hshort haccepts)⟩

theorem Kept.mono {b : Start} {invoked invoked' : Bool} {answer : Answer}
    (h : r.Kept s c b invoked answer) (hlasts : Lasts s s')
    (hinvoked : invoked = false → invoked' = false) : r.Kept s' c b invoked' answer := by
  obtain ⟨process, method, records, objects⟩ := b
  cases method with
  | put mediaType reader =>
    match answer, h with
    | .ok (.stored d), h => exact Stored.mono h hlasts
    | .error _, _ => trivial
  | get digest =>
    match answer, h with
    | .ok (.fetched bytes), h => exact ⟨h.1, hlasts.hashed _ h.2.1, h.2.2⟩
    | .error _, h =>
      exact fun f hf hpattern => (h f hf hpattern).imp (hlasts.cancelled c) (hlasts.troubled c)
  | execute request =>
    match answer, h with
    | .ok (.executed o), h =>
      have hexecuted : r.Executed s c _ invoked request (.ok o) := h
      exact hexecuted.mono hlasts hinvoked
    | .error err, h =>
      have hexecuted : r.Executed s c _ invoked request (.error err) := h
      exact hexecuted.mono hlasts hinvoked

end Runner

/-! ## Steps on single names -/

/-- What one operation does to the name of a record. -/
inductive RecordStep (r : Runner) (c : Nat) (s : System) (a : Slot) : Slot → Prop where
  | still {b : Slot} (h : Settles a b) : RecordStep r c s a b
  | created {fp : String} (hfp : digestPattern fp = true) (hnow : a.now = none) :
      RecordStep r c s a (a.create c 0o600)
  | written {fp : String} (k : Nat) (hfp : digestPattern fp = true)
      (hnow : a.now = some ⟨0o600, []⟩) (hopener : a.opener = c) :
      RecordStep r c s a (a.append c ((JournalRecord.claimed fp).line.take k))
  | flushed (hopener : a.opener = c) : RecordStep r c s a (a.flush c)
  | removed {f : File} (hnow : a.now = some f) (hf : Claimed f) (hopener : a.opener = c)
      (hidle : s.hasInvoked c = false) : RecordStep r c s a a.unlink
  | completed {source : Slot} {fp : String} {o : Outcome} (hfp : digestPattern fp = true)
      (hsource : source.present = [some (JournalRecord.completed fp o).file])
      (hfrom : source.opener = c) (hnow : a.now = some (JournalRecord.claimed fp).file)
      (hopener : a.opener = c) (hshort : o.Short) (hbacked : r.Backed s o) :
      RecordStep r c s a (source.replace a)

/-- What one operation does to the name of an object. -/
inductive ObjectStep (r : Runner) (s : System) (hex : String) (a : Slot) : Slot → Prop where
  | still {b : Slot} (h : Settles a b) : ObjectStep r s hex a b
  | linked {source : Slot} {data : Bytes} (hnow : a.now = none)
      (hsource : source.present = [some ⟨0o400, data⟩])
      (haddressed : Addressed r s hex ⟨0o400, data⟩) : ObjectStep r s hex a (source.replace a)

/-- The executor is invoked for a claim that is on disk. -/
structure Invokes (r : Runner) (c : Nat) (s s' : System) (b : Start) (request : Request) :
    Prop where
  invoked : s'.invoked = ⟨c, request.executionID,
    s.journal.outcomes (recordName request.executionID)⟩ :: s.invoked
  idle : s.hasInvoked c = false
  began : s.began c = some b
  method : b.method = .execute request
  opener : (s.journal.slot (recordName request.executionID)).opener = c
  disk : s.journal.outcomes (recordName request.executionID) =
    [some (JournalRecord.claimed (r.fingerprint request)).file]
  hashed : request.encoded r.contract ∈ s.hashed
  journal : s'.journal = s.journal

/-- What one operation does. -/
structure Local (r : Runner) (c : Nat) (s s' : System) : Prop where
  records : ∀ hex, RecordStep r c s (s.journal.slot (.record hex)) (s'.journal.slot (.record hex))
  temporaries : ∀ k, Settles (s.journal.slot (.temporary k)) (s'.journal.slot (.temporary k)) ∨
    .temporary k ∉ s.journal.names ∨ (s.journal.slot (.temporary k)).opener = c
  names : ∀ n ∈ s.journal.names, n ∈ s'.journal.names
  objects : ∀ hex, ObjectStep r s hex (s.objects.slot (.object hex)) (s'.objects.slot (.object hex))
  copies : ∀ k, Settles (s.objects.slot (.temporary k)) (s'.objects.slot (.temporary k)) ∨
    s.objects.now (.temporary k) = none ∨ (s.objects.slot (.temporary k)).opener = c
  hashed : ∀ b ∈ s.hashed, b ∈ s'.hashed
  invoked : s'.invoked = s.invoked ∨ ∃ b request, Invokes r c s s' b request
  began : s'.began = s.began
  cancelled : s'.cancelled = s.cancelled
  troubled : ∀ d, s.troubled d = true → s'.troubled d = true
  losses : s'.losses = s.losses
  next : s'.next = s.next
  returned : s'.returned = s.returned

/-! ## The invariant is kept -/

theorem hasInvoked_of_mem {i : Invocation} (hi : i ∈ s.invoked) : s.hasInvoked i.call = true :=
  List.any_eq_true.mpr ⟨i, hi, beq_self_eq_true _⟩

namespace RecordStep

variable {a b : Slot}

variable (h : RecordStep r c s a b)
include h

/-- A completed record stays. -/
theorem finished {f : File} (hnow : a.now = some f) (hfinished : Finished f) : b.now = some f := by
  cases h with
  | still h => exact h.now.trans hnow
  | created hfp hnone =>
    rw [hnow] at hnone
    cases hnone
  | written k hfp hempty hopener =>
    obtain rfl : f = ⟨0o600, []⟩ := Option.some.inj (hnow.symm.trans hempty)
    obtain ⟨fp', o, -, hfile⟩ := hfinished
    have hline : [] = (JournalRecord.completed fp' o).line := congrArg File.data hfile
    have hlength := line_ne_nil (JournalRecord.completed fp' o)
    rw [← hline] at hlength
    exact absurd hlength (Nat.lt_irrefl 0)
  | flushed hopener =>
    rw [Slot.flush, if_pos hopener]
    exact hnow
  | removed hnow' hf hopener hidle =>
    obtain rfl := Option.some.inj (hnow.symm.trans hnow')
    exact absurd hfinished hf.not_finished
  | completed hfp hsource hfrom hnow' hopener hshort hbacked =>
    obtain rfl := Option.some.inj (hnow.symm.trans hnow')
    exact absurd hfinished (claimed_file hfp).not_finished

theorem act : Settles a b ∨ a.now = none ∨ a.opener = c := by
  cases h with
  | still h => exact .inl h
  | created hfp hnow => exact .inr (.inl hnow)
  | written k hfp hnow hopener | flushed hopener | removed hnow hf hopener hidle
  | completed hfp hsource hfrom hnow hopener hshort hbacked => exact .inr (.inr hopener)

/-- Every file is a claim or a completed record. -/
theorem kinds {f : File}
    (hold : ∀ f, some f ∈ a.outcomes → Claimed f ∨ Finished f) (hf : some f ∈ b.outcomes) :
    Claimed f ∨ Finished f := by
  cases h with
  | still h => exact hold f (h.outcomes hf)
  | @created fp hfp hnow =>
    rcases Slot.mem_outcomes_create hf with hnew | hf
    · obtain rfl := Option.some.inj hnew
      exact .inl ⟨fp, 0, hfp, by rw [List.take_zero]⟩
    · exact hold f hf
  | @written fp k hfp hnow hopener =>
    rcases Slot.mem_outcomes_append hf with hf | ⟨-, g, j, hg, -, hfile⟩
    · exact hold f hf
    · obtain rfl := Option.some.inj (hnow.symm.trans hg)
      obtain rfl := Option.some.inj hfile
      exact .inl ⟨fp, min j k, hfp, by rw [List.nil_append, List.take_take]⟩
  | flushed hopener => exact hold f (Slot.mem_outcomes_flush hf)
  | removed hnow hclaimed hopener hidle =>
    rcases Slot.mem_outcomes_unlink hf with hnone | hf
    · cases hnone
    · exact hold f hf
  | @completed source fp o hfp hsource hfrom hnow hopener hshort hbacked =>
    rcases Slot.mem_outcomes_replace hf with hnew | hf
    · rw [hsource, List.mem_singleton] at hnew
      exact .inr ⟨fp, o, hfp, Option.some.inj hnew⟩
    · exact hold f hf

/-- The claim of an invocation stays: `d` made it, and the step is made by `c`. -/
theorem claim_kept (hc : c ≠ 0) {d : Nat} {fp : String}
    (hd : s.hasInvoked d = true) (hkept : ∀ o ∈ a.outcomes, Marked fp o)
    (hopener : a.opener = d ∨ a.opener = 0) :
    (∀ o ∈ b.outcomes, Marked fp o) ∧ (b.opener = d ∨ b.opener = 0) := by
  obtain ⟨record, hrecord, hmark⟩ := hkept _ (Slot.now_mem_outcomes a)
  cases h with
  | still h => exact ⟨fun o ho => hkept o (h.outcomes ho), by rw [h.opener]; exact hopener⟩
  | created hfp hnow =>
    rw [hnow] at hrecord
    cases hrecord
  | written k hfp hnow hmine =>
    -- a claim that was on disk is not empty
    rw [hnow] at hrecord
    have hline : [] = record.line := congrArg File.data (Option.some.inj hrecord)
    have hlength := line_ne_nil record
    rw [← hline] at hlength
    exact absurd hlength (Nat.lt_irrefl 0)
  | flushed hmine =>
    refine ⟨fun o ho => hkept o (Slot.mem_outcomes_flush ho), ?_⟩
    rw [Slot.flush, if_pos hmine]
    exact hopener
  | removed hnow hclaimed hmine hidle =>
    rcases hopener with hopener | hopener
    · rw [← hopener, hmine, hidle] at hd
      cases hd
    · exact absurd (hmine.symm.trans hopener) hc
  | @completed source fp' o hfp hsource hfrom hnow hmine hshort hbacked =>
    rw [hnow] at hrecord
    have hsame := (JournalRecord.file_injective (Option.some.inj hrecord)).1
    refine ⟨?_, ?_⟩
    · intro o' ho
      rcases Slot.mem_outcomes_replace ho with hnew | ho
      · rw [hsource, List.mem_singleton] at hnew
        exact ⟨_, hnew, hsame.symm.trans hmark⟩
      · exact hkept o' ho
    · have hopeners : (source.replace a).opener = a.opener := hfrom.trans hmine.symm
      rw [hopeners]
      exact hopener

/-- What is complete was so before, or is completed now. -/
theorem backed {fp : String} {o : Outcome}
    (hfp : digestPattern fp = true) (hnow : b.now = some (JournalRecord.completed fp o).file) :
    a.now = some (JournalRecord.completed fp o).file ∨ (o.Short ∧ r.Backed s o) := by
  cases h with
  | still h => exact .inl (h.now.symm.trans hnow)
  | @created fp' hfp' hnone =>
    have hclaimed : Claimed ⟨0o600, []⟩ := ⟨fp', 0, hfp', by rw [List.take_zero]⟩
    have hfile : (⟨0o600, []⟩ : File) = (JournalRecord.completed fp o).file := Option.some.inj hnow
    rw [hfile] at hclaimed
    exact absurd ⟨fp, o, hfp, rfl⟩ hclaimed.not_finished
  | @written fp' k hfp' hempty hopener =>
    have hclaimed : Claimed ⟨0o600, (JournalRecord.claimed fp').line.take k⟩ := ⟨fp', k, hfp', rfl⟩
    rw [Slot.append, hempty] at hnow
    simp only [if_pos hopener, List.nil_append] at hnow
    rw [Option.some.inj hnow] at hclaimed
    exact absurd ⟨fp, o, hfp, rfl⟩ hclaimed.not_finished
  | flushed hopener =>
    rw [Slot.flush, if_pos hopener] at hnow
    exact .inl hnow
  | removed hnow' hf hopener hidle => cases hnow
  | @completed source fp' o' hfp' hsource hfrom hnow' hopener hshort hbacked =>
    have hhead : source.now = some (JournalRecord.completed fp' o').file := by
      rw [Slot.present, List.cons.injEq] at hsource
      exact hsource.1
    have hfile := Option.some.inj (hhead.symm.trans hnow)
    obtain ⟨-, rfl⟩ := completed_injective hfile
    exact .inr ⟨hshort, hbacked⟩

omit h

end RecordStep

theorem ObjectStep.act {hex : String} {a b : Slot} (h : ObjectStep r s hex a b) :
    Settles a b ∨ a.now = none := by
  cases h with
  | still h => exact .inl h
  | linked hnow hsource haddressed => exact .inr hnow

theorem Addressed.mono {hex : String} {f : File} (h : Addressed r s hex f)
    (hhashed : ∀ b ∈ s.hashed, b ∈ s'.hashed) : Addressed r s' hex f where
  perm := h.perm
  name := h.name
  length := h.length
  hashed := hhashed _ h.hashed

namespace Local

theorem act (h : Local r c s s') (hc : c ≠ 0) : Act c s s' where
  call := hc
  records := fun hex => (h.records hex).act
  finished := fun hex _ hnow hfinished => (h.records hex).finished hnow hfinished
  temporaries := h.temporaries
  names := h.names
  objects := fun hex => (h.objects hex).act
  copies := h.copies
  hashed := h.hashed
  invoked := by
    intro i hi
    rcases h.invoked with hsame | ⟨b, request, hinvokes⟩
    · exact .inl (hsame ▸ hi)
    · rw [hinvokes.invoked] at hi
      rcases List.mem_cons.mp hi with rfl | hi
      · exact .inr rfl
      · exact .inl hi
  began := fun d b hb => by rw [h.began]; exact hb
  starts := fun d b hb => .inl (by rw [← h.began]; exact hb)
  cancelled := h.cancelled
  troubled := h.troubled
  losses := h.losses

theorem recorded (h : Local r c s s') (hinv : Inv r s) (hc : c ≠ 0) :
    ∀ i ∈ s'.invoked, Recorded r s' i := by
  have hold : ∀ i ∈ s.invoked, Recorded r s' i := by
    intro i hi
    obtain ⟨⟨b, request, hb, hmethod, hid, hdisk, hhashed, hmarked⟩, howner⟩ := hinv.recorded i hi
    obtain ⟨hkept, hopener⟩ := (h.records _).claim_kept hc (hasInvoked_of_mem hi) hmarked howner
    exact ⟨⟨b, request, by rw [h.began]; exact hb, hmethod, hid, hdisk, h.hashed _ hhashed, hkept⟩,
      hopener⟩
  intro i hi
  rcases h.invoked with hsame | ⟨b, request, hinvokes⟩
  · exact hold i (hsame ▸ hi)
  · rw [hinvokes.invoked] at hi
    rcases List.mem_cons.mp hi with rfl | hi
    · refine ⟨⟨b, request, ?_, hinvokes.method, rfl, hinvokes.disk, h.hashed _ hinvokes.hashed, ?_⟩,
        .inl ?_⟩
      · rw [h.began]
        exact hinvokes.began
      · rw [hinvokes.journal, hinvokes.disk]
        intro o ho
        exact ⟨_, List.mem_singleton.mp ho, rfl⟩
      · rw [hinvokes.journal]
        exact hinvokes.opener
    · exact hold i hi

theorem once (h : Local r c s s') (hinv : Inv r s) (hc : c ≠ 0) :
    (s'.invoked.map Invocation.executionID).Nodup := by
  rcases h.invoked with hsame | ⟨b, request, hinvokes⟩
  · rw [hsame]
    exact hinv.once
  · rw [hinvokes.invoked, List.map_cons, List.nodup_cons]
    refine ⟨?_, hinv.once⟩
    -- whoever invoked the executor for this identity before has the claim for ever
    intro hmem
    obtain ⟨i, hi, hid⟩ := List.mem_map.mp hmem
    have hopener := (hinv.recorded i hi).opener
    rw [hid, hinvokes.opener] at hopener
    rcases hopener with hcall | hzero
    · have hidle := hinvokes.idle
      rw [hcall, hasInvoked_of_mem hi] at hidle
      cases hidle
    · exact hc hzero

/-- **One operation keeps the invariant.** -/
theorem inv (h : Local r c s s') (hinv : Inv r s) (hc : c ≠ 0) : Inv r s' where
  first := by
    rw [h.began, h.next]
    exact hinv.first
  fresh := by
    intro d hd
    rw [h.next] at hd
    rw [h.began]
    exact hinv.fresh d hd
  objects := by
    intro hex f hf
    have hstep := h.objects hex
    rw [Fs.outcomes] at hf
    generalize s'.objects.slot (.object hex) = b at hf hstep
    cases hstep with
    | still hslot => exact (hinv.objects hex f (hslot.outcomes hf)).mono h.hashed
    | linked hnow hsource haddressed =>
      rcases Slot.mem_outcomes_replace hf with hnew | hf
      · rw [hsource, List.mem_singleton] at hnew
        obtain rfl := Option.some.inj hnew
        exact haddressed.mono h.hashed
      · exact (hinv.objects hex f hf).mono h.hashed
  records := fun hex _ hf => (h.records hex).kinds (hinv.records hex) hf
  recorded := h.recorded hinv hc
  once := h.once hinv hc
  backed := by
    intro hlosses hex fp o hfp hnow
    have hlasts := (h.act hc).lasts
    rw [h.losses] at hlosses
    rcases (h.records hex).backed hfp hnow with hbefore | ⟨hshort, hbacked⟩
    · obtain ⟨hshort, hbacked⟩ := hinv.backed hlosses hex fp o hfp hbefore
      exact ⟨hshort, hbacked.mono hlasts⟩
    · exact ⟨hshort, hbacked.mono hlasts⟩
  kept := by
    intro hlosses e he
    rw [h.losses] at hlosses
    rw [h.returned] at he
    obtain ⟨b, hb, hkept⟩ := hinv.kept hlosses e he
    exact ⟨b, by rw [h.began]; exact hb, hkept.mono (h.act hc).lasts id⟩

end Local

/-! ## Operations within the discipline -/

/-- The condition under which an operation keeps to the discipline. -/
def Allowed (r : Runner) (c : Nat) (s : System) : Op → Prop
  | .journal (.create n perm) => ∃ hex fp, n = .record hex ∧ perm = 0o600 ∧ digestPattern fp = true
  | .journal (.createTemp kind) => ∀ n, kind n → n.isTemporary
  | .journal (.write (.record hex) bytes) => ∃ fp, digestPattern fp = true ∧
      bytes = (JournalRecord.claimed fp).line ∧ Fs.Open c s.journal (.record hex) ⟨0o600, []⟩
  | .journal (.write (.temporary _) _) => True
  | .journal (.chmod n _) => n.isTemporary
  | .journal (.rename a b) => ∃ k hex fp o, a = .temporary k ∧ b = .record hex ∧
      digestPattern fp = true ∧
      (s.journal.slot a).present = [some (JournalRecord.completed fp o).file] ∧
      (s.journal.slot a).opener = c ∧ Fs.Open c s.journal b (JournalRecord.claimed fp).file ∧
      o.Short ∧ r.Backed s o
  | .journal (.remove (.record hex)) => s.hasInvoked c = false ∧
      ∃ f, Fs.Open c s.journal (.record hex) f ∧ Claimed f
  | .journal (.remove (.temporary k)) =>
    s.journal.now (.temporary k) = none ∨ (s.journal.slot (.temporary k)).opener = c
  | .objects (.createTemp kind) => ∀ n, kind n → n.isTemporary
  | .objects (.write n _) | .objects (.chmod n _) | .objects (.sync n) => n.isTemporary
  | .objects (.remove n) => n.isTemporary ∧ (s.objects.slot n).opener = c
  | .objects (.create _ _) | .objects (.rename _ _) => False
  | .link a b => ∃ hex data, b = .object hex ∧
      (s.objects.slot a).present = [some ⟨0o400, data⟩] ∧ Addressed r s hex ⟨0o400, data⟩
  | .execute executionID _ _ => s.hasInvoked c = false ∧ ∃ b request, s.began c = some b ∧
      b.method = .execute request ∧ request.executionID = executionID ∧
      (s.journal.slot (recordName executionID)).opener = c ∧
      s.journal.outcomes (recordName executionID) =
        [some (JournalRecord.claimed (r.fingerprint request)).file] ∧
      request.encoded r.contract ∈ s.hashed
  | _ => True

section Names

variable {ν : Type} [DecidableEq ν] {fs : Fs ν} {n m : ν} {f : Slot → Slot}

theorem mem_names_modify (h : n ∈ fs.names) :
    n ∈ (fs.modify m f).names := by
  simp only [Fs.modify, Fs.set]
  split
  · exact h
  · exact List.mem_cons_of_mem _ h

theorem mem_names_self : n ∈ (fs.modify n f).names := by
  simp only [Fs.modify, Fs.set]
  split
  · assumption
  · exact List.mem_cons_self

/-- A name that an operation has ever touched stays known. -/
theorem mem_names_apply {o : FsOp ν} {fs' : Fs ν} {answer : o.Res} (h : o.apply c fs answer fs')
    (hn : n ∈ fs.names) : n ∈ fs'.names := by
  cases FsOp.makes h with
  | nothing | settled => exact hn
  | created | temporary | written | permitted | flushed | removed => exact mem_names_modify hn
  | renamed => exact mem_names_modify (mem_names_modify hn)

/-- A change of one name is none elsewhere. -/
theorem settles_modify (h : n ≠ m) :
    Settles (fs.slot n) ((fs.modify m f).slot n) :=
  .inl (fs.modify_slot_of_ne f h)

/-- Bytes, permissions and a sync go through the handle of the call that made the file. -/
theorem append_of_ne {a : Slot} {bytes : Bytes} (h : a.opener ≠ c) : a.append c bytes = a := by
  unfold Slot.append
  split
  · rw [if_neg h]
  · rfl

theorem chmod_of_ne {a : Slot} {perm : Nat} (h : a.opener ≠ c) : a.chmod c perm = a := by
  unfold Slot.chmod
  split
  · rw [if_neg h]
  · rfl

theorem flush_of_ne {a : Slot} (h : a.opener ≠ c) : a.flush c = a := if_neg h

/-- A change through a handle is made to a file of one's own, or is none. -/
theorem settles_or_mine (hf : ∀ a : Slot, a.opener ≠ c → f a = a) :
    Settles (fs.slot n) ((fs.modify m f).slot n) ∨ (fs.slot n).opener = c := by
  by_cases hn : n = m
  · subst hn
    by_cases hopener : (fs.slot n).opener = c
    · exact .inr hopener
    · refine .inl (.inl ?_)
      rw [fs.modify_slot_self, hf _ hopener]
  · exact .inl (settles_modify hn)

end Names

section JournalSteps

variable {fs' : Fs JournalName}

/-- What an operation on the journal does to a record. -/
theorem recordStep_of_apply {o : FsOp JournalName} {answer : o.Res}
    (hallowed : Allowed r c s (.journal o)) (h : o.apply c s.journal answer fs') (hex : String) :
    RecordStep r c s (s.journal.slot (.record hex)) (fs'.slot (.record hex)) := by
  cases FsOp.makes h with
  | nothing => exact .still (.refl _)
  | settled => exact .still (.inr rfl)
  | created hnow =>
    obtain ⟨hex', fp, rfl, rfl, hfp⟩ := hallowed
    by_cases hname : JournalName.record hex = .record hex'
    · rw [← hname] at hnow ⊢
      rw [Fs.modify_slot_self]
      exact .created hfp hnow
    · exact .still (settles_modify hname)
  | temporary hkind =>
    refine .still (settles_modify ?_)
    rintro rfl
    exact hallowed _ hkind
  | @written n _ _ k =>
    cases n with
    | temporary => exact .still (settles_modify (fun h => nomatch h))
    | record hex' =>
      obtain ⟨fp, hfp, rfl, hopen⟩ := hallowed
      by_cases hname : JournalName.record hex = .record hex'
      · rw [← hname] at hopen ⊢
        rw [Fs.modify_slot_self]
        exact .written k hfp hopen.now hopen.opener
      · exact .still (settles_modify hname)
  | permitted =>
    refine .still (settles_modify ?_)
    rintro rfl
    exact hallowed
  | @flushed n =>
    by_cases hname : JournalName.record hex = n
    · subst hname
      rw [Fs.modify_slot_self]
      by_cases hopener : (s.journal.slot (.record hex)).opener = c
      · exact .flushed hopener
      · rw [flush_of_ne hopener]
        exact .still (.refl _)
    · exact .still (settles_modify hname)
  | renamed =>
    obtain ⟨k, hex', fp, o, rfl, rfl, hfp, hsource, hfrom, hopen, hshort, hbacked⟩ := hallowed
    have hne : JournalName.record hex ≠ .temporary k := fun h => nomatch h
    by_cases hname : JournalName.record hex = .record hex'
    · rw [← hname] at hopen ⊢
      rw [Fs.rename_slot_target _ hne]
      exact .completed hfp hsource hfrom hopen.now hopen.opener hshort hbacked
    · rw [Fs.rename_slot_of_ne _ hne hname]
      exact .still (.refl _)
  | @removed n =>
    cases n with
    | temporary k => exact .still (settles_modify (fun h => nomatch h))
    | record hex' =>
      obtain ⟨hidle, f, hopen, hclaimed⟩ := hallowed
      by_cases hname : JournalName.record hex = .record hex'
      · rw [← hname] at hopen ⊢
        rw [Fs.modify_slot_self]
        exact .removed hopen.now hclaimed hopen.opener hidle
      · exact .still (settles_modify hname)

/-- What an operation on the journal does to a temporary name. -/
theorem temporary_of_apply {o : FsOp JournalName} {answer : o.Res}
    (hallowed : Allowed r c s (.journal o)) (h : o.apply c s.journal answer fs')
    (hnovel : novel o s.journal answer) (k : Nat) :
    Settles (s.journal.slot (.temporary k)) (fs'.slot (.temporary k)) ∨
      .temporary k ∉ s.journal.names ∨ (s.journal.slot (.temporary k)).opener = c := by
  cases FsOp.makes h with
  | nothing => exact .inl (.refl _)
  | settled => exact .inl (.inr rfl)
  | created =>
    obtain ⟨hex, fp, rfl, -, -⟩ := hallowed
    exact .inl (settles_modify (fun h => nomatch h))
  | @temporary _ n =>
    by_cases hname : JournalName.temporary k = n
    · exact .inr (.inl (hname ▸ hnovel n rfl))
    · exact .inl (settles_modify hname)
  | written => exact (settles_or_mine fun _ => append_of_ne).imp_right .inr
  | permitted => exact (settles_or_mine fun _ => chmod_of_ne).imp_right .inr
  | flushed => exact (settles_or_mine fun _ => flush_of_ne).imp_right .inr
  | renamed =>
    obtain ⟨j, hex, fp, o, rfl, rfl, -, -, hfrom, -⟩ := hallowed
    by_cases hname : JournalName.temporary k = .temporary j
    · rw [← hname] at hfrom
      exact .inr (.inr hfrom)
    · exact .inl (.inl (Fs.rename_slot_of_ne _ hname (fun h => nomatch h)))
  | @removed n _ hsome =>
    cases n with
    | record hex => exact .inl (settles_modify (fun h => nomatch h))
    | temporary j =>
      by_cases hname : JournalName.temporary k = .temporary j
      · rw [← hname] at hsome hallowed
        rcases hallowed with hnone | hopener
        · rw [hnone] at hsome
          cases hsome
        · exact .inr (.inr hopener)
      · exact .inl (settles_modify hname)

end JournalSteps

section ObjectSteps

variable {fs' : Fs ObjectName}

/-- Operations on the store's directory leave the objects alone. -/
theorem object_of_apply {o : FsOp ObjectName} {answer : o.Res}
    (hallowed : Allowed r c s (.objects o)) (h : o.apply c s.objects answer fs') (hex : String) :
    Settles (s.objects.slot (.object hex)) (fs'.slot (.object hex)) := by
  cases FsOp.makes h with
  | nothing => exact .refl _
  | settled => exact .inr rfl
  | created | renamed => exact hallowed.elim
  | temporary hkind =>
    refine settles_modify ?_
    rintro rfl
    exact hallowed _ hkind
  | written | permitted | flushed =>
    refine settles_modify ?_
    rintro rfl
    exact hallowed
  | removed =>
    refine settles_modify ?_
    rintro rfl
    exact hallowed.1

/-- What an operation on the store's directory does to a temporary name. -/
theorem copy_of_apply {o : FsOp ObjectName} {answer : o.Res}
    (hallowed : Allowed r c s (.objects o)) (h : o.apply c s.objects answer fs') (k : Nat) :
    Settles (s.objects.slot (.temporary k)) (fs'.slot (.temporary k)) ∨
      s.objects.now (.temporary k) = none ∨ (s.objects.slot (.temporary k)).opener = c := by
  cases FsOp.makes h with
  | nothing => exact .inl (.refl _)
  | settled => exact .inl (.inr rfl)
  | created | renamed => exact hallowed.elim
  | @temporary _ n _ hnow =>
    by_cases hname : ObjectName.temporary k = n
    · exact .inr (.inl (hname ▸ hnow))
    · exact .inl (settles_modify hname)
  | written => exact (settles_or_mine fun _ => append_of_ne).imp_right .inr
  | permitted => exact (settles_or_mine fun _ => chmod_of_ne).imp_right .inr
  | flushed => exact (settles_or_mine fun _ => flush_of_ne).imp_right .inr
  | @removed n =>
    by_cases hname : ObjectName.temporary k = n
    · subst hname
      exact .inr (.inr hallowed.2)
    · exact .inl (settles_modify hname)

end ObjectSteps

theorem troubled_note {failed : Bool} {d : Nat} (h : s.troubled d = true) :
    (s.note c failed).troubled d = true := by
  rw [System.note]
  by_cases hd : d = c
  · subst hd
    simp [h]
  · simp [Function.update_of_ne hd, h]

/-- A step that changes neither directory. -/
theorem Local.aside (hjournal : s'.journal = s.journal) (hobjects : s'.objects = s.objects)
    (hhashed : ∀ b ∈ s.hashed, b ∈ s'.hashed)
    (hinvoked : s'.invoked = s.invoked ∨ ∃ b request, Invokes r c s s' b request)
    (hbegan : s'.began = s.began) (hcancelled : s'.cancelled = s.cancelled)
    (htroubled : ∀ d, s.troubled d = true → s'.troubled d = true) (hlosses : s'.losses = s.losses)
    (hnext : s'.next = s.next) (hreturned : s'.returned = s.returned) : Local r c s s' where
  records := fun _ => .still (.inl (by rw [hjournal]))
  temporaries := fun _ => .inl (.inl (by rw [hjournal]))
  names := fun _ hn => by rw [hjournal]; exact hn
  objects := fun _ => .still (.inl (by rw [hobjects]))
  copies := fun _ => .inl (.inl (by rw [hobjects]))
  hashed := hhashed
  invoked := hinvoked
  began := hbegan
  cancelled := hcancelled
  troubled := htroubled
  losses := hlosses
  next := hnext
  returned := hreturned

/-- A step that changes nothing a call can see but one's own troubles. -/
theorem Local.noted (failed : Bool) : Local r c s (s.note c failed) :=
  .aside rfl rfl (fun _ h => h) (.inl rfl) rfl rfl (fun _ => troubled_note) rfl rfl rfl

theorem Local.refl : Local r c s s :=
  .aside rfl rfl (fun _ h => h) (.inl rfl) rfl rfl (fun _ h => h) rfl rfl rfl

/-- **What an operation within the discipline does.** -/
theorem local_of_apply {o : Op} {answer : Res o} (hallowed : Allowed r c s o)
    (h : System.apply r.library.sha256 c o s answer s') : Local r c s s' := by
  cases o with
  | journal o =>
    obtain ⟨fs', failed, happly, hnovel, -, rfl⟩ := h
    exact
      { records := recordStep_of_apply hallowed happly
        temporaries := temporary_of_apply hallowed happly hnovel
        names := fun _ => mem_names_apply happly
        objects := fun _ => .still (.refl _)
        copies := fun _ => .inl (.refl _)
        hashed := fun _ h => h
        invoked := .inl rfl
        began := rfl
        cancelled := rfl
        troubled := fun _ => troubled_note
        losses := rfl
        next := rfl
        returned := rfl }
  | objects o =>
    obtain ⟨fs', failed, happly, -, rfl⟩ := h
    exact
      { records := fun _ => .still (.refl _)
        temporaries := fun _ => .inl (.refl _)
        names := fun _ h => h
        objects := fun hex => .still (object_of_apply hallowed happly hex)
        copies := copy_of_apply hallowed happly
        hashed := fun _ h => h
        invoked := .inl rfl
        began := rfl
        cancelled := rfl
        troubled := fun _ => troubled_note
        losses := rfl
        next := rfl
        returned := rfl }
  | link a b =>
    obtain ⟨-, hnow, -, rfl⟩ | ⟨-, -, rfl⟩ | ⟨-, rfl⟩ := h
    · obtain ⟨hex, data, rfl, hsource, haddressed⟩ := hallowed
      refine
        { Local.refl with
          invoked := .inl rfl
          objects := ?_
          copies := fun k => .inl (settles_modify (fun h => nomatch h)) }
      intro hex'
      by_cases hname : ObjectName.object hex' = .object hex
      · obtain rfl := ObjectName.object.inj hname
        rw [Fs.link, Fs.modify_slot_self]
        exact .linked hnow hsource haddressed
      · exact .still (settles_modify hname)
    · exact .refl
    · exact .noted true
  | openJournal | openObjects =>
    obtain rfl := h
    exact .noted _
  | lockMutex =>
    obtain ⟨-, rfl⟩ := h
    exact .aside rfl rfl (fun _ h => h) (.inl rfl) rfl rfl (fun _ h => h) rfl rfl rfl
  | unlockMutex =>
    obtain rfl := h
    exact .aside rfl rfl (fun _ h => h) (.inl rfl) rfl rfl (fun _ h => h) rfl rfl rfl
  | contextErr | executionContextErr =>
    obtain ⟨rfl, -⟩ := h
    exact .refl
  | now =>
    obtain rfl := h
    exact .refl
  | hash bytes =>
    obtain ⟨-, rfl⟩ := h
    exact .aside rfl rfl (fun _ h => List.mem_cons_of_mem _ h) (.inl rfl) rfl rfl (fun _ h => h)
      rfl rfl rfl
  | execute executionID spec input =>
    obtain rfl := h
    obtain ⟨hidle, b, request, hbegan, hmethod, rfl, hopener, hdisk, hhashed⟩ := hallowed
    exact .aside rfl rfl (fun _ h => h)
      (.inr ⟨b, request, rfl, hidle, hbegan, hmethod, hopener, hdisk, hhashed, rfl⟩) rfl rfl
      (fun _ h => h) rfl rfl rfl
  | runIsolated request input =>
    obtain rfl := h
    exact .aside rfl rfl (fun _ h => h) (.inl rfl) rfl rfl (fun _ h => h) rfl rfl rfl

end TosAi.SoftwareWork
