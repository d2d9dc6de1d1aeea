/-
  Where the records of a Gate directory come from.

  In every run whatsoever, Gates handed over in the middle of a call included, what
  stands under a record's name or in a temporary file is the text of a record that goes
  back to a `Prepare` of the history, or a beginning of one.  `Preparation.Issued` says
  what "goes back to" means: the call read the clock, had its fence confirmed and its
  action authorized, and the record still has the plan, the digest and the deadline it
  was given then.  It also made the record's file, and between two losses of power only
  one call ever makes that file: a later `Prepare` of the same plan finds it.

  No lock is used for this.  A call only rewrites a record it has read, so what it writes
  goes back to the same `Prepare`; and it writes through the handle of a file it created.
-/
import TosAi.Foundation.History
import TosAi.Foundation.Provenance
import TosAi.Foundation.Shared
import TosAi.CommerceGate.Calls

set_option autoImplicit false

namespace TosAi.CommerceGate

open Foundation Foundation.Discipline

variable {C : Commerce} {c : Nat}

/-! ## Histories -/

abbrev History (C : Commerce) := List (Event (Op C) Res (System C))

/-- A state of the Gate system with its history. -/
abbrev Ran (C : Commerce) := Recorded (Op C) Res (System C)

/-- The call, one of the given method, read the clock. -/
def ReadClock (h : History C) (c : Nat) (m : Method) (t : Time) : Prop :=
  ∃ before after g, ⟨c, .now, t, before, after⟩ ∈ h ∧ before.calls c = some (g, m)

/-- No operation of the call has changed the directory. -/
def Passive (c : Nat) (h : History C) : Prop :=
  ∀ event ∈ h, event.call = c → event.after.fs = event.before.fs

/-- The call made the file, after `epoch` losses of power. -/
def Creates (h : History C) (c : Nat) (n : FileName) (epoch : Nat) : Prop :=
  ∃ before after, ⟨c, .file (.create n 0o600), Except.ok (), before, after⟩ ∈ h ∧
    before.losses = epoch

/-- A call of `Prepare` and the time it read. -/
structure Preparation where
  call : Nat
  plan : Plan
  fence : WriterFence
  lifetime : Int
  action : AuthorizedAction
  time : Time

/-- The record is one this `Prepare` issued, or one that was made from it. -/
structure Preparation.Issued (x : Preparation) (h : History C) (e : Record) : Prop where
  clock : ReadClock h x.call (.prepare x.plan x.fence x.lifetime x.action) x.time
  lifetime : 1000000000 ≤ x.lifetime ∧ x.lifetime ≤ maxStartTicketLifetime
  verified : ∃ authority, Did h x.call .authority authority ∧
    C.verifyWriterFence x.fence authority x.time "execution.prepare" = none
  current : ∃ authority, Did h x.call .authority authority ∧
    C.confirmCurrentWriterFence x.fence authority x.time = none
  plan : preparePlan C x.plan x.fence = .ok (e.plan, e.planDigest)
  authorized : ∃ authority, Did h x.call .authority authority ∧
    authorized C x.action "execution.prepare" (prepareFields e.plan) (.plan e.plan) x.fence
      authority x.time = true
  deadline : e.startNotAfterUnix = ticketDeadline x.time x.lifetime x.fence x.action
  action : e.prepareActionID = x.action.stableActionID ∧
    e.prepareRequestDigest = x.action.exactRequestDigest
  created : ∃ epoch, Creates h x.call (path e.plan.executionID) epoch

/-- The record goes back to a `Prepare` of the history. -/
def Issued (h : History C) (e : Record) : Prop := ∃ x : Preparation, x.Issued h e

/-- The call found the record on disk, and it went back to a `Prepare` by then. -/
def Found (h : History C) (c : Nat) (e : Record) : Prop :=
  ∃ past event later, h = past ++ event :: later ∧ event.call = c ∧ Issued past e

/-- The text of such a record, or a beginning of it. -/
def IssuedText (h : History C) (data : List UInt8) : Prop :=
  data = [] ∨ ∃ e, Issued h e ∧ data <+: e.marshal

/-! ### Knowledge is kept -/

variable {h h' : History C} {e : Record}

theorem ReadClock.mono {m : Method} {t : Time} (hsub : h <+: h') (hread : ReadClock h c m t) :
    ReadClock h' c m t := by
  obtain ⟨before, after, g, hmem, hcall⟩ := hread
  exact ⟨before, after, g, hsub.subset hmem, hcall⟩

theorem Creates.mono {n : FileName} {epoch : Nat} (hsub : h <+: h') (hmade : Creates h c n epoch) :
    Creates h' c n epoch := by
  obtain ⟨before, after, hmem, hepoch⟩ := hmade
  exact ⟨before, after, hsub.subset hmem, hepoch⟩

theorem Preparation.Issued.mono {x : Preparation} (hsub : h <+: h') (hx : x.Issued h e) :
    x.Issued h' e := by
  obtain ⟨av, hav, hverify⟩ := hx.verified
  obtain ⟨ac, hac, hconfirm⟩ := hx.current
  obtain ⟨aa, haa, hauthorized⟩ := hx.authorized
  exact
    { hx with
      clock := hx.clock.mono hsub
      verified := ⟨av, hav.mono hsub, hverify⟩
      current := ⟨ac, hac.mono hsub, hconfirm⟩
      authorized := ⟨aa, haa.mono hsub, hauthorized⟩
      created := hx.created.imp fun _ => Creates.mono hsub }

theorem Issued.mono (hsub : h <+: h') (hissued : Issued h e) :
    Issued h' e := by
  obtain ⟨x, hx⟩ := hissued
  exact ⟨x, hx.mono hsub⟩

/-- A rewritten record goes back to the same `Prepare`. -/
theorem Issued.rewritten {e' : Record} (hissued : Issued h e) (hplan : e'.plan = e.plan)
    (hdigest : e'.planDigest = e.planDigest)
    (hdeadline : e'.startNotAfterUnix = e.startNotAfterUnix)
    (haction : e'.prepareActionID = e.prepareActionID)
    (hrequest : e'.prepareRequestDigest = e.prepareRequestDigest) : Issued h e' := by
  obtain ⟨x, hx⟩ := hissued
  exact ⟨x, hx.clock, hx.lifetime, hx.verified, hx.current, by rw [hplan, hdigest]; exact hx.plan,
    by rw [hplan]; exact hx.authorized, by rw [hdeadline]; exact hx.deadline,
    by rw [haction, hrequest]; exact hx.action, by rw [hplan]; exact hx.created⟩

theorem Found.mono (hsub : h <+: h') (hfound : Found h c e) :
    Found h' c e := by
  obtain ⟨past, event, later, rfl, hcall, hissued⟩ := hfound
  obtain ⟨new, rfl⟩ := hsub
  exact ⟨past, event, later ++ new, by simp, hcall, hissued⟩

theorem Found.issued (hfound : Found h c e) : Issued h e := by
  obtain ⟨past, event, later, rfl, -, hissued⟩ := hfound
  exact hissued.mono (List.prefix_append _ _)

theorem IssuedText.mono (hsub : h <+: h') {data : List UInt8} (htext : IssuedText h data) :
    IssuedText h' data :=
  htext.imp id fun ⟨e, he, hdata⟩ => ⟨e, he.mono hsub, hdata⟩

theorem IssuedText.take (he : Issued h e) (k : Nat) :
    IssuedText h (e.marshal.take k) := .inr ⟨e, he, List.take_prefix _ _⟩

/-- What a reader accepts of such a text is the whole record. -/
theorem IssuedText.readFile {f : File} (htext : IssuedText h f.data) (hread : readFile f = .ok e) :
    Issued h e := by
  obtain ⟨perm, data⟩ := f
  rcases htext with hempty | ⟨e', he', lost, hlost⟩
  · simp only at hempty
    subst hempty
    simp [CommerceGate.readFile] at hread
  · by_cases hnil : lost = []
    · rw [hnil, List.append_nil] at hlost
      simp only at hlost
      subst hlost
      by_cases hperm : perm = 0o600
      · subst hperm
        obtain ⟨-, rfl⟩ := readFile_file_eq_ok_iff.mp hread
        exact he'
      · simp [CommerceGate.readFile, hperm] at hread
    · rw [readFile_truncated hlost.symm hnil] at hread
      cases hread

theorem Passive.append {new : History C} (hpassive : Passive c h)
    (hnew : ∀ event ∈ new, event.call = c → event.after.fs = event.before.fs) :
    Passive c (h ++ new) := by
  intro event hevent
  rcases List.mem_append.mp hevent with hold | hlate
  · exact hpassive event hold
  · exact hnew event hlate

/-! ## What is returned -/

/-- The input was opened, and was what the plan says. -/
def OpenedInput (c : Nat) (binding : FileBinding) (event : Event (Op C) Res (System C)) : Prop :=
  ∃ before after, event = ⟨c, .openInput binding,
    some ⟨some binding.size, some binding.digest, true⟩, before, after⟩

/-- What a `Launch` of call `c` rests on. -/
structure Launched (h : History C) (c : Nat) (ticket : Ticket) (fence : WriterFence)
    (action : AuthorizedAction) (t : Time) (e : Record) (l : Launch) : Prop where
  clock : ReadClock h c (.start ticket fence action) t
  verified : ∃ authority, Did h c .authority authority ∧
    C.verifyWriterFence fence authority t "execution.start" = none
  current : ∃ authority, Did h c .authority authority ∧
    C.confirmCurrentWriterFence fence authority t = none
  found : Found h c e
  launch : l = launchFrom e
  digest : e.planDigest = ticket.planDigest
  deadline : e.startNotAfterUnix = ticket.startNotAfterUnix
  generation : e.plan.writerGeneration = fence.body.writerGeneration
  prepared : e.state = .prepared
  inTime : t < timeUnix (toInt64 e.startNotAfterUnix)
  files : ∃ events, List.Forall₂ (OpenedInput c) e.plan.files events ∧ events.Sublist h

/-- The call has come to the creation of a temporary file. -/
def CameTo (kind : FileName → Prop) (c : Nat) (h : History C) : Prop :=
  ∃ answer, Did h c (.file (.createTemp kind)) answer

/-- The ticket of a `Prepare`: that of a record found on disk, in which case the call has
changed nothing, or that of the record it issued itself. -/
def Ticketed (h : History C) (c : Nat) (plan : Plan) (fence : WriterFence) (lifetime : Int)
    (action : AuthorizedAction) (ticket : Ticket) : Prop :=
  ∃ e, ticket = ticketFrom e ∧
    ((Found h c e ∧ Passive c h ∧ e.prepareActionID = action.stableActionID ∧
        ∃ prepared, preparePlan C plan fence = .ok (prepared, e.planDigest)) ∨
      ∃ p, (⟨c, plan, fence, lifetime, action, p⟩ : Preparation).Issued h e)

/-- What is known of a returned value and of the call that returned it. -/
structure Justified (h : History C) (c : Nat) (m : Method) (out : Outcome C) : Prop where
  launch : ∀ l w, out = .ok (.launch l w) → ∃ ticket fence action t e,
    m = .start ticket fence action ∧ Launched h c ticket fence action t e l ∧
      w.entry = e.start action
  ticket : ∀ ticket w, out = .ok (.ticket ticket w) → ∃ plan fence lifetime action,
    m = .prepare plan fence lifetime action ∧ Ticketed h c plan fence lifetime action ticket
  error : ∀ ticket fence action err, m = .start ticket fence action → out = .error err →
    Passive c h ∨ CameTo FileName.IsGateTemp c h

theorem Launched.mono {ticket : Ticket} {fence : WriterFence} {action : AuthorizedAction} {t : Time}
    {l : Launch} (hsub : h <+: h') (hl : Launched h c ticket fence action t e l) :
    Launched h' c ticket fence action t e l := by
  obtain ⟨av, hav, hverify⟩ := hl.verified
  obtain ⟨ac, hac, hconfirm⟩ := hl.current
  obtain ⟨events, hevents, hsublist⟩ := hl.files
  exact
    { hl with
      clock := hl.clock.mono hsub
      verified := ⟨av, hav.mono hsub, hverify⟩
      current := ⟨ac, hac.mono hsub, hconfirm⟩
      found := hl.found.mono hsub
      files := ⟨events, hevents, hsublist.trans hsub.sublist⟩ }

/-- Others may go on. -/
theorem Justified.mono {m : Method} {out : Outcome C} (hsub : h <+: h')
    (hpassive : Passive c h → Passive c h') (hjust : Justified h c m out) :
    Justified h' c m out := by
  refine ⟨fun l w hout => ?_, fun ticket w hout => ?_, fun ticket fence action err hm hout => ?_⟩
  · obtain ⟨ticket, fence, action, t, e, hm, hl, hw⟩ := hjust.launch l w hout
    exact ⟨ticket, fence, action, t, e, hm, hl.mono hsub, hw⟩
  · obtain ⟨plan, fence, lifetime, action, hm, e, hticket, hwhence⟩ := hjust.ticket ticket w hout
    refine ⟨plan, fence, lifetime, action, hm, e, hticket, ?_⟩
    rcases hwhence with ⟨hfound, hp, hrest⟩ | ⟨p, hissued⟩
    · exact .inl ⟨hfound.mono hsub, hpassive hp, hrest⟩
    · exact .inr ⟨p, hissued.mono hsub⟩
  · rcases hjust.error ticket fence action err hm hout with hp | ⟨answer, hdid⟩
    · exact .inl (hpassive hp)
    · exact .inr ⟨answer, hdid.mono hsub⟩

/-! ## The discipline -/

/-- Between two losses of power one call makes the file of a record, and it stays. -/
structure MadeOnce (r : Ran C) : Prop where
  epoch : ∀ c n k, Creates r.history c n k → k ≤ r.state.losses
  present : ∀ c n, n.isRecord = true → Creates r.history c n r.state.losses →
    (r.state.fs.now n).isSome
  once : ∀ c d n k, n.isRecord = true → Creates r.history c n k → Creates r.history d n k → c = d

/-- What holds in every state of every run. -/
structure Grounded (r : Ran C) : Prop where
  contents : r.state.fs.Contents (fun n => n.isGuarded = true) (IssuedText r.history)
  opened : r.state.fs.Opened r.state.next
  used : ∀ n f, some f ∈ r.state.fs.outcomes n → 0 < r.state.next
  fresh : ∀ d, r.state.calls d ≠ none → d < r.state.next
  past : ∀ event ∈ r.history, event.call < r.state.next ∧
    ∀ call, r.state.calls event.call = some call → event.before.calls event.call = some call
  returned : ∀ d out, (d, out) ∈ r.state.returned → d < r.state.next ∧ r.state.calls d = none ∧
    ∃ g m, (∀ event ∈ r.history, event.call = d → event.before.calls d = some (g, m)) ∧
      Justified r.history d m out
  made : MadeOnce r

/-- What one step of call `c` may do. -/
structure Moves (c : Nat) (r r' : Ran C) : Prop where
  history : ∃ new, r'.history = r.history ++ new ∧ ∀ event ∈ new, event.call = c
  calls : ∀ d, d ≠ c → r'.state.calls d = r.state.calls d
  blank : ∀ d, d ≠ c → (∀ n, r.state.fs.Blank d n) → ∀ n, r'.state.fs.Blank d n
  temps : ∀ d, d ≠ c → ∀ n, n.IsGateTemp → r.state.fs.Blank d n → r'.state.fs.Blank d n

/-- When a call returns. -/
def Returning (c : Nat) (out : Outcome C) (r : Ran C) : Prop :=
  ∃ g m, r.state.calls c = some (g, m) ∧ Justified r.history c m out

/-- The discipline of the recorded Gate, in every run. -/
def originDiscipline (C : Commerce) : Discipline (gateMachine C).recorded where
  assumes := fun _ => True
  inv := Grounded
  act := Moves
  post := Returning

/-! ### What a call can count on -/

/-- A change that is none of call `c`'s writing: by another call, or by an operation of
its own that leaves the directory alone. -/
structure Undisturbed (c : Nat) (r r' : Ran C) : Prop where
  history : r.history <+: r'.history
  calls : r'.state.calls c = r.state.calls c
  passive : Passive c r.history → Passive c r'.history
  blank : (∀ n, r.state.fs.Blank c n) → ∀ n, r'.state.fs.Blank c n
  temps : ∀ n, n.IsGateTemp → r.state.fs.Blank c n → r'.state.fs.Blank c n

/-- The assertion survives every such change. -/
def Lasting (c : Nat) (P : Ran C → Prop) : Prop := ∀ r r', Undisturbed c r r' → P r → P r'

/-- A fact about the history that is not lost when the history goes on. -/
def Rising (K : History C → Prop) : Prop := ∀ h h', h <+: h' → K h → K h'

theorem Moves.undisturbed {d : Nat} (hne : d ≠ c) {r r' : Ran C} (h : Moves d r r') :
    Undisturbed c r r' := by
  obtain ⟨new, hnew, hby⟩ := h.history
  refine ⟨hnew ▸ List.prefix_append _ _, h.calls c (Ne.symm hne), fun hp => ?_,
    h.blank c (Ne.symm hne), h.temps c (Ne.symm hne)⟩
  rw [hnew]
  exact hp.append fun event hevent hcall => absurd ((hby event hevent).symm.trans hcall) hne

theorem undisturbed_of_interferes {r r' : Ran C} (h : (originDiscipline C).Interferes c r r') :
    Undisturbed c r r' := by
  obtain ⟨-, -, ⟨d, hne, hact⟩ | ⟨dead, hlives, henv, hhistory⟩⟩ := h
  · exact hact.undisturbed hne
  · obtain ⟨s, history⟩ := r
    obtain ⟨s', history'⟩ := r'
    obtain rfl : history' = history := hhistory
    change System.Env dead s s' at henv
    cases henv with
    | kill g =>
      refine ⟨List.prefix_refl _, ?_, id, id, fun _ _ => id⟩
      show (if s.gateOf c = g then none else s.calls c) = s.calls c
      split
      · cases hcall : s.calls c with
        | none => rfl
        | some call => exact absurd ⟨by rw [hcall]; rfl, ‹_›⟩ hlives
      · rfl
    | powerLoss found hfound => exact absurd trivial hlives

theorem Lasting.stable {P : Ran C → Prop} (hP : Lasting c P) : (originDiscipline C).Stable c P :=
  fun r r' h => hP r r' (undisturbed_of_interferes h)

theorem Lasting.and {P Q : Ran C → Prop} (hP : Lasting c P) (hQ : Lasting c Q) :
    Lasting c fun r => P r ∧ Q r :=
  fun r r' h hr => ⟨hP r r' h hr.1, hQ r r' h hr.2⟩

theorem Rising.lasting {K : History C → Prop} (hK : Rising K) : Lasting c fun r => K r.history :=
  fun _ _ h => hK _ _ h.history

theorem lasting_passive : Lasting (C := C) c fun r => Passive c r.history :=
  fun _ _ h => h.passive

theorem lasting_blank : Lasting (C := C) c fun r => ∀ n, r.state.fs.Blank c n :=
  fun _ _ h => h.blank

theorem rising_found (c : Nat) (e : Record) : Rising (C := C) fun h => Found h c e :=
  fun _ _ hsub => Found.mono hsub

theorem rising_cameTo (kind : FileName → Prop) (c : Nat) : Rising (C := C) (CameTo kind c) :=
  fun _ _ hsub ⟨answer, h⟩ => ⟨answer, h.mono hsub⟩

theorem rising_true : Rising (C := C) fun _ => True := fun _ _ _ _ => trivial

end TosAi.CommerceGate
