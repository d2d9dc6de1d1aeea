/-
  What a call can do to the directory, wherever it is cut off.

  `Change` says it once for every method: which of the files other than temporary ones may
  have changed, and into what.  Everything the runs are shown to keep is read off it.
  `Told` is what a returned value says about the directory.
-/
import TosAi.PrivateIngress.Specs

set_option autoImplicit false

namespace TosAi.PrivateIngress

open Foundation
open Foundation.Json (Bytes)

variable {P : Protocol} {cfg : Config} {F : Faults P} {c : Nat} {s t u : Site} {I : Site → Prop}

/-! ## Changes -/

/-- Apart from temporary files, only those of `N` have changed. -/
def Alike (N : FileName → Prop) (s t : Fs FileName) : Prop :=
  ∀ n, ¬N n → (∀ hex random, n ≠ .temporary hex random) → Fs.Still n s t

variable {N : FileName → Prop} {fs : Fs FileName} {challenge : Challenge}

theorem Keeps.alike {N' : FileName → Prop} (h : Keeps N s t)
    (hsub : ∀ n, N n → N' n ∨ ∃ hex random, n = .temporary hex random) :
    Alike N' s.fs t.fs := by
  intro n hn htemporary
  refine h.still n fun hmem => ?_
  obtain hmem | ⟨hex, random, heq⟩ := hsub n hmem
  · exact hn hmem
  · exact htemporary hex random heq

theorem Alike.mono {N' : FileName → Prop} {fs' : Fs FileName} (h : Alike N fs fs')
    (hsub : ∀ n, N n → N' n) : Alike N' fs fs' :=
  fun n hn htemporary => h n (fun hmem => hn (hsub n hmem)) htemporary

theorem Alike.trans {fs' fs'' : Fs FileName} (h : Alike N fs fs') (h' : Alike N fs' fs'') :
    Alike N fs fs'' :=
  fun n hn htemporary => (h n hn htemporary).trans (h' n hn htemporary)

/-- No name at all. -/
def Nowhere (_ : FileName) : Prop := False

/-- The challenge is a signed one for the body, with some key of the receiver. -/
def Signed (P : Protocol) (body : ChallengeBody) (challenge : Challenge) : Prop :=
  ∃ publicKey key, P.signPrivateHandoffChallenge
    { body with receiverEncryptionPublicKey := publicKey } key = .ok challenge

/-- The upload is for the record of this name, and its content can be opened. -/
structure Accepts (P : Protocol) (upload : Upload) (s : Fs FileName) (hex : String) (r : Record)
    (authorizationDigest : String) (content : Bytes) : Prop where
  found : Found P s hex r
  digest : r.hasDigest P upload.challengeDigest = true
  waiting : r.accepted = none
  opened : ∃ seen, uploadCheck P upload r.challenge seen = .ok authorizationDigest ∧
    openContent P upload r seen = .ok content

/-- The deletion is for the record of this name, which is not deleted. -/
structure Deletes (P : Protocol) (deletion : Deletion) (s : Fs FileName) (hex : String)
    (r : Record) (accepted : Accepted) (requestDigest : String) : Prop where
  found : Found P s hex r
  digest : r.hasDigest P deletion.challengeDigest = true
  holds : r.accepted = some accepted
  checked : ∃ seen, deletionCheck P deletion r.challenge accepted seen = .ok requestDigest
  admits : r.admits deletion.action.stableActionID requestDigest = true
  unfinished : r.deletionState ≠ "deleted"

/-- The record once its deletion is journalled. -/
def Record.begun (r : Record) (actionID requestDigest : String) : Record :=
  if r.deletionState = "" then r.deleting actionID requestDigest else r

@[simp] theorem Record.begun_challenge (r : Record) (actionID requestDigest : String) :
    (r.begun actionID requestDigest).challenge = r.challenge := by
  unfold Record.begun
  split <;> rfl

@[simp] theorem Record.begun_accepted (r : Record) (actionID requestDigest : String) :
    (r.begun actionID requestDigest).accepted = r.accepted := by
  unfold Record.begun
  split <;> rfl

theorem Record.begun_admits {r : Record} {actionID requestDigest : String}
    (h : r.admits actionID requestDigest = true) :
    (r.begun actionID requestDigest).admits actionID requestDigest = true := by
  unfold Record.begun
  split
  · simp [Record.admits, Record.deleting]
  · exact h

/-- The file of the journalled record, which may have been there before. -/
def journal (P : Protocol) (s : Fs FileName) (hex : String) (r : Record)
    (actionID requestDigest : String) : Option File :=
  if r.deletionState = "" then some ((r.deleting actionID requestDigest).file P)
  else s.now (.challenge hex)

/-- The record of the name is the journalled one. -/
def Journaled (P : Protocol) (hex : String) (r : Record) (actionID requestDigest : String)
    (s t : Fs FileName) : Prop :=
  t.now (.challenge hex) = journal P s hex r actionID requestDigest ∧
    ((s.slot (.challenge hex)).loose = [] → (t.slot (.challenge hex)).loose = [])

/-- **What a call can do**, wherever it is cut off. -/
inductive Change (P : Protocol) : Method → Fs FileName → Fs FileName → Prop where
  | idle {method : Method} {s t : Fs FileName} (hothers : Alike Nowhere s t) : Change P method s t
  /-- Some of a new record is there. -/
  | issuing {body : ChallengeBody} {s t : Fs FileName} {challenge : Challenge} {key : String}
      {k : Nat} (hsigned : Signed P body challenge) (hkey : key ≠ "")
      (hfree : s.now (challengePath P body.handoffID) = none)
      (hothers : Alike (· = challengePath P body.handoffID) s t)
      (hnow : t.now (challengePath P body.handoffID) =
        some ⟨0o600, ((Record.issued challenge key).marshal P).take k⟩) :
      Change P (.issueChallenge body) s t
  /-- Some of the object may be there. -/
  | storing {upload : Upload} {s t : Fs FileName} {hex authorizationDigest : String} {r : Record}
      {content : Bytes} (haccepts : Accepts P upload s hex r authorizationDigest content)
      (hothers : Alike (· = objectPath upload.authorization.body.manifest.contentDigest) s t)
      (hobject : t.now (objectPath upload.authorization.body.manifest.contentDigest) =
          s.now (objectPath upload.authorization.body.manifest.contentDigest) ∨
        s.now (objectPath upload.authorization.body.manifest.contentDigest) = none ∧
          ∃ f k, t.now (objectPath upload.authorization.body.manifest.contentDigest) = some f ∧
            f.data = content.take k) :
      Change P (.accept upload) s t
  /-- The object is there, and the record says so. -/
  | accepted {upload : Upload} {s t : Fs FileName}
      {hex authorizationDigest manifestDigest : String} {r : Record} {content : Bytes}
      {now : Time} (haccepts : Accepts P upload s hex r authorizationDigest content)
      (hothers : Alike (fun n => n = .challenge hex ∨
        n = objectPath upload.authorization.body.manifest.contentDigest) s t)
      (hstored : ∃ f, t.now (objectPath upload.authorization.body.manifest.contentDigest) =
        some f ∧ f.data = content)
      (hkept : s.now (objectPath upload.authorization.body.manifest.contentDigest) = none ∨
        t.now (objectPath upload.authorization.body.manifest.contentDigest) =
          s.now (objectPath upload.authorization.body.manifest.contentDigest))
      (hnow : t.now (.challenge hex) = some ((r.accepting (upload.accepted r.challenge content
        authorizationDigest manifestDigest now) authorizationDigest).file P))
      (hloose : (t.slot (.challenge hex)).loose = []) :
      Change P (.accept upload) s t
  /-- The deletion is journalled, and the object may be gone. -/
  | journaled {deletion : Deletion} {s t : Fs FileName} {hex requestDigest : String} {r : Record}
      {accepted : Accepted} (hdeletes : Deletes P deletion s hex r accepted requestDigest)
      (hothers : Alike (fun n => n = .challenge hex ∨ n = objectPath accepted.contentDigest) s t)
      (hjournal : Journaled P hex r deletion.action.stableActionID requestDigest s t)
      (hobject : t.now (objectPath accepted.contentDigest) =
          s.now (objectPath accepted.contentDigest) ∨
        t.now (objectPath accepted.contentDigest) = none) :
      Change P (.delete deletion) s t
  /-- The object is gone, and the record says so. -/
  | deleted {deletion : Deletion} {s t : Fs FileName} {hex requestDigest : String} {r : Record}
      {accepted : Accepted} {unix : UInt64}
      (hdeletes : Deletes P deletion s hex r accepted requestDigest)
      (hothers : Alike (fun n => n = .challenge hex ∨ n = objectPath accepted.contentDigest) s t)
      (hnow : t.now (.challenge hex) = some
        (((r.begun deletion.action.stableActionID requestDigest).deleted unix).file P))
      (hloose : (t.slot (.challenge hex)).loose = [])
      (hobject : t.now (objectPath accepted.contentDigest) = none)
      (hjournalled : (s.slot (.challenge hex)).loose = [] →
        ∀ o ∈ t.outcomes (.challenge hex), o = t.now (.challenge hex) ∨
          o = journal P s hex r deletion.action.stableActionID requestDigest) :
      Change P (.delete deletion) s t

/-- Where a call is cut off: the store is as it was, and the directory has changed. -/
structure Cut (P : Protocol) (method : Method) (s t : Site) : Prop where
  same : t = { s with fs := t.fs }
  change : Change P method s.fs t.fs

theorem Cut.refl {method : Method} (s : Site) : Cut P method s s :=
  ⟨rfl, .idle fun n _ _ => .refl n _⟩

/-! ## What a returned value says -/

/-- The file of the name is the record's, or is read as it. -/
def Shows (P : Protocol) (fs : Fs FileName) (hex : String) (r : Record) : Prop :=
  ∃ f, fs.now (.challenge hex) = some f ∧ (f = r.file P ∨ readRecord P f = .ok r)

theorem Found.shows {hex : String} {r : Record} (h : Found P fs hex r) :
    Shows P fs hex r := by
  obtain ⟨f, hnow, hread⟩ := h
  exact ⟨f, hnow, .inr hread⟩

/-- The digest of the request a deletion makes of the handoff. -/
def Deletion.requestDigest (P : Protocol) (deletion : Deletion) (challenge : Challenge)
    (accepted : Accepted) : Except Err String := do
  let (canonical, _) ← deleteAuthorizationMaterial P deletion.action.ownerID
    deletion.action.agentID challenge accepted
  pure (orEmpty (P.exactRequestDigest canonical))

theorem requestDigest_of_deletionCheck {deletion : Deletion} {challenge : Challenge}
    {accepted : Accepted} {seen : Circumstances P} {digest : String}
    (h : deletionCheck P deletion challenge accepted seen = .ok digest) :
    deletion.requestDigest P challenge accepted = .ok digest := by
  unfold deletionCheck at h
  unfold Deletion.requestDigest
  split at h
  · rename_i canonical fields hmaterial
    rw [hmaterial]
    split at h
    · exact h
    · cases h
  · cases h

/-- What a method that has returned a value says about the directory. -/
def Told (P : Protocol) (fs : Fs FileName) : Method → Outcome P → Prop
  | .issueChallenge body, .challenge challenge =>
    ∃ r, Shows P fs (challengeName P body.handoffID) r ∧ r.challenge = challenge
  | .accept _, .accepted accepted => ∃ hex r, Shows P fs hex r ∧ r.accepted = some accepted
  | .delete deletion, .resolution resolution =>
    ∃ hex r a, Shows P fs hex r ∧ r.hasDigest P deletion.challengeDigest = true ∧
      r.accepted = some a ∧ r.deletionState = "deleted" ∧
      resolution.stableActionID = deletion.action.stableActionID ∧
      deletion.requestDigest P r.challenge a = .ok resolution.exactRequestDigest ∧
      r.admits deletion.action.stableActionID resolution.exactRequestDigest = true
  | .openAccepted record, .content bytes =>
    ∃ f, fs.now (objectPath record.contentDigest) = some f ∧ f.data = bytes
  | _, _ => True

/-- The object of the record is there, with its length and digest. -/
structure Available (P : Protocol) (fs : Fs FileName) (record : Accepted) : Prop where
  canonical : canonicalDigest record.contentDigest = true
  immutable : record.immutableObjectDigest = record.contentDigest
  object : ∃ f, fs.now (objectPath record.contentDigest) = some f ∧
    UInt64.ofNat f.data.length = record.plaintextBytes ∧
    P.contentDigest (f.data.take (copyLimit record.plaintextBytes)) = record.contentDigest

/-- **What an acknowledgement rests on**: an open store, an object of the size and the digest the
record names, and the key of the store.  No challenge record is looked at. -/
structure Acknowledges (P : Protocol) (cfg : Config) (s : Site) (record : Accepted)
    (value : P.Acknowledgement) : Prop where
  lock : s.lock = true
  available : Available P s.fs record
  signed : P.signPrivateHandoffAcknowledgement record cfg.receiverAgent s.key = .ok value

/-- The store after a call: the mutex is free again, and an open store was open before, with
the same key. -/
structure Site.Leaves (s t : Site) : Prop where
  free : s.mu = none → t.mu = none
  armed : t.lock = true → s.lock = true ∧ t.key = s.key

theorem Site.Leaves.refl (s : Site) : s.Leaves s := ⟨fun h => h, fun h => ⟨h, rfl⟩⟩

/-! ## The mutex -/

theorem survives_locked {α : Type} {body : Ingress P α} {Q : α → Site → Prop}
    {E : Err → Site → Prop} (hI : I s)
    (hbody : s.mu = none → Survives (behave F c) I body { s with mu := some c }
      (fun a t => I { t with mu := none } ∧ Q a { t with mu := none })
      (fun e t => I { t with mu := none } ∧ E e { t with mu := none })) :
    Survives (behave F c) I (locked body) s Q E := by
  unfold locked
  refine .bind (R := fun _ t => t = { s with mu := some c } ∧ s.mu = none) ?_ ?_
  · refine .perform hI ?_
    intro _ t ⟨⟨hfree, hsame⟩, _⟩
    subst hsame
    exact ⟨(hbody hfree).here, rfl, hfree⟩
  intro _ t _ ⟨hsame, hfree⟩
  subst hsame
  refine .bind (R := fun value t => I { t with mu := none } ∧
      Discipline.Returns Q E value { t with mu := none })
    (.attempt (hbody hfree) (fun _ _ h => h) fun _ _ h => h) ?_
  intro value t hIt ⟨hIunlocked, hvalue⟩
  refine .bind (R := fun _ u => u = { t with mu := none }) ?_ ?_
  · refine .perform hIt ?_
    intro _ u ⟨hop, _⟩
    obtain rfl : u = { t with mu := none } := hop
    exact ⟨hIunlocked, rfl⟩
  intro _ u _ hsame
  subst hsame
  refine .result hIunlocked ?_ ?_
  · intro a ha
    subst ha
    exact hvalue
  · intro e he
    subst he
    exact hvalue

/-- A method that tests the lock and then works under the mutex. -/
theorem survives_guarded {α : Type} {method : Method} {condition : Bool} {err : Err}
    {body : Ingress P α} (Q : α → Fs FileName → Prop)
    (hbody : s.lock = true → Survives (behave F c) (Cut P method { s with mu := some c }) body
      { s with mu := some c } (fun a t => Q a t.fs) fun _ _ => True) :
    Survives (behave F c) (fun t => Change P method s.fs t.fs) (guarded condition err body) s
      (fun a t => Q a t.fs ∧ s.Leaves t) (fun _ t => s.Leaves t) := by
  unfold guarded
  have hstart : Change P method s.fs s.fs := .idle fun n _ _ => .refl n _
  refine .bind (R := fun held t => t = s ∧ held = s.lock) (.perform hstart ?_) ?_
  · intro answer t ⟨⟨hheld, hsame⟩, _⟩
    subst hsame
    exact ⟨hstart, rfl, hheld⟩
  intro held t _ ⟨hsame, hheld⟩
  subst hsame hheld
  refine .bind (R := fun _ u => u = t ∧ t.lock = true)
    (.ensure hstart (fun h => ⟨rfl, (Bool.and_eq_true_iff.mp h).1⟩) fun _ => .refl t) ?_
  intro _ u _ ⟨hsame, hlock⟩
  subst hsame
  refine survives_locked hstart fun _ => ?_
  have hcut := hbody hlock
  -- the states on the way are also those at the end
  refine Prog.Guards.mono (I := Cut P method { u with mu := some c }) (fun _ h => h.change) ?_
    (hcut.and_here)
  intro value v ⟨hI, hvalue⟩
  have hleaves : u.Leaves { v with mu := none } := by
    rw [hI.same]
    exact ⟨fun _ => rfl, fun h => ⟨h, rfl⟩⟩
  cases value with
  | ok a => exact ⟨hI.change, hvalue, hleaves⟩
  | error e => exact ⟨hI.change, hleaves⟩

/-! ## IssueChallenge -/

theorem survives_signingKey {E : Err → Site → Prop} (hI : I s) :
    Survives (behave F c) I (perform .signingKey : Ingress P Bytes) s (fun _ t => t = s) E :=
  survives_ask hI fun _ _ h => h.2

theorem survives_repeatChallenge {body : ChallengeBody} {existing : Record} (hI : I s) :
    Survives (behave F c) I (repeatChallenge P body existing) s
      (fun challenge t => t = s ∧ challenge = existing.challenge) (fun _ _ => True) := by
  unfold repeatChallenge
  refine .bind (survives_signingKey hI) ?_
  intro key t _ hsame
  subst hsame
  dsimp only
  split
  · refine .bind (R := fun _ u => u = t) (.ensure hI (fun _ => rfl) fun _ => trivial) ?_
    intro _ u _ hsame
    subst hsame
    exact .pure hI ⟨rfl, rfl⟩
  · exact .throw hI trivial

theorem survives_adoptChallenge {hex digest : String} {err : Err} (hI : I s) :
    Survives (behave F c) I (adoptChallenge P hex digest err) s
      (fun challenge t => t = s ∧ ∃ r, Found P s.fs hex r ∧ r.challenge = challenge)
      (fun _ _ => True) := by
  unfold adoptChallenge
  refine .bind (R := fun value t => t = s ∧ ∀ r, value = .ok r → Found P s.fs hex r)
    (.attempt (survives_readChallenge hI) ?_ ?_) ?_
  · intro r t ⟨hsame, hfound⟩
    refine ⟨hsame, fun r' hr' => ?_⟩
    obtain rfl := Except.ok.inj hr'
    exact hfound
  · intro e t ⟨hsame, _⟩
    exact ⟨hsame, fun _ h => nomatch h⟩
  intro value t _ ⟨hsame, hfound⟩
  subst hsame
  cases value with
  | ok r =>
    refine .bind (R := fun _ u => u = t) (.ensure hI (fun _ => rfl) fun _ => trivial) ?_
    intro _ u _ hsame
    subst hsame
    exact .pure hI ⟨rfl, r, hfound r rfl, rfl⟩
  | error e => exact .throw hI trivial

theorem survives_generateKey (hI : I s) :
    Survives (behave F c) I (generateKey P) s (fun keys t => t = s ∧ keys.1.length = 32)
      (fun _ _ => True) := by
  unfold generateKey
  refine .bind (R := fun answer t => t = s ∧ ∀ keys, answer = some keys → keys.1.length = 32)
    (.perform hI ?_) ?_
  · intro answer t ⟨⟨hlength, hsame⟩, _⟩
    subst hsame
    exact ⟨hI, rfl, hlength⟩
  intro answer t _ ⟨hsame, hkeys⟩
  subst hsame
  cases answer with
  | some keys => exact .pure hI ⟨rfl, hkeys keys rfl⟩
  | none => exact .throw hI trivial

theorem Cut.of_creating {body : ChallengeBody} {key : String} (hsigned : Signed P body challenge)
    (hkey : key ≠ "")
    (h : Creating (challengePath P body.handoffID) ((Record.issued challenge key).marshal P) s t) :
    Cut P (.issueChallenge body) s t := by
  refine ⟨h.keeps.same, ?_⟩
  obtain hstill | ⟨hfree, k, hnow⟩ := h.either
  · refine .idle fun n _ _ => ?_
    by_cases hn : n = challengePath P body.handoffID
    · subst hn
      exact hstill
    · exact h.keeps.still n hn
  · exact .issuing hsigned hkey hfree (h.keeps.alike fun _ hn => .inl hn) hnow

theorem survives_freshChallenge {body : ChallengeBody} (s : Site) :
    Survives (behave F c) (Cut P (.issueChallenge body) s)
      (freshChallenge P (challengeName P body.handoffID) body) s
      (fun challenge t => Told P t.fs (.issueChallenge body) (.challenge challenge))
      (fun _ _ => True) := by
  unfold freshChallenge
  refine .bind (survives_generateKey (.refl s)) ?_
  intro keys t _ ⟨hsame, hlength⟩
  subst hsame
  refine .bind (survives_signingKey (.refl t)) ?_
  intro key t' _ hsame
  subst hsame
  refine .bind (R := fun challenge u => u = t' ∧ Signed P body challenge)
    (.result (.refl t') (fun challenge h => ⟨rfl, _, _, h⟩) fun _ _ => trivial) ?_
  intro challenge u _ ⟨hsame, hsigned⟩
  subst hsame
  refine .bind (R := fun _ v => v = u) (.result (.refl u) (fun _ _ => rfl) fun _ _ => trivial) ?_
  intro digest v _ hsame
  subst hsame
  have hkey : base64RawURLEncode keys.1 ≠ "" := by
    refine base64RawURLEncode_ne_empty fun hempty => ?_
    rw [hempty] at hlength
    cases hlength
  refine .bind (R := fun value x => value = .ok () → Created (challengePath P body.handoffID)
      ((Record.issued challenge (base64RawURLEncode keys.1)).marshal P) v x)
    (.attempt (.mono (survives_createPrivate _ _) (fun _ h => .of_creating hsigned hkey h)
      (fun _ _ h => h) fun _ _ h => h) (fun _ _ h _ => h) fun _ _ _ h => nomatch h) ?_
  intro value x hIx hok
  cases value with
  | ok value => exact .pure hIx ⟨_, ⟨_, (hok rfl).now, .inl rfl⟩, rfl⟩
  | error err =>
    refine .conseq (survives_adoptChallenge hIx) ?_ fun _ _ _ => trivial
    intro challenge' y ⟨hsame, r, hfound, hchallenge⟩
    subst hsame
    exact ⟨r, hfound.shows, hchallenge⟩

theorem survives_issueLocked (body : ChallengeBody) (s : Site) :
    Survives (behave F c) (Cut P (.issueChallenge body) s) (issueLocked P body) s
      (fun challenge t => Told P t.fs (.issueChallenge body) (.challenge challenge))
      (fun _ _ => True) := by
  unfold issueLocked
  refine .bind (R := fun value t => t = s ∧
      ∀ r, value = .ok r → Found P s.fs (challengeName P body.handoffID) r)
    (.attempt (survives_readChallenge (.refl s)) ?_ ?_) ?_
  · intro r t ⟨hsame, hfound⟩
    refine ⟨hsame, fun r' hr' => ?_⟩
    obtain rfl := Except.ok.inj hr'
    exact hfound
  · intro e t ⟨hsame, _⟩
    exact ⟨hsame, fun _ h => nomatch h⟩
  intro value t _ ⟨hsame, hfound⟩
  subst hsame
  split
  · rename_i existing
    refine .conseq (survives_repeatChallenge (.refl t)) ?_ fun _ _ _ => trivial
    intro challenge u ⟨hsame, hchallenge⟩
    subst hsame hchallenge
    exact ⟨existing, (hfound existing rfl).shows, rfl⟩
  · exact survives_freshChallenge t
  · exact .throw (.refl t) trivial

/-! ## Accept -/

section Accept

variable {upload : Upload} {hex authorizationDigest : String} {r : Record} {content : Bytes}

/-- The object the upload asks for. -/
abbrev Upload.object (upload : Upload) : FileName :=
  objectPath upload.authorization.body.manifest.contentDigest

theorem Cut.of_storing (haccepts : Accepts P upload s.fs hex r authorizationDigest content)
    (h : Creating upload.object content s t) : Cut P (.accept upload) s t := by
  refine ⟨h.keeps.same, .storing haccepts (h.keeps.alike fun _ hn => .inl hn) ?_⟩
  obtain hstill | ⟨hfree, k, hnow⟩ := h.either
  · exact .inl hstill.now
  · exact .inr ⟨hfree, _, k, hnow, rfl⟩

/-- The object is stored, the record is being replaced. -/
theorem Cut.of_accepting {manifestDigest : String} {now : Time}
    (haccepts : Accepts P upload s.fs hex r authorizationDigest content)
    (hstored : Stored upload.object content s t)
    (h : Replacing hex ((r.accepting (upload.accepted r.challenge content authorizationDigest
      manifestDigest now) authorizationDigest).marshal P) t u) : Cut P (.accept upload) s u := by
  have hobject := h.keeps.still upload.object (fun hn => hn.elim (fun h => nomatch h)
    fun ⟨_, h⟩ => nomatch h)
  have hothers : Alike (fun n => n = .challenge hex ∨ n = upload.object) s.fs u.fs :=
    (hstored.keeps.alike fun _ hn => .inl (.inr hn)).trans
      (h.keeps.alike fun _ hn => hn.elim (fun hn => .inl (.inl hn))
        fun ⟨random, hn⟩ => .inr ⟨hex, random, hn⟩)
  refine ⟨h.keeps.same.trans (by rw [hstored.keeps.same]), ?_⟩
  obtain ⟨f, hnow, hdata⟩ := hstored.now
  obtain hstill | hrewritten := h.either
  · refine .storing haccepts (fun n hn htemporary => ?_) ?_
    · by_cases hhex : n = .challenge hex
      · subst hhex
        exact (hstored.keeps.still _ hn).trans hstill
      · exact hothers n (fun h => h.elim hhex hn) htemporary
    · refine hstored.either.symm.imp (fun hkept => hobject.now.trans hkept) fun hfree => ?_
      exact ⟨hfree, f, content.length, hobject.now.trans hnow, by simpa using hdata⟩
  · refine .accepted haccepts hothers ⟨f, hobject.now.trans hnow, hdata⟩ ?_ hrewritten.now
      hrewritten.loose
    exact hstored.either.imp_right fun hkept => hobject.now.trans hkept

theorem survives_freshAccept {seen : Circumstances P}
    (hfound : Found P s.fs hex r) (hdigest : r.hasDigest P upload.challengeDigest = true)
    (hwaiting : r.accepted = none)
    (hchecked : uploadCheck P upload r.challenge seen = .ok authorizationDigest) :
    Survives (behave F c) (Cut P (.accept upload) s)
      (freshAccept P upload hex r authorizationDigest seen) s
      (fun accepted t => Told P t.fs (.accept upload) (.accepted accepted)) (fun _ _ => True) := by
  unfold freshAccept
  refine .bind (R := fun content t => t = s ∧ openContent P upload r seen = .ok content)
    (.result (.refl s) (fun content hopen => ⟨rfl, hopen⟩) fun _ _ => trivial) ?_
  intro content t _ ⟨hsame, hopen⟩
  subst hsame
  have haccepts : Accepts P upload t.fs hex r authorizationDigest content :=
    ⟨hfound, hdigest, hwaiting, seen, hchecked, hopen⟩
  refine .bind (.mono (survives_storeObject upload.object content)
    (fun _ h => .of_storing haccepts h) (fun _ _ h => h) fun _ _ h => h) ?_
  intro _ u hIu hstored
  refine .bind (R := fun _ v => v = u) (.result hIu (fun _ _ => rfl) fun _ _ => trivial) ?_
  intro manifestDigest v _ hsame
  subst hsame
  refine .bind (.mono (survives_replacePrivate hex _)
    (fun _ h => .of_accepting haccepts hstored h) (fun _ _ h => h) fun _ _ h => h) ?_
  intro _ x hIx hreplaced
  exact .pure hIx ⟨hex, _, ⟨_, hreplaced.rewritten.now, .inl rfl⟩, rfl⟩

theorem survives_acceptLocked (upload : Upload) (s : Site) :
    Survives (behave F c) (Cut P (.accept upload) s) (acceptLocked P upload) s
      (fun accepted t => Told P t.fs (.accept upload) (.accepted accepted)) (fun _ _ => True) := by
  unfold acceptLocked
  refine .bind (survives_ask (.refl s) fun _ _ h => h) ?_
  intro seen t _ hsame
  subst hsame
  refine .bind (R := fun _ u => u = t) (.result (.refl t) (fun _ _ => rfl) fun _ _ => trivial) ?_
  intro _ u _ hsame
  subst hsame
  refine .bind (.conseq (survives_findChallenge (.refl u)) (fun _ _ h => h) fun _ _ _ => trivial) ?_
  intro found v _ ⟨hsame, hfound, hdigest⟩
  subst hsame
  unfold acceptFound
  refine .bind (R := fun authorizationDigest x => x = v ∧
      uploadCheck P upload found.2.challenge seen = .ok authorizationDigest)
    (.result (.refl v) (fun _ h => ⟨rfl, h⟩) fun _ _ => trivial) ?_
  intro authorizationDigest x _ ⟨hsame, hchecked⟩
  subst hsame
  split
  · rename_i accepted haccepted
    unfold repeatAccept
    refine .bind (R := fun _ y => y = x) (.ensure (.refl x) (fun _ => rfl) fun _ => trivial) ?_
    intro _ y _ hsame
    subst hsame
    exact .pure (.refl y) ⟨found.1, found.2, hfound.shows, haccepted⟩
  · exact survives_freshAccept hfound hdigest ‹_› hchecked

end Accept

/-! ## OpenAccepted and Acknowledge -/

theorem survives_openLocked {record : Accepted} (hI : I s) :
    Survives (behave F c) I (openLocked P record) s
      (fun content t => t = s ∧ Available P s.fs record ∧
        ∃ f, s.fs.now (objectPath record.contentDigest) = some f ∧ f.data = content)
      (fun _ t => t = s ∧ (Sane F → ¬Available P s.fs record)) := by
  unfold openLocked
  refine .bind (R := fun _ t => t = s ∧ canonicalDigest record.contentDigest = true ∧
      record.immutableObjectDigest = record.contentDigest) (.ensure hI ?_ ?_) ?_
  · intro htrue
    rw [Bool.and_eq_true, beq_iff_eq] at htrue
    exact ⟨rfl, htrue⟩
  · intro hfalse
    refine ⟨rfl, fun _ havailable => ?_⟩
    simp [havailable.canonical, havailable.immutable] at hfalse
  intro _ t _ ⟨hsame, hcanonical, himmutable⟩
  subst hsame
  refine .bind (R := fun value u => u = t ∧
      (∀ f, value = .ok f → t.fs.now (objectPath record.contentDigest) = some f) ∧
      ∀ e, value = .error e → Sane F → t.fs.now (objectPath record.contentDigest) = none)
    (.attempt (survives_readFile hI) ?_ ?_) ?_
  · intro f u ⟨hsame, hnow⟩
    refine ⟨hsame, fun f' hf' => ?_, (fun _ h => nomatch h)⟩
    obtain rfl := Except.ok.inj hf'
    exact hnow
  · intro e u ⟨hsame, _, hsane⟩
    exact ⟨hsame, (fun _ h => nomatch h), fun _ _ hall => (hsane hall).1⟩
  intro value u _ ⟨hsame, hread, hmissing⟩
  subst hsame
  cases value with
  | ok f =>
    have hnow := hread f rfl
    -- whatever is available is this file
    have hfile : Available P u.fs record → UInt64.ofNat f.data.length = record.plaintextBytes ∧
        P.contentDigest (f.data.take (copyLimit record.plaintextBytes)) =
          record.contentDigest := by
      intro havailable
      obtain ⟨f', hnow', hfile⟩ := havailable.object
      rw [hnow] at hnow'
      obtain rfl := Option.some.inj hnow'
      exact hfile
    refine .bind (R := fun _ v => v = u ∧ UInt64.ofNat f.data.length = record.plaintextBytes)
      (.ensure hI (fun htrue => ⟨rfl, beq_iff_eq.mp htrue⟩) ?_) ?_
    · intro hfalse
      refine ⟨rfl, fun _ havailable => ?_⟩
      simp [(hfile havailable).1] at hfalse
    intro _ v _ ⟨hsame, hsize⟩
    subst hsame
    refine .bind (R := fun _ x => x = v ∧
        P.contentDigest (f.data.take (copyLimit record.plaintextBytes)) = record.contentDigest)
      (.ensure hI (fun htrue => ⟨rfl, beq_iff_eq.mp htrue⟩) ?_) ?_
    · intro hfalse
      refine ⟨rfl, fun _ havailable => ?_⟩
      simp [(hfile havailable).2] at hfalse
    intro _ x _ ⟨hsame, hdigest⟩
    subst hsame
    exact .pure hI ⟨rfl, ⟨hcanonical, himmutable, f, hnow, hsize, hdigest⟩, f, hnow, rfl⟩
  | error e =>
    refine .throw hI ⟨rfl, fun hsane havailable => ?_⟩
    obtain ⟨f, hnow, _⟩ := havailable.object
    rw [hmissing e rfl hsane] at hnow
    cases hnow

theorem survives_acknowledgeLocked {record : Accepted} (hI : I s) (hlock : s.lock = true) :
    Survives (behave F c) I (acknowledgeLocked P cfg record) s
      (fun value t => t = s ∧ Acknowledges P cfg s record value)
      (fun _ _ => Sane F → ∀ value, ¬Acknowledges P cfg s record value) := by
  unfold acknowledgeLocked
  refine .bind (.conseq (survives_openLocked hI) (fun _ _ h => h)
    fun _ _ h hsane value hvalue => h.2 hsane hvalue.available) ?_
  intro _ t hIt ⟨hsame, havailable, _⟩
  subst hsame
  refine .bind (R := fun key u => u = t ∧ key = t.key) (.perform hIt ?_) ?_
  · intro key u ⟨⟨hkey, hsame⟩, _⟩
    subst hsame
    exact ⟨hIt, rfl, hkey⟩
  intro key u hIu ⟨hsame, hkey⟩
  subst hsame hkey
  refine .result hIu (fun value hvalue => ⟨rfl, hlock, havailable, hvalue⟩) fun e he => ?_
  intro _ value hvalue
  rw [hvalue.signed] at he
  cases he

theorem survives_acknowledge (record : Accepted) (s : Site) :
    Survives (behave F c) (fun t => Change P (.acknowledge record) s.fs t.fs)
      (acknowledge P cfg record) s
      (fun value t => (t.fs = s.fs ∧ Acknowledges P cfg s record value) ∧ s.Leaves t)
      (fun _ t => s.Leaves t) := by
  refine survives_guarded (fun value fs => fs = s.fs ∧ Acknowledges P cfg s record value)
    fun hlock => .conseq (survives_acknowledgeLocked (.refl _) hlock) ?_ fun _ _ _ => trivial
  intro value t ⟨hsame, hvalue⟩
  subst hsame
  exact ⟨rfl, hlock, hvalue.available, hvalue.signed⟩

/-! ## Delete -/

section Delete

variable {deletion : Deletion} {hex requestDigest : String} {r : Record} {accepted : Accepted}

/-- Nothing is left of the past of a name. -/
theorem outcomes_of_settled {fs : Fs FileName} {n : FileName} (hold : (fs.slot n).old = [])
    (hloose : (fs.slot n).loose = []) : fs.outcomes n = [fs.now n] := by
  unfold Fs.outcomes Slot.outcomes Slot.present Fs.now
  rw [hold, hloose]
  cases (fs.slot n).now <;> rfl

/-- The journalled record is being written. -/
theorem Cut.of_journaling (hdeletes : Deletes P deletion s.fs hex r accepted requestDigest)
    (hstate : r.deletionState = "")
    (h : Replacing hex ((r.deleting deletion.action.stableActionID requestDigest).marshal P) s t) :
    Cut P (.delete deletion) s t := by
  have hothers : Alike (· = .challenge hex) s.fs t.fs := h.keeps.alike fun _ hn =>
    hn.imp_right fun h => ⟨hex, h⟩
  refine ⟨h.keeps.same, ?_⟩
  obtain hstill | hrewritten := h.either
  · refine .idle fun n _ htemporary => ?_
    by_cases hn : n = .challenge hex
    · subst hn
      exact hstill
    · exact hothers n hn htemporary
  · refine .journaled hdeletes (hothers.mono fun _ => .inl)
      ⟨?_, fun _ => hrewritten.loose⟩ (.inl ?_)
    · rw [journal, if_pos hstate, hrewritten.now, Record.file]
    · exact (hothers (objectPath accepted.contentDigest) (fun h => by cases h)
        fun _ _ h => by cases h).now

/-- What `beginDeletion` leaves. -/
structure Begun (P : Protocol) (deletion : Deletion) (hex requestDigest : String) (r : Record)
    (s t : Site) : Prop where
  keeps : Keeps (Rewrites hex) s t
  journaled : Journaled P hex r deletion.action.stableActionID requestDigest s.fs t.fs

theorem survives_beginDeletion (hdeletes : Deletes P deletion s.fs hex r accepted requestDigest) :
    Survives (behave F c) (Cut P (.delete deletion) s)
      (beginDeletion P hex r deletion.action.stableActionID requestDigest) s
      (fun r' t => r' = r.begun deletion.action.stableActionID requestDigest ∧
        Begun P deletion hex requestDigest r s t) (fun _ _ => True) := by
  unfold beginDeletion
  split
  · rename_i hstate
    refine .bind (.mono (survives_replacePrivate hex _)
      (fun _ h => .of_journaling hdeletes hstate h) (fun _ _ h => h) fun _ _ h => h) ?_
    intro _ t hIt hreplaced
    refine .pure hIt ⟨by rw [Record.begun, if_pos hstate], hreplaced.keeps, ?_,
      fun _ => hreplaced.rewritten.loose⟩
    rw [journal, if_pos hstate, hreplaced.rewritten.now, Record.file]
  · rename_i hstate
    refine .pure (.refl s) ⟨by rw [Record.begun, if_neg hstate], .refl s, ?_, fun h => h⟩
    rw [journal, if_neg hstate]

/-- The object is being removed. -/
theorem Cut.of_removing (hdeletes : Deletes P deletion s.fs hex r accepted requestDigest)
    (hbegun : Begun P deletion hex requestDigest r s t)
    (h : Removing (objectPath accepted.contentDigest) t u) : Cut P (.delete deletion) s u := by
  have hrecord := h.keeps.still (.challenge hex) fun h => nomatch h
  have hobject := hbegun.keeps.still (objectPath accepted.contentDigest)
    (fun hn => hn.elim (fun h => nomatch h) fun ⟨_, h⟩ => nomatch h)
  refine ⟨h.keeps.same.trans (by rw [hbegun.keeps.same]), .journaled hdeletes ?_ ⟨?_, ?_⟩ ?_⟩
  · exact (hbegun.keeps.alike fun _ hn => hn.elim (fun hn => .inl (.inl hn))
      fun ⟨random, hn⟩ => .inr ⟨hex, random, hn⟩).trans (h.keeps.alike fun _ hn => .inl (.inr hn))
  · exact hrecord.now.trans hbegun.journaled.1
  · exact fun hloose => hrecord.loose.trans (hbegun.journaled.2 hloose)
  · exact h.either.imp_left fun hkept => hkept.trans hobject.now

/-- The object is gone, the record is being replaced. -/
theorem Cut.of_deleting {unix : UInt64} {v : Site}
    (hdeletes : Deletes P deletion s.fs hex r accepted requestDigest)
    (hbegun : Begun P deletion hex requestDigest r s t)
    (hremoved : Removed (objectPath accepted.contentDigest) t u)
    (h : Replacing hex (((r.begun deletion.action.stableActionID requestDigest).deleted
      unix).marshal P) u v) : Cut P (.delete deletion) s v := by
  have hremoving : Removing (objectPath accepted.contentDigest) t u :=
    ⟨hremoved.keeps, .inr hremoved.now⟩
  have hrecord := hremoved.keeps.still (.challenge hex) fun h => nomatch h
  have hobject := h.keeps.still (objectPath accepted.contentDigest)
    (fun hn => hn.elim (fun h => nomatch h) fun ⟨_, h⟩ => nomatch h)
  have hothers : Alike (fun n => n = .challenge hex ∨ n = objectPath accepted.contentDigest)
      s.fs v.fs :=
    ((hbegun.keeps.alike fun _ hn => hn.elim (fun hn => .inl (.inl hn))
      fun ⟨random, hn⟩ => .inr ⟨hex, random, hn⟩).trans
        (hremoved.keeps.alike fun _ hn => .inl (.inr hn))).trans
      (h.keeps.alike fun _ hn => hn.elim (fun hn => .inl (.inl hn))
        fun ⟨random, hn⟩ => .inr ⟨hex, random, hn⟩)
  have hnow := hrecord.now.trans hbegun.journaled.1
  have hloose := fun hloose => hrecord.loose.trans (hbegun.journaled.2 hloose)
  refine ⟨h.keeps.same.trans (by rw [hremoved.keeps.same, hbegun.keeps.same]), ?_⟩
  obtain hstill | hrewritten := h.either
  · exact .journaled hdeletes hothers
      ⟨hstill.now.trans hnow, fun h => hstill.loose.trans (hloose h)⟩
      (.inr (hobject.now.trans hremoved.now))
  · refine .deleted hdeletes hothers hrewritten.now hrewritten.loose
      (hobject.now.trans hremoved.now) fun hfirm o ho => ?_
    rw [hrewritten.now]
    refine (hrewritten.outcomes o ho).imp_right fun hbefore => ?_
    rw [outcomes_of_settled (hremoved.old _) (hloose hfirm), List.mem_singleton] at hbefore
    exact hbefore.trans hnow

theorem survives_freshDelete {now : Time}
    (hdeletes : Deletes P deletion s.fs hex r accepted requestDigest) :
    Survives (behave F c) (Cut P (.delete deletion) s)
      (freshDelete P deletion hex r accepted requestDigest now) s
      (fun resolution t => Told P t.fs (.delete deletion) (.resolution resolution))
      (fun _ _ => True) := by
  unfold freshDelete
  refine .bind (survives_beginDeletion hdeletes) ?_
  intro r' t _ ⟨hr', hbegun⟩
  subst hr'
  refine .bind (.mono (survives_removeObject _) (fun _ h => .of_removing hdeletes hbegun h)
    (fun _ _ h => h) fun _ _ h => h) ?_
  intro _ u _ hremoved
  refine .bind (.mono (survives_replacePrivate hex _)
    (fun _ h => .of_deleting hdeletes hbegun hremoved h) (fun _ _ h => h) fun _ _ h => h) ?_
  intro _ v hIv hreplaced
  obtain ⟨seen, hchecked⟩ := hdeletes.checked
  refine .pure hIv ⟨hex, _, accepted, ⟨_, hreplaced.rewritten.now, .inl rfl⟩, ?_, ?_, rfl, rfl,
    ?_, ?_⟩
  · have hdigest := hdeletes.digest
    unfold Record.hasDigest at hdigest ⊢
    rw [Record.deleted, Record.begun_challenge]
    exact hdigest
  · rw [Record.deleted, Record.begun_accepted, hdeletes.holds]
  · rw [Record.deleted, Record.begun_challenge]
    exact requestDigest_of_deletionCheck hchecked
  · exact Record.begun_admits hdeletes.admits

theorem survives_deleteLocked (deletion : Deletion) (s : Site) :
    Survives (behave F c) (Cut P (.delete deletion) s) (deleteLocked P deletion) s
      (fun resolution t => Told P t.fs (.delete deletion) (.resolution resolution))
      (fun _ _ => True) := by
  unfold deleteLocked
  refine .bind (survives_ask (.refl s) fun _ _ h => h) ?_
  intro seen t _ hsame
  subst hsame
  refine .bind (R := fun _ u => u = t) (.result (.refl t) (fun _ _ => rfl) fun _ _ => trivial) ?_
  intro _ u _ hsame
  subst hsame
  refine .bind (R := fun value v => v = u ∧
      ∀ found, value = .ok found → Found P u.fs found.1 found.2 ∧
        found.2.hasDigest P deletion.challengeDigest = true)
    (.attempt (survives_findChallenge (.refl u)) ?_ ?_) ?_
  · intro found v ⟨hsame, hfound⟩
    refine ⟨hsame, fun found' heq => ?_⟩
    obtain rfl := Except.ok.inj heq
    exact hfound
  · intro e v hsame
    exact ⟨hsame, fun _ h => nomatch h⟩
  intro value v _ ⟨hsame, hfound⟩
  subst hsame
  cases value with
  | error e => exact .throw (.refl v) trivial
  | ok found =>
    obtain ⟨hrecord, hdigest⟩ := hfound found rfl
    dsimp only
    unfold deleteFound
    split
    · exact .throw (.refl v) trivial
    · rename_i accepted haccepted
      refine .bind (R := fun requestDigest x => x = v ∧
          deletionCheck P deletion found.2.challenge accepted seen = .ok requestDigest)
        (.result (.refl v) (fun _ h => ⟨rfl, h⟩) fun _ _ => trivial) ?_
      intro requestDigest x _ ⟨hsame, hchecked⟩
      subst hsame
      refine .bind (R := fun _ y => y = x ∧
          found.2.admits deletion.action.stableActionID requestDigest = true)
        (.ensure (.refl x) (fun h => ⟨rfl, h⟩) fun _ => trivial) ?_
      intro _ y _ ⟨hsame, hadmits⟩
      subst hsame
      split
      · rename_i hdeleted
        exact .pure (.refl y) ⟨found.1, found.2, accepted, hrecord.shows, hdigest, haccepted,
          hdeleted, rfl, requestDigest_of_deletionCheck hchecked, hadmits⟩
      · rename_i hunfinished
        exact survives_freshDelete
          ⟨hrecord, hdigest, haccepted, ⟨seen, hchecked⟩, hadmits, hunfinished⟩

end Delete

/-! ## Every method -/

theorem survives_closeLocked (hI : Change P .close s.fs t.fs) :
    Survives (behave F c) (fun u => Change P .close s.fs u.fs) (closeLocked P) t
      (fun _ u => u.lock = false) (fun _ u => u.lock = false) := by
  unfold closeLocked
  refine .bind (R := fun _ _ => True) (.perform hI ?_) ?_
  · intro _ u ⟨hop, _⟩
    obtain rfl : u = { t with key := t.key.map fun _ => 0, zeroed := true } := hop
    exact ⟨hI, trivial⟩
  intro _ t₁ hI₁ _
  refine .bind (R := fun _ _ => True) (.perform hI₁ ?_) ?_
  · intro released u ⟨hop, _⟩
    obtain rfl : u = { t₁ with owned := false } := hop
    exact ⟨hI₁, trivial⟩
  intro released t₂ hI₂ _
  refine .bind (R := fun _ u => u.lock = false) (.perform hI₂ ?_) ?_
  · intro _ u ⟨hop, _⟩
    obtain rfl : u = { t₂ with lock := false } := hop
    exact ⟨hI₂, rfl⟩
  intro _ t₃ hI₃ hlock
  exact .ensure hI₃ (fun _ => hlock) fun _ => hlock

theorem survives_closeStore :
    Survives (behave F c) (fun t => Change P .close s.fs t.fs) (closeStore P) s
      (fun _ t => s.Leaves t) (fun _ t => s.Leaves t) := by
  unfold closeStore
  have hstart : Change P .close s.fs s.fs := .idle fun n _ _ => .refl n _
  refine .bind (R := fun _ t => t = s) (.perform hstart ?_) ?_
  · intro held t ⟨⟨_, hsame⟩, _⟩
    subst hsame
    exact ⟨hstart, rfl⟩
  intro held t _ hsame
  subst hsame
  split
  · refine survives_locked hstart fun _ => ?_
    have hclosed := survives_closeLocked (F := F) (c := c) (s := t) (t := { t with mu := some c })
      hstart
    -- a store that is closed is not open
    have hleaves : ∀ u : Site, u.lock = false → t.Leaves { u with mu := none } :=
      fun u hlock => ⟨fun _ => rfl, fun h => Bool.noConfusion (hlock.symm.trans h)⟩
    refine Prog.Guards.mono (fun _ h => h) ?_ hclosed.and_here
    intro value u ⟨hI, hvalue⟩
    cases value with
    | ok a | error e => exact ⟨hI, hleaves u hvalue⟩
  · exact .pure hstart (.refl t)

/-- **Wherever a call is cut off**, the directory has changed as `Change` says; a returned
value tells the truth, and the mutex is free again. -/
theorem survives_method (method : Method) (s : Site) :
    Survives (behave F c) (fun t => Change P method s.fs t.fs) (method.body P cfg) s
      (fun value t => Told P t.fs method value ∧ s.Leaves t) (fun _ t => s.Leaves t) := by
  have hstart : ∀ method, Change P method s.fs s.fs := fun _ => .idle fun n _ _ => .refl n _
  cases method with
  | issueChallenge body =>
    exact .map (survives_guarded (fun value fs => Told P fs _ (.challenge value))
      fun _ => survives_issueLocked body _)
  | accept upload =>
    exact .map (survives_guarded (fun value fs => Told P fs _ (.accepted value))
      fun _ => survives_acceptLocked upload _)
  | acknowledge record =>
    exact .map (.conseq (survives_acknowledge record s) (fun _ _ h => ⟨trivial, h.2⟩)
      fun _ _ h => h)
  | delete deletion =>
    exact .map (survives_guarded (fun value fs => Told P fs _ (.resolution value))
      fun _ => survives_deleteLocked deletion _)
  | openAccepted record =>
    refine .map (survives_locked (hstart _) fun _ => ?_)
    have hleaves : s.Leaves { s with mu := none } := ⟨fun _ => rfl, fun h => ⟨h, rfl⟩⟩
    refine .mono (survives_openLocked (.refl { s with mu := some c } : Cut P
      (.openAccepted record) _ _)) (fun _ h => h.change) ?_ ?_
    · intro content t ⟨hsame, _, f, hnow, hdata⟩
      subst hsame hdata
      exact ⟨hstart _, ⟨f, hnow, rfl⟩, hleaves⟩
    · intro e t ⟨hsame, _⟩
      subst hsame
      exact ⟨hstart _, hleaves⟩
  | close => exact .map (.conseq survives_closeStore (fun _ _ h => ⟨trivial, h⟩) fun _ _ h => h)

end TosAi.PrivateIngress
