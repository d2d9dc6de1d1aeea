/-
  What every run keeps.

  `Ledger` is about one directory: under a challenge name there is a record as the methods
  write them, or a file that lost its end.  `Follows` is what a record may become.  Both are
  read off `Change`, so a step of a run is looked at once (`Moved`).
-/
import TosAi.PrivateIngress.Methods

set_option autoImplicit false

namespace TosAi.PrivateIngress

open Foundation
open Foundation.Json (Bytes)

variable {P : Protocol} {cfg : Config} {F : Faults P}

/-! ## Records -/

/-- The name holds the record. -/
def Holds (P : Protocol) (fs : Fs FileName) (hex : String) (r : Record) : Prop :=
  fs.now (.challenge hex) = some (r.file P)

/-- What an accepted record says about its object. -/
structure Describes (P : Protocol) (a : Accepted) (content : Bytes) : Prop where
  digest : a.contentDigest = P.contentDigest content
  immutable : a.immutableObjectDigest = a.contentDigest
  bytes : a.plaintextBytes = UInt64.ofNat content.length
  length : content.length + 1 < 2 ^ 63

/-- A record as the methods write them. -/
structure Record.Sound (P : Protocol) (hex : String) (r : Record) : Prop where
  schema : r.schema = recordSchema
  name : hex = challengeName P r.challenge.body.handoffID
  key : r.encryptionPrivateKey = "" ↔ r.accepted.isSome
  authorization : ∀ a, r.accepted = some a → r.authorizationDigest = a.authorizationDigest
  content : ∀ a, r.accepted = some a → ∃ content, Describes P a content
  state : r.deletionState = "" ∨ r.deletionState = "deleting" ∨ r.deletionState = "deleted"
  journal : r.deletionState ≠ "" → r.accepted.isSome ∧ r.deletionActionID ≠ "" ∧
    r.deletionRequestDigest ≠ ""
  blank : r.deletionState = "" → r.deletionActionID = "" ∧ r.deletionRequestDigest = ""

/-- One step of a deletion. -/
inductive StateStep : String → String → Prop where
  | begin : StateStep "" "deleting"
  | finish : StateStep "deleting" "deleted"

/-- What a record may become. -/
structure Record.Follows (r r' : Record) : Prop where
  challenge : r'.challenge = r.challenge
  accepted : ∀ a, r.accepted = some a → r'.accepted = some a
  state : Relation.ReflTransGen StateStep r.deletionState r'.deletionState
  journal : r.deletionState ≠ "" → r'.deletionActionID = r.deletionActionID ∧
    r'.deletionRequestDigest = r.deletionRequestDigest

theorem Record.Follows.refl (r : Record) : r.Follows r :=
  ⟨rfl, fun _ h => h, .refl, fun _ => ⟨rfl, rfl⟩⟩

section Writing

variable {hex : String} {r : Record}

theorem sound_issued (hP : P.Lawful) {body : ChallengeBody} {challenge : Challenge} {key : String}
    (hsigned : Signed P body challenge) (hkey : key ≠ "") :
    (Record.issued challenge key).Sound P (challengeName P body.handoffID) := by
  obtain ⟨publicKey, signingKey, hsign⟩ := hsigned
  have hbody := hP.sign_body hsign
  refine ⟨rfl, ?_, ?_, (fun _ h => nomatch h), (fun _ h => nomatch h), .inl rfl,
    fun h => absurd rfl h, fun _ => ⟨rfl, rfl⟩⟩
  · rw [Record.issued, hbody]
  · exact ⟨fun h => absurd h hkey, fun h => nomatch h⟩

variable {a : Accepted} {authorizationDigest requestDigest : String} {deletion : Deletion}

/-- The library opened the content, so the accepted record describes it. -/
theorem Accepts.describes (hP : P.Lawful) {upload : Upload} {s : Fs FileName}
    {manifestDigest : String} {content : Bytes} {now : Time}
    (h : Accepts P upload s hex r authorizationDigest content) :
    Describes P (upload.accepted r.challenge content authorizationDigest manifestDigest now)
      content := by
  obtain ⟨seen, -, hopen⟩ := h.opened
  unfold openContent at hopen
  split at hopen
  · split at hopen
    · exact ⟨hP.content_digest hopen, rfl, rfl, hP.content_length hopen⟩
    · cases hopen
  · cases hopen

theorem sound_accepting (hP : P.Lawful) (hr : r.Sound P hex) {upload : Upload} {s : Fs FileName}
    {manifestDigest : String} {content : Bytes} {now : Time}
    (h : Accepts P upload s hex r authorizationDigest content) :
    (r.accepting (upload.accepted r.challenge content authorizationDigest manifestDigest now)
      authorizationDigest).Sound P hex where
  schema := hr.schema
  name := hr.name
  key := ⟨fun _ => rfl, fun _ => rfl⟩
  authorization := by
    intro a ha
    obtain rfl := Option.some.inj ha
    rfl
  content := by
    intro a ha
    obtain rfl := Option.some.inj ha
    exact ⟨content, h.describes hP⟩
  state := hr.state
  journal := by
    intro hstate
    have hsome := (hr.journal hstate).1
    rw [h.waiting] at hsome
    cases hsome
  blank := hr.blank

theorem follows_accepting (h : r.accepted = none) :
    r.Follows (r.accepting a authorizationDigest) := by
  refine ⟨rfl, fun a ha => ?_, .refl, fun _ => ⟨rfl, rfl⟩⟩
  rw [h] at ha
  cases ha

/-- The deletion has a name and a digest. -/
theorem Deletes.named (hP : P.Lawful) {s : Fs FileName}
    (h : Deletes P deletion s hex r a requestDigest) :
    deletion.action.stableActionID ≠ "" ∧ requestDigest ≠ "" := by
  obtain ⟨seen, hcheck⟩ := h.checked
  unfold deletionCheck at hcheck
  split at hcheck
  · rename_i canonical fields _
    split at hcheck
    · rename_i hverified
      refine ⟨hP.action_named hverified, ?_⟩
      obtain ⟨digest, hdigest, hne⟩ := hP.request_digest canonical
      rw [hdigest] at hcheck
      obtain rfl := Except.ok.inj hcheck
      exact hne
    · cases hcheck
  · cases hcheck

theorem sound_begun (hP : P.Lawful) (hr : r.Sound P hex) {s : Fs FileName}
    (h : Deletes P deletion s hex r a requestDigest) :
    (r.begun deletion.action.stableActionID requestDigest).Sound P hex := by
  unfold Record.begun
  split
  · rename_i hstate
    obtain ⟨haction, hrequest⟩ := h.named hP
    refine ⟨hr.schema, hr.name, hr.key, hr.authorization, hr.content, .inr (.inl rfl), ?_,
      fun hblank => absurd (show "deleting" = "" from hblank) (by decide)⟩
    intro _
    refine ⟨?_, haction, hrequest⟩
    rw [Record.deleting, h.holds]
    rfl
  · exact hr

/-- The journalled record is being deleted by this action and request. -/
theorem begun_deleting (hr : r.Sound P hex) {s : Fs FileName}
    (h : Deletes P deletion s hex r a requestDigest) :
    (r.begun deletion.action.stableActionID requestDigest).deletionState = "deleting" ∧
      (r.begun deletion.action.stableActionID requestDigest).deletionActionID =
        deletion.action.stableActionID ∧
      (r.begun deletion.action.stableActionID requestDigest).deletionRequestDigest =
        requestDigest := by
  unfold Record.begun
  split
  · exact ⟨rfl, rfl, rfl⟩
  · rename_i hstate
    have haction := (hr.journal hstate).2.1
    have hadmits := h.admits
    simp only [Record.admits, Bool.not_eq_true', Bool.and_eq_false_iff, bne_eq_false_iff_eq,
      Bool.or_eq_false_iff] at hadmits
    obtain hblank | ⟨hsame, hrequest⟩ := hadmits
    · exact absurd hblank haction
    · refine ⟨?_, hsame, hrequest⟩
      obtain hempty | hdeleting | hdeleted := hr.state
      · exact absurd hempty hstate
      · exact hdeleting
      · exact absurd hdeleted h.unfinished

theorem follows_begun (actionID requestDigest : String) :
    r.Follows (r.begun actionID requestDigest) := by
  unfold Record.begun
  split
  · rename_i hstate
    refine ⟨rfl, fun _ h => h, ?_, fun h => absurd hstate h⟩
    rw [hstate]
    exact .single .begin
  · exact .refl r

theorem sound_deleted (hr : r.Sound P hex) (hstate : r.deletionState = "deleting") (unix : UInt64) :
    (r.deleted unix).Sound P hex where
  schema := hr.schema
  name := hr.name
  key := hr.key
  authorization := hr.authorization
  content := hr.content
  state := .inr (.inr rfl)
  journal := fun _ => hr.journal (by rw [hstate]; decide)
  blank := fun hblank => absurd (show "deleted" = "" from hblank) (by decide)

theorem follows_deleted (hstate : r.deletionState = "deleting") (unix : UInt64) :
    r.Follows (r.deleted unix) := by
  refine ⟨rfl, fun _ h => h, ?_, fun _ => ⟨rfl, rfl⟩⟩
  rw [hstate]
  exact .single .finish

end Writing

theorem Record.Follows.trans {r r' r'' : Record} (h : r.Follows r') (h' : r'.Follows r'')
    (hjournal : r.deletionState ≠ "" → r'.deletionState ≠ "") : r.Follows r'' where
  challenge := h'.challenge.trans h.challenge
  accepted := fun a ha => h'.accepted a (h.accepted a ha)
  state := h.state.trans h'.state
  journal := by
    intro hstate
    obtain ⟨haction, hrequest⟩ := h.journal hstate
    obtain ⟨haction', hrequest'⟩ := h'.journal (hjournal hstate)
    exact ⟨haction'.trans haction, hrequest'.trans hrequest⟩

/-! ## Directories -/

/-- A read sees the same, and what was on the disk still is. -/
def Calm (n : FileName) (s t : Fs FileName) : Prop :=
  t.now n = s.now n ∧ ((s.slot n).loose = [] → (t.slot n).loose = [])

theorem Calm.of_still {n : FileName} {s t : Fs FileName} (h : Fs.Still n s t) : Calm n s t :=
  ⟨h.now, fun hloose => h.loose.trans hloose⟩

/-- Under every challenge name there is a sound record, or a file that lost its end. -/
def Ledger (P : Protocol) (fs : Fs FileName) : Prop :=
  ∀ hex f, fs.now (.challenge hex) = some f → Torn P f ∨
    ∃ r : Record, f = r.file P ∧ r.Sound P hex ∧
      (r.accepted.isSome → (fs.slot (.challenge hex)).loose = [])

/-- Records only move on. -/
def AllFollow (P : Protocol) (s t : Fs FileName) : Prop :=
  ∀ hex r, Holds P s hex r → ∃ r', Holds P t hex r' ∧ r.Follows r'

theorem ledger_empty : Ledger P .empty := fun _ _ h => nomatch h

theorem not_torn_file (r : Record) : ¬Torn P (r.file P) := by
  rintro ⟨r', k, hk, hfile⟩
  have hnone : (recordCodec P).unmarshal true ((r'.marshal P).take k) = none :=
    Json.Codec.unmarshal_truncated _ _ _ _ _ true (List.take_append_drop k (r'.marshal P)).symm
      (by simpa using hk)
  have hdata : r.marshal P = (r'.marshal P).take k := congrArg File.data hfile
  rw [← hdata, Record.marshal, Json.Codec.unmarshal_marshal] at hnone
  cases hnone

namespace Ledger

variable {fs : Fs FileName} {hex : String} {r : Record}

theorem of_holds (h : Ledger P fs) (hr : Holds P fs hex r) :
    r.Sound P hex ∧ (r.accepted.isSome → (fs.slot (.challenge hex)).loose = []) := by
  obtain htorn | ⟨r', hfile, hsound⟩ := h hex _ hr
  · exact absurd htorn (not_torn_file r)
  · obtain rfl := Record.file_injective hfile
    exact hsound

/-- What a reader finds is what the file holds. -/
theorem holds_of_found (h : Ledger P fs) (hr : Found P fs hex r) : Holds P fs hex r := by
  obtain ⟨f, hnow, hread⟩ := hr
  obtain htorn | ⟨r', rfl, hsound, -⟩ := h hex f hnow
  · exact absurd hread (not_readRecord_torn htorn)
  · rw [eq_of_readRecord_file hsound.schema hread]
    exact hnow

theorem holds_of_shows (h : Ledger P fs) (hr : Shows P fs hex r) : Holds P fs hex r := by
  obtain ⟨f, hnow, rfl | hread⟩ := hr
  · exact hnow
  · exact h.holds_of_found ⟨f, hnow, hread⟩

variable {t : Fs FileName}

theorem of_calm (h : Ledger P fs) (hcalm : ∀ hex, Calm (.challenge hex) fs t) : Ledger P t := by
  intro hex f hnow
  rw [(hcalm hex).1] at hnow
  refine (h hex f hnow).imp_right ?_
  rintro ⟨r, hfile, hsound, hloose⟩
  exact ⟨r, hfile, hsound, fun haccepted => (hcalm hex).2 (hloose haccepted)⟩

/-- One record is written. -/
theorem update (h : Ledger P fs) (hothers : ∀ hex', hex' ≠ hex → Calm (.challenge hex') fs t)
    (hholds : Holds P t hex r) (hsound : r.Sound P hex)
    (hloose : r.accepted.isSome → (t.slot (.challenge hex)).loose = []) : Ledger P t := by
  intro hex' f hnow
  by_cases hhex : hex' = hex
  · subst hhex
    rw [hholds] at hnow
    exact .inr ⟨r, (Option.some.inj hnow).symm, hsound, hloose⟩
  · rw [(hothers hex' hhex).1] at hnow
    refine (h hex' f hnow).imp_right ?_
    rintro ⟨r', hfile, hsound', hloose'⟩
    exact ⟨r', hfile, hsound', fun haccepted => (hothers hex' hhex).2 (hloose' haccepted)⟩

end Ledger

namespace AllFollow

variable {s t : Fs FileName} {hex : String} {r r' : Record}

theorem of_calm (hcalm : ∀ hex, Calm (.challenge hex) s t) : AllFollow P s t := by
  intro hex r hr
  exact ⟨r, (hcalm hex).1.trans hr, .refl r⟩

theorem update (hothers : ∀ hex', hex' ≠ hex → Calm (.challenge hex') s t)
    (hholds : Holds P s hex r) (hholds' : Holds P t hex r') (hfollows : r.Follows r') :
    AllFollow P s t := by
  intro hex' q hq
  by_cases hhex : hex' = hex
  · subst hhex
    have hfile : r.file P = q.file P := Option.some.inj (hholds.symm.trans hq)
    obtain rfl := Record.file_injective hfile
    exact ⟨r', hholds', hfollows⟩
  · exact ⟨q, (hothers hex' hhex).1.trans hq, .refl q⟩

end AllFollow

/-! ## One call -/

/-- The challenge names a call leaves alone. -/
theorem Alike.calm {N : FileName → Prop} {s t : Fs FileName} (h : Alike N s t) {hex : String}
    (hn : ¬N (.challenge hex)) : Calm (.challenge hex) s t :=
  .of_still (h _ hn fun _ _ h => nomatch h)

section Change

variable {method : Method} {s t : Fs FileName}

theorem Alike.calm_of_ne {hex hex' object : String}
    (h : Alike (fun n => n = .challenge hex ∨ n = .object object) s t) (hne : hex' ≠ hex) :
    Calm (.challenge hex') s t := by
  refine h.calm ?_
  rintro (hn | hn)
  · exact hne (FileName.challenge.inj hn)
  · cases hn

/-- What can be read of a record that is being written. -/
theorem Holds.eq_issued {hex key : String} {challenge : Challenge} {k : Nat} {r : Record}
    (hr : Holds P t hex r)
    (hnow : t.now (.challenge hex) =
      some ⟨0o600, ((Record.issued challenge key).marshal P).take k⟩) :
    r = Record.issued challenge key := by
  have hfile := Option.some.inj (hr.symm.trans hnow)
  obtain htorn | hwhole := torn_or_file (P := P) (Record.issued challenge key) k
  · exact absurd (hfile ▸ htorn) (not_torn_file r)
  · exact Record.file_injective (hfile.trans hwhole)

/-- The journalled record of a deletion, as it stands in the directory. -/
theorem holds_journal {hex requestDigest : String} {r : Record} {deletion : Deletion}
    (hr : Holds P s hex r)
    (h : t.now (.challenge hex) =
      journal P s hex r deletion.action.stableActionID requestDigest) :
    Holds P t hex (r.begun deletion.action.stableActionID requestDigest) := by
  unfold Holds Record.begun
  unfold journal at h
  split at h
  · rename_i hstate
    rw [h, if_pos hstate]
  · rename_i hstate
    rw [h, if_neg hstate]
    exact hr

/-- **A call keeps the ledger, and its records only move on.** -/
theorem ledger_of_change (hP : P.Lawful) (h : Ledger P s) (hchange : Change P method s t) :
    Ledger P t ∧ AllFollow P s t := by
  cases hchange with
  | idle hothers =>
    have hcalm : ∀ hex, Calm (.challenge hex) s t := fun _ => hothers.calm fun h => h
    exact ⟨h.of_calm hcalm, .of_calm hcalm⟩
  | @issuing body _ _ challenge key k hsigned hkey hfree hothers hnow =>
    have hcalm : ∀ hex', hex' ≠ challengeName P body.handoffID →
        Calm (.challenge hex') s t :=
      fun hex' hne => hothers.calm fun h => hne (FileName.challenge.inj h)
    constructor
    · intro hex f hf
      by_cases hhex : hex = challengeName P body.handoffID
      · subst hhex
        rw [show FileName.challenge (challengeName P body.handoffID) =
          challengePath P body.handoffID from rfl, hnow] at hf
        obtain rfl := Option.some.inj hf
        refine (torn_or_file _ k).imp_right fun hfile => ?_
        exact ⟨_, hfile, sound_issued hP hsigned hkey, fun h => nomatch h⟩
      · rw [(hcalm hex hhex).1] at hf
        refine (h hex f hf).imp_right ?_
        rintro ⟨r, hfile, hsound, hloose⟩
        exact ⟨r, hfile, hsound, fun haccepted => (hcalm hex hhex).2 (hloose haccepted)⟩
    · intro hex r hr
      refine ⟨r, (hcalm hex ?_).1.trans hr, .refl r⟩
      rintro rfl
      have hnone : s.now (.challenge (challengeName P body.handoffID)) = none := hfree
      rw [Holds, hnone] at hr
      cases hr
  | storing haccepts hothers hobject =>
    have hcalm : ∀ hex, Calm (.challenge hex) s t := fun _ => hothers.calm fun h => nomatch h
    exact ⟨h.of_calm hcalm, .of_calm hcalm⟩
  | @accepted upload _ _ hex _ _ r content _ haccepts hothers hstored hkept hnow hloose =>
    have hcalm : ∀ hex', hex' ≠ hex → Calm (.challenge hex') s t := fun _ => hothers.calm_of_ne
    have hr := h.holds_of_found haccepts.found
    have hsound := (h.of_holds hr).1
    exact ⟨h.update hcalm hnow (sound_accepting hP hsound haccepts) fun _ => hloose,
      .update hcalm hr hnow (follows_accepting haccepts.waiting)⟩
  | @journaled deletion _ _ hex requestDigest r a hdeletes hothers hjournal hobject =>
    have hcalm : ∀ hex', hex' ≠ hex → Calm (.challenge hex') s t := fun _ => hothers.calm_of_ne
    have hr := h.holds_of_found hdeletes.found
    obtain ⟨hsound, hloose⟩ := h.of_holds hr
    have hsome : r.accepted.isSome := by rw [hdeletes.holds]; rfl
    have hholds := holds_journal hr hjournal.1
    exact ⟨h.update hcalm hholds (sound_begun hP hsound hdeletes)
        fun _ => hjournal.2 (hloose hsome),
      .update hcalm hr hholds (follows_begun _ _)⟩
  | @deleted deletion _ _ hex requestDigest r a unix hdeletes hothers hnow hloose _ _ =>
    have hcalm : ∀ hex', hex' ≠ hex → Calm (.challenge hex') s t := fun _ => hothers.calm_of_ne
    have hr := h.holds_of_found hdeletes.found
    have hsound := (h.of_holds hr).1
    have hstate := (begun_deleting hsound hdeletes).1
    refine ⟨h.update hcalm hnow (sound_deleted (sound_begun hP hsound hdeletes) hstate unix)
        fun _ => hloose, .update hcalm hr hnow ?_⟩
    refine (follows_begun _ _).trans (follows_deleted hstate unix) fun _ => ?_
    rw [hstate]
    decide

end Change

/-! ## Steps -/

/-- What a step does to the directory. -/
inductive Moved (P : Protocol) (s t : Fs FileName) : Label P → Prop where
  | called {method : Method} {value : Except Err (Outcome P)} (hchange : Change P method s t)
      (htold : ∀ outcome, value = .ok outcome → Told P t method outcome) :
      Moved P s t (.called method value)
  | died {method : Method} (hchange : Change P method s t) : Moved P s t (.died method)
  | opened (hothers : Alike (· = .lock) s t) : Moved P s t .opened
  | openDied (hothers : Alike (· = .lock) s t) : Moved P s t .openDied
  | powerLoss (hcalm : ∀ hex, Calm (.challenge hex) s t) : Moved P s t .powerLoss

theorem survives_openStore {c : Nat} {s : Site} :
    Survives (behave F c) (fun t => Alike (· = .lock) s.fs t.fs) (openStore P cfg) s
      (fun _ t => t.mu = none ∧ t.key = cfg.signingKey)
      (fun _ t => t.mu = s.mu ∧ t.lock = s.lock ∧ t.key = s.key) := by
  unfold openStore
  have hstart : Alike (· = .lock) s.fs s.fs := fun n _ _ => .refl n _
  refine .bind (R := fun _ t => t = s)
    (.ensure hstart (fun _ => rfl) fun _ => ⟨rfl, rfl, rfl⟩) ?_
  intro _ t _ hsame
  subst hsame
  refine .bind (survives_ask hstart fun _ _ h => h) ?_
  intro made u _ hsame
  subst hsame
  refine .bind (R := fun _ t => t = u)
    (.ensure hstart (fun _ => rfl) fun _ => ⟨rfl, rfl, rfl⟩) ?_
  intro _ t _ hsame
  subst hsame
  refine .bind (survives_ask hstart fun _ _ h => h) ?_
  intro isPrivate u _ hsame
  subst hsame
  refine .bind (R := fun _ t => t = u)
    (.ensure hstart (fun _ => rfl) fun _ => ⟨rfl, rfl, rfl⟩) ?_
  intro _ t _ hsame
  subst hsame
  refine .bind (R := fun _ u => Alike (· = .lock) t.fs u.fs ∧ u.mu = t.mu ∧ u.lock = t.lock ∧
    u.key = t.key) (.perform hstart ?_) ?_
  · intro acquired u ⟨hop, _⟩
    obtain ⟨-, -, rfl⟩ | ⟨-, rfl⟩ := hop
    · have htouched : Alike (· = .lock) t.fs (touchLock c t.fs) := by
        unfold touchLock
        split
        · exact fun n hn _ => .modify_of_ne hn
        · exact hstart
      exact ⟨htouched, htouched, rfl, rfl, rfl⟩
    · exact ⟨hstart, hstart, rfl, rfl, rfl⟩
  intro acquired u hIu ⟨_, hsite⟩
  refine .bind (R := fun _ v => v = u) (.ensure hIu (fun _ => rfl) fun _ => hsite) ?_
  intro _ v _ hsame
  subst hsame
  refine .perform hIu ?_
  intro _ x ⟨hop, _⟩
  obtain rfl :
    x = { v with lock := true, key := cfg.signingKey, zeroed := false, mu := none } := hop
  exact ⟨hIu, rfl, rfl⟩

/-- A power loss does not touch records that have reached the disk. -/
theorem calm_reboot {fs : Fs FileName} {found : FileName → Option File}
    (hfound : ∀ n, found n ∈ fs.outcomes n) (hdurable : Durable fs) (hex : String) :
    Calm (.challenge hex) fs (fs.reboot found hfound) := by
  refine ⟨?_, fun _ => rfl⟩
  have hmem := hfound (.challenge hex)
  rw [hdurable hex, List.mem_singleton] at hmem
  exact hmem

variable {w w' : World P} {label : Label P}

/-- **What a step does.** -/
theorem moved_of_step (h : Step P cfg F w label w') :
    Moved P w.site.fs w'.site.fs label := by
  cases h with
  | opened _ hsteps => exact .opened (survives_openStore.cut hsteps)
  | openDied _ hsteps =>
    have hcut := survives_openStore.cut hsteps
    exact .openDied hcut
  | @called _ method site value hsteps =>
    refine .called ((survives_method method w.site).cut hsteps) ?_
    rintro outcome rfl
    exact ((survives_method method w.site).ends hsteps).1
  | died hsteps =>
    have hcut := (survives_method _ w.site).cut hsteps
    exact .died hcut
  | powerLoss hfound hdurable => exact .powerLoss (calm_reboot hfound hdurable)

/-- The mutex is free between calls, and an open store has the key it was given. -/
structure Site.Rests (cfg : Config) (s : Site) : Prop where
  free : s.mu = none
  armed : s.lock = true → s.key = cfg.signingKey

theorem Site.rests_dead (fs : Fs FileName) : (Site.dead fs).Rests cfg := ⟨rfl, fun h => nomatch h⟩

theorem Site.Rests.leaves {s t : Site} (h : s.Rests cfg) (hleaves : s.Leaves t) : t.Rests cfg where
  free := hleaves.free h.free
  armed := by
    intro hlock
    obtain ⟨hlock', hkey⟩ := hleaves.armed hlock
    exact hkey.trans (h.armed hlock')

theorem rests_of_step (h : Step P cfg F w label w') (hrests : w.site.Rests cfg) :
    w'.site.Rests cfg := by
  cases h with
  | @opened _ site value _ hsteps =>
    have hend := survives_openStore.ends hsteps
    cases value with
    | ok _ => exact ⟨hend.1, fun _ => hend.2⟩
    | error _ =>
      obtain ⟨hmu, hlock, hkey⟩ := hend
      exact ⟨hmu.trans hrests.free, fun h => hkey.trans (hrests.armed (hlock.symm.trans h))⟩
  | openDied _ _ => exact Site.rests_dead _
  | @called _ method site value hsteps =>
    have hend := (survives_method method w.site).ends hsteps
    cases value with
    | ok _ => exact hrests.leaves hend.2
    | error _ => exact hrests.leaves hend
  | died _ | powerLoss _ _ => exact Site.rests_dead _

theorem ledger_of_moved (hP : P.Lawful) {s t : Fs FileName} (h : Ledger P s)
    (hmoved : Moved P s t label) : Ledger P t ∧ AllFollow P s t := by
  cases hmoved with
  | called hchange _ | died hchange => exact ledger_of_change hP h hchange
  | opened hothers | openDied hothers =>
    have hcalm : ∀ hex, Calm (.challenge hex) s t := fun _ => hothers.calm fun h => nomatch h
    exact ⟨h.of_calm hcalm, .of_calm hcalm⟩
  | powerLoss hcalm => exact ⟨h.of_calm hcalm, .of_calm hcalm⟩

/-! ## What was returned before -/

/-- The directory still has what a returned value was about. -/
def Recorded (P : Protocol) (fs : Fs FileName) : Method → Outcome P → Prop
  | .issueChallenge body, .challenge challenge =>
    ∃ r, Holds P fs (challengeName P body.handoffID) r ∧ r.challenge = challenge
  | .accept _, .accepted a => ∃ hex r, Holds P fs hex r ∧ r.accepted = some a
  | .delete deletion, .resolution resolution =>
    ∃ hex r a, Holds P fs hex r ∧ r.hasDigest P deletion.challengeDigest = true ∧
      r.deletionState = "deleted" ∧ r.accepted = some a ∧
      r.deletionActionID = deletion.action.stableActionID ∧
      deletion.requestDigest P r.challenge a = .ok r.deletionRequestDigest ∧
      r.deletionActionID = resolution.stableActionID ∧
      r.deletionRequestDigest = resolution.exactRequestDigest
  | _, _ => True

theorem recorded_of_told {fs : Fs FileName} {method : Method} {outcome : Outcome P}
    (h : Ledger P fs) (htold : Told P fs method outcome) : Recorded P fs method outcome := by
  unfold Told at htold
  split at htold
  · obtain ⟨r, hr, hchallenge⟩ := htold
    exact ⟨r, h.holds_of_shows hr, hchallenge⟩
  · obtain ⟨hex, r, hr, haccepted⟩ := htold
    exact ⟨hex, r, h.holds_of_shows hr, haccepted⟩
  · obtain ⟨hex, r, a, hr, hdigest, haccepted, hstate, hnamed, hasked, hadmits⟩ := htold
    have hholds := h.holds_of_shows hr
    have haction := ((h.of_holds hholds).1.journal (by rw [hstate]; decide)).2.1
    simp only [Record.admits, Bool.not_eq_true', Bool.and_eq_false_iff, bne_eq_false_iff_eq,
      Bool.or_eq_false_iff] at hadmits
    obtain hblank | ⟨hsame, hrequest⟩ := hadmits
    · exact absurd hblank haction
    · exact ⟨hex, r, a, hholds, hdigest, hstate, haccepted, hsame, hrequest ▸ hasked,
        hsame.trans hnamed.symm, hrequest⟩
  · trivial
  · rename_i hissue haccept hdelete _
    unfold Recorded
    split
    · exact absurd rfl (hissue _ _ rfl)
    · exact absurd rfl (haccept _ _ rfl)
    · exact absurd rfl (hdelete _ _ rfl)
    · trivial

/-- A deleted record stays deleted. -/
theorem eq_deleted_of_steps {state : String}
    (h : Relation.ReflTransGen StateStep "deleted" state) : state = "deleted" := by
  induction h with
  | refl => rfl
  | tail _ hstep ih =>
    subst ih
    generalize hstart : "deleted" = start at hstep
    cases hstep with
    | begin | finish => exact absurd hstart (by decide)

theorem recorded_of_follow {s t : Fs FileName} {method : Method} {outcome : Outcome P}
    (h : Recorded P s method outcome) (hfollow : AllFollow P s t) :
    Recorded P t method outcome := by
  unfold Recorded at h ⊢
  split at h
  · obtain ⟨r, hr, hchallenge⟩ := h
    obtain ⟨r', hr', hfollows⟩ := hfollow _ r hr
    exact ⟨r', hr', hfollows.challenge.trans hchallenge⟩
  · obtain ⟨hex, r, hr, haccepted⟩ := h
    obtain ⟨r', hr', hfollows⟩ := hfollow hex r hr
    exact ⟨hex, r', hr', hfollows.accepted _ haccepted⟩
  · obtain ⟨hex, r, a, hr, hdigest, hstate, haccepted, hasked, hmade, haction, hrequest⟩ := h
    obtain ⟨r', hr', hfollows⟩ := hfollow hex r hr
    have hjournal := hfollows.journal (by rw [hstate]; decide)
    refine ⟨hex, r', a, hr', ?_, ?_, hfollows.accepted a haccepted, hjournal.1.trans hasked,
      ?_, hjournal.1.trans haction, hjournal.2.trans hrequest⟩
    · unfold Record.hasDigest at hdigest ⊢
      rw [hfollows.challenge]
      exact hdigest
    · have hmoves := hfollows.state
      rw [hstate] at hmoves
      exact eq_deleted_of_steps hmoves
    · rw [hfollows.challenge, hjournal.2]
      exact hmade
  · trivial

/-! ## Runs -/

/-- **What every run keeps.** -/
structure Inv (P : Protocol) (cfg : Config) (w : World P) : Prop where
  ledger : Ledger P w.site.fs
  recorded : ∀ method outcome, (method, outcome) ∈ w.history →
    Recorded P w.site.fs method outcome
  rests : w.site.Rests cfg

theorem inv_init : Inv P cfg World.init where
  ledger := ledger_empty
  recorded := fun _ _ h => nomatch h
  rests := Site.rests_dead _

theorem mem_history_of_step (h : Step P cfg F w label w') {entry : Method × Outcome P}
    (hentry : entry ∈ w'.history) :
    entry ∈ w.history ∨ label = .called entry.1 (.ok entry.2) := by
  cases h with
  | opened _ _ | openDied _ _ => exact .inl hentry
  | @called _ method site value hsteps =>
    cases value with
    | ok outcome =>
      rcases List.mem_cons.mp hentry with rfl | hentry
      · exact .inr rfl
      · exact .inl hentry
    | error _ => exact .inl hentry
  | died _ | powerLoss _ _ => exact .inl hentry

theorem inv_of_step (hP : P.Lawful) (h : Inv P cfg w) (hstep : Step P cfg F w label w') :
    Inv P cfg w' := by
  have hmoved := moved_of_step hstep
  obtain ⟨hledger, hfollow⟩ := ledger_of_moved hP h.ledger hmoved
  refine ⟨hledger, fun method outcome hmem => ?_, rests_of_step hstep h.rests⟩
  rcases mem_history_of_step hstep hmem with hbefore | rfl
  · exact recorded_of_follow (h.recorded method outcome hbefore) hfollow
  · cases hmoved with
    | called _ htold => exact recorded_of_told hledger (htold outcome rfl)

theorem inv_of_run (hP : P.Lawful) {A : World P → Label P → World P → Prop} (h : Inv P cfg w)
    (hrun : Run P cfg F A w w') : Inv P cfg w' := by
  induction hrun with
  | refl => exact h
  | tail _ hstep _ ih => exact inv_of_step hP ih hstep

end TosAi.PrivateIngress
