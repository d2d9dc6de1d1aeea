/-
  What the store guarantees about records, contents and acknowledgements.

  Records are journalled per handoff and objects are named after their content, so what a
  record promises depends on the other records of the same content.  The invariants here
  span all of them: as long as no deletion meets another record of its content, accepted
  content stays available; as long as no upload meets a deleted record of its content,
  erased content stays erased.
-/
import TosAi.PrivateIngress.Critical
import TosAi.PrivateIngress.Runs

set_option autoImplicit false

namespace TosAi.PrivateIngress

open Foundation
open Foundation.Json (Bytes Codec)

variable {P : Protocol} {cfg : Config} {F : Faults P} {c : Nat} {w w' : World P} {label : Label P}

/-- A run of any steps. -/
abbrev Reach (P : Protocol) (cfg : Config) (F : Faults P) : World P → World P → Prop :=
  Run P cfg F fun _ _ _ => True

/-- The objects a call leaves alone. -/
theorem Alike.object {N : FileName → Prop} {s t : Fs FileName} (h : Alike N s t) {digest : String}
    (hn : ¬N (objectPath digest)) : t.now (objectPath digest) = s.now (objectPath digest) :=
  (h _ hn fun _ _ h => nomatch h).now

/-! ## A sample -/

variable {method : Method}

section Sample

/-- Contents of up to 32 bytes are their own hash. -/
def sampleHash (content : Bytes) : Bytes := (content ++ List.replicate 32 0).take 32

def sampleChallengeCodec : Codec Challenge :=
  .struct (.optional "h" .string <| .optional "a" .string <| .optional "o" .string <|
      .optional "s" .string <| .optional "r" .string <| .optional "i" .string <|
      .optional "k" .string <| .optional "p" .string <| .optional "d" .uint64 <|
      .optional "t" .string <| .optional "proof" .string .nil)
    (fun c => (c.body.handoffID, c.body.agreementBodyDigest, c.body.obligationID,
      c.body.senderAgentID, c.body.receiverAgentID, c.body.ingressInstanceID,
      c.body.receiverEncryptionPublicKey, c.body.retentionPolicyDigest, c.body.deleteNotAfterUnix,
      c.body.terms, c.proof, ()))
    (fun (h, a, o, s, r, i, k, p, d, t, proof, ()) => ⟨⟨h, a, o, s, r, i, k, p, d, t⟩, proof⟩)
    (fun _ => rfl) (fun _ => rfl)

def sampleAcceptedCodec : Codec Accepted :=
  .struct (.optional "v" .uint64 <| .optional "h" .string <| .optional "c" .string <|
      .optional "a" .string <| .optional "u" .string <| .optional "s" .string <|
      .optional "x" .string <| .optional "m" .string <| .optional "n" .uint64 <|
      .optional "o" .string <| .optional "p" .string <| .optional "at" .uint64 <|
      .optional "d" .uint64 .nil)
    (fun a => (a.schemaVersion, a.handoffID, a.challengeDigest, a.authorizationDigest,
      a.uploadActionID, a.senderDisclosureActionID, a.contentDigest, a.contentManifestDigest,
      a.plaintextBytes, a.immutableObjectDigest, a.retentionPolicyDigest, a.acceptedAtUnix,
      a.deleteNotAfterUnix, ()))
    (fun (v, h, c, a, u, s, x, m, n, o, p, t, d, ()) => ⟨v, h, c, a, u, s, x, m, n, o, p, t, d⟩)
    (fun _ => rfl) (fun _ => rfl)

/-- A protocol that signs and verifies everything with a name, and does not encrypt. -/
def sampleProtocol (challengeDigest : ChallengeBody → String) : Protocol where
  Authority := Unit
  Resolver := Unit
  Acknowledgement := Unit
  sha256 := sampleHash
  challengeCodec := sampleChallengeCodec
  acceptedCodec := sampleAcceptedCodec
  accepted_ne_null := fun _ h => nomatch h
  signPrivateHandoffChallenge := fun body _ => .ok ⟨body, ""⟩
  privateHandoffChallengeDigest := fun body => .ok (challengeDigest body)
  privateHandoffAuthorizationDigest := fun _ => .ok "a"
  verifyWriterFence := fun _ _ _ _ => .ok ()
  confirmCurrentWriterFence := fun _ _ _ => .ok ()
  verifyAuthorizedAction := fun action _ _ _ _ _ =>
    if action.stableActionID = "" then .error .io else .ok ()
  digest := fun _ _ => .ok "m"
  marshalUpload := fun _ => .ok []
  marshalDelete := fun _ => .ok []
  exactRequestDigest := fun _ => .ok "q"
  openPrivateContent := fun _ authorization ciphertext _ _ _ =>
    if authorization.body.manifest.contentDigest = "sha256:" ++ hexEncode (sampleHash ciphertext) ∧
        ciphertext.length + 1 < 2 ^ 63 then .ok ciphertext
    else .error .io
  signPrivateHandoffAcknowledgement := fun _ _ _ => .ok ()

theorem lawful_sample (challengeDigest : ChallengeBody → String) :
    (sampleProtocol challengeDigest).Lawful where
  sha256_length := by
    intro content
    simp [sampleProtocol, sampleHash]
  sign_body := by
    intro body key challenge h
    obtain rfl := Except.ok.inj h
    rfl
  action_named := by
    intro action fields canonical fence authority now h
    simp only [sampleProtocol] at h
    split at h
    · cases h
    · assumption
  request_digest := fun _ => ⟨"q", rfl, by decide⟩
  content_digest := by
    intro challenge authorization ciphertext key resolver now content h
    simp only [sampleProtocol] at h
    split at h
    · rename_i hopened
      obtain rfl := Except.ok.inj h
      exact hopened.1
    · cases h
  content_length := by
    intro challenge authorization ciphertext key resolver now content h
    simp only [sampleProtocol] at h
    split at h
    · rename_i hopened
      obtain rfl := Except.ok.inj h
      exact hopened.2
    · cases h

/-- The digest of a challenge that names its handoff only. -/
def handoffDigest (body : ChallengeBody) : String :=
  "sha256:" ++ hexEncode (sampleHash (stringBytes body.handoffID))

abbrev handoffs : Protocol := sampleProtocol handoffDigest

def sampleConfig : Config := ⟨"/", "r", List.replicate 64 1⟩

def sampleBody (handoffID : String) : ChallengeBody :=
  ⟨handoffID, "", "", "", "r", "i", "", "", 0, ""⟩

/-- Every handoff is of the same content. -/
def sampleUpload (handoffID : String) : Upload where
  challengeDigest := handoffDigest (sampleBody handoffID)
  authorization :=
    ⟨⟨handoffDigest (sampleBody handoffID), "", 1, "", ⟨handoffs.contentDigest [7], ""⟩, ""⟩, ""⟩
  ciphertext := [7]
  action := ⟨"content.upload", "", "", "u", ""⟩
  fence := ⟨""⟩

def sampleDeletion (handoffID : String) : Deletion where
  challengeDigest := handoffDigest (sampleBody handoffID)
  action := ⟨"content.delete", "", "", "d", ""⟩
  fence := ⟨""⟩

/-- The record of a handoff, issued. -/
def sampleIssued (handoffID : String) : Record :=
  .issued ⟨{ sampleBody handoffID with receiverEncryptionPublicKey := base64RawURLEncode [1] }, ""⟩
    (base64RawURLEncode (List.replicate 32 1))

def sampleAccepted (handoffID : String) : Accepted :=
  (sampleUpload handoffID).accepted (sampleIssued handoffID).challenge [7] "a" "m" 0

/-- Accepted. -/
def sampleTaken (handoffID : String) : Record :=
  (sampleIssued handoffID).accepting (sampleAccepted handoffID) "a"

/-- And deleted. -/
def sampleErased (handoffID : String) : Record :=
  ((sampleTaken handoffID).deleting "d" "q").deleted 0

abbrev sampleObject : FileName := objectPath (handoffs.contentDigest [7])

theorem hasDigest_sample {r : Record} (handoffID : String)
    (h : r.challenge.body.handoffID = handoffID) :
    r.hasDigest handoffs (handoffDigest (sampleBody handoffID)) = true := by
  have htext : handoffDigest r.challenge.body = handoffDigest (sampleBody handoffID) := by
    rw [handoffDigest, h]
    rfl
  exact beq_iff_eq.mpr htext

instance : DecidableEq (Outcome handoffs) := by
  intro a b
  cases a <;> cases b <;> first
    | exact isTrue rfl
    | exact decidable_of_iff _ (Iff.of_eq (Outcome.challenge.injEq ..).symm)
    | exact decidable_of_iff _ (Iff.of_eq (Outcome.accepted.injEq ..).symm)
    | exact decidable_of_iff _ (Iff.of_eq (Outcome.content.injEq ..).symm)
    | exact decidable_of_iff _ (Iff.of_eq (Outcome.resolution.injEq ..).symm)
    | exact isFalse (fun h => nomatch h)

/-- What is chosen when a call is computed. -/
def sampleGiven : Given handoffs := ⟨some ⟨0, (), ()⟩, List.replicate 32 1, [1], rfl⟩

/-- The store has been opened for the first time. -/
def sampleOpened : World handoffs :=
  ⟨(Prog.rehearse (Op.choose sampleGiven 0) 10 (openStore handoffs sampleConfig).run
    (.dead .empty)).2, []⟩

theorem step_sampleOpened :
    Step handoffs sampleConfig (Op.healthy _) World.init .opened sampleOpened := by
  have hends : (Prog.rehearse (Op.choose sampleGiven 0) 10 (openStore handoffs sampleConfig).run
      (.dead .empty)).1.value?.isSome = true := by decide +kernel
  obtain ⟨value, hvalue⟩ := Option.isSome_iff_exists.mp hends
  have hsteps := Prog.steps_rehearse (B := behave (Op.healthy handoffs) 0)
    (fun o s r hchoose => behave_choose sampleGiven hchoose) 10
    (openStore handoffs sampleConfig).run (.dead .empty)
  rw [Prog.eq_ret_of_value? hvalue] at hsteps
  exact .opened (w := World.init) rfl hsteps

/-- A call in which nothing fails, computed. -/
def rehearsed (w : World handoffs) (method : Method) :
    Prog Op (Op.Res handoffs) (Except Err (Outcome handoffs)) × Site :=
  Prog.rehearse (Op.choose sampleGiven 0) 300 (method.body handoffs sampleConfig).run w.site

/-- What it returns, if it returns a value. -/
def returned (w : World handoffs) (method : Method) : Option (Outcome handoffs) :=
  match (rehearsed w method).1.value? with
  | some (.ok outcome) => some outcome
  | _ => none

/-- The world after it. -/
def World.after (w : World handoffs) (method : Method) : World handoffs :=
  ⟨(rehearsed w method).2, ((returned w method).map (method, ·)).toList ++ w.history⟩

theorem step_after {w : World handoffs} {outcome : Outcome handoffs}
    (h : returned w method = some outcome) :
    Step handoffs sampleConfig (Op.healthy _) w (.called method (.ok outcome))
      (w.after method) := by
  have hafter : w.after method = w.called (rehearsed w method).2 method (.ok outcome) := by
    rw [World.after, h]
    rfl
  have hvalue : (rehearsed w method).1.value? = some (.ok outcome) := by
    unfold returned at h
    split at h
    · obtain rfl := Option.some.inj h
      assumption
    · cases h
  have hsteps : Prog.Steps (behave (Op.healthy handoffs) 0)
      (method.body handoffs sampleConfig).run w.site (rehearsed w method).1
      (rehearsed w method).2 :=
    Prog.steps_rehearse (fun o s r hchoose => behave_choose sampleGiven hchoose) 300 _ _
  rw [Prog.eq_ret_of_value? hvalue] at hsteps
  rw [hafter]
  exact .called hsteps

/-- The directory has the records and no others. -/
def Lists (fs : Fs FileName) (records : List Record) : Prop :=
  ∀ n ∈ fs.listing, n = .lock ∨ n = sampleObject ∨
    ∃ r ∈ records, fs.now n = some (r.file handoffs)

theorem Lists.mem {fs : Fs FileName} {records : List Record} (h : Lists fs records) {hex : String}
    {r : Record} (hr : Holds handoffs fs hex r) : r ∈ records := by
  have hlisted : FileName.challenge hex ∈ fs.listing := by
    rw [Fs.mem_listing, hr]
    rfl
  obtain h | h | ⟨q, hq, hnow⟩ := h _ hlisted
  · cases h
  · cases h
  · rw [Record.file_injective (Option.some.inj (hr.symm.trans hnow))]
    exact hq

/-- Two handoffs are issued. -/
def sampleBefore : World handoffs :=
  (sampleOpened.after (.issueChallenge (sampleBody "b"))).after (.issueChallenge (sampleBody "a"))

/-- The content of one is accepted. -/
def sampleWorld : World handoffs := sampleBefore.after (.accept (sampleUpload "a"))

theorem returned_issueChallenge :
    returned sampleOpened (.issueChallenge (sampleBody "b")) =
        some (.challenge (sampleIssued "b").challenge) ∧
      returned (sampleOpened.after (.issueChallenge (sampleBody "b")))
        (.issueChallenge (sampleBody "a")) = some (.challenge (sampleIssued "a").challenge) := by
  decide +kernel

theorem lists_sampleBefore : Lists sampleBefore.site.fs [sampleIssued "a", sampleIssued "b"] := by
  unfold Lists
  decide +kernel

theorem returned_accept :
    returned sampleBefore (.accept (sampleUpload "a")) =
      some (.accepted (sampleAccepted "a")) := by
  decide +kernel

theorem step_sampleWorld :
    Step handoffs sampleConfig (Op.healthy _) sampleBefore
      (.called (.accept (sampleUpload "a")) (.ok (.accepted (sampleAccepted "a")))) sampleWorld :=
  step_after returned_accept

/-- The run so far, whatever is asked of its steps. -/
theorem run_sampleWorld {A : World handoffs → Label handoffs → World handoffs → Prop}
    (hopened : ∀ w w', A w .opened w')
    (hissued : ∀ w body value w', A w (.called (.issueChallenge body) value) w')
    (haccepted : A sampleBefore
      (.called (.accept (sampleUpload "a")) (.ok (.accepted (sampleAccepted "a")))) sampleWorld) :
    Run handoffs sampleConfig (Op.healthy _) A World.init sampleWorld :=
  .tail (.tail (.tail (.tail (.refl _) step_sampleOpened (hopened _ _))
    (step_after returned_issueChallenge.1) (hissued _ _ _ _))
    (step_after returned_issueChallenge.2) (hissued _ _ _ _)) step_sampleWorld haccepted

/-- It is deleted. -/
def sampleDeleted : World handoffs := sampleWorld.after (.delete (sampleDeletion "a"))

def sampleResolution : ActionResolution :=
  (sampleDeletion "a").resolution (sampleAccepted "a") "q"

theorem step_sampleDeleted :
    Step handoffs sampleConfig (Op.healthy _) sampleWorld
      (.called (.delete (sampleDeletion "a")) (.ok (.resolution sampleResolution)))
      sampleDeleted := by
  apply step_after
  decide +kernel

end Sample

/-- What a call has returned is in the history. -/
theorem mem_history_called {outcome : Outcome P}
    (h : Step P cfg F w (.called method (.ok outcome)) w') : (method, outcome) ∈ w'.history := by
  cases h with
  | called _ => exact List.mem_cons_self

/-- The calls return, and the process lives. -/
def Orderly (_ : World P) (label : Label P) (_ : World P) : Prop :=
  match label with
  | .opened | .called _ _ => True
  | .openDied | .died _ | .powerLoss => False

/-! ## Records -/

/-- A record that says `deleted` for the first time: the object is gone, and what a power loss
leaves is the same record or the journalled one. -/
structure Finished (P : Protocol) (fs : Fs FileName) (hex : String) (r : Record) : Prop where
  object : ∀ a, r.accepted = some a → fs.now (objectPath a.contentDigest) = none
  journal : ∀ o ∈ fs.outcomes (.challenge hex), ∃ q : Record, o = some (q.file P) ∧
    (q.deletionState = "deleting" ∨ q.deletionState = "deleted") ∧
    q.deletionActionID = r.deletionActionID ∧ q.deletionRequestDigest = r.deletionRequestDigest

theorem finished_of_change {s t : Fs FileName} (h : Ledger P s)
    (hchange : Change P method s t) {hex : String} {r : Record} (hr : Holds P t hex r)
    (hdeleted : r.deletionState = "deleted")
    (hbefore : ∀ q, Holds P s hex q → q.deletionState ≠ "deleted") : Finished P t hex r := by
  -- a name that was left alone held the same record before
  have hcalm : ¬Calm (.challenge hex) s t := by
    intro hcalm
    exact hbefore r (hcalm.1.symm.trans hr) hdeleted
  cases hchange with
  | idle hothers => exact absurd (hothers.calm fun h => h) hcalm
  | @issuing body _ _ challenge key k _ _ _ hothers hnow =>
    by_cases hhex : hex = challengeName P body.handoffID
    · subst hhex
      obtain rfl := hr.eq_issued hnow
      exact absurd (show "" = "deleted" from hdeleted) (by decide)
    · exact absurd (hothers.calm fun h => hhex (FileName.challenge.inj h)) hcalm
  | storing _ hothers _ => exact absurd (hothers.calm fun h => nomatch h) hcalm
  | @accepted _ _ _ hex' _ _ q _ _ haccepts hothers _ _ hnow _ =>
    by_cases hhex : hex = hex'
    · subst hhex
      obtain rfl := Record.file_injective (Option.some.inj (hr.symm.trans hnow))
      exact absurd hdeleted (hbefore q (h.holds_of_found haccepts.found))
    · exact absurd (hothers.calm_of_ne hhex) hcalm
  | @journaled deletion _ _ hex' requestDigest q a hdeletes hothers hjournal _ =>
    by_cases hhex : hex = hex'
    · subst hhex
      have hq := h.holds_of_found hdeletes.found
      obtain rfl := Record.file_injective
        (Option.some.inj (hr.symm.trans (holds_journal hq hjournal.1)))
      rw [(begun_deleting (h.of_holds hq).1 hdeletes).1] at hdeleted
      exact absurd hdeleted (by decide)
    · exact absurd (hothers.calm_of_ne hhex) hcalm
  | @deleted deletion _ _ hex' requestDigest q a unix hdeletes hothers hnow _ hobject hjournal =>
    by_cases hhex : hex = hex'
    · subst hhex
      have hq := h.holds_of_found hdeletes.found
      obtain ⟨hsound, hloose⟩ := h.of_holds hq
      have hsome : q.accepted.isSome := by rw [hdeletes.holds]; rfl
      have hstate := (begun_deleting hsound hdeletes).1
      obtain rfl := Record.file_injective (Option.some.inj (hr.symm.trans hnow))
      refine ⟨fun a' ha' => ?_, fun o ho => ?_⟩
      · rw [Record.deleted, Record.begun_accepted, hdeletes.holds] at ha'
        obtain rfl := Option.some.inj ha'
        exact hobject
      · obtain rfl | rfl := hjournal (hloose hsome) o ho
        · exact ⟨_, hnow, .inr rfl, rfl, rfl⟩
        · refine ⟨_, ?_, .inl hstate, rfl, rfl⟩
          unfold journal Record.begun
          split
          · rfl
          · exact hq
    · exact absurd (hothers.calm_of_ne hhex) hcalm

/-- **The life of a record.**  Every record is sound, records only move on, a deletion returns
only to the action and the request its record has, and a record first says `deleted` with its
object gone and its journal on the disk. -/
theorem record_invariant (hP : P.Lawful) (hrun : Reach P cfg F World.init w) :
    (∀ hex f, w.site.fs.now (.challenge hex) = some f → Torn P f ∨
      ∃ r : Record, f = r.file P ∧ r.Sound P hex) ∧
    (∀ deletion resolution, (.delete deletion, .resolution resolution) ∈ w.history →
      ∃ hex r a, Holds P w.site.fs hex r ∧ r.hasDigest P deletion.challengeDigest = true ∧
        r.deletionState = "deleted" ∧ r.accepted = some a ∧
        r.deletionActionID = deletion.action.stableActionID ∧
        deletion.requestDigest P r.challenge a = .ok r.deletionRequestDigest ∧
        r.deletionActionID = resolution.stableActionID ∧
        r.deletionRequestDigest = resolution.exactRequestDigest) ∧
    (∀ label w', Step P cfg F w label w' →
      (∀ hex r, Holds P w.site.fs hex r →
        ∃ r', Holds P w'.site.fs hex r' ∧ r.Follows r') ∧
      ∀ hex r, Holds P w'.site.fs hex r → r.deletionState = "deleted" →
        (∀ q, Holds P w.site.fs hex q → q.deletionState ≠ "deleted") →
        Finished P w'.site.fs hex r) := by
  have h : Inv P cfg w := inv_of_run hP inv_init hrun
  refine ⟨fun hex f hf => ?_, fun deletion resolution hmem => h.recorded _ _ hmem,
    fun label w' hstep => ⟨?_, fun hex r hr hdeleted hbefore => ?_⟩⟩
  · refine (h.ledger hex f hf).imp_right ?_
    rintro ⟨r, hfile, hsound, -⟩
    exact ⟨r, hfile, hsound⟩
  · exact (ledger_of_moved hP h.ledger (moved_of_step hstep)).2
  · have hcalm : ¬Calm (.challenge hex) w.site.fs w'.site.fs := by
      intro hcalm
      exact hbefore r (hcalm.1.symm.trans hr) hdeleted
    cases moved_of_step hstep with
    | called hchange _ => exact finished_of_change h.ledger hchange hr hdeleted hbefore
    | died hchange => exact finished_of_change h.ledger hchange hr hdeleted hbefore
    | opened hothers | openDied hothers => exact absurd (hothers.calm fun h => nomatch h) hcalm
    | powerLoss hall => exact absurd (hall hex) hcalm

/-- A handoff is accepted and deleted. -/
theorem record_invariant_deleted :
    ∃ w resolution, Reach handoffs sampleConfig (Op.healthy _) World.init w ∧
      (.delete (sampleDeletion "a"), .resolution resolution) ∈ w.history ∧
      ∃ hex r, Holds handoffs w.site.fs hex r ∧ r.deletionState = "deleted" ∧
        r.deletionActionID = (sampleDeletion "a").action.stableActionID := by
  have hreach : Reach handoffs sampleConfig (Op.healthy _) World.init sampleDeleted :=
    .tail (run_sampleWorld (fun _ _ => trivial) (fun _ _ _ _ => trivial) trivial)
      step_sampleDeleted trivial
  have hmem := mem_history_called step_sampleDeleted
  obtain ⟨hex, r, a, hr, -, hdeleted, -, haction, -⟩ :=
    (record_invariant (lawful_sample _) hreach).2.1 _ _ hmem
  exact ⟨_, _, hreach, hmem, hex, r, hr, hdeleted, haction⟩

/-! ## Available content -/

/-- The object of the record is there, and is what the record describes. -/
def Stocked (P : Protocol) (fs : Fs FileName) (a : Accepted) : Prop :=
  ∃ f, fs.now (objectPath a.contentDigest) = some f ∧ Describes P a f.data

/-- Every accepted content that is not being deleted is there. -/
def AllStocked (P : Protocol) (fs : Fs FileName) : Prop :=
  ∀ hex r a, Holds P fs hex r → r.accepted = some a → r.deletionState = "" → Stocked P fs a

/-- No other record needs the content that is deleted. -/
def Unshared (P : Protocol) (fs : Fs FileName) (deletion : Deletion) : Prop :=
  ∀ hex r a, Holds P fs hex r → r.hasDigest P deletion.challengeDigest = true →
    r.accepted = some a → ∀ hex' r' a', hex' ≠ hex → Holds P fs hex' r' →
      r'.accepted = some a' → r'.deletionState = "" → a'.contentDigest ≠ a.contentDigest

/-- Of the steps, each deletion meets no other record of its content. -/
def Spares (w : World P) (label : Label P) (_ : World P) : Prop :=
  match label with
  | .called (.delete deletion) _ | .died (.delete deletion) => Unshared P w.site.fs deletion
  | .powerLoss => False
  | _ => True

section Stock

variable {s t : Fs FileName} {a : Accepted}

theorem Stocked.of_now (h : Stocked P s a)
    (hnow : t.now (objectPath a.contentDigest) = s.now (objectPath a.contentDigest)) :
    Stocked P t a := by
  obtain ⟨f, hf, hdescribes⟩ := h
  exact ⟨f, hnow.trans hf, hdescribes⟩

/-- An object that was there is not a new one. -/
theorem Stocked.ne_none (h : Stocked P s a) : s.now (objectPath a.contentDigest) ≠ none := by
  obtain ⟨f, hf, -⟩ := h
  rw [hf]
  exact fun h => nomatch h

/-- A record whose name was left alone is still there. -/
theorem Calm.holds {hex : String} {r : Record} (h : Calm (.challenge hex) s t)
    (hr : Holds P t hex r) : Holds P s hex r := h.1.symm.trans hr

/-- Records that describe an object of the same name have the same digest. -/
theorem contentDigest_eq {a' : Accepted} {content content' : Bytes}
    (h : Describes P a content) (h' : Describes P a' content')
    (hpath : objectPath a.contentDigest = objectPath a'.contentDigest) :
    a.contentDigest = a'.contentDigest := by
  rw [h.digest, h'.digest] at hpath ⊢
  exact contentDigest_eq_of_objectPath hpath

theorem allStocked_of_deletes {deletion : Deletion} {hex requestDigest : String} {r r' : Record}
    (h : Ledger P s) (hstock : AllStocked P s) (hunshared : Unshared P s deletion)
    (hdeletes : Deletes P deletion s hex r a requestDigest)
    (hothers : Alike (fun n => n = .challenge hex ∨ n = objectPath a.contentDigest) s t)
    (hholds : Holds P t hex r') (hstate : r'.deletionState ≠ "") : AllStocked P t := by
  intro hex' q a' hq haccepted hblank
  by_cases hhex : hex' = hex
  · subst hhex
    obtain rfl := Record.file_injective (Option.some.inj (hholds.symm.trans hq))
    exact absurd hblank hstate
  · have hq' := (hothers.calm_of_ne hhex).holds hq
    refine (hstock hex' q a' hq' haccepted hblank).of_now (hothers.object ?_)
    rintro (hpath | hpath)
    · cases hpath
    · have hr := h.holds_of_found hdeletes.found
      obtain ⟨content, hdescribes⟩ := (h.of_holds hr).1.content a hdeletes.holds
      obtain ⟨content', hdescribes'⟩ := (h.of_holds hq').1.content a' haccepted
      exact hunshared hex r a hr hdeletes.digest hdeletes.holds hex' q a' hhex hq' haccepted hblank
        (contentDigest_eq hdescribes' hdescribes hpath)

theorem allStocked_of_change (hP : P.Lawful) (h : Ledger P s) (hstock : AllStocked P s)
    (hspares : ∀ deletion, method = .delete deletion → Unshared P s deletion)
    (hchange : Change P method s t) : AllStocked P t := by
  cases hchange with
  | idle hothers =>
    intro hex r a hr haccepted hblank
    exact (hstock hex r a ((hothers.calm fun h => h).holds hr) haccepted hblank).of_now
      (hothers.object fun h => h)
  | @issuing body _ _ challenge key k _ _ _ hothers hnow =>
    intro hex r a hr haccepted hblank
    by_cases hhex : hex = challengeName P body.handoffID
    · subst hhex
      obtain rfl := hr.eq_issued hnow
      cases haccepted
    · exact (hstock hex r a ((hothers.calm fun h => hhex (FileName.challenge.inj h)).holds hr)
        haccepted hblank).of_now (hothers.object fun h => nomatch h)
  | @storing upload _ _ _ _ _ _ _ hothers hobject =>
    intro hex r a hr haccepted hblank
    have hbefore := hstock hex r a ((hothers.calm fun h => nomatch h).holds hr) haccepted hblank
    by_cases hpath : objectPath a.contentDigest = upload.object
    · obtain hsame | ⟨hnone, -⟩ := hobject
      · refine hbefore.of_now ?_
        rw [hpath]
        exact hsame
      · exact absurd (hpath ▸ hnone) hbefore.ne_none
    · exact hbefore.of_now (hothers.object hpath)
  | @accepted upload _ _ hex' _ _ q content _ haccepts hothers hstored hkept hnow _ =>
    intro hex r a hr haccepted hblank
    by_cases hhex : hex = hex'
    · subst hhex
      obtain rfl := Record.file_injective (Option.some.inj (hr.symm.trans hnow))
      obtain rfl := Option.some.inj haccepted
      obtain ⟨f, hf, rfl⟩ := hstored
      exact ⟨f, hf, haccepts.describes hP⟩
    · have hbefore := hstock hex r a ((hothers.calm_of_ne hhex).holds hr) haccepted hblank
      by_cases hpath : objectPath a.contentDigest = upload.object
      · obtain hnone | hsame := hkept
        · exact absurd (hpath ▸ hnone) hbefore.ne_none
        · refine hbefore.of_now ?_
          rw [hpath]
          exact hsame
      · exact hbefore.of_now (hothers.object fun h => h.elim (fun h => nomatch h) hpath)
  | @journaled deletion _ _ hex requestDigest r a hdeletes hothers hjournal _ =>
    have hr := h.holds_of_found hdeletes.found
    refine allStocked_of_deletes h hstock (hspares deletion rfl) hdeletes hothers
      (holds_journal hr hjournal.1) ?_
    rw [(begun_deleting (h.of_holds hr).1 hdeletes).1]
    decide
  | @deleted deletion _ _ hex requestDigest r a unix hdeletes hothers hnow _ _ _ =>
    refine allStocked_of_deletes h hstock (hspares deletion rfl) hdeletes hothers hnow ?_
    exact (by decide : "deleted" ≠ "")

end Stock

theorem allStocked_of_step (hP : P.Lawful) (h : Inv P cfg w) (hstock : AllStocked P w.site.fs)
    (hstep : Step P cfg F w label w') (hspares : Spares w label w') : AllStocked P w'.site.fs := by
  cases moved_of_step hstep with
  | @called method _ hchange _ | @died method hchange =>
    refine allStocked_of_change hP h.ledger hstock ?_ hchange
    rintro deletion rfl
    exact hspares
  | opened hothers | openDied hothers =>
    intro hex r a hr haccepted hblank
    exact (hstock hex r a ((hothers.calm fun h => nomatch h).holds hr) haccepted hblank).of_now
      (hothers.object fun h => nomatch h)
  | powerLoss _ => exact hspares.elim

theorem allStocked_of_run (hP : P.Lawful) (h : Inv P cfg w) (hstock : AllStocked P w.site.fs)
    (hrun : Run P cfg F Spares w w') : AllStocked P w'.site.fs := by
  induction hrun with
  | refl => exact hstock
  | tail hrun hstep hspares ih =>
    exact allStocked_of_step hP (inv_of_run hP h hrun) ih hstep hspares

/-- The copy reads all of a content that is not too long. -/
theorem take_copyLimit {content : Bytes} (h : content.length + 1 < 2 ^ 63) :
    content.take (copyLimit (UInt64.ofNat content.length)) = content := by
  have hnat : (UInt64.ofNat content.length).toNat = content.length := by
    rw [UInt64.toNat_ofNat']
    omega
  have hlimit : copyLimit (UInt64.ofNat content.length) = content.length + 1 := by
    unfold copyLimit toInt64 wrap64
    rw [hnat]
    omega
  rw [hlimit]
  exact List.take_of_length_le (Nat.le_succ _)

theorem Stocked.available {fs : Fs FileName} {a : Accepted} (hP : P.Lawful)
    (h : Stocked P fs a) : Available P fs a := by
  obtain ⟨f, hnow, hdescribes⟩ := h
  refine ⟨?_, hdescribes.immutable, f, hnow, hdescribes.bytes.symm, ?_⟩
  · rw [hdescribes.digest]
    exact canonicalDigest_contentDigest hP _
  · rw [hdescribes.bytes, take_copyLimit hdescribes.length, hdescribes.digest]

/-- A record whose object is there is opened. -/
theorem ends_openAccepted (hP : P.Lawful) {s : Site} {a : Accepted} (hfree : s.mu = none)
    (hstocked : Stocked P s.fs a) :
    Ends (behave (Op.healthy P) c) (openAccepted P a) s
      (fun content _ => P.contentDigest content = a.contentDigest) (fun _ _ => False) := by
  refine ends_locked (fun _ => ⟨trivial, trivial⟩) hfree ?_
  refine Prog.Guards.always_of_uses (A := Op.Plain) (fun _ => exists_healthy)
    (uses_openLocked reading_plain a)
    (Survives.conseq (survives_openLocked (I := fun _ => True) trivial) ?_ ?_)
  · intro content t ⟨_, _, f, hnow, hdata⟩
    obtain ⟨f', hnow', hdescribes⟩ := hstocked
    obtain rfl := Option.some.inj (hnow.symm.trans hnow')
    rw [← hdata]
    exact hdescribes.digest.symm
  · intro e t ⟨_, hunavailable⟩
    exact hunavailable sane_healthy (hstocked.available hP)

/-- Without its object it is not. -/
theorem ends_openAccepted_refused {s : Site} {a : Accepted} (hfree : s.mu = none)
    (hgone : s.fs.now (objectPath a.contentDigest) = none) :
    Ends (behave (Op.healthy P) c) (openAccepted P a) s (fun _ _ => False) (fun _ _ => True) := by
  refine ends_locked (fun _ => ⟨trivial, trivial⟩) hfree ?_
  refine Prog.Guards.always_of_uses (A := Op.Plain) (fun _ => exists_healthy)
    (uses_openLocked reading_plain a)
    (Survives.conseq (survives_openLocked (I := fun _ => True) trivial) ?_ fun _ _ _ => trivial)
  intro content t ⟨_, _, f, hnow, _⟩
  rw [hgone] at hnow
  cases hnow

/-- **Accepted content is available** until its own deletion begins, in every run in which
each deletion meets no other record of its content. -/
theorem accepted_available (hP : P.Lawful) (hrun : Run P cfg F Spares World.init w)
    {hex : String} {r : Record} {a : Accepted} (hr : Holds P w.site.fs hex r)
    (haccepted : r.accepted = some a) (hblank : r.deletionState = "") :
    Ends (behave (Op.healthy P) c) (openAccepted P a) w.site
      (fun content _ => P.contentDigest content = a.contentDigest) (fun _ _ => False) := by
  have hinv : Inv P cfg w := inv_of_run hP inv_init hrun
  have hstocked := allStocked_of_run hP inv_init (fun _ _ _ h => nomatch h) hrun hex r a hr
    haccepted hblank
  exact ends_openAccepted hP hinv.rests.free hstocked

/-- The content of a handoff is available after its upload. -/
theorem accepted_available_uploaded :
    ∃ w hex r a, Run handoffs sampleConfig (Op.healthy _) Spares World.init w ∧
      Holds handoffs w.site.fs hex r ∧ r.accepted = some a ∧ r.deletionState = "" ∧
      Ends (behave (Op.healthy _) 0) (openAccepted handoffs a) w.site
        (fun content _ => handoffs.contentDigest content = a.contentDigest)
        (fun _ _ => False) := by
  have hrun : Run handoffs sampleConfig (Op.healthy _) Spares World.init sampleWorld :=
    run_sampleWorld (fun _ _ => trivial) (fun _ _ _ _ => trivial) trivial
  have hr : Holds handoffs sampleWorld.site.fs (challengeName handoffs "a") (sampleTaken "a") := by
    unfold Holds
    decide +kernel
  exact ⟨_, _, sampleTaken "a", sampleAccepted "a", hrun, hr, rfl, rfl,
    accepted_available (lawful_sample _) hrun hr rfl rfl⟩

/-- The other handoff is accepted, and then the first one deleted. -/
def sampleShared : World handoffs := sampleWorld.after (.accept (sampleUpload "b"))

theorem sampleShared_deleted :
    returned sampleWorld (.accept (sampleUpload "b")) =
        some (.accepted (sampleAccepted "b")) ∧
      returned sampleShared (.delete (sampleDeletion "a")) =
        some (.resolution sampleResolution) ∧
      Holds handoffs (sampleShared.after (.delete (sampleDeletion "a"))).site.fs
        (challengeName handoffs "b") (sampleTaken "b") ∧
      (sampleShared.after (.delete (sampleDeletion "a"))).site.fs.now sampleObject = none := by
  unfold Holds
  decide +kernel

/-- **A deletion takes the content of another handoff**: two handoffs of the same content are
accepted, one is deleted, and the other cannot be opened any more. -/
theorem deletion_takes_shared_content :
    ∃ w hex r a, Run handoffs sampleConfig (Op.healthy _) Orderly World.init w ∧
      Holds handoffs w.site.fs hex r ∧ r.accepted = some a ∧ r.deletionState = "" ∧
      Ends (behave (Op.healthy _) 0) (openAccepted handoffs a) w.site (fun _ _ => False)
        (fun _ _ => True) := by
  obtain ⟨haccepted, hdeleted, hr, hgone⟩ := sampleShared_deleted
  have hrun : Run handoffs sampleConfig (Op.healthy _) Orderly World.init
      (sampleShared.after (.delete (sampleDeletion "a"))) :=
    .tail (.tail (run_sampleWorld (fun _ _ => trivial) (fun _ _ _ _ => trivial) trivial)
      (step_after haccepted) trivial) (step_after hdeleted) trivial
  have hinv : Inv handoffs sampleConfig _ := inv_of_run (lawful_sample _) inv_init hrun
  exact ⟨_, _, sampleTaken "b", sampleAccepted "b", hrun, hr, rfl, rfl,
    ends_openAccepted_refused hinv.rests.free hgone⟩

/-! ## Erased content -/

/-- The object of every deleted record is gone. -/
def AllErased (P : Protocol) (fs : Fs FileName) : Prop :=
  ∀ hex r a, Holds P fs hex r → r.accepted = some a → r.deletionState = "deleted" →
    fs.now (objectPath a.contentDigest) = none

/-- No deleted record is of the content that is uploaded. -/
def Unerased (P : Protocol) (fs : Fs FileName) (upload : Upload) : Prop :=
  ∀ hex r a, Holds P fs hex r → r.accepted = some a → r.deletionState = "deleted" →
    a.contentDigest ≠ upload.authorization.body.manifest.contentDigest

/-- Of the steps, each upload meets no deleted record of its content. -/
def Respects (w : World P) (label : Label P) (_ : World P) : Prop :=
  match label with
  | .called (.accept upload) _ | .died (.accept upload) => Unerased P w.site.fs upload
  | .powerLoss => False
  | _ => True

section Erasure

variable {s t : Fs FileName}

/-- The object an upload may create is not that of a deleted record. -/
theorem Accepts.object_ne (hP : P.Lawful) {upload : Upload} {hex authorizationDigest : String}
    {r q : Record} {content : Bytes} {a : Accepted} (h : Ledger P s)
    (haccepts : Accepts P upload s hex r authorizationDigest content)
    (hrespects : Unerased P s upload) {hex' : String} (hq : Holds P s hex' q)
    (haccepted : q.accepted = some a) (hdeleted : q.deletionState = "deleted") :
    objectPath a.contentDigest ≠ upload.object := by
  intro hpath
  obtain ⟨content', hdescribes'⟩ := (h.of_holds hq).1.content a haccepted
  have hdescribes : Describes P (upload.accepted r.challenge content authorizationDigest "" 0)
      content := haccepts.describes hP
  exact hrespects hex' q a hq haccepted hdeleted (contentDigest_eq hdescribes' hdescribes hpath)

theorem allErased_of_change (hP : P.Lawful) (h : Ledger P s) (herased : AllErased P s)
    (hrespects : ∀ upload, method = .accept upload → Unerased P s upload)
    (hchange : Change P method s t) : AllErased P t := by
  cases hchange with
  | idle hothers =>
    intro hex r a hr haccepted hdeleted
    rw [hothers.object fun h => h]
    exact herased hex r a ((hothers.calm fun h => h).holds hr) haccepted hdeleted
  | @issuing body _ _ challenge key k _ _ _ hothers hnow =>
    intro hex r a hr haccepted hdeleted
    by_cases hhex : hex = challengeName P body.handoffID
    · subst hhex
      obtain rfl := hr.eq_issued hnow
      cases haccepted
    · rw [hothers.object fun h => nomatch h]
      exact herased hex r a
        ((hothers.calm fun h => hhex (FileName.challenge.inj h)).holds hr) haccepted hdeleted
  | @storing upload _ _ _ _ _ _ haccepts hothers _ =>
    intro hex r a hr haccepted hdeleted
    have hbefore := (hothers.calm fun h => nomatch h).holds hr
    rw [hothers.object (haccepts.object_ne hP h (hrespects upload rfl) hbefore haccepted
      hdeleted)]
    exact herased hex r a hbefore haccepted hdeleted
  | @accepted upload _ _ hex' _ _ q _ _ haccepts hothers _ _ hnow _ =>
    intro hex r a hr haccepted hdeleted
    by_cases hhex : hex = hex'
    · subst hhex
      obtain rfl := Record.file_injective (Option.some.inj (hr.symm.trans hnow))
      have hjournal := (h.of_holds (h.holds_of_found haccepts.found)).1.journal
      have hsome := (hjournal (by rw [show q.deletionState = "deleted" from hdeleted]; decide)).1
      rw [haccepts.waiting] at hsome
      cases hsome
    · have hbefore := (hothers.calm_of_ne hhex).holds hr
      have hne := haccepts.object_ne hP h (hrespects upload rfl) hbefore haccepted hdeleted
      rw [hothers.object fun h => h.elim (fun h => nomatch h) hne]
      exact herased hex r a hbefore haccepted hdeleted
  | @journaled deletion _ _ hex' requestDigest q a' hdeletes hothers hjournal hobject =>
    intro hex r a hr haccepted hdeleted
    have hq := h.holds_of_found hdeletes.found
    by_cases hhex : hex = hex'
    · subst hhex
      obtain rfl := Record.file_injective
        (Option.some.inj (hr.symm.trans (holds_journal hq hjournal.1)))
      rw [(begun_deleting (h.of_holds hq).1 hdeletes).1] at hdeleted
      exact absurd hdeleted (by decide)
    · have hbefore := herased hex r a ((hothers.calm_of_ne hhex).holds hr) haccepted hdeleted
      by_cases hpath : objectPath a.contentDigest = objectPath a'.contentDigest
      · rw [hpath] at hbefore ⊢
        exact hobject.elim (fun hsame => hsame.trans hbefore) id
      · rw [hothers.object fun h => h.elim (fun h => nomatch h) hpath]
        exact hbefore
  | @deleted deletion _ _ hex' requestDigest q a' unix hdeletes hothers hnow _ hobject _ =>
    intro hex r a hr haccepted hdeleted
    by_cases hhex : hex = hex'
    · subst hhex
      obtain rfl := Record.file_injective (Option.some.inj (hr.symm.trans hnow))
      rw [Record.deleted, Record.begun_accepted, hdeletes.holds] at haccepted
      obtain rfl := Option.some.inj haccepted
      exact hobject
    · have hbefore := herased hex r a ((hothers.calm_of_ne hhex).holds hr) haccepted hdeleted
      by_cases hpath : objectPath a.contentDigest = objectPath a'.contentDigest
      · rw [hpath]
        exact hobject
      · rw [hothers.object fun h => h.elim (fun h => nomatch h) hpath]
        exact hbefore

end Erasure

theorem allErased_of_step (hP : P.Lawful) (h : Inv P cfg w) (herased : AllErased P w.site.fs)
    (hstep : Step P cfg F w label w') (hrespects : Respects w label w') :
    AllErased P w'.site.fs := by
  cases moved_of_step hstep with
  | called hchange _ | died hchange =>
    refine allErased_of_change hP h.ledger herased ?_ hchange
    rintro upload rfl
    exact hrespects
  | opened hothers | openDied hothers =>
    intro hex r a hr haccepted hdeleted
    rw [hothers.object fun h => nomatch h]
    exact herased hex r a ((hothers.calm fun h => nomatch h).holds hr) haccepted hdeleted
  | powerLoss _ => exact hrespects.elim

theorem allErased_of_run (hP : P.Lawful) (h : Inv P cfg w) (herased : AllErased P w.site.fs)
    (hrun : Run P cfg F Respects w w') : AllErased P w'.site.fs := by
  induction hrun with
  | refl => exact herased
  | tail hrun hstep hrespects ih =>
    exact allErased_of_step hP (inv_of_run hP h hrun) ih hstep hrespects

/-- Where nothing fails, a record is acknowledged exactly if there is something to return. -/
theorem ends_acknowledge {s : Site} {a : Accepted} (hfree : s.mu = none) :
    Ends (behave (Op.healthy P) c) (acknowledge P cfg a) s
      (fun value _ => Acknowledges P cfg s a value)
      (fun _ _ => ∀ value, ¬Acknowledges P cfg s a value) := by
  refine ends_guarded (fun _ => ⟨trivial, trivial, trivial⟩) hfree ?_ fun hopen => ?_
  · intro hclosed value hvalue
    rw [hvalue.lock] at hclosed
    cases hclosed
  · have hlock : s.lock = true := (Bool.and_eq_true_iff.mp hopen).1
    refine Prog.Guards.always_of_uses (A := Op.Plain) (fun _ => exists_healthy)
      (uses_acknowledgeLocked reading_plain ⟨(fun h => nomatch h), fun h => nomatch h⟩ a)
      (Survives.conseq (survives_acknowledgeLocked (I := fun _ => True) trivial hlock) ?_ ?_)
    · intro value t ⟨_, hvalue⟩
      exact ⟨hlock, hvalue.available, hvalue.signed⟩
    · intro e t hnone value hvalue
      exact hnone sane_healthy value ⟨hlock, hvalue.available, hvalue.signed⟩

/-- Without its object a record is not acknowledged. -/
theorem ends_acknowledge_refused {s : Site} {a : Accepted} (hfree : s.mu = none)
    (hgone : s.fs.now (objectPath a.contentDigest) = none) :
    Ends (behave (Op.healthy P) c) (acknowledge P cfg a) s (fun _ _ => False)
      (fun _ _ => True) := by
  refine (ends_acknowledge hfree).conseq ?_ fun _ _ _ => trivial
  intro value _ hvalue
  obtain ⟨f, hnow, -⟩ := hvalue.available.object
  rw [hgone] at hnow
  cases hnow

/-- **Erasure is final** in every run in which each upload meets no deleted record of its
content: once a deletion has returned, the accepted record is neither opened nor
acknowledged. -/
theorem erasure_final (hP : P.Lawful) (hrun : Run P cfg F Respects World.init w)
    {deletion : Deletion} {resolution : ActionResolution}
    (hmem : (.delete deletion, .resolution resolution) ∈ w.history) :
    ∃ hex r a, Holds P w.site.fs hex r ∧ r.hasDigest P deletion.challengeDigest = true ∧
      r.accepted = some a ∧
      Ends (behave (Op.healthy P) c) (openAccepted P a) w.site (fun _ _ => False)
        (fun _ _ => True) ∧
      Ends (behave (Op.healthy P) c) (acknowledge P cfg a) w.site (fun _ _ => False)
        (fun _ _ => True) := by
  have hinv : Inv P cfg w := inv_of_run hP inv_init hrun
  obtain ⟨hex, r, a, hr, hdigest, hdeleted, haccepted, -⟩ := hinv.recorded _ _ hmem
  have hgone := allErased_of_run hP inv_init (fun _ _ _ h => nomatch h) hrun hex r a hr haccepted
    hdeleted
  exact ⟨hex, r, a, hr, hdigest, haccepted, ends_openAccepted_refused hinv.rests.free hgone,
    ends_acknowledge_refused hinv.rests.free hgone⟩

/-- A handoff is accepted and deleted. -/
theorem erasure_final_deleted :
    ∃ w hex r a, Run handoffs sampleConfig (Op.healthy _) Respects World.init w ∧
      Holds handoffs w.site.fs hex r ∧
      r.hasDigest handoffs (sampleDeletion "a").challengeDigest = true ∧ r.accepted = some a ∧
      Ends (behave (Op.healthy _) 0) (openAccepted handoffs a) w.site (fun _ _ => False)
        (fun _ _ => True) ∧
      Ends (behave (Op.healthy _) 0) (acknowledge handoffs sampleConfig a) w.site
        (fun _ _ => False) (fun _ _ => True) := by
  have hrespects : Respects sampleBefore (.called (.accept (sampleUpload "a"))
      (.ok (.accepted (sampleAccepted "a")))) sampleWorld := by
    intro hex r a hr haccepted _
    have hmem := lists_sampleBefore.mem hr
    simp only [List.mem_cons, List.not_mem_nil, or_false] at hmem
    obtain rfl | rfl := hmem
    · cases haccepted
    · cases haccepted
  have hrun : Run handoffs sampleConfig (Op.healthy _) Respects World.init sampleDeleted :=
    .tail (run_sampleWorld (fun _ _ => trivial) (fun _ _ _ _ => trivial) hrespects)
      step_sampleDeleted trivial
  obtain ⟨hex, r, a, hresult⟩ :=
    erasure_final (c := 0) (lawful_sample _) hrun (mem_history_called step_sampleDeleted)
  exact ⟨_, hex, r, a, hrun, hresult⟩

/-- The other handoff is accepted after the first one is deleted. -/
def sampleReturned : World handoffs := sampleDeleted.after (.accept (sampleUpload "b"))

theorem sampleReturned_accepted :
    returned sampleDeleted (.accept (sampleUpload "b")) =
        some (.accepted (sampleAccepted "b")) ∧
      Holds handoffs sampleReturned.site.fs (challengeName handoffs "a") (sampleErased "a") ∧
      sampleReturned.site.fs.now sampleObject = some ⟨0o600, [7]⟩ := by
  unfold Holds
  decide +kernel

/-- **Erased content comes back**: a handoff is accepted and deleted, another one of the same
content is accepted, and the deleted one can be opened again. -/
theorem erased_content_returns :
    ∃ w resolution hex r a, Run handoffs sampleConfig (Op.healthy _) Orderly World.init w ∧
      (.delete (sampleDeletion "a"), .resolution resolution) ∈ w.history ∧
      Holds handoffs w.site.fs hex r ∧
      r.hasDigest handoffs (sampleDeletion "a").challengeDigest = true ∧ r.accepted = some a ∧
      Ends (behave (Op.healthy _) 0) (openAccepted handoffs a) w.site
        (fun content _ => handoffs.contentDigest content = a.contentDigest)
        (fun _ _ => False) := by
  obtain ⟨haccepted, hr, hobject⟩ := sampleReturned_accepted
  have hrun : Run handoffs sampleConfig (Op.healthy _) Orderly World.init sampleReturned :=
    .tail (.tail (run_sampleWorld (fun _ _ => trivial) (fun _ _ _ _ => trivial) trivial)
      step_sampleDeleted trivial) (step_after haccepted) trivial
  have hinv : Inv handoffs sampleConfig _ := inv_of_run (lawful_sample _) inv_init hrun
  have hmem := List.mem_append_right
    ((returned sampleDeleted (.accept (sampleUpload "b"))).map
      (.accept (sampleUpload "b"), ·)).toList
    (mem_history_called step_sampleDeleted)
  have hstocked : Stocked handoffs sampleReturned.site.fs (sampleAccepted "a") :=
    ⟨_, hobject, rfl, rfl, rfl, by decide⟩
  exact ⟨_, _, _, sampleErased "a", sampleAccepted "a", hrun, hmem, hr,
    hasDigest_sample "a" rfl, rfl, ends_openAccepted (lawful_sample _) hinv.rests.free hstocked⟩

/-! ## Acknowledgements -/

/-- The record is the accepted one of a challenge record in the directory. -/
def Took (P : Protocol) (fs : Fs FileName) (record : Accepted) : Prop :=
  ∃ hex r, Holds P fs hex r ∧ r.accepted = some record

/-- `Acknowledge` of the record may return the value. -/
def MayAcknowledge (P : Protocol) (cfg : Config) (F : Faults P) (w : World P) (record : Accepted)
    (value : P.Acknowledgement) (w' : World P) : Prop :=
  Step P cfg F w (.called (.acknowledge record) (.ok (.acknowledgement value))) w'

theorem acknowledges_of_step {record : Accepted} {value : P.Acknowledgement}
    (h : MayAcknowledge P cfg F w record value w') :
    w'.site.fs = w.site.fs ∧ Acknowledges P cfg w.site record value := by
  cases h with
  | called hsteps =>
    have hends := (Survives.map (Q := fun outcome t => ∃ value, outcome = .acknowledgement value ∧
        t.fs = w.site.fs ∧ Acknowledges P cfg w.site record value)
      ((survives_acknowledge record w.site).conseq (fun value _ h => ⟨value, rfl, h.1⟩)
        fun _ _ h => h)).ends hsteps
    obtain ⟨value', hvalue, hresult⟩ := hends
    obtain rfl := Outcome.acknowledgement.inj hvalue
    exact hresult

/-- A call in which nothing fails returns what there is to return. -/
theorem step_of_acknowledges (hF : ∀ o s answer, Op.healthy P o s answer → F o s answer)
    (hfree : w.site.mu = none) {record : Accepted} {value : P.Acknowledgement}
    (h : Acknowledges P cfg w.site record value) :
    ∃ w', MayAcknowledge P cfg F w record value w' := by
  have hends : Ends (behave (Op.healthy P) 0) (Method.body P cfg (.acknowledge record)) w.site
      (fun outcome _ => ∃ value, outcome = .acknowledgement value ∧
        Acknowledges P cfg w.site record value)
      (fun _ _ => ∀ value, ¬Acknowledges P cfg w.site record value) :=
    .map ((ends_acknowledge hfree).conseq (fun value _ h => ⟨value, rfl, h⟩) fun _ _ h => h)
  obtain ⟨out, t, hsteps, hout⟩ := Prog.Always.steps hends
  cases out with
  | error e => exact absurd h (hout value)
  | ok outcome =>
    obtain ⟨value', rfl, hvalue⟩ := hout
    obtain rfl := Except.ok.inj (h.signed.symm.trans hvalue.signed)
    exact ⟨_, .called (hsteps.mono fun o s answer s' h => ⟨h.1, hF o s answer h.2⟩)⟩

/-- **When an acknowledgement is one of an accepted handoff.**  In every state of every run, and
for every record: an acknowledgement can be returned exactly if the store is open, an object of
the record's digest and size is there and the record can be signed; so every acknowledgement of
the record is one of an accepted handoff exactly if one of the three fails or the record is that
of a challenge record. -/
theorem acknowledge_sound_iff (hP : P.Lawful)
    (hF : ∀ o s answer, Op.healthy P o s answer → F o s answer)
    (hrun : Reach P cfg F World.init w) (record : Accepted) :
    (∀ value, (∃ w', MayAcknowledge P cfg F w record value w') ↔
      w.site.lock = true ∧ Available P w.site.fs record ∧
        P.signPrivateHandoffAcknowledgement record cfg.receiverAgent cfg.signingKey = .ok value) ∧
    ((∀ value w', MayAcknowledge P cfg F w record value w' → Took P w'.site.fs record) ↔
      w.site.lock = false ∨ ¬Available P w.site.fs record ∨
      (∀ value,
        P.signPrivateHandoffAcknowledgement record cfg.receiverAgent cfg.signingKey ≠ .ok value) ∨
      Took P w.site.fs record) := by
  have hrests : w.site.Rests cfg := (inv_of_run hP inv_init hrun).rests
  have hreturns : ∀ value, (∃ w', MayAcknowledge P cfg F w record value w') ↔
      w.site.lock = true ∧ Available P w.site.fs record ∧
        P.signPrivateHandoffAcknowledgement record cfg.receiverAgent cfg.signingKey =
          .ok value := by
    intro value
    constructor
    · rintro ⟨w', hstep⟩
      obtain ⟨-, hlock, havailable, hsigned⟩ := acknowledges_of_step hstep
      exact ⟨hlock, havailable, hrests.armed hlock ▸ hsigned⟩
    · rintro ⟨hlock, havailable, hsigned⟩
      refine step_of_acknowledges hF hrests.free ⟨hlock, havailable, ?_⟩
      rw [hrests.armed hlock]
      exact hsigned
  refine ⟨hreturns, fun hsound => ?_, fun hwhy value w' hstep => ?_⟩
  · by_contra hnot
    simp only [not_or, not_not, Bool.not_eq_false, not_forall] at hnot
    obtain ⟨hlock, havailable, ⟨value, hsigned⟩, htook⟩ := hnot
    obtain ⟨w', hstep⟩ := (hreturns value).mpr ⟨hlock, havailable, hsigned⟩
    exact htook ((acknowledges_of_step hstep).1 ▸ hsound value w' hstep)
  · obtain ⟨hlock, havailable, hsigned⟩ := (hreturns value).mp ⟨w', hstep⟩
    rw [(acknowledges_of_step hstep).1]
    rcases hwhy with hclosed | hmissing | hunsigned | htook
    · rw [hlock] at hclosed
      cases hclosed
    · exact absurd havailable hmissing
    · exact absurd hsigned (hunsigned value)
    · exact htook

/-- The record of an accepted handoff, with the name of another. -/
def sampleForged : Accepted := { sampleAccepted "a" with handoffID := "c" }

/-- An accepted handoff is acknowledged. -/
theorem acknowledge_sound_iff_accepted :
    ∃ w w' value, Reach handoffs sampleConfig (Op.healthy _) World.init w ∧
      MayAcknowledge handoffs sampleConfig (Op.healthy _) w (sampleAccepted "a") value w' ∧
      Took handoffs w'.site.fs (sampleAccepted "a") := by
  have hrun : Reach handoffs sampleConfig (Op.healthy _) World.init sampleWorld :=
    run_sampleWorld (fun _ _ => trivial) (fun _ _ _ _ => trivial) trivial
  have hreturned : returned sampleWorld (.acknowledge (sampleAccepted "a")) =
      some (.acknowledgement ()) := by
    decide +kernel
  have htook : Took handoffs sampleWorld.site.fs (sampleAccepted "a") :=
    (inv_of_run (lawful_sample _) inv_init hrun).recorded _ _ (mem_history_called step_sampleWorld)
  have hsound := (acknowledge_sound_iff (lawful_sample _) (fun _ _ _ h => h) hrun
    (sampleAccepted "a")).2.mpr (.inr (.inr (.inr htook)))
  have hstep := step_after hreturned
  exact ⟨_, _, _, hrun, hstep, hsound _ _ hstep⟩

/-- **A handoff that was never accepted is acknowledged**: the record only has to describe some
object of the store. -/
theorem forged_record_acknowledged :
    ∃ w w' value, Run handoffs sampleConfig (Op.healthy _) Orderly World.init w ∧
      Step handoffs sampleConfig (Op.healthy _) w
        (.called (.acknowledge sampleForged) (.ok (.acknowledgement value))) w' ∧
      ∀ hex r, Holds handoffs w'.site.fs hex r → r.accepted ≠ some sampleForged := by
  have hrun : Run handoffs sampleConfig (Op.healthy _) Orderly World.init sampleWorld :=
    run_sampleWorld (fun _ _ => trivial) (fun _ _ _ _ => trivial) trivial
  obtain ⟨hreturned, hlists⟩ : returned sampleWorld (.acknowledge sampleForged) =
        some (.acknowledgement ()) ∧
      Lists (sampleWorld.after (.acknowledge sampleForged)).site.fs
        [sampleTaken "a", sampleIssued "b"] := by
    unfold Lists
    decide +kernel
  refine ⟨_, _, _, hrun, step_after hreturned, ?_⟩
  intro hex r hr haccepted
  have hmem := hlists.mem hr
  simp only [List.mem_cons, List.not_mem_nil, or_false] at hmem
  obtain rfl | rfl := hmem
  · have hname := congrArg Accepted.handoffID (Option.some.inj haccepted)
    exact absurd (show "a" = "c" from hname) (by decide)
  · cases haccepted

end TosAi.PrivateIngress
