/-
  The bindings of an accepted plan, as they are used later.

  `preparePlan` looks at files, networks, credentials and effects once; `Start` and
  `PerformHTTPS` look at them again in the record.  FILES: the two looks differ.
  `validDigest` takes hexadecimal digits of either case, `openBoundFiles` compares with the
  text `hex.EncodeToString` writes, so a plan with a capital letter in a digest is accepted
  and can never be started; nor can one whose record is too long to be read
  (`prepared_startable`).  EFFECTS: the two looks agree.  The keys
  are distinct, so every search finds the binding that was checked (`effects_resolve`).
-/
import TosAi.Foundation.Crash
import TosAi.Foundation.GoStrings
import TosAi.CommerceGate.Recovery

set_option autoImplicit false

namespace TosAi.CommerceGate

open Foundation
open Foundation.Json (Bytes)

variable {C : Commerce}

/-! ## Files -/

/-- Lower case letters only. -/
def LowerCase (text : String) : Prop := (stringBytes text).map lowerByte = stringBytes text

/-- Each file is there, with its size and the sum its digest decodes to. -/
def World.Holds (W : World C) (files : List FileBinding) : Prop :=
  ∀ binding ∈ files, ∃ raw,
    hexDecode (stringBytes (String.ofList (binding.digest.toList.drop 7))) = some raw ∧
      W.input binding = ⟨some binding.size, some ("sha256:" ++ hexEncode raw), true⟩

theorem stringBytes_append (s t : String) :
    stringBytes (s ++ t) = stringBytes s ++ stringBytes t := by
  rw [stringBytes, stringBytes, stringBytes, String.toList_append, List.flatMap_append]

variable {digest : String}

theorem digest_eq_of_valid (h : validDigest digest = true) :
    digest = "sha256:" ++ String.ofList (digest.toList.drop 7) := by
  simp only [validDigest, Bool.and_eq_true, beq_iff_eq] at h
  apply String.toList_injective
  rw [String.toList_append, ← h.1.2, String.toList_ofList, List.take_append_drop]

/-- The text of the sum is the digest exactly if the digest is in lower case. -/
theorem lowerCase_iff_eq {raw : Bytes} (hvalid : validDigest digest = true)
    (hraw : hexDecode (stringBytes (String.ofList (digest.toList.drop 7))) = some raw) :
    LowerCase digest ↔ "sha256:" ++ hexEncode raw = digest := by
  have htext := digest_eq_of_valid hvalid
  generalize String.ofList (digest.toList.drop 7) = digits at htext hraw
  subst htext
  have hstart : (stringBytes "sha256:").map lowerByte = stringBytes "sha256:" := by decide +kernel
  rw [LowerCase, stringBytes_append, List.map_append, hstart, List.append_cancel_left_eq]
  constructor
  · intro hlower
    have hbytes := hexDecode_eq_some.mp ⟨hlower, hraw⟩
    rw [← stringBytes_hexEncode] at hbytes
    rw [stringBytes_injective hbytes]
  · intro heq
    have hbytes := congrArg stringBytes heq
    rw [stringBytes_append, stringBytes_append, List.append_cancel_left_eq,
      stringBytes_hexEncode] at hbytes
    exact (hexDecode_eq_some.mpr hbytes.symm).1

theorem valid_of_checkFile {before : Option FileBinding} {file : FileBinding} {u : Unit}
    (h : checkFile before file = .ok u) : validDigest file.digest = true := by
  have hall := require_eq_ok_iff.mp h
  simp only [Bool.and_eq_true] at hall
  exact hall.1.1.2

section Start

variable {W : World C} {c g : Nat} {m : Method} {s : System C} {e : Record} {ticket : Ticket}
  {fence : WriterFence} {action : AuthorizedAction}

/-- `Start` has nothing to object to before it looks at the files. -/
structure World.MayStart (W : World C) (e : Record) (ticket : Ticket) (fence : WriterFence)
    (action : AuthorizedAction) : Prop where
  issued : ticketFrom e = ticket
  named : ticket.executionID ≠ "" ∧ ticket.secret ≠ ""
  generation : e.plan.writerGeneration = fence.body.writerGeneration
  accepts : W.Accepts fence "execution.start"
  allows : authorized C action "execution.start" (prepareFields e.plan) (.ticket ticket) fence
    W.authority W.now = true
  prepared : e.state = .prepared
  inTime : W.now < timeUnix (toInt64 e.startNotAfterUnix)

theorem World.MayStart.starts (h : W.MayStart e ticket fence action)
    (hfiles : W.Supplies e.plan.files) : W.Starts e ticket fence action :=
  ⟨h.issued, h.generation, h.accepts, h.allows, h.prepared, h.inTime, hfiles⟩

theorem supplies_of_lowerCase {files : List FileBinding} (hholds : W.Holds files)
    (hvalid : ∀ binding ∈ files, validDigest binding.digest = true)
    (hlower : ∀ binding ∈ files, LowerCase binding.digest) : W.Supplies files := by
  intro binding hmem
  obtain ⟨raw, hraw, hinput⟩ := hholds binding hmem
  rw [hinput, (lowerCase_iff_eq (hvalid binding hmem) hraw).mp (hlower binding hmem)]

theorem ends_openBoundFile {binding : FileBinding} {raw : Bytes}
    (hinput : W.input binding = ⟨some binding.size, some ("sha256:" ++ hexEncode raw), true⟩) :
    Ends (W.works c) (openBoundFile binding) s
      (fun _ t => t = s ∧ "sha256:" ++ hexEncode raw = binding.digest)
      (fun err _ => err = .text "execution input digest changed" ∧
        "sha256:" ++ hexEncode raw ≠ binding.digest) := by
  refine .chain (ends_perform (some (W.input binding)) ⟨rfl, rfl⟩
    (fun _ _ h => ⟨h.2, h.1⟩) ?_)
  rw [hinput]
  refine .chain (ends_ensure (beq_self_eq_true _) ?_)
  by_cases hdigest : "sha256:" ++ hexEncode raw = binding.digest
  · exact .chain (ends_ensure (by simpa using hdigest) (ends_succeed ⟨rfl, hdigest⟩))
  · have hdiffer : (some ("sha256:" ++ hexEncode raw) == some binding.digest) = false := by
      simpa using hdigest
    simp only [hdiffer]
    exact .throw ⟨rfl, hdigest⟩

/-- One capital letter is enough for the files to be refused. -/
theorem ends_openBoundFiles_refused {files : List FileBinding} (hholds : W.Holds files)
    (hvalid : ∀ binding ∈ files, validDigest binding.digest = true)
    (hcapital : ∃ binding ∈ files, ¬ LowerCase binding.digest) :
    Ends (W.works c) (openBoundFiles files) s (fun _ _ => False)
      (fun err _ => err = .text "execution input digest changed") := by
  induction files with
  | nil =>
    obtain ⟨_, hmem, _⟩ := hcapital
    exact nomatch hmem
  | cons file rest ih =>
    obtain ⟨raw, hraw, hinput⟩ := hholds file List.mem_cons_self
    have hiff := lowerCase_iff_eq (hvalid file List.mem_cons_self) hraw
    refine .bind ((ends_openBoundFile hinput).conseq (fun _ _ h => h) fun _ _ h => h.1) ?_
    rintro _ _ ⟨rfl, hsame⟩
    obtain ⟨binding, hmem, hupper⟩ := hcapital
    refine ih (fun b hb => hholds b (List.mem_cons_of_mem _ hb))
      (fun b hb => hvalid b (List.mem_cons_of_mem _ hb)) ⟨binding, ?_, hupper⟩
    rcases List.mem_cons.mp hmem with rfl | hmem
    · exact absurd (hiff.mpr hsame) hupper
    · exact hmem

/-- A record that cannot be read back cannot be started. -/
theorem ends_start_unreadable (hstart : W.MayStart e ticket fence action) (hgate : s.Serves c g m)
    (hnow : s.fs.now (path ticket.executionID) = some e.file) (hunreadable : ¬Readable e) :
    Ends (W.works c) (start ticket fence action) s (fun _ _ => False) (fun _ _ => True) := by
  cases hread : readFile e.file with
  | ok e' => exact absurd (readFile_file_eq_ok_iff.mp hread).1 hunreadable
  | error err =>
    refine .chain (ends_lockHeld (.chain (ends_ensure ?_ ?_)))
    · simp [hgate.held, hstart.named]
    exact ends_locked hgate.call hgate.free (.chain (ends_now (.chain (ends_checkFence
      hstart.accepts (.chain (ends_readRecord_refused hnow hread trivial))))))

/-- What `Prepare` writes is readable exactly if it is not too long. -/
theorem readable_initial_iff (hC : C.Lawful) {V : World C} {plan prepared : Plan}
    {preparer : WriterFence} {lifetime : Int}
    (h : V.Prepares plan preparer lifetime action prepared digest) :
    Readable (V.initial prepared digest lifetime preparer action) ↔
      (V.initial prepared digest lifetime preparer action).marshal.length ≤ maxRecordBytes := by
  have hinitial : Initial C (path prepared.executionID)
      (V.initial prepared digest lifetime preparer action) :=
    initial_initialRecord h.prepares (wellFormedAction_of_authorized h.allows)
  rw [hinitial.wf.readable_iff hC]
  refine and_iff_left fun id r hr => ?_
  simp [World.initial, initialRecord] at hr

/-- **Which prepared plans can be started.**  Let the files of a prepared plan be there with
their sizes and the sums their digests decode to, let the directory hold the record `Prepare`
wrote, and let `Start` have nothing to object to up to the files.  Then the files are opened and
the launch is returned exactly if the text of the record is within the reader's bound and no
digest of the plan has a capital letter. -/
theorem prepared_startable (hC : C.Lawful) {V : World C} {plan prepared : Plan}
    {preparer : WriterFence} {lifetime : Int} {prepareAction : AuthorizedAction} {digest : String}
    (hprepares : V.Prepares plan preparer lifetime prepareAction prepared digest)
    (he : V.initial prepared digest lifetime preparer prepareAction = e)
    (hholds : W.Holds prepared.files) (hstart : W.MayStart e ticket fence action)
    (hcall : s.calls c = some (g, m)) (hlock : s.lock g = true) (hfree : s.mu g = none)
    (hnow : s.fs.now (path ticket.executionID) = some e.file) :
    (Ends (W.works c) (openBoundFiles prepared.files) s (fun _ t => t = s) (fun _ _ => False) ∧
      Ends (W.works c) (start ticket fence action) s (fun result _ => result.1 = launchFrom e)
        (fun _ _ => False)) ↔
      e.marshal.length ≤ maxRecordBytes ∧ ∀ binding ∈ plan.files, LowerCase binding.digest := by
  have hsteps := preparePlan_eq_ok hprepares.prepares
  obtain ⟨canonical, executionID, -, -, hplan⟩ := hsteps.identity
  have hfiles : prepared.files = (normalize plan).files := by rw [hplan]
  have hperm : prepared.files.Perm plan.files := by
    rw [hfiles]
    exact sortBy_perm plan.files
  have hvalid : ∀ binding ∈ prepared.files, validDigest binding.digest = true := by
    rw [hfiles]
    intro binding hmem
    obtain ⟨_, _, hfile⟩ := checkEach_mem hsteps.files hmem
    exact valid_of_checkFile hfile
  have hreadable : Readable e ↔ e.marshal.length ≤ maxRecordBytes :=
    he ▸ readable_initial_iff hC hprepares
  rw [← hreadable]
  constructor
  · rintro ⟨hopened, hstarted⟩
    constructor
    · by_contra hunreadable
      exact hstarted.not_both (ends_start_unreadable hstart ⟨hcall, hlock, hfree⟩ hnow hunreadable)
    · intro binding hmem
      by_contra hupper
      exact hopened.not_both (ends_openBoundFiles_refused hholds hvalid
        ⟨binding, hperm.mem_iff.mpr hmem, hupper⟩)
  · rintro ⟨hread, hlower⟩
    have hsupplied := supplies_of_lowerCase hholds hvalid
      fun binding hmem => hlower binding (hperm.mem_iff.mp hmem)
    refine ⟨ends_openBoundFiles hsupplied rfl, ends_start (hstart.starts ?_) ⟨hcall, hlock, hfree⟩
      hstart.named.1 hstart.named.2 hnow hread fun _ _ => rfl⟩
    subst he
    exact hsupplied

end Start

/-! ### A plan with one input file -/

def inputPlan (digest : String) : Plan := { samplePlan with files := [⟨"/in", digest, 0⟩] }

def inputPrepared (digest : String) : Plan :=
  { samplePrepared with files := [⟨"/in", digest, 0⟩] }

/-- The SHA-256 sum of the empty file. -/
def emptySum : Bytes :=
  [0xe3, 0xb0, 0xc4, 0x42, 0x98, 0xfc, 0x1c, 0x14, 0x9a, 0xfb, 0xf4, 0xc8, 0x99, 0x6f, 0xb9, 0x24,
    0x27, 0xae, 0x41, 0xe4, 0x64, 0x9b, 0x93, 0x4c, 0xa4, 0x95, 0x99, 0x1b, 0x78, 0x52, 0xb8, 0x55]

/-- The sum, as `hex.EncodeToString` writes it. -/
def lowerDigest : String :=
  "sha256:e3b0c44298fc1c149afbf4c8996fb92427ae41e4649b934ca495991b7852b855"

/-- The same sum in capital letters. -/
def upperDigest : String :=
  "sha256:E3B0C44298FC1C149AFBF4C8996FB92427AE41E4649B934CA495991B7852B855"

def inputWorld : World tolerant :=
  { calm 200 (by decide) with input := fun _ => ⟨some 0, some lowerDigest, true⟩ }

theorem lowerDigest_eq : lowerDigest = "sha256:" ++ hexEncode emptySum := by
  decide +kernel

theorem inputWorld_holds
    (h : hexDecode (stringBytes (String.ofList (digest.toList.drop 7))) = some emptySum) :
    inputWorld.Holds (inputPrepared digest).files := by
  intro binding hmem
  obtain rfl := List.mem_singleton.mp hmem
  exact ⟨_, h, by rw [← lowerDigest_eq]; rfl⟩

theorem preparePlan_inputPlan (h : digest = lowerDigest ∨ digest = upperDigest) :
    preparePlan tolerant (inputPlan digest) sampleFence =
      .ok (inputPrepared digest, zeroDigest) := by
  have hnormal : normalize (inputPlan digest) = inputPlan digest := by
    simp [normalize, sortBy, inputPlan, samplePlan]
  unfold preparePlan
  rw [hnormal]
  rcases h with rfl | rfl <;> decide +kernel

/-- The plan is accepted, the file has the sum its digest decodes to, and the file is refused. -/
theorem upperDigest_refused :
    preparePlan tolerant (inputPlan upperDigest) sampleFence =
        .ok (inputPrepared upperDigest, zeroDigest) ∧
      inputWorld.Holds (inputPrepared upperDigest).files ∧
      Ends (inputWorld.works 0) (openBoundFiles (inputPrepared upperDigest).files) System.init
        (fun _ _ => False) (fun err _ => err = .text "execution input digest changed") := by
  have hholds : inputWorld.Holds (inputPrepared upperDigest).files :=
    inputWorld_holds (by decide +kernel)
  refine ⟨preparePlan_inputPlan (.inr rfl), hholds, ends_openBoundFiles_refused hholds ?_
    ⟨_, List.mem_singleton_self _, by unfold LowerCase; decide +kernel⟩⟩
  exact fun binding hmem => by
    obtain rfl := List.mem_singleton.mp hmem
    decide +kernel

def inputRecord : Record :=
  initialRecord (inputPrepared lowerDigest) zeroDigest "s" 60 (sampleAction "execution.prepare")

/-- A call of a Gate over a directory that holds the record. -/
def inputSystem : System tolerant :=
  { System.init with
    fs :=
      { slot := Function.update (fun _ => {}) sampleName { now := some inputRecord.file }
        names := [sampleName]
        nodup := List.nodup_singleton _
        absent := fun n hn => by
          rw [Function.update_of_ne (fun h => hn (List.mem_singleton.mpr h))]
          rfl }
    lock := fun _ => true
    calls := fun _ => some (0, .close) }

theorem prepared_startable_input :
    (Ends (inputWorld.works 1) (openBoundFiles (inputPrepared lowerDigest).files) inputSystem
        (fun _ t => t = inputSystem) (fun _ _ => False) ∧
      Ends (inputWorld.works 1) (start (ticketFrom inputRecord) sampleFence
          (sampleAction "execution.start")) inputSystem
        (fun result _ => result.1 = launchFrom inputRecord) (fun _ _ => False)) ↔
      inputRecord.marshal.length ≤ maxRecordBytes ∧
        ∀ binding ∈ (inputPlan lowerDigest).files, LowerCase binding.digest := by
  have hdeadline : ticketDeadline 0 60000000000 sampleFence (sampleAction "execution.prepare") =
      60 := by decide
  refine prepared_startable (V := inputWorld) tolerant_lawful
    ⟨by decide, ⟨rfl, rfl⟩, preparePlan_inputPlan (.inl rfl), authorized_tolerant ..⟩
    (congrArg (initialRecord _ _ _ · _) hdeadline) (inputWorld_holds (by decide +kernel))
    ?_ rfl rfl rfl ?_
  · exact
      { issued := rfl
        named := by decide
        generation := rfl
        accepts := ⟨rfl, rfl⟩
        allows := authorized_tolerant ..
        prepared := rfl
        inTime := by
          show (0 : Int) < timeUnix (toInt64 60)
          decide +kernel }
  · have hname : path (ticketFrom inputRecord).executionID = sampleName := path_zeroDigest
    have hslot : inputSystem.fs.slot sampleName = { now := some inputRecord.file } := by
      simp only [inputSystem, Function.update_self]
    rw [hname]
    exact congrArg Slot.now hslot

/-! ## Effects -/

section Keys

variable {α : Type} {key : α → String} {l : List α} {a b : α}

theorem eq_of_key_eq (hkeys : l.Pairwise fun x y => key x < key y) (ha : a ∈ l) (hb : b ∈ l)
    (h : key a = key b) : a = b :=
  List.inj_on_of_nodup_map (List.pairwise_map.mpr (hkeys.imp fun hlt => ne_of_lt hlt)) ha hb h

/-- Where the keys are distinct, a search by key finds the member with that key. -/
theorem find?_key_eq_some (hkeys : l.Pairwise fun x y => key x < key y) (ha : a ∈ l) :
    l.find? (fun x => key x == key a) = some a := by
  cases hfind : l.find? (fun x => key x == key a) with
  | none =>
    have habsent := List.find?_eq_none.mp hfind a ha
    simp at habsent
  | some b =>
    have hb : key b = key a := by simpa using List.find?_some hfind
    rw [eq_of_key_eq hkeys (List.mem_of_find?_eq_some hfind) ha hb]

end Keys

/-- What the searches of `PerformHTTPS` find for a planned effect. -/
structure Resolves (C : Commerce) (plan : Plan) (effect : EffectBinding)
    (network : NetworkBinding) : Prop where
  found : plan.effectBindings.find? (fun b => b.planEffectID == effect.planEffectID) = some effect
  bound : boundNetwork plan effect = some network
  /-- The map of `preparePlan` holds the same one. -/
  only : ∀ n ∈ plan.networkBindings, n.bindingID = effect.networkBindingID → n = network
  target : C.digest "tos.executor-network-target.v1" (.network network) = .ok effect.targetDigest
  resolved : network.resolvedIPs ≠ []
  publicIPs : ∀ text ∈ network.resolvedIPs, publicIP (parseIP text) = true
  credential : (boundCredential plan effect).isSome = true ↔ effect.credentialHandleID ≠ ""
  handle : ∀ b, boundCredential plan effect = some b → b.handleID = effect.credentialHandleID

theorem addresses_of_checkNetwork {before : Option NetworkBinding} {network : NetworkBinding}
    {u : Unit} (h : checkNetwork before network = .ok u) :
    network.resolvedIPs ≠ [] ∧ ∀ text ∈ network.resolvedIPs, publicIP (parseIP text) = true := by
  obtain ⟨_, hrequire, haddresses⟩ := bind_eq_ok h
  have hall := require_eq_ok_iff.mp hrequire
  simp only [Bool.and_eq_true, decide_eq_true_eq] at hall
  refine ⟨fun hnil => hall.1.1.1.2 (congrArg List.length hnil), fun text htext => ?_⟩
  obtain ⟨_, _, haddress⟩ := checkEach_mem haddresses htext
  have hpublic := require_eq_ok_iff.mp haddress
  rw [Bool.and_eq_true] at hpublic
  exact hpublic.1

theorem resolves_of_prepared {plan prepared : Plan} {fence : WriterFence}
    (h : preparePlan C plan fence = .ok (prepared, digest)) {effect : EffectBinding}
    (heffect : effect ∈ prepared.effectBindings) :
    ∃ network, Resolves C prepared effect network := by
  have hsteps := preparePlan_eq_ok h
  obtain ⟨canonical, executionID, -, -, rfl⟩ := hsteps.identity
  have hnetworks := pairwise_lt_sortBy
    (isChain_of_checkEach (fun _ _ _ => checkNetwork_ne) hsteps.networks)
  have heffects := pairwise_lt_sortBy
    (isChain_of_checkEach (fun _ _ _ => checkEffect_ne) hsteps.effects)
  obtain ⟨_, _, hcheck⟩ := checkEach_mem hsteps.effects heffect
  have hall := require_eq_ok_iff.mp hcheck
  simp only [Bool.and_eq_true, Bool.or_eq_true, beq_iff_eq, List.any_eq_true] at hall
  obtain ⟨⟨⟨⟨⟨-, hsome⟩, htarget⟩, -⟩, hcredential⟩, -⟩ := hall
  obtain ⟨network, hfind⟩ := Option.isSome_iff_exists.mp hsome
  have hmem := List.mem_of_find?_eq_some hfind
  have hkey : network.bindingID = effect.networkBindingID := by simpa using List.find?_some hfind
  obtain ⟨_, _, hnetwork⟩ := checkEach_mem hsteps.networks hmem
  rw [hfind] at htarget
  refine ⟨network, find?_key_eq_some heffects heffect, hfind, ?_, ?_,
    (addresses_of_checkNetwork hnetwork).1, (addresses_of_checkNetwork hnetwork).2, ?_, ?_⟩
  · exact fun n hn hid => eq_of_key_eq hnetworks hn hmem (hid.trans hkey.symm)
  · split at htarget
    · rename_i d hd
      rw [beq_iff_eq] at htarget
      rw [htarget]
      exact hd
    · cases htarget
  · simp only [boundCredential, beq_iff_eq]
    split
    · rename_i hempty
      simp [hempty]
    · rename_i hnamed
      obtain ⟨b, hb, hid⟩ := hcredential.resolve_left hnamed
      simp only [List.find?_isSome, beq_iff_eq]
      exact ⟨fun _ => hnamed, fun _ => ⟨b, hb, hid⟩⟩
  · intro b hb
    simp only [boundCredential] at hb
    split at hb
    · cases hb
    · simpa using List.find?_some hb

/-! ### What is sent -/

/-- The answers of the outside to a `PerformHTTPS` whose record holds the plan: every record
read holds it, and credentials are what `secret` says. -/
def answers (plan : Plan) (secret : CredentialBinding → List HTTPHeader) : (o : Op C) → Res o → Prop
  | .file (.read n), answer => n.isRecord = true → ∀ seen entry, answer = .ok seen →
      readFile seen.file = .ok entry → entry.plan = plan
  | .resolveCredential handleID scopeDigest _ _, answer => ∀ headers, answer = .ok headers →
      ∀ b : CredentialBinding, b.handleID = handleID → b.scopeDigest = scopeDigest →
        headers = secret b
  | _, _ => True

/-- The effect is planned, bound to the network, and the action is authorized for its fields. -/
structure EffectCall.Admits (C : Commerce) (call : EffectCall) (plan : Plan)
    (effect : EffectBinding) (network : NetworkBinding) : Prop where
  planned : effect ∈ plan.effectBindings
  named : effect.planEffectID = call.request.planEffectID
  bound : boundNetwork plan effect = some network
  authorized :
    ∃ authority now, authorized C call.action "executor.effect" (effectFields plan effect)
    (.request call.request) call.fence authority now = true

/-- An exchange is that of a planned effect, over the network found for it, and with its
credential if it names one. -/
def sends (plan : Plan) (secret : CredentialBinding → List HTTPHeader) (call : EffectCall) :
    Op C → Prop
  | .exchange network request headers _ => request = call.request ∧
      ∃ effect, call.Admits C plan effect network ∧ Resolves C plan effect network ∧
        ((effect.credentialHandleID = "" ∧ headers = request.headers) ∨
          ∃ b ∈ plan.credentialBindings, b.handleID = effect.credentialHandleID ∧
            headers = request.headers ++ secret b)
  | _ => True

/-- The state is whether every operation so far was in order. -/
def watched (allowed : (o : Op C) → Res o → Prop) (inOrder : Op C → Prop) (o : Op C) (s : Prop)
    (answer : Res o) (s' : Prop) : Prop :=
  allowed o answer ∧ s' = (s ∧ inOrder o)

section Watched

variable {allowed : (o : Op C) → Res o → Prop} {inOrder : Op C → Prop} {α β : Type} {s : Prop}

/-- Every operation of the body is in order, and its value satisfies `Q`. -/
abbrev Orderly (allowed : (o : Op C) → Res o → Prop) (inOrder : Op C → Prop) (body : Gated C α)
    (Q : α → Prop) : Prop :=
  ∀ s : Prop, s → Survives (watched allowed inOrder) id body s (fun a _ => Q a) (fun _ _ => True)

namespace Orderly

variable {body : Gated C α} {Q : α → Prop}

theorem bind {R : α → Prop} {Q : β → Prop} {next : α → Gated C β}
    (h : Orderly allowed inOrder body R) (hnext : ∀ a, R a → Orderly allowed inOrder (next a) Q) :
    Orderly allowed inOrder (body >>= next) Q :=
  fun s hs => .bind (h s hs) fun a t ht ha => hnext a ha t ht

/-- The same where nothing is needed of the value. -/
theorem seq {Q : β → Prop} {next : α → Gated C β} (h : Orderly allowed inOrder body fun _ => True)
    (hnext : ∀ a, Orderly allowed inOrder (next a) Q) : Orderly allowed inOrder (body >>= next) Q :=
  bind h fun a _ => hnext a

theorem pure {a : α} (h : Q a) : Orderly allowed inOrder (Pure.pure a) Q := fun _ hs => ⟨hs, h⟩

theorem throw {err : Err} : Orderly allowed inOrder (MonadExcept.throw err) Q :=
  fun _ hs => ⟨hs, trivial⟩

theorem perform {o : Op C} (ho : inOrder o) :
    Orderly allowed inOrder (CommerceGate.perform o) (allowed o) := by
  refine fun s hs => .perform hs ?_
  rintro answer _ ⟨hanswer, rfl⟩
  exact ⟨⟨hs, ho⟩, hanswer⟩

theorem ensure {condition : Bool} {message : String} :
    Orderly allowed inOrder (CommerceGate.ensure condition message)
      (fun _ => condition = true) := by
  cases condition with
  | true => exact pure rfl
  | false => exact throw

theorem ofExcept {r : Except Err α} :
    Orderly allowed inOrder (CommerceGate.ofExcept r) (fun a => r = .ok a) := by
  cases r with
  | ok a => exact pure rfl
  | error err => exact throw

theorem succeed {ok : Bool} :
    Orderly allowed inOrder (CommerceGate.succeed ok) (fun _ => True) := by
  cases ok with
  | true => exact pure trivial
  | false => exact throw

theorem andThen {ok : Bool} {next : Gated C Bool} {Q : Bool → Prop}
    (h : Orderly allowed inOrder next Q) :
    Orderly allowed inOrder (CommerceGate.andThen ok next) (fun _ => True) := by
  cases ok with
  | true => exact fun s hs => (h s hs).conseq (fun _ _ _ => trivial) fun _ _ h => h
  | false => exact pure trivial

theorem attempt (h : Orderly allowed inOrder body Q) :
    Orderly allowed inOrder (CommerceGate.attempt body) (fun r => ∀ a, r = .ok a → Q a) :=
  fun s hs => .attempt (h s hs)
    (fun a _ ha b hb => by obtain rfl := Except.ok.inj hb; exact ha) fun e _ _ b hb => nomatch hb

theorem deferred {last : Op C} (h : Orderly allowed inOrder body Q) (hlast : inOrder last) :
    Orderly allowed inOrder (CommerceGate.deferred body last) Q :=
  bind (attempt h) fun r hr => bind (perform hlast) fun _ _ => by
    cases r with
    | ok a => exact pure (hr a rfl)
    | error err => exact throw

end Orderly

end Watched

section Sending

variable {plan : Plan} {secret : CredentialBinding → List HTTPHeader} {call : EffectCall}

theorem sends_readRecord {n : FileName} (hn : n.isRecord = true) :
    Orderly (answers plan secret) (sends plan secret call) (readRecord (C := C) n)
      (fun r => r.1.plan = plan) := by
  refine .bind (.perform trivial) fun answer hanswer => ?_
  split
  · exact .throw
  · exact .throw
  · rename_i seen
    split
    · rename_i entry hentry
      exact .pure (hanswer hn seen entry rfl hentry)
    · exact .throw

theorem sends_replaceThrough {kind : FileName → Prop} {n : FileName} {raw : Bytes} :
    Orderly (answers plan secret) (sends plan secret call) (replaceThrough (C := C) kind n raw)
      (fun _ => True) := by
  refine .bind (.perform trivial) fun answer _ => ?_
  split
  · exact .throw
  · refine .deferred ?_ trivial
    refine .bind (.perform trivial) fun modeSet _ => ?_
    refine .seq (.andThen (.perform trivial)) fun written => ?_
    refine .seq (.andThen (.perform trivial)) fun synced => ?_
    refine .bind (.perform trivial) fun closed _ => ?_
    refine .bind .succeed fun _ _ => .bind .succeed fun _ _ => ?_
    refine .bind (.perform trivial) fun renamed _ => .bind .succeed fun _ _ => ?_
    exact .bind (.perform trivial) fun _ _ => .succeed

theorem sends_admitEffect {now : Time} :
    Orderly (answers plan secret) (sends plan secret call) (admitEffect (C := C) call now)
      (fun admission => ∀ entry network credential, admission = .fresh entry network credential →
        ∃ effect, call.Admits C plan effect network ∧
        credential = boundCredential plan effect) := by
  refine .bind (.perform trivial) fun _ _ => .deferred ?_ trivial
  refine .bind (.attempt (sends_readRecord (isRecord_path _))) fun found hfound => ?_
  split
  · exact .throw
  · rename_i entry version
    have hplan : entry.plan = plan := hfound _ rfl
    refine .bind .ensure fun _ _ => ?_
    split
    · exact .throw
    · rename_i effect heffect
      split
      · exact .throw
      · rename_i network hnetwork
        refine .bind (.perform trivial) fun authority _ =>
          .bind (.perform trivial) fun current _ => ?_
        refine .bind .ensure fun _ hchecked => ?_
        simp only [Bool.and_eq_true] at hchecked
        rw [hplan] at heffect hnetwork hchecked ⊢
        have hid : effect.planEffectID = call.request.planEffectID := by
          simpa using List.find?_some heffect
        have hadmits : call.Admits C plan effect network :=
          ⟨List.mem_of_find?_eq_some heffect, hid, hnetwork, authority, now, hchecked.1.1⟩
        split
        · exact .pure fun _ _ _ h => nomatch h
        · refine .bind sends_replaceThrough fun _ _ => .bind (.perform trivial) fun _ _ => ?_
          refine .pure fun entry' network' credential' h => ?_
          obtain ⟨-, rfl, rfl⟩ := Admission.fresh.inj h
          exact ⟨effect, hadmits, rfl⟩

theorem sends_effectHeaders {credential : Option CredentialBinding} {now : Time} :
    Orderly (answers plan secret) (sends plan secret call)
      (effectHeaders (C := C) call credential now)
      (fun headers => headers = call.request.headers ++ credential.elim [] secret) := by
  cases credential with
  | none => exact .pure (List.append_nil _).symm
  | some binding =>
    refine .bind .ensure fun _ _ => .bind (.perform trivial) fun answer hanswer => ?_
    refine .bind .ofExcept fun headers hheaders => .pure ?_
    rw [hanswer headers hheaders binding rfl rfl]
    rfl

/-- The headers carry the credential the effect names. -/
theorem Resolves.headers {effect : EffectBinding} {network : NetworkBinding}
    {headers : List HTTPHeader} (h : Resolves C plan effect network)
    (hheaders : headers = call.request.headers ++ (boundCredential plan effect).elim [] secret) :
    (effect.credentialHandleID = "" ∧ headers = call.request.headers) ∨
      ∃ b ∈ plan.credentialBindings, b.handleID = effect.credentialHandleID ∧
        headers = call.request.headers ++ secret b := by
  have hcredential := h.credential
  cases hb : boundCredential plan effect with
  | none =>
    rw [hb] at hheaders hcredential
    refine .inl ⟨?_, hheaders.trans (List.append_nil _)⟩
    by_contra hnamed
    cases hcredential.mpr hnamed
  | some b =>
    have hhandle := h.handle b hb
    rw [hb] at hheaders
    rw [boundCredential] at hb
    split at hb
    · cases hb
    · exact .inr ⟨b, List.mem_of_find?_eq_some hb, hhandle, hheaders⟩

theorem sends_submitEffect
    (hplan : ∀ effect ∈ plan.effectBindings, ∃ network, Resolves C plan effect network)
    {effect : EffectBinding} {network : NetworkBinding} {entry : Record} {now : Time}
    (h : call.Admits C plan effect network) :
    Orderly (answers plan secret) (sends plan secret call)
      (submitEffect (C := C) call entry network (boundCredential plan effect) now)
      (fun _ => True) := by
  obtain ⟨_, hresolves⟩ := hplan effect h.planned
  obtain rfl := Option.some.inj (hresolves.bound.symm.trans h.bound)
  refine .bind sends_effectHeaders fun headers hheaders => ?_
  refine .bind (.perform trivial) fun _ _ => .bind .ensure fun _ _ => .seq ?_ fun _ => ?_
  · refine .bind (.perform trivial) fun _ _ => .bind .ensure fun _ _ => ?_
    refine .bind (.perform ⟨rfl, effect, h, hresolves, hresolves.headers hheaders⟩) fun _ _ => ?_
    exact .bind .ofExcept fun _ _ => .bind .ensure fun _ _ => .pure trivial
  · exact .bind .ofExcept fun _ _ => .seq sends_replaceThrough fun _ => .pure trivial

theorem sends_performHTTPS
    (hplan : ∀ effect ∈ plan.effectBindings, ∃ network, Resolves C plan effect network) :
    Orderly (answers plan secret) (sends plan secret call) (performHTTPS (C := C) call)
      (fun _ => True) := by
  refine .bind (.perform trivial) fun _ _ => .bind .ensure fun _ _ => ?_
  refine .bind (.perform trivial) fun now _ =>
    .bind sends_admitEffect fun admission hadmission => ?_
  split
  · refine .seq (.bind .ensure fun _ _ => .bind .ensure fun _ _ => ?_) fun _ => .pure trivial
    refine .bind (.perform trivial) fun answer _ => ?_
    split
    · exact .throw
    · exact .pure trivial
  · obtain ⟨effect, hadmits, rfl⟩ := hadmission _ _ _ rfl
    refine .seq (sends_submitEffect hplan hadmits) fun response => .seq ?_ fun _ => .pure trivial
    refine .bind (.perform trivial) fun _ _ => .deferred ?_ trivial
    refine .bind (.attempt (sends_readRecord (isRecord_path _))) fun found _ => ?_
    split
    · exact .throw
    · split
      · exact .throw
      · exact .bind .ensure fun _ _ => .seq sends_replaceThrough fun _ => .pure trivial

end Sending

/-- **Effects find what was checked.**  For every effect of an accepted plan, read back from its
record, the searches of `PerformHTTPS` find the effect itself, the network binding whose digest it
names, with public addresses and at least one of them, and a credential exactly if it names one.
So whatever the outside answers a `PerformHTTPS` of that plan, all it sends is over the network the
authorized fields commit to and with the credential the effect names. -/
theorem effects_resolve {plan prepared : Plan} {fence : WriterFence} {digest : String}
    (hprepared : preparePlan C plan fence = .ok (prepared, digest)) {e e' : Record}
    (hplan : e.plan = prepared) (hread : readFile e.file = .ok e') :
    (∀ effect ∈ e'.plan.effectBindings, ∃ network, Resolves C e'.plan effect network) ∧
      ∀ (secret : CredentialBinding → List HTTPHeader) (call : EffectCall)
        (rest : Prog (Op C) Res (Except Err (HTTPSResponse × Option Written))) (inOrder : Prop),
        Prog.Steps (watched (answers e'.plan secret) (sends e'.plan secret call))
          (performHTTPS call).run True rest inOrder → inOrder := by
  obtain ⟨-, rfl⟩ := readFile_file_eq_ok_iff.mp hread
  subst hplan
  have hresolves := fun effect => @resolves_of_prepared C _ _ _ _ hprepared effect
  exact ⟨hresolves, fun secret call rest inOrder hsteps =>
    (sends_performHTTPS hresolves True trivial).cut hsteps⟩

def sampleCredential : CredentialBinding := ⟨"c", zeroDigest, 100⟩

/-- The second effect of the plan with a credential. -/
def credentialedEffect : EffectBinding :=
  ⟨"f", zeroDigest, zeroDigest, "https.post", zeroDigest, "n", "c", 1⟩

def credentialedPlan : Plan :=
  { samplePlan with
    credentialBindings := [sampleCredential]
    effectBindings := samplePlan.effectBindings ++ [credentialedEffect] }

def credentialedPrepared : Plan :=
  { samplePrepared with
    credentialBindings := [sampleCredential]
    effectBindings := samplePlan.effectBindings ++ [credentialedEffect] }

theorem preparePlan_credentialedPlan :
    preparePlan tolerant credentialedPlan sampleFence =
      .ok (credentialedPrepared, zeroDigest) := by
  have hnormal : normalize credentialedPlan = credentialedPlan := by
    simp only [normalize, sortBy, credentialedPlan, samplePlan, Plan.mk.injEq, true_and]
    exact ⟨List.mergeSort_nil, List.mergeSort_singleton _, List.mergeSort_singleton _,
      List.mergeSort_of_pairwise (by decide)⟩
  unfold preparePlan
  rw [hnormal]
  decide +kernel

theorem readable_credentialed : Readable { preparedRecord with plan := credentialedPrepared } where
  size := Record.marshal_length_le (by decide +kernel)
  fields := by decide +kernel
  effects := readable_preparedRecord.effects

/-- Two effects are found, one of them with its credential, and every call sends as planned. -/
theorem effects_resolve_sample :
    (∀ effect ∈ credentialedPrepared.effectBindings, ∃ network,
      Resolves tolerant credentialedPrepared effect network) ∧
    boundCredential credentialedPrepared credentialedEffect = some sampleCredential ∧
    ∀ secret call rest inOrder,
      Prog.Steps
        (watched (answers credentialedPrepared secret) (sends credentialedPrepared secret call))
        (performHTTPS (C := tolerant) call).run True rest inOrder → inOrder := by
  obtain ⟨hresolves, hsends⟩ := effects_resolve preparePlan_credentialedPlan rfl
    (readFile_file readable_credentialed)
  exact ⟨hresolves, by decide, hsends⟩

end TosAi.CommerceGate
