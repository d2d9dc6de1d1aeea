/-
  What `Put` and `Get` do among other calls.

  A temporary file belongs to the call that made it from `CreateTemp` to the deferred
  `Remove`, so what is linked is what was copied, flushed and hashed.  An object is never
  changed again; a `Get` that finds it where it began returns it, unless its context is
  cancelled or a file operation fails.
-/
import TosAi.SoftwareWork.Rules

set_option autoImplicit false

namespace TosAi.SoftwareWork

open Foundation Foundation.Discipline
open Foundation.Json (Bytes)

variable {r : Runner} {c : Nat} {s s' : System} {E : Err → System → Prop}

/-! ## The temporary file -/

/-- The temporary file is there and is one's own. -/
def Mine (c k : Nat) (s : System) : Prop :=
  (s.objects.now (.temporary k)).isSome = true ∧ (s.objects.slot (.temporary k)).opener = c

/-- It holds what was copied so far. -/
def Copied (c k : Nat) (data : Bytes) (s : System) : Prop :=
  Fs.Open c s.objects (.temporary k) ⟨0o600, data⟩

/-- Nothing else can be found in it after a loss of power. -/
def Flushed (c k perm : Nat) (data : Bytes) (s : System) : Prop :=
  (s.objects.slot (.temporary k)).present = [some ⟨perm, data⟩] ∧
    (s.objects.slot (.temporary k)).opener = c

variable {P : System → Prop} {k perm : Nat} {data : Bytes} {f : File}

theorem Copied.mine (h : Copied c k data s) : Mine c k s :=
  ⟨Option.isSome_iff_exists.mpr ⟨_, h.now⟩, h.opener⟩

theorem Flushed.now (h : Flushed c k perm data s) :
    s.objects.now (.temporary k) = some ⟨perm, data⟩ := by
  have hpresent := h.1
  rw [Slot.present, List.cons.injEq] at hpresent
  exact hpresent.1

theorem Flushed.mine (h : Flushed c k perm data s) : Mine c k s :=
  ⟨Option.isSome_iff_exists.mpr ⟨_, h.now⟩, h.2⟩

theorem stays_mine (k : Nat) : Stays r c (Mine c k) := by
  refine stays_of_frame fun s s' hframe hs => ?_
  have hslot := hframe.copy k hs.1 hs.2
  exact ⟨by rw [Fs.now, hslot.now]; exact hs.1, hslot.opener.trans hs.2⟩

theorem stays_copied (k : Nat) (data : Bytes) : Stays r c (Copied c k data) := by
  refine stays_of_frame fun s s' hframe hs => ?_
  have hslot := hframe.copy k hs.mine.1 hs.mine.2
  exact ⟨hslot.now.trans hs.now, hslot.opener.trans hs.opener⟩

theorem stays_flushed (k perm : Nat) (data : Bytes) : Stays r c (Flushed c k perm data) := by
  refine stays_of_frame fun s s' hframe hs => ?_
  have hslot := hframe.copy k hs.mine.1 hs.mine.2
  exact ⟨hslot.present.trans hs.1, hslot.opener.trans hs.2⟩

theorem steady_copied (k : Nat) (data : Bytes) : Steady (Copied c k data) := by
  intro s s' h hs
  rw [Copied, h.objects]
  exact hs

theorem steady_flushed (k perm : Nat) (data : Bytes) : Steady (Flushed c k perm data) := by
  intro s s' h hs
  rw [Flushed, h.objects]
  exact hs

/-! ## The copy -/

/-- A copy that went on, or did not. -/
def CopiedIf (c k : Nat) (data : Bytes) (done : Bool) (s : System) : Prop :=
  if done then Copied c k data s else Mine c k s

theorem write_does (hc : c ≠ 0) (k : Nat) (data bytes : Bytes) :
    Does r c (Copied c k data) (perform (.objects (.write (.temporary k) bytes)))
      (CopiedIf c k (data ++ bytes)) E := by
  refine Does.step hc (stays_copied k data) (fun _ _ _ => trivial) ?_
  intro s answer s' _ hs happly _
  obtain ⟨fs', failed, happly, -, rfl⟩ := happly
  obtain ⟨rfl, rfl⟩ | ⟨rfl, j, -, rfl⟩ := happly
  · exact Fs.Open.append hs bytes
  · have hopen : Fs.Open c (s.objects.modify (.temporary k) (Slot.append c (bytes.take j)))
        (.temporary k) _ := Fs.Open.append hs (bytes.take j)
    exact ⟨Option.isSome_iff_exists.mpr ⟨_, hopen.now⟩, hopen.opener⟩

theorem copyPiece_does (hc : c ≠ 0) (k : Nat) (data bytes : Bytes) :
    Does r c (Copied c k data) (copyPiece (.temporary k) bytes)
      (CopiedIf c k (data ++ bytes)) E := by
  refine .bind (Does.glance hc trivial (stays_copied k data) (steady_copied k data)) ?_
  intro cancelled
  cases cancelled with
  | true => exact .pure fun s _ hs => hs.mine
  | false =>
    rw [if_neg Bool.false_ne_true]
    split
    · rename_i hempty
      subst hempty
      rw [List.append_nil]
      exact .pure fun s _ hs => hs
    · exact write_does hc k data bytes

/-- What the loop leaves: all it could read within its limit, or nothing to rely on. -/
def CopiedAll (c k : Nat) (all : Bytes) (copied : Option Bytes) (s : System) : Prop :=
  match copied with
  | some bytes => bytes = all ∧ Copied c k bytes s
  | none => Mine c k s

/-- By induction on the pieces: `room` bytes may still be read. -/
theorem copyLoop_does (hc : c ≠ 0) (k : Nat) (last : Bytes) (failed : Bool) (pieces : List Bytes) :
    ∀ (room : Nat) (copied : Bytes),
      Does r c (Copied c k copied) (copyLoop (.temporary k) last failed room copied pieces)
        (CopiedAll c k (copied ++ (pieces.flatten ++ last).take room)) E := by
  induction pieces with
  | nil =>
    intro room copied
    rw [copyLoop]
    split
    · rename_i hroom
      subst hroom
      refine .pure fun s _ hs => ⟨?_, hs⟩
      simp
    · refine .bind (copyPiece_does hc k copied _) fun done => ?_
      refine .pure fun s _ hs => ?_
      cases done with
      | false => exact hs
      | true =>
        split
        · refine ⟨?_, hs⟩
          simp
        · exact Copied.mine hs
  | cons piece rest ih =>
    intro room copied
    rw [copyLoop]
    split
    · rename_i hroom
      subst hroom
      refine .pure fun s _ hs => ⟨?_, hs⟩
      simp
    · refine .bind (copyPiece_does hc k copied _) fun done => ?_
      cases done with
      | false => exact .pure fun s _ hs => hs
      | true =>
        have hall : copied ++ ((piece :: rest).flatten ++ last).take room =
            (copied ++ piece.take room) ++
              (rest.flatten ++ last).take (room - (piece.take room).length) := by
          rw [List.flatten_cons, List.append_assoc piece, List.take_append, List.length_take,
            List.append_assoc]
          congr 3
          omega
        rw [hall]
        exact ih _ _

theorem copyBounded_does (hc : c ≠ 0) (k : Nat) (reader : Reader) (maximum : Nat) :
    Does r c (Copied c k []) (copyBounded (.temporary k) reader maximum)
      (fun bytes s => (bytes = reader.content ∧ bytes.length ≤ maximum) ∧ Copied c k bytes s)
      (fun _ => Mine c k) := by
  refine .bind (copyLoop_does hc k reader.last reader.failed reader.pieces (maximum + 1) []) ?_
  intro copied
  cases copied with
  | none => exact .throw fun s _ hs => hs
  | some bytes =>
    refine .bind (.ensure (Q := fun _ s => bytes.length ≤ maximum ∧ CopiedAll c k
      ([] ++ (reader.pieces.flatten ++ reader.last).take (maximum + 1)) (some bytes) s)
      (fun s hlength hs => ⟨of_decide_eq_true hlength, hs⟩) (fun s _ hs => hs.2.mine)) fun _ => ?_
    refine .pure fun s _ hs => ?_
    obtain ⟨hlength, hall, hcopied⟩ := hs
    -- within the limit nothing was left unread
    have hcontent : bytes = reader.content := by
      rw [List.nil_append] at hall
      rw [hall, List.length_take] at hlength
      rw [hall, Reader.content, List.take_of_length_le (by omega)]
    exact ⟨⟨hcontent, hlength⟩, hcopied⟩

/-! ## Get -/

/-- A look at a file that is known before: nothing else can be seen. -/
def Known (known : Option File) (hex : String) (s : System) : Prop :=
  ∀ f ∈ known, s.objects.now (.object hex) = some f

/-- A look at it has shown this. -/
def Looked (known : Option File) (hex : String) (seen : Seen) (s : System) : Prop :=
  ∀ f ∈ known, s.objects.now (.object hex) = some f ∧ seen.file = f ∧
    (s.objects.slot (.object hex)).version = seen.version

/-- What keeps a known file from being returned. -/
def Excused (c : Nat) (known : Option File) (s : System) : Prop :=
  ∀ _f ∈ known, s.cancelled c = true ∨ s.troubled c = true

theorem stays_known (known : Option File) (hex : String) : Stays r c (Known known hex) :=
  stays_of_lasts fun _ _ hlasts hs f hf => hlasts.objects hex f (hs f hf)

theorem stays_looked (known : Option File) (hex : String) (seen : Seen) :
    Stays r c (Looked known hex seen) := by
  refine stays_of_frame fun s s' hframe hs f hf => ?_
  obtain ⟨hnow, hfile, hversion⟩ := hs f hf
  have hslot := hframe.object hex (Option.isSome_iff_exists.mpr ⟨f, hnow⟩)
  exact ⟨hslot.now.trans hnow, hfile, hslot.version.trans hversion⟩

theorem steady_looked (known : Option File) (hex : String) (seen : Seen) :
    Steady (Looked known hex seen) := by
  intro s s' h hs
  rw [Looked, h.objects]
  exact hs

theorem troubled_of_note {failed : Bool} (h : failed = true) :
    (s.note c failed).troubled c = true := by
  subst h
  simp [System.note]

/-- A look at a known file shows it, or the operation failed. -/
theorem look_does (hc : c ≠ 0) (known : Option File) (hex : String) (message : String)
    {R : System → Prop} (hR : Stays r c R) (hsteady : Steady R) :
    Does r c (fun s => Known known hex s ∧ R s) (lookAt (.object hex) message)
      (fun seen s => Looked known hex seen s ∧ R s) (fun _ => Excused c known) := by
  apply Meets.bind (S := fun answer s => match answer with
    | .ok seen => Looked known hex seen s ∧ R s
    | .error _ => Excused c known s)
  · apply Does.step hc ((stays_known known hex).and hR)
    · intro s _ _
      exact trivial
    · intro s answer s' _ hs happly _
      have hunmoved := unmoved_of_looks (o := .objects (.read (.object hex))) hc trivial happly
      obtain ⟨fs', failed, happly, hhealthy, rfl⟩ := happly
      obtain ⟨rfl, ⟨f, hnow, rfl⟩ | ⟨hnow, rfl⟩ | rfl⟩ := happly
      · refine ⟨?_, hsteady _ _ hunmoved hs.2⟩
        intro g hg
        obtain rfl := Option.some.inj (hnow.symm.trans (hs.1 g hg))
        exact ⟨hnow, rfl, rfl⟩
      · intro g hg
        rw [hs.1 g hg] at hnow
        cases hnow
      · intro g hg
        exact .inr (troubled_of_note (hhealthy.resolve_left fun h => h rfl))
  · intro answer
    cases answer with
    | ok seen => exact .pure fun s _ hs => hs
    | error err => exact .throw fun s _ hs => hs

theorem trimStart_of_digestPattern {digest : String} (h : digestPattern digest = true) :
    digest = "sha256:" ++ trimStart "sha256:" digest := by
  have hsplit := eq_append_of_matchesHex64 h
  have hstart : startsWith "sha256:" digest = true := by
    simp only [digestPattern, matchesHex64, Bool.and_eq_true] at h
    exact h.1.1
  rw [startsWith] at hstart
  rw [trimStart, if_pos hstart]
  exact hsplit

/-- An object that is there passes the checks of `Get`. -/
theorem Inv.addressed (hinv : Inv r s) {digest : String} (hpattern : digestPattern digest = true)
    (hf : s.objects.now (objectName digest) = some f) :
    f.perm = 0o400 ∧ f.data.length ≤ r.maximum ∧ r.digestOf f.data = digest := by
  have hmem : some f ∈ s.objects.outcomes (objectName digest) := by
    rw [← hf]
    exact Slot.now_mem_outcomes _
  have haddressed := hinv.objects _ f hmem
  refine ⟨haddressed.perm, haddressed.length, ?_⟩
  rw [trimStart_of_digestPattern hpattern, haddressed.name]
  rfl

/-- What a look at the context says. -/
def Noticed (c : Nat) (cancelled : Bool) (s : System) : Prop :=
  cancelled = true → s.cancelled c = true

theorem contextErr_does (hc : c ≠ 0) (hP : Stays r c P) :
    Does r c P (perform .contextErr) (fun cancelled s => Noticed c cancelled s ∧ P s) E := by
  apply Does.step hc hP
  · intro s _ _
    exact trivial
  · intro s answer s' _ hs happly _
    obtain ⟨rfl, rfl⟩ := happly
    exact ⟨id, hs⟩

/-- A test that a known file passes is never failed. -/
theorem passes_does {known : Option File} {condition : Bool} {message : String}
    (hpasses : ∀ s, P s → ∀ f ∈ known, condition = true) :
    Does r c P (ensure condition message) (fun _ s => P s ∧ condition = true)
      (fun _ => Excused c known) := by
  apply Does.ensure
  · intro s hcondition hs
    exact ⟨hs, hcondition⟩
  · intro s hfails hs f hf
    rw [hpasses s hs f hf] at hfails
    cases hfails

/-- The digest of what was read is compared with the one asked for. -/
theorem checkDigest_does (hc : c ≠ 0) (known : Option File) (digest : String) (bytes : Bytes)
    (hgood : ∀ f ∈ known, bytes = f.data ∧ r.digestOf f.data = digest) :
    Does r c (fun _ => True)
      (do let sum ← perform (.hash bytes)
          ensure (digestText sum == digest) "artifact object digest mismatch"
          pure bytes)
      (fun bytes s => (r.digestOf bytes = digest ∧ ∀ f ∈ known, bytes = f.data) ∧ bytes ∈ s.hashed)
      (fun _ => Excused c known) := by
  apply Meets.bind (S := fun sum s => sum = r.library.sha256 bytes ∧ bytes ∈ s.hashed)
  · apply Does.step hc stays_true
    · intro s _ _
      exact trivial
    · intro s answer s' _ _ happly _
      obtain ⟨rfl, rfl⟩ := happly
      exact ⟨rfl, List.mem_cons_self⟩
  · intro sum
    apply Meets.bind (passes_does ?_)
    · intro _
      apply Meets.pure
      intro s _ hs
      obtain ⟨⟨rfl, hmem⟩, hsame⟩ := hs
      exact ⟨⟨beq_iff_eq.mp hsame, fun f hf => (hgood f hf).1⟩, hmem⟩
    · rintro s ⟨rfl, -⟩ f hf
      obtain ⟨rfl, hdigest⟩ := hgood f hf
      exact beq_iff_eq.mpr hdigest

theorem getObject_does (hc : c ≠ 0) {digest : String} (hpattern : digestPattern digest = true)
    (known : Option File) :
    Does r c (Known known (trimStart "sha256:" digest)) (getObject r.maximum digest)
      (fun bytes s => (r.digestOf bytes = digest ∧ ∀ f ∈ known, bytes = f.data) ∧ bytes ∈ s.hashed)
      (fun _ => Excused c known) := by
  generalize hhex : trimStart "sha256:" digest = hex
  have hname : objectName digest = .object hex := congrArg ObjectName.object hhex
  apply Meets.assume (∀ f ∈ known, f.perm = 0o400 ∧ f.data.length ≤ r.maximum ∧
    r.digestOf f.data = digest)
  · intro s hok hs f hf
    apply hok.2.addressed hpattern
    rw [hname]
    exact hs f hf
  intro hgood
  rw [getObject, hname]
  have hfirst := look_does (r := r) hc known hex "invalid artifact object" stays_true
    fun _ _ _ _ => trivial
  apply Meets.bind (hfirst.pre fun _ _ hs => ⟨hs, trivial⟩)
  intro info
  have hinfo := stays_looked (r := r) (c := c) known hex info
  apply Meets.bind (passes_does ?_)
  swap
  · intro s hs f hf
    obtain ⟨-, hfile, -⟩ := hs.1 f hf
    obtain ⟨hperm, hlength, -⟩ := hgood f hf
    simp [hfile, hperm, hlength]
  intro _
  have hsecond := look_does (r := r) hc known hex "open artifact object" hinfo
    (steady_looked known hex info)
  apply Meets.bind (hsecond.pre fun _ _ hs => ⟨fun f hf => (hs.1.1 f hf).1, hs.1.1⟩)
  intro opened
  have hopened : Stays r c fun s => Looked known hex opened s ∧ Looked known hex info s :=
    (stays_looked known hex opened).and hinfo
  apply Meets.bind (passes_does ?_)
  swap
  · intro s hs f hf
    obtain ⟨-, hfile, hversion⟩ := hs.1 f hf
    obtain ⟨-, -, hversion'⟩ := hs.2 f hf
    simp [hfile, (hgood f hf).1, ← hversion, hversion']
  intro _
  apply Meets.bind (contextErr_does hc (hopened.and (.const _)))
  intro cancelled
  apply Meets.bind (S := fun _ s => Looked known hex opened s)
  · apply Does.ensure
    · intro s _ hs
      exact hs.2.1.1
    · intro s hfails hs f hf
      obtain ⟨-, hfile, -⟩ := hs.2.1.1 f hf
      obtain ⟨-, hfile', -⟩ := hs.2.1.2 f hf
      cases cancelled with
      | true => exact .inl (hs.1 rfl)
      | false => simp [hfile, hfile', (hgood f hf).2.1] at hfails
  intro _
  apply Meets.assume (∀ f ∈ known, opened.file = f)
  · intro s _ hs f hf
    exact (hs f hf).2.1
  intro hfile
  apply (checkDigest_does hc known digest opened.file.data ?_).pre fun _ _ _ => trivial
  intro f hf
  rw [hfile f hf]
  exact ⟨rfl, (hgood f hf).2.2⟩

/-- **`Get` among others.** -/
theorem get_does (hc : c ≠ 0) (digest : String) (known : Option File) :
    Does r c (Known known (trimStart "sha256:" digest)) (get r.maximum digest)
      (fun bytes s => (r.digestOf bytes = digest ∧ ∀ f ∈ known, bytes = f.data) ∧ bytes ∈ s.hashed)
      (fun _ s => digestPattern digest = true → Excused c known s) := by
  have hknown := stays_known (r := r) (c := c) known (trimStart "sha256:" digest)
  apply Meets.bind (Does.ensure (Q := fun _ s => digestPattern digest = true ∧
    Known known (trimStart "sha256:" digest) s) (fun s hpattern hs => ⟨hpattern, hs⟩) ?_)
  swap
  · intro s hfails _ hpattern
    rw [hpattern] at hfails
    cases hfails
  intro _
  apply Meets.bind (contextErr_does hc ((Stable.const _).and hknown))
  intro cancelled
  cases cancelled with
  | true =>
    apply Meets.throw
    intro s _ hs _ f _
    exact .inl (hs.1 rfl)
  | false =>
    apply Meets.assume (digestPattern digest = true) (fun s _ hs => hs.2.1)
    intro hpattern
    exact (getObject_does hc hpattern known).conseq (fun _ _ hs => hs.2.2) (fun _ _ hs => hs)
      (fun _ _ hs _ => hs)

/-! ## Put -/

/-- The temporary file once it has been synced, if it was. -/
def FlushedIf (c k : Nat) (copied : Except Err Bytes) (synced : Bool) (s : System) : Prop :=
  match copied with
  | .ok bytes => if synced then Flushed c k 0o600 bytes s else Mine c k s
  | .error _ => Mine c k s

theorem stays_flushedIf (k : Nat) (copied : Except Err Bytes) (synced : Bool) :
    Stays r c (FlushedIf c k copied synced) := by
  cases copied with
  | error err => exact stays_mine k
  | ok bytes =>
    cases synced with
    | true => exact stays_flushed k 0o600 bytes
    | false => exact stays_mine k

theorem Mine.flush (h : Mine c k s) {failed : Bool} :
    Mine c k (({ s with objects := s.objects.modify (.temporary k) (Slot.flush c) } : System).note c
      failed) := by
  obtain ⟨f, hf⟩ := Option.isSome_iff_exists.mp h.1
  have hopen := Fs.Open.flush ⟨hf, h.2⟩
  exact ⟨Option.isSome_iff_exists.mpr ⟨f, hopen.now⟩, hopen.opener⟩

theorem present_flush {a : Slot} (hnow : a.now = some f) (hopener : a.opener = c) :
    (a.flush c).present = [some f] := by
  rw [Slot.flush, if_pos hopener, Slot.present]
  simp [hnow]

theorem present_chmod {a : Slot} (hpresent : a.present = [some f]) (hopener : a.opener = c) :
    (a.chmod c perm).present = [some { f with perm }] := by
  rw [Slot.present, List.cons.injEq] at hpresent
  obtain ⟨hnow, hloose⟩ := hpresent
  rw [hnow] at hloose
  simp only [List.map_eq_nil_iff] at hloose
  rw [Slot.chmod, hnow]
  simp [hopener, Slot.present, hloose]

/-- What the copy left, before and after the sync. -/
theorem syncCopy_does (hc : c ≠ 0) (k : Nat) (copied : Except Err Bytes) {P : Bytes → Prop} :
    Does r c (Returns (fun bytes s => P bytes ∧ Copied c k bytes s) (fun _ => Mine c k) copied)
      (perform (.objects (.sync (.temporary k))))
      (fun synced s => FlushedIf c k copied synced s ∧ ∀ bytes, copied = .ok bytes → P bytes)
      E := by
  apply Does.step hc
  · cases copied with
    | ok bytes => exact (Stable.const _).and (stays_copied k bytes)
    | error err => exact stays_mine k
  · intro s _ _
    exact trivial
  · intro s answer s' _ hs happly _
    obtain ⟨fs', failed, happly, -, rfl⟩ := happly
    cases copied with
    | error err =>
      refine ⟨?_, fun _ h => nomatch h⟩
      obtain ⟨-, rfl⟩ | ⟨-, rfl⟩ := happly
      · exact Mine.flush hs
      · exact hs
    | ok bytes =>
      obtain ⟨hp, hcopied⟩ := hs
      refine ⟨?_, fun _ hok => Except.ok.inj hok ▸ hp⟩
      obtain ⟨rfl, rfl⟩ | ⟨rfl, rfl⟩ := happly
      · have hopen := Fs.Open.flush hcopied
        refine ⟨?_, hopen.opener⟩
        show ((s.objects.modify (.temporary k) (Slot.flush c)).slot (.temporary k)).present = _
        rw [Fs.modify_slot_self]
        exact present_flush hcopied.now hcopied.opener
      · exact hcopied.mine

/-- The result of copy, sync and close together. -/
theorem copyResult_does (k : Nat) (copied : Except Err Bytes) (synced closed : Bool)
    {P : Bytes → Prop} :
    Does r c (fun s => FlushedIf c k copied synced s ∧ ∀ bytes, copied = .ok bytes → P bytes)
      (Body.result (copyResult copied synced closed))
      (fun bytes s => P bytes ∧ Flushed c k 0o600 bytes s) (fun _ => Mine c k) := by
  apply Meets.result
  · intro bytes s hresult hs
    obtain ⟨hflushed, hp⟩ := hs
    cases copied with
    | error err => cases hresult
    | ok bytes' =>
      simp only [copyResult] at hresult
      split at hresult
      · rename_i hdone
        obtain rfl := Except.ok.inj hresult
        rw [Bool.and_eq_true] at hdone
        rw [FlushedIf, if_pos hdone.1] at hflushed
        exact ⟨hp _ rfl, hflushed⟩
      · cases hresult
  · intro err s _ hs
    obtain ⟨hflushed, -⟩ := hs
    cases copied with
    | error err => exact hflushed
    | ok bytes =>
      cases synced with
      | true => exact Flushed.mine hflushed
      | false => exact hflushed

theorem chmodCopy_does (hc : c ≠ 0) (k : Nat) (bytes : Bytes) :
    Does r c (Flushed c k 0o600 bytes) (perform (.objects (.chmod (.temporary k) 0o400)))
      (fun guarded s => if guarded then Flushed c k 0o400 bytes s else Mine c k s) E := by
  apply Does.step hc (stays_flushed k 0o600 bytes)
  · intro s _ _
    exact trivial
  · intro s answer s' _ hs happly _
    obtain ⟨fs', failed, happly, -, rfl⟩ := happly
    obtain ⟨rfl, rfl⟩ | ⟨rfl, rfl⟩ := happly
    · have hopen := Fs.Open.chmod ⟨hs.now, hs.2⟩ 0o400
      refine ⟨?_, hopen.opener⟩
      show ((s.objects.modify (.temporary k) (Slot.chmod c 0o400)).slot (.temporary k)).present = _
      rw [Fs.modify_slot_self]
      exact present_chmod hs.1 hs.2
    · exact hs.mine

theorem digest_does (hc : c ≠ 0) (bytes : Bytes) (hP : Stays r c P) (hsteady : Steady P) :
    Does r c P (digest bytes)
      (fun name s => name = r.digestOf bytes ∧ bytes ∈ s.hashed ∧ P s) E := by
  apply Meets.bind (S := fun sum s => sum = r.library.sha256 bytes ∧ bytes ∈ s.hashed ∧ P s)
  · apply Does.step hc hP
    · intro s _ _
      exact trivial
    · intro s answer s' _ hs happly _
      have hunmoved := unmoved_of_looks (o := .hash bytes) hc trivial happly
      have hs' := hsteady _ _ hunmoved hs
      obtain ⟨rfl, rfl⟩ := happly
      exact ⟨rfl, List.mem_cons_self, hs'⟩
  · intro sum
    apply Meets.pure
    rintro s _ ⟨rfl, hs⟩
    exact ⟨rfl, hs⟩

theorem objectName_digestOf (bytes : Bytes) :
    objectName (r.digestOf bytes) = .object (hexEncode (r.library.sha256 bytes)) := by
  have htext : (r.digestOf bytes).toList =
      "sha256:".toList ++ (hexEncode (r.library.sha256 bytes)).toList := String.toList_append
  rw [objectName, trimStart, htext, if_pos (by simp), List.drop_left]
  simp

/-- The object is there, whoever has put it there, once a link has been answered. -/
def LinkedIf (c k : Nat) (name : String) (answer : Except FsErr Unit) (s : System) : Prop :=
  Mine c k s ∧ (answer ≠ .error .io → (s.objects.now (objectName name)).isSome = true)

theorem stays_object (name : String) :
    Stays r c fun s => (s.objects.now (objectName name)).isSome = true :=
  stays_of_lasts fun _ _ hlasts hs => by
    obtain ⟨f, hf⟩ := Option.isSome_iff_exists.mp hs
    exact Option.isSome_iff_exists.mpr ⟨f, hlasts.objects _ f hf⟩

theorem linkCopy_does (hc : c ≠ 0) (k : Nat) {bytes : Bytes} (hlength : bytes.length ≤ r.maximum) :
    Does r c (fun s => bytes ∈ s.hashed ∧ Flushed c k 0o400 bytes s)
      (perform (.link (.temporary k) (objectName (r.digestOf bytes))))
      (LinkedIf c k (r.digestOf bytes)) E := by
  rw [objectName_digestOf]
  apply Does.step hc ((stays_of_lasts fun _ _ hlasts hs => hlasts.hashed _ hs).and
    (stays_flushed k 0o400 bytes))
  · intro s _ hs
    exact ⟨_, bytes, rfl, hs.2.1, rfl, rfl, hlength, hs.1⟩
  · intro s answer s' _ hs happly _
    have hmine := hs.2.mine
    rw [LinkedIf, objectName_digestOf]
    obtain ⟨-, hnone, rfl, rfl⟩ | ⟨hsome, rfl, rfl⟩ | ⟨rfl, rfl⟩ := happly
    · have hslot :
        (s.objects.link (.temporary k) (.object (hexEncode (r.library.sha256 bytes)))).slot
          (.temporary k) = s.objects.slot (.temporary k) :=
        Fs.modify_slot_of_ne _ _ (fun h => nomatch h)
      refine ⟨?_, fun _ => ?_⟩
      · rw [Mine, Fs.now, hslot]
        exact hmine
      · rw [Fs.now, Fs.link, Fs.modify_slot_self]
        exact hmine.1
    · exact ⟨hmine, fun _ => hsome⟩
    · exact ⟨hmine, fun h => absurd rfl h⟩

theorem syncObjects_does (hc : c ≠ 0) (hP : Stays r c P) (hsteady : Steady P)
    (hsync : ∀ s, P s → P { s with objects := s.objects.syncDir })
    (hnote : ∀ s failed, P s → P (s.note c failed)) :
    Does r c P syncObjects (fun _ => P) (fun _ => P) := by
  apply Meets.bind (Does.glance (o := .openObjects) hc trivial hP hsteady)
  intro opened
  apply Meets.bind (Does.ensure (Q := fun _ => P) (fun s _ hs => hs) (fun s _ hs => hs))
  intro _
  apply Meets.bind (S := fun _ => P)
  · apply Does.step hc hP
    · intro s _ _
      exact trivial
    · intro s answer s' _ hs happly _
      obtain ⟨fs', failed, happly, -, rfl⟩ := happly
      obtain ⟨-, rfl⟩ | ⟨-, rfl⟩ := happly
      · exact hnote _ failed (hsync s hs)
      · exact hnote _ failed hs
  · intro synced
    exact .ensure (fun s _ hs => hs) (fun s _ hs => hs)

/-- The temporary file is still there, and so is the object. -/
def Linked (c k : Nat) (name : String) (s : System) : Prop :=
  Mine c k s ∧ (s.objects.now (objectName name)).isSome = true

theorem stays_linked (k : Nat) (name : String) : Stays r c (Linked c k name) :=
  (stays_mine k).and (stays_object name)

theorem steady_linked (k : Nat) (name : String) : Steady (Linked c k name) := by
  intro s s' h hs
  rw [Linked, Mine, h.objects]
  exact hs

/-- The operations of `Get`. -/
def Reads : Op → Prop
  | .objects (.read _) | .contextErr | .hash _ => True
  | _ => False

theorem looks_of_reads (o : Op) (ho : Reads o) : Looks o := by
  cases o with
  | objects o => cases o <;> first | exact trivial | exact ho.elim
  | contextErr | hash bytes => exact trivial
  | _ => exact ho.elim

theorem lookAt_uses (n : ObjectName) (message : String) : Body.Uses Reads (lookAt n message) := by
  refine .bind (.perform trivial) fun answer => ?_
  cases answer with
  | ok seen => exact .pure seen
  | error err => exact .throw _

theorem get_uses (maximum : Nat) (digest : String) : Body.Uses Reads (get maximum digest) := by
  refine .bind (.ensure _ _) fun _ => ?_
  refine .bind (.perform trivial) fun cancelled => ?_
  cases cancelled with
  | true => exact .throw _
  | false =>
    refine .bind (lookAt_uses _ _) fun info => ?_
    refine .bind (.ensure _ _) fun _ => ?_
    refine .bind (lookAt_uses _ _) fun opened => ?_
    refine .bind (.ensure _ _) fun _ => ?_
    refine .bind (.perform trivial) fun cancelled => ?_
    refine .bind (.ensure _ _) fun _ => ?_
    refine .bind (.perform trivial) fun sum => ?_
    refine .bind (.ensure _ _) fun _ => ?_
    exact .pure _

theorem commitObject_does (hc : c ≠ 0) (k : Nat) (name : String) (written : Nat)
    (answer : Except FsErr Unit) :
    Does r c (LinkedIf c k name answer) (commitObject r.maximum name written answer)
      (fun _ => Linked c k name) (fun _ => Mine c k) := by
  match answer with
  | .ok () =>
    have hsync := syncObjects_does (r := r) hc (stays_linked k name) (steady_linked k name)
      (fun s hs => hs) (fun s failed hs => hs)
    exact hsync.conseq (fun _ _ hs => ⟨hs.1, hs.2 (fun h => nomatch h)⟩) (fun _ _ hs => hs)
      (fun _ _ hs => hs.1)
  | .error .exist =>
    have hget := Meets.frame (get_uses r.maximum name) (stays_linked (r := r) (c := c) k name)
      (fun o ho s answer s' happly _ hs =>
        steady_linked k name s s' (unmoved_of_looks hc (looks_of_reads o ho) happly) hs)
      (get_does hc name none)
    have hstored : Does r c (Linked c k name) (get r.maximum name) (fun _ => Linked c k name)
        (fun _ => Linked c k name) :=
      hget.conseq (fun _ _ hs => ⟨(fun _ hf => nomatch hf), hs⟩) (fun _ _ hs => hs.2)
        (fun _ _ hs => hs.2)
    apply Meets.conseq (P := Linked c k name) (Q := fun _ => Linked c k name)
      (E := fun _ => Mine c k) _ (fun _ _ hs => ⟨hs.1, hs.2 (fun h => nomatch h)⟩)
      (fun _ _ hs => hs) (fun _ _ hs => hs)
    apply Meets.bind (Meets.attempt hstored)
    intro stored
    cases stored with
    | ok bytes => exact .ensure (fun s _ hs => hs) (fun s _ hs => hs.1)
    | error err => exact .throw fun s _ hs => hs.1
  | .error .notExist => exact .throw fun s _ hs => hs.1
  | .error .io => exact .throw fun s _ hs => hs.1

theorem stays_hashed (bytes : Bytes) : Stays r c fun s => bytes ∈ s.hashed :=
  stays_of_lasts fun _ _ hlasts hs => hlasts.hashed _ hs

theorem putTemporary_does (hc : c ≠ 0) (mediaType : String) (reader : Reader) (k : Nat) :
    Does r c (Copied c k []) (putTemporary r.maximum mediaType reader (.temporary k))
      (fun d s => Mine c k s ∧ d.mediaType = mediaType ∧ r.Stored s d reader.content)
      (fun _ => Mine c k) := by
  apply Meets.bind (Meets.attempt (copyBounded_does hc k reader r.maximum))
  intro copied
  apply Meets.bind (syncCopy_does hc k copied)
  intro synced
  have hsynced := (stays_flushedIf (r := r) (c := c) k copied synced).and (.const (∀ bytes,
    copied = .ok bytes → bytes = reader.content ∧ bytes.length ≤ r.maximum))
  apply Meets.bind (S := fun _ s => FlushedIf c k copied synced s ∧ ∀ bytes,
    copied = .ok bytes → bytes = reader.content ∧ bytes.length ≤ r.maximum)
  · apply Does.step hc hsynced
    · intro s _ _
      exact trivial
    · intro s answer s' _ hs happly _
      obtain ⟨fs', failed, rfl, -, rfl⟩ := happly
      exact hs
  intro closed
  apply Meets.bind (copyResult_does k copied synced closed)
  intro bytes
  apply Meets.assume (bytes = reader.content ∧ bytes.length ≤ r.maximum) (fun _ _ hs => hs.1)
  rintro ⟨rfl, hlength⟩
  apply Meets.conseq (P := Flushed c k 0o600 reader.content) _ (fun _ _ hs => hs.2)
    (fun _ _ hs => hs) (fun _ _ hs => hs)
  apply Meets.bind (chmodCopy_does hc k reader.content)
  intro guarded
  apply Meets.bind (S := fun _ => Flushed c k 0o400 reader.content)
  · cases guarded with
    | true => exact .ensure (fun s _ hs => hs) (fun s h _ => Bool.noConfusion h)
    | false => exact .ensure (fun s h _ => Bool.noConfusion h) (fun s _ hs => hs)
  intro _
  apply Meets.bind (digest_does hc reader.content (stays_flushed k 0o400 _)
    (steady_flushed k 0o400 _))
  intro name
  apply Meets.assume (name = r.digestOf reader.content) (fun _ _ hs => hs.1)
  rintro rfl
  have hhashed : ∀ s s' : System, Lasts s s' → reader.content ∈ s.hashed →
      reader.content ∈ s'.hashed := fun _ _ hlasts hs => hlasts.hashed _ hs
  have hlink := Does.keep hhashed (linkCopy_does (r := r) (E := fun _ => Mine c k) hc k hlength)
  apply Meets.bind (hlink.conseq (fun _ _ hs => ⟨hs.2, hs.2.1⟩) (fun _ _ hs => hs)
    (fun _ _ hs => hs.1))
  intro linked
  have hcommit := Does.keep hhashed (commitObject_does (r := r) hc k (r.digestOf reader.content)
    reader.content.length linked)
  apply Meets.bind (hcommit.conseq (fun _ _ hs => hs) (fun _ _ hs => hs) (fun _ _ hs => hs.1))
  intro _
  apply Meets.pure
  intro s _ hs
  obtain ⟨⟨hmine, hobject⟩, hmem⟩ := hs
  exact ⟨hmine, rfl, rfl, rfl, hlength, hmem, hobject⟩

/-- The deferred removal of the temporary file. -/
theorem removeCopy_does (hc : c ≠ 0) (k : Nat) (hP : ∀ s s', Lasts s s' → P s → P s') :
    Does r c (fun s => Mine c k s ∧ P s) (perform (.objects (.remove (.temporary k)))) (fun _ => P)
      E := by
  apply Does.step hc ((stays_mine k).and (stays_of_lasts hP))
  · intro s _ hs
    exact ⟨trivial, hs.1.2⟩
  · intro s answer s' _ hs _ hlasts
    exact hP s s' hlasts hs.2

/-- **`Put` among others.** -/
theorem put_does (hc : c ≠ 0) (mediaType : String) (reader : Reader) :
    Does r c (fun _ => True) (put r.maximum mediaType reader)
      (fun d s => d.mediaType = mediaType ∧ r.Stored s d reader.content) (fun _ _ => True) := by
  apply Meets.bind (Does.ensure (Q := fun _ _ => True) (fun _ _ _ => trivial)
    (fun _ _ _ => trivial))
  intro _
  apply Meets.bind (Does.glance (o := .contextErr) hc trivial stays_true fun _ _ _ _ => trivial)
  intro cancelled
  cases cancelled with
  | true => exact .throw fun _ _ _ => trivial
  | false =>
    apply Meets.bind (S := fun answer s => ∀ n, answer = some n →
      ∃ k, n = .temporary k ∧ Copied c k [] s)
    · apply Does.step hc stays_true
      · intro s _ _ n hn
        exact hn
      · intro s answer s' _ _ happly _ n hn
        obtain ⟨fs', failed, happly, -, rfl⟩ := happly
        obtain ⟨m, hkind, -, rfl, rfl⟩ | ⟨rfl, rfl⟩ := happly
        · obtain rfl := Option.some.inj hn
          cases m with
          | object hex => exact hkind.elim
          | temporary k => exact ⟨k, rfl, Fs.open_create 0o600⟩
        · cases hn
    intro answer
    cases answer with
    | none => exact .throw fun _ _ _ => trivial
    | some n =>
      apply Meets.conseq (P := fun s => ∃ k, n = .temporary k ∧ Copied c k [] s) _
        (fun s _ hs => hs n rfl) (fun _ _ hs => hs) (fun _ _ hs => hs)
      apply Meets.choose
      intro k
      apply Meets.assume (n = .temporary k) (fun _ _ hs => hs.1)
      rintro rfl
      have hbody := putTemporary_does (r := r) hc mediaType reader k
      apply Does.deferred (hbody.pre fun _ _ hs => hs.2)
      · intro result
        cases result with
        | ok d => exact removeCopy_does hc k fun _ _ hlasts hs => ⟨hs.1, hs.2.mono hlasts⟩
        | error err =>
          exact (removeCopy_does hc k (P := fun _ => True) fun _ _ _ _ => trivial).pre
            fun _ _ hs => ⟨hs, trivial⟩

/-! ## The journal stays aside -/

/-- The operations of the store. -/
def Stores : Op → Prop
  | .objects _ | .link _ _ | .openObjects | .contextErr | .hash _ => True
  | _ => False

/-- They change nothing of the journal. -/
theorem journal_of_stores {o : Op} {answer : Res o} (ho : Stores o)
    (h : System.apply r.library.sha256 c o s answer s') : s'.journal = s.journal := by
  cases o with
  | objects o =>
    obtain ⟨fs', failed, -, -, rfl⟩ := h
    rfl
  | link a b =>
    obtain ⟨-, -, -, rfl⟩ | ⟨-, -, rfl⟩ | ⟨-, rfl⟩ := h
    · rfl
    · rfl
    · rfl
  | openObjects =>
    obtain rfl := h
    rfl
  | contextErr =>
    obtain ⟨rfl, -⟩ := h
    rfl
  | hash bytes =>
    obtain ⟨-, rfl⟩ := h
    rfl
  | _ => exact ho.elim

theorem copyPiece_uses (n : ObjectName) (bytes : Bytes) : Body.Uses Stores (copyPiece n bytes) := by
  refine .bind (.perform trivial) fun cancelled => ?_
  cases cancelled with
  | true => exact .pure _
  | false =>
    rw [if_neg Bool.false_ne_true]
    split
    · exact .pure _
    · exact .perform trivial

theorem copyLoop_uses (n : ObjectName) (last : Bytes) (failed : Bool) (pieces : List Bytes) :
    ∀ (room : Nat) (copied : Bytes),
    Body.Uses Stores (copyLoop n last failed room copied pieces) := by
  induction pieces with
  | nil =>
    intro room copied
    rw [copyLoop]
    split
    · exact .pure _
    · refine .bind (copyPiece_uses n _) fun done => ?_
      exact .pure _
  | cons piece rest ih =>
    intro room copied
    rw [copyLoop]
    split
    · exact .pure _
    · refine .bind (copyPiece_uses n _) fun done => ?_
      split
      · exact ih _ _
      · exact .pure _

theorem copyBounded_uses (n : ObjectName) (reader : Reader) (maximum : Nat) :
    Body.Uses Stores (copyBounded n reader maximum) := by
  refine .bind (copyLoop_uses n _ _ _ _ _) fun copied => ?_
  cases copied with
  | none => exact .throw _
  | some bytes =>
    refine .bind (.ensure _ _) fun _ => ?_
    exact .pure _

theorem stores_of_reads (o : Op) (ho : Reads o) : Stores o := by
  cases o with
  | objects o | contextErr | hash bytes => exact trivial
  | _ => exact ho.elim

theorem commitObject_uses (maximum : Nat) (digest : String) (written : Nat)
    (answer : Except FsErr Unit) :
    Body.Uses Stores (commitObject maximum digest written answer) := by
  match answer with
  | .ok () =>
    refine .bind (.perform trivial) fun opened => ?_
    refine .bind (.ensure _ _) fun _ => ?_
    refine .bind (.perform trivial) fun synced => ?_
    exact .ensure _ _
  | .error .exist =>
    refine .bind (.attempt ((get_uses maximum digest).mono stores_of_reads)) fun stored => ?_
    cases stored with
    | ok bytes => exact .ensure _ _
    | error err => exact .throw _
  | .error .notExist => exact .throw _
  | .error .io => exact .throw _

theorem deferred_uses {α : Type} {A : Op → Prop} {body : Work α} {last : Op}
    (hbody : Body.Uses A body) (hlast : A last) : Body.Uses A (deferred body last) := by
  refine .bind (.attempt hbody) fun answer => ?_
  refine .bind (.perform hlast) fun _ => ?_
  exact .result _

theorem put_uses (maximum : Nat) (mediaType : String) (reader : Reader) :
    Body.Uses Stores (put maximum mediaType reader) := by
  refine .bind (.ensure _ _) fun _ => ?_
  refine .bind (.perform trivial) fun cancelled => ?_
  cases cancelled with
  | true => exact .throw _
  | false =>
    refine .bind (.perform trivial) fun temporary => ?_
    cases temporary with
    | none => exact .throw _
    | some n =>
      apply deferred_uses _ trivial
      refine .bind (.attempt (copyBounded_uses n reader maximum)) fun copied => ?_
      refine .bind (.perform trivial) fun synced => ?_
      refine .bind (.perform trivial) fun closed => ?_
      refine .bind (.result _) fun bytes => ?_
      refine .bind (.perform trivial) fun guarded => ?_
      refine .bind (.ensure _ _) fun _ => ?_
      apply Body.Uses.bind
      · refine .bind (.perform trivial) fun sum => ?_
        exact .pure _
      intro name
      refine .bind (.perform trivial) fun linked => ?_
      refine .bind (commitObject_uses maximum name bytes.length linked) fun _ => ?_
      exact .pure _

end TosAi.SoftwareWork
