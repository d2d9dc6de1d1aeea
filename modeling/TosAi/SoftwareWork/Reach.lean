/-
  A call in which everything goes well.

  What the invariants say of outcomes would hold of a runner that never returned one.
  Here a `Put` of a new object and an `Execute` of a new request are taken through to
  their ends, one operation after the other.
-/
import TosAi.SoftwareWork.Lone

set_option autoImplicit false

namespace TosAi.SoftwareWork

open Foundation
open Foundation.Json (Bytes)

variable {r : Runner} {c : Nat} {s t u : System}

/-- A call can come to its end with `Q`. -/
abbrev Can {α : Type} (r : Runner) (c : Nat) (body : Work α) (s : System)
    (Q : α → System → Prop) : Prop :=
  Reaches (System.apply r.library.sha256 c) body s Q

theorem Can.step {o : Op} {Q : Res o → System → Prop} (answer : Res o)
    (hop : System.apply r.library.sha256 c o s answer t) (h : Q answer t) :
    Can r c (perform o) s Q :=
  .call hop h

variable {α : Type} {k : Nat} {message fp : String} {n : JournalName}

theorem Can.ensure {condition : Bool} {Q : Unit → System → Prop} (hcondition : condition = true)
    (h : Q () s) :
    Can r c (SoftwareWork.ensure condition message) s Q := by
  subst hcondition
  exact .pure h

variable {Q : α → System → Prop}

/-- A test that is passed. -/
theorem Can.past {condition : Bool} {next : Unit → Work α}
    (hcondition : condition = true) (h : Can r c (next ()) s Q) :
    Can r c (SoftwareWork.ensure condition message >>= next) s Q := by
  subst hcondition
  exact h

/-- A step that was done. -/
theorem Can.done {recover : Work Unit} {next : Unit → Work α} (h : Can r c (next ()) s Q) :
    Can r c (unlessDone true recover message >>= next) s Q :=
  h

/-- An operation on the journal as it goes when nothing fails. -/
theorem Can.journal {o : FsOp JournalName} (ho : o.isCreateTemp = false) {Q : o.Res → System → Prop}
    (h : Q (o.run c s.journal).1
      (System.note c false { s with journal := (o.run c s.journal).2 })) :
    Can r c (perform (.journal o)) s Q := by
  exact Can.step (o := .journal o) _ ⟨_, false, FsOp.apply_run o s.journal, novel_run ho _,
    .inl (FsOp.healthy_run ho _), rfl⟩ h

/-- An operation on the store's directory as it goes when nothing fails. -/
theorem Can.objects {o : FsOp ObjectName} (ho : o.isCreateTemp = false) {Q : o.Res → System → Prop}
    (h : Q (o.run c s.objects).1
      (System.note c false { s with objects := (o.run c s.objects).2 })) :
    Can r c (perform (.objects o)) s Q :=
  Can.step (o := .objects o) _
    ⟨_, false, FsOp.apply_run o s.objects, .inl (FsOp.healthy_run ho _), rfl⟩ h

theorem Can.deferred {body : Work α} {last : Op} {Q R : α → System → Prop}
    (hbody : Can r c body s R)
    (hlast : ∀ a t, R a t → ∃ answer u, System.apply r.library.sha256 c last t answer u ∧ Q a u) :
    Can r c (SoftwareWork.deferred body last) s Q := by
  apply Reaches.bind (R := fun value t => ∃ a, value = .ok a ∧ R a t)
  · apply Reaches.attempt
    obtain ⟨a, t, hsteps, ha⟩ := hbody
    exact ⟨a, t, hsteps, a, rfl, ha⟩
  rintro value t ⟨a, rfl, ha⟩
  obtain ⟨answer, u, hop, hu⟩ := hlast a t ha
  apply Reaches.bind (Can.step answer hop (Q := fun _ v => v = u) rfl)
  rintro _ v rfl
  exact .pure hu

/-! ## Put -/

/-- Nothing has changed but temporary files of the store. -/
structure Apart (s t : System) : Prop where
  rest : ∃ objects troubled, t = { s with objects, troubled }
  objects : ∀ hex, t.objects.slot (.object hex) = s.objects.slot (.object hex)

theorem Apart.refl (s : System) : Apart s s := ⟨⟨_, _, rfl⟩, fun _ => rfl⟩

theorem Apart.trans (h : Apart s t) (h' : Apart t u) : Apart s u := by
  obtain ⟨⟨_, _, rfl⟩, hobjects⟩ := h
  obtain ⟨⟨_, _, rfl⟩, hobjects'⟩ := h'
  exact ⟨⟨_, _, rfl⟩, fun hex => (hobjects' hex).trans (hobjects hex)⟩

/-- A change of a temporary file. -/
theorem apart_modify (k : Nat) (f : Slot → Slot) (failed : Bool) :
    Apart s (System.note c failed { s with objects := s.objects.modify (.temporary k) f }) :=
  ⟨⟨_, _, rfl⟩, fun _ => Fs.modify_slot_of_ne _ _ (fun h => nomatch h)⟩

theorem copyPiece_can {data : Bytes} (bytes : Bytes) (hcopied : Copied c k data s)
    (hactive : s.cancelled c = false) :
    Can r c (copyPiece (.temporary k) bytes) s
      (fun done t => done = true ∧ Copied c k (data ++ bytes) t ∧ Apart s t) := by
  apply Reaches.bind (Can.step (o := .contextErr) _ (t := s) ⟨rfl, rfl⟩
    (Q := fun cancelled t => cancelled = false ∧ t = s) ⟨hactive, rfl⟩)
  rintro _ t ⟨rfl, rfl⟩
  rw [if_neg Bool.false_ne_true]
  split
  · rename_i hempty
    subst hempty
    rw [List.append_nil]
    exact .pure ⟨rfl, hcopied, .refl t⟩
  · exact Can.objects (o := .write (.temporary k) bytes) rfl
      ⟨rfl, hcopied.append bytes, apart_modify k _ false⟩

/-- By induction on the pieces: there is room for all of them. -/
theorem copyLoop_can (last : Bytes) (pieces : List Bytes) :
    ∀ {s : System} (room : Nat) (copied : Bytes), Copied c k copied s → s.cancelled c = false →
      (pieces.flatten ++ last).length < room →
      Can r c (copyLoop (.temporary k) last false room copied pieces) s
        (fun result t => result = some (copied ++ (pieces.flatten ++ last)) ∧
          Copied c k (copied ++ (pieces.flatten ++ last)) t ∧ Apart s t) := by
  induction pieces with
  | nil =>
    intro s room copied hcopied hactive hroom
    have hlast : last.length < room := hroom
    rw [copyLoop, if_neg (by omega), List.take_of_length_le (Nat.le_of_lt hlast)]
    apply Reaches.bind (copyPiece_can last hcopied hactive)
    rintro _ t ⟨rfl, ht, hst⟩
    exact .pure ⟨rfl, ht, hst⟩
  | cons piece rest ih =>
    intro s room copied hcopied hactive hroom
    rw [List.flatten_cons, List.append_assoc, List.length_append] at hroom
    rw [copyLoop, if_neg (by omega), List.take_of_length_le (by omega)]
    apply Reaches.bind (copyPiece_can piece hcopied hactive)
    rintro _ t ⟨rfl, ht, hst⟩
    have hactive' : t.cancelled c = false := by
      obtain ⟨_, _, rfl⟩ := hst.rest
      exact hactive
    have hrest := ih (room - piece.length) (copied ++ piece) ht hactive' (by omega)
    rw [List.flatten_cons, List.append_assoc piece, ← List.append_assoc copied]
    obtain ⟨result, u, hsteps, hresult, hu, htu⟩ := hrest
    exact ⟨result, u, hsteps, hresult, hu, hst.trans htu⟩

/-- A new object has been put, and nothing else has changed but temporary files. -/
structure Stowed (s t : System) (name : String) (content : Bytes) : Prop where
  rest : ∃ objects troubled, t = { s with objects, troubled, hashed := content :: s.hashed }
  object : t.objects.now (objectName name) = some ⟨0o400, content⟩
  objects : ∀ hex, .object hex ≠ objectName name →
    t.objects.now (.object hex) = s.objects.now (.object hex)

/-- What is done to temporary files afterwards does not matter. -/
theorem Stowed.apart {name : String} {content : Bytes} (h : Stowed s t name content)
    (h' : Apart t u) : Stowed s u name content := by
  obtain ⟨⟨_, _, rfl⟩, hobject, hobjects⟩ := h
  obtain ⟨⟨_, _, rfl⟩, hsame⟩ := h'
  refine ⟨⟨_, _, rfl⟩, ?_, fun hex hne => ?_⟩
  · rw [objectName, Fs.now, hsame]
    exact hobject
  · rw [Fs.now, hsame]
    exact hobjects hex hne

theorem syncObjects_can {name : String} {content : Bytes} (h : Stowed s t name content) :
    Can r c syncObjects t (fun _ u => Stowed s u name content) := by
  apply Reaches.bind (Can.step (o := .openObjects) true (t := t.note c false) rfl
    (Q := fun opened u => opened = true ∧ u = t.note c false) ⟨rfl, rfl⟩)
  rintro _ u ⟨rfl, rfl⟩
  apply Can.past rfl
  apply Reaches.bind (Can.objects (s := t.note c false) (o := .syncDir) rfl
    (Q := fun synced u => synced = true ∧ Stowed s u name content) (by
      obtain ⟨⟨_, _, rfl⟩, hobject, hobjects⟩ := h
      exact ⟨rfl, ⟨_, _, rfl⟩, hobject, hobjects⟩))
  rintro _ u ⟨rfl, hu⟩
  exact Can.ensure rfl hu

theorem putTemporary_can {reader : Reader} (mediaType : String) (hcopied : Copied c k [] s)
    (hactive : s.cancelled c = false) (hread : reader.failed = false)
    (hlength : reader.content.length ≤ r.maximum)
    (habsent : s.objects.now (objectName (r.digestOf reader.content)) = none) :
    Can r c (putTemporary r.maximum mediaType reader (.temporary k)) s (fun d t =>
      d = ⟨r.digestOf reader.content, mediaType, UInt64.ofNat reader.content.length⟩ ∧
      Stowed s t (r.digestOf reader.content) reader.content) := by
  apply Reaches.bind (R := fun copied t => copied = .ok reader.content ∧
    Copied c k reader.content t ∧ Apart s t)
  · apply Reaches.attempt
    apply Reaches.bind (R := fun result t => result = some reader.content ∧
      Copied c k reader.content t ∧ Apart s t)
    · rw [hread]
      exact copyLoop_can reader.last reader.pieces (r.maximum + 1) [] hcopied hactive
        (Nat.lt_succ_of_le hlength)
    rintro _ t ⟨rfl, ht, hst⟩
    apply Can.past (decide_eq_true hlength)
    exact .pure ⟨rfl, ht, hst⟩
  rintro _ t ⟨rfl, ht, hst⟩
  apply Reaches.bind (Can.objects (o := .sync (.temporary k)) rfl
    (Q := fun synced u => synced = true ∧ Copied c k reader.content u ∧ Apart s u)
    ⟨rfl, Fs.Open.flush ht, hst.trans (apart_modify k _ false)⟩)
  rintro _ u ⟨rfl, hu, hsu⟩
  apply Reaches.bind (Can.objects (o := .close (.temporary k)) rfl
    (Q := fun closed v => closed = true ∧ Copied c k reader.content v ∧ Apart s v)
    ⟨rfl, hu, hsu.trans ⟨⟨_, _, rfl⟩, fun _ => rfl⟩⟩)
  rintro _ v ⟨rfl, hv, hsv⟩
  apply Reaches.bind (R := fun bytes w => bytes = reader.content ∧ w = v)
    ⟨_, v, .refl _ v, rfl, rfl⟩
  rintro _ w ⟨rfl, rfl⟩
  apply Reaches.bind (Can.objects (o := .chmod (.temporary k) 0o400) rfl
    (Q := fun guarded x => guarded = true ∧
      Fs.Open c x.objects (.temporary k) ⟨0o400, reader.content⟩ ∧ Apart s x)
    ⟨rfl, Fs.Open.chmod hv 0o400, hsv.trans (apart_modify k _ false)⟩)
  rintro _ x ⟨rfl, hx, hsx⟩
  apply Can.past rfl
  apply Reaches.bind
    (R := fun name z => name = r.digestOf reader.content ∧ z = x.hash reader.content)
  · apply Reaches.bind
      (Can.step (o := .hash reader.content) _ (t := x.hash reader.content) ⟨rfl, rfl⟩
      (Q := fun sum z => sum = r.library.sha256 reader.content ∧ z = x.hash reader.content)
        ⟨rfl, rfl⟩)
    rintro _ z ⟨rfl, rfl⟩
    exact .pure ⟨rfl, rfl⟩
  rintro _ z ⟨rfl, rfl⟩
  -- the new name is bound to the temporary file
  have hnone : x.objects.now (objectName (r.digestOf reader.content)) = none := by
    rw [objectName, Fs.now, hsx.objects]
    exact habsent
  apply Reaches.bind (Can.step (s := x.hash reader.content)
    (o := .link (.temporary k) (objectName (r.digestOf reader.content))) _
    (.inl ⟨Option.isSome_iff_exists.mpr ⟨_, hx.now⟩, hnone, rfl, rfl⟩)
    (Q := fun linked w => linked = .ok () ∧
      Stowed s w (r.digestOf reader.content) reader.content) ⟨rfl, ?_⟩)
  · rintro _ w ⟨rfl, hw⟩
    apply Reaches.bind (syncObjects_can hw)
    intro _ v hv
    exact .pure ⟨rfl, hv⟩
  · obtain ⟨⟨_, _, rfl⟩, hobjects⟩ := hsx
    refine ⟨⟨_, _, rfl⟩, ?_, fun hex hne => ?_⟩
    · show (Fs.slot (Fs.modify _ _ _) _).now = _
      rw [Fs.modify_slot_self]
      exact hx.now
    · show (Fs.slot (Fs.modify _ _ _) _).now = _
      rw [Fs.modify_slot_of_ne _ _ hne]
      exact congrArg Slot.now (hobjects hex)

/-- **A `Put` of a new object can go through.** -/
theorem put_can (mediaType : String) (reader : Reader) (hmedia : mediaTypePattern mediaType = true)
    (hactive : s.cancelled c = false) (hread : reader.failed = false)
    (hlength : reader.content.length ≤ r.maximum)
    (habsent : s.objects.now (objectName (r.digestOf reader.content)) = none) :
    Can r c (put r.maximum mediaType reader) s (fun d t =>
      d = ⟨r.digestOf reader.content, mediaType, UInt64.ofNat reader.content.length⟩ ∧
      Stowed s t (r.digestOf reader.content) reader.content) := by
  apply Can.past hmedia
  apply Reaches.bind (Can.step (o := .contextErr) _ (t := s) ⟨rfl, rfl⟩
    (Q := fun cancelled u => cancelled = false ∧ u = s) ⟨hactive, rfl⟩)
  rintro _ u ⟨rfl, rfl⟩
  obtain ⟨k, hfree⟩ := u.objects.exists_free (f := ObjectName.temporary) fun _ _ h =>
    ObjectName.temporary.inj h
  apply Reaches.bind (Can.step (o := .objects (.createTemp ObjectName.isTemporary)) _
    ⟨_, false, .inl ⟨.temporary k, trivial, hfree, rfl, rfl⟩, .inl rfl, rfl⟩
    (Q := fun answer v => answer = some (.temporary k) ∧ Copied c k [] v ∧ Apart u v)
    ⟨rfl, Fs.open_create 0o600, apart_modify k _ false⟩)
  rintro _ _ ⟨rfl, hv, ⟨_, _, rfl⟩, hsame⟩
  have hbody := putTemporary_can (r := r) mediaType hv hactive hread hlength
    (by rw [objectName, Fs.now, hsame]; exact habsent)
  apply Can.deferred hbody
  rintro d w ⟨rfl, ⟨_, _, rfl⟩, hobject, hobjects⟩
  have hstowed : Stowed u _ (r.digestOf reader.content) reader.content :=
    ⟨⟨_, _, rfl⟩, hobject, fun hex hne => (hobjects hex hne).trans (congrArg Slot.now (hsame hex))⟩
  have hhealthy := FsOp.healthy_run (c := c) (o := .remove (ObjectName.temporary k)) rfl
  refine ⟨_, _,
    ⟨_, false, FsOp.apply_run (.remove (ObjectName.temporary k)) _, .inl (hhealthy _), rfl⟩, rfl,
    hstowed.apart ?_⟩
  simp only [FsOp.run]
  split
  · exact apart_modify k _ false
  · exact ⟨⟨_, _, rfl⟩, fun _ => rfl⟩

/-! ## Complete -/

theorem Ends.can {body : Work α}
    (h : Ends (calm r c) body s Q fun _ _ => False) : Can r c body s Q := by
  obtain ⟨value, t, hsteps, hvalue⟩ := Prog.Always.steps h
  cases value with
  | ok a => exact ⟨a, t, hsteps.mono fun _ _ _ _ hop => hop.1, hvalue⟩
  | error err => exact hvalue.elim

theorem lookAtRecord_can {f : File} (hnow : s.journal.now n = some f) (message : String) :
    Can r c (lookAtRecord n message) s (fun seen t => seen.file = f ∧ Same s t) :=
  Ends.can (lookAtRecord_ends hnow fun _ hsame => ⟨rfl, hsame⟩)

/-- A claim is read back. -/
theorem readClaim_can (hfp : digestPattern fp = true)
    (hnow : s.journal.now n = some (JournalRecord.claimed fp).file) :
    Can r c (readJournalRecord n) s (fun record t => record = .claimed fp ∧ Same s t) := by
  have hlength := length_line_le (r := .claimed fp) hfp short_zero
  have hpos := line_ne_nil (JournalRecord.claimed fp)
  apply Reaches.bind (lookAtRecord_can hnow _)
  rintro info _ ⟨hfile, _, rfl⟩
  apply Can.past
  · rw [hfile]
    simp [JournalRecord.file, hlength, hpos]
  apply Reaches.bind (lookAtRecord_can (by exact hnow) _)
  rintro value _ ⟨hvalue, _, rfl⟩
  unfold decoded
  rw [hvalue, JournalRecord.file, decodeRecord_line hfp]
  exact .pure ⟨rfl, _, rfl⟩

/-- The temporary file becomes the record. -/
theorem commitRecord_can {hex : String} {record : JournalRecord}
    (hopen : Fs.Open c s.journal (.temporary k) ⟨0o600, []⟩) :
    Can r c (commitRecord (.record hex) (.temporary k) record) s
      (fun _ t => t.journal.now (.record hex) = some record.file ∧ Beside s t) := by
  have hne : JournalName.record hex ≠ .temporary k := fun h => nomatch h
  apply Reaches.bind (Can.journal (o := .chmod (.temporary k) 0o600) rfl
    (Q := fun guarded t => guarded = true ∧ Fs.Open c t.journal (.temporary k) ⟨0o600, []⟩ ∧
      Beside s t) ⟨rfl, hopen.chmod 0o600, _, _, rfl⟩)
  rintro _ _ ⟨rfl, ht, _, _, rfl⟩
  apply Can.done
  apply Reaches.bind (Can.journal (o := .write (.temporary k) record.line) rfl
    (Q := fun written u => written = true ∧ Fs.Open c u.journal (.temporary k) record.file ∧
      Beside s u) ⟨rfl, ht.append record.line, _, _, rfl⟩)
  rintro _ _ ⟨rfl, hu, _, _, rfl⟩
  apply Can.done
  apply Reaches.bind (Can.journal (o := .sync (.temporary k)) rfl
    (Q := fun synced v => synced = true ∧ Fs.Open c v.journal (.temporary k) record.file ∧
      Beside s v) ⟨rfl, hu.flush, _, _, rfl⟩)
  rintro _ _ ⟨rfl, hv, _, _, rfl⟩
  apply Can.done
  refine Reaches.bind (Can.journal (o := .close (.temporary k)) rfl
    (Q := fun closed w => closed = true ∧ Fs.Open c w.journal (.temporary k) record.file ∧
      Beside s w) ⟨rfl, hv, _, _, rfl⟩) ?_
  rintro _ w ⟨rfl, hw, hsw⟩
  apply Can.past rfl
  have hrun : FsOp.run c (.rename (.temporary k) (.record hex)) w.journal =
      (true, w.journal.rename (.temporary k) (.record hex)) := by
    rw [FsOp.run, if_pos (Option.isSome_iff_exists.mpr ⟨_, hw.now⟩)]
  apply Reaches.bind (Can.journal (o := .rename (.temporary k) (.record hex)) rfl
    (Q := fun renamed x => renamed = true ∧ x.journal.now (.record hex) = some record.file ∧
      Beside s x) (by
        rw [hrun]
        obtain ⟨_, _, rfl⟩ := hsw
        exact ⟨rfl, (hw.rename hne).now, _, _, rfl⟩))
  rintro _ x ⟨rfl, hx, _, _, rfl⟩
  apply Can.past rfl
  refine Reaches.bind (Can.step (o := .openJournal) true rfl
    (Q := fun opened y => opened = true ∧ y.journal.now (.record hex) = some record.file ∧
      Beside s y) ⟨rfl, hx, _, _, rfl⟩) ?_
  rintro _ _ ⟨rfl, hx, _, _, rfl⟩
  apply Can.past rfl
  refine Reaches.bind (Can.journal (o := .syncDir) rfl
    (Q := fun synced y => synced = true ∧ y.journal.now (.record hex) = some record.file ∧
      Beside s y) ⟨rfl, hx, _, _, rfl⟩) ?_
  rintro _ y ⟨rfl, hy⟩
  exact Can.ensure rfl hy

/-- A section under the mutex, which is free and is free again. -/
theorem Can.locked {body : Work α} {Q R : α → System → Prop} (hfree : s.mu (s.processOf c) = none)
    (hbody : Can r c body (s.take c) R) (h : ∀ a t, R a t → Q a (t.give c)) :
    Can r c (SoftwareWork.locked body) s Q := by
  apply Reaches.bind (Can.step (o := .lockMutex) () (t := s.take c) ⟨hfree, rfl⟩
    (Q := fun _ t => t = s.take c) rfl)
  rintro _ _ rfl
  apply Can.deferred hbody
  intro a t ha
  exact ⟨(), t.give c, rfl, h a t ha⟩

/-- What a call may change in the journal while it holds the mutex once. -/
structure Completed (s t : System) (c : Nat) (n : JournalName) (f : File) : Prop where
  rest : ∃ journal mu troubled, t = { s with journal, mu, troubled }
  record : t.journal.now n = some f
  free : t.mu (t.processOf c) = none

theorem Beside.completed {f : File} (h : Beside (s.take c) t) (hrecord : t.journal.now n = some f) :
    Completed s (t.give c) c n f := by
  obtain ⟨_, _, rfl⟩ := h
  exact ⟨⟨_, _, _, rfl⟩, hrecord, Function.update_self _ _ _⟩

theorem claim_can {executionID : String} (hid : digestPattern executionID = true)
    (hfp : digestPattern fp = true) (hfree : s.mu (s.processOf c) = none)
    (hnone : s.journal.now (recordName executionID) = none) :
    Can r c (claim executionID fp) s (fun answer t => answer = (true, .claimed fp) ∧
      Completed s t c (recordName executionID) (JournalRecord.claimed fp).file) := by
  apply Can.past
  · rw [hid, hfp]
    rfl
  apply Can.locked hfree (Ends.can (claimFree_ends hnone))
  rintro answer t ⟨rfl, hrecord, hbeside⟩
  exact ⟨rfl, hbeside.completed hrecord⟩

theorem complete_can {executionID : String} (o : Outcome) (hfp : digestPattern fp = true)
    (hfree : s.mu (s.processOf c) = none)
    (hclaim : s.journal.now (recordName executionID) = some (JournalRecord.claimed fp).file) :
    Can r c (complete executionID fp o) s (fun _ t =>
      Completed s t c (recordName executionID) (JournalRecord.completed fp o).file) := by
  apply Can.locked hfree (R := fun _ t =>
    t.journal.now (recordName executionID) = some (JournalRecord.completed fp o).file ∧
      Beside (s.take c) t)
  swap
  · rintro _ t ⟨hrecord, hbeside⟩
    exact hbeside.completed hrecord
  apply Reaches.bind (R := fun existing t => existing = .ok (.claimed fp) ∧ Same (s.take c) t)
  · apply Reaches.attempt
    obtain ⟨record, t, hsteps, rfl, hsame⟩ :=
      readClaim_can (r := r) (c := c) (s := s.take c) hfp hclaim
    exact ⟨_, t, hsteps, rfl, hsame⟩
  rintro _ _ ⟨rfl, _, rfl⟩
  apply Can.past
  · simp [completable, JournalRecord.claimed]
  obtain ⟨k, hunused, hnone⟩ := s.journal.exists_unused (f := JournalName.temporary) fun _ _ h =>
    JournalName.temporary.inj h
  refine Reaches.bind (Can.step (o := .journal (.createTemp JournalName.isTemporary)) _
    ⟨_, false, .inl ⟨.temporary k, trivial, hnone, rfl, rfl⟩,
      fun n hn => Option.some.inj hn ▸ hunused, .inl rfl, rfl⟩
    (Q := fun answer u => answer = some (.temporary k) ∧
      Fs.Open c u.journal (.temporary k) ⟨0o600, []⟩ ∧ Beside (s.take c) u)
    ⟨rfl, Fs.open_create 0o600, _, _, rfl⟩) ?_
  rintro _ _ ⟨rfl, hu, _, _, rfl⟩
  apply Can.deferred (commitRecord_can hu)
  rintro _ _ ⟨hrecord, journal, _, rfl⟩
  have hhealthy := FsOp.healthy_run (c := c) (o := .remove (JournalName.temporary k)) rfl journal
  refine ⟨_, _, ⟨_, false, FsOp.apply_run (.remove (.temporary k)) journal, trivial, .inl hhealthy,
    rfl⟩, ?_, _, _, rfl⟩
  show ((FsOp.run c (.remove (.temporary k)) journal).2).now (recordName executionID) = _
  rw [FsOp.run]
  split
  · have hne : recordName executionID ≠ .temporary k := fun h => by cases h
    show ((journal.modify _ _).slot _).now = _
    rw [Fs.modify_slot_of_ne _ _ hne]
    exact hrecord
  · exact hrecord

/-! ## Execute -/

theorem digest_can (bytes : Bytes) :
    Can r c (digest bytes) s (fun name t => name = r.digestOf bytes ∧ t = s.hash bytes) :=
  Ends.can (digest_ends lenient_healthy bytes ⟨rfl, rfl⟩)

section Execute

variable {request : Request} {result : RunResult} {reported archived : Bytes}

/-- From the result of the run on, where the store has neither of the two objects. -/
theorem deliver_can (hlawful : r.Lawful) (hexit : result.exitCode = 0) (now : Time)
    (hreported : reportBytes request.executionID (r.digestOf result.output) result
      (toUInt64 (Time.unix now)) = reported)
    (htar : r.library.tar [("output.log", result.output), ("report.json", reported)] =
      some archived)
    (hfits : reported.length ≤ r.maximum) (hfits' : archived.length ≤ r.maximum)
    (hdiffer : objectName (r.digestOf archived) ≠ objectName (r.digestOf reported))
    (hfree : s.mu (s.processOf c) = none) (hactive : s.cancelled c = false)
    (hclaim : s.journal.now (recordName request.executionID) =
      some (JournalRecord.claimed (r.fingerprint request)).file)
    (habsent : ∀ hex, s.objects.now (.object hex) = none) :
    Can r c (r.deliver request (r.fingerprint request) result) s
      (fun _ t => t.hashed = archived :: reported :: result.output :: s.hashed ∧
        t.invoked = s.invoked) := by
  apply Can.past (beq_iff_eq.mpr hexit)
  apply Reaches.bind (Can.step (o := .now) now (t := s) rfl
    (Q := fun answer t => answer = now ∧ t = s) ⟨rfl, rfl⟩)
  rintro _ t ⟨rfl, rfl⟩
  apply Reaches.bind (digest_can result.output)
  rintro _ u ⟨rfl, rfl⟩
  rw [hreported]
  have hreport := put_can (r := r) (c := c) (s := t.hash result.output) reportMediaType
    (bytesReader reported) (by decide) hactive rfl
    (by rw [content_bytesReader]; exact hfits) (habsent _)
  rw [content_bytesReader] at hreport
  apply Reaches.bind hreport
  rintro report v ⟨-, ⟨_, _, hv⟩, -, hobjects⟩
  apply Reaches.bind (R := fun bytes w => bytes = archived ∧ w = v)
  · rw [buildArtifact, htar]
    exact ⟨archived, v, .refl _ v, rfl, rfl⟩
  rintro bytes w ⟨rfl, rfl⟩
  have hartifact := put_can (r := r) (c := c) (s := w) artifactMediaType (bytesReader bytes)
    (by decide) (by rw [hv]; exact hactive) rfl (by rw [content_bytesReader]; exact hfits')
    (by
      rw [content_bytesReader, objectName, hobjects _ hdiffer]
      exact habsent _)
  rw [content_bytesReader] at hartifact
  apply Reaches.bind hartifact
  rintro artifact x ⟨-, ⟨_, _, rfl⟩, -, -⟩
  subst hv
  refine Reaches.bind (complete_can _ (hlawful.digestPattern_fingerprint request) hfree hclaim) ?_
  rintro _ _ ⟨⟨_, _, _, rfl⟩, -, -⟩
  exact .pure ⟨rfl, rfl⟩

/-- **An `Execute` of a new request can go through**, with any time and any result that has
the exit code zero. -/
theorem execute_can (hlawful : r.Lawful) (haccepts : r.Accepts request)
    (hexit : result.exitCode = 0) (now : Time)
    (hreported : reportBytes request.executionID (r.digestOf result.output) result
      (toUInt64 (Time.unix now)) = reported)
    (htar : r.library.tar [("output.log", result.output), ("report.json", reported)] =
      some archived)
    (hfits : reported.length ≤ r.maximum) (hfits' : archived.length ≤ r.maximum)
    (hdiffer : objectName (r.digestOf archived) ≠ objectName (r.digestOf reported))
    (hfree : s.mu (s.processOf c) = none) (hactive : s.cancelled c = false)
    (hnone : s.journal.now (recordName request.executionID) = none)
    (habsent : ∀ hex, s.objects.now (.object hex) = none) :
    Can r c (r.execute request) s (fun _ t => t.hashed = archived :: reported :: result.output ::
      request.encoded r.contract :: request.sourceArchive :: s.hashed ∧
      t.invoked.map Invocation.executionID =
        request.executionID :: s.invoked.map Invocation.executionID) := by
  apply Reaches.bind (Ends.can (validateRequest_ends lenient_healthy haccepts))
  rintro _ t rfl
  apply Reaches.bind (digest_can (request.encoded r.contract))
  rintro _ t ⟨rfl, rfl⟩
  have hclaim := claim_can (r := r) (s := (s.hash request.sourceArchive).hash
    (request.encoded r.contract)) haccepts.digestPattern (hlawful.digestPattern_fingerprint request)
    hfree hnone
  apply Reaches.bind hclaim
  rintro _ t ⟨rfl, hrest, hrecord, hfree'⟩
  show Can r c (r.executor request.executionID r.contract.spec request.sourceArchive >>=
    fun result => r.deliver request (r.fingerprint request) result) t _
  rw [hlawful.executor]
  generalize hdisk : t.journal.outcomes (recordName request.executionID) = disk
  have hrun : Can r c (boundExecutor request.executionID r.contract.spec request.sourceArchive) t
      (fun answer u => answer = result ∧
        u = { t with invoked := ⟨c, request.executionID, disk⟩ :: t.invoked }) := by
    rw [← hdisk]
    apply Reaches.bind (Can.step (o := .execute request.executionID r.contract.spec
      request.sourceArchive) (.ok result) rfl
      (Q := fun answer u => answer = .ok result ∧ u = { t with invoked := ⟨c, request.executionID,
        t.journal.outcomes (recordName request.executionID)⟩ :: t.invoked }) ⟨rfl, rfl⟩)
    rintro _ u ⟨rfl, hu⟩
    exact ⟨result, u, .refl _ u, rfl, hu⟩
  apply Reaches.bind hrun
  rintro result u ⟨rfl, rfl⟩
  obtain ⟨_, _, _, ht⟩ := hrest
  have hdeliver := deliver_can (r := r) (c := c)
    (s := { t with invoked := ⟨c, request.executionID, disk⟩ :: t.invoked }) hlawful hexit now
    hreported htar hfits hfits' hdiffer hfree' (by rw [ht]; exact hactive) hrecord
    (by rw [ht]; exact habsent)
  subst ht
  obtain ⟨o, u, hsteps, hhashed, hinvoked⟩ := hdeliver
  exact ⟨o, u, hsteps, hhashed, congrArg (List.map Invocation.executionID) hinvoked⟩

end Execute

/-! ## As a run -/

/-- What an operation leaves alone. -/
theorem apply_keeps {sha256 : Bytes → Bytes} (o : Op) (s : System) (answer : Res o) (t : System)
    (h : System.apply sha256 c o s answer t) :
    t.began = s.began ∧ t.returned = s.returned ∧ t.losses = s.losses := by
  cases o with
  | journal o =>
    obtain ⟨fs, failed, -, -, -, rfl⟩ := h
    exact ⟨rfl, rfl, rfl⟩
  | objects o =>
    obtain ⟨fs, failed, -, -, rfl⟩ := h
    exact ⟨rfl, rfl, rfl⟩
  | link a b =>
    obtain ⟨-, -, -, rfl⟩ | ⟨-, -, rfl⟩ | ⟨-, rfl⟩ := h <;> exact ⟨rfl, rfl, rfl⟩
  | contextErr | executionContextErr | lockMutex | hash =>
    obtain ⟨h, h'⟩ := h
    first
      | (subst h; exact ⟨rfl, rfl, rfl⟩)
      | (subst h'; exact ⟨rfl, rfl, rfl⟩)
  | openJournal | openObjects | unlockMutex | now | execute | runIsolated =>
    subst h
    exact ⟨rfl, rfl, rfl⟩

/-- A call that begins where there are no others, and comes to its end. -/
theorem runs_of_can {m : Method} {process : Nat} {Q : Result → System → Prop}
    (h : Can r s.next (body r m) (s.begin process m) Q) :
    ∃ result t, Q result t ∧ t.began = (s.begin process m).began ∧ t.returned = s.returned ∧
      t.losses = s.losses ∧
      Runs r ⟨s, fun _ => none⟩ ⟨t.finish s.next (.ok result), fun _ => none⟩ := by
  obtain ⟨result, t, hsteps, hQ⟩ := h
  obtain ⟨hbegan, hreturned, hlosses⟩ := hsteps.keeps (A := fun t =>
      t.began = (s.begin process m).began ∧ t.returned = s.returned ∧ t.losses = s.losses)
    (fun o u answer v hop hu => by
      obtain ⟨hbegan, hreturned, hlosses⟩ := apply_keeps o u answer v hop
      exact ⟨hbegan.trans hu.1, hreturned.trans hu.2.1, hlosses.trans hu.2.2⟩) ⟨rfl, rfl, rfl⟩
  refine ⟨result, t, hQ, hbegan, hreturned, hlosses, ?_⟩
  have hstart : (workMachine r).Step ⟨s, fun _ => none⟩
      ⟨s.begin process m, Function.update (fun _ => none) s.next (some (program r m))⟩ :=
    .start rfl ⟨rfl, process, m, rfl, rfl⟩
  have hpool : Function.update (fun _ => none) s.next (some (program r m)) s.next =
      some (program r m) := Function.update_self _ _ _
  have hrest := Machine.Run.steps (M := workMachine r) (A := fun _ => True)
    (fun o u answer v hop => hop) (fun _ _ _ _ _ _ => trivial) hsteps hpool trivial
  rw [Function.update_idem] at hrest
  have hfinish : (workMachine r).Step
      ⟨t, Function.update (fun _ => none) s.next (some (.ret (.ok result)))⟩
      ⟨t.finish s.next (.ok result), fun _ => none⟩ := by
    have hstep := Machine.Step.finish (M := workMachine r) (s := t)
      (Function.update_self s.next (some (Prog.ret (.ok result))) fun _ => none)
    rw [Function.update_idem, Function.update_eq_self] at hstep
    exact hstep
  exact .head ⟨hstart, trivial⟩ (hrest.tail ⟨hfinish, trivial⟩)

end TosAi.SoftwareWork
