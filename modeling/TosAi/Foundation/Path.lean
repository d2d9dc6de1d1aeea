/-
  `path` and `path/filepath` of Unix on Go strings, which are any bytes.

  A path that cleaning leaves as it is and that starts with a slash is a list of names
  (`exists_rooted_of_clean`), and on such paths the functions of the package are functions of
  lists: joining appends, the parent drops the last name, and one path is within another when
  its names start with the other's (`within_rooted`).
-/
import TosAi.Foundation.GoStrings

set_option autoImplicit false

namespace TosAi.Foundation.Path

open Json (Bytes)

/-- The separator. -/
def slash : UInt8 := 0x2f

def dot : Bytes := [0x2e]

def dotDot : Bytes := [0x2e, 0x2e]

/-- The elements between the slashes. -/
def elements (path : Bytes) : List Bytes := path.splitOn slash

/-- The elements with a slash between them. -/
def joined (es : List Bytes) : Bytes := [slash].intercalate es

/-- The path of these names from the root. -/
def rooted (es : List Bytes) : Bytes := slash :: joined es

/-- `filepath.IsAbs`. -/
def isAbs (path : Bytes) : Bool := path.head? == some slash

/-- `..` takes back the element before it, the last of `done`, where there is one. -/
def up (absolute : Bool) : List Bytes → List Bytes
  | [] => if absolute then [] else [dotDot]
  | last :: before => if last = dotDot then dotDot :: last :: before else before

/-- One more element of a path that is being cleaned; of those kept so far the last is first. -/
def push (absolute : Bool) (done : List Bytes) (e : Bytes) : List Bytes :=
  if e = [] ∨ e = dot then done
  else if e = dotDot then up absolute done
  else e :: done

/-- The elements that cleaning keeps. -/
def kept (absolute : Bool) (es : List Bytes) : List Bytes := (es.foldl (push absolute) []).reverse

/-- `filepath.Clean` and `path.Clean`. -/
def clean (path : Bytes) : Bytes :=
  let es := kept (isAbs path) (elements path)
  if isAbs path then rooted es else if es = [] then dot else joined es

/-- `filepath.Join` of two elements. -/
def join (a b : Bytes) : Bytes :=
  if a = [] then (if b = [] then [] else clean b) else clean (a ++ slash :: b)

/-- `filepath.Dir`. -/
def dir (path : Bytes) : Bytes := clean (path.reverse.dropWhile (· != slash)).reverse

/-- What is left of two lists after their common beginning. -/
def dropCommon : List Bytes → List Bytes → List Bytes × List Bytes
  | b :: bs, t :: ts => if b = t then dropCommon bs ts else (b :: bs, t :: ts)
  | bs, ts => (bs, ts)

/-- The elements of a clean path. -/
def names (path : Bytes) : List Bytes := (elements path).filter (· ≠ [])

/-- `filepath.Rel`. -/
def rel (basePath targetPath : Bytes) : Option Bytes :=
  let base := clean basePath
  let target := clean targetPath
  if target = base then some dot
  else if isAbs base ≠ isAbs target then none
  else
    let rest := dropCommon (if base = dot then [] else names base) (names target)
    if rest.1.head? = some dotDot then none
    else some (joined (List.replicate rest.1.length dotDot ++ rest.2))

/-- The path is `..` or starts with it. -/
def goesUp (path : Bytes) : Bool := path == dotDot || (dotDot ++ [slash]).isPrefixOf path

/-- The path is the other one or below it. -/
def within (root candidate : Bytes) : Bool :=
  match rel root candidate with
  | some relative => relative == dot || !goesUp relative
  | none => false

/-! ## Names -/

/-- An element that cleaning keeps where it is. -/
structure IsName (e : Bytes) : Prop where
  ne_nil : e ≠ []
  no_slash : slash ∉ e
  ne_dot : e ≠ dot
  ne_dotDot : e ≠ dotDot

instance (e : Bytes) : Decidable (IsName e) :=
  decidable_of_iff (e ≠ [] ∧ slash ∉ e ∧ e ≠ dot ∧ e ≠ dotDot)
    ⟨fun ⟨a, b, c, d⟩ => ⟨a, b, c, d⟩, fun ⟨a, b, c, d⟩ => ⟨a, b, c, d⟩⟩

@[simp] theorem elements_nil : elements [] = [[]] := List.splitOn_nil _

theorem elements_append (a b : Bytes) : elements (a ++ slash :: b) = elements a ++ elements b :=
  List.splitOn_append_cons_self a b

theorem elements_slash (b : Bytes) : elements (slash :: b) = [] :: elements b := by
  simpa using elements_append [] b

variable {es done fs : List Bytes} {e : Bytes} {absolute : Bool}

theorem elements_joined (h : ∀ e ∈ es, slash ∉ e) (hne : es ≠ []) :
    elements (joined es) = es :=
  List.splitOn_intercalate slash h hne

theorem joined_elements (path : Bytes) : joined (elements path) = path :=
  List.intercalate_splitOn slash

variable {path : Bytes}

/-- What stands between two separators has none. -/
theorem notMem_of_mem_splitOn {sep : UInt8} (h : e ∈ path.splitOn sep) : sep ∉ e := by
  induction path generalizing e with
  | nil =>
    rw [List.splitOn_nil, List.mem_singleton] at h
    exact h ▸ List.not_mem_nil
  | cons b path ih =>
    rw [List.splitOn_cons_eq_if_modifyHead] at h
    split at h
    · rcases List.mem_cons.mp h with rfl | h
      · exact List.not_mem_nil
      · exact ih h
    · rename_i hb
      obtain ⟨first, others, hsplit⟩ := List.exists_cons_of_ne_nil (List.splitOn_ne_nil sep path)
      rw [hsplit, List.modifyHead_cons, List.mem_cons] at h
      rw [hsplit] at ih
      rcases h with rfl | h
      · intro hmem
        rcases List.mem_cons.mp hmem with heq | hmem
        · exact hb (heq ▸ beq_self_eq_true _)
        · exact ih List.mem_cons_self hmem
      · exact ih (List.mem_cons_of_mem _ h)

theorem no_slash_of_mem_elements (h : e ∈ elements path) : slash ∉ e :=
  notMem_of_mem_splitOn h

@[simp] theorem joined_nil : joined [] = [] := rfl

@[simp] theorem joined_singleton (e : Bytes) : joined [e] = e := by simp [joined]

theorem joined_cons_cons (e f : Bytes) (es : List Bytes) :
    joined (e :: f :: es) = e ++ slash :: joined (f :: es) := by
  simp [joined, List.intercalate]

theorem joined_append (he : es ≠ []) (hf : fs ≠ []) :
    joined (es ++ fs) = joined es ++ slash :: joined fs := by
  induction es with
  | nil => exact absurd rfl he
  | cons e es ih =>
    cases es with
    | nil =>
      obtain ⟨f, fs, rfl⟩ := List.exists_cons_of_ne_nil hf
      rw [joined_singleton]
      exact joined_cons_cons e f fs
    | cons e' es =>
      rw [List.cons_append, List.cons_append, joined_cons_cons, ← List.cons_append,
        ih (List.cons_ne_nil _ _), joined_cons_cons, List.append_assoc, List.cons_append]

/-! ## Cleaning -/

theorem push_nil (absolute : Bool) (done : List Bytes) : push absolute done [] = done := by
  simp [push]

theorem push_dot (absolute : Bool) (done : List Bytes) : push absolute done dot = done := by
  simp [push]

theorem push_name (h : IsName e) :
    push absolute done e = e :: done := by
  simp [push, h.ne_nil, h.ne_dot, h.ne_dotDot]

theorem foldl_push_names (h : ∀ e ∈ es, IsName e) :
    es.foldl (push absolute) done = es.reverse ++ done := by
  induction es generalizing done with
  | nil => rfl
  | cons e es ih =>
    rw [List.foldl_cons, push_name (h e List.mem_cons_self),
      ih fun f hf => h f (List.mem_cons_of_mem _ hf),
      List.reverse_cons, List.append_assoc, List.singleton_append]

/-- Splitting what was joined gives the names back to the cleaning, the empty path included. -/
theorem foldl_push_joined (h : ∀ e ∈ es, IsName e) :
    (elements (joined es)).foldl (push absolute) done = es.reverse ++ done := by
  rcases es with _ | ⟨e, es⟩
  · exact push_nil absolute done
  · rw [elements_joined (fun f hf => (h f hf).no_slash) (List.cons_ne_nil _ _), foldl_push_names h]

theorem isAbs_rooted (es : List Bytes) : isAbs (rooted es) = true := by
  simp [isAbs, rooted]

theorem clean_of_isAbs (h : isAbs path = true) :
    clean path = rooted (kept true (elements path)) := by
  rw [clean, h, if_pos rfl]

theorem clean_rooted (h : ∀ e ∈ es, IsName e) : clean (rooted es) = rooted es := by
  rw [clean_of_isAbs (isAbs_rooted es), kept,
    show elements (rooted es) = [] :: elements (joined es) from elements_slash _, List.foldl_cons,
    push_nil, foldl_push_joined h, List.append_nil, List.reverse_reverse]

/-- Under an absolute path everything kept is a name. -/
theorem isName_push (hdone : ∀ f ∈ done, IsName f) (he : slash ∉ e) :
    ∀ f ∈ push true done e, IsName f := by
  rw [push]
  split
  · exact hdone
  · rename_i hkeep
    rw [not_or] at hkeep
    split
    · cases done with
      | nil => simp [up]
      | cons last before =>
        rw [up, if_neg (hdone last List.mem_cons_self).ne_dotDot]
        exact fun f hf => hdone f (List.mem_cons_of_mem _ hf)
    · rename_i hup
      intro f hf
      rcases List.mem_cons.mp hf with rfl | hf
      · exact ⟨hkeep.1, he, hkeep.2, hup⟩
      · exact hdone f hf

theorem isName_foldl_push (hdone : ∀ e ∈ done, IsName e) (hes : ∀ e ∈ es, slash ∉ e) :
    ∀ e ∈ es.foldl (push true) done, IsName e := by
  induction es generalizing done with
  | nil => exact hdone
  | cons e es ih =>
    exact ih (isName_push hdone (hes e List.mem_cons_self)) fun f hf =>
      hes f (List.mem_cons_of_mem _ hf)

theorem isName_kept : ∀ e ∈ kept true (elements path), IsName e := by
  intro e he
  rw [kept, List.mem_reverse] at he
  exact isName_foldl_push (by simp) (fun f hf => no_slash_of_mem_elements hf) e he

/-- **A clean absolute path is a list of names.** -/
theorem exists_rooted_of_clean (habs : isAbs path = true) (hclean : clean path = path) :
    ∃ es, (∀ e ∈ es, IsName e) ∧ path = rooted es :=
  ⟨_, isName_kept, hclean.symm.trans (clean_of_isAbs habs)⟩

theorem names_rooted (h : ∀ e ∈ es, IsName e) : names (rooted es) = es := by
  have hfilter : es.filter (· ≠ []) = es := by
    rw [List.filter_eq_self]
    intro e he
    simpa using (h e he).ne_nil
  rw [names, show elements (rooted es) = [] :: elements (joined es) from elements_slash _]
  rcases es with _ | ⟨e, es⟩
  · simp
  · rw [elements_joined (fun f hf => (h f hf).no_slash) (List.cons_ne_nil _ _),
      List.filter_cons_of_neg (by simp), hfilter]

theorem rooted_injective (he : ∀ e ∈ es, IsName e) (hf : ∀ e ∈ fs, IsName e)
    (h : rooted es = rooted fs) : es = fs := by
  rw [← names_rooted he, h, names_rooted hf]

/-! ## Joining and the parent -/

theorem join_of_rooted (es : List Bytes) (b : Bytes) :
    join (rooted es) b
      = rooted ((elements (joined es) ++ elements b).foldl (push true) []).reverse := by
  have habs : isAbs (rooted es ++ slash :: b) = true := by simp [isAbs, rooted]
  have hparts : elements (rooted es ++ slash :: b) =
      [] :: (elements (joined es) ++ elements b) := by
    rw [rooted, List.cons_append, elements_slash, elements_append]
  rw [join, if_neg (by simp [rooted]), clean_of_isAbs habs, kept, hparts, List.foldl_cons, push_nil]

theorem join_rooted (he : ∀ e ∈ es, IsName e) (hf : ∀ e ∈ fs, IsName e) :
    join (rooted es) (joined fs) = rooted (es ++ fs) := by
  rw [join_of_rooted, List.foldl_append, foldl_push_joined he, foldl_push_joined hf,
    List.append_nil, List.reverse_append, List.reverse_reverse, List.reverse_reverse]

theorem join_rooted_dot (h : ∀ e ∈ es, IsName e) : join (rooted es) dot = rooted es := by
  rw [join_of_rooted, List.foldl_append, foldl_push_joined h, show elements dot = [dot] from rfl,
    List.foldl_cons, push_dot, List.foldl_nil, List.append_nil, List.reverse_reverse]

/-- What stands after the last slash is dropped. -/
theorem dropWhile_reverse {a : Bytes} (h : slash ∉ e) :
    ((a ++ slash :: e).reverse.dropWhile (· != slash)).reverse = a ++ [slash] := by
  rw [List.reverse_append, List.reverse_cons, List.append_assoc,
    List.dropWhile_append_of_pos (fun b hb => ?_)]
  · simp
  · rw [List.mem_reverse] at hb
    exact bne_iff_ne.mpr fun heq => h (heq ▸ hb)

theorem dir_rooted_concat (h : ∀ f ∈ es ++ [e], IsName f) :
    dir (rooted (es ++ [e])) = rooted es := by
  have hes : ∀ f ∈ es, IsName f := fun f hf => h f (List.mem_append_left _ hf)
  have he : slash ∉ e := (h e (by simp)).no_slash
  rcases List.eq_nil_or_concat' es with rfl | hne
  · have hcut := dropWhile_reverse (a := []) he
    simp only [List.nil_append] at hcut
    rw [dir, rooted, List.nil_append, joined_singleton, hcut]
    rfl
  · have hne : es ≠ [] := by
      obtain ⟨before, last, rfl⟩ := hne
      simp
    have hjoin : clean (rooted es ++ [slash]) = rooted es := by
      have h := join_rooted hes (by simp : ∀ e ∈ ([] : List Bytes), IsName e)
      rwa [join, if_neg (by simp [rooted]), joined_nil, List.append_nil] at h
    have hcut := dropWhile_reverse (a := rooted es) he
    rw [dir, show rooted (es ++ [e]) = rooted es ++ slash :: e by
      rw [rooted, joined_append hne (by simp), joined_singleton, rooted, List.cons_append],
        hcut, hjoin]

/-! ## One path within another -/

theorem goesUp_joined (h : ∀ f ∈ e :: es, slash ∉ f) :
    goesUp (joined (e :: es)) = true ↔ e = dotDot := by
  have hhead : (elements (joined (e :: es))).head? = some e := by
    rw [elements_joined h (List.cons_ne_nil _ _), List.head?_cons]
  simp only [goesUp, Bool.or_eq_true, beq_iff_eq, List.isPrefixOf_iff_prefix]
  constructor
  · rintro (heq | ⟨rest, heq⟩)
    · rw [heq] at hhead
      exact (Option.some.inj hhead).symm
    · rw [← heq, List.append_assoc, List.singleton_append, elements_append] at hhead
      exact (Option.some.inj hhead).symm
  · rintro rfl
    cases es with
    | nil => exact .inl (joined_singleton _)
    | cons f es =>
      refine .inr ⟨joined (f :: es), ?_⟩
      rw [joined_cons_cons, List.append_assoc, List.singleton_append]

theorem dropCommon_append (es fs : List Bytes) : dropCommon es (es ++ fs) = ([], fs) := by
  induction es with
  | nil => cases fs <;> rfl
  | cons e es ih => simpa [dropCommon] using ih

theorem dropCommon_cases (es fs : List Bytes) :
    (∃ rest, fs = es ++ rest ∧ dropCommon es fs = ([], rest)) ∨
      ¬es <+: fs ∧ ∃ b bs ts, dropCommon es fs = (b :: bs, ts) ∧ b ∈ es ∧ ∀ t ∈ ts, t ∈ fs := by
  induction es generalizing fs with
  | nil => exact .inl ⟨fs, rfl, dropCommon_append [] fs⟩
  | cons e es ih =>
    cases fs with
    | nil => exact .inr ⟨by simp, e, es, [], rfl, List.mem_cons_self, by simp⟩
    | cons f fs =>
      by_cases heq : e = f
      · subst heq
        rcases ih fs with ⟨rest, rfl, hdrop⟩ | ⟨hnot, b, bs, ts, hdrop, hb, hts⟩
        · exact .inl ⟨rest, rfl, by simpa [dropCommon] using hdrop⟩
        · exact .inr ⟨by simpa using hnot, b, bs, ts, by simpa [dropCommon] using hdrop,
            List.mem_cons_of_mem _ hb, fun t ht => List.mem_cons_of_mem _ (hts t ht)⟩
      · exact .inr ⟨by simp [List.cons_prefix_cons, heq], e, es, f :: fs, by simp [dropCommon, heq],
          List.mem_cons_self, fun t ht => ht⟩

/-- **One clean path is within another when its names start with the other's.** -/
theorem within_rooted (he : ∀ e ∈ es, IsName e) (hf : ∀ e ∈ fs, IsName e) :
    within (rooted es) (rooted fs) = true ↔ es <+: fs := by
  have hbase : rooted es ≠ dot := by simp [rooted, dot, slash]
  by_cases hsame : fs = es
  · subst hsame
    simp [within, rel]
  have hdiff : rooted fs ≠ rooted es := fun h => hsame (rooted_injective hf he h)
  rw [within, rel]
  simp only [clean_rooted he, clean_rooted hf, if_neg hdiff, isAbs_rooted, ne_eq,
    not_true, if_false, if_neg hbase, names_rooted he, names_rooted hf]
  rcases dropCommon_cases es fs with ⟨rest, rfl, hdrop⟩ | ⟨hnot, b, bs, ts, hdrop, hb, hts⟩
  · obtain ⟨r, rest, rfl⟩ : ∃ r rest', rest = r :: rest' :=
      List.exists_cons_of_ne_nil fun h => hsame (by rw [h, List.append_nil])
    have hup : goesUp (joined (r :: rest)) = false := by
      rw [Bool.eq_false_iff]
      intro h
      have hr := (goesUp_joined fun f hf' => (hf f (List.mem_append_right _ hf')).no_slash).mp h
      exact (hf r (by simp)).ne_dotDot hr
    simp [hdrop, hup]
  · -- something of the first path is left, so the way leads up
    have hup : goesUp (joined (dotDot :: (List.replicate bs.length dotDot ++ ts))) = true := by
      refine (goesUp_joined fun f hf' => ?_).mpr rfl
      rcases List.mem_cons.mp hf' with rfl | hf'
      · decide
      · rcases List.mem_append.mp hf' with hf' | hf'
        · rw [List.eq_of_mem_replicate hf']
          decide
        · exact (hf f (hts f hf')).no_slash
    have hdot : joined (dotDot :: (List.replicate bs.length dotDot ++ ts)) ≠ dot := by
      intro h
      rw [h] at hup
      exact absurd hup (by decide)
    have hhead : b ≠ dotDot := (he b hb).ne_dotDot
    simp [hdrop, hhead, hnot, List.replicate_succ, hup, hdot]

end TosAi.Foundation.Path
