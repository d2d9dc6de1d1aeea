/-
  The directories of a hierarchy.

  What a hierarchy has to be asked is a list of directories (`directories`): those from the
  process's control group up to the mount point, as the names of their paths say.  A walk is a
  fold over this list as long as it has at most 129 of them (`walkCgroupAncestors_eq`), and a
  membership that is resolved leads to a path below the mount point (`below_of_select`).
-/
import TosAi.Probe.Selection

set_option autoImplicit false

namespace TosAi.Probe

open Foundation
open Foundation.Json (Bytes)

/-! ## The directories of a hierarchy -/

/-- The directories from one path up to another, the lowest first. -/
def directories (point current : Bytes) : List Bytes :=
  (((Path.names current).inits.filter fun es => (Path.names point).isPrefixOf es).reverse).map
    Path.rooted

/-- The directories between are those whose names start with the names of the upper one and
begin the names of the lower one. -/
theorem mem_directories {point current d : Bytes} : d ∈ directories point current ↔
    ∃ es, Path.names point <+: es ∧ es <+: Path.names current ∧ d = Path.rooted es := by
  simp only [directories, List.mem_map, List.mem_reverse, List.mem_filter, List.mem_inits,
    List.isPrefixOf_iff_prefix]
  constructor
  · rintro ⟨es, ⟨hlow, hhigh⟩, rfl⟩
    exact ⟨es, hhigh, hlow, rfl⟩
  · rintro ⟨es, hhigh, hlow, rfl⟩
    exact ⟨es, ⟨hlow, hhigh⟩, rfl⟩

/-- A path that stands below another one, name by name. -/
def Below (point current : Bytes) : Prop :=
  ∃ ps rs, (∀ e ∈ ps ++ rs, Path.IsName e) ∧ point = Path.rooted ps ∧
    current = Path.rooted (ps ++ rs)

theorem filter_inits_append (ps rs : List Bytes) :
    (ps ++ rs).inits.filter (fun es => ps.isPrefixOf es) = rs.inits.map (ps ++ ·) := by
  induction ps with
  | nil => simp
  | cons p ps ih =>
    have hcons : (fun es => (p :: ps).isPrefixOf es) ∘ (fun es => p :: es) = fun es =>
        ps.isPrefixOf es := by
      funext es
      simp [List.isPrefixOf]
    rw [List.cons_append, List.inits_cons, List.filter_cons_of_neg (by simp [List.isPrefixOf]),
      List.filter_map, hcons, ih, List.map_map]
    rfl

variable {ps rs : List Bytes}

theorem directories_rooted (h : ∀ e ∈ ps ++ rs, Path.IsName e) :
    directories (Path.rooted ps) (Path.rooted (ps ++ rs))
      = (rs.inits.map fun es => Path.rooted (ps ++ es)).reverse := by
  have hps : ∀ e ∈ ps, Path.IsName e := fun e he => h e (List.mem_append_left _ he)
  rw [directories, Path.names_rooted h, Path.names_rooted hps, filter_inits_append,
    List.map_reverse, List.map_map]
  rfl

theorem directories_nil (ps : List Bytes) (h : ∀ e ∈ ps, Path.IsName e) :
    directories (Path.rooted ps) (Path.rooted ps) = [Path.rooted ps] := by
  have hnames : ∀ e ∈ ps ++ [], Path.IsName e := by simpa using h
  simpa using directories_rooted hnames

theorem directories_concat {e : Bytes} (h : ∀ f ∈ ps ++ (rs ++ [e]), Path.IsName f) :
    directories (Path.rooted ps) (Path.rooted (ps ++ (rs ++ [e])))
      = Path.rooted (ps ++ (rs ++ [e])) :: directories (Path.rooted ps)
        (Path.rooted (ps ++ rs)) := by
  have hrs : ∀ f ∈ ps ++ rs, Path.IsName f := by
    intro f hf
    refine h f ?_
    rw [← List.append_assoc]
    exact List.mem_append_left _ hf
  rw [directories_rooted h, directories_rooted hrs, List.inits_append, List.map_append,
    List.reverse_append]
  rfl

theorem length_directories (h : ∀ e ∈ ps ++ rs, Path.IsName e) :
    (directories (Path.rooted ps) (Path.rooted (ps ++ rs))).length = rs.length + 1 := by
  rw [directories_rooted h, List.length_reverse, List.length_map, List.length_inits]

theorem Below.nodup_directories {point current : Bytes} (h : Below point current) :
    (directories point current).Nodup := by
  obtain ⟨ps, rs, hnames, rfl, rfl⟩ := h
  induction rs using List.reverseRecOn with
  | nil =>
    rw [List.append_nil, directories_nil ps (by simpa using hnames)]
    exact List.nodup_singleton _
  | append_singleton rs e ih =>
    have hrs : ∀ f ∈ ps ++ rs, Path.IsName f := by
      intro f hf
      refine hnames f ?_
      rw [← List.append_assoc]
      exact List.mem_append_left _ hf
    rw [directories_concat hnames]
    refine List.nodup_cons.mpr ⟨fun hmem => ?_, ih hrs⟩
    -- the lowest directory has more names than any above it
    obtain ⟨es, -, hlow, heq⟩ := mem_directories.mp hmem
    rw [Path.names_rooted hrs] at hlow
    have hes : es = ps ++ (rs ++ [e]) :=
      (Path.rooted_injective hnames (fun f hf => hrs f (hlow.subset hf)) heq).symm
    have hlength := hlow.length_le
    rw [hes] at hlength
    simp at hlength

/-! ## The walk -/

section Walk

variable {σ : Type} {visit : σ → Bytes → Option σ}

theorem walkFrom_eq (h : ∀ e ∈ ps ++ rs, Path.IsName e) (fuel : Nat) (s : σ) :
    walkFrom (Path.rooted ps) visit fuel s (Path.rooted (ps ++ rs)) =
      if rs.length < fuel then
        (directories (Path.rooted ps) (Path.rooted (ps ++ rs))).foldlM visit s
      else none := by
  -- every step drops the last name
  induction rs using List.reverseRecOn generalizing fuel s with
  | nil =>
    cases fuel with
    | zero => rfl
    | succ fuel =>
      rw [List.append_nil, directories_nil ps (by simpa using h), List.length_nil,
        if_pos (Nat.succ_pos fuel), walkFrom]
      simp only [if_true, List.foldlM_cons, List.foldlM_nil]
      rfl
  | append_singleton rs e ih =>
    have hassoc : ps ++ (rs ++ [e]) = (ps ++ rs) ++ [e] := (List.append_assoc ps rs [e]).symm
    have hrs : ∀ f ∈ ps ++ rs, Path.IsName f :=
      fun f hf => h f (by rw [hassoc]; exact List.mem_append_left _ hf)
    have hps : ∀ f ∈ ps, Path.IsName f := fun f hf => hrs f (List.mem_append_left _ hf)
    cases fuel with
    | zero => rfl
    | succ fuel =>
      have hroot : Path.rooted (ps ++ (rs ++ [e])) ≠ Path.rooted ps := by
        intro heq
        have hlength := congrArg List.length (Path.rooted_injective h hps heq)
        simp at hlength
      have hparent : Path.dir (Path.rooted (ps ++ (rs ++ [e]))) = Path.rooted (ps ++ rs) := by
        rw [hassoc]
        exact Path.dir_rooted_concat (hassoc ▸ h)
      have hup : Path.rooted (ps ++ rs) ≠ Path.rooted (ps ++ (rs ++ [e])) := by
        intro heq
        have hlength := congrArg List.length (Path.rooted_injective hrs h heq)
        simp at hlength
      have hwithin : Path.within (Path.rooted ps) (Path.rooted (ps ++ rs)) = true :=
        (Path.within_rooted hps hrs).mpr (List.prefix_append ps rs)
      rw [walkFrom, directories_concat h]
      cases hvisit : visit s (Path.rooted (ps ++ (rs ++ [e]))) with
      | none => simp [hvisit]
      | some s' =>
        simp only [Option.bind_eq_bind, Option.bind_some, if_neg hroot, hparent, hup, hwithin,
          List.foldlM_cons, hvisit, Bool.not_true, Bool.false_eq_true, or_self, if_false, ih hrs,
          List.length_append, List.length_singleton, Nat.add_lt_add_iff_right]

/-- **The walk.**  Each directory is visited once, from the lowest up; with more than 129 of
them there is an error. -/
theorem walkCgroupAncestors_eq {point current : Bytes} (h : Below point current) (s : σ) :
    walkCgroupAncestors current point visit s =
      if (directories point current).length ≤ 129 then (directories point current).foldlM visit s
      else none := by
  obtain ⟨ps, rs, hnames, rfl, rfl⟩ := h
  have hps : ∀ e ∈ ps, Path.IsName e := fun e he => hnames e (List.mem_append_left _ he)
  have hwithin : Path.within (Path.rooted ps) (Path.rooted (ps ++ rs)) = true :=
    (Path.within_rooted hps hnames).mpr (List.prefix_append ps rs)
  simp only [walkCgroupAncestors, Path.clean_rooted hps, Path.clean_rooted hnames, hwithin,
    Bool.not_true, Bool.false_eq_true, if_false, walkFrom_eq hnames, length_directories hnames,
    maxCgroupDepth, Nat.succ_le_iff]

theorem foldlM_of_walk {point current : Bytes} (h : Below point current) {s s' : σ}
    (hwalk : walkCgroupAncestors current point visit s = some s') :
    (directories point current).length ≤ 129 ∧
    (directories point current).foldlM visit s = some s' := by
  rw [walkCgroupAncestors_eq h] at hwalk
  split at hwalk
  · exact ⟨‹_›, hwalk⟩
  · cases hwalk

end Walk

/-! ## Where a membership leads -/

theorem cleanResourcePath_eq_some {value path : Bytes} (h : cleanResourcePath value = some path) :
    path = value ∧ ∃ es, (∀ e ∈ es, Path.IsName e) ∧ value = Path.rooted es := by
  rw [cleanResourcePath] at h
  split_ifs at h with hbad hclean
  simp only [not_or, Bool.not_eq_true', Bool.not_eq_false, ne_eq, not_not] at hbad hclean
  cases h
  refine ⟨hclean, ?_⟩
  exact Path.exists_rooted_of_clean hbad.2.2.1 hclean

/-- What is left of a clean path after a clean path and a slash are names. -/
theorem exists_names_of_append {es ms : List Bytes} {tail : Bytes} (hes : ∀ e ∈ es, Path.IsName e)
    (hms : ∀ e ∈ ms, Path.IsName e) (hne : es ≠ [])
    (h : Path.rooted ms = Path.rooted es ++ Path.slash :: tail) :
    ∃ rs, (∀ e ∈ rs, Path.IsName e) ∧ tail = Path.joined rs := by
  have hparts : Path.elements (Path.joined ms) = es ++ Path.elements tail := by
    have hjoined : Path.joined ms = Path.joined es ++ Path.slash :: tail := by
      simpa [Path.rooted] using h
    rw [hjoined, Path.elements_append, Path.elements_joined (fun e he => (hes e he).no_slash) hne]
  cases ms with
  | nil =>
    have hlength := congrArg List.length h
    rw [Path.rooted, Path.joined_nil, List.length_append, Path.rooted, List.length_cons,
      List.length_cons, List.length_cons] at hlength
    simp only [List.length_nil] at hlength
    omega
  | cons m ms =>
    rw [Path.elements_joined (fun e he => (hms e he).no_slash) (List.cons_ne_nil _ _)] at hparts
    refine ⟨Path.elements tail, fun e he => hms e ?_, (Path.joined_elements tail).symm⟩
    rw [hparts]
    exact List.mem_append_right _ he

/-- The path a membership is resolved to stands below the mount point. -/
theorem below_of_resolve {mount : CgroupMount} {membership current : Bytes}
    (h : resolveCgroupPath mount membership = some current) : Below mount.point current := by
  simp only [resolveCgroupPath, Option.bind_eq_bind, Option.bind_eq_some_iff] at h
  obtain ⟨root, hroot, point, hpoint, member, hmember, relative, hrelative, hcurrent⟩ := h
  obtain ⟨rfl, es, hes, hroot⟩ := cleanResourcePath_eq_some hroot
  obtain ⟨rfl, ps, hps, hpoint⟩ := cleanResourcePath_eq_some hpoint
  obtain ⟨rfl, ms, hms, hmember⟩ := cleanResourcePath_eq_some hmember
  -- the rest of the membership is a list of names, or the dot, which adds none
  have hjoin : ∃ rs, (∀ e ∈ rs, Path.IsName e) ∧
      Path.join mount.point relative = Path.rooted (ps ++ rs) := by
    rw [hpoint]
    rw [hroot, hmember, relativeMembership] at hrelative
    split_ifs at hrelative with hsame htop hbelow hnamespace
    · cases hrelative
      exact ⟨[], by simp, by rw [Path.join_rooted_dot hps, List.append_nil]⟩
    · cases hrelative
      exact ⟨ms, hms, Path.join_rooted hps hms⟩
    · cases hrelative
      rw [List.isPrefixOf_iff_prefix] at hbelow
      obtain ⟨tail, htail⟩ := hbelow
      rw [List.append_assoc, List.singleton_append] at htail
      have hne : es ≠ [] := fun hnil => htop (by rw [hnil]; rfl)
      obtain ⟨rs, hrs, rfl⟩ := exists_names_of_append hes hms hne htail.symm
      refine ⟨rs, hrs, ?_⟩
      rw [← htail, List.drop_left, List.drop_one, List.tail_cons, Path.join_rooted hps hrs]
    · cases hrelative
      exact ⟨[], by simp, by rw [Path.join_rooted_dot hps, List.append_nil]⟩
  obtain ⟨rs, hrs, hjoin⟩ := hjoin
  have hnames : ∀ e ∈ ps ++ rs, Path.IsName e :=
    fun e he => (List.mem_append.mp he).elim (hps e) (hrs e)
  rw [hjoin, Path.clean_rooted hnames] at hcurrent
  split_ifs at hcurrent
  cases hcurrent
  exact ⟨ps, rs, hnames, hpoint, rfl⟩

theorem below_of_select {mounts : List CgroupMount} {version : Int} {controller membership : Bytes}
    {mount : CgroupMount} {current : Bytes}
    (h : selectCgroupMount mounts version controller membership = some (mount, current)) :
    Below mount.point current :=
  below_of_resolve (mostSpecific_of_select h).2.1.2.2

end TosAi.Probe
