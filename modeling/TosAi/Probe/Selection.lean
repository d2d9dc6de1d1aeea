/-
  Which mount of a hierarchy is selected.

  The order-free reading: a mount point and a path are selected when some mount resolves the
  membership to them and every resolving mount with a root as long as any other's gives the
  same two.  The code goes through the mounts once and compares each with the best so far, so
  that it also rejects a conflict between two less specific mounts if both stand before the
  more specific one.  It agrees with the order-free reading exactly on the lists that are not
  crossed in this way (`selectCgroupMount_selects`).
-/
import TosAi.Foundation.RunningBest
import TosAi.Probe.Cgroup

set_option autoImplicit false

namespace TosAi.Probe

open Foundation
open Foundation.Json (Bytes)

variable {path : Bytes}

section Selection

variable (version : Int) (controller membership : Bytes)

/-- A mount of the version and the controller leads the membership to a path. -/
def Resolves (mount : CgroupMount) (current : Bytes) : Prop :=
  mount.version = version ∧ mountHasController mount controller = true ∧
    resolveCgroupPath mount membership = some current

/-- A resolving mount of the list whose root is as long as that of any other. -/
def MostSpecific (mounts : List CgroupMount) (mount : CgroupMount) (current : Bytes) : Prop :=
  mount ∈ mounts ∧ Resolves version controller membership mount current ∧
    ∀ other ∈ mounts, ∀ path, Resolves version controller membership other path →
      other.root.length ≤ mount.root.length

/-- Two of the most specific mounts give different mount points or paths. -/
def Conflict (mounts : List CgroupMount) : Prop :=
  ∃ mount current other path, MostSpecific version controller membership mounts mount current ∧
    MostSpecific version controller membership mounts other path ∧
    (mount.point, current) ≠ (other.point, path)

/-- The order-free selection: there is a most specific mount and all of them give this point
and path. -/
def Selects (mounts : List CgroupMount) (point path : Bytes) : Prop :=
  (∃ mount, MostSpecific version controller membership mounts mount path ∧ mount.point = point) ∧
    ∀ mount current, MostSpecific version controller membership mounts mount current →
      mount.point = point ∧ current = path

/-- The list selects, but the most specific mounts of a beginning of it are in conflict, before
a more specific mount comes. -/
def Crossed (mounts : List CgroupMount) : Prop :=
  (∃ point path, Selects version controller membership mounts point path) ∧
    ∃ before, before <+: mounts ∧ Conflict version controller membership before

/-! ## The pass over the resolving mounts -/

/-- A mount with the path it leads to. -/
def resolution (mount : CgroupMount) : Option (CgroupMount × Bytes) :=
  if mount.version ≠ version ∨ !mountHasController mount controller then none
  else (resolveCgroupPath mount membership).map fun current => (mount, current)

/-- How specific a resolution is. -/
def specificity (r : CgroupMount × Bytes) : Nat := r.1.root.length

/-- What two resolutions have to agree on. -/
def place (r : CgroupMount × Bytes) : Bytes × Bytes := (r.1.point, r.2)

variable {version controller membership} {mounts : List CgroupMount} {mount : CgroupMount}
  {point : Bytes}

theorem resolution_eq_some {r : CgroupMount × Bytes} :
    resolution version controller membership mount = some r ↔
      r.1 = mount ∧ Resolves version controller membership mount r.2 := by
  obtain ⟨m, current⟩ := r
  rw [resolution]
  split_ifs with h
  · simp only [Resolves, false_iff, not_and]
    rintro - hversion hcontroller
    rcases h with h | h
    · exact absurd hversion h
    · rw [hcontroller] at h
      cases h
  · have happlies : mount.version = version ∧ mountHasController mount controller = true := by
      simpa [not_or] using h
    simp only [Option.map_eq_some_iff, Prod.mk.injEq, Resolves, happlies.1, happlies.2, true_and]
    constructor
    · rintro ⟨path, hpath, rfl, rfl⟩
      exact ⟨rfl, hpath⟩
    · rintro ⟨rfl, hpath⟩
      exact ⟨current, hpath, rfl, rfl⟩

theorem selectMount_eq (selected : Option (CgroupMount × Bytes)) (mount : CgroupMount) :
    selectMount version controller membership selected mount =
      match resolution version controller membership mount with
      | none => some selected
      | some r => RunningBest.step specificity place selected r := by
  rw [selectMount, resolution]
  split_ifs with h
  · rfl
  · cases hpath : resolveCgroupPath mount membership with
    | none => rfl
    | some current =>
      cases selected with
      | none => rfl
      | some best =>
        obtain ⟨best, bestPath⟩ := best
        simp only [Option.map_some, RunningBest.step, specificity, place, ne_eq,
          Prod.mk.injEq, not_and_or]

theorem foldlM_selectMount (mounts : List CgroupMount) (selected : Option (CgroupMount × Bytes)) :
    mounts.foldlM (selectMount version controller membership) selected =
      (mounts.filterMap (resolution version controller membership)).foldlM
        (RunningBest.step specificity place) selected := by
  induction mounts generalizing selected with
  | nil => rfl
  | cons mount mounts ih =>
    rw [List.foldlM_cons, selectMount_eq, List.filterMap_cons]
    cases resolution version controller membership mount with
    | none => exact ih selected
    | some r =>
      rw [List.foldlM_cons]
      exact congrArg _ (funext ih)

theorem selectCgroupMount_eq (mounts : List CgroupMount) :
    selectCgroupMount mounts version controller membership =
      (RunningBest.pass specificity place
        (mounts.filterMap (resolution version controller membership))).join := by
  rw [selectCgroupMount, foldlM_selectMount]
  cases h : RunningBest.pass specificity place
    (mounts.filterMap (resolution version controller membership)) with
  | none =>
    rw [RunningBest.pass] at h
    rw [h]
    rfl
  | some selected =>
    rw [RunningBest.pass] at h
    rw [h]
    rfl

theorem mostSpecific_iff {current : Bytes} :
    MostSpecific version controller membership mounts mount current ↔
      RunningBest.Heaviest specificity (mounts.filterMap (resolution version controller membership))
        (mount, current) := by
  simp only [MostSpecific, RunningBest.Heaviest, List.mem_filterMap, resolution_eq_some,
    Prod.forall]
  constructor
  · rintro ⟨hmem, hresolves, hmax⟩
    refine ⟨⟨mount, hmem, rfl, hresolves⟩, fun other path h => ?_⟩
    obtain ⟨source, hsource, rfl, hother⟩ := h
    exact hmax other hsource path hother
  · rintro ⟨⟨source, hsource, rfl, hresolves⟩, hmax⟩
    exact ⟨hsource, hresolves,
      fun other hother path hpath => hmax other path ⟨other, hother, rfl, hpath⟩⟩

theorem conflict_iff :
    Conflict version controller membership mounts ↔
      RunningBest.Ambiguous specificity place
        (mounts.filterMap (resolution version controller membership)) := by
  simp only [Conflict, mostSpecific_iff, RunningBest.Ambiguous, Prod.exists, place]

theorem selects_iff :
    Selects version controller membership mounts point path ↔
      ¬Conflict version controller membership mounts ∧
        ∃ mount, MostSpecific version controller membership mounts mount path ∧
        mount.point = point := by
  constructor
  · rintro ⟨hsome, hall⟩
    refine ⟨?_, hsome⟩
    rintro ⟨mount, current, other, otherPath, hmount, hother, hne⟩
    obtain ⟨hpoint, hpath⟩ := hall mount current hmount
    obtain ⟨hpoint', hpath'⟩ := hall other otherPath hother
    exact hne (by rw [hpoint, hpath, hpoint', hpath'])
  · rintro ⟨hnot, mount, hmount, rfl⟩
    refine ⟨⟨mount, hmount, rfl⟩, fun other current hother => ?_⟩
    by_contra hne
    refine hnot ⟨other, current, mount, path, hother, hmount, fun heq => hne ?_⟩
    exact ⟨congrArg Prod.fst heq, congrArg Prod.snd heq⟩

theorem found_of_select {r : CgroupMount × Bytes}
    (h : selectCgroupMount mounts version controller membership = some r) :
    RunningBest.Found specificity place
      (mounts.filterMap (resolution version controller membership)) (some r) := by
  rw [selectCgroupMount_eq, Option.join_eq_some_iff] at h
  exact RunningBest.found_of_pass h

theorem mostSpecific_of_select
    (h : selectCgroupMount mounts version controller membership = some (mount, path)) :
    MostSpecific version controller membership mounts mount path :=
  mostSpecific_iff.mpr (found_of_select h).1

/-- A mount that is returned is selected. -/
theorem selects_of_select
    (h : selectCgroupMount mounts version controller membership = some (mount, path)) :
    Selects version controller membership mounts mount.point path := by
  refine selects_iff.mpr ⟨fun hconflict => ?_, mount, mostSpecific_of_select h, rfl⟩
  exact (found_of_select h).not_ambiguous (conflict_iff.mp hconflict)

/-- The call fails when nothing resolves the membership or when a beginning of the list is in
conflict. -/
theorem select_eq_none_iff :
    selectCgroupMount mounts version controller membership = none ↔
      (∀ mount current, ¬MostSpecific version controller membership mounts mount current) ∨
        ∃ before, before <+: mounts ∧ Conflict version controller membership before := by
  have hbeginning : (∃ before, before <+: mounts ∧ Conflict version controller membership before) ↔
      RunningBest.pass specificity place
        (mounts.filterMap (resolution version controller membership)) = none := by
    rw [RunningBest.pass_eq_none_iff]
    constructor
    · rintro ⟨before, hbefore, hconflict⟩
      exact ⟨_, List.prefix_filterMap_iff.mpr ⟨before, hbefore, rfl⟩, conflict_iff.mp hconflict⟩
    · rintro ⟨_, hprefix, hambiguous⟩
      obtain ⟨before, hbefore, rfl⟩ := List.prefix_filterMap_iff.mp hprefix
      exact ⟨before, hbefore, conflict_iff.mpr hambiguous⟩
  rw [hbeginning, selectCgroupMount_eq]
  cases hpass : RunningBest.pass specificity place
      (mounts.filterMap (resolution version controller membership)) with
  | none => simp
  | some selected =>
    have hfound := RunningBest.found_of_pass hpass
    cases selected with
    | none =>
      simp only [Option.join_some, true_iff, reduceCtorEq, or_false]
      intro mount current hspecific
      have hmem := (mostSpecific_iff.mp hspecific).1
      rw [show mounts.filterMap (resolution version controller membership) = [] from hfound] at hmem
      exact List.not_mem_nil hmem
    | some r =>
      simp only [Option.join_some, reduceCtorEq, or_false, false_iff]
      exact fun hnone => hnone r.1 r.2 (mostSpecific_iff.mpr hfound.1)

/-! ## The order of the mounts -/

theorem MostSpecific.perm {mounts' : List CgroupMount} {current : Bytes}
    (h : MostSpecific version controller membership mounts mount current)
    (hperm : mounts.Perm mounts') :
    MostSpecific version controller membership mounts' mount current :=
  ⟨hperm.mem_iff.mp h.1, h.2.1, fun other hother => h.2.2 other (hperm.mem_iff.mpr hother)⟩

theorem Selects.perm {mounts' : List CgroupMount}
    (h : Selects version controller membership mounts point path) (hperm : mounts.Perm mounts') :
    Selects version controller membership mounts' point path := by
  obtain ⟨⟨mount, hmount, hpoint⟩, hall⟩ := h
  exact ⟨⟨mount, hmount.perm hperm, hpoint⟩,
    fun other current hother => hall other current (hother.perm hperm.symm)⟩

/-- The point and the path of a mount that was returned. -/
def selectedPlace (mounts : List CgroupMount) (version : Int) (controller membership : Bytes) :
    Option (Bytes × Bytes) :=
  (selectCgroupMount mounts version controller membership).map place

theorem selects_of_selectedPlace
    (h : selectedPlace mounts version controller membership = some (point, path)) :
    Selects version controller membership mounts point path := by
  rw [selectedPlace, Option.map_eq_some_iff] at h
  obtain ⟨⟨mount, current⟩, hselect, hplace⟩ := h
  obtain ⟨rfl, rfl⟩ := Prod.mk.inj hplace
  exact selects_of_select hselect

/-- Without a crossing the place that is selected is returned. -/
theorem selectedPlace_of_selects (h : Selects version controller membership mounts point path)
    (hcrossed : ¬Crossed version controller membership mounts) :
    selectedPlace mounts version controller membership = some (point, path) := by
  cases hselect : selectCgroupMount mounts version controller membership with
  | none =>
    exfalso
    rcases select_eq_none_iff.mp hselect with hnone | hbefore
    · obtain ⟨mount, hmount, -⟩ := h.1
      exact hnone mount path hmount
    · exact hcrossed ⟨⟨point, path, h⟩, hbefore⟩
  | some r =>
    obtain ⟨mount, hmount, hpoint⟩ := (selects_of_select hselect).1
    obtain ⟨hpoint', hpath⟩ := h.2 mount r.2 hmount
    rw [selectedPlace, hselect, Option.map_some, place, ← hpoint, hpoint', hpath]

theorem not_crossed_of_selectedPlace {r : Bytes × Bytes}
    (h : selectedPlace mounts version controller membership = some r) :
    ¬Crossed version controller membership mounts := by
  rintro ⟨-, hbefore⟩
  rw [selectedPlace, select_eq_none_iff.mpr (.inr hbefore)] at h
  cases h

/-- The mounts of a list that is crossed: two of `/` in conflict before one of `/tenant`. -/
def crossedMounts : List CgroupMount :=
  [{ version := 2, root := stringBytes "/", point := stringBytes "/a" },
    { version := 2, root := stringBytes "/", point := stringBytes "/b" },
    { version := 2, root := stringBytes "/tenant", point := stringBytes "/c" }]

end Selection

/-- **Which mount is selected.**  The place returned is the order-free one, and nothing else
makes the call fail, if and only if the list is not crossed; the order of two lists of the
same mounts that are not crossed makes no difference. -/
theorem selectCgroupMount_selects (mounts : List CgroupMount) (version : Int)
    (controller membership : Bytes) :
    ((∀ point path, selectedPlace mounts version controller membership = some (point, path) ↔
        Selects version controller membership mounts point path) ↔
      ¬Crossed version controller membership mounts) ∧
    ∀ mounts', mounts.Perm mounts' → ¬Crossed version controller membership mounts →
      ¬Crossed version controller membership mounts' →
      selectedPlace mounts version controller membership =
        selectedPlace mounts' version controller membership := by
  refine ⟨⟨fun hfree hcrossed => ?_, fun hnot point path => ?_⟩, fun mounts' hperm hnot hnot' => ?_⟩
  · obtain ⟨point, path, hselects⟩ := hcrossed.1
    exact not_crossed_of_selectedPlace ((hfree point path).mpr hselects) hcrossed
  · exact ⟨selects_of_selectedPlace, fun h => selectedPlace_of_selects h hnot⟩
  · refine Option.ext fun r => ?_
    constructor
    · exact fun h => selectedPlace_of_selects ((selects_of_selectedPlace h).perm hperm) hnot'
    · exact fun h => selectedPlace_of_selects ((selects_of_selectedPlace h).perm hperm.symm) hnot

/-- With the most specific mount first the list is not crossed, in whatever order the two in
conflict follow. -/
theorem selectCgroupMount_selects_sample :
    Selects 2 [] (stringBytes "/tenant/job") crossedMounts.reverse
      (stringBytes "/c") (stringBytes "/c/job") ∧
    selectedPlace crossedMounts.reverse 2 [] (stringBytes "/tenant/job") =
      selectedPlace (crossedMounts.rotate 2) 2 [] (stringBytes "/tenant/job") := by
  have hplace : selectedPlace crossedMounts.reverse 2 [] (stringBytes "/tenant/job")
      = some (stringBytes "/c", stringBytes "/c/job") := by decide +kernel
  have hplace' : selectedPlace (crossedMounts.rotate 2) 2 [] (stringBytes "/tenant/job")
      = some (stringBytes "/c", stringBytes "/c/job") := by decide +kernel
  have hnot := not_crossed_of_selectedPlace hplace
  have hperm := crossedMounts.reverse_perm.trans (crossedMounts.rotate_perm 2).symm
  obtain ⟨hselects, hsame⟩ :=
    selectCgroupMount_selects crossedMounts.reverse 2 [] (stringBytes "/tenant/job")
  exact ⟨(hselects.mpr hnot _ _).mp hplace,
    hsame _ hperm hnot (not_crossed_of_selectedPlace hplace')⟩

/-- **Two less specific mounts in conflict.**  The same three mounts are refused in one order
and selected from in another. -/
theorem selectCgroupMount_order_matters :
    selectedPlace crossedMounts 2 [] (stringBytes "/tenant/job") = none ∧
    selectedPlace crossedMounts.reverse 2 [] (stringBytes "/tenant/job")
      = some (stringBytes "/c", stringBytes "/c/job") ∧
    crossedMounts.Perm crossedMounts.reverse ∧
    Selects 2 [] (stringBytes "/tenant/job") crossedMounts (stringBytes "/c")
      (stringBytes "/c/job") := by
  have hplace : selectedPlace crossedMounts.reverse 2 [] (stringBytes "/tenant/job")
      = some (stringBytes "/c", stringBytes "/c/job") := by decide +kernel
  exact ⟨by decide +kernel, hplace, crossedMounts.reverse_perm.symm,
    (selects_of_selectedPlace hplace).perm crossedMounts.reverse_perm⟩

end TosAi.Probe
