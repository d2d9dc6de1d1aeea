/-
  CPU sets as the kernel writes them.

  `parseCPUSet` goes over the items of a list with one flag for each CPU and a counter.  The
  flags are the CPUs named so far, so the two loops are one pass over all the CPUs the items
  name (`foldlM_observeItem`), and that pass succeeds if and only if none is named twice.
  What a list denotes and the length of that pass are then the same number, and a list of
  maximal runs is read as the set it was written from.
-/
import TosAi.Probe.Cgroup

set_option autoImplicit false

namespace TosAi.Probe

open Foundation
open Foundation.Json (Bytes decimal)

/-- The CPUs from the first to the last of an item. -/
def cpusOf (bounds : Nat × Nat) : List Nat := List.range' bounds.1 (bounds.2 + 1 - bounds.1)

variable {item data : Bytes} {bounds : Nat × Nat}

theorem mem_cpusOf {cpu : Nat} : cpu ∈ cpusOf bounds ↔ bounds.1 ≤ cpu ∧ cpu ≤ bounds.2 := by
  rw [cpusOf, List.mem_range'_1]
  omega

/-! ## The loops -/

/-- **The flags and the counter**: a pass succeeds if it meets no CPU that was met before. -/
theorem foldlM_observeCPU (cpus seen : List Nat) (count : Nat) :
    cpus.foldlM observeCPU (seen, count) =
      if cpus.Nodup ∧ ∀ cpu ∈ cpus, cpu ∉ seen then
        some (cpus.reverse ++ seen, count + cpus.length)
      else none := by
  induction cpus generalizing seen count with
  | nil => simp
  | cons cpu cpus ih =>
    rw [List.foldlM_cons, observeCPU]
    by_cases hseen : cpu ∈ seen
    · have hnot : ¬((cpu :: cpus).Nodup ∧ ∀ c ∈ cpu :: cpus, c ∉ seen) :=
        fun h => h.2 cpu List.mem_cons_self hseen
      rw [if_pos hseen, if_neg hnot]
      rfl
    · rw [if_neg hseen]
      show cpus.foldlM observeCPU (cpu :: seen, count + 1) = _
      rw [ih]
      have hsame : (cpus.Nodup ∧ ∀ c ∈ cpus, c ∉ cpu :: seen) ↔
          (cpu :: cpus).Nodup ∧ ∀ c ∈ cpu :: cpus, c ∉ seen := by
        simp only [List.nodup_cons, List.mem_cons, not_or, forall_eq_or_imp]
        constructor
        · rintro ⟨hnodup, hfresh⟩
          exact ⟨⟨fun h => (hfresh cpu h).1 rfl, hnodup⟩, hseen, fun c hc => (hfresh c hc).2⟩
        · rintro ⟨⟨hcpu, hnodup⟩, -, hfresh⟩
          exact ⟨hnodup, fun c hc => ⟨fun h => hcpu (h ▸ hc), hfresh c hc⟩⟩
      have hcount : count + 1 + cpus.length = count + (cpu :: cpus).length := by
        rw [List.length_cons]
        omega
      rw [hcount]
      simp only [hsame, List.reverse_cons, List.append_assoc, List.singleton_append]

/-- The items one after another are all their CPUs one after another. -/
theorem foldlM_observeItem (items : List Bytes) (state : List Nat × Nat) :
    items.foldlM observeItem state =
      (items.mapM cpuBounds).bind fun all => (all.flatMap cpusOf).foldlM observeCPU state := by
  induction items generalizing state with
  | nil => rfl
  | cons item items ih =>
    rw [List.foldlM_cons, List.mapM_cons]
    cases hbounds : cpuBounds item with
    | none => simp [observeItem, hbounds]
    | some bounds =>
      have hitem : observeItem state item = (cpusOf bounds).foldlM observeCPU state := by
        simp [observeItem, hbounds, cpusOf]
      simp only [hitem, ih, Option.bind_eq_bind, Option.bind_some, Option.pure_def,
        Option.bind_assoc, List.flatMap_cons, List.foldlM_append]
      exact Option.bind_comm _ _

theorem parseCPUSet_eq_some {count : Nat} :
    parseCPUSet data = some count ↔
      trimSpace data ≠ [] ∧ (trimSpace data).length ≤ maxCgroupScalarBytes ∧
      ((trimSpace data).splitOn 0x2c).length ≤ maxLogicalCPUs ∧
      ∃ all, ((trimSpace data).splitOn 0x2c).mapM cpuBounds = some all ∧
        (all.flatMap cpusOf).Nodup ∧ count = (all.flatMap cpusOf).length ∧ count ≠ 0 := by
  have hpass : ∀ all : List (Nat × Nat), ((all.flatMap cpusOf).foldlM observeCPU ([], 0)).bind
      (fun state => if state.2 = 0 then none else some state.2) = some count ↔
        (all.flatMap cpusOf).Nodup ∧ count = (all.flatMap cpusOf).length ∧ count ≠ 0 := by
    intro all
    rw [foldlM_observeCPU]
    by_cases hnodup : (all.flatMap cpusOf).Nodup
    · rw [if_pos ⟨hnodup, fun _ _ => List.not_mem_nil⟩, Option.bind_some]
      dsimp only
      rw [Nat.zero_add]
      constructor
      · intro h
        split_ifs at h with hzero
        obtain rfl := Option.some.inj h
        exact ⟨hnodup, rfl, hzero⟩
      · rintro ⟨-, rfl, hzero⟩
        exact if_neg hzero
    · rw [if_neg fun h => hnodup h.1]
      exact ⟨(fun h => nomatch h), fun h => absurd h.1 hnodup⟩
  unfold parseCPUSet
  dsimp only
  rw [foldlM_observeItem, Option.bind_assoc]
  constructor
  · intro h
    split_ifs at h with hlength hitems
    obtain ⟨all, hall, hcount⟩ := Option.bind_eq_some_iff.mp h
    rw [not_or, Nat.not_lt] at hlength
    exact ⟨hlength.1, hlength.2, Nat.not_lt.mp hitems, all, hall, (hpass all).mp hcount⟩
  · rintro ⟨hne, hlength, hitems, all, hall, hcount⟩
    rw [if_neg (not_or.mpr ⟨hne, Nat.not_lt.mpr hlength⟩), if_neg (Nat.not_lt.mpr hitems), hall]
    exact (hpass all).mpr hcount

/-! ## What is accepted -/

/-- The item is a number, or two numbers with a hyphen between them. -/
inductive Denotes : Bytes → Nat × Nat → Prop where
  | one {number : Bytes} {n : Nat} (hplain : 0x2d ∉ number)
      (hn : parseInt64 number = some (n : Int)) : Denotes number (n, n)
  | range {first last : Bytes} {a b : Nat} (ha : parseInt64 first = some (a : Int))
      (hb : parseInt64 last = some (b : Int)) (hfirst : 0x2d ∉ first) (hlast : 0x2d ∉ last) :
      Denotes (first ++ 0x2d :: last) (a, b)

theorem cpuNumber_eq_some {n : Nat} (h : cpuNumber item = some n) :
    parseInt64 item = some (n : Int) ∧ n < maxLogicalCPUs := by
  obtain ⟨i, hi, hn⟩ := Option.bind_eq_some_iff.mp h
  split_ifs at hn with hout
  obtain rfl := Option.some.inj hn
  have hnat : (i.toNat : Int) = i := Int.toNat_of_nonneg (by omega)
  rw [hnat]
  exact ⟨hi, by omega⟩

theorem denotes_of_cpuBounds (h : cpuBounds item = some bounds) :
    Denotes item bounds ∧ bounds.1 ≤ bounds.2 ∧ bounds.2 < maxLogicalCPUs := by
  have hwhole : [0x2d].intercalate (item.splitOn 0x2d) = item := List.intercalate_splitOn 0x2d
  have hparts := fun part (hpart : part ∈ item.splitOn 0x2d) => Path.notMem_of_mem_splitOn hpart
  unfold cpuBounds at h
  split at h
  · rename_i first heq
    split_ifs at h
    obtain ⟨start, hstart, rfl⟩ := Option.map_eq_some_iff.mp h
    obtain ⟨hnumber, hlt⟩ := cpuNumber_eq_some hstart
    rw [heq] at hwhole hparts
    obtain rfl : first = item := by simpa using hwhole
    exact ⟨.one (hparts first List.mem_cons_self) hnumber, Nat.le_refl _, hlt⟩
  · rename_i first last heq
    by_cases hempty : first = []
    · rw [if_pos hempty] at h
      cases h
    rw [if_neg hempty] at h
    obtain ⟨start, hstart, hrest⟩ := Option.bind_eq_some_iff.mp h
    split_ifs at hrest
    obtain ⟨stop, hstop, horder⟩ := Option.bind_eq_some_iff.mp hrest
    split_ifs at horder with hbefore
    obtain rfl := Option.some.inj horder
    rw [heq] at hwhole hparts
    obtain rfl : first ++ 0x2d :: last = item := by simpa using hwhole
    obtain ⟨hlast, hlt⟩ := cpuNumber_eq_some hstop
    exact ⟨.range (cpuNumber_eq_some hstart).1 hlast (hparts first (by simp))
      (hparts last (by simp)), Nat.not_lt.mp hbefore, hlt⟩
  · cases h

theorem denotes_of_mapM {items : List Bytes} {all : List (Nat × Nat)}
    (h : items.mapM cpuBounds = some all) :
    List.Forall₂ Denotes items all ∧
      ∀ bounds ∈ all, bounds.1 ≤ bounds.2 ∧ bounds.2 < maxLogicalCPUs := by
  induction items generalizing all with
  | nil =>
    obtain rfl := Option.some.inj h
    exact ⟨.nil, fun _ h => nomatch h⟩
  | cons item items ih =>
    rw [List.mapM_cons] at h
    obtain ⟨bounds, hbounds, hrest⟩ := Option.bind_eq_some_iff.mp h
    obtain ⟨others, hothers, heq⟩ := Option.bind_eq_some_iff.mp hrest
    obtain rfl := Option.some.inj heq
    obtain ⟨hitem, hin⟩ := denotes_of_cpuBounds hbounds
    obtain ⟨hitems, hall⟩ := ih hothers
    refine ⟨.cons hitem hitems, fun other hmem => ?_⟩
    rcases List.mem_cons.mp hmem with rfl | hmem
    · exact hin
    · exact hall other hmem

/-- The intervals have no CPU in common. -/
def Apart (a b : Nat × Nat) : Prop := Disjoint (Finset.Icc a.1 a.2) (Finset.Icc b.1 b.2)

/-- The CPUs of all the intervals. -/
def denoted (all : List (Nat × Nat)) : Finset Nat :=
  all.toFinset.biUnion fun bounds => Finset.Icc bounds.1 bounds.2

theorem denoted_eq (all : List (Nat × Nat)) : denoted all = (all.flatMap cpusOf).toFinset := by
  ext cpu
  simp [denoted, mem_cpusOf]

theorem apart_of_nodup {all : List (Nat × Nat)} (h : (all.flatMap cpusOf).Nodup) :
    all.Pairwise Apart := by
  refine (List.nodup_flatMap.mp h).2.imp ?_
  intro a b hdisjoint
  refine Finset.disjoint_left.mpr fun cpu ha hb => ?_
  rw [Finset.mem_Icc, ← mem_cpusOf] at ha hb
  exact hdisjoint ha hb

/-- **What is accepted denotes what is counted.** -/
theorem denotes_of_parseCPUSet {count : Nat} (h : parseCPUSet data = some count) :
    ∃ all : List (Nat × Nat), List.Forall₂ Denotes ((trimSpace data).splitOn 0x2c) all ∧
      (∀ bounds ∈ all, bounds.1 ≤ bounds.2 ∧ bounds.2 < maxLogicalCPUs) ∧
      all.Pairwise Apart ∧ count = (denoted all).card := by
  obtain ⟨-, -, -, all, hall, hnodup, rfl, -⟩ := parseCPUSet_eq_some.mp h
  obtain ⟨hitems, hbounds⟩ := denotes_of_mapM hall
  refine ⟨all, hitems, hbounds, apart_of_nodup hnodup, ?_⟩
  rw [denoted_eq, List.toFinset_card_of_nodup hnodup]

/-! ## What the kernel writes -/

/-- The runs of a list, the first of which has begun at `first` and reaches `last`. -/
def runsFrom (first last : Nat) : List Nat → List (Nat × Nat)
  | [] => [(first, last)]
  | cpu :: rest =>
    if cpu = last + 1 then runsFrom first cpu rest else (first, last) :: runsFrom cpu cpu rest

/-- The maximal runs of a list in increasing order. -/
def runs : List Nat → List (Nat × Nat)
  | [] => []
  | cpu :: rest => runsFrom cpu cpu rest

/-- One run: a number, or the first and the last with a hyphen. -/
def renderRun (bounds : Nat × Nat) : Bytes :=
  if bounds.1 = bounds.2 then decimal bounds.1 else decimal bounds.1 ++ 0x2d :: decimal bounds.2

/-- The list the kernel writes for a set of CPUs. -/
def kernelList (cpus : Finset Nat) : Bytes :=
  [0x2c].intercalate ((runs (cpus.sort (· ≤ ·))).map renderRun)

theorem flatMap_runsFrom (first last : Nat) (h : first ≤ last) (rest : List Nat) :
    (runsFrom first last rest).flatMap cpusOf = cpusOf (first, last) ++ rest ∧
      ∀ bounds ∈ runsFrom first last rest, bounds.1 ≤ bounds.2 := by
  induction rest generalizing first last with
  | nil => simp [runsFrom, h]
  | cons cpu rest ih =>
    rw [runsFrom]
    split
    · rename_i hnext
      subst hnext
      obtain ⟨hflat, horder⟩ := ih first (last + 1) (by omega)
      have hgrown : cpusOf (first, last + 1) = cpusOf (first, last) ++ [last + 1] := by
        have hlength : last + 1 + 1 - first = (last + 1 - first) + 1 := by omega
        have hlast : first + 1 * (last + 1 - first) = last + 1 := by omega
        rw [cpusOf, cpusOf, hlength, List.range'_concat, hlast]
      rw [hflat, hgrown, List.append_assoc, List.singleton_append]
      exact ⟨rfl, horder⟩
    · obtain ⟨hflat, horder⟩ := ih cpu cpu (Nat.le_refl _)
      have hone : cpusOf (cpu, cpu) = [cpu] := by
        have hlength : cpu + 1 - cpu = 1 := by omega
        rw [cpusOf, hlength]
        rfl
      rw [List.flatMap_cons, hflat, hone, List.singleton_append]
      refine ⟨rfl, fun bounds hmem => ?_⟩
      rcases List.mem_cons.mp hmem with rfl | hmem
      · exact h
      · exact horder bounds hmem

/-- The runs of a list are the list again. -/
theorem flatMap_runs (cpus : List Nat) :
    (runs cpus).flatMap cpusOf = cpus ∧ ∀ bounds ∈ runs cpus, bounds.1 ≤ bounds.2 := by
  cases cpus with
  | nil => exact ⟨rfl, fun _ h => nomatch h⟩
  | cons cpu rest =>
    obtain ⟨hflat, horder⟩ := flatMap_runsFrom cpu cpu (Nat.le_refl cpu) rest
    refine ⟨hflat.trans ?_, horder⟩
    simp [cpusOf]

theorem length_runsFrom (first last : Nat) (rest : List Nat) :
    (runsFrom first last rest).length ≤ rest.length + 1 := by
  induction rest generalizing first last with
  | nil => exact Nat.le_refl _
  | cons cpu rest ih =>
    rw [runsFrom]
    split
    · exact (ih first cpu).trans (Nat.le_succ _)
    · exact Nat.succ_le_succ (ih cpu cpu)

theorem length_runs (cpus : List Nat) : (runs cpus).length ≤ cpus.length := by
  cases cpus with
  | nil => exact Nat.le_refl _
  | cons cpu rest => exact length_runsFrom cpu cpu rest

/-! ## Reading it -/

theorem hyphen_notMem_decimal (n : Nat) : 0x2d ∉ decimal n :=
  fun h => absurd (Json.isDigit_decimal n _ h) (by decide)

theorem cpuNumber_decimal {n : Nat} (h : n < maxLogicalCPUs) : cpuNumber (decimal n) = some n := by
  have hbound : n < 4096 := h
  rw [cpuNumber, parseInt64_decimal (by omega), Option.bind_some, if_neg, Int.toNat_natCast]
  show ¬((n : Int) < 0 ∨ (4096 : Int) ≤ n)
  omega

theorem cpuBounds_renderRun (horder : bounds.1 ≤ bounds.2) (hbound : bounds.2 < maxLogicalCPUs) :
    cpuBounds (renderRun bounds) = some bounds := by
  have hfirst := cpuNumber_decimal (horder.trans_lt hbound)
  have hlast := cpuNumber_decimal hbound
  have hsplit : ∀ parts : List Nat, parts ≠ [] →
      ([0x2d].intercalate (parts.map decimal)).splitOn 0x2d = parts.map decimal := by
    intro parts hne
    refine List.splitOn_intercalate 0x2d ?_ (by simpa using hne)
    simp only [List.mem_map]
    rintro _ ⟨n, -, rfl⟩
    exact hyphen_notMem_decimal n
  unfold renderRun
  split
  · rename_i heq
    have hone : (decimal bounds.1).splitOn 0x2d = [decimal bounds.1] := by
      simpa using hsplit [bounds.1] (List.cons_ne_nil _ _)
    rw [cpuBounds, hone]
    dsimp only
    rw [if_neg (Json.decimal_ne_nil _), hfirst, Option.map_some]
    exact congrArg some (Prod.ext rfl heq)
  · have htwo : (decimal bounds.1 ++ 0x2d :: decimal bounds.2).splitOn 0x2d =
        [decimal bounds.1, decimal bounds.2] := by
      simpa using hsplit [bounds.1, bounds.2] (List.cons_ne_nil _ _)
    rw [cpuBounds, htwo]
    dsimp only
    rw [if_neg (Json.decimal_ne_nil _), hfirst, Option.bind_some,
      if_neg (Json.decimal_ne_nil _), hlast, Option.bind_some, if_neg (Nat.not_lt.mpr horder)]

theorem mapM_cpuBounds {all : List (Nat × Nat)}
    (h : ∀ bounds ∈ all, bounds.1 ≤ bounds.2 ∧ bounds.2 < maxLogicalCPUs) :
    (all.map renderRun).mapM cpuBounds = some all := by
  induction all with
  | nil => rfl
  | cons bounds all ih =>
    obtain ⟨horder, hbound⟩ := h bounds List.mem_cons_self
    rw [List.map_cons, List.mapM_cons, cpuBounds_renderRun horder hbound,
      ih fun other hother => h other (List.mem_cons_of_mem _ hother)]
    rfl

theorem mem_intercalate {b : UInt8} {sep : Bytes} {parts : List Bytes}
    (h : b ∈ sep.intercalate parts) : b ∈ sep ∨ ∃ part ∈ parts, b ∈ part := by
  induction parts with
  | nil => cases h
  | cons part parts ih =>
    cases parts with
    | nil =>
      rw [List.intercalate_singleton] at h
      exact .inr ⟨part, List.mem_cons_self, h⟩
    | cons next parts =>
      rw [List.intercalate_cons_cons, List.mem_append, List.mem_append] at h
      obtain (h | h) | h := h
      · exact .inr ⟨part, List.mem_cons_self, h⟩
      · exact .inl h
      · exact (ih h).imp_right fun ⟨other, hother, hb⟩ => ⟨other, List.mem_cons_of_mem _ hother, hb⟩

theorem mem_renderRun {b : UInt8} (h : b ∈ renderRun bounds) :
    Json.isDigit b = true ∨ b = 0x2d := by
  unfold renderRun at h
  split at h
  · exact .inl (Json.isDigit_decimal _ b h)
  · rw [List.mem_append, List.mem_cons] at h
    obtain h | h | h := h
    · exact .inl (Json.isDigit_decimal _ b h)
    · exact .inr h
    · exact .inl (Json.isDigit_decimal _ b h)

theorem renderRun_ne_nil (bounds : Nat × Nat) : renderRun bounds ≠ [] := by
  unfold renderRun
  split
  · exact Json.decimal_ne_nil _
  · exact List.append_ne_nil_of_left_ne_nil (Json.decimal_ne_nil _) _

theorem solid_of_isDigit {b : UInt8} (h : Json.isDigit b = true ∨ b = 0x2d ∨ b = 0x2c) :
    b.toNat < 0x80 ∧ isUnicodeSpace (letter b).1 = false := by
  revert b
  decide +kernel

/-- A list ends where the line ends. -/
theorem trimSpace_kernelList (cpus : Finset Nat) {newline : Bytes}
    (h : newline = [] ∨ newline = [0x0a]) :
    trimSpace (kernelList cpus ++ newline) = kernelList cpus := by
  refine trimSpace_append (fun b hb => solid_of_isDigit ?_) ?_
  · obtain hcomma | ⟨part, hpart, hb⟩ := mem_intercalate hb
    · exact .inr (.inr (List.mem_singleton.mp hcomma))
    · obtain ⟨bounds, -, rfl⟩ := List.mem_map.mp hpart
      exact (mem_renderRun hb).imp_right .inl
  · rintro b hb
    obtain rfl | rfl := h
    · cases hb
    · rw [List.mem_singleton.mp hb]
      decide

/-- **What the kernel writes is read.** -/
theorem parseCPUSet_kernelList {cpus : Finset Nat} (hne : cpus.Nonempty)
    (hcpus : ∀ cpu ∈ cpus, cpu < maxLogicalCPUs)
    (hlength : (kernelList cpus).length ≤ maxCgroupScalarBytes)
    {newline : Bytes} (hnewline : newline = [] ∨ newline = [0x0a]) :
    parseCPUSet (kernelList cpus ++ newline) = some cpus.card := by
  obtain ⟨hflat, horder⟩ := flatMap_runs (cpus.sort (· ≤ ·))
  have hruns : runs (cpus.sort (· ≤ ·)) ≠ [] := by
    intro hempty
    rw [hempty] at hflat
    obtain ⟨cpu, hcpu⟩ := hne
    rw [← Finset.mem_sort (· ≤ ·), ← hflat] at hcpu
    cases hcpu
  have hitems : (kernelList cpus).splitOn 0x2c = (runs (cpus.sort (· ≤ ·))).map renderRun := by
    refine List.splitOn_intercalate 0x2c ?_ (by simpa using hruns)
    simp only [List.mem_map]
    rintro _ ⟨bounds, -, rfl⟩ hcomma
    obtain h | h := mem_renderRun hcomma
    · exact absurd h (by decide)
    · exact absurd h (by decide)
  have hbounds : ∀ bounds ∈ runs (cpus.sort (· ≤ ·)),
      bounds.1 ≤ bounds.2 ∧ bounds.2 < maxLogicalCPUs := by
    intro bounds hmem
    refine ⟨horder bounds hmem, hcpus _ ?_⟩
    rw [← Finset.mem_sort (· ≤ ·), ← hflat]
    exact List.mem_flatMap.mpr ⟨bounds, hmem, mem_cpusOf.mpr ⟨horder bounds hmem, Nat.le_refl _⟩⟩
  have hfew : cpus.card ≤ maxLogicalCPUs := by
    have hsub : cpus ⊆ Finset.range maxLogicalCPUs :=
      fun cpu h => Finset.mem_range.mpr (hcpus cpu h)
    simpa using Finset.card_le_card hsub
  rw [parseCPUSet_eq_some, trimSpace_kernelList cpus hnewline, hitems]
  refine ⟨?_, hlength, ?_, _, mapM_cpuBounds hbounds, ?_, ?_, ?_⟩
  · intro hempty
    rw [hempty, List.splitOn_nil] at hitems
    have hmem : ([] : Bytes) ∈ (runs (cpus.sort (· ≤ ·))).map renderRun :=
      hitems ▸ List.mem_cons_self
    obtain ⟨bounds, -, hrendered⟩ := List.mem_map.mp hmem
    exact renderRun_ne_nil bounds hrendered
  · rw [List.length_map]
    exact (length_runs _).trans ((Finset.length_sort _).trans_le hfew)
  · rw [hflat]
    exact Finset.sort_nodup _ _
  · rw [hflat, Finset.length_sort]
  · exact Finset.card_ne_zero.mpr hne

/-- **`parseCPUSet` counts the denoted set**: the items of a text it accepts denote intervals of
CPUs that are apart, and it returns the number of CPUs in them; and the kernel's list of any set
of CPUs is read as the size of the set. -/
theorem parseCPUSet_counts :
    (∀ data count, parseCPUSet data = some count →
      ∃ all : List (Nat × Nat), List.Forall₂ Denotes ((trimSpace data).splitOn 0x2c) all ∧
        (∀ bounds ∈ all, bounds.1 ≤ bounds.2 ∧ bounds.2 ≤ 4095) ∧ all.Pairwise Apart ∧
        count = (denoted all).card) ∧
    (∀ cpus : Finset Nat, cpus.Nonempty → (∀ cpu ∈ cpus, cpu ≤ 4095) →
      (kernelList cpus).length ≤ 4096 → ∀ newline, newline = [] ∨ newline = [0x0a] →
        parseCPUSet (kernelList cpus ++ newline) = some cpus.card) := by
  constructor
  · intro data count h
    obtain ⟨all, hdenotes, hbounds, hapart, hcount⟩ := denotes_of_parseCPUSet h
    refine ⟨all, hdenotes, fun bounds hmem => ?_, hapart, hcount⟩
    exact ⟨(hbounds bounds hmem).1, Nat.le_of_lt_succ (hbounds bounds hmem).2⟩
  · intro cpus hne hcpus hlength newline hnewline
    exact parseCPUSet_kernelList hne (fun cpu h => Nat.lt_succ_of_le (hcpus cpu h)) hlength hnewline

/-- Two runs and a single CPU between them, and a list with a sign. -/
theorem parseCPUSet_counts_runs :
    parseCPUSet (kernelList {0, 1, 2, 4, 7, 8} ++ [0x0a]) = some 6 ∧
    ∃ all : List (Nat × Nat),
    List.Forall₂ Denotes ((trimSpace (stringBytes "+1-3,0")).splitOn 0x2c) all ∧
      4 = (denoted all).card := by
  have hsort : ({0, 1, 2, 4, 7, 8} : Finset Nat).sort (· ≤ ·) = [0, 1, 2, 4, 7, 8] :=
    (List.toFinset_sort (l := [0, 1, 2, 4, 7, 8]) (· ≤ ·) (by decide)).mpr (by decide)
  have hlength : (kernelList {0, 1, 2, 4, 7, 8}).length ≤ 4096 := by
    rw [kernelList, hsort]
    decide +kernel
  refine ⟨parseCPUSet_counts.2 {0, 1, 2, 4, 7, 8} (by decide) (by decide) hlength [0x0a]
    (.inr rfl), ?_⟩
  obtain ⟨all, hdenotes, -, -, hcount⟩ :=
    parseCPUSet_counts.1 (stringBytes "+1-3,0") 4 (by decide +kernel)
  exact ⟨all, hdenotes, hcount⟩

end TosAi.Probe
