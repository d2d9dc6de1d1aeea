/-
  Paths of the mount table and the kernel's way of writing them.

  The kernel writes a space, a tab, a line feed and a backslash of a path as a backslash and
  three octal digits.  `decodeMountPath` takes that back: what it accepts, raw spaces apart,
  is what the kernel writes, and it comes back as the path it was written from.  Tabs and
  line feeds never come back, since a path with a control character is refused.
-/
import TosAi.Probe.Cgroup

set_option autoImplicit false

namespace TosAi.Probe

open Foundation
open Foundation.Json (Bytes)

/-- How the kernel writes one byte of a path. -/
def escapeByte (b : UInt8) : Bytes :=
  if b = 0x20 then stringBytes "\\040"
  else if b = 0x09 then stringBytes "\\011"
  else if b = 0x0a then stringBytes "\\012"
  else if b = 0x5c then stringBytes "\\134"
  else [b]

/-- How the kernel writes a path. -/
def escapePath (path : Bytes) : Bytes := path.flatMap escapeByte

variable {path value : Bytes} {b : UInt8}

theorem escapePath_cons (b : UInt8) (path : Bytes) :
    escapePath (b :: path) = escapeByte b ++ escapePath path := List.flatMap_cons

theorem escapeByte_ne_nil (b : UInt8) : escapeByte b ≠ [] := by
  unfold escapeByte
  split_ifs
  · decide
  · decide
  · decide
  · decide
  · exact List.cons_ne_nil _ _

theorem escapePath_ne_nil (h : path ≠ []) : escapePath path ≠ [] := by
  obtain ⟨b, rest, rfl⟩ := List.exists_cons_of_ne_nil h
  rw [escapePath_cons]
  exact List.append_ne_nil_of_left_ne_nil (escapeByte_ne_nil b) _

/-! ## Decoding what was written -/

/-- Three digits after a backslash stand for at most one byte. -/
def escaped (x y z : UInt8) : Option UInt8 :=
  if [x, y, z] = stringBytes "011" then some 0x09
  else if [x, y, z] = stringBytes "012" then some 0x0a
  else if [x, y, z] = stringBytes "040" then some 0x20
  else if [x, y, z] = stringBytes "134" then some 0x5c
  else none

theorem decodeEscapes_backslash (x y z : UInt8) (rest : Bytes) :
    decodeEscapes (0x5c :: x :: y :: z :: rest) =
      (escaped x y z).bind fun b => (decodeEscapes rest).map (b :: ·) := by
  rw [decodeEscapes, if_neg (by decide)]
  unfold escaped
  split_ifs
  · rfl
  · rfl
  · rfl
  · rfl
  · rfl

theorem decodeEscapes_plain (h : b ≠ 0x5c) (rest : Bytes) :
    decodeEscapes (b :: rest) = (decodeEscapes rest).map (b :: ·) := by
  rw [decodeEscapes.eq_def]
  exact if_pos h

/-- The escape of a byte decodes to the byte. -/
theorem decodeEscapes_escapeByte (b : UInt8) (rest : Bytes) :
    decodeEscapes (escapeByte b ++ rest) = (decodeEscapes rest).map (b :: ·) := by
  have hspace : stringBytes "\\040" = [0x5c, 0x30, 0x34, 0x30] := by decide
  have htab : stringBytes "\\011" = [0x5c, 0x30, 0x31, 0x31] := by decide
  have hline : stringBytes "\\012" = [0x5c, 0x30, 0x31, 0x32] := by decide
  have hbackslash : stringBytes "\\134" = [0x5c, 0x31, 0x33, 0x34] := by decide
  unfold escapeByte
  split_ifs with h₁ h₂ h₃ h₄
  · rw [hspace, h₁]
    exact decodeEscapes_backslash 0x30 0x34 0x30 rest
  · rw [htab, h₂]
    exact decodeEscapes_backslash 0x30 0x31 0x31 rest
  · rw [hline, h₃]
    exact decodeEscapes_backslash 0x30 0x31 0x32 rest
  · rw [hbackslash, h₄]
    exact decodeEscapes_backslash 0x31 0x33 0x34 rest
  · exact decodeEscapes_plain h₄ rest

theorem decodeEscapes_escapePath (path : Bytes) : decodeEscapes (escapePath path) = some path := by
  induction path with
  | nil => rfl
  | cons b path ih => rw [escapePath_cons, decodeEscapes_escapeByte, ih, Option.map_some]

/-! ## Writing what was decoded -/

/-- A byte read off an escape is written as that escape. -/
theorem escapeByte_of_escaped {x y z : UInt8} (h : escaped x y z = some b) :
    escapeByte b = [0x5c, x, y, z] := by
  unfold escaped at h
  split_ifs at h with h₁ h₂ h₃ h₄
  all_goals
    obtain rfl := Option.some.inj h
    first
      | rw [h₁]; decide
      | rw [h₂]; decide
      | rw [h₃]; decide
      | rw [h₄]; decide

theorem escapeByte_plain (hspace : b ≠ 0x20) (htab : b ≠ 0x09) (hline : b ≠ 0x0a)
    (hbackslash : b ≠ 0x5c) : escapeByte b = [b] := by
  rw [escapeByte, if_neg hspace, if_neg htab, if_neg hline, if_neg hbackslash]

/-- The first step of a decoding that succeeds. -/
theorem decodeEscapes_cons_eq_some {rest : Bytes} (h : decodeEscapes (b :: rest) = some path) :
    (b ≠ 0x5c ∧ ∃ tail, path = b :: tail ∧ decodeEscapes rest = some tail) ∨
    (b = 0x5c ∧ ∃ x y z after c tail, rest = x :: y :: z :: after ∧ escaped x y z = some c ∧
      path = c :: tail ∧ decodeEscapes after = some tail) := by
  by_cases hb : b = 0x5c
  · subst hb
    match rest with
    | x :: y :: z :: after =>
      rw [decodeEscapes_backslash, Option.bind_eq_some_iff] at h
      obtain ⟨c, hc, hrest⟩ := h
      obtain ⟨tail, htail, rfl⟩ := Option.map_eq_some_iff.mp hrest
      exact .inr ⟨rfl, x, y, z, after, c, tail, rfl, hc, rfl, htail⟩
    | [] | [_] | [_, _] => cases h
  · rw [decodeEscapes_plain hb, Option.map_eq_some_iff] at h
    obtain ⟨tail, htail, rfl⟩ := h
    exact .inl ⟨hb, tail, rfl, htail⟩

/-- Where no raw space, tab or line feed stands for itself, the text is the kernel's. -/
theorem escapePath_of_decodeEscapes (h : decodeEscapes value = some path) (hspace : 0x20 ∉ value)
    (htab : 0x09 ∉ path) (hline : 0x0a ∉ path) : escapePath path = value := by
  -- an escape takes four bytes at once, so the induction is on the length
  induction hn : value.length using Nat.strong_induction_on generalizing value path with
  | _ n ih =>
    cases value with
    | nil =>
      obtain rfl := Option.some.inj h
      rfl
    | cons b rest =>
      subst hn
      simp only [List.mem_cons, not_or] at hspace
      obtain ⟨hplain, tail, rfl, hrest⟩ | ⟨rfl, x, y, z, after, c, tail, rfl, hc, rfl, hrest⟩ :=
        decodeEscapes_cons_eq_some h
      · simp only [List.mem_cons, not_or] at htab hline
        rw [escapePath_cons, ih rest.length (Nat.lt_succ_self _) hrest hspace.2 htab.2 hline.2 rfl,
          escapeByte_plain (Ne.symm hspace.1) (Ne.symm htab.1) (Ne.symm hline.1) hplain]
        rfl
      · simp only [List.mem_cons, not_or] at hspace htab hline
        have hlength : after.length < (0x5c :: x :: y :: z :: after).length := by
          simp only [List.length_cons]
          omega
        rw [escapePath_cons, ih _ hlength hrest hspace.2.2.2.2 htab.2 hline.2 rfl,
          escapeByte_of_escaped hc]
        rfl

/-! ## Both ways -/

theorem cleanResourcePath_of_isSome (h : (cleanResourcePath path).isSome) :
    cleanResourcePath path = some path ∧ path ≠ [] ∧ hasControl path = false := by
  unfold cleanResourcePath at h ⊢
  split at h
  · cases h
  rename_i hrefused
  split at h
  · cases h
  rename_i hclean
  rw [if_neg hrefused, if_neg hclean, not_not.mp hclean]
  simp only [not_or, Bool.not_eq_true] at hrefused
  exact ⟨rfl, hrefused.1, hrefused.2.2.2⟩

theorem decodeMountPath_escapePath (h : (cleanResourcePath path).isSome)
    (hlength : (escapePath path).length ≤ maxResourcePathBytes * 2) :
    decodeMountPath (escapePath path) = some path := by
  obtain ⟨hclean, hne, -⟩ := cleanResourcePath_of_isSome h
  rw [decodeMountPath, if_neg (not_or.mpr ⟨escapePath_ne_nil hne, Nat.not_lt.mpr hlength⟩),
    decodeEscapes_escapePath, Option.bind_some, hclean]

theorem escapePath_of_decodeMountPath (h : decodeMountPath value = some path)
    (hspace : 0x20 ∉ value) : cleanResourcePath path = some path ∧ escapePath path = value := by
  unfold decodeMountPath at h
  split at h
  · cases h
  obtain ⟨decoded, hdecoded, haccepted⟩ := Option.bind_eq_some_iff.mp h
  obtain ⟨hclean, -, hcontrol⟩ := cleanResourcePath_of_isSome (Option.isSome_of_mem haccepted)
  obtain rfl := Option.some.inj (hclean.symm.trans haccepted)
  -- a tab or a line feed would be a control character of the path
  have hnone : ∀ c : UInt8, c.toNat < 0x20 → c ∉ decoded := by
    intro c hc hmem
    rw [hasControl_of_mem hmem hc] at hcontrol
    cases hcontrol
  exact ⟨hclean, escapePath_of_decodeEscapes hdecoded hspace (hnone 0x09 (by decide))
    (hnone 0x0a (by decide))⟩

/-- **`decodeMountPath` inverts the kernel's escaping**: every path that is accepted comes back
from its escaped text, and a text without raw spaces that is accepted is the escaped text of
its path, so that no two of them decode to the same one. -/
theorem decodeMountPath_inverts :
    (∀ path, (cleanResourcePath path).isSome → (escapePath path).length ≤ 8192 →
      decodeMountPath (escapePath path) = some path) ∧
    (∀ value path, 0x20 ∉ value → decodeMountPath value = some path →
      cleanResourcePath path = some path ∧ escapePath path = value) ∧
    (∀ value value' path, 0x20 ∉ value → 0x20 ∉ value' → decodeMountPath value = some path →
      decodeMountPath value' = some path → value = value') := by
  refine ⟨fun path h hlength => decodeMountPath_escapePath h hlength,
    fun value path hspace h => escapePath_of_decodeMountPath h hspace, ?_⟩
  intro value value' path hspace hspace' h h'
  rw [← (escapePath_of_decodeMountPath h hspace).2, (escapePath_of_decodeMountPath h' hspace').2]

/-- A path whose name looks like an escape. -/
theorem decodeMountPath_inverts_nested :
    decodeMountPath (escapePath (stringBytes "/a\\040b c")) = some (stringBytes "/a\\040b c") ∧
    escapePath (stringBytes "/a b") = stringBytes "/a\\040b" :=
  ⟨decodeMountPath_inverts.1 _ (by decide +kernel) (by decide +kernel),
    (decodeMountPath_inverts.2.1 _ _ (by decide +kernel) (by decide +kernel)).2⟩

end TosAi.Probe
