/-
  More of `strings`, `strconv` and `unicode` on Go strings: splitting at spaces, trimming and
  reading numbers of 64 bits.

  A string is gone through by characters, each with the bytes that spell it; a byte that
  starts no character stands for U+FFFD and is kept as it is.
-/
import TosAi.Foundation.GoStrings

set_option autoImplicit false

namespace TosAi.Foundation

open Json (Bytes)

/-! ## Characters with their bytes -/

/-- The characters of a string and their bytes; `fuel` bounds their number. -/
def spelledFuel : Nat → Bytes → List (Char × Bytes)
  | 0, _ => []
  | _ + 1, [] => []
  | fuel + 1, b :: rest =>
    let rune := Json.decodeRune (b :: rest)
    (rune.1, (b :: rest).take rune.2) :: spelledFuel fuel ((b :: rest).drop rune.2)

/-- The characters of a string and their bytes. -/
def spelled (s : Bytes) : List (Char × Bytes) := spelledFuel s.length s

theorem decodeRune_ascii {b : UInt8} (h : b.toNat < 0x80) (rest : Bytes) :
    Json.decodeRune (b :: rest) = (Char.ofNat b.toNat, 1) := by
  have hchar := toNat_ofNat_byte h
  have hbytes : String.utf8EncodeChar (Char.ofNat b.toNat) = [b] := by
    rw [Json.utf8EncodeChar_ascii (by rw [hchar]; exact h), hchar, UInt8.ofNat_toNat]
  have hrune := Json.decodeRune_utf8EncodeChar (Char.ofNat b.toNat) rest
  rw [hbytes, ← String.length_utf8EncodeChar, hbytes] at hrune
  exact hrune

/-- A character that is not ASCII takes no byte that is. -/
theorem high_of_mem_take {b : UInt8} {rest : Bytes} (h : 0x80 ≤ b.toNat) :
    ∀ x ∈ (b :: rest).take (Json.decodeRune (b :: rest)).2, 0x80 ≤ x.toNat := by
  intro x hx
  unfold Json.decodeRune at hx
  split at hx
  · rename_i c hc
    obtain ⟨tail, htail⟩ := ByteArray.exists_of_utf8DecodeChar?_eq_some hc
    have hlist : b :: rest = String.utf8EncodeChar c ++ tail.data.toList := by
      have hdata := congrArg (fun a => a.data.toList) htail
      simpa using hdata
    rw [hlist, ← String.length_utf8EncodeChar, List.take_left] at hx
    refine Json.utf8EncodeChar_high ?_ x hx
    by_contra hlow
    rw [Json.utf8EncodeChar_ascii (by omega)] at hlist
    have hbyte := (List.cons.inj hlist).1
    rw [hbyte, UInt8.toNat_ofNat'] at h
    omega
  · rw [List.take_succ_cons, List.take_zero, List.mem_singleton] at hx
    rw [hx]
    exact h

/-- The ASCII bytes of a string are characters of it. -/
theorem mem_runes_of_ascii {b : UInt8} (hascii : b.toNat < 0x80) (fuel : Nat) :
    ∀ s : Bytes, s.length ≤ fuel → b ∈ s → Char.ofNat b.toNat ∈ runes fuel s := by
  induction fuel with
  | zero =>
    intro s hlength hb
    rw [List.length_eq_zero_iff.mp (Nat.le_zero.mp hlength)] at hb
    cases hb
  | succ fuel ih =>
    intro s hlength hb
    cases s with
    | nil => cases hb
    | cons b' rest =>
      rw [runes]
      have hsplit := List.take_append_drop (Json.decodeRune (b' :: rest)).2 (b' :: rest)
      rw [← hsplit] at hb
      rcases List.mem_append.mp hb with hhere | hlater
      · by_cases hfirst : b'.toNat < 0x80
        · rw [decodeRune_ascii hfirst] at hhere ⊢
          rw [List.take_succ_cons, List.take_zero, List.mem_singleton] at hhere
          rw [hhere]
          exact List.mem_cons_self
        · have hhigh := high_of_mem_take (by omega) b hhere
          omega
      · refine List.mem_cons_of_mem _ (ih _ ?_ hlater)
        have hpos : 0 < (Json.decodeRune (b' :: rest)).2 := by
          unfold Json.decodeRune
          split
          · exact Char.utf8Size_pos _
          · exact Nat.one_pos
        rw [List.length_drop]
        simp only [List.length_cons] at hlength ⊢
        omega

/-- `unicode.IsControl`. -/
def isControl (c : Char) : Bool := c.toNat < 0x20 || (0x7f ≤ c.toNat && c.toNat ≤ 0x9f)

/-- `strings.IndexFunc(s, unicode.IsControl) >= 0`. -/
def hasControl (s : Bytes) : Bool := (goText s).toList.any isControl

theorem hasControl_of_mem {b : UInt8} {s : Bytes} (hb : b ∈ s) (hcontrol : b.toNat < 0x20) :
    hasControl s = true := by
  have hascii : b.toNat < 0x80 := by omega
  rw [hasControl, goText, String.toList_ofList, List.any_eq_true]
  refine ⟨_, mem_runes_of_ascii hascii _ s (Nat.le_refl _) hb, ?_⟩
  simp [isControl, toNat_ofNat_byte hascii, hcontrol]

/-- `strings.Fields`. -/
def fields (s : Bytes) : List Bytes :=
  (((spelled s).splitOnP fun p => isUnicodeSpace p.1).map fun group => group.flatMap (·.2)).filter
    (· ≠ [])

/-- `strings.TrimSpace`. -/
def trimSpace (s : Bytes) : Bytes :=
  let front := (spelled s).dropWhile fun p => isUnicodeSpace p.1
  ((front.reverse.dropWhile fun p => isUnicodeSpace p.1).reverse).flatMap (·.2)

/-- An ASCII byte as a character. -/
def letter (b : UInt8) : Char × Bytes := (Char.ofNat b.toNat, [b])

theorem spelledFuel_of_isASCII {s : Bytes} (h : IsASCII s) {fuel : Nat} (hfuel : s.length ≤ fuel) :
    spelledFuel fuel s = s.map letter := by
  induction s generalizing fuel with
  | nil => cases fuel <;> rfl
  | cons b s ih =>
    obtain ⟨fuel, rfl⟩ : ∃ k, fuel = k + 1 := ⟨fuel - 1, by simp at hfuel; omega⟩
    rw [spelledFuel, decodeRune_ascii (h b List.mem_cons_self)]
    have hrest := ih (fun c hc => h c (List.mem_cons_of_mem _ hc)) (Nat.le_of_succ_le_succ hfuel)
    simp [hrest, letter]

/-- Spaces at the end go, and nothing else does. -/
theorem trimSpace_append {s t : Bytes}
    (hs : ∀ b ∈ s, b.toNat < 0x80 ∧ isUnicodeSpace (letter b).1 = false)
    (ht : ∀ b ∈ t, b.toNat < 0x80 ∧ isUnicodeSpace (letter b).1 = true) :
    trimSpace (s ++ t) = s := by
  have hascii : IsASCII (s ++ t) :=
    isASCII_append.mpr ⟨fun b hb => (hs b hb).1, fun b hb => (ht b hb).1⟩
  have hspaces : ∀ p ∈ (t.map letter).reverse, isUnicodeSpace p.1 = true := by
    simp only [List.mem_reverse, List.mem_map]
    rintro _ ⟨b, hb, rfl⟩
    exact (ht b hb).2
  -- nothing goes in front of a letter that is no space
  have hkept : ∀ l rest : List (Char × Bytes), l ≠ [] → (∀ p ∈ l, isUnicodeSpace p.1 = false) →
      (l ++ rest).dropWhile (fun p => isUnicodeSpace p.1) = l ++ rest := by
    intro l rest hne hl
    obtain ⟨p, l, rfl⟩ := List.exists_cons_of_ne_nil hne
    rw [List.cons_append, List.dropWhile_cons_of_neg (by simp [hl p List.mem_cons_self])]
  have hsolid : ∀ p ∈ s.map letter, isUnicodeSpace p.1 = false := by
    simp only [List.mem_map]
    rintro _ ⟨b, hb, rfl⟩
    exact (hs b hb).2
  have hflat : (s.map letter).flatMap (·.2) = s := by
    rw [List.flatMap_map]
    exact List.flatMap_singleton' s
  unfold trimSpace spelled
  rw [spelledFuel_of_isASCII hascii (Nat.le_refl _), List.map_append]
  by_cases hempty : s = []
  · subst hempty
    rw [List.map_nil, List.nil_append,
      List.dropWhile_eq_nil_iff.mpr fun p hp => hspaces p (List.mem_reverse.mpr hp)]
    rfl
  · have hne : s.map letter ≠ [] := by simpa using hempty
    have hback := hkept (s.map letter).reverse [] (by simpa using hempty)
      fun p hp => hsolid p (List.mem_reverse.mp hp)
    rw [List.append_nil] at hback
    rw [hkept _ _ hne hsolid]
    dsimp only
    rw [List.reverse_append, List.dropWhile_append_of_pos hspaces, hback,
      List.reverse_reverse, hflat]

/-- `strings.Index` with the text on both sides of what was found. -/
def cutText (sep : Bytes) : Bytes → Option (Bytes × Bytes)
  | [] => if sep = [] then some ([], []) else none
  | b :: rest =>
    if sep.isPrefixOf (b :: rest) then some ([], (b :: rest).drop sep.length)
    else (cutText sep rest).map fun p => (b :: p.1, p.2)

/-- `strings.TrimSuffix` of one byte. -/
def trimSuffixByte (b : UInt8) (s : Bytes) : Bytes := if s.getLast? = some b then s.dropLast else s

/-! ## Numbers of 64 bits -/

/-- `strconv.ParseUint(s, 10, 64)`. -/
def parseUint64 (s : Bytes) : Option Nat :=
  if s = [] then none else (decimalValue s).bind fun n => if n < 2 ^ 64 then some n else none

theorem decimalValue_of_digits {digits : Bytes} (h : ∀ b ∈ digits, Json.isDigit b = true) :
    decimalValue digits = some (digits.foldl (fun n b => n * 10 + (b.toNat - 0x30)) 0) := by
  have key : ∀ n, digits.foldlM (fun n b =>
      if 48 ≤ b.toNat ∧ b.toNat ≤ 57 then some (10 * n + (b.toNat - 48)) else none) n =
        some (digits.foldl (fun n b => n * 10 + (b.toNat - 0x30)) n) := by
    induction digits with
    | nil => exact fun _ => rfl
    | cons b digits ih =>
      intro n
      have hb : 48 ≤ b.toNat ∧ b.toNat ≤ 57 := by
        simpa [Json.isDigit, UInt8.le_iff_toNat_le] using h b List.mem_cons_self
      rw [List.foldlM_cons, if_pos hb, List.foldl_cons, Nat.mul_comm n 10]
      exact ih (fun c hc => h c (List.mem_cons_of_mem _ hc)) _
  exact key 0

/-- The decimal text of a number is read as the number. -/
theorem decimalValue_decimal (n : Nat) : decimalValue (Json.decimal n) = some n := by
  have hread := Json.readDecimal_decimal n
  rw [Json.readDecimal,
    if_pos ⟨Json.decimal_ne_nil n, List.all_eq_true.mpr (Json.isDigit_decimal n)⟩] at hread
  rw [decimalValue_of_digits (Json.isDigit_decimal n), hread]

/-- A number of 64 bits from its sign and its digits. -/
def signedValue64 (negative : Bool) (digits : Bytes) : Option Int :=
  (parseUint64 digits).bind fun n =>
    if negative then (if n ≤ 2 ^ 63 then some (-n) else none)
    else if n < 2 ^ 63 then some n else none

/-- `strconv.ParseInt(s, 10, 64)` and, where an `int` has 64 bits, `strconv.Atoi`. -/
def parseInt64 : Bytes → Option Int
  | 0x2b :: digits => signedValue64 false digits
  | 0x2d :: digits => signedValue64 true digits
  | digits => signedValue64 false digits

theorem parseInt64_decimal {n : Nat} (h : n < 2 ^ 63) :
    parseInt64 (Json.decimal n) = some (n : Int) := by
  have hvalue : signedValue64 false (Json.decimal n) = some (n : Int) := by
    rw [signedValue64, parseUint64, if_neg (Json.decimal_ne_nil n), decimalValue_decimal,
      Option.bind_some, if_pos (by omega), Option.bind_some]
    exact if_pos h
  have hdigit := Json.isDigit_decimal n
  unfold parseInt64
  split
  · rename_i digits heq
    rw [heq] at hdigit
    exact absurd (hdigit _ List.mem_cons_self) (by decide)
  · rename_i digits heq
    rw [heq] at hdigit
    exact absurd (hdigit _ List.mem_cons_self) (by decide)
  · exact hvalue

end TosAi.Foundation
