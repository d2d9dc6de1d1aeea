/-
  Functions of `strings`, `strconv` and `encoding/hex` on Go strings, which are any bytes.

  `strings.ToLower` rests on a table of letter cases.  Here it is any table that is right
  on ASCII; nothing proved with it depends on the rest.

  The digits of a byte string (`hexBytes`) are what a decoder of hexadecimal digits accepts
  among the texts without capital letters (`hexDecode_eq_some`).
-/
import TosAi.Foundation.Json.Binary

set_option autoImplicit false

namespace TosAi.Foundation

open Json (Bytes hexDigit hexValue)

/-! ## ASCII -/

def IsASCII (s : Bytes) : Prop := ∀ b ∈ s, b.toNat < 0x80

instance (s : Bytes) : Decidable (IsASCII s) := inferInstanceAs (Decidable (∀ b ∈ s, _))

/-- Each byte as a character. -/
def asciiText (s : Bytes) : String := String.ofList (s.map fun b => Char.ofNat b.toNat)

theorem toNat_ofNat_byte {b : UInt8} (h : b.toNat < 0x80) :
    (Char.ofNat b.toNat).toNat = b.toNat := by
  have hvalid : b.toNat.isValidChar := .inl (by omega)
  simp [Char.ofNat, hvalid, Char.toNat, Char.ofNatAux]

variable {s raw : Bytes}

theorem stringBytes_asciiText (h : IsASCII s) : stringBytes (asciiText s) = s := by
  rw [stringBytes, asciiText, String.toList_ofList]
  induction s with
  | nil => rfl
  | cons b s ih =>
    have hb : b.toNat < 0x80 := h b List.mem_cons_self
    have hchar := toNat_ofNat_byte hb
    rw [List.map_cons, List.flatMap_cons, ih fun c hc => h c (List.mem_cons_of_mem _ hc),
      Json.utf8EncodeChar_ascii (by rw [hchar]; exact hb), hchar, UInt8.ofNat_toNat,
      List.singleton_append]

theorem goText_of_isASCII (h : IsASCII s) : goText s = asciiText s := by
  rw [← goText_stringBytes (asciiText s), stringBytes_asciiText h]

theorem IsASCII.isUTF8 (h : IsASCII s) : IsUTF8 s := by
  rw [IsUTF8, goText_of_isASCII h, stringBytes_asciiText h]

theorem isASCII_append {t : Bytes} : IsASCII (s ++ t) ↔ IsASCII s ∧ IsASCII t := by
  simp only [IsASCII, List.mem_append]
  exact ⟨fun h => ⟨fun b hb => h b (.inl hb), fun b hb => h b (.inr hb)⟩,
    fun h b hb => hb.elim (h.1 b) (h.2 b)⟩

/-! ## Letter case -/

/-- A table of lower case letters, right on ASCII. -/
structure Unicode where
  lower : Char → Char
  lower_ascii : ∀ c : Char, c.toNat < 0x80 → lower c = c.toLower

/-- The table that knows ASCII only. -/
def Unicode.plain : Unicode := ⟨Char.toLower, fun _ _ => rfl⟩

/-- `strings.ToLower`; what is not UTF-8 is replaced. -/
def Unicode.toLower (U : Unicode) (s : Bytes) : Bytes :=
  stringBytes (String.ofList ((goText s).toList.map U.lower))

/-- `ToLower` of one byte. -/
def lowerByte (b : UInt8) : UInt8 := if 65 ≤ b.toNat ∧ b.toNat ≤ 90 then b + 32 else b

theorem lower_byte :
    ∀ b : UInt8, b.toNat < 0x80 → (Char.ofNat b.toNat).toLower = Char.ofNat (lowerByte b).toNat ∧
      (lowerByte b).toNat < 0x80 := by
  decide +kernel

theorem Unicode.toLower_of_isASCII (U : Unicode) (h : IsASCII s) :
    U.toLower s = s.map lowerByte := by
  have hlower : IsASCII (s.map lowerByte) := by
    intro b hb
    obtain ⟨c, hc, rfl⟩ := List.mem_map.mp hb
    exact (lower_byte c (h c hc)).2
  have htext : (goText s).toList.map U.lower = (asciiText (s.map lowerByte)).toList := by
    rw [goText_of_isASCII h, asciiText, asciiText, String.toList_ofList, String.toList_ofList,
      List.map_map, List.map_map]
    apply List.map_congr_left
    intro b hb
    have hb' : b.toNat < 0x80 := h b hb
    rw [Function.comp_apply, Function.comp_apply,
      U.lower_ascii _ (by rw [toNat_ofNat_byte hb']; exact hb'), (lower_byte b hb').1]
  rw [Unicode.toLower, htext, String.ofList_toList, stringBytes_asciiText hlower]

/-! ## `encoding/hex` -/

/-- The digits of a byte string. -/
def hexBytes (raw : Bytes) : Bytes :=
  raw.flatMap fun b => [hexDigit (b.toNat / 16), hexDigit (b.toNat % 16)]

/-- `hex.DecodeString`. -/
def hexDecode : Bytes → Option Bytes
  | [] => some []
  | [_] => none
  | a :: b :: rest => do
    let high ← hexValue a
    let low ← hexValue b
    let raw ← hexDecode rest
    some (UInt8.ofNat (16 * high + low) :: raw)

theorem length_hexBytes (raw : Bytes) : (hexBytes raw).length = 2 * raw.length := by
  induction raw with
  | nil => rfl
  | cons b raw ih =>
    rw [hexBytes, List.flatMap_cons, List.length_append, List.length_cons]
    rw [hexBytes] at ih
    simp only [List.length_cons, List.length_nil, ih]
    omega

theorem hexDigit_small :
    ∀ k < 16, (hexDigit k).toNat < 0x80 ∧ lowerByte (hexDigit k) = hexDigit k := by
  decide

theorem hexBytes_small :
    ∀ b ∈ hexBytes raw, b.toNat < 0x80 ∧ lowerByte b = b := by
  intro b hb
  obtain ⟨c, -, hc⟩ := List.mem_flatMap.mp hb
  have hlt := c.toNat_lt
  simp only [List.mem_cons, List.not_mem_nil, or_false] at hc
  rcases hc with rfl | rfl
  · exact hexDigit_small _ (by omega)
  · exact hexDigit_small _ (by omega)

theorem isASCII_hexBytes (raw : Bytes) : IsASCII (hexBytes raw) :=
  fun b hb => (hexBytes_small b hb).1

theorem map_lowerByte_hexBytes (raw : Bytes) : (hexBytes raw).map lowerByte = hexBytes raw := by
  conv_rhs => rw [← List.map_id (hexBytes raw)]
  exact List.map_congr_left fun b hb => (hexBytes_small b hb).2

theorem hexDecode_hexBytes (raw : Bytes) : hexDecode (hexBytes raw) = some raw := by
  induction raw with
  | nil => rfl
  | cons b raw ih =>
    have hb := b.toNat_lt
    have hbyte : UInt8.ofNat (16 * (b.toNat / 16) + b.toNat % 16) = b := by
      rw [Nat.div_add_mod, UInt8.ofNat_toNat]
    rw [hexBytes, List.flatMap_cons, List.cons_append, List.singleton_append, ← hexBytes, hexDecode,
      Json.hexValue_hexDigit (by omega), Json.hexValue_hexDigit (by omega), ih]
    simp only [Option.bind_eq_bind, Option.bind_some, hbyte]

/-- A digit is the digit of its value, unless it is a capital letter. -/
theorem hexDigit_of_hexValue :
    ∀ (b : UInt8) (k : Nat), hexValue b = some k → k < 16 ∧ b.toNat < 0x80 ∧
      (lowerByte b = b → hexDigit k = b) := by
  have hall : ∀ b : UInt8, ∀ k ∈ hexValue b, k < 16 ∧ b.toNat < 0x80 ∧
      (lowerByte b = b → hexDigit k = b) := by
    decide +kernel
  exact fun b k h => hall b k h

theorem isASCII_of_hexDecode (h : hexDecode s = some raw) : IsASCII s := by
  fun_induction hexDecode s generalizing raw with
  | case1 => exact fun b hb => nomatch hb
  | case2 => cases h
  | case3 a b rest ih =>
    simp only [Option.bind_eq_bind, Option.bind_eq_some_iff] at h
    obtain ⟨high, hhigh, low, hlow, raw', hraw, -⟩ := h
    intro c hc
    rcases List.mem_cons.mp hc with rfl | hc
    · exact (hexDigit_of_hexValue _ _ hhigh).2.1
    rcases List.mem_cons.mp hc with rfl | hc
    · exact (hexDigit_of_hexValue _ _ hlow).2.1
    · exact ih hraw c hc

/-- **Among the texts without capital letters, what is decoded is the digits of its value.** -/
theorem hexDecode_eq_some :
    s.map lowerByte = s ∧ hexDecode s = some raw ↔ s = hexBytes raw := by
  constructor
  · rintro ⟨hlower, h⟩
    fun_induction hexDecode s generalizing raw with
    | case1 =>
      obtain rfl := Option.some.inj h
      rfl
    | case2 => cases h
    | case3 a b rest ih =>
      simp only [Option.bind_eq_bind, Option.bind_eq_some_iff, Option.some.injEq] at h
      obtain ⟨high, hhigh, low, hlow, raw', hraw, rfl⟩ := h
      simp only [List.map_cons, List.cons.injEq] at hlower
      obtain ⟨hhigh16, -, hhigh'⟩ := hexDigit_of_hexValue _ _ hhigh
      obtain ⟨hlow16, -, hlow'⟩ := hexDigit_of_hexValue _ _ hlow
      have hbyte : (UInt8.ofNat (16 * high + low)).toNat = 16 * high + low := by
        rw [UInt8.toNat_ofNat']
        omega
      have hdiv : (16 * high + low) / 16 = high := by omega
      have hmod : (16 * high + low) % 16 = low := by omega
      rw [hexBytes, List.flatMap_cons, hbyte, hdiv, hmod, hhigh' hlower.1, hlow' hlower.2.1,
        ← hexBytes, ← ih hlower.2.2 hraw]
      rfl
  · rintro rfl
    exact ⟨map_lowerByte_hexBytes raw, hexDecode_hexBytes raw⟩

theorem stringBytes_hexEncode (raw : Bytes) : stringBytes (hexEncode raw) = hexBytes raw := by
  have hchars : hexEncode raw = asciiText (hexBytes raw) := by
    rw [hexEncode, asciiText, hexBytes, List.map_flatMap]
    rfl
  rw [hchars, stringBytes_asciiText (isASCII_hexBytes raw)]

theorem hexBytes_injective {a b : Bytes} (h : hexBytes a = hexBytes b) : a = b := by
  have ha := hexDecode_hexBytes a
  rw [h, hexDecode_hexBytes] at ha
  exact (Option.some.inj ha).symm

/-! ## `strings` and `strconv` -/

/-- `strings.Cut` at one byte. -/
def cutByte (sep : UInt8) : Bytes → Option (Bytes × Bytes)
  | [] => none
  | b :: rest =>
    if b = sep then some ([], rest) else (cutByte sep rest).map fun p => (b :: p.1, p.2)

theorem cutByte_eq_some {sep : UInt8} {before after : Bytes} :
    cutByte sep s = some (before, after) ↔ s = before ++ sep :: after ∧ sep ∉ before := by
  induction s generalizing before with
  | nil => simp [cutByte]
  | cons b s ih =>
    by_cases hb : b = sep
    · subst hb
      simp only [cutByte, if_true, Option.some.injEq, Prod.mk.injEq]
      constructor
      · rintro ⟨rfl, rfl⟩
        exact ⟨rfl, List.not_mem_nil⟩
      · rintro ⟨heq, hmem⟩
        cases before with
        | nil => exact ⟨rfl, (List.cons.inj heq).2⟩
        | cons c before => exact absurd ((List.cons.inj heq).1 ▸ List.mem_cons_self) hmem
    · simp only [cutByte, hb, if_false, Option.map_eq_some_iff, Prod.exists, Prod.mk.injEq]
      constructor
      · rintro ⟨before', after', hcut, rfl, rfl⟩
        obtain ⟨rfl, hmem⟩ := ih.mp hcut
        refine ⟨rfl, fun h => ?_⟩
        rcases List.mem_cons.mp h with h | h
        · exact hb h.symm
        · exact hmem h
      · rintro ⟨heq, hmem⟩
        cases before with
        | nil => exact absurd (List.cons.inj heq).1 hb
        | cons c before =>
          obtain ⟨rfl, rfl⟩ := List.cons.inj heq
          exact ⟨before, after, ih.mpr ⟨rfl, fun h => hmem (List.mem_cons_of_mem _ h)⟩, rfl, rfl⟩

/-- The number of a string of digits. -/
def decimalValue (digits : Bytes) : Option Nat :=
  digits.foldlM
    (fun n b => if 48 ≤ b.toNat ∧ b.toNat ≤ 57 then some (10 * n + (b.toNat - 48)) else none) 0

/-- A number of 32 bits from its sign and its digits. -/
def signedValue (negative : Bool) (digits : Bytes) : Option Int :=
  if digits = [] then none
  else (decimalValue digits).bind fun n =>
    if negative then (if n ≤ 2 ^ 31 then some (-n) else none)
    else if n < 2 ^ 31 then some n else none

/-- `strconv.ParseInt(s, 10, 32)`. -/
def parseInt32 : Bytes → Option Int
  | 0x2b :: digits => signedValue false digits
  | 0x2d :: digits => signedValue true digits
  | digits => signedValue false digits

/-- `unicode.IsSpace`. -/
def isUnicodeSpace (c : Char) : Bool :=
  c.toNat ∈ [0x09, 0x0a, 0x0b, 0x0c, 0x0d, 0x20, 0x85, 0xa0, 0x1680, 0x2028, 0x2029, 0x202f, 0x205f,
    0x3000] || (0x2000 ≤ c.toNat && c.toNat ≤ 0x200a)

/-- `strings.TrimSpace(s) == s`: there is no space at either end. -/
def isTrimmed (s : Bytes) : Bool :=
  !(goText s).toList.head?.any isUnicodeSpace && !(goText s).toList.getLast?.any isUnicodeSpace

/-! ## Hash functions -/

/-- `crypto/sha256`, of which only the length is known. -/
structure Hash where
  sum : Bytes → Bytes
  length_sum : ∀ data, (sum data).length = 32

/-- The two strings have different hashes if they are different. -/
def Hash.Separates (H : Hash) (a b : Bytes) : Prop := H.sum a = H.sum b → a = b

end TosAi.Foundation
