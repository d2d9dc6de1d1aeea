/-
  Byte strings in JSON.

  A Go string is any byte string.  The encoder writes each byte that is not part of a
  UTF-8 sequence as U+FFFD (`goText`), so a string comes back as it was if and only if it
  is UTF-8.  A byte slice is written in base64 with padding, and comes back always.
-/
import TosAi.Foundation.GoStd
import TosAi.Foundation.Json.Codec

set_option autoImplicit false

namespace TosAi.Foundation

open Json (Bytes Codec)

/-! ## Strings -/

/-- The characters of a byte string, as `range` goes over them; `fuel` bounds their
number. -/
def runes : Nat → Bytes → List Char
  | 0, _ => []
  | _ + 1, [] => []
  | fuel + 1, b :: rest =>
    let rune := Json.decodeRune (b :: rest)
    rune.1 :: runes fuel ((b :: rest).drop rune.2)

/-- The text an encoder makes of a Go string. -/
def goText (bytes : Bytes) : String := String.ofList (runes bytes.length bytes)

theorem runes_utf8EncodeChar (c : Char) (fuel : Nat) (rest : Bytes) :
    runes (fuel + 1) (String.utf8EncodeChar c ++ rest) = c :: runes fuel rest := by
  obtain ⟨b, tail, hbytes⟩ : ∃ b tail, String.utf8EncodeChar c = b :: tail :=
    List.exists_cons_of_ne_nil String.utf8EncodeChar_ne_nil
  have hrune := Json.decodeRune_utf8EncodeChar c rest
  have hlength : c.utf8Size = (String.utf8EncodeChar c).length :=
    (String.length_utf8EncodeChar c).symm
  rw [hbytes, List.cons_append, runes, ← List.cons_append, ← hbytes, hrune]
  simp only [hlength, List.drop_left]

theorem runes_utf8Encode (s : List Char) {fuel : Nat} (h : s.length ≤ fuel) :
    runes fuel (s.flatMap String.utf8EncodeChar) = s := by
  induction s generalizing fuel with
  | nil => cases fuel <;> rfl
  | cons c s ih =>
    obtain ⟨fuel, rfl⟩ : ∃ k, fuel = k + 1 := ⟨fuel - 1, by simp at h; omega⟩
    rw [List.flatMap_cons, runes_utf8EncodeChar, ih (by simpa using h)]

theorem length_le_length_stringBytes (s : List Char) :
    s.length ≤ (s.flatMap String.utf8EncodeChar).length := by
  induction s with
  | nil => simp
  | cons c s ih =>
    have hpos := c.utf8Size_pos
    rw [List.flatMap_cons, List.length_append, String.length_utf8EncodeChar, List.length_cons]
    omega

/-- **UTF-8 comes back.** -/
@[simp] theorem goText_stringBytes (s : String) : goText (stringBytes s) = s := by
  rw [goText, stringBytes, runes_utf8Encode s.toList (length_le_length_stringBytes s.toList),
    String.ofList_toList]

theorem stringBytes_injective {s t : String} (h : stringBytes s = stringBytes t) : s = t := by
  rw [← goText_stringBytes s, h, goText_stringBytes]

/-- The bytes are those of a text (`utf8.ValidString`). -/
def IsUTF8 (bytes : Bytes) : Prop := stringBytes (goText bytes) = bytes

instance (bytes : Bytes) : Decidable (IsUTF8 bytes) := inferInstanceAs (Decidable (_ = _))

theorem isUTF8_stringBytes (s : String) : IsUTF8 (stringBytes s) := by
  rw [IsUTF8, goText_stringBytes]

/-! ## Base64 with padding -/

/-- The character of a value in the standard alphabet. -/
def base64StdChar (value : Nat) : Char :=
  if value = 62 then '+' else if value = 63 then '/' else base64Char value

/-- The value of a character in the standard alphabet. -/
def base64StdValue (c : Char) : Option Nat :=
  if c = '+' then some 62
  else if c = '/' then some 63
  else if c = '-' ∨ c = '_' then none else base64Value c

/-- `base64.StdEncoding.EncodeToString`. -/
def base64StdEncode (bytes : Bytes) : List Char :=
  let chars := (base64Values bytes).map base64StdChar
  chars ++ List.replicate ((4 - chars.length % 4) % 4) '='

/-- At most two padding characters at the end are taken off. -/
def unpad (chars : List Char) : List Char :=
  match chars.reverse with
  | '=' :: '=' :: rest => rest.reverse
  | '=' :: rest => rest.reverse
  | _ => chars

/-- `base64.StdEncoding.DecodeString`: line breaks are skipped, groups are whole. -/
def base64StdDecode (chars : List Char) : Option Bytes :=
  let kept := chars.filter fun c => c != '\r' && c != '\n'
  if kept.length % 4 = 0 then ((unpad kept).mapM base64StdValue).bind base64Groups else none

theorem base64StdValue_char {v : Nat} (h : v < 64) : base64StdValue (base64StdChar v) = some v := by
  have hall : ∀ v < 64, base64StdValue (base64StdChar v) = some v := by decide
  exact hall v h

theorem base64StdChar_plain {v : Nat} (h : v < 64) :
    base64StdChar v ≠ '=' ∧ base64StdChar v ≠ '\r' ∧ base64StdChar v ≠ '\n' := by
  have hall : ∀ v < 64, base64StdChar v ≠ '=' ∧ base64StdChar v ≠ '\r' ∧
      base64StdChar v ≠ '\n' := by decide
  exact hall v h

theorem base64Values_lt (bytes : Bytes) : ∀ v ∈ base64Values bytes, v < 64 := by
  fun_induction base64Values bytes with
  | case1 => simp
  | case2 a =>
    have ha := a.toNat_lt
    simp only [List.mem_cons, List.not_mem_nil, or_false]
    rintro v (rfl | rfl) <;> omega
  | case3 a b =>
    have ha := a.toNat_lt
    have hb := b.toNat_lt
    simp only [List.mem_cons, List.not_mem_nil, or_false]
    rintro v (rfl | rfl | rfl) <;> omega
  | case4 a b c rest ih =>
    have ha := a.toNat_lt
    have hb := b.toNat_lt
    have hc := c.toNat_lt
    simp only [List.mem_cons]
    rintro v (rfl | rfl | rfl | rfl | hv)
    · omega
    · omega
    · omega
    · omega
    · exact ih v hv

/-- Three bytes as four values come back. -/
theorem ofNat_toNat_of_mod {a : UInt8} {n : Nat} (h : n % 256 = a.toNat) : UInt8.ofNat n = a := by
  apply UInt8.toNat_inj.mp
  rw [UInt8.toNat_ofNat']
  exact h

theorem base64Groups_values (bytes : Bytes) : base64Groups (base64Values bytes) = some bytes := by
  fun_induction base64Values bytes with
  | case1 => rfl
  | case2 a =>
    have ha := a.toNat_lt
    rw [base64Groups, ofNat_toNat_of_mod (a := a) (by omega)]
  | case3 a b =>
    have ha := a.toNat_lt
    have hb := b.toNat_lt
    rw [base64Groups, ofNat_toNat_of_mod (a := a) (by omega),
      ofNat_toNat_of_mod (a := b) (by omega)]
  | case4 a b c rest ih =>
    have ha := a.toNat_lt
    have hb := b.toNat_lt
    have hc := c.toNat_lt
    rw [base64Groups, ih, Option.map_some, ofNat_toNat_of_mod (a := a) (by omega),
      ofNat_toNat_of_mod (a := b) (by omega), ofNat_toNat_of_mod (a := c) (by omega)]

theorem length_base64Values (bytes : Bytes) : (base64Values bytes).length % 4 ≠ 1 := by
  fun_induction base64Values bytes with
  | case1 | case2 | case3 => simp
  | case4 a b c rest ih =>
    simp only [List.length_cons]
    omega

theorem mapM_base64StdValue {values : List Nat} (h : ∀ v ∈ values, v < 64) :
    (values.map base64StdChar).mapM base64StdValue = some values := by
  induction values with
  | nil => rfl
  | cons v values ih =>
    rw [List.map_cons, List.mapM_cons, base64StdValue_char (h v List.mem_cons_self),
      ih fun w hw => h w (List.mem_cons_of_mem _ hw)]
    rfl

/-- The padding is what is taken off. -/
theorem unpad_append {chars : List Char} (hchars : ∀ c ∈ chars, c ≠ '=') {k : Nat} (hk : k ≤ 2) :
    unpad (chars ++ List.replicate k '=') = chars := by
  have hhead : ∀ rest, chars.reverse ≠ '=' :: rest := by
    intro rest h
    exact hchars '=' (by rw [← List.mem_reverse, h]; exact List.mem_cons_self) rfl
  unfold unpad
  rw [List.reverse_append, List.reverse_replicate]
  match k, hk with
  | 0, _ =>
    rw [List.replicate_zero, List.nil_append, List.append_nil]
    split
    · next rest h => exact absurd h (hhead _)
    · next rest _ h => exact absurd h (hhead _)
    · rfl
  | 1, _ =>
    show (match '=' :: chars.reverse with
      | '=' :: '=' :: rest => rest.reverse
      | '=' :: rest => rest.reverse
      | _ => _) = chars
    split
    · next rest h => exact absurd (List.cons.inj h).2 (hhead _)
    · next rest _ h => rw [← (List.cons.inj h).2, List.reverse_reverse]
    · next _ h => exact absurd rfl (h _)
  | 2, _ => exact List.reverse_reverse chars

/-- **A byte string comes back from its text.** -/
theorem base64StdDecode_encode (bytes : Bytes) :
    base64StdDecode (base64StdEncode bytes) = some bytes := by
  have hvalues := base64Values_lt bytes
  have hmod := length_base64Values bytes
  have hplain : ∀ c ∈ (base64Values bytes).map base64StdChar, c ≠ '=' ∧ c ≠ '\r' ∧ c ≠ '\n' := by
    intro c hc
    obtain ⟨v, hv, rfl⟩ := List.mem_map.mp hc
    exact base64StdChar_plain (hvalues v hv)
  have hkept : (base64StdEncode bytes).filter (fun c => c != '\r' && c != '\n') =
      base64StdEncode bytes := by
    apply List.filter_eq_self.mpr
    intro c hc
    rcases List.mem_append.mp hc with hc | hc
    · simp [(hplain c hc).2.1, (hplain c hc).2.2]
    · rw [(List.mem_replicate.mp hc).2]
      decide
  have hlength : (base64StdEncode bytes).length % 4 = 0 := by
    simp only [base64StdEncode, List.length_append, List.length_map, List.length_replicate]
    omega
  have hunpad : unpad (base64StdEncode bytes) = (base64Values bytes).map base64StdChar := by
    apply unpad_append fun c hc => (hplain c hc).1
    rw [List.length_map]
    omega
  rw [base64StdDecode]
  simp only [hkept, hlength, if_true, hunpad, mapM_base64StdValue hvalues, Option.bind_some,
    base64Groups_values]

/-! ## One value of a stream -/

/-- `Decoder.Decode`: the first value of the input, and what is left of the input. -/
def Json.Codec.decodeFirst {α : Type} (c : Codec α) (strict : Bool) (input : Bytes) :
    Option (α × Bytes) :=
  (Json.parseValue (input.length + 1) input).bind fun p =>
    (c.dec strict c.zero p.1).map fun a => (a, p.2)

/-- Where the input is one value, nothing is left of it. -/
theorem Json.Codec.decodeFirst_of_unmarshal {α : Type} {c : Codec α} {strict : Bool} {input : Bytes}
    {a : α} (h : c.unmarshal strict input = some a) :
    ∃ rest, c.decodeFirst strict input = some (a, rest) ∧ (Json.token rest).isNone = true := by
  simp only [Codec.unmarshal, Json.parse, Option.bind_eq_bind, Option.bind_eq_some_iff,
    Option.ite_none_right_eq_some, Prod.exists] at h
  obtain ⟨value, ⟨value', rest, hvalue, hrest, hsame⟩, hdec⟩ := h
  obtain rfl := Option.some.inj hsame
  exact ⟨rest, by rw [decodeFirst, hvalue, Option.bind_some, hdec]; rfl, hrest⟩

end TosAi.Foundation
