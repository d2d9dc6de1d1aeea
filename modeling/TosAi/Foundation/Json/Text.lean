/-
  JSON string literals as Go's `encoding/json` writes and reads them.

  `escape` is the encoder with HTML escaping on: quote, backslash, the control
  characters and `<`, `>`, `&`, U+2028, U+2029 are escaped, everything else is
  its UTF-8 encoding.  `scanString` finds the end of a literal and `unquote`
  turns its body into characters, ill-formed UTF-8 and unpaired surrogates
  becoming U+FFFD.  The two results are that reading back a written string gives
  the string, and that a scan never looks beyond the closing quote.
-/
import Mathlib.Data.String.Basic
import Mathlib.Tactic.Common

set_option autoImplicit false

namespace TosAi.Foundation.Json

abbrev Bytes : Type := List UInt8

/-! ## Hexadecimal digits -/

/-- The lower-case digit of a value below sixteen. -/
def hexDigit (n : Nat) : UInt8 := if n < 10 then UInt8.ofNat (48 + n) else UInt8.ofNat (87 + n)

/-- The value of a digit, upper or lower case. -/
def hexValue (b : UInt8) : Option Nat :=
  if 48 ≤ b.toNat ∧ b.toNat ≤ 57 then some (b.toNat - 48)
  else if 97 ≤ b.toNat ∧ b.toNat ≤ 102 then some (b.toNat - 87)
  else if 65 ≤ b.toNat ∧ b.toNat ≤ 70 then some (b.toNat - 55)
  else none

theorem hexValue_hexDigit {n : Nat} (h : n < 16) : hexValue (hexDigit n) = some n := by
  have hall : ∀ k : Fin 16, hexValue (hexDigit k.val) = some k.val := by decide
  exact hall ⟨n, h⟩

/-- Four hexadecimal digits. -/
def hex4 : Bytes → Option (Nat × Bytes)
  | a :: b :: c :: d :: rest => do
    let w ← hexValue a
    let x ← hexValue b
    let y ← hexValue c
    let z ← hexValue d
    return (((w * 16 + x) * 16 + y) * 16 + z, rest)
  | _ => none

/-! ## Writing -/

/-- One character of a string literal. -/
def escapeChar (c : Char) : Bytes :=
  if c = '"' then [0x5c, 0x22]
  else if c = '\\' then [0x5c, 0x5c]
  else if c.toNat = 8 then [0x5c, 0x62]
  else if c.toNat = 12 then [0x5c, 0x66]
  else if c.toNat = 10 then [0x5c, 0x6e]
  else if c.toNat = 13 then [0x5c, 0x72]
  else if c.toNat = 9 then [0x5c, 0x74]
  else if c.toNat < 0x20 ∨ c = '<' ∨ c = '>' ∨ c = '&' then
    [0x5c, 0x75, 0x30, 0x30, hexDigit (c.toNat / 16), hexDigit (c.toNat % 16)]
  else if c.toNat = 0x2028 then [0x5c, 0x75, 0x32, 0x30, 0x32, 0x38]
  else if c.toNat = 0x2029 then [0x5c, 0x75, 0x32, 0x30, 0x32, 0x39]
  else String.utf8EncodeChar c

/-- The body of a string literal. -/
def escape (s : List Char) : Bytes := s.flatMap escapeChar

/-- A string literal with its quotes. -/
def quote (s : String) : Bytes := 0x22 :: (escape s.toList ++ [0x22])

/-! ## Scanning

The scanner is the byte automaton of `encoding/json`: inside the string, after a
backslash, or inside the four digits of a `\u` escape. -/

/-- Where the scanner is inside a literal. -/
inductive Mode where
  | body
  | esc
  /-- one hexadecimal digit is due, and then that many more -/
  | hex (more : Nat)
  deriving DecidableEq, Repr

/-- The letters that may follow a backslash, `u` apart. -/
def isEscape (b : UInt8) : Bool :=
  b == 0x22 || b == 0x5c || b == 0x2f || b == 0x62 || b == 0x66 || b == 0x6e || b == 0x72 ||
    b == 0x74

/-- What a byte does: an error, the end of the literal, or the next mode. -/
def Mode.next : Mode → UInt8 → Option (Option Mode)
  | .body, b =>
    if b = 0x22 then some none
    else if b.toNat < 0x20 then none
    else if b = 0x5c then some (some .esc)
    else some (some .body)
  | .esc, b =>
    if b = 0x75 then some (some (.hex 3))
    else if isEscape b then some (some .body)
    else none
  | .hex more, b =>
    if (hexValue b).isSome then
      match more with
      | 0 => some (some .body)
      | n + 1 => some (some (.hex n))
    else none

/-- The body of the literal from here on, and what follows the closing quote. -/
def scan : Mode → Bytes → Option (Bytes × Bytes)
  | _, [] => none
  | m, b :: rest =>
    match m.next b with
    | none => none
    | some none => some ([], rest)
    | some (some m') => (scan m' rest).map fun r => (b :: r.1, r.2)

/-- A scan depends only on what it consumed. -/
theorem scan_append {m : Mode} {input raw rest : Bytes} (more : Bytes)
    (h : scan m input = some (raw, rest)) :
    scan m (input ++ more) = some (raw, rest ++ more) := by
  induction input generalizing m raw rest with
  | nil => simp [scan] at h
  | cons b input ih =>
    rw [scan] at h
    rw [List.cons_append, scan]
    cases hnext : m.next b with
    | none => simp [hnext] at h
    | some next =>
      cases next with
      | none =>
        simp only [hnext, Option.some.injEq, Prod.mk.injEq] at h ⊢
        exact ⟨h.1, by rw [h.2]⟩
      | some m' =>
        simp only [hnext, Option.map_eq_some_iff, Prod.exists, Prod.mk.injEq] at h ⊢
        obtain ⟨raw', rest', hscan, hraw, hrest⟩ := h
        exact ⟨raw', rest' ++ more, ih hscan, hraw, by rw [hrest]⟩

/-- The mode after bytes none of which ends the literal. -/
def Mode.run : Mode → Bytes → Option Mode
  | m, [] => some m
  | m, b :: rest =>
    match m.next b with
    | some (some m') => m'.run rest
    | _ => none

theorem scan_of_run {m m' : Mode} {bytes rest : Bytes} (h : m.run bytes = some m') :
    scan m (bytes ++ rest) = (scan m' rest).map fun r => (bytes ++ r.1, r.2) := by
  induction bytes generalizing m with
  | nil =>
    simp only [Mode.run, Option.some.injEq] at h
    simp [h]
  | cons b bytes ih =>
    rw [List.cons_append, scan]
    rw [Mode.run] at h
    split at h
    · rename_i next hnext
      simp only [hnext, ih h, Option.map_map]
      rfl
    · simp at h

/-- A byte that stands for itself inside a literal. -/
def Plain (b : UInt8) : Prop := b ≠ 0x22 ∧ b ≠ 0x5c ∧ 0x20 ≤ b.toNat

theorem run_body_of_plain {bytes : Bytes} (h : ∀ b ∈ bytes, Plain b) :
    Mode.body.run bytes = some .body := by
  induction bytes with
  | nil => rfl
  | cons b bytes ih =>
    obtain ⟨hquote, hslash, hlow⟩ := h b List.mem_cons_self
    have hnext : Mode.body.next b = some (some .body) := by
      simp [Mode.next, hquote, hslash, Nat.not_lt.mpr hlow]
    rw [Mode.run, hnext]
    exact ih fun b' hb' => h b' (List.mem_cons_of_mem _ hb')

theorem plain_of_high {b : UInt8} (h : 0x80 ≤ b.toNat) : Plain b := by
  refine ⟨?_, ?_, by omega⟩ <;>
  · rintro rfl
    simp at h

/-- The UTF-8 encoding of a character above ASCII has only bytes above ASCII. -/
theorem utf8EncodeChar_high {c : Char} (h : 0x80 ≤ c.toNat) :
    ∀ b ∈ String.utf8EncodeChar c, 0x80 ≤ b.toNat := by
  intro b hb
  have hlow : ¬ c.val.toNat ≤ 127 := by
    have : c.val.toNat = c.toNat := rfl
    omega
  simp only [String.utf8EncodeChar, hlow, if_false] at hb
  split at hb
  · simp only [List.mem_cons, List.not_mem_nil, or_false] at hb
    rcases hb with rfl | rfl <;> simp only [UInt8.toNat_ofNat'] <;> omega
  · split at hb
    · simp only [List.mem_cons, List.not_mem_nil, or_false] at hb
      rcases hb with rfl | rfl | rfl <;> simp only [UInt8.toNat_ofNat'] <;> omega
    · simp only [List.mem_cons, List.not_mem_nil, or_false] at hb
      rcases hb with rfl | rfl | rfl | rfl <;> simp only [UInt8.toNat_ofNat'] <;> omega

theorem utf8EncodeChar_ascii {c : Char} (h : c.toNat < 0x80) :
    String.utf8EncodeChar c = [UInt8.ofNat c.toNat] := by
  have hlow : c.val.toNat ≤ 127 := by
    have : c.val.toNat = c.toNat := rfl
    omega
  simp only [String.utf8EncodeChar, hlow, if_true]
  rfl

theorem plain_ascii {c : Char} (hquote : c ≠ '"') (hslash : c ≠ '\\') (hlow : 0x20 ≤ c.toNat)
    (h : c.toNat < 0x80) : Plain (UInt8.ofNat c.toNat) := by
  have hnat : (UInt8.ofNat c.toNat).toNat = c.toNat := by
    rw [UInt8.toNat_ofNat']
    omega
  refine ⟨?_, ?_, by omega⟩
  · intro hb
    rw [hb] at hnat
    exact hquote (Char.toNat_inj.mp hnat.symm)
  · intro hb
    rw [hb] at hnat
    exact hslash (Char.toNat_inj.mp hnat.symm)

/-- Every escaped character brings the scanner back where it was. -/
theorem run_escapeChar (c : Char) : Mode.body.run (escapeChar c) = some .body := by
  unfold escapeChar
  split
  · rfl
  split
  · rfl
  split
  · rfl
  split
  · rfl
  split
  · rfl
  split
  · rfl
  split
  · rfl
  split
  · rename_i hsmall
    have hnat : c.toNat < 0x80 := by
      rcases hsmall with h | rfl | rfl | rfl
      · omega
      all_goals decide
    have hhigh := hexValue_hexDigit (n := c.toNat / 16) (by omega)
    have hlow := hexValue_hexDigit (n := c.toNat % 16) (by omega)
    have hzero : hexValue 0x30 = some 0 := rfl
    simp [Mode.run, Mode.next, hzero, hhigh, hlow]
  split
  · rfl
  split
  · rfl
  · by_cases h : c.toNat < 0x80
    · rw [utf8EncodeChar_ascii h]
      apply run_body_of_plain
      intro b hb
      rw [List.mem_singleton] at hb
      subst hb
      apply plain_ascii <;> first | assumption | omega
    · exact run_body_of_plain fun b hb =>
        plain_of_high (utf8EncodeChar_high (by omega) b hb)

theorem Mode.run_append {m m' : Mode} {x y : Bytes} (hx : m.run x = some m') :
    m.run (x ++ y) = m'.run y := by
  induction x generalizing m with
  | nil =>
    simp only [Mode.run, Option.some.injEq] at hx
    simp [hx]
  | cons b x ih =>
    rw [Mode.run] at hx
    rw [List.cons_append, Mode.run]
    split at hx
    · rename_i next hnext
      exact ih hx
    · simp at hx

theorem run_escape (s : List Char) : Mode.body.run (escape s) = some .body := by
  induction s with
  | nil => rfl
  | cons c s ih =>
    show Mode.body.run (escapeChar c ++ escape s) = _
    rw [Mode.run_append (run_escapeChar c), ih]

/-- A written literal is scanned to its end. -/
theorem scan_escape (s : List Char) (rest : Bytes) :
    scan .body (escape s ++ 0x22 :: rest) = some (escape s, rest) := by
  rw [scan_of_run (run_escape s)]
  simp [scan, Mode.next]

/-! ## Reading -/

/-- The replacement character U+FFFD. -/
def runeError : Char := Char.ofNat 0xfffd

/-- The first character of a byte string and its width, as `utf8.DecodeRune`. -/
def decodeRune (bytes : Bytes) : Char × Nat :=
  match bytes.toByteArray.utf8DecodeChar? 0 with
  | some c => (c, c.utf8Size)
  | none => (runeError, 1)

/-- The character a one-letter escape stands for. -/
def unescape (e : UInt8) : Char :=
  if e = 0x62 then Char.ofNat 8
  else if e = 0x66 then Char.ofNat 12
  else if e = 0x6e then '\n'
  else if e = 0x72 then '\r'
  else if e = 0x74 then '\t'
  else Char.ofNat e.toNat

/-- The second half of a surrogate pair that starts with `high`. -/
def lowSurrogate (high : Nat) : Bytes → Option (Char × Bytes)
  | 0x5c :: 0x75 :: rest => do
    let (low, rest') ← hex4 rest
    if 0xd800 ≤ high ∧ high < 0xdc00 ∧ 0xdc00 ≤ low ∧ low < 0xe000 then
      some (Char.ofNat (0x10000 + (high - 0xd800) * 0x400 + (low - 0xdc00)), rest')
    else none
  | _ => none

/-- The characters of a scanned body; `fuel` bounds their number. -/
def unquoteFuel : Nat → Bytes → List Char
  | 0, _ => []
  | _ + 1, [] => []
  | fuel + 1, b :: rest =>
    if b = 0x5c then
      match rest with
      | [] => []
      | e :: digits =>
        if e = 0x75 then
          match hex4 digits with
          | none => []
          | some (unit, after) =>
            if 0xd800 ≤ unit ∧ unit < 0xe000 then
              match lowSurrogate unit after with
              | some (c, rest') => c :: unquoteFuel fuel rest'
              | none => runeError :: unquoteFuel fuel after
            else Char.ofNat unit :: unquoteFuel fuel after
        else unescape e :: unquoteFuel fuel digits
    else
      let rune := decodeRune (b :: rest)
      rune.1 :: unquoteFuel fuel ((b :: rest).drop rune.2)

/-- The string a scanned body stands for. -/
def unquote (raw : Bytes) : String := String.ofList (unquoteFuel raw.length raw)

theorem decodeRune_utf8EncodeChar (c : Char) (rest : Bytes) :
    decodeRune (String.utf8EncodeChar c ++ rest) = (c, c.utf8Size) := by
  unfold decodeRune
  rw [List.toByteArray_append, ByteArray.utf8DecodeChar?_utf8EncodeChar_append]

theorem unquoteFuel_utf8EncodeChar {c : Char} (hslash : c ≠ '\\') (fuel : Nat) (rest : Bytes) :
    unquoteFuel (fuel + 1) (String.utf8EncodeChar c ++ rest) = c :: unquoteFuel fuel rest := by
  obtain ⟨b, tail, hbytes⟩ : ∃ b tail, String.utf8EncodeChar c = b :: tail :=
    List.exists_cons_of_ne_nil String.utf8EncodeChar_ne_nil
  have hb : b ≠ 0x5c := by
    by_cases hascii : c.toNat < 0x80
    · rw [utf8EncodeChar_ascii hascii] at hbytes
      rintro rfl
      have hnat : (UInt8.ofNat c.toNat).toNat = 0x5c :=
        congrArg UInt8.toNat (List.cons.inj hbytes).1
      rw [UInt8.toNat_ofNat', Nat.mod_eq_of_lt (by omega)] at hnat
      exact hslash (Char.toNat_inj.mp hnat)
    · rintro rfl
      have hhigh := utf8EncodeChar_high (by omega) 0x5c (hbytes ▸ List.mem_cons_self)
      simp at hhigh
  have hrune : decodeRune (b :: (tail ++ rest)) = (c, c.utf8Size) := by
    rw [← List.cons_append, ← hbytes]
    exact decodeRune_utf8EncodeChar c rest
  have hdrop : (b :: (tail ++ rest)).drop c.utf8Size = rest := by
    rw [← List.cons_append, ← hbytes, ← String.length_utf8EncodeChar c, List.drop_left]
  rw [hbytes, List.cons_append]
  simp only [unquoteFuel, if_neg hb, hrune, hdrop]

theorem unquoteFuel_escapeChar (c : Char) (fuel : Nat) (rest : Bytes) :
    unquoteFuel (fuel + 1) (escapeChar c ++ rest) = c :: unquoteFuel fuel rest := by
  unfold escapeChar
  split
  · subst c; rfl
  split
  · subst c; rfl
  split
  · rename_i h
    rw [← Char.ofNat_toNat c, h]; rfl
  split
  · rename_i h
    rw [← Char.ofNat_toNat c, h]; rfl
  split
  · rename_i h
    rw [← Char.ofNat_toNat c, h]; rfl
  split
  · rename_i h
    rw [← Char.ofNat_toNat c, h]; rfl
  split
  · rename_i h
    rw [← Char.ofNat_toNat c, h]; rfl
  split
  · rename_i hsmall
    have hnat : c.toNat < 0x80 := by
      rcases hsmall with h | rfl | rfl | rfl
      · omega
      all_goals decide
    have hhigh := hexValue_hexDigit (n := c.toNat / 16) (by omega)
    have hlow := hexValue_hexDigit (n := c.toNat % 16) (by omega)
    have hzero : hexValue 0x30 = some 0 := rfl
    have hunit : c.toNat / 16 * 16 + c.toNat % 16 = c.toNat := by omega
    have hrange : ¬ (0xd800 ≤ c.toNat) := by omega
    simp [unquoteFuel, hex4, hzero, hhigh, hlow, hunit, hrange, Char.ofNat_toNat]
  split
  · rename_i h
    rw [← Char.ofNat_toNat c, h]; rfl
  split
  · rename_i h
    rw [← Char.ofNat_toNat c, h]; rfl
  · exact unquoteFuel_utf8EncodeChar ‹_› fuel rest

theorem escapeChar_ne_nil (c : Char) : escapeChar c ≠ [] := by
  intro h
  have hread := unquoteFuel_escapeChar c 0 []
  rw [h] at hread
  simp [unquoteFuel] at hread

theorem length_le_length_escape (s : List Char) : s.length ≤ (escape s).length := by
  induction s with
  | nil => exact Nat.le_refl _
  | cons c s ih =>
    have hpos : 0 < (escapeChar c).length := List.length_pos_iff.mpr (escapeChar_ne_nil c)
    simp only [escape, List.flatMap_cons, List.length_append, List.length_cons] at ih ⊢
    omega

theorem length_escapeChar_le (c : Char) : (escapeChar c).length ≤ 6 := by
  unfold escapeChar
  split_ifs
  on_goal 11 =>
    have hsize := c.utf8Size_le_four
    rw [String.length_utf8EncodeChar]
    omega
  all_goals simp

/-- A byte of a string takes at most six bytes in its literal. -/
theorem length_quote_le (s : String) : (quote s).length ≤ 2 + 6 * s.utf8ByteSize := by
  have hescape : ∀ cs : List Char, (escape cs).length ≤ 6 * String.utf8Len cs := by
    intro cs
    induction cs with
    | nil => exact Nat.zero_le _
    | cons c cs ih =>
      have hc := length_escapeChar_le c
      have hpos := c.utf8Size_pos
      simp only [escape, List.flatMap_cons, List.length_append, String.utf8Len_cons] at ih ⊢
      omega
  have h := hescape s.toList
  rw [← String.utf8ByteSize_ofList, String.ofList_toList] at h
  simp only [quote, List.length_cons, List.length_append, List.length_nil]
  omega

theorem unquoteFuel_escape (s : List Char) {fuel : Nat} (h : s.length ≤ fuel) :
    unquoteFuel fuel (escape s) = s := by
  induction s generalizing fuel with
  | nil => cases fuel <;> rfl
  | cons c s ih =>
    rw [List.length_cons] at h
    obtain ⟨fuel, rfl⟩ : ∃ k, fuel = k + 1 := ⟨fuel - 1, by omega⟩
    show unquoteFuel (fuel + 1) (escapeChar c ++ escape s) = _
    rw [unquoteFuel_escapeChar, ih (by omega)]

/-- **Reading back a written string gives the string.** -/
theorem unquote_escape (s : String) : unquote (escape s.toList) = s := by
  rw [unquote, unquoteFuel_escape _ (length_le_length_escape _), String.ofList_toList]

end TosAi.Foundation.Json
