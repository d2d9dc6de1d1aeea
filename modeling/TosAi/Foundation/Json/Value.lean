/-
  JSON values, how they are written and how they are read.

  `Value.print` writes a value the way a Go encoder does: no white space, members
  in the order given.  `parse` reads any text of the grammar, white space
  included.  Both follow one recursion: the first element of an array or object,
  then a tail of elements each after its comma.

  Two facts carry everything built on top.  READING BACK (`parse_print`): a
  printed value is read as that value.  TRUNCATION (`parse_truncated`): what is
  left of a printed object after some of its end is lost is not a JSON text.
-/
import Mathlib.Data.Nat.Digits.Lemmas
import TosAi.Foundation.Json.Text

set_option autoImplicit false

namespace TosAi.Foundation.Json

/-! ## Numbers -/

/-- Where a scan stands inside a number. -/
inductive NumMode where
  | start | minus | zero | integer | point | fraction | exponent | sign | power
  deriving DecidableEq, Repr

/-- The decimal digits. -/
def isDigit (b : UInt8) : Bool := 0x30 ≤ b && b ≤ 0x39

/-- The mode after one more byte, if the number goes on. -/
def NumMode.next : NumMode → UInt8 → Option NumMode
  | .start, b =>
    if b = 0x2d then some .minus
    else if b = 0x30 then some .zero
    else if isDigit b then some .integer else none
  | .minus, b =>
    if b = 0x30 then some .zero else if isDigit b then some .integer else none
  | .zero, b =>
    if b = 0x2e then some .point
    else if b = 0x65 ∨ b = 0x45 then some .exponent else none
  | .integer, b =>
    if isDigit b then some .integer
    else if b = 0x2e then some .point
    else if b = 0x65 ∨ b = 0x45 then some .exponent else none
  | .point, b => if isDigit b then some .fraction else none
  | .fraction, b =>
    if isDigit b then some .fraction
    else if b = 0x65 ∨ b = 0x45 then some .exponent else none
  | .exponent, b =>
    if b = 0x2b ∨ b = 0x2d then some .sign else if isDigit b then some .power else none
  | .sign, b => if isDigit b then some .power else none
  | .power, b => if isDigit b then some .power else none

/-- A number may end here. -/
def NumMode.complete : NumMode → Bool
  | .zero | .integer | .fraction | .power => true
  | _ => false

/-- The longest number from here on, and what follows it. -/
def scanNum : NumMode → Bytes → Option (Bytes × Bytes)
  | m, [] => if m.complete then some ([], []) else none
  | m, b :: rest =>
    match m.next b with
    | some m' => (scanNum m' rest).map fun r => (b :: r.1, r.2)
    | none => if m.complete then some ([], b :: rest) else none

/-- A number that ended before the end of the input is not changed by more input. -/
theorem scanNum_append {m : NumMode} {input literal rest : Bytes} (more : Bytes)
    (h : scanNum m input = some (literal, rest)) (hrest : rest ≠ []) :
    scanNum m (input ++ more) = some (literal, rest ++ more) := by
  induction input generalizing m literal rest with
  | nil =>
    rw [scanNum] at h
    split at h
    · simp only [Option.some.injEq, Prod.mk.injEq] at h
      exact absurd h.2.symm hrest
    · simp at h
  | cons b input ih =>
    rw [scanNum] at h
    rw [List.cons_append, scanNum]
    cases hnext : m.next b with
    | none =>
      simp only [hnext] at h ⊢
      split at h
      · rename_i hcomplete
        simp only [Option.some.injEq, Prod.mk.injEq] at h
        obtain ⟨rfl, rfl⟩ := h
        simp [hcomplete]
      · simp at h
    | some m' =>
      simp only [hnext, Option.map_eq_some_iff, Prod.exists, Prod.mk.injEq] at h ⊢
      obtain ⟨literal', rest', hscan, hliteral, rfl⟩ := h
      exact ⟨literal', rest' ++ more, ih hscan hrest, hliteral, rfl⟩

/-- The decimal text of a natural number. -/
def decimal (n : Nat) : Bytes :=
  if n = 0 then [0x30] else (Nat.digits 10 n).reverse.map fun d => UInt8.ofNat (0x30 + d)

/-- The natural number a text of digits stands for. -/
def readDecimal (literal : Bytes) : Option Nat :=
  if literal ≠ [] ∧ literal.all isDigit then
    some (literal.foldl (fun n b => n * 10 + (b.toNat - 0x30)) 0)
  else none

theorem toNat_digit {d : Nat} (hd : d < 10) : (UInt8.ofNat (0x30 + d)).toNat = 0x30 + d := by
  rw [UInt8.toNat_ofNat']
  omega

theorem isDigit_digit {d : Nat} (hd : d < 10) : isDigit (UInt8.ofNat (0x30 + d)) = true := by
  simp only [isDigit, Bool.and_eq_true, decide_eq_true_eq, UInt8.le_iff_toNat_le, toNat_digit hd]
  refine ⟨?_, ?_⟩
  · show 0x30 ≤ _
    omega
  · show _ ≤ 0x39
    omega

theorem isDigit_decimal (n : Nat) : ∀ b ∈ decimal n, isDigit b = true := by
  intro b hb
  unfold decimal at hb
  split at hb
  · rw [List.mem_singleton] at hb
    subst hb
    rfl
  · simp only [List.mem_map, List.mem_reverse] at hb
    obtain ⟨d, hd, rfl⟩ := hb
    exact isDigit_digit (Nat.digits_lt_base (by decide) hd)

theorem decimal_ne_nil (n : Nat) : decimal n ≠ [] := by
  unfold decimal
  split
  · simp
  · simpa [Nat.digits_ne_nil_iff_ne_zero] using ‹_›

/-- A decimal text starts with `0` only if it is `0`. -/
theorem decimal_head {n : Nat} (hn : n ≠ 0) :
    ∃ b rest, decimal n = b :: rest ∧ b ≠ 0x30 := by
  have hdigits : Nat.digits 10 n ≠ [] := Nat.digits_ne_nil_iff_ne_zero.mpr hn
  refine ⟨UInt8.ofNat (0x30 + (Nat.digits 10 n).getLast hdigits),
    ((Nat.digits 10 n).reverse.tail).map fun d => UInt8.ofNat (0x30 + d), ?_, ?_⟩
  · rw [decimal, if_neg hn]
    have hcons : (Nat.digits 10 n).reverse =
        (Nat.digits 10 n).getLast hdigits :: (Nat.digits 10 n).reverse.tail := by
      rw [← List.head_reverse (by simpa using hdigits), List.cons_head_tail]
    conv_lhs => rw [hcons]
    rfl
  · intro hb
    have hlast := Nat.getLast_digit_ne_zero 10 hn
    have hlt : (Nat.digits 10 n).getLast hdigits < 10 :=
      Nat.digits_lt_base (by decide) (List.getLast_mem hdigits)
    have hnat := congrArg UInt8.toNat hb
    rw [toNat_digit hlt] at hnat
    have : (0x30 : UInt8).toNat = 0x30 := rfl
    omega

theorem readDecimal_decimal (n : Nat) : readDecimal (decimal n) = some n := by
  have hall : (decimal n).all isDigit = true := List.all_eq_true.mpr (isDigit_decimal n)
  rw [readDecimal, if_pos ⟨decimal_ne_nil n, hall⟩]
  congr 1
  unfold decimal
  split
  · subst n
    rfl
  · rw [List.foldl_map, List.foldl_reverse]
    have key : ∀ l : List Nat, (∀ d ∈ l, d < 10) →
        l.foldr (fun d n => n * 10 + ((UInt8.ofNat (0x30 + d)).toNat - 0x30)) 0 =
          Nat.ofDigits 10 l := by
      intro l hl
      induction l with
      | nil => rfl
      | cons d l ih =>
        rw [List.foldr_cons, ih fun d' hd' => hl d' (List.mem_cons_of_mem _ hd'),
          toNat_digit (hl d List.mem_cons_self), Nat.ofDigits_cons]
        have : ((d : Nat) : Nat) = d := rfl
        omega
    rw [key _ fun d hd => Nat.digits_lt_base (by decide) hd, Nat.ofDigits_digits]

/-- What may follow a value inside a printed text. -/
def Delimited (rest : Bytes) : Prop :=
  rest = [] ∨ ∃ b tail, rest = b :: tail ∧ (b = 0x2c ∨ b = 0x7d ∨ b = 0x5d ∨ b = 0x0a)

theorem scanNum_digits {digits rest : Bytes} (hdigits : ∀ b ∈ digits, isDigit b = true)
    (hrest : Delimited rest) : scanNum .integer (digits ++ rest) = some (digits, rest) := by
  induction digits with
  | nil =>
    rcases hrest with rfl | ⟨b, tail, rfl, rfl | rfl | rfl | rfl⟩ <;> rfl
  | cons b digits ih =>
    rw [List.cons_append, scanNum]
    have hnext : NumMode.integer.next b = some .integer := by
      simp [NumMode.next, hdigits b List.mem_cons_self]
    simp [hnext, ih fun b' hb' => hdigits b' (List.mem_cons_of_mem _ hb')]

theorem scanNum_decimal (n : Nat) {rest : Bytes} (hrest : Delimited rest) :
    scanNum .start (decimal n ++ rest) = some (decimal n, rest) := by
  by_cases hn : n = 0
  · subst hn
    rcases hrest with rfl | ⟨b, tail, rfl, rfl | rfl | rfl | rfl⟩ <;> rfl
  · obtain ⟨b, digits, hdecimal, hzero⟩ := decimal_head hn
    have hdigit := isDigit_decimal n
    rw [hdecimal] at hdigit ⊢
    rw [List.cons_append, scanNum]
    have hb := hdigit b List.mem_cons_self
    have hminus : b ≠ 0x2d := by
      rintro rfl
      exact absurd hb (by decide)
    have hnext : NumMode.start.next b = some .integer := by
      simp [NumMode.next, hminus, hzero, hb]
    simp [hnext, scanNum_digits (fun b' hb' => hdigit b' (List.mem_cons_of_mem _ hb')) hrest]

/-! ### Integers -/

/-- The decimal text of an integer. -/
def integer (z : Int) : Bytes :=
  if z < 0 then 0x2d :: decimal z.natAbs else decimal z.natAbs

/-- The integer a text of digits stands for, with or without a minus before it. -/
def readInteger : Bytes → Option Int
  | 0x2d :: digits => (readDecimal digits).map fun n : Nat => -(n : Int)
  | literal => (readDecimal literal).map fun n : Nat => (n : Int)

@[simp] theorem integer_natCast (n : Nat) : integer (n : Int) = decimal n := by
  rw [integer, if_neg (Int.not_lt.mpr (Int.natCast_nonneg n)), Int.natAbs_natCast]

theorem integer_head (z : Int) :
    ∃ b tail, integer z = b :: tail ∧ (b = 0x2d ∨ isDigit b = true) := by
  unfold integer
  split
  · exact ⟨_, _, rfl, .inl rfl⟩
  · obtain ⟨b, tail, hdecimal⟩ := List.exists_cons_of_ne_nil (decimal_ne_nil z.natAbs)
    exact ⟨b, tail, hdecimal, .inr (isDigit_decimal z.natAbs b (by simp [hdecimal]))⟩

theorem readInteger_integer (z : Int) : readInteger (integer z) = some z := by
  unfold integer
  split
  · rename_i hneg
    rw [readInteger, readDecimal_decimal, Option.map_some]
    congr 1
    omega
  · rename_i hpos
    obtain ⟨b, tail, hdecimal⟩ := List.exists_cons_of_ne_nil (decimal_ne_nil z.natAbs)
    have hdigit := isDigit_decimal z.natAbs b (by simp [hdecimal])
    have hread := readDecimal_decimal z.natAbs
    rw [hdecimal] at hread ⊢
    have hne : b ≠ 0x2d := by
      rintro rfl
      exact absurd hdigit (by decide)
    unfold readInteger
    split
    · rename_i hcons
      exact absurd (List.cons.inj hcons).1 hne
    · rw [hread, Option.map_some]
      congr 1
      omega

theorem length_decimal_le {n k : Nat} (hk : 0 < k) (h : n < 10 ^ k) : (decimal n).length ≤ k := by
  unfold decimal
  split
  · exact hk
  · rw [List.length_map, List.length_reverse]
    exact (Nat.digits_length_le_iff (by decide) n).mpr h

theorem length_integer_le {z : Int} {k : Nat} (hk : 0 < k) (h : z.natAbs < 10 ^ k) :
    (integer z).length ≤ k + 1 := by
  have hdecimal := length_decimal_le hk h
  unfold integer
  split
  · exact Nat.succ_le_succ hdecimal
  · omega

/-- After a minus a number goes on as at its start. -/
theorem scanNum_minus {literal : Bytes} (hliteral : ∃ b tail, literal = b :: tail ∧
    isDigit b = true) (rest : Bytes) :
    scanNum .minus (literal ++ rest) = scanNum .start (literal ++ rest) := by
  obtain ⟨b, tail, rfl, hdigit⟩ := hliteral
  have hne : b ≠ 0x2d := by
    rintro rfl
    exact absurd hdigit (by decide)
  rw [List.cons_append, scanNum, scanNum]
  have hnext : NumMode.next .minus b = NumMode.next .start b := by
    simp [NumMode.next, hne]
  rw [hnext]
  rfl

theorem scanNum_integer (z : Int) {rest : Bytes} (hrest : Delimited rest) :
    scanNum .start (integer z ++ rest) = some (integer z, rest) := by
  unfold integer
  split
  · obtain ⟨b, tail, hdecimal⟩ := List.exists_cons_of_ne_nil (decimal_ne_nil z.natAbs)
    have hminus := scanNum_minus ⟨b, tail, hdecimal,
      isDigit_decimal z.natAbs b (by simp [hdecimal])⟩ rest
    rw [scanNum_decimal _ hrest] at hminus
    rw [List.cons_append, scanNum]
    have hnext : NumMode.next .start 0x2d = some .minus := rfl
    simp [hnext, hminus]
  · exact scanNum_decimal _ hrest

/-! ## Values and how they are written -/

/-- A JSON value.  A number is kept as its literal. -/
inductive Value where
  | null
  | bool (b : Bool)
  | num (literal : Bytes)
  | str (s : String)
  | arr (items : List Value)
  | obj (members : List (String × Value))

namespace Value

mutual

/-- The text of a value. -/
def print : Value → Bytes
  | .null => [0x6e, 0x75, 0x6c, 0x6c]
  | .bool true => [0x74, 0x72, 0x75, 0x65]
  | .bool false => [0x66, 0x61, 0x6c, 0x73, 0x65]
  | .num literal => literal
  | .str s => quote s
  | .arr [] => [0x5b, 0x5d]
  | .arr (v :: vs) => 0x5b :: (v.print ++ printItems vs)
  | .obj [] => [0x7b, 0x7d]
  | .obj ((k, v) :: ms) => 0x7b :: (quote k ++ 0x3a :: (v.print ++ printMembers ms))

/-- The rest of an array after one of its items. -/
def printItems : List Value → Bytes
  | [] => [0x5d]
  | v :: vs => 0x2c :: (v.print ++ printItems vs)

/-- The rest of an object after one of its members. -/
def printMembers : List (String × Value) → Bytes
  | [] => [0x7d]
  | (k, v) :: ms => 0x2c :: (quote k ++ 0x3a :: (v.print ++ printMembers ms))

end

mutual

/-- Every number of the value is an integer in decimal. -/
def Writable : Value → Prop
  | .num literal => ∃ z, literal = integer z
  | .arr items => WritableItems items
  | .obj members => WritableMembers members
  | _ => True

/-- `Writable` for the items of an array. -/
def WritableItems : List Value → Prop
  | [] => True
  | v :: vs => v.Writable ∧ WritableItems vs

/-- `Writable` for the members of an object. -/
def WritableMembers : List (String × Value) → Prop
  | [] => True
  | (_, v) :: ms => v.Writable ∧ WritableMembers ms

end

end Value

/-! ### How long a text is -/

namespace Value

mutual

/-- A bound for the length of the text of a value. -/
def size : Value → Nat
  | .null => 4
  | .bool _ => 5
  | .num literal => literal.length
  | .str s => 2 + 6 * s.utf8ByteSize
  | .arr items => 2 + sizeItems items
  | .obj members => 2 + sizeMembers members

/-- `size` for the items of an array. -/
def sizeItems : List Value → Nat
  | [] => 0
  | v :: vs => 1 + v.size + sizeItems vs

/-- `size` for the members of an object. -/
def sizeMembers : List (String × Value) → Nat
  | [] => 0
  | (k, v) :: ms => 4 + 6 * k.utf8ByteSize + v.size + sizeMembers ms

end

mutual

theorem length_print_le : (v : Value) → v.print.length ≤ v.size
  | .null => Nat.le_refl _
  | .bool true => by simp [print, size]
  | .bool false => by simp [print, size]
  | .num literal => Nat.le_refl _
  | .str s => length_quote_le s
  | .arr [] => Nat.le_refl _
  | .arr (v :: vs) => by
    have hv := length_print_le v
    have hvs := length_printItems_le vs
    simp only [print, size, sizeItems, List.length_cons, List.length_append]
    omega
  | .obj [] => Nat.le_refl _
  | .obj ((k, v) :: ms) => by
    have hk := length_quote_le k
    have hv := length_print_le v
    have hms := length_printMembers_le ms
    simp only [print, size, sizeMembers, List.length_cons, List.length_append]
    omega

theorem length_printItems_le : (vs : List Value) → (printItems vs).length ≤ 1 + sizeItems vs
  | [] => Nat.le_refl _
  | v :: vs => by
    have hv := length_print_le v
    have hvs := length_printItems_le vs
    simp only [printItems, sizeItems, List.length_cons, List.length_append]
    omega

theorem length_printMembers_le :
    (ms : List (String × Value)) → (printMembers ms).length ≤ 1 + sizeMembers ms
  | [] => Nat.le_refl _
  | (k, v) :: ms => by
    have hk := length_quote_le k
    have hv := length_print_le v
    have hms := length_printMembers_le ms
    simp only [printMembers, sizeMembers, List.length_cons, List.length_append]
    omega

end

end Value

/-! ## Reading -/

/-- The white space of the grammar. -/
def isSpace (b : UInt8) : Bool := b == 0x20 || b == 0x09 || b == 0x0a || b == 0x0d

/-- The first byte that is not white space, and what follows it. -/
def token : Bytes → Option (UInt8 × Bytes)
  | [] => none
  | b :: rest => if isSpace b then token rest else some (b, rest)

/-- The input after the given word. -/
def expect : Bytes → Bytes → Option Bytes
  | [], input => some input
  | _ :: _, [] => none
  | w :: word, b :: input => if w = b then expect word input else none

/-- A value that is neither an array nor an object, `b` being its first byte. -/
def parseScalar (b : UInt8) (rest : Bytes) : Option (Value × Bytes) :=
  if b = 0x22 then (scan .body rest).map fun r => (.str (unquote r.1), r.2)
  else if b = 0x6e then (expect [0x75, 0x6c, 0x6c] rest).map fun r => (.null, r)
  else if b = 0x74 then (expect [0x72, 0x75, 0x65] rest).map fun r => (.bool true, r)
  else if b = 0x66 then (expect [0x61, 0x6c, 0x73, 0x65] rest).map fun r => (.bool false, r)
  else (scanNum .start (b :: rest)).map fun r => (.num r.1, r.2)

/-- The key of a member, up to its colon. -/
def parseKey (input : Bytes) : Option (String × Bytes) := do
  let (b, rest) ← token input
  if b = 0x22 then
    let (raw, after) ← scan .body rest
    let (c, rest') ← token after
    if c = 0x3a then some (unquote raw, rest') else none
  else none

mutual

/-- One value; `fuel` bounds the recursion. -/
def parseValue : Nat → Bytes → Option (Value × Bytes)
  | 0, _ => none
  | fuel + 1, input => do
    let (b, rest) ← token input
    if b = 0x5b then
      let (c, after) ← token rest
      if c = 0x5d then some (.arr [], after)
      else
        let (v, rest₁) ← parseValue fuel rest
        let (vs, rest₂) ← parseItems fuel rest₁
        some (.arr (v :: vs), rest₂)
    else if b = 0x7b then
      let (c, after) ← token rest
      if c = 0x7d then some (.obj [], after)
      else
        let (k, rest₁) ← parseKey rest
        let (v, rest₂) ← parseValue fuel rest₁
        let (ms, rest₃) ← parseMembers fuel rest₂
        some (.obj ((k, v) :: ms), rest₃)
    else parseScalar b rest

/-- The rest of an array after one of its items. -/
def parseItems : Nat → Bytes → Option (List Value × Bytes)
  | 0, _ => none
  | fuel + 1, input => do
    let (b, rest) ← token input
    if b = 0x5d then some ([], rest)
    else if b = 0x2c then
      let (v, rest₁) ← parseValue fuel rest
      let (vs, rest₂) ← parseItems fuel rest₁
      some (v :: vs, rest₂)
    else none

/-- The rest of an object after one of its members. -/
def parseMembers : Nat → Bytes → Option (List (String × Value) × Bytes)
  | 0, _ => none
  | fuel + 1, input => do
    let (b, rest) ← token input
    if b = 0x7d then some ([], rest)
    else if b = 0x2c then
      let (k, rest₁) ← parseKey rest
      let (v, rest₂) ← parseValue fuel rest₁
      let (ms, rest₃) ← parseMembers fuel rest₂
      some ((k, v) :: ms, rest₃)
    else none

end

/-- One value and nothing after it but white space. -/
def parse (input : Bytes) : Option Value := do
  let (v, rest) ← parseValue (input.length + 1) input
  if (token rest).isNone then some v else none

/-! ## Reading back -/

theorem token_cons {b : UInt8} (hb : isSpace b = false) (rest : Bytes) :
    token (b :: rest) = some (b, rest) := by
  simp [token, hb]

theorem parseKey_quote (k : String) (rest : Bytes) :
    parseKey (quote k ++ 0x3a :: rest) = some (k, rest) := by
  have hscan := scan_escape k.toList (0x3a :: rest)
  simp [parseKey, quote, token, isSpace, hscan, unquote_escape]

theorem parseScalar_quote (s : String) (rest : Bytes) :
    parseScalar 0x22 (escape s.toList ++ 0x22 :: rest) = some (.str s, rest) := by
  simp [parseScalar, scan_escape, unquote_escape]

/-- A written value starts with a byte that is neither white space nor a closing
bracket. -/
theorem print_head {v : Value} (hv : v.Writable) :
    ∃ b tail, v.print = b :: tail ∧ isSpace b = false ∧ b ≠ 0x5d ∧ b ≠ 0x7d := by
  match v with
  | .null => exact ⟨_, _, rfl, by decide⟩
  | .bool true => exact ⟨_, _, rfl, by decide⟩
  | .bool false => exact ⟨_, _, rfl, by decide⟩
  | .str s => exact ⟨_, _, rfl, by decide⟩
  | .arr [] => exact ⟨_, _, rfl, by decide⟩
  | .arr (_ :: _) => exact ⟨_, _, rfl, by decide⟩
  | .obj [] => exact ⟨_, _, rfl, by decide⟩
  | .obj (_ :: _) => exact ⟨_, _, rfl, by decide⟩
  | .num literal =>
    obtain ⟨z, rfl⟩ := hv
    obtain ⟨b, tail, hinteger, hhead⟩ := integer_head z
    refine ⟨b, tail, hinteger, ?_, ?_, ?_⟩
    · simp only [isSpace, Bool.or_eq_false_iff, beq_eq_false_iff_ne]
      refine ⟨⟨⟨?_, ?_⟩, ?_⟩, ?_⟩ <;>
      · rintro rfl
        exact absurd hhead (by decide)
    all_goals
      rintro rfl
      exact absurd hhead (by decide)

theorem delimited_printItems (vs : List Value) (rest : Bytes) :
    Delimited (Value.printItems vs ++ rest) := by
  cases vs with
  | nil | cons v vs => exact .inr ⟨_, _, rfl, by decide⟩

theorem delimited_printMembers (ms : List (String × Value)) (rest : Bytes) :
    Delimited (Value.printMembers ms ++ rest) := by
  match ms with
  | [] => exact .inr ⟨_, _, rfl, by decide⟩
  | (_, _) :: _ => exact .inr ⟨_, _, rfl, by decide⟩

/-- A number is read by the last branch of `parseScalar`. -/
theorem parseValue_integer (z : Int) (fuel : Nat) {rest : Bytes} (hrest : Delimited rest) :
    parseValue (fuel + 1) (integer z ++ rest) = some (.num (integer z), rest) := by
  obtain ⟨b, tail, hinteger, hhead⟩ := integer_head z
  obtain ⟨b', tail', hprint, hspace, -, -⟩ := print_head (v := .num (integer z)) ⟨z, rfl⟩
  rw [Value.print, hinteger] at hprint
  obtain ⟨rfl, rfl⟩ := List.cons.inj hprint
  have hscan := scanNum_integer z hrest
  have hne : ∀ c : UInt8, (c = 0x2d ∨ isDigit c = true) = False → b ≠ c := by
    rintro c hc rfl
    rw [hc] at hhead
    exact hhead
  rw [hinteger, List.cons_append] at hscan ⊢
  simp only [parseValue, token_cons hspace, Option.bind_eq_bind, Option.bind_some, parseScalar,
    if_neg (hne 0x5b (by decide)), if_neg (hne 0x7b (by decide)), if_neg (hne 0x22 (by decide)),
    if_neg (hne 0x6e (by decide)), if_neg (hne 0x74 (by decide)), if_neg (hne 0x66 (by decide)),
    hscan, Option.map_some]

mutual

theorem parseValue_print : (v : Value) → v.Writable → ∀ (fuel : Nat) (rest : Bytes),
    v.print.length < fuel → Delimited rest →
      parseValue fuel (v.print ++ rest) = some (v, rest)
  | .null, _, fuel + 1, rest, _, _ => by
    simp [Value.print, parseValue, token, isSpace, parseScalar, expect]
  | .bool true, _, fuel + 1, rest, _, _ => by
    simp [Value.print, parseValue, token, isSpace, parseScalar, expect]
  | .bool false, _, fuel + 1, rest, _, _ => by
    simp [Value.print, parseValue, token, isSpace, parseScalar, expect]
  | .num literal, hv, fuel + 1, rest, _, hrest => by
    obtain ⟨z, rfl⟩ := hv
    exact parseValue_integer z fuel hrest
  | .str s, _, fuel + 1, rest, _, _ => by
    have hscalar := parseScalar_quote s rest
    simp [Value.print, quote, parseValue, token, isSpace, hscalar]
  | .arr [], _, fuel + 1, rest, _, _ => by
    simp [Value.print, parseValue, token, isSpace]
  | .arr (v :: vs), hv, fuel + 1, rest, hfuel, _ => by
    simp only [Value.print, List.length_cons, List.length_append] at hfuel
    obtain ⟨b, tail, hprint, hspace, hclose, -⟩ := print_head hv.1
    have hfirst := parseValue_print v hv.1 fuel
      (Value.printItems vs ++ rest) (by omega) (delimited_printItems vs rest)
    have hrest := parseItems_print vs hv.2 fuel rest (by omega)
    have htoken : token (v.print ++ (Value.printItems vs ++ rest)) =
        some (b, tail ++ (Value.printItems vs ++ rest)) := by
      rw [hprint, List.cons_append, token_cons hspace]
    simp [Value.print, parseValue, token_cons (b := 0x5b) rfl, htoken, hclose, hfirst, hrest]
  | .obj [], _, fuel + 1, rest, _, _ => by
    simp [Value.print, parseValue, token, isSpace]
  | .obj ((k, v) :: ms), hv, fuel + 1, rest, hfuel, _ => by
    simp only [Value.print, List.length_cons, List.length_append] at hfuel
    have hkey := parseKey_quote k (v.print ++ (Value.printMembers ms ++ rest))
    have hfirst := parseValue_print v hv.1 fuel
      (Value.printMembers ms ++ rest) (by omega) (delimited_printMembers ms rest)
    have hrest := parseMembers_print ms hv.2 fuel rest (by omega)
    have htoken : token (quote k ++ 0x3a :: (v.print ++ (Value.printMembers ms ++ rest))) =
        some (0x22, escape k.toList ++ [0x22] ++
          0x3a :: (v.print ++ (Value.printMembers ms ++ rest))) := by
      rw [quote, List.cons_append, token_cons rfl]
    simp [Value.print, parseValue, token_cons (b := 0x7b) rfl, htoken, hkey, hfirst, hrest]

theorem parseItems_print : (vs : List Value) → Value.WritableItems vs →
    ∀ (fuel : Nat) (rest : Bytes), (Value.printItems vs).length < fuel →
      parseItems fuel (Value.printItems vs ++ rest) = some (vs, rest)
  | [], _, fuel + 1, rest, _ => by
    simp [Value.printItems, parseItems, token, isSpace]
  | v :: vs, hv, fuel + 1, rest, hfuel => by
    simp only [Value.printItems, List.length_cons, List.length_append] at hfuel
    have hfirst := parseValue_print v hv.1 fuel
      (Value.printItems vs ++ rest) (by omega) (delimited_printItems vs rest)
    have hrest := parseItems_print vs hv.2 fuel rest (by omega)
    simp [Value.printItems, parseItems, token_cons (b := 0x2c) rfl, hfirst, hrest]

theorem parseMembers_print : (ms : List (String × Value)) → Value.WritableMembers ms →
    ∀ (fuel : Nat) (rest : Bytes), (Value.printMembers ms).length < fuel →
      parseMembers fuel (Value.printMembers ms ++ rest) = some (ms, rest)
  | [], _, fuel + 1, rest, _ => by
    simp [Value.printMembers, parseMembers, token, isSpace]
  | (k, v) :: ms, hv, fuel + 1, rest, hfuel => by
    simp only [Value.printMembers, List.length_cons, List.length_append] at hfuel
    have hkey := parseKey_quote k (v.print ++ (Value.printMembers ms ++ rest))
    have hfirst := parseValue_print v hv.1 fuel
      (Value.printMembers ms ++ rest) (by omega) (delimited_printMembers ms rest)
    have hrest := parseMembers_print ms hv.2 fuel rest (by omega)
    simp [Value.printMembers, parseMembers, token_cons (b := 0x2c) rfl, hkey, hfirst, hrest]

end

variable {input rest : Bytes} {v : Value} {fuel fuel' : Nat}

/-- **A printed value is read as that value.** -/
theorem parse_print (hv : v.Writable) : parse v.print = some v := by
  have hvalue := parseValue_print v hv (v.print.length + 1) []
    (Nat.lt_succ_self _) (.inl rfl)
  rw [List.append_nil] at hvalue
  simp [parse, hvalue, token]

/-- **So it is with a line feed behind it.** -/
theorem parse_print_line (hv : v.Writable) : parse (v.print ++ [0x0a]) = some v := by
  have hvalue := parseValue_print v hv ((v.print ++ [0x0a]).length + 1) [0x0a]
    (by simp) (.inr ⟨0x0a, [], rfl, by decide⟩)
  simp only [parse, hvalue, Option.bind_eq_bind, Option.bind_some]
  rfl

/-! ## Truncation -/

theorem token_append {b : UInt8} (more : Bytes) (h : token input = some (b, rest)) :
    token (input ++ more) = some (b, rest ++ more) := by
  induction input with
  | nil => simp [token] at h
  | cons c input ih =>
    rw [token] at h
    rw [List.cons_append, token]
    by_cases hc : isSpace c = true
    · rw [if_pos hc] at h ⊢
      exact ih h
    · rw [if_neg hc] at h ⊢
      simp only [Option.some.injEq, Prod.mk.injEq] at h
      rw [h.1, h.2]

theorem expect_append {word : Bytes} (more : Bytes) (h : expect word input = some rest) :
    expect word (input ++ more) = some (rest ++ more) := by
  induction word generalizing input with
  | nil =>
    rw [expect, Option.some.injEq] at h
    rw [expect, h]
  | cons w word ih =>
    cases input with
    | nil => simp [expect] at h
    | cons b input =>
      rw [expect] at h
      rw [List.cons_append, expect]
      split at h
      · rename_i hb
        rw [if_pos hb]
        exact ih h
      · simp at h

/-- A number, the one kind of value whose end is not marked in the text. -/
def Value.isNum : Value → Bool
  | .num _ => true
  | _ => false

theorem parseScalar_append {b : UInt8} (more : Bytes) (h : parseScalar b input = some (v, rest))
    (hend : rest ≠ [] ∨ v.isNum = false) :
    parseScalar b (input ++ more) = some (v, rest ++ more) := by
  unfold parseScalar at h ⊢
  split_ifs at h ⊢
  · simp only [Option.map_eq_some_iff, Prod.mk.injEq] at h ⊢
    obtain ⟨r, hscan, hv, rfl⟩ := h
    exact ⟨_, scan_append more hscan, hv, rfl⟩
  · simp only [Option.map_eq_some_iff, Prod.mk.injEq] at h ⊢
    obtain ⟨r, hword, hv, rfl⟩ := h
    exact ⟨_, expect_append more hword, hv, rfl⟩
  · simp only [Option.map_eq_some_iff, Prod.mk.injEq] at h ⊢
    obtain ⟨r, hword, hv, rfl⟩ := h
    exact ⟨_, expect_append more hword, hv, rfl⟩
  · simp only [Option.map_eq_some_iff, Prod.mk.injEq] at h ⊢
    obtain ⟨r, hword, hv, rfl⟩ := h
    exact ⟨_, expect_append more hword, hv, rfl⟩
  · simp only [Option.map_eq_some_iff, Prod.mk.injEq] at h ⊢
    obtain ⟨r, hnum, rfl, rfl⟩ := h
    have hrest : r.2 ≠ [] := hend.resolve_right (by simp [Value.isNum])
    exact ⟨_, scanNum_append more hnum hrest, rfl, rfl⟩

theorem parseKey_append {k : String} (more : Bytes) (h : parseKey input = some (k, rest)) :
    parseKey (input ++ more) = some (k, rest ++ more) := by
  simp only [parseKey, Option.bind_eq_bind, Option.bind_eq_some_iff, Prod.exists] at h ⊢
  obtain ⟨b, rest₁, htoken, h⟩ := h
  refine ⟨b, _, token_append more htoken, ?_⟩
  split at h
  · rename_i hb
    simp only [Option.bind_eq_some_iff, Prod.exists] at h
    obtain ⟨raw, rest₂, hscan, c, rest₃, hcolon, h⟩ := h
    rw [if_pos hb, scan_append more hscan]
    simp only [Option.bind_some, token_append more hcolon]
    split at h
    · rename_i hc
      simp only [Option.some.injEq, Prod.mk.injEq] at h
      rw [if_pos hc, h.1, h.2]
    · simp at h
  · simp at h

/-- The tail of an array or object is never empty, so the item before it ends
before the input does. -/
theorem parseItems_nil (fuel : Nat) : parseItems fuel [] = none := by
  cases fuel <;> simp [parseItems, token]

theorem parseMembers_nil (fuel : Nat) : parseMembers fuel [] = none := by
  cases fuel <;> simp [parseMembers, token]

/-- What the three parsers have in common: a result that ended before the input
did, or whose end is marked, is not changed by more input and more fuel. -/
def Extends (fuel fuel' : Nat) : Prop :=
  (∀ {input rest : Bytes} {v : Value} (more : Bytes), parseValue fuel input = some (v, rest) →
    (rest ≠ [] ∨ v.isNum = false) → parseValue fuel' (input ++ more) = some (v, rest ++ more)) ∧
  (∀ {input rest : Bytes} {vs : List Value} (more : Bytes),
    parseItems fuel input = some (vs, rest) →
      parseItems fuel' (input ++ more) = some (vs, rest ++ more)) ∧
  (∀ {input rest : Bytes} {ms : List (String × Value)} (more : Bytes),
    parseMembers fuel input = some (ms, rest) →
      parseMembers fuel' (input ++ more) = some (ms, rest ++ more))

theorem parseItems_append (ih : Extends fuel fuel') {vs : List Value} (more : Bytes)
    (h : parseItems (fuel + 1) input = some (vs, rest)) :
    parseItems (fuel' + 1) (input ++ more) = some (vs, rest ++ more) := by
  obtain ⟨ihValue, ihItems, -⟩ := ih
  simp only [parseItems, Option.bind_eq_bind, Option.bind_eq_some_iff, Prod.exists] at h ⊢
  obtain ⟨b, rest₁, htoken, h⟩ := h
  refine ⟨b, _, token_append more htoken, ?_⟩
  by_cases hclose : b = 0x5d
  · simp only [if_pos hclose, Option.some.injEq, Prod.mk.injEq] at h ⊢
    exact ⟨h.1, by rw [h.2]⟩
  by_cases hcomma : b = 0x2c
  · simp only [if_neg hclose, if_pos hcomma, Option.bind_eq_some_iff, Prod.exists,
      Option.some.injEq, Prod.mk.injEq] at h ⊢
    obtain ⟨v, rest₂, hvalue, vs', rest₃, hitems, hvs, rfl⟩ := h
    have hne : rest₂ ≠ [] := by
      rintro rfl
      simp [parseItems_nil] at hitems
    exact ⟨v, _, ihValue more hvalue (.inl hne), vs', _, ihItems more hitems, hvs, rfl⟩
  · simp [hclose, hcomma] at h

theorem parseMembers_append (ih : Extends fuel fuel') {ms : List (String × Value)} (more : Bytes)
    (h : parseMembers (fuel + 1) input = some (ms, rest)) :
    parseMembers (fuel' + 1) (input ++ more) = some (ms, rest ++ more) := by
  obtain ⟨ihValue, -, ihMembers⟩ := ih
  simp only [parseMembers, Option.bind_eq_bind, Option.bind_eq_some_iff, Prod.exists] at h ⊢
  obtain ⟨b, rest₁, htoken, h⟩ := h
  refine ⟨b, _, token_append more htoken, ?_⟩
  by_cases hclose : b = 0x7d
  · simp only [if_pos hclose, Option.some.injEq, Prod.mk.injEq] at h ⊢
    exact ⟨h.1, by rw [h.2]⟩
  by_cases hcomma : b = 0x2c
  · simp only [if_neg hclose, if_pos hcomma, Option.bind_eq_some_iff, Prod.exists,
      Option.some.injEq, Prod.mk.injEq] at h ⊢
    obtain ⟨k, rest₂, hkey, v, rest₃, hvalue, ms', rest₄, hmembers, hms, rfl⟩ := h
    have hne : rest₃ ≠ [] := by
      rintro rfl
      simp [parseMembers_nil] at hmembers
    exact ⟨k, _, parseKey_append more hkey, v, _, ihValue more hvalue (.inl hne), ms', _,
      ihMembers more hmembers, hms, rfl⟩
  · simp [hclose, hcomma] at h

theorem parseValue_append (ih : Extends fuel fuel') (more : Bytes)
    (h : parseValue (fuel + 1) input = some (v, rest)) (hend : rest ≠ [] ∨ v.isNum = false) :
    parseValue (fuel' + 1) (input ++ more) = some (v, rest ++ more) := by
  obtain ⟨ihValue, ihItems, ihMembers⟩ := ih
  simp only [parseValue, Option.bind_eq_bind, Option.bind_eq_some_iff, Prod.exists] at h ⊢
  obtain ⟨b, rest₁, htoken, h⟩ := h
  refine ⟨b, _, token_append more htoken, ?_⟩
  by_cases harray : b = 0x5b
  · simp only [if_pos harray, Option.bind_eq_some_iff, Prod.exists] at h ⊢
    obtain ⟨c, after, hnext, h⟩ := h
    refine ⟨c, _, token_append more hnext, ?_⟩
    by_cases hclose : c = 0x5d
    · simp only [if_pos hclose, Option.some.injEq, Prod.mk.injEq] at h ⊢
      exact ⟨h.1, by rw [h.2]⟩
    · simp only [if_neg hclose, Option.bind_eq_some_iff, Prod.exists,
        Option.some.injEq, Prod.mk.injEq] at h ⊢
      obtain ⟨w, rest₂, hvalue, ws, rest₃, hitems, hv, rfl⟩ := h
      have hne : rest₂ ≠ [] := by
        rintro rfl
        simp [parseItems_nil] at hitems
      exact ⟨w, _, ihValue more hvalue (.inl hne), ws, _, ihItems more hitems, hv, rfl⟩
  by_cases hobject : b = 0x7b
  · simp only [if_neg harray, if_pos hobject, Option.bind_eq_some_iff, Prod.exists] at h ⊢
    obtain ⟨c, after, hnext, h⟩ := h
    refine ⟨c, _, token_append more hnext, ?_⟩
    by_cases hclose : c = 0x7d
    · simp only [if_pos hclose, Option.some.injEq, Prod.mk.injEq] at h ⊢
      exact ⟨h.1, by rw [h.2]⟩
    · simp only [if_neg hclose, Option.bind_eq_some_iff, Prod.exists,
        Option.some.injEq, Prod.mk.injEq] at h ⊢
      obtain ⟨k, rest₂, hkey, w, rest₃, hvalue, ms, rest₄, hmembers, hv, rfl⟩ := h
      have hne : rest₃ ≠ [] := by
        rintro rfl
        simp [parseMembers_nil] at hmembers
      exact ⟨k, _, parseKey_append more hkey, w, _, ihValue more hvalue (.inl hne), ms, _,
        ihMembers more hmembers, hv, rfl⟩
  · simp only [if_neg harray, if_neg hobject] at h ⊢
    exact parseScalar_append more h hend

theorem extends_of_le (hle : fuel ≤ fuel') : Extends fuel fuel' := by
  induction fuel generalizing fuel' with
  | zero => simp [Extends, parseValue, parseItems, parseMembers]
  | succ fuel ih =>
    obtain ⟨fuel', rfl⟩ : ∃ k, fuel' = k + 1 := ⟨fuel' - 1, by omega⟩
    have ih := ih (Nat.le_of_succ_le_succ hle)
    exact ⟨fun more h hend => parseValue_append ih more h hend,
      fun more h => parseItems_append ih more h, fun more h => parseMembers_append ih more h⟩

/-- What starts with an opening brace is read as an object or not at all. -/
theorem isNum_of_parse_brace (h : parseValue fuel (0x7b :: input) = some (v, rest)) :
    v.isNum = false := by
  cases fuel with
  | zero => simp [parseValue] at h
  | succ fuel =>
    simp only [parseValue, token_cons (b := 0x7b) rfl, Option.bind_eq_bind, Option.bind_some] at h
    rw [if_neg (by decide), if_pos trivial] at h
    simp only [Option.bind_eq_some_iff, Prod.exists] at h
    obtain ⟨c, after, -, h⟩ := h
    split at h
    · simp only [Option.some.injEq, Prod.mk.injEq] at h
      rw [← h.1]
      rfl
    · simp only [Option.bind_eq_some_iff, Prod.exists, Option.some.injEq, Prod.mk.injEq] at h
      obtain ⟨k, _, -, w, _, -, ms, _, -, rfl, -⟩ := h
      rfl

/-- **A printed object that lost some of its end is not a JSON text.** -/
theorem parse_truncated {members : List (String × Value)} (hv : (Value.obj members).Writable)
    {kept lost : Bytes} (hprint : (Value.obj members).print = kept ++ lost) (hlost : lost ≠ []) :
    parse kept = none := by
  cases hparse : parse kept with
  | none => rfl
  | some w =>
    exfalso
    simp only [parse, Option.bind_eq_bind, Option.bind_eq_some_iff, Prod.exists] at hparse
    obtain ⟨w', rest, hvalue, -⟩ := hparse
    have hnum : w'.isNum = false := by
      cases kept with
      | nil => simp [parseValue, token] at hvalue
      | cons b kept =>
        have hb : b = 0x7b := by
          match members, hprint with
          | [], hprint => exact (List.cons.inj hprint).1.symm
          | (_, _) :: _, hprint => exact (List.cons.inj hprint).1.symm
        subst hb
        exact isNum_of_parse_brace hvalue
    have hle : kept.length + 1 ≤ (kept ++ lost).length + 1 := by simp
    have hlonger := (extends_of_le hle).1 lost hvalue (.inr hnum)
    have hwhole := parseValue_print _ hv ((kept ++ lost).length + 1) []
      (by rw [hprint]; exact Nat.lt_succ_self _) (.inl rfl)
    rw [List.append_nil, hprint, hlonger] at hwhole
    simp only [Option.some.injEq, Prod.mk.injEq, List.append_eq_nil_iff] at hwhole
    exact hlost hwhole.2.2

end TosAi.Foundation.Json
