/-
  The Go standard library functions the modelled packages call, as computable
  functions of Lean strings and integers.

  A Go string is a Lean string here: the texts in question are checked byte by
  byte against ASCII classes, and a byte of a longer UTF-8 sequence is in none of
  them, so a character is rejected exactly where its first byte would be.
-/
import Mathlib
import TosAi.Foundation.Json.Text

set_option autoImplicit false

namespace TosAi.Foundation

open Json (Bytes)

/-! ## `strings`, `encoding/hex` -/

/-- The text without the given beginning, if it has it (`strings.TrimPrefix`). -/
def trimStart (start s : String) : String :=
  if start.toList.isPrefixOf s.toList then String.ofList (s.toList.drop start.toList.length)
  else s

/-- A hexadecimal digit, of either case. -/
def isHexDigit (c : Char) : Bool :=
  ('0' ≤ c && c ≤ '9') || ('a' ≤ c && c ≤ 'f') || ('A' ≤ c && c ≤ 'F')

/-- `hex.EncodeToString`. -/
def hexEncode (bytes : Bytes) : String :=
  String.ofList (bytes.flatMap fun b =>
    [Char.ofNat (Json.hexDigit (b.toNat / 16)).toNat,
      Char.ofNat (Json.hexDigit (b.toNat % 16)).toNat])

theorem length_hexEncode (bytes : Bytes) : (hexEncode bytes).toList.length = 2 * bytes.length := by
  induction bytes with
  | nil => rfl
  | cons b bytes ih =>
    simp only [hexEncode, String.toList_ofList, List.flatMap_cons, List.length_append,
      List.length_cons, List.length_nil] at ih ⊢
    omega

/-- A digit as `hexEncode` writes it. -/
def isLowerHexDigit (c : Char) : Bool := ('0' ≤ c && c ≤ '9') || ('a' ≤ c && c ≤ 'f')

theorem isLowerHexDigit_hexDigit :
    ∀ k < 16, isLowerHexDigit (Char.ofNat (Json.hexDigit k).toNat) = true := by
  decide

theorem hexEncode_lower (bytes : Bytes) : (hexEncode bytes).toList.all isLowerHexDigit = true := by
  induction bytes with
  | nil => rfl
  | cons b bytes ih =>
    have hb : b.toNat < 256 := b.toNat_lt
    have hhigh := isLowerHexDigit_hexDigit (b.toNat / 16) (by omega)
    have hlow := isLowerHexDigit_hexDigit (b.toNat % 16) (by omega)
    simp only [hexEncode, String.toList_ofList, List.flatMap_cons, List.all_append,
      List.all_cons, List.all_nil, Bool.and_true, hhigh, hlow, Bool.true_and] at ih ⊢
    exact ih

theorem hexDigit_injective : ∀ i < 16, ∀ j < 16,
    Char.ofNat (Json.hexDigit i).toNat = Char.ofNat (Json.hexDigit j).toNat → i = j := by
  decide

/-- Different bytes have different texts. -/
theorem hexEncode_injective {a b : Bytes} (h : hexEncode a = hexEncode b) : a = b := by
  have hlist := String.ofList_injective h
  clear h
  induction a generalizing b with
  | nil =>
    cases b with
    | nil => rfl
    | cons y b => simp at hlist
  | cons x a ih =>
    cases b with
    | nil => simp at hlist
    | cons y b =>
      simp only [List.flatMap_cons, List.cons_append, List.nil_append, List.cons.injEq] at hlist
      obtain ⟨hhigh, hlow, hrest⟩ := hlist
      have hx : x.toNat < 256 := x.toNat_lt
      have hy : y.toNat < 256 := y.toNat_lt
      have hdiv := hexDigit_injective _ (by omega) _ (by omega) hhigh
      have hmod := hexDigit_injective _ (by omega) _ (by omega) hlow
      have hxy : x = y := UInt8.toNat.inj (by omega)
      rw [hxy, ih hrest]

/-- The text has a carriage return or a line feed. -/
def hasLineBreak (s : String) : Bool := s.toList.any fun c => c == '\r' || c == '\n'

/-- `sort.StringsAreSorted`. -/
def stringsAreSorted : List String → Bool
  | a :: b :: rest => !(decide (b < a)) && stringsAreSorted (b :: rest)
  | _ => true

/-- The bytes of a text. -/
def stringBytes (s : String) : Bytes := s.toList.flatMap String.utf8EncodeChar

/-- `strings.HasPrefix`. -/
def startsWith (start s : String) : Bool := start.toList.isPrefixOf s.toList

/-! ### Length in bytes -/

theorem utf8Size_of_le {c : Char} (h : c ≤ 'z') : c.utf8Size = 1 :=
  Char.utf8Size_eq_one_iff.mpr (UInt32.le_trans h (by decide))

theorem utf8Len_of_small {l : List Char} (h : ∀ c ∈ l, c.utf8Size = 1) :
    String.utf8Len l = l.length := by
  induction l with
  | nil => rfl
  | cons c l ih =>
    rw [String.utf8Len_cons, ih fun d hd => h d (List.mem_cons_of_mem c hd),
      h c List.mem_cons_self, List.length_cons]

theorem le_of_isLowerHexDigit {c : Char} (h : isLowerHexDigit c = true) : c ≤ 'z' := by
  simp only [isLowerHexDigit, Bool.or_eq_true, Bool.and_eq_true, decide_eq_true_eq] at h
  rcases h with h | h
  · exact h.2.trans (by decide)
  · exact h.2.trans (by decide)

/-- `^start[0-9a-f]{64}$`, the pattern of identities and digests. -/
def matchesHex64 (start s : String) : Bool :=
  startsWith start s && (s.toList.drop start.toList.length).length == 64 &&
    (s.toList.drop start.toList.length).all isLowerHexDigit

/-- A text in front of the digits of 32 bytes matches. -/
theorem matchesHex64_append {start : String} {bytes : Bytes} (h : bytes.length = 32) :
    matchesHex64 start (start ++ hexEncode bytes) = true := by
  have htext : (start ++ hexEncode bytes).toList = start.toList ++ (hexEncode bytes).toList :=
    String.toList_append
  have hlength := length_hexEncode bytes
  rw [h] at hlength
  have hlower := hexEncode_lower bytes
  rw [matchesHex64, startsWith, htext, List.drop_left, hlength, hlower]
  simp only [BEq.rfl, Bool.and_true]
  exact List.isPrefixOf_iff_prefix.mpr (List.prefix_append _ _)

/-- What matches is the text and the digits behind it. -/
theorem eq_append_of_matchesHex64 {start s : String} (h : matchesHex64 start s = true) :
    s = start ++ String.ofList (s.toList.drop start.toList.length) := by
  simp only [matchesHex64, startsWith, Bool.and_eq_true, List.isPrefixOf_iff_prefix] at h
  obtain ⟨⟨⟨rest, hrest⟩, -⟩, -⟩ := h
  apply String.toList_injective
  rw [String.toList_append, String.toList_ofList, ← hrest, List.drop_left]

/-- The digits tell apart what matches. -/
theorem eq_of_matchesHex64 {start a b : String} (ha : matchesHex64 start a = true)
    (hb : matchesHex64 start b = true)
    (h : a.toList.drop start.toList.length = b.toList.drop start.toList.length) : a = b := by
  rw [eq_append_of_matchesHex64 ha, eq_append_of_matchesHex64 hb, h]

/-- What matches is as long as the text and 64 bytes. -/
theorem utf8ByteSize_of_matchesHex64 {start s : String} (h : matchesHex64 start s = true) :
    s.utf8ByteSize = start.utf8ByteSize + 64 := by
  have htext := eq_append_of_matchesHex64 h
  simp only [matchesHex64, Bool.and_eq_true, beq_iff_eq, List.all_eq_true] at h
  obtain ⟨⟨-, hlength⟩, hdigits⟩ := h
  have hsmall : ∀ c ∈ s.toList.drop start.toList.length, c.utf8Size = 1 :=
    fun c hc => utf8Size_of_le (le_of_isLowerHexDigit (hdigits c hc))
  rw [htext, String.utf8ByteSize_append, String.utf8ByteSize_ofList, utf8Len_of_small hsmall,
    hlength]

/-! ## `encoding/base64`, `encoding/binary` -/

/-- The value of a character in the URL alphabet. -/
def base64Value (c : Char) : Option Nat :=
  if 'A' ≤ c ∧ c ≤ 'Z' then some (c.toNat - 'A'.toNat)
  else if 'a' ≤ c ∧ c ≤ 'z' then some (c.toNat - 'a'.toNat + 26)
  else if c.isDigit then some (c.toNat - '0'.toNat + 52)
  else if c = '-' then some 62
  else if c = '_' then some 63 else none

/-- Four values make three bytes; of a shorter last group the spare bits are
dropped, and a single value is too short. -/
def base64Groups : List Nat → Option Bytes
  | [] => some []
  | [_] => none
  | [a, b] => some [UInt8.ofNat (a * 4 + b / 16)]
  | [a, b, c] => some [UInt8.ofNat (a * 4 + b / 16), UInt8.ofNat (b * 16 + c / 4)]
  | a :: b :: c :: d :: rest =>
    (base64Groups rest).map fun bytes =>
      UInt8.ofNat (a * 4 + b / 16) :: UInt8.ofNat (b * 16 + c / 4) :: UInt8.ofNat (c * 64 + d) ::
        bytes

/-- `base64.RawURLEncoding.DecodeString`: line breaks are skipped, padding is not
allowed. -/
def base64RawURLDecode (s : String) : Option Bytes := do
  let values ← (s.toList.filter fun c => c != '\r' && c != '\n').mapM base64Value
  base64Groups values

/-- The character of a value in the URL alphabet. -/
def base64Char (value : Nat) : Char :=
  if value < 26 then Char.ofNat ('A'.toNat + value)
  else if value < 52 then Char.ofNat ('a'.toNat + (value - 26))
  else if value < 62 then Char.ofNat ('0'.toNat + (value - 52))
  else if value = 62 then '-' else '_'

/-- Three bytes make four values; a shorter last group is filled up with zero bits. -/
def base64Values : Bytes → List Nat
  | [] => []
  | [a] => [a.toNat / 4, a.toNat % 4 * 16]
  | [a, b] => [a.toNat / 4, a.toNat % 4 * 16 + b.toNat / 16, b.toNat % 16 * 4]
  | a :: b :: c :: rest =>
    a.toNat / 4 :: (a.toNat % 4 * 16 + b.toNat / 16) :: (b.toNat % 16 * 4 + c.toNat / 64) ::
      c.toNat % 64 :: base64Values rest

/-- `base64.RawURLEncoding.EncodeToString`. -/
def base64RawURLEncode (bytes : Bytes) : String :=
  String.ofList ((base64Values bytes).map base64Char)

theorem base64RawURLEncode_ne_empty {bytes : Bytes} (h : bytes ≠ []) :
    base64RawURLEncode bytes ≠ "" := by
  intro hempty
  have hvalues : base64Values bytes = [] := by
    have hlist := congrArg String.toList hempty
    simpa [base64RawURLEncode] using hlist
  match bytes, h with
  | [_], _ => cases hvalues
  | [_, _], _ => cases hvalues
  | _ :: _ :: _ :: _, _ => cases hvalues

/-- The lowest bytes of a number, the highest of them first. -/
def bigEndian (width n : Nat) : Bytes :=
  (List.range width).reverse.map fun i => UInt8.ofNat (n / 256 ^ i)

/-! ## `path/filepath` on Unix -/

/-- `filepath.IsAbs`. -/
def pathIsAbs (path : String) : Bool := path.toList.head? == some '/'

/-- The elements of a path, `..` taken back where there is something before it. -/
def cleanElements (rooted : Bool) : List (List Char) → List (List Char) → List (List Char)
  | done, [] => done.reverse
  | done, e :: rest =>
    if e = [] ∨ e = ['.'] then cleanElements rooted done rest
    else if e = ['.', '.'] then
      match done with
      | last :: before =>
        if last = ['.', '.'] then cleanElements rooted (e :: done) rest
        else cleanElements rooted before rest
      | [] => cleanElements rooted (if rooted then [] else [e]) rest
    else cleanElements rooted (e :: done) rest

/-- `filepath.Clean`. -/
def pathClean (path : String) : String :=
  let rooted := pathIsAbs path
  let elements := cleanElements rooted [] (path.toList.splitOn '/')
  let joined := List.intercalate ['/'] elements
  if rooted then String.ofList ('/' :: joined)
  else if joined = [] then "." else String.ofList joined

/-! ## `net` -/

/-- The sixteen bytes of an address. -/
abbrev IP := List Nat

/-- The four fields of a dotted address: each has a digit, no leading zero and is
at most 255. -/
def parseIPv4Fields (s : List Char) : Option (List Nat) :=
  let fields := s.splitOn '.'
  if fields.length = 4 then
    fields.mapM fun f =>
      if f ≠ [] ∧ f.all Char.isDigit ∧ (f.length = 1 ∨ f.head? ≠ some '0') ∧ f.length ≤ 3 then
        let n := f.foldl (fun n c => n * 10 + (c.toNat - '0'.toNat)) 0
        if n ≤ 255 then some n else none
      else none
  else none

/-- The value of a hexadecimal digit. -/
def hexDigitValue (c : Char) : Nat :=
  if c.isDigit then c.toNat - '0'.toNat
  else if 'a' ≤ c then c.toNat - 'a'.toNat + 10 else c.toNat - 'A'.toNat + 10

/-- The groups of an address with colons: `bytes` are those read so far, `gap`
where `::` stood. -/
def parseIPv6Groups : Nat → List Nat → Option Nat → List Char →
    Option (List Nat × Option Nat × List Char)
  | 0, bytes, gap, s => some (bytes, gap, s)
  | fuel + 1, bytes, gap, s =>
    let digits := s.takeWhile isHexDigit
    let after := s.dropWhile isHexDigit
    if digits = [] ∨ 4 < digits.length then none
    else if after.head? = some '.' then
      if gap.isNone ∧ bytes.length ≠ 12 then none
      else if 16 < bytes.length + 4 then none
      else (parseIPv4Fields s).map fun four => (bytes ++ four, gap, [])
    else
      let group := digits.foldl (fun n c => n * 16 + hexDigitValue c) 0
      let bytes' := bytes ++ [group / 256, group % 256]
      match after with
      | [] => some (bytes', gap, [])
      | [_] => none
      | c :: d :: rest =>
        if c ≠ ':' then none
        else if d = ':' then
          if gap.isSome then none
          else if rest = [] then some (bytes', some bytes'.length, [])
          else parseIPv6Groups fuel bytes' (some bytes'.length) rest
        else parseIPv6Groups fuel bytes' gap (d :: rest)

/-- An address with colons and without a zone. -/
def parseIPv6 (s : List Char) : Option IP :=
  let (gap, body) : Option Nat × List Char :=
    match s with
    | ':' :: ':' :: rest => (some 0, rest)
    | _ => (none, s)
  if gap.isSome ∧ body = [] then some (List.replicate 16 0)
  else
    match parseIPv6Groups 8 [] gap body with
    | some (bytes, gap', []) =>
      match gap' with
      | some at' =>
        if bytes.length < 16 then
          some (bytes.take at' ++ List.replicate (16 - bytes.length) 0 ++ bytes.drop at')
        else none
      | none => if bytes.length = 16 then some bytes else none
    | _ => none

/-- `net.ParseIP`; an address with a zone is not one. -/
def parseIP (s : String) : Option IP :=
  match s.toList.find? fun c => c == '.' || c == ':' || c == '%' with
  | some '.' => (parseIPv4Fields s.toList).map (List.replicate 10 0 ++ [255, 255] ++ ·)
  | some ':' => if s.toList.contains '%' then none else parseIPv6 s.toList
  | _ => none

namespace IP

/-- The last four bytes of an IPv4 address (`To4`). -/
def to4 (ip : IP) : Option (List Nat) :=
  if ip.take 12 = List.replicate 10 0 ++ [255, 255] then some (ip.drop 12) else none

def isUnspecified (ip : IP) : Bool :=
  ip == List.replicate 16 0 || ip.to4 == some [0, 0, 0, 0]

def isLoopback (ip : IP) : Bool :=
  match ip.to4 with
  | some four => four.head? == some 127
  | none => ip == List.replicate 15 0 ++ [1]

def isPrivate (ip : IP) : Bool :=
  match ip.to4 with
  | some (a :: b :: _) => a == 10 || (a == 172 && b / 16 == 1) || (a == 192 && b == 168)
  | some _ => false
  | none => ip.head?.any fun a => a / 2 == 0xfc / 2

def isMulticast (ip : IP) : Bool :=
  match ip.to4 with
  | some four => four.head?.any fun a => a / 16 == 0xe
  | none => ip.head? == some 0xff

def isLinkLocalMulticast (ip : IP) : Bool :=
  match ip.to4 with
  | some four => four.take 3 == [224, 0, 0]
  | none =>
    match ip with
    | a :: b :: _ => a == 0xff && b % 16 == 2
    | _ => false

def isLinkLocalUnicast (ip : IP) : Bool :=
  match ip.to4 with
  | some four => four.take 2 == [169, 254]
  | none =>
    match ip with
    | a :: b :: _ => a == 0xfe && b / 64 == 2
    | _ => false

def isGlobalUnicast (ip : IP) : Bool :=
  ip.to4 != some [255, 255, 255, 255] && !ip.isUnspecified && !ip.isLoopback &&
    !ip.isMulticast && !ip.isLinkLocalUnicast

end IP

/-! ## `net/http` -/

/-- A byte that may stand in a header name. -/
def isTokenChar (c : Char) : Bool :=
  c.isAlphanum || "!#$%&'*+-.^_|~".toList.contains c || c.toNat == 0x60

/-- Upper case at the start and after a hyphen, lower case elsewhere. -/
def canonicalChars : Bool → List Char → List Char
  | _, [] => []
  | upper, c :: rest => (if upper then c.toUpper else c.toLower) :: canonicalChars (c == '-') rest

/-- `http.CanonicalHeaderKey`. -/
def canonicalHeaderKey (s : String) : String :=
  if s.toList.all isTokenChar then String.ofList (canonicalChars true s.toList) else s

/-! ## `sort` -/

/-- `sort.Slice` by a key. -/
def sortBy {α : Type} (key : α → String) (l : List α) : List α :=
  l.mergeSort fun a b => decide (key a ≤ key b)

section Sorting

variable {α : Type} {key : α → String}

theorem sortBy_perm (l : List α) : (sortBy key l).Perm l := List.mergeSort_perm l _

theorem pairwise_sortBy (l : List α) : (sortBy key l).Pairwise fun a b => key a ≤ key b := by
  have hsorted : (sortBy key l).Pairwise fun a b => decide (key a ≤ key b) = true := by
    apply List.pairwise_mergeSort
    · intro a b c hab hbc
      rw [decide_eq_true_eq] at hab hbc ⊢
      exact le_trans hab hbc
    · intro a b
      simpa using le_total (key a) (key b)
  exact hsorted.imp fun h => of_decide_eq_true h

theorem pairwise_lt_sortBy {l : List α} (hchain : (sortBy key l).IsChain fun a b => key a ≠ key b) :
    (sortBy key l).Pairwise fun a b => key a < key b := by
  have : Trans (fun a b : α => key a < key b) (fun a b => key a < key b)
      (fun a b => key a < key b) := ⟨fun hab hbc => lt_trans hab hbc⟩
  rw [← List.isChain_iff_pairwise]
  have hle : (sortBy key l).Pairwise fun a b => key a ≤ key b := pairwise_sortBy l
  generalize sortBy key l = sorted at hchain hle ⊢
  induction hchain with
  | nil => exact .nil
  | singleton a => exact .singleton a
  | cons_cons hne _ ih =>
    rw [List.pairwise_cons] at hle
    exact .cons_cons (lt_of_le_of_ne (hle.1 _ List.mem_cons_self) hne) (ih hle.2)

/-- A list without repeated keys sorts like every reordering of it. -/
theorem sortBy_eq_of_perm {l l' : List α} (hperm : l.Perm l')
    (hchain : (sortBy key l).IsChain fun a b => key a ≠ key b) :
    sortBy key l = sortBy key l' := by
  have hsorted : (sortBy key l).Perm (sortBy key l') :=
    ((sortBy_perm l).trans hperm).trans (sortBy_perm l').symm
  have hnodup : ((sortBy key l).map key).Nodup :=
    List.pairwise_map.mpr ((pairwise_lt_sortBy hchain).imp fun h => ne_of_lt h)
  refine List.Perm.eq_of_pairwise ?_ (pairwise_sortBy l) (pairwise_sortBy l') hsorted
  intro a b ha hb hab hba
  exact List.inj_on_of_nodup_map hnodup ha (hsorted.mem_iff.mpr hb) (le_antisymm hab hba)

end Sorting

/-! ## `time` and integer conversions -/

/-- A point in time, in nanoseconds since the Unix epoch. -/
abbrev Time := Int

/-- `Time.Unix`: whole seconds, rounded down. -/
def Time.unix (t : Time) : Int := t / 1000000000

/-- Two's complement in 64 bits. -/
def wrap64 (i : Int) : Int := (i + 2 ^ 63) % 2 ^ 64 - 2 ^ 63

/-- `uint64(i)` for a signed integer. -/
def toUInt64 (i : Int) : UInt64 := UInt64.ofNat (i % 2 ^ 64).toNat

/-- `int64(u)` for an unsigned one. -/
def toInt64 (u : UInt64) : Int := wrap64 u.toNat

/-- `time.Unix(sec, 0)`, which counts seconds from the year 1 in 64 bits. -/
def timeUnix (sec : Int) : Time := (wrap64 (sec + 62135596800) - 62135596800) * 1000000000

end TosAi.Foundation
