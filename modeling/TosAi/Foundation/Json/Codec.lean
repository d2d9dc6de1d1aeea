/-
  Typed JSON: how a Go encoder writes a struct and how a decoder fills one.

  A `Codec` carries the proof that what it writes it reads back.  Decoding is
  decoding INTO a value, as in Go: `null` leaves a scalar as it is, an object
  fills the members it has, and a key given twice is decoded twice into the same
  place.  A key selects the field of exactly that name, or else the first one
  that equals it up to case folding; a key that selects none is an error in
  strict mode and is skipped otherwise.

  A struct is a chain of fields over a nested pair (`Fields`), mapped to the Lean
  structure by an isomorphism (`Codec.struct`), so the round trip of a whole
  record is assembled from the round trips of its fields.
-/
import Mathlib
import TosAi.Foundation.Json.Value

set_option autoImplicit false

namespace TosAi.Foundation.Json

/-- How values of a type are written and read. -/
structure Codec (α : Type) where
  /-- What a field of the type holds before anything is decoded into it. -/
  zero : α
  enc : α → Value
  /-- `dec strict old v`: decode `v` into `old`. -/
  dec : Bool → α → Value → Option α
  writable : ∀ a, (enc a).Writable
  dec_enc : ∀ strict a, dec strict zero (enc a) = some a

variable {α : Type}

namespace Codec

/-! ## Scalars -/

def string : Codec String where
  zero := ""
  enc := .str
  dec := fun _ old v =>
    match v with
    | .null => some old
    | .str s => some s
    | _ => none
  writable := fun _ => trivial
  dec_enc := fun _ _ => rfl

def bool : Codec Bool where
  zero := false
  enc := .bool
  dec := fun _ old v =>
    match v with
    | .null => some old
    | .bool b => some b
    | _ => none
  writable := fun _ => trivial
  dec_enc := fun _ _ => rfl

/-- An unsigned integer below `size`. -/
def unsigned {α : Type} (size : Nat) (toNat : α → Nat) (ofNat : Nat → α)
    (hlt : ∀ a, toNat a < size) (hof : ∀ a, ofNat (toNat a) = a) : Codec α where
  zero := ofNat 0
  enc := fun a => .num (decimal (toNat a))
  dec := fun _ old v =>
    match v with
    | .null => some old
    | .num literal =>
      match readDecimal literal with
      | some n => if n < size then some (ofNat n) else none
      | none => none
    | _ => none
  writable := fun a => ⟨toNat a, (integer_natCast _).symm⟩
  dec_enc := by
    intro _ a
    simp [readDecimal_decimal, hlt, hof]

def uint64 : Codec UInt64 :=
  unsigned (2 ^ 64) UInt64.toNat UInt64.ofNat UInt64.toNat_lt (fun _ => UInt64.ofNat_toNat)

def uint32 : Codec UInt32 :=
  unsigned (2 ^ 32) UInt32.toNat UInt32.ofNat UInt32.toNat_lt (fun _ => UInt32.ofNat_toNat)

def uint16 : Codec UInt16 :=
  unsigned (2 ^ 16) UInt16.toNat UInt16.ofNat UInt16.toNat_lt (fun _ => UInt16.ofNat_toNat)

def uint8 : Codec UInt8 :=
  unsigned (2 ^ 8) UInt8.toNat UInt8.ofNat UInt8.toNat_lt (fun _ => UInt8.ofNat_toNat)

/-- A signed integer of 64 bits. -/
def int64 : Codec Int64 where
  zero := 0
  enc := fun a => .num (integer a.toInt)
  dec := fun _ old v =>
    match v with
    | .null => some old
    | .num literal =>
      match readInteger literal with
      | some z => if -2 ^ 63 ≤ z ∧ z < 2 ^ 63 then some (Int64.ofInt z) else none
      | none => none
    | _ => none
  writable := fun a => ⟨a.toInt, rfl⟩
  dec_enc := by
    intro _ a
    have hlow : -2 ^ 63 ≤ a.toInt := Int64.le_toInt a
    have hhigh : a.toInt < 2 ^ 63 := Int64.toInt_lt a
    simp only [readInteger_integer, hlow, hhigh, and_self, if_true, Int64.ofInt_toInt]

/-- A string type with finitely many meanings; any other text, the empty one
included, is read as `none`. -/
def text {α : Type} (toText : α → String) (ofText : String → Option α)
    (hof : ∀ a, ofText (toText a) = some a) (hempty : ofText "" = none) :
    Codec (Option α) where
  zero := none
  enc := fun a => .str (a.elim "" toText)
  dec := fun _ old v =>
    match v with
    | .null => some old
    | .str s => some (ofText s)
    | _ => none
  writable := fun _ => trivial
  dec_enc := by
    intro _ a
    cases a with
    | none => simp [hempty]
    | some a => simp [hof]

/-! ## Pointers, lists and maps -/

/-- A pointer to a value that is not itself written as `null`. -/
def pointer {α : Type} (c : Codec α) (hnull : ∀ a, c.enc a ≠ .null) : Codec (Option α) where
  zero := none
  enc := fun
    | none => .null
    | some a => c.enc a
  dec := fun strict old v =>
    match v with
    | .null => some none
    | v => (c.dec strict (old.getD c.zero) v).map some
  writable := fun
    | none => trivial
    | some a => c.writable a
  dec_enc := by
    intro strict a
    cases a with
    | none => rfl
    | some a =>
      have hdec := c.dec_enc strict a
      cases henc : c.enc a with
      | null => exact absurd henc (hnull a)
      | _ => simp_all

theorem writableItems_map (f : α → Value) (hf : ∀ a, (f a).Writable) (l : List α) :
    Value.WritableItems (l.map f) := by
  induction l with
  | nil => trivial
  | cons a l ih => exact ⟨hf a, ih⟩

theorem writableMembers_map (k : α → String) (f : α → Value)
    (hf : ∀ a, (f a).Writable) (l : List α) :
    Value.WritableMembers (l.map fun a => (k a, f a)) := by
  induction l with
  | nil => trivial
  | cons a l ih => exact ⟨hf a, ih⟩

/-- A slice: decoding replaces it. -/
def list {α : Type} (c : Codec α) : Codec (List α) where
  zero := []
  enc := fun l => .arr (l.map c.enc)
  dec := fun strict _ v =>
    match v with
    | .null => some []
    | .arr items => items.mapM (c.dec strict c.zero)
    | _ => none
  writable := fun l => writableItems_map c.enc c.writable l
  dec_enc := by
    intro strict l
    induction l with
    | nil => rfl
    | cons a l ih =>
      simp only [List.map_cons, List.mapM_cons, c.dec_enc, Option.bind_eq_bind,
        Option.bind_some] at ih ⊢
      simp [ih]

/-- The members of an object decoded into a map, one after another. -/
def insertMembers {α : Type} (c : Codec α) (strict : Bool) :
    Std.ExtTreeMap String α → List (String × Value) → Option (Std.ExtTreeMap String α)
  | m, [] => some m
  | m, (k, v) :: ms =>
    match c.dec strict c.zero v with
    | some a => insertMembers c strict (m.insert k a) ms
    | none => none

theorem insertMembers_enc (c : Codec α) (strict : Bool) (l : List (String × α)) :
    ∀ m, insertMembers c strict m (l.map fun p => (p.1, c.enc p.2)) =
      some (l.foldl (fun acc p => acc.insert p.1 p.2) m) := by
  induction l with
  | nil => exact fun _ => rfl
  | cons p l ih =>
    intro m
    simp [insertMembers, c.dec_enc, ih]

theorem foldl_insert_toList (m : Std.ExtTreeMap String α) :
    m.toList.foldl (fun acc p => acc.insert p.1 p.2) ∅ = m := by
  rw [← Std.ExtTreeMap.ofList_eq_foldl]
  apply Std.ExtTreeMap.ext_getElem?
  intro k
  cases hk : m[k]? with
  | some a =>
    exact Std.ExtTreeMap.getElem?_ofList_of_mem (by simp)
      Std.ExtTreeMap.distinct_keys_toList
      (Std.ExtTreeMap.mem_toList_iff_getElem?_eq_some.mpr hk)
  | none =>
    apply Std.ExtTreeMap.getElem?_ofList_of_contains_eq_false
    by_contra hmem
    simp only [Bool.not_eq_false, List.contains_iff_mem, List.mem_map, Prod.exists,
      exists_and_right, exists_eq_right] at hmem
    obtain ⟨a, ha⟩ := hmem
    rw [Std.ExtTreeMap.mem_toList_iff_getElem?_eq_some, hk] at ha
    cases ha

/-- A map with string keys, written in the order of its keys. -/
def map {α : Type} (c : Codec α) : Codec (Std.ExtTreeMap String α) where
  zero := ∅
  enc := fun m => .obj (m.toList.map fun p => (p.1, c.enc p.2))
  dec := fun strict old v =>
    match v with
    | .null => some ∅
    | .obj members => insertMembers c strict old members
    | _ => none
  writable := fun m => writableMembers_map (fun p : String × α => p.1) (fun p => c.enc p.2)
    (fun p => c.writable p.2) m.toList
  dec_enc := by
    intro strict m
    simp only [insertMembers_enc, foldl_insert_toList]

end Codec

/-! ## Structs -/

/-- One step of case folding.  The two characters above ASCII that fold to a
letter are the Kelvin sign and the long s. -/
def foldChar (c : Char) : Char :=
  if c.toNat = 0x212a then 'K'
  else if c.toNat = 0x017f then 'S'
  else c.toUpper

/-- A key up to case. -/
def foldName (s : String) : String := String.ofList (s.toList.map foldChar)

/-- The field a key selects: the one of that name, or the first one that has it
up to case. -/
def selectField (names : List String) (key : String) : Option Nat :=
  match names.findIdx? (· == key) with
  | some i => some i
  | none => names.findIdx? fun n => foldName n == foldName key

theorem selectField_head (name : String) (names : List String) :
    selectField (name :: names) name = some 0 := by
  simp [selectField, List.findIdx?_cons]

theorem selectField_tail {name key : String} {names : List String} (hmem : key ∈ names)
    (hfresh : name ∉ names) :
    ∃ i, selectField names key = some i ∧ selectField (name :: names) key = some (i + 1) := by
  have hne : name ≠ key := fun h => hfresh (h ▸ hmem)
  cases hfind : names.findIdx? (· == key) with
  | none =>
    rw [List.findIdx?_eq_none_iff] at hfind
    exact absurd (hfind key hmem) (by simp)
  | some i =>
    exact ⟨i, by simp [selectField, hfind], by
      simp [selectField, List.findIdx?_cons, hne, hfind]⟩

/-- Decode the members of an object one after another, `put i` decoding into
field `i`. -/
def putMembers {τ : Type} (names : List String) (put : Nat → τ → Value → Option τ)
    (strict : Bool) : τ → List (String × Value) → Option τ
  | t, [] => some t
  | t, (k, v) :: ms =>
    match selectField names k with
    | some i =>
      match put i t v with
      | some t' => putMembers names put strict t' ms
      | none => none
    | none => if strict then none else putMembers names put strict t ms

/-- A chain of fields, its values nested pairs. -/
structure Fields (τ : Type) where
  names : List String
  zero : τ
  enc : τ → List (String × Value)
  put : Bool → Nat → τ → Value → Option τ
  named : ∀ t, ∀ m ∈ enc t, m.1 ∈ names
  writable : ∀ t, Value.WritableMembers (enc t)
  put_enc : ∀ strict t, putMembers names (put strict) strict zero (enc t) = some t

namespace Fields

def nil : Fields Unit where
  names := []
  zero := ()
  enc := fun _ => []
  put := fun _ _ _ _ => none
  named := by simp
  writable := fun _ => trivial
  put_enc := fun _ _ => rfl

/-- Decode into the first field or into one of the rest. -/
def consPut {α τ : Type} (c : Codec α) (put : Bool → Nat → τ → Value → Option τ)
    (strict : Bool) : Nat → α × τ → Value → Option (α × τ)
  | 0, t, v => (c.dec strict t.1 v).map fun a => (a, t.2)
  | i + 1, t, v => (put strict i t.2 v).map fun t' => (t.1, t')

/-- Members of later fields do not touch the first one. -/
theorem putMembers_cons {α τ : Type} (name : String) (c : Codec α) (rest : Fields τ)
    (hfresh : name ∉ rest.names) (strict : Bool) (ms : List (String × Value))
    (hms : ∀ m ∈ ms, m.1 ∈ rest.names) (a : α) :
    ∀ t, putMembers (name :: rest.names) (consPut c rest.put strict) strict (a, t) ms =
      (putMembers rest.names (rest.put strict) strict t ms).map fun t' => (a, t') := by
  induction ms with
  | nil => exact fun _ => rfl
  | cons m ms ih =>
    intro t
    obtain ⟨i, hrest, hwhole⟩ := selectField_tail (hms m List.mem_cons_self) hfresh
    have ih := ih fun m' hm' => hms m' (List.mem_cons_of_mem _ hm')
    obtain ⟨k, v⟩ := m
    simp only [putMembers, hrest, hwhole, consPut]
    cases rest.put strict i t v with
    | none => rfl
    | some t' => exact ih t'

/-- A field in front of a chain.  `omits` says which values are left out
(`omitempty`); only the zero value may be. -/
def cons {α τ : Type} (name : String) (c : Codec α) (omits : α → Bool)
    (homits : ∀ a, omits a = true → a = c.zero) (rest : Fields τ)
    (hfresh : name ∉ rest.names := by decide) : Fields (α × τ) where
  names := name :: rest.names
  zero := (c.zero, rest.zero)
  enc := fun t => if omits t.1 then rest.enc t.2 else (name, c.enc t.1) :: rest.enc t.2
  put := consPut c rest.put
  named := by
    intro t m hm
    split at hm
    · exact List.mem_cons_of_mem _ (rest.named t.2 m hm)
    · rcases List.mem_cons.mp hm with rfl | hm
      · exact List.mem_cons_self
      · exact List.mem_cons_of_mem _ (rest.named t.2 m hm)
  writable := by
    intro t
    split
    · exact rest.writable t.2
    · exact ⟨c.writable t.1, rest.writable t.2⟩
  put_enc := by
    intro strict t
    have htail := putMembers_cons name c rest hfresh strict (rest.enc t.2) (rest.named t.2)
    split
    · rename_i homit
      rw [htail, rest.put_enc, Option.map_some, ← homits t.1 homit]
    · simp only [putMembers, selectField_head, consPut, c.dec_enc, Option.map_some]
      rw [htail, rest.put_enc, Option.map_some]

/-- A field that is always written. -/
def field {α τ : Type} (name : String) (c : Codec α) (rest : Fields τ)
    (hfresh : name ∉ rest.names := by decide) : Fields (α × τ) :=
  cons name c (fun _ => false) (fun _ h => nomatch h) rest hfresh

/-- A field left out when it holds its zero value. -/
def optional {α τ : Type} [DecidableEq α] (name : String) (c : Codec α) (rest : Fields τ)
    (hfresh : name ∉ rest.names := by decide) : Fields (α × τ) :=
  cons name c (fun a => decide (a = c.zero)) (fun _ h => of_decide_eq_true h) rest hfresh

/-- A bound on a member and one on the rest bound them all. -/
theorem size_cons_le {α τ : Type} {name : String} {c : Codec α} {omits : α → Bool}
    {homits : ∀ a, omits a = true → a = c.zero} {rest : Fields τ} {hfresh : name ∉ rest.names}
    {t : α × τ} {k l : Nat} (hfirst : (c.enc t.1).size ≤ k)
    (hrest : Value.sizeMembers (rest.enc t.2) ≤ l) :
    Value.sizeMembers ((cons name c omits homits rest hfresh).enc t) ≤
      4 + 6 * name.utf8ByteSize + k + l := by
  unfold cons
  dsimp only
  split
  · omega
  · rw [Value.sizeMembers]
    omega

end Fields

/-- The codec of a struct, by its fields and the isomorphism to nested pairs. -/
def Codec.struct {ρ τ : Type} (fields : Fields τ) (unpack : ρ → τ) (pack : τ → ρ)
    (hpack : ∀ r, pack (unpack r) = r) (hunpack : ∀ t, unpack (pack t) = t) : Codec ρ where
  zero := pack fields.zero
  enc := fun r => .obj (fields.enc (unpack r))
  dec := fun strict old v =>
    match v with
    | .null => some old
    | .obj members =>
      (putMembers fields.names (fields.put strict) strict (unpack old) members).map pack
    | _ => none
  writable := fun r => fields.writable (unpack r)
  dec_enc := by
    intro strict r
    simp [hunpack, fields.put_enc, hpack]

/-! ## Whole texts -/

/-- What an encoder writes. -/
def Codec.marshal {α : Type} (c : Codec α) (a : α) : Bytes := (c.enc a).print

/-- Decode one value, nothing but white space after it. -/
def Codec.unmarshal {α : Type} (c : Codec α) (strict : Bool) (input : Bytes) : Option α :=
  (parse input).bind (c.dec strict c.zero)

/-- **What is written is read back**, in strict mode or not. -/
theorem Codec.unmarshal_marshal (c : Codec α) (strict : Bool) (a : α) :
    c.unmarshal strict (c.marshal a) = some a := by
  rw [Codec.unmarshal, Codec.marshal, parse_print (c.writable a), Option.bind_some, c.dec_enc]

theorem Codec.unmarshal_marshal_line (c : Codec α) (strict : Bool) (a : α) :
    c.unmarshal strict (c.marshal a ++ [0x0a]) = some a := by
  rw [Codec.unmarshal, Codec.marshal, parse_print_line (c.writable a), Option.bind_some, c.dec_enc]

theorem Codec.marshal_injective (c : Codec α) {a b : α}
    (h : c.marshal a = c.marshal b) : a = b := by
  have ha := c.unmarshal_marshal true a
  rw [h, c.unmarshal_marshal] at ha
  exact (Option.some.inj ha).symm

/-- **A struct's text that lost some of its end is not read at all.** -/
theorem Codec.unmarshal_truncated {ρ τ : Type} (fields : Fields τ) (unpack : ρ → τ)
    (pack : τ → ρ) (hpack : ∀ r, pack (unpack r) = r) (hunpack : ∀ t, unpack (pack t) = t)
    (strict : Bool) {r : ρ} {kept lost : Bytes}
    (htext : (Codec.struct fields unpack pack hpack hunpack).marshal r = kept ++ lost)
    (hlost : lost ≠ []) :
    (Codec.struct fields unpack pack hpack hunpack).unmarshal strict kept = none := by
  rw [Codec.unmarshal, parse_truncated (fields.writable (unpack r)) htext hlost]
  rfl

end TosAi.Foundation.Json
