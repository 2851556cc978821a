import BlobVault.Bytes
import BlobVault.Text.Hex
import BlobVault.Text.Quoted

/-!
# UUIDs

Volumes and scrub jobs carry a 128-bit identifier.  It is written in the hyphenated form and read
in four forms: hyphenated, 32 plain digits, either of them in braces for the hyphenated form, and
with the `urn:uuid:` scheme.
-/

namespace BlobVault

/-- A 128-bit identifier. -/
structure Uuid where
  bits : BitVec 128
  deriving DecidableEq

namespace Uuid

/-- Identifiers are ordered as numbers, which is the order of their bytes. -/
instance : Ord Uuid := ⟨fun u v => compare u.bits v.bits⟩

instance : Std.TransOrd Uuid where
  eq_swap {u v} := @Std.OrientedCmp.eq_swap (BitVec 128) compare _ u.bits v.bits
  isLE_trans {u v w} h₁ h₂ :=
    @Std.TransCmp.isLE_trans (BitVec 128) compare _ u.bits v.bits w.bits h₁ h₂

instance : Std.LawfulEqOrd Uuid where
  compare_self {u} := @Std.ReflCmp.compare_self (BitVec 128) compare _ u.bits
  eq_of_compare {u v} h := by
    cases u; cases v; exact congrArg Uuid.mk (Std.LawfulEqOrd.eq_of_compare (α := BitVec 128) h)

instance : Inhabited Uuid := ⟨⟨0⟩⟩

/-- The identifier of a byte string's number. -/
def ofBytes (bs : Bytes) : Uuid := ⟨BitVec.ofNat 128 (Bytes.toNatBE bs)⟩

/-- The sixteen bytes of an identifier. -/
def toBytes (u : Uuid) : Bytes := Bytes.ofNatBE 16 u.bits.toNat

/-- A random identifier (version 4, variant 1) made of sixteen random bytes. -/
def ofRandom (bs : Bytes) : Uuid :=
  let n := BitVec.ofNat 128 (Bytes.toNatBE bs)
  let version := (n &&& ~~~(0xF000#128 <<< 64)) ||| (0x4000#128 <<< 64)
  ⟨(version &&& ~~~(0xC000#128 <<< 48)) ||| (0x8000#128 <<< 48)⟩

/-- The hyphenated lower-case text. -/
def toText (u : Uuid) : String :=
  let ds := Hex.digits u.toBytes
  String.ofList (ds.take 8 ++ '-' :: (ds.drop 8).take 4 ++ '-' :: (ds.drop 12).take 4
    ++ '-' :: (ds.drop 16).take 4 ++ '-' :: ds.drop 20)

/-! ### Reading -/

/-- Why a text is not an identifier. -/
inductive ReadFault where
  /-- The character at this position cannot occur. -/
  | badChar (c : Char) (position : Nat)
  /-- A text without hyphens has the wrong number of digits. -/
  | badLength (length : Nat)
  /-- There are not five groups of digits. -/
  | badGroupCount (count : Nat)
  /-- A group has the wrong number of digits. -/
  | badGroup (group expected found : Nat)
  deriving DecidableEq, Repr

/-- The text of a fault. -/
def ReadFault.message : ReadFault → String
  | .badChar c position =>
    "invalid character: found `" ++ c.toString ++ "` at " ++ toString position
  | .badLength length => "invalid length: found " ++ toString length
  | .badGroupCount count => "invalid group count: expected 5, found " ++ toString count
  | .badGroup group expected found =>
    "invalid group length in group " ++ toString group ++ ": expected " ++ toString expected
      ++ ", found " ++ toString found

/-- The number that hexadecimal digits denote. -/
def valueOf? (ds : List Char) : Option Nat :=
  ds.foldl (fun n? c => do
    let n ← n?
    let d ← Hex.value? c
    pure (16 * n + d)) (some 0)

/-- Where the hyphens stand. -/
def hyphenPlaces : List Nat := [8, 13, 18, 23]

/-- Reads 36 characters with hyphens. -/
def ofHyphenated? (cs : List Char) : Option Nat :=
  if cs.length = 36 ∧ hyphenPlaces.all fun i => cs[i]? == some '-' then
    valueOf? (cs.take 8 ++ (cs.drop 9).take 4 ++ (cs.drop 14).take 4 ++ (cs.drop 19).take 4
      ++ cs.drop 24)
  else none

/-- The text without braces. -/
def unbraced? (cs : List Char) : Option (List Char) :=
  match cs, cs.getLast? with
  | '\x7b' :: rest, some '\x7d' => if rest.isEmpty then none else some rest.dropLast
  | _, _ => none

/-- The text without its scheme. -/
def afterScheme? (cs : List Char) : Option (List Char) :=
  let scheme := ['u', 'r', 'n', ':', 'u', 'u', 'i', 'd', ':']
  if cs.take 9 = scheme then some (cs.drop 9) else none

/-- The number of a well-formed text. -/
def number? (cs : List Char) : Option Nat :=
  if cs.length = 32 then valueOf? cs
  else
    match unbraced? cs with
    | some inner => ofHyphenated? inner
    | none =>
      match afterScheme? cs with
      | some rest => ofHyphenated? rest
      | none => ofHyphenated? cs

/-- The first character that cannot occur, at its position in bytes. -/
def badChar? (position : Nat) : List Char → Option ReadFault
  | [] => none
  | c :: cs =>
    if c = '-' ∨ (Hex.value? c).isSome then badChar? (position + 1) cs
    else some (.badChar c position)

/-- The first of the four groups from `group` on, starting at `start`, that has the wrong length;
`hyphens` are the places of the remaining hyphens. -/
def badGroup? (group start : Nat) : List (Nat × Nat) → Option ReadFault
  | [] => none
  | (found, due) :: rest =>
    if found = due then badGroup? (group + 1) (due + 1) rest
    else some (.badGroup group (due - start) (found - start))

/-- What is wrong with a text that is no identifier. -/
def faultOf (cs : List Char) : ReadFault :=
  let (inner, offset, bare) := match unbraced? cs, afterScheme? cs with
    | some inner, _ => (inner, 1, false)
    | none, some rest => (rest, 9, false)
    | none, none => (cs, 0, true)
  match badChar? offset inner with
  | some fault => fault
  | none =>
    let hyphens := (inner.zipIdx.filter (·.1 = '-')).map (·.2)
    if hyphens.isEmpty && bare then .badLength cs.length
    else if hyphens.length ≠ 4 then .badGroupCount (hyphens.length + 1)
    else
      match badGroup? 0 0 (hyphens.zip hyphenPlaces) with
      | some fault => fault
      | none => .badGroup 4 12 (cs.length - 24)

/-- Reads an identifier. -/
def ofText (s : String) : Except ReadFault Uuid :=
  match number? s.toList with
  | some n => .ok ⟨BitVec.ofNat 128 n⟩
  | none => .error (faultOf s.toList)

/-- Reads an identifier, forgetting what is wrong with a text that is none. -/
def ofText? (s : String) : Option Uuid := (ofText s).toOption

end Uuid

end BlobVault
