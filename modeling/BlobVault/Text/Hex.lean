import BlobVault.Bytes

/-!
# Hexadecimal text

Bytes are written with two lower-case digits each and read in either case.  A text that cannot
be read has one of two faults: an odd number of digits, or a first character that is no digit.
-/

namespace BlobVault.Hex

/-- Why a text is not the hexadecimal form of a byte string. -/
inductive Fault where
  /-- The digits do not come in pairs. -/
  | oddLength
  /-- The character at this position is not a hexadecimal digit. -/
  | badDigit (c : Char) (position : Nat)
  deriving DecidableEq, Repr

/-- The lower-case digit of a number below sixteen. -/
def digit (n : Nat) : Char :=
  if n < 10 then Char.ofNat (48 + n) else Char.ofNat (87 + n)

/-- The value of a digit of either case. -/
def value? (c : Char) : Option Nat :=
  let n := c.toNat
  if 48 ≤ n ∧ n ≤ 57 then some (n - 48)
  else if 97 ≤ n ∧ n ≤ 102 then some (n - 87)
  else if 65 ≤ n ∧ n ≤ 70 then some (n - 55)
  else none

/-- The digits of a byte string. -/
def digits (bs : Bytes) : List Char :=
  bs.flatMap fun b => [digit (b.toNat / 16), digit (b.toNat % 16)]

/-- The lower-case hexadecimal text of a byte string. -/
def encode (bs : Bytes) : String := String.ofList (digits bs)

/-- Reads pairs of digits; `position` is the number of characters already read. -/
def decodePairs (position : Nat) : List Char → Except Fault Bytes
  | [] => .ok []
  | [_] => .error .oddLength
  | hi :: lo :: rest =>
    match value? hi, value? lo with
    | none, _ => .error (.badDigit hi position)
    | some _, none => .error (.badDigit lo (position + 1))
    | some h, some l =>
      match decodePairs (position + 2) rest with
      | .ok bs => .ok (UInt8.ofNat (16 * h + l) :: bs)
      | .error e => .error e

/-- Reads a hexadecimal text.  An odd length is noticed before any bad digit. -/
def decode (cs : List Char) : Except Fault Bytes :=
  if cs.length % 2 = 1 then .error .oddLength else decodePairs 0 cs

/-- Reads a hexadecimal text, forgetting what is wrong with one that cannot be read. -/
def decode? (cs : List Char) : Option Bytes :=
  match decode cs with
  | .ok bs => some bs
  | .error _ => none

@[simp] theorem length_digits (bs : Bytes) : (digits bs).length = 2 * bs.length := by
  induction bs with
  | nil => rfl
  | cons b bs ih => simp_all [digits]; omega

/-- The eight lower-case digits of a 32-bit word. -/
def ofWord (w : UInt32) : String := encode (Bytes.ofNatBE 4 w.toNat)

end BlobVault.Hex
