import BlobVault.Bytes

/-!
# Base64

Three bytes are written as four characters of an alphabet of 64; the last group is filled up with
equals signs.
-/

namespace BlobVault.Base64

/-- The value of a character of the alphabet. -/
def value? (c : Char) : Option Nat :=
  let n := c.toNat
  if 65 ≤ n ∧ n ≤ 90 then some (n - 65)
  else if 97 ≤ n ∧ n ≤ 122 then some (n - 71)
  else if 48 ≤ n ∧ n ≤ 57 then some (n + 4)
  else if c = '+' then some 62
  else if c = '/' then some 63
  else none

/-- The bytes of a text; nothing may follow a filled-up group. -/
def decode? : List Char → Option Bytes
  | [] => some []
  | a :: b :: '=' :: '=' :: rest => do
    let a ← value? a
    let b ← value? b
    if rest.isEmpty then some [UInt8.ofNat (4 * a + b / 16)] else none
  | a :: b :: c :: '=' :: rest => do
    let a ← value? a
    let b ← value? b
    let c ← value? c
    if rest.isEmpty then some [UInt8.ofNat (4 * a + b / 16), UInt8.ofNat (16 * b + c / 4)] else none
  | a :: b :: c :: d :: rest => do
    let a ← value? a
    let b ← value? b
    let c ← value? c
    let d ← value? d
    let bs ← decode? rest
    some (UInt8.ofNat (4 * a + b / 16) :: UInt8.ofNat (16 * b + c / 4) :: UInt8.ofNat (64 * c + d)
      :: bs)
  | _ => none

end BlobVault.Base64
