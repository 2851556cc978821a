/-!
# Byte strings

Stored objects, digests, keys and texts on the wire are all plain lists of bytes.  This module
fixes the type and the few shapes that every format shares: fixed-width integers in either byte
order, and the pointwise exclusive or.
-/

namespace BlobVault

/-- A byte string. -/
abbrev Bytes := List UInt8

namespace Bytes

/-- The low `width` bytes of `n`, most significant first. -/
def ofNatBE : Nat → Nat → Bytes
  | 0, _ => []
  | width + 1, n => UInt8.ofNat (n / Nat.pow 256 width) :: ofNatBE width n

/-- The low `width` bytes of `n`, least significant first. -/
def ofNatLE : Nat → Nat → Bytes
  | 0, _ => []
  | width + 1, n => UInt8.ofNat n :: ofNatLE width (n / 256)

/-- The number that a byte string denotes with its most significant byte first. -/
def toNatBE (bs : Bytes) : Nat :=
  bs.foldl (fun n b => n * 256 + b.toNat) 0

/-- The number that a byte string denotes with its least significant byte first. -/
def toNatLE (bs : Bytes) : Nat :=
  bs.foldr (fun b n => b.toNat + 256 * n) 0

/-- Pointwise exclusive or, as long as the shorter argument. -/
def xor (xs ys : Bytes) : Bytes :=
  List.zipWith (· ^^^ ·) xs ys

@[simp] theorem length_ofNatBE (width n : Nat) : (ofNatBE width n).length = width := by
  induction width with
  | zero => rfl
  | succ width ih => simp [ofNatBE, ih]

@[simp] theorem length_ofNatLE (width n : Nat) : (ofNatLE width n).length = width := by
  induction width generalizing n with
  | zero => rfl
  | succ width ih => simp [ofNatLE, ih]

@[simp] theorem length_xor (xs ys : Bytes) :
    (xor xs ys).length = min xs.length ys.length := by
  simp [xor]

end Bytes

end BlobVault
