import BlobVault.Bytes

/-!
# CRC-32

The checksum of stored bytes: the reflected polynomial `0xEDB88320`, with a register that starts
with all bits set and is inverted at the end.  `Crc32.ofBytes` is the checksum of a whole byte
string, `Crc32.feed` moves a register on by one piece of it.
-/

namespace BlobVault.Crc32

/-- Moves the register on by one bit. -/
def shift (r : UInt32) : UInt32 :=
  if r &&& 1 = 1 then (r >>> 1) ^^^ 0xEDB88320 else r >>> 1

/-- Moves the register on by one byte. -/
def step (r : UInt32) (b : UInt8) : UInt32 :=
  shift (shift (shift (shift (shift (shift (shift (shift (r ^^^ b.toUInt32))))))))

/-- The register before the first byte. -/
def start : UInt32 := 0xFFFFFFFF

/-- Moves the register on by a piece of the input. -/
def feed (r : UInt32) (piece : Bytes) : UInt32 := piece.foldl step r

/-- The checksum that a register stands for. -/
def finish (r : UInt32) : UInt32 := r ^^^ 0xFFFFFFFF

/-- The checksum of a byte string. -/
def ofBytes (bs : Bytes) : UInt32 := finish (feed start bs)

theorem feed_append (r : UInt32) (xs ys : Bytes) : feed r (xs ++ ys) = feed (feed r xs) ys := by
  simp [feed]

end BlobVault.Crc32
