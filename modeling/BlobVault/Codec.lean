import BlobVault.DataKey
import BlobVault.Gzip.Member

/-!
# The stored form of a blob

A blob is compressed if that saves more than a tenth of it, then encrypted under its own
keystream; the checksum of the result goes into its record.  Decoding reverses this and checks
the reference of the outcome, so it never gives bytes that do not belong to the reference.
-/

namespace BlobVault

/-- The stored form of a blob. -/
structure Encoded where
  ciphertext : Bytes
  isCompressed : Bool
  crc32 : UInt32

namespace Codec

/-- The compressed form is kept: it takes less than nine tenths of the plain form.  The lengths are
compared exactly.  Their quotient in double precision gives the same answer for plain forms of up to
`2 ^ 51` bytes, which is more than can be held in memory (`Codec.worthwhile_iff`). -/
def worthwhile (plain compressed : Bytes) : Bool :=
  !plain.isEmpty && decide (10 * compressed.length < 9 * plain.length)

/-- The compressed form of a plain text, if it is worth keeping. -/
def compress? (plain : Bytes) : Option Bytes :=
  let compressed := Gzip.gzip plain
  if worthwhile plain compressed then some compressed else none

/-- The stored form of a plain text; the hint says whether compression is worth a try. -/
def encode (r : Ref) (plain : Bytes) (key : DataKey) (hint : Bool) : Encoded :=
  let compressed? := if hint then compress? plain else none
  let ciphertext := key.apply r (compressed?.getD plain)
  ⟨ciphertext, compressed?.isSome, Crc32.ofBytes ciphertext⟩

/-- Expands a decrypted form. -/
def expand (r : Ref) (decrypted : Bytes) (isCompressed : Bool) : Except Fault Bytes :=
  if isCompressed then
    match Gzip.gunzip decrypted with
    | .ok plain => .ok plain
    | .error why => .error (.integrity (.compressed r why.message))
  else .ok decrypted

/-- The plain text of a ciphertext, if it is the content of the reference. -/
def decode (r : Ref) (ciphertext : Bytes) (key : DataKey) (isCompressed : Bool) :
    Except Fault Bytes :=
  match expand r (key.apply r ciphertext) isCompressed with
  | .error fault => .error fault
  | .ok plain =>
    let actual := Ref.ofContent plain
    if actual = r then .ok plain
    else .error (.integrity (.digest ⟨.sha256, r.toHex, actual.toHex⟩))

end Codec

end BlobVault
