import BlobVault.Digest.Crc32
import BlobVault.Gzip.Deflate
import BlobVault.Gzip.Inflate

/-!
# The gzip container

Compressed data stands between a header and a trailer with the checksum and the size of what it
expands to.  `gzip` writes a header without name, time or comment; `gunzip` reads any header, one
member only, and ignores what follows it.
-/

namespace BlobVault.Gzip

/-- Why a gzip member cannot be read. -/
inductive Fault where
  /-- The member ends inside its header or trailer. -/
  | truncated
  | badHeader
  | fieldTooLong
  /-- The checksum or the size does not match. -/
  | badChecksum
  | body (fault : InflateFault)
  deriving DecidableEq, Repr

/-- The text of a fault. -/
def Fault.message : Fault → String
  | .truncated => "unexpected end of file"
  | .badHeader => "invalid gzip header"
  | .fieldTooLong => "gzip header field too long"
  | .badChecksum => "corrupt gzip stream does not have a matching checksum"
  | .body .truncated => "incomplete deflate stream"
  | .body .corrupt => "corrupt deflate stream"

/-- The header that `gzip` writes: the deflate method, no flags, no time, and an unknown
system. -/
def plainHeader : Bytes := [0x1f, 0x8b, 8, 0, 0, 0, 0, 0, 0, 0xff]

/-- The compressed form of a byte string. -/
def gzip (plain : Bytes) : Bytes :=
  plainHeader ++ (deflate plain.toArray).toList
    ++ (Bytes.ofNatLE 4 (Crc32.ofBytes plain).toNat ++ Bytes.ofNatLE 4 plain.length)

/-- The two bytes at a position, lowest first. -/
def wordAt (bs : Bytes) (pos : Nat) : Nat := Bytes.toNatLE ((bs.drop pos).take 2)

/-- Skips an optional field that ends with a zero byte. -/
def skipText (bs : Bytes) (wanted : Bool) (pos : Nat) : Except Fault Nat :=
  if !wanted then .ok pos
  else
    let text := (bs.drop pos).takeWhile (· ≠ 0)
    if text.length > 65535 then .error .fieldTooLong
    else if pos + text.length < bs.length then .ok (pos + text.length + 1)
    else .error .truncated

/-- Skips the optional field of any bytes. -/
def skipExtra (bs : Bytes) (wanted : Bool) (pos : Nat) : Except Fault Nat :=
  if !wanted then .ok pos
  else if bs.length < pos + 2 then .error .truncated
  else
    let stop := pos + 2 + wordAt bs pos
    if bs.length < stop then .error .truncated else .ok stop

/-- Checks the optional checksum of the header. -/
def skipCheck (bs : Bytes) (wanted : Bool) (pos : Nat) : Except Fault Nat :=
  if !wanted then .ok pos
  else if bs.length < pos + 2 then .error .truncated
  else if wordAt bs pos = (Crc32.ofBytes (bs.take pos)).toNat % 65536 then .ok (pos + 2)
  else .error .badChecksum

/-- The length of the header. -/
def headerLength (bs : Bytes) : Except Fault Nat :=
  match bs with
  | m0 :: m1 :: method :: flags :: _ :: _ :: _ :: _ :: _ :: _ :: _ =>
    if m0 ≠ 0x1f ∨ m1 ≠ 0x8b ∨ method ≠ 8 ∨ flags &&& 0xE0 ≠ 0 then .error .badHeader
    else do
      let pos ← skipExtra bs (flags &&& 4 ≠ 0) 10
      let pos ← skipText bs (flags &&& 8 ≠ 0) pos
      let pos ← skipText bs (flags &&& 16 ≠ 0) pos
      skipCheck bs (flags &&& 2 ≠ 0) pos
  | _ => .error .truncated

/-- Expands the first member of a byte string. -/
def gunzip (bs : Bytes) : Except Fault Bytes := do
  let start ← headerLength bs
  match inflate bs.toArray start with
  | .error fault => .error (.body fault)
  | .ok (plain, stop) =>
    let trailer := (bs.drop stop).take 8
    let plain := plain.toList
    if trailer.length < 8 then .error .truncated
    else if Bytes.toNatLE (trailer.take 4) = (Crc32.ofBytes plain).toNat
        ∧ Bytes.toNatLE (trailer.drop 4) = plain.length % Nat.pow 2 32 then .ok plain
    else .error .badChecksum

end BlobVault.Gzip
