import BlobVault.Digest.Crc32
import BlobVault.Stream

/-!
# Verified streams

A verifier takes bytes as they pass and compares their digest with an expected one.  A verified
stream feeds a verifier and checks it at the end of the file; whatever comes out then is the
outcome of every later read.  Bytes are handed out before they are verified, so a reader must not
trust them before it has seen a clean end.
-/

namespace BlobVault

/-- A digest in progress and the value it should come to. -/
inductive Verifier where
  | sha256 (hasher : Sha256.Hasher) (expected : Ref)
  | crc32 (register : UInt32) (expected : UInt32)

namespace Verifier

/-- A verifier of a reference that has seen nothing. -/
def ofRef (expected : Ref) : Verifier := .sha256 .fresh expected

/-- A verifier of a checksum that has seen nothing. -/
def ofCrc32 (expected : UInt32) : Verifier := .crc32 Crc32.start expected

/-- Takes in some bytes. -/
def update (v : Verifier) (bs : Bytes) : Verifier :=
  match v with
  | .sha256 hasher expected => .sha256 (hasher.update bs) expected
  | .crc32 register expected => .crc32 (Crc32.feed register bs) expected

/-- The verifier that has seen nothing. -/
def restart : Verifier → Verifier
  | .sha256 _ expected => .ofRef expected
  | .crc32 _ expected => .ofCrc32 expected

/-- Compares the digest of everything taken in with the expected one. -/
def check : Verifier → Except Mismatch Unit
  | .sha256 hasher expected =>
    let actual := hasher.finish
    if actual = expected.bytes then .ok ()
    else .error ⟨.sha256, expected.toHex, Hex.encode actual⟩
  | .crc32 register expected =>
    let actual := Crc32.finish register
    if actual = expected then .ok () else .error ⟨.crc32, Hex.ofWord expected, Hex.ofWord actual⟩

/-- Checks the digest and starts over. -/
def verify (v : Verifier) : Except Mismatch Unit × Verifier := (v.check, v.restart)

end Verifier

/-- A stream whose bytes pass a verifier. -/
structure VerifiedStream where
  source : Stream
  verifier : Verifier
  /-- What the check at the end of the file came to, once it has been reached. -/
  outcome? : Option (Except Mismatch Unit)

namespace VerifiedStream

/-- Verifies a stream against a reference. -/
def ofRef (source : Stream) (expected : Ref) : VerifiedStream := ⟨source, .ofRef expected, none⟩

/-- Verifies a stream against a checksum. -/
def ofCrc32 (source : Stream) (expected : UInt32) : VerifiedStream :=
  ⟨source, .ofCrc32 expected, none⟩

/-- What a read gives once the outcome is known. -/
def settled : Except Mismatch Unit → Except IoFault Bytes
  | .ok () => .ok []
  | .error m => .error (.mismatch m)

/-- Checks the verifier and keeps the outcome. -/
def conclude (s : VerifiedStream) : Except Mismatch Unit × VerifiedStream :=
  let (outcome, verifier) := s.verifier.verify
  (outcome, { s with verifier := verifier, outcome? := some outcome })

/-- One read with room for `room` bytes. -/
def read (room : Nat) (s : VerifiedStream) : Except IoFault Bytes × VerifiedStream :=
  match s.outcome? with
  | some outcome => (settled outcome, s)
  | none =>
    let (answer, rest) := s.source.read room
    let s := { s with source := rest }
    match answer with
    | .error fault => (.error fault, s)
    | .ok bs =>
      if !bs.isEmpty then (.ok bs, { s with verifier := s.verifier.update bs })
      else if room = 0 then (.ok [], s)
      else
        let (outcome, s) := s.conclude
        (settled outcome, s)

/-- Reads to the end: the bytes that came, and the failure that ended it unless the end was clean
and the digest right. -/
def readAll (s : VerifiedStream) : Bytes × Option IoFault × VerifiedStream :=
  match s.outcome? with
  | some (.ok ()) => ([], none, s)
  | some (.error m) => ([], some (.mismatch m), s)
  | none =>
    let d := s.source.drain
    let s := { s with source := d.rest, verifier := s.verifier.update d.bytes }
    match d.fault? with
    | some fault => (d.bytes, some fault, s)
    | none =>
      match s.conclude with
      | (.ok (), s) => (d.bytes, none, s)
      | (.error m, s) => (d.bytes, some (.mismatch m), s)

/-- The whole content, if it ended cleanly with the right digest. -/
def content (s : VerifiedStream) : Except IoFault Bytes :=
  match s.readAll with
  | (bs, none, _) => .ok bs
  | (_, some fault, _) => .error fault

/-- The stream that a reader to the end sees: it fails at its end if the digest is wrong. -/
def toStream (s : VerifiedStream) : Stream := .ofParts s.readAll.1 s.readAll.2.1

end VerifiedStream

end BlobVault
