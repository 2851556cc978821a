import BlobVault.Codec
import BlobVault.Vault.Basic
import BlobVault.Verified

/-!
# Transfers

Fetching, replicating and scrubbing a blob all read its ciphertext from a volume and check it
against the recorded checksum.  Each begins with what it needs to know, then waits for the
backend, and finishes with the backend's answer, whatever that is.  Only fetching needs a key.

* `Fetch.finish`: a plain text is returned only if it is the content of the reference.
* `Copy.finish`: the target keeps the ciphertext only if its checksum is right.
* `Check.finish`: the number of bytes, if their checksum is right.
-/

namespace BlobVault

/-- A fetch that knows its record and key. -/
structure Fetch where
  backend : BackendId
  /-- The reference that was asked for. -/
  ref : Ref
  record : BlobRecord
  key : DataKey

/-- A replication that knows its backends and checksum. -/
structure Copy where
  source : BackendId
  target : BackendId
  /-- The volume that the target is mounted as. -/
  volume : VolumeId
  ref : Ref
  crc32 : UInt32

/-- A scrub of one blob that knows its backend and checksum. -/
structure Check where
  backend : BackendId
  ref : Ref
  crc32 : UInt32

/-- All bytes of an answer, if their checksum is right. -/
def checked (crc32 : UInt32) (answer : Except Fault Stream) : Except Fault Bytes :=
  match answer with
  | .error fault => .error fault
  | .ok s =>
    match (VerifiedStream.ofCrc32 s crc32).content with
    | .ok bs => .ok bs
    | .error fault => .error (.ofIo fault)

/-- The plain text. -/
def Fetch.finish (f : Fetch) (answer : Except Fault Stream) : Except Fault Bytes :=
  match checked f.record.crc32 answer with
  | .error fault => .error fault
  | .ok ciphertext => Codec.decode f.ref ciphertext f.key f.record.isCompressed

/-- The number of bytes. -/
def Check.finish (c : Check) (answer : Except Fault Stream) : Except Fault Nat :=
  match checked c.crc32 answer with
  | .error fault => .error fault
  | .ok bs => .ok bs.length

/-- Stores the answer on the target and confirms the copy. -/
def Copy.finish (c : Copy) (answer : Except Fault Stream) (v : Vault) : Except Fault Unit × Vault :=
  match answer with
  | .error fault => (.error fault, v)
  | .ok s =>
    match v.rawStore c.target c.ref (VerifiedStream.ofCrc32 s c.crc32).toStream with
    | (.error fault, v) => (.error fault, v)
    | (.ok (), v) =>
      match v.catalog.confirm c.ref c.volume with
      | .error fault => (.error (.ofCatalog fault), v)
      | .ok catalog => (.ok (), { v with catalog := catalog })

namespace Vault

/-- Sets out to fetch a blob from a volume. -/
def beginFetch (v : Vault) (r : Ref) (volume : VolumeId) : Except Fault Fetch × Vault :=
  match v.backendOf volume with
  | .error fault => (.error fault, v)
  | .ok b =>
    match v.catalog.findBlob r v.ring with
    | (.error fault, ring) => (.error (.ofCatalog fault), { v with ring := ring })
    | (.ok (record, key), ring) => (.ok ⟨b, r, record, key⟩, { v with ring := ring })

/-- Sets out to copy a blob from a volume to another. -/
def beginCopy (v : Vault) (source target : VolumeId) (r : Ref) : Except Fault Copy :=
  match v.backendOf source with
  | .error fault => .error fault
  | .ok sourceBackend =>
    match v.backendOf target with
    | .error fault => .error fault
    | .ok targetBackend =>
      match v.catalog.checksumOf r with
      | .error fault => .error (.ofCatalog fault)
      | .ok crc32 => .ok ⟨sourceBackend, targetBackend, target, r, crc32⟩

/-- Sets out to check a blob on a volume. -/
def beginCheck (v : Vault) (r : Ref) (volume : VolumeId) : Except Fault Check :=
  match v.backendOf volume with
  | .error fault => .error fault
  | .ok b =>
    match v.catalog.checksumOf r with
    | .error fault => .error (.ofCatalog fault)
    | .ok crc32 => .ok ⟨b, r, crc32⟩

/-- Reads, verifies and decodes a blob. -/
def fetch (v : Vault) (r : Ref) (volume : VolumeId) : Except Fault Bytes × Vault :=
  match v.beginFetch r volume with
  | (.error fault, v) => (.error fault, v)
  | (.ok f, v) =>
    let (answer, v) := v.rawFetch f.backend r
    (f.finish answer, v)

/-- Copies the ciphertext of a blob to another volume. -/
def replicate (v : Vault) (source target : VolumeId) (r : Ref) : Except Fault Unit × Vault :=
  match v.beginCopy source target r with
  | .error fault => (.error fault, v)
  | .ok c =>
    let (answer, v) := v.rawFetch c.source r
    c.finish answer v

/-- Checks the ciphertext of a blob and counts its bytes. -/
def scrub (v : Vault) (r : Ref) (volume : VolumeId) : Except Fault Nat × Vault :=
  match v.beginCheck r volume with
  | .error fault => (.error fault, v)
  | .ok c =>
    let (answer, v) := v.rawFetch c.backend r
    (c.finish answer, v)

end Vault

end BlobVault
