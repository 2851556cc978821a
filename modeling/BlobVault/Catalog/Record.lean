import BlobVault.Fault
import BlobVault.Timestamp

/-!
# Records

What the catalog keeps: volumes with their counters, one record for each stored blob, and the
progress of scrub jobs.  Sizes and counters are numbers of bytes and of blobs.  A node has 64 bits
for each of them; that none of them ever outgrows its 64 bits is assumed throughout, so that they
are natural numbers here and no sum wraps around.
-/

namespace BlobVault

/-- A place for blobs, with counters of what it holds. -/
structure Volume where
  id : VolumeId
  uuid : Uuid
  label : String
  /-- The most bytes it may hold; zero means no limit. -/
  quota : Nat
  blobCount : Nat
  blobSizeTotal : Nat
  deriving DecidableEq

/-- What is known of one stored blob. -/
structure BlobRecord where
  ref : Ref
  /-- The data key that it is encrypted under. -/
  keyId : String
  /-- The volumes that hold a confirmed copy. -/
  volumes : List VolumeId
  /-- The volumes that still want a copy. -/
  pending : List VolumeId
  /-- A commit has referred to it. -/
  referenced : Bool
  isCompressed : Bool
  /-- The length of the plain text. -/
  size : Nat
  /-- The length of the ciphertext. -/
  sizeOnDisk : Nat
  /-- The checksum of the ciphertext. -/
  crc32 : UInt32
  deriving DecidableEq

/-- The blob has a confirmed copy on a volume. -/
def BlobRecord.isOn (b : BlobRecord) (id : VolumeId) : Bool := b.volumes.contains id

/-- A scrub of one volume that can be taken up again after its cursor. -/
structure ScrubJob where
  id : Uuid
  volumeId : VolumeId
  /-- The last reference that has been dealt with. -/
  cursor : Option Ref
  bytesScanned : Nat
  errorsFound : Nat
  report : String
  started : Timestamp
  completed : Option Timestamp
  deriving DecidableEq

namespace ScrubJob

/-- A job that has not scanned anything. -/
def fresh (id : Uuid) (volumeId : VolumeId) (now : Timestamp) : ScrubJob :=
  { id := id, volumeId := volumeId, cursor := none, bytesScanned := 0, errorsFound := 0,
    report := "", started := now, completed := none }

/-- The job will not be taken up again. -/
def isCompleted (j : ScrubJob) : Bool := j.completed.isSome

end ScrubJob

/-- How the storage behind a volume is reached. -/
inductive BackendSetup where
  /-- Files under a folder. -/
  | folder (path : String)
  /-- Memory, with a routing cost. -/
  | memory (cost : Nat)
  deriving DecidableEq, Repr

/-- The routing cost of local storage. -/
def localCost : Nat := 10

/-- The routing cost of a backend. -/
def BackendSetup.cost : BackendSetup → Nat
  | folder _ => localCost
  | memory cost => cost

/-- Binds a volume to the node that drives it. -/
structure Mount where
  volumeId : VolumeId
  node : String
  backend : BackendSetup
  deriving DecidableEq, Repr

/-- One recipient's copy of a wrapped data key. -/
structure Slot where
  fingerprint : String
  wrapped : Bytes
  deriving DecidableEq, Repr

/-- A data key wrapped for each of its recipients. -/
structure Envelope where
  keyId : String
  slots : List Slot
  deriving DecidableEq, Repr

/-- What a volume says of itself. -/
structure Descriptor where
  uuid : Uuid
  deriving DecidableEq

end BlobVault
