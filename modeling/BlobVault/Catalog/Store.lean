import BlobVault.Catalog.Record
import BlobVault.DataKey
import BlobVault.KeyRing
import BlobVault.OrderedMap

/-!
# The catalog

The catalog holds the records of blobs, volumes and scrub jobs, and the envelopes of the data
keys.  An operation that fails changes nothing: the three operations that write blob records
answer either a fault or the next catalog.

* `Catalog.create`: a new record and the counters of its volume, together.
* `Catalog.confirm`: a replica is recorded once, however often it is confirmed.
* `Catalog.commit`: the volumes still wanted, for all named blobs or for none.
-/

namespace BlobVault

/-- Records, keys and jobs. -/
structure Catalog where
  records : OrderedMap Ref BlobRecord
  volumes : OrderedMap VolumeId Volume
  /-- For each collection, the identifier of the data key of its new blobs. -/
  collections : OrderedMap String String
  envelopes : OrderedMap String Envelope
  jobs : OrderedMap Uuid ScrubJob

namespace Catalog

/-- The catalog that knows nothing. -/
def empty : Catalog := ⟨.empty, .empty, .empty, .empty, .empty⟩

/-- The name of this kind of catalog. -/
def kind : String := "in-memory"

/-! ### Volumes and collections -/

/-- Adds a volume, replacing one of the same number. -/
def addVolume (c : Catalog) (v : Volume) : Catalog :=
  { c with volumes := c.volumes.insert v.id v }

/-- Looks a volume up. -/
def findVolume (c : Catalog) (id : VolumeId) : Except CatalogFault Volume :=
  match c.volumes.get? id with
  | some v => .ok v
  | none => .error (.notFound (.volume id))

/-- Adds an envelope and makes it the one for new blobs of a collection.  Older envelopes stay. -/
def addCollection (c : Catalog) (name : String) (e : Envelope) : Catalog :=
  { c with
    collections := c.collections.insert name e.keyId
    envelopes := c.envelopes.insert e.keyId e }

/-- The data key of an identifier, unwrapped by the ring. -/
def resolveKey (c : Catalog) (keyId : String) (ring : KeyRing) :
    Except CatalogFault DataKey × KeyRing :=
  match c.envelopes.get? keyId with
  | none => (.error (.keyResolution (.noEnvelope keyId)), ring)
  | some e =>
    match ring.unwrap e with
    | (.error fault, ring) => (.error (.keyResolution (.ring fault)), ring)
    | (.ok key, ring) =>
      if h : isKeyLength key.length = true then (.ok ⟨keyId, key, h⟩, ring)
      else (.error (.keyResolution (.badLength key.length)), ring)

/-- The data key for new blobs of a collection. -/
def keyForNew (c : Catalog) (collection : String) (ring : KeyRing) :
    Except CatalogFault DataKey × KeyRing :=
  match c.collections.get? collection with
  | none => (.error (.notFound (.collection collection)), ring)
  | some keyId => c.resolveKey keyId ring

/-! ### Blob records -/

/-- There is a record of the blob. -/
def hasRecord (c : Catalog) (r : Ref) : Bool := c.records.contains r

/-- Looks a record up. -/
def findRecord (c : Catalog) (r : Ref) : Except CatalogFault BlobRecord :=
  match c.records.get? r with
  | some b => .ok b
  | none => .error (.notFound (.blob r))

/-- Looks a record up together with the key that the blob is encrypted under. -/
def findBlob (c : Catalog) (r : Ref) (ring : KeyRing) :
    Except CatalogFault (BlobRecord × DataKey) × KeyRing :=
  match c.findRecord r with
  | .error fault => (.error fault, ring)
  | .ok b =>
    match c.resolveKey b.keyId ring with
    | (.error fault, ring) => (.error fault, ring)
    | (.ok key, ring) => (.ok (b, key), ring)

/-- The checksum of a blob's ciphertext. -/
def checksumOf (c : Catalog) (r : Ref) : Except CatalogFault UInt32 :=
  match c.findRecord r with
  | .ok b => .ok b.crc32
  | .error fault => .error fault

end Catalog

/-- A volume that holds one more blob. -/
def Volume.holding (v : Volume) (b : BlobRecord) : Volume :=
  { v with blobCount := v.blobCount + 1, blobSizeTotal := v.blobSizeTotal + b.sizeOnDisk }

namespace BlobRecord

/-- The volume no longer waits for a copy. -/
def arrived (b : BlobRecord) (id : VolumeId) : BlobRecord :=
  { b with pending := b.pending.filter (· != id) }

/-- The volume is listed, at the end if it was not. -/
def listed (b : BlobRecord) (id : VolumeId) : BlobRecord :=
  if b.isOn id then b else { b with volumes := b.volumes ++ [id] }

/-- A commit has referred to the blob and wants it on these volumes. -/
def committed (b : BlobRecord) (desired : List VolumeId) : BlobRecord :=
  { b with referenced := true, pending := desired.filter fun id => !b.isOn id }

end BlobRecord

namespace Catalog

/-- Records a new blob on a volume, and counts it there. -/
def create (c : Catalog) (b : BlobRecord) (id : VolumeId) : Except CatalogFault Catalog :=
  if c.hasRecord b.ref then .error (.alreadyExists (.blob b.ref))
  else
    match c.findVolume id with
    | .error fault => .error fault
    | .ok v =>
      .ok { c with
        records := c.records.insert b.ref ((b.arrived id).listed id)
        volumes := c.volumes.insert id (v.holding b) }

/-- Records a copy of a blob on a volume.  A copy that is already recorded is not counted again. -/
def confirm (c : Catalog) (r : Ref) (id : VolumeId) : Except CatalogFault Catalog :=
  match c.findRecord r with
  | .error fault => .error fault
  | .ok b =>
    match c.findVolume id with
    | .error fault => .error fault
    | .ok v =>
      .ok { c with
        records := c.records.insert r ((b.arrived id).listed id)
        volumes := if b.isOn id then c.volumes else c.volumes.insert id (v.holding b) }

/-- Marks blobs as referred to and notes the volumes that they are still wanted on.  If a blob is
unknown, the first such one is named and nothing changes. -/
def commit (c : Catalog) (refs : List Ref) (desired : List VolumeId) :
    Except CatalogFault Catalog :=
  match refs.find? fun r => !c.hasRecord r with
  | some r => .error (.notFound (.blob r))
  | none =>
    .ok { c with
      records := refs.foldl (fun records r => records.modify r (·.committed desired)) c.records }

/-- The first records, in the order of their references, that some volume still waits for. -/
def pendingRecords (c : Catalog) (limit : Nat) : List BlobRecord :=
  (c.records.values.filter fun b => !b.pending.isEmpty).take limit

/-- The first records, in the order of their references, after a cursor. -/
def recordsAfter (c : Catalog) (cursor : Option Ref) (limit : Nat) : List BlobRecord :=
  ((c.records.after cursor).map (·.2)).take limit

/-! ### Scrub jobs -/

/-- Looks a job up. -/
def findJob (c : Catalog) (id : Uuid) : Except CatalogFault ScrubJob :=
  match c.jobs.get? id with
  | some j => .ok j
  | none => .error (.notFound (.scrubJob id))

/-- Saves the progress of a job. -/
def saveJob (c : Catalog) (j : ScrubJob) : Catalog := { c with jobs := c.jobs.insert j.id j }

end Catalog

end BlobVault
