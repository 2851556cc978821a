import BlobVault.Catalog.Record
import BlobVault.Document.Shape
import BlobVault.Json.Read
import BlobVault.Json.Write

/-!
# Records as documents

Each kind of record has a shape, a reader of data of that shape, and a JSON form.  References,
identifiers, keys and times are texts in documents.
-/

namespace BlobVault

/-! ### Texts with a form of their own -/

/-- The text of a reference. -/
def refShape : Plain :=
  .text "a string" fun s => if (Ref.ofHex? s).isSome then none else some (Ref.unreadable s)

/-- The text of an identifier. -/
def uuidShape : Plain :=
  .text "a formatted UUID string" fun s =>
    match Uuid.ofText s with
    | .ok _ => none
    | .error fault => some ("UUID parsing failed: " ++ fault.message)

/-- The text of a point in time. -/
def timeShape : Plain :=
  .text "an RFC 3339 formatted date and time string" fun s =>
    match Timestamp.ofText s with
    | .ok _ => none
    | .error fault => some fault.message

/-- Hexadecimal text byte by byte. -/
def hexText (s : String) : Except Hex.Fault Bytes :=
  Hex.decode ((Utf8.encode s).map fun b => Char.ofNat b.toNat)

/-- The complaint about a text that is not hexadecimal. -/
def hexWords : Hex.Fault → String
  | .oddLength => "Odd number of digits"
  | .badDigit c position =>
    "Invalid character " ++ Quoted.quoteChar c ++ " at position " ++ toString position

/-- The text of a byte string. -/
def hexShape : Plain :=
  .text "a string" fun s =>
    match hexText s with
    | .ok _ => none
    | .error fault => some (hexWords fault)

namespace Datum

/-- The text of a datum. -/
def text? : Datum → Option String
  | .text s => some s
  | _ => none

/-- The number of a datum. -/
def natural? : Datum → Option Nat
  | .natural n => some n
  | _ => none

/-- The truth value of a datum. -/
def boolean? : Datum → Option Bool
  | .boolean b => some b
  | _ => none

/-- The duration of a datum. -/
def duration? : Datum → Option Duration
  | .duration d => some d
  | _ => none

/-- The items of a datum. -/
def list? : Datum → Option (List Datum)
  | .list ds => some ds
  | _ => none

/-- The reference of a datum. -/
def ref? (d : Datum) : Option Ref := d.text?.bind Ref.ofHex?

/-- The identifier of a datum. -/
def uuid? (d : Datum) : Option Uuid := d.text?.bind Uuid.ofText?

/-- The point in time of a datum. -/
def time? (d : Datum) : Option Timestamp := d.text?.bind fun s => (Timestamp.ofText s).toOption

/-- The bytes of a datum. -/
def bytes? (d : Datum) : Option Bytes := d.text?.bind fun s => (hexText s).toOption

/-- The numbers of a datum. -/
def naturals? (d : Datum) : Option (List Nat) := d.list?.bind fun ds => ds.mapM natural?

/-- A datum that may be absent. -/
def optional? {α : Type} (read : Datum → Option α) : Datum → Option (Option α)
  | .absent => some none
  | d => (read d).map some

end Datum

/-- A field that must be there. -/
def required (name : String) (s : Shape) : Field Shape := ⟨name, s, .required⟩

/-- A field with a default. -/
def defaulted (name : String) (s : Shape) (d : Datum) : Field Shape := ⟨name, s, .default d⟩

/-- A list of volume numbers. -/
def volumeListShape : Shape := .list (.plain .nat32)

/-- A JSON list of numbers. -/
def naturalsJson (ns : List Nat) : Json.Value := .list (ns.map .natural)

/-! ### The kinds of record -/

namespace Volume

/-- The shape of a volume. -/
def shape : Shape :=
  .record "Volume"
    [ required "id" (.plain .nat32), required "uuid" (.plain uuidShape),
      required "label" (.plain .anyText), defaulted "quota" (.plain .nat64) (.natural 0),
      defaulted "blob_count" (.plain .nat64) (.natural 0),
      defaulted "blob_size_total" (.plain .nat64) (.natural 0) ]

/-- The volume that a datum holds. -/
def ofDatum? : Datum → Option Volume
  | .record [id, uuid, label, quota, count, total] => do
    pure ⟨← id.natural?, ← uuid.uuid?, ← label.text?, ← quota.natural?, ← count.natural?,
      ← total.natural?⟩
  | _ => none

/-- The JSON form of a volume. -/
def toJson (v : Volume) : Json.Value :=
  .object
    [ ("id", .natural v.id), ("uuid", .text v.uuid.toText), ("label", .text v.label),
      ("quota", .natural v.quota), ("blob_count", .natural v.blobCount),
      ("blob_size_total", .natural v.blobSizeTotal) ]

end Volume

namespace BlobRecord

/-- The shape of a blob record. -/
def shape : Shape :=
  .record "BlobMeta"
    [ required "blob_ref" (.plain refShape), required "encryption_key_id" (.plain .anyText),
      required "volumes" volumeListShape, required "volumes_pending_replication" volumeListShape,
      required "referenced" (.plain .boolean), required "is_compressed" (.plain .boolean),
      required "size" (.plain .nat64), required "size_on_disk" (.plain .nat64),
      required "crc32" (.plain .nat32) ]

/-- The record that a datum holds. -/
def ofDatum? : Datum → Option BlobRecord
  | .record [ref, keyId, volumes, pending, referenced, isCompressed, size, sizeOnDisk, crc32] => do
    pure ⟨← ref.ref?, ← keyId.text?, ← volumes.naturals?, ← pending.naturals?,
      ← referenced.boolean?, ← isCompressed.boolean?, ← size.natural?, ← sizeOnDisk.natural?,
      UInt32.ofNat (← crc32.natural?)⟩
  | _ => none

/-- The JSON form of a blob record. -/
def toJson (b : BlobRecord) : Json.Value :=
  .object
    [ ("blob_ref", .text b.ref.toHex), ("encryption_key_id", .text b.keyId),
      ("volumes", naturalsJson b.volumes), ("volumes_pending_replication", naturalsJson b.pending),
      ("referenced", .boolean b.referenced), ("is_compressed", .boolean b.isCompressed),
      ("size", .natural b.size), ("size_on_disk", .natural b.sizeOnDisk),
      ("crc32", .natural b.crc32.toNat) ]

end BlobRecord

namespace ScrubJob

/-- The shape of a scrub job. -/
def shape : Shape :=
  .record "IntegrityVerificationJob"
    [ required "id" (.plain uuidShape), required "volume_id" (.plain .nat32),
      ⟨"last_completed_blob_ref", .optional (.plain refShape), .optional⟩,
      required "bytes_scanned" (.plain .nat64), required "errors_found" (.plain .nat64),
      required "report" (.plain .anyText), required "started" (.plain timeShape),
      ⟨"completed", .optional (.plain timeShape), .optional⟩ ]

/-- The job that a datum holds. -/
def ofDatum? : Datum → Option ScrubJob
  | .record [id, volumeId, cursor, bytesScanned, errorsFound, report, started, completed] => do
    pure ⟨← id.uuid?, ← volumeId.natural?, ← cursor.optional? Datum.ref?, ← bytesScanned.natural?,
      ← errorsFound.natural?, ← report.text?, ← started.time?, ← completed.optional? Datum.time?⟩
  | _ => none

/-- A text, or null. -/
def optionalText : Option String → Json.Value
  | none => .null
  | some s => .text s

/-- The JSON form of a scrub job. -/
def toJson (j : ScrubJob) : Json.Value :=
  .object
    [ ("id", .text j.id.toText), ("volume_id", .natural j.volumeId),
      ("last_completed_blob_ref", optionalText (j.cursor.map Ref.toHex)),
      ("bytes_scanned", .natural j.bytesScanned), ("errors_found", .natural j.errorsFound),
      ("report", .text j.report), ("started", .text j.started.toText),
      ("completed", optionalText (j.completed.map Timestamp.toText)) ]

end ScrubJob

namespace BackendSetup

/-- The shape of a backend's setup. -/
def shape : Shape :=
  .tagged "DriverConfig" "type"
    [ ⟨"local", "DriverConfig::Local", [⟨"path", .text "path string" fun _ => none, .required⟩]⟩,
      ⟨"memory", "DriverConfig::Memory",
        [⟨"routing_cost", .nat32, .default (.natural localCost)⟩]⟩ ]

/-- The setup that a datum holds. -/
def ofDatum? : Datum → Option BackendSetup
  | .variant "local" [.text path] => some (.folder path)
  | .variant "memory" [.natural cost] => some (.memory cost)
  | _ => none

/-- The JSON form of a backend's setup. -/
def toJson : BackendSetup → Json.Value
  | folder path => .object [("type", .text "local"), ("path", .text path)]
  | memory cost => .object [("type", .text "memory"), ("routing_cost", .natural cost)]

end BackendSetup

namespace Mount

/-- The shape of a mount. -/
def shape : Shape :=
  .record "VolumeMount"
    [ required "volume_id" (.plain .nat32), required "node_id" (.plain .anyText),
      required "driver" BackendSetup.shape ]

/-- The mount that a datum holds. -/
def ofDatum? : Datum → Option Mount
  | .record [volumeId, node, backend] => do
    pure ⟨← volumeId.natural?, ← node.text?, ← BackendSetup.ofDatum? backend⟩
  | _ => none

/-- The JSON form of a mount. -/
def toJson (m : Mount) : Json.Value :=
  .object
    [("volume_id", .natural m.volumeId), ("node_id", .text m.node), ("driver", m.backend.toJson)]

end Mount

namespace Envelope

/-- The shape of a slot of an envelope. -/
def slotShape : Shape :=
  .record "KeySlot"
    [required "kek_fingerprint" (.plain .anyText), required "dek_encrypted" (.plain hexShape)]

/-- The shape of an envelope. -/
def shape : Shape :=
  .record "KeyEnvelope" [required "key_id" (.plain .anyText), required "slots" (.list slotShape)]

/-- The slot that a datum holds. -/
def slotOfDatum? : Datum → Option Slot
  | .record [fingerprint, wrapped] => do pure ⟨← fingerprint.text?, ← wrapped.bytes?⟩
  | _ => none

/-- The envelope that a datum holds. -/
def ofDatum? : Datum → Option Envelope
  | .record [keyId, .list slots] => do pure ⟨← keyId.text?, ← slots.mapM slotOfDatum?⟩
  | _ => none

/-- The JSON form of an envelope. -/
def toJson (e : Envelope) : Json.Value :=
  .object
    [ ("key_id", .text e.keyId),
      ("slots", .list (e.slots.map fun s => .object
        [("kek_fingerprint", .text s.fingerprint), ("dek_encrypted", .text (Hex.encode s.wrapped))])) ]

end Envelope

namespace Descriptor

/-- The shape of a volume's descriptor. -/
def shape : Shape := .record "VolumeDescriptor" [required "uuid" (.plain uuidShape)]

/-- The descriptor that a datum holds. -/
def ofDatum? : Datum → Option Descriptor
  | .record [uuid] => uuid.uuid?.map Descriptor.mk
  | _ => none

/-- The JSON form of a descriptor. -/
def toJson (d : Descriptor) : Json.Value := .object [("uuid", .text d.uuid.toText)]

end Descriptor

/-! ### Reading JSON documents -/

/-- Reads a JSON document of some shape. -/
def readJson {α : Type} (s : Shape) (ofDatum? : Datum → Option α) (document : Bytes) :
    Except Json.Fault α :=
  match Json.read s document with
  | .error fault => .error fault
  | .ok d =>
    match ofDatum? d with
    | some a => .ok a
    | none => .error ⟨.mismatch "", none⟩

end BlobVault
