import BlobVault.Json.Fault
import BlobVault.Ref
import BlobVault.Text.Quoted
import BlobVault.Uuid

/-!
# Faults

Every layer has its own faults: streams and files (`IoFault`), the key ring (`KeyFault`), the
catalog (`CatalogFault`).  They are lifted into one taxonomy, `Fault`, in which absence, failed
verification, duplicate writes, missing mounts and misconfiguration can be told apart.  A digest
mismatch that travels inside a stream fault is lifted to an integrity fault
(`Fault.ofIo`), never to plain trouble with input and output.
-/

namespace BlobVault

/-- Volumes are numbered. -/
abbrev VolumeId := Nat

/-- A digest that a stream is verified against. -/
inductive DigestKind where
  | sha256
  | crc32
  deriving DecidableEq, Repr

/-- The name of a digest. -/
def DigestKind.text : DigestKind → String
  | .sha256 => "sha256"
  | .crc32 => "crc32"

/-- A digest that came out differently. -/
structure Mismatch where
  kind : DigestKind
  /-- The hexadecimal digest that was due. -/
  expected : String
  /-- The hexadecimal digest of what was read. -/
  actual : String
  deriving DecidableEq, Repr

/-- The text of a mismatch. -/
def Mismatch.message (m : Mismatch) : String :=
  m.kind.text ++ " mismatch: expected " ++ m.expected ++ ", got " ++ m.actual

/-- A failure of a stream or a file. -/
inductive IoFault where
  /-- The system refused an operation; the number is its own. -/
  | system (code : Nat)
  /-- A verified stream ended with the wrong digest. -/
  | mismatch (m : Mismatch)
  /-- A text file is not UTF-8. -/
  | notText
  /-- Any other failure, with its description. -/
  | other (text : String)
  deriving DecidableEq, Repr

/-- The system's description of the failures that file operations meet. -/
def systemText (code : Nat) : String :=
  match code with
  | 2 => "No such file or directory"
  | 13 => "Permission denied"
  | 17 => "File exists"
  | 20 => "Not a directory"
  | 21 => "Is a directory"
  | 36 => "File name too long"
  | 39 => "Directory not empty"
  | _ => "Unknown error " ++ toString code

/-- The text of a stream fault. -/
def IoFault.message : IoFault → String
  | .system code => systemText code ++ " (os error " ++ toString code ++ ")"
  | .mismatch m => m.message
  | .notText => "stream did not contain valid UTF-8"
  | .other text => text

/-- What a look-up was for. -/
inductive Subject where
  | blob (r : Ref)
  | volume (id : VolumeId)
  | collection (name : String)
  | scrubJob (id : Uuid)
  /-- Anything else, by its description. -/
  | named (text : String)
  deriving DecidableEq

/-- The description of a subject. -/
def Subject.text : Subject → String
  | .blob r => "blob " ++ r.toHex
  | .volume id => "volume " ++ toString id
  | .collection name => "collection " ++ name
  | .scrubJob id => "integrity job " ++ id.toText
  | .named text => text

/-- A failure of the key ring. -/
inductive KeyFault where
  | emptyKeyId
  | noRecipients (keyId : String)
  | unknownRecipient (fingerprint : String)
  /-- No slot of the envelope opens under a private key that is loaded here. -/
  | noMatchingKey (keyId : String) (fingerprints : List String)
  /-- A wrapping key is malformed, or cannot do what is asked of it. -/
  | cryptography
  deriving DecidableEq, Repr

/-- The text of a key fault. -/
def KeyFault.message : KeyFault → String
  | .emptyKeyId => "DEK id must not be empty"
  | .noRecipients keyId => "no KEK recipients given for DEK " ++ keyId
  | .unknownRecipient fingerprint => "KEK " ++ fingerprint ++ " is not registered"
  | .noMatchingKey keyId fingerprints =>
    "no locally available private key can decrypt DEK " ++ keyId ++ " (slots: "
      ++ Quoted.bracket (fingerprints.map Quoted.quote) ++ ")"
  | .cryptography => ""

/-- Why the key of a blob or collection cannot be had. -/
inductive KeyTrouble where
  | noEnvelope (keyId : String)
  | ring (fault : KeyFault)
  | badLength (length : Nat)
  | described (text : String)
  deriving DecidableEq, Repr

/-- The configuration fault of a data key of the wrong length. -/
def badKeyLengthText (length : Nat) : String :=
  "unsupported encryption key length " ++ toString length

/-- The text of a key trouble. -/
def KeyTrouble.message : KeyTrouble → String
  | .noEnvelope keyId => "no envelope for key " ++ keyId
  | .ring fault => fault.message
  | .badLength length => "configuration error: " ++ badKeyLengthText length
  | .described text => text

/-- A failure of the catalog. -/
inductive CatalogFault where
  | notFound (what : Subject)
  | alreadyExists (what : Subject)
  | keyResolution (why : KeyTrouble)
  | internal (text : String)
  | serialization (fault : Json.Fault)
  deriving DecidableEq

/-- The text of a catalog fault. -/
def CatalogFault.message : CatalogFault → String
  | .notFound what => "Not found: " ++ what.text
  | .alreadyExists what => "Already exists: " ++ what.text
  | .keyResolution why => "Key resolution failed: " ++ why.message
  | .internal text => "Internal error: " ++ text
  | .serialization fault => "Serialization error: " ++ fault.message

/-- How the bytes of a blob can contradict its record. -/
inductive Corruption where
  | digest (m : Mismatch)
  /-- The compressed form of the blob cannot be expanded. -/
  | compressed (r : Ref) (why : String)
  | described (text : String)
  deriving DecidableEq

/-- The text of a corruption. -/
def Corruption.message : Corruption → String
  | .digest m => m.message
  | .compressed r why => "blob " ++ r.toHex ++ ": gunzip: " ++ why
  | .described text => text

/-- What this node cannot do because of its mounts. -/
inductive Incapacity where
  | notMounted (id : VolumeId)
  | noneMounted (ids : List VolumeId)
  deriving DecidableEq, Repr

/-- The text of an incapacity. -/
def Incapacity.message : Incapacity → String
  | .notMounted id => "volume " ++ toString id ++ " is not mounted on this node"
  | .noneMounted ids =>
    "none of the volumes " ++ Quoted.bracket (ids.map toString) ++ " are mounted on this node"

/-- What is set up wrongly. -/
inductive Misconfiguration where
  | badKeyLength (length : Nat)
  | alreadyInitialized (found : Uuid)
  | wrongVolume (id : VolumeId) (found expected : Uuid)
  | alreadyMounted (id : VolumeId)
  | badDescriptor (fault : Json.Fault)
  | described (text : String)
  deriving DecidableEq

/-- The text of a misconfiguration. -/
def Misconfiguration.message : Misconfiguration → String
  | .badKeyLength length => badKeyLengthText length
  | .alreadyInitialized found => "volume already initialized (uuid " ++ found.toText ++ ")"
  | .wrongVolume id found expected =>
    "volume " ++ toString id ++ ": descriptor uuid " ++ found.toText
      ++ " does not match expected " ++ expected.toText
  | .alreadyMounted id => "volume " ++ toString id ++ " is already mounted"
  | .badDescriptor fault => "malformed volume descriptor: " ++ fault.message
  | .described text => text

/-- A failure of the vault. -/
inductive Fault where
  | notFound (what : Subject)
  | integrity (what : Corruption)
  | alreadyExists (what : Subject)
  | capability (what : Incapacity)
  | configuration (what : Misconfiguration)
  | jobAlreadyRunning (id : Uuid)
  | jobNotRunning (id : Uuid)
  | jobCompleted (id : Uuid)
  | controllerStopped
  | io (fault : IoFault)
  | catalog (fault : CatalogFault)
  | keys (fault : KeyFault)
  | other (text : String)
  deriving DecidableEq

namespace Fault

/-- The text of a fault. -/
def message : Fault → String
  | .notFound what => "not found: " ++ what.text
  | .integrity what => "integrity mismatch: " ++ what.message
  | .alreadyExists what => "already exists: " ++ what.text
  | .capability what => "capability error: " ++ what.message
  | .configuration what => "configuration error: " ++ what.message
  | .jobAlreadyRunning id => "integrity job " ++ id.toText ++ " is already running"
  | .jobNotRunning id => "integrity job " ++ id.toText ++ " is not running"
  | .jobCompleted id => "integrity job " ++ id.toText ++ " is already completed"
  | .controllerStopped => "integrity controller is not running"
  | .io fault => "IO error: " ++ fault.message
  | .catalog fault => "metadata error: " ++ fault.message
  | .keys fault => "key store error: " ++ fault.message
  | .other text => "error: " ++ text

/-- Lifts a stream fault; a digest mismatch becomes an integrity fault. -/
def ofIo : IoFault → Fault
  | .mismatch m => .integrity (.digest m)
  | fault => .io fault

/-- Lifts a catalog fault; absence and duplication keep their meaning. -/
def ofCatalog : CatalogFault → Fault
  | .notFound what => .notFound what
  | .alreadyExists what => .alreadyExists what
  | fault => .catalog fault

/-- The fault says that something is absent. -/
def isNotFound : Fault → Bool
  | .notFound _ => true
  | _ => false

/-- The fault says that a verification failed. -/
def isIntegrity : Fault → Bool
  | .integrity _ => true
  | _ => false

end Fault

end BlobVault
