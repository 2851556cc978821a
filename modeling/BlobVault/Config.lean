import BlobVault.Catalog.Documents
import BlobVault.Files.Tree
import BlobVault.Settings
import BlobVault.Yaml.Read
import BlobVault.Yaml.Write

/-!
# Configuration

The settings of replication, of scrubbing and of the key cache, and the mounts of all nodes.  A
configuration is a YAML document, in which everything has a default.  A document that is read
successfully has positive limits; the numbers of seconds are durations.
-/

namespace BlobVault

/-- A configuration. -/
structure Config where
  /-- The node that is configured. -/
  node : String
  replication : ReplicationSettings
  scrub : ScrubSettings
  keys : KeySettings
  mounts : List Mount
  deriving DecidableEq, Repr

/-- Why there is no configuration. -/
inductive ConfigFault where
  | io (fault : IoFault)
  | unreadable (fault : Yaml.Fault)
  | replicationLimits
  | scrubLimits
  | cacheCapacity
  /-- There is no file in any of the usual places. -/
  | noFile
  deriving DecidableEq, Repr

/-- The text of a configuration fault. -/
def ConfigFault.message : ConfigFault → String
  | io fault => "IO error: " ++ fault.message
  | unreadable fault => "Parse error: " ++ fault.message
  | replicationLimits => "Invalid config: replication workers and batch_size must be positive"
  | scrubLimits => "Invalid config: integrity batch_size and command_queue must be positive"
  | cacheCapacity => "Invalid config: keystore dek_cache_capacity must be positive"
  | noFile => "Config file not found in default locations"

/-- A shape all of whose parts have defaults. -/
def countField (name : String) (n : Nat) : Field Shape :=
  defaulted name (.plain .count) (.natural n)

/-- A duration with a default in seconds. -/
def secondsField (name : String) (seconds : Nat) : Field Shape :=
  defaulted name (.plain .seconds) (.duration (.ofSeconds seconds))

namespace ReplicationSettings

/-- The settings when nothing is said. -/
def standard : ReplicationSettings := ⟨.ofSeconds 5, 100, 3, .ofSeconds 3⟩

/-- The fields of the settings. -/
def fields : List (Field Shape) :=
  [ secondsField "interval" 5, countField "batch_size" 100, countField "workers" 3,
    secondsField "failure_pause" 3 ]

/-- The shape of the settings. -/
def shape : Shape := .record "ReplicationConfig" fields

/-- The settings as a datum. -/
def toDatum (r : ReplicationSettings) : Datum :=
  .record [.duration r.interval, .natural r.batchSize, .natural r.workers, .duration r.failurePause]

/-- The settings that a datum holds. -/
def ofDatum? : Datum → Option ReplicationSettings
  | .record [interval, batchSize, workers, failurePause] => do
    pure ⟨← interval.duration?, ← batchSize.natural?, ← workers.natural?, ← failurePause.duration?⟩
  | _ => none

/-- The settings as part of a document. -/
def toYaml (r : ReplicationSettings) : Yaml.Value :=
  .map [ ("interval", .float r.interval.toFloat), ("batch_size", .natural r.batchSize),
         ("workers", .natural r.workers), ("failure_pause", .float r.failurePause.toFloat) ]

/-- The numbers of workers and of blobs in one search are positive. -/
def limitsOk (r : ReplicationSettings) : Bool := r.workers != 0 && r.batchSize != 0

end ReplicationSettings

namespace ScrubSettings

/-- The settings when nothing is said. -/
def standard : ScrubSettings := ⟨1000, .ofSeconds 5, 20480, 32⟩

/-- The fields of the settings. -/
def fields : List (Field Shape) :=
  [ countField "batch_size" 1000, secondsField "checkpoint_interval" 5,
    countField "max_report_bytes" 20480, countField "command_queue" 32 ]

/-- The shape of the settings. -/
def shape : Shape := .record "IntegrityConfig" fields

/-- The settings as a datum. -/
def toDatum (s : ScrubSettings) : Datum :=
  .record [ .natural s.batchSize, .duration s.checkpointInterval, .natural s.maxReportBytes,
            .natural s.commandQueue ]

/-- The settings that a datum holds. -/
def ofDatum? : Datum → Option ScrubSettings
  | .record [batchSize, checkpointInterval, maxReportBytes, commandQueue] => do
    pure ⟨← batchSize.natural?, ← checkpointInterval.duration?, ← maxReportBytes.natural?,
      ← commandQueue.natural?⟩
  | _ => none

/-- The settings as part of a document. -/
def toYaml (s : ScrubSettings) : Yaml.Value :=
  .map [ ("batch_size", .natural s.batchSize),
         ("checkpoint_interval", .float s.checkpointInterval.toFloat),
         ("max_report_bytes", .natural s.maxReportBytes),
         ("command_queue", .natural s.commandQueue) ]

/-- The numbers of blobs listed and of requests waiting are positive. -/
def limitsOk (s : ScrubSettings) : Bool := s.batchSize != 0 && s.commandQueue != 0

end ScrubSettings

namespace KeySettings

/-- The settings when nothing is said. -/
def standard : KeySettings := ⟨16⟩

/-- The shape of the settings. -/
def shape : Shape := .record "KeyStoreConfig" [countField "dek_cache_capacity" 16]

/-- The settings as a datum. -/
def toDatum (k : KeySettings) : Datum := .record [.natural k.cacheCapacity]

/-- The settings that a datum holds. -/
def ofDatum? : Datum → Option KeySettings
  | .record [capacity] => capacity.natural?.map KeySettings.mk
  | _ => none

/-- The settings as part of a document. -/
def toYaml (k : KeySettings) : Yaml.Value :=
  .map [("dek_cache_capacity", .natural k.cacheCapacity)]

end KeySettings

namespace BackendSetup

/-- A backend's setup as part of a document. -/
def toYaml : BackendSetup → Yaml.Value
  | folder path => .map [("type", .text "local"), ("path", .text path)]
  | memory cost => .map [("type", .text "memory"), ("routing_cost", .natural cost)]

end BackendSetup

/-- A mount as part of a document. -/
def Mount.toYaml (m : Mount) : Yaml.Value :=
  .map [("volume_id", .natural m.volumeId), ("node_id", .text m.node), ("driver", m.backend.toYaml)]

namespace Config

/-- The configuration when nothing is said. -/
def standard : Config := ⟨"local", .standard, .standard, .standard, []⟩

/-- The shape of a configuration. -/
def shape : Shape :=
  .record "Config"
    [ defaulted "node_id" (.plain .anyText) (.text standard.node),
      defaulted "replication" ReplicationSettings.shape ReplicationSettings.standard.toDatum,
      defaulted "integrity" ScrubSettings.shape ScrubSettings.standard.toDatum,
      defaulted "keystore" KeySettings.shape KeySettings.standard.toDatum,
      defaulted "mounts" (.list Mount.shape) (.list []) ]

/-- The configuration that a datum holds. -/
def ofDatum? : Datum → Option Config
  | .record [node, replication, scrub, keys, mounts] => do
    let ms ← mounts.list?
    pure ⟨← node.text?, ← ReplicationSettings.ofDatum? replication, ← ScrubSettings.ofDatum? scrub,
      ← KeySettings.ofDatum? keys, ← ms.mapM Mount.ofDatum?⟩
  | _ => none

/-- The document of a configuration. -/
def toYaml (c : Config) : Yaml.Value :=
  .map [ ("node_id", .text c.node), ("replication", c.replication.toYaml),
         ("integrity", c.scrub.toYaml), ("keystore", c.keys.toYaml),
         ("mounts", .list (c.mounts.map Mount.toYaml)) ]

/-- The text of a configuration. -/
def render (c : Config) : String := c.toYaml.render

/-- Refuses a configuration with limits that let nothing happen. -/
def check (c : Config) : Except ConfigFault Config :=
  if !c.replication.limitsOk then .error .replicationLimits
  else if !c.scrub.limitsOk then .error .scrubLimits
  else if c.keys.cacheCapacity = 0 then .error .cacheCapacity
  else .ok c

/-- Reads a configuration. -/
def ofText (text : String) : Except ConfigFault Config :=
  match Yaml.read shape text with
  | .error fault => .error (.unreadable fault)
  | .ok d =>
    match ofDatum? d with
    | some c => c.check
    | none => .error (.unreadable .malformed)

/-- The mounts that the configured node drives. -/
def localMounts (c : Config) : List Mount := c.mounts.filter fun m => m.node == c.node

/-! ### Configuration files -/

/-- Reads a configuration from what stands at a path. -/
def ofNode : Option Files.Node → Except ConfigFault Config
  | none => .error (.io Refusal.missing.fault)
  | some .folder => .error (.io Refusal.isFolder.fault)
  | some (.file content) =>
    match Utf8.decode? content with
    | some text => ofText text
    | none => .error (.io .notText)

/-- The name of the configuration file in a folder of data. -/
def dataFile : String := "rkblob.yml"

/-- The usual places of the configuration file, the likeliest first. -/
def usualFiles : List String := ["rkblob.yml", "rkblob.yaml", "/etc/rkblob/config.yml"]

/-- Reads the configuration from the first of the usual places where anything stands. -/
def ofUsualFiles (look : String → Option Files.Node) : Except ConfigFault Config :=
  match usualFiles.findSome? look with
  | some node => ofNode (some node)
  | none => .error .noFile

/-- Reads the configuration from a folder of data, or else from the usual places. -/
def ofDataFolder (inData look : String → Option Files.Node) : Except ConfigFault Config :=
  match inData dataFile with
  | some node => ofNode (some node)
  | none => ofUsualFiles look

end Config

end BlobVault
