import BlobVault.Number.Duration

/-!
# Settings

The limits and times of replication, of scrubbing and of the key cache.
-/

namespace BlobVault

/-- The settings of replication. -/
structure ReplicationSettings where
  /-- The time between two searches for missing copies. -/
  interval : Duration
  /-- The most blobs looked at in one search. -/
  batchSize : Nat
  /-- The number of copies made at a time. -/
  workers : Nat
  /-- How long a worker rests after a failure. -/
  failurePause : Duration
  deriving DecidableEq, Repr

/-- The settings of scrubbing. -/
structure ScrubSettings where
  /-- The most blobs listed at a time. -/
  batchSize : Nat
  /-- The greatest time between two records of progress. -/
  checkpointInterval : Duration
  /-- The length of a report above which a job is given up. -/
  maxReportBytes : Nat
  /-- The most requests that wait for the controller. -/
  commandQueue : Nat
  deriving DecidableEq, Repr

/-- The settings of the key ring. -/
structure KeySettings where
  /-- The number of unwrapped data keys kept. -/
  cacheCapacity : Nat
  deriving DecidableEq, Repr

/-- The most entries that a bounded queue can be made for. -/
def queueLimit : Nat := Nat.pow 2 61 - 1

end BlobVault
