import BlobVault.Vault.Basic

/-!
# Discovery of missing copies

A copy is due if a volume waits for a blob, that volume is mounted here, and some volume that
holds the blob is mounted here too.  Discovery looks at the first blobs that wait, lists the
copies that are due in order, and passes over those that are in flight.
-/

namespace BlobVault

/-- A copy that is due. -/
structure CopyJob where
  ref : Ref
  source : VolumeId
  target : VolumeId
  deriving DecidableEq

/-- What a copy job is about, wherever it reads from. -/
def CopyJob.pair (j : CopyJob) : Ref × VolumeId := (j.ref, j.target)

/-- The copies that are queued or being made, without repetitions. -/
abbrev InFlight := List (Ref × VolumeId)

namespace InFlight

/-- The copy is no longer in flight. -/
def release (inFlight : InFlight) (j : CopyJob) : InFlight := inFlight.erase j.pair

/-- None of these copies is in flight any longer. -/
def releaseAll (inFlight : InFlight) (js : List CopyJob) : InFlight := js.foldl release inFlight

end InFlight

namespace Vault

/-- One job for each volume that waits for a blob, if the blob can be read here. -/
def wantedCopies (v : Vault) (b : BlobRecord) : List CopyJob :=
  match v.bestVolume b.volumes with
  | .ok source => b.pending.map fun target => ⟨b.ref, source, target⟩
  | .error _ => []

/-- Takes jobs in order, up to a limit, and puts them in flight.  Jobs for volumes that are not
mounted here and jobs already in flight are passed over. -/
def takeJobs (v : Vault) : (limit : Nat) → List CopyJob → InFlight → List CopyJob × InFlight
  | _, [], inFlight => ([], inFlight)
  | 0, _ :: _, inFlight => ([], inFlight)
  | limit + 1, j :: js, inFlight =>
    if !v.isMounted j.target || inFlight.contains j.pair then v.takeJobs (limit + 1) js inFlight
    else
      let (jobs, inFlight) := v.takeJobs limit js (j.pair :: inFlight)
      (j :: jobs, inFlight)

/-- The copies that are due, of which at most `batchSize` are taken from as many blobs. -/
def discover (v : Vault) (batchSize : Nat) (inFlight : InFlight) : List CopyJob × InFlight :=
  v.takeJobs batchSize ((v.catalog.pendingRecords batchSize).flatMap v.wantedCopies) inFlight

end Vault

end BlobVault
