import BlobVault.Scrub.Report
import BlobVault.Settings
import BlobVault.Vault.Transfer

/-!
# Scans

A scan works on one scrub job: it checks every blob that the job's volume is recorded to hold, in
the order of the references, from the job's cursor on.  It can be stopped between any two records,
and saves the job's progress from time to time and at its end, so that another scan can go on from
there.

`Scan.step?` is one action of a scan.  A fault of a blob is an entry in the report and never ends
a scan; a report that has grown too long does.
-/

namespace BlobVault

namespace Scan

/-- How a scan ended. -/
inductive Outcome where
  /-- Every record after the cursor was visited. -/
  | completed
  /-- It was stopped between two records. -/
  | stopped
  /-- The report has grown too long. -/
  | aborted
  deriving DecidableEq, Repr

/-- The name of an outcome. -/
def Outcome.text : Outcome → String
  | completed => "Completed"
  | stopped => "Stopped"
  | aborted => "Aborted"

/-- The job needs no other scan. -/
def Outcome.isFinal : Outcome → Bool
  | stopped => false
  | completed | aborted => true

/-- What a scan does next. -/
inductive Phase where
  /-- It asks for the next records. -/
  | querying
  /-- It visits records. -/
  | visiting (records : List BlobRecord)
  /-- It checks a blob. -/
  | checking (record : BlobRecord) (check : Check) (approach : Approach) (rest : List BlobRecord)
  /-- It saves the job for the last time. -/
  | saving (outcome : Outcome)
  | ended (outcome : Outcome)

/-- How a scan ended, if it has. -/
def Phase.outcome? : Phase → Option Outcome
  | ended outcome => some outcome
  | _ => none

end Scan

/-- A scan and the progress of its job. -/
structure Scan where
  settings : ScrubSettings
  job : ScrubJob
  /-- When the progress was last saved, or the scan began. -/
  lastSave : Nat
  phase : Scan.Phase

/-- What the check of a record says about a job, and that the record has been dealt with. -/
def ScrubJob.visited (j : ScrubJob) (r : Ref) (result? : Option (Except Fault Nat)) : ScrubJob :=
  match result? with
  | none => { j with cursor := some r }
  | some (.ok count) => { j with cursor := some r, bytesScanned := j.bytesScanned + count }
  | some (.error fault) =>
    { j with
      cursor := some r, errorsFound := j.errorsFound + 1
      report := j.report ++ Report.entry r fault }

/-- The job ends with an outcome. -/
def ScrubJob.ending (j : ScrubJob) (outcome : Scan.Outcome) (now : Nat) : ScrubJob :=
  if outcome.isFinal then { j with completed := some (Timestamp.ofNanos now) } else j

namespace Scan

/-- A scan that has not begun. -/
def start (settings : ScrubSettings) (job : ScrubJob) (now : Nat) : Scan :=
  ⟨settings, job, now, .querying⟩

/-- Asks for the next records. -/
def query (s : Scan) (c : Catalog) : Phase :=
  match c.recordsAfter s.job.cursor s.settings.batchSize with
  | [] => .saving .completed
  | records => .visiting records

/-- Takes note of a record: the report may be full, or it may be time to save the progress.  Saving
takes no time of its own: one reading of the clock tells whether a save is due, and the next one is
due an interval after the same reading. -/
def note (s : Scan) (now : Nat) (v : Vault) (r : Ref) (result? : Option (Except Fault Nat))
    (rest : List BlobRecord) : Scan × Vault :=
  let job := s.job.visited r result?
  if Report.isOver job.report s.settings.maxReportBytes then
    let job := { job with report := Report.truncate job.report s.settings.maxReportBytes }
    ({ s with job := job, phase := .saving .aborted }, v)
  else if s.settings.checkpointInterval.nanos ≤ now - s.lastSave then
    ({ s with job := job, lastSave := now, phase := .visiting rest },
     { v with catalog := v.catalog.saveJob job })
  else ({ s with job := job, phase := .visiting rest }, v)

/-- Visits a record: a blob of the volume has to be checked. -/
def visit (s : Scan) (now : Nat) (v : Vault) (b : BlobRecord) (rest : List BlobRecord) :
    Scan × Vault :=
  if b.isOn s.job.volumeId then
    match v.beginCheck b.ref s.job.volumeId with
    | .error fault => s.note now v b.ref (some (.error fault)) rest
    | .ok check =>
      ({ s with
          phase := .checking b check (v.storage.approach check.backend check.ref now) rest }, v)
  else s.note now v b.ref none rest

/-- One action of a scan, if it does not have to wait. -/
def step? (now : Nat) (cancelled : Bool) (v : Vault) (s : Scan) : Option (Scan × Vault) :=
  match s.phase with
  | .querying =>
    some ({ s with phase := if cancelled then .saving .stopped else s.query v.catalog }, v)
  | .visiting [] => some ({ s with phase := .querying }, v)
  | .visiting (b :: rest) =>
    if cancelled then some ({ s with phase := .saving .stopped }, v)
    else some (s.visit now v b rest)
  | .checking b check approach rest =>
    match approach.passage with
    | .clear =>
      let (answer, storage) := v.storage.answer approach
      some (s.note now { v with storage := storage } b.ref (some (check.finish answer)) rest)
    | _ =>
      (v.storage.advance? now approach).map fun (approach, storage) =>
        ({ s with phase := .checking b check approach rest }, { v with storage := storage })
  | .saving outcome =>
    let job := s.job.ending outcome now
    some ({ s with job := job, phase := .ended outcome },
      { v with catalog := v.catalog.saveJob job })
  | .ended _ => none

/-- The time that a scan waits for. -/
def wake? (s : Scan) : Option Nat :=
  match s.phase with
  | .checking _ _ approach _ => approach.wake?
  | _ => none

end Scan

end BlobVault
