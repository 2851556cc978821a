import BlobVault.Replication.Discovery
import BlobVault.Settings
import BlobVault.Vault.Transfer

/-!
# Replication

A feeder discovers the copies that are due at regular times and sends them through a bounded queue
to a fixed number of workers.  A worker makes one copy at a time and rests after a failure; what
failed is still due and will be discovered again.  When replication is cancelled, no further copy
is begun, the copies being made are finished, and every other job is released.

`Replication.step?` is one action of the feeder or of a worker, if that action is possible now.
Everything that replication can do is a sequence of such actions.
-/

namespace BlobVault

namespace Replication

/-- What the feeder is about. -/
inductive Feeder where
  /-- It has not been started. -/
  | unstarted
  /-- It waits for the time of the next search. -/
  | ticking
  /-- It sends the jobs of a search; there is at least one left. -/
  | sending (job : CopyJob) (rest : List CopyJob)
  /-- It waits for the workers to leave. -/
  | closing
  | ended
  /-- It could not be started with its settings. -/
  | crashed
  deriving DecidableEq

/-- The feeder with the jobs of a search. -/
def Feeder.ofJobs : List CopyJob → Feeder
  | [] => ticking
  | j :: js => sending j js

/-- The jobs that are still to be sent. -/
def Feeder.jobs : Feeder → List CopyJob
  | sending j js => j :: js
  | _ => []

/-- What a worker is about. -/
inductive Worker where
  /-- It waits for a job. -/
  | idle
  /-- It has a job and has not looked whether it may begin. -/
  | holding (job : CopyJob)
  /-- It makes a copy. -/
  | copying (job : CopyJob) (copy : Copy) (approach : Approach)
  /-- It rests after a failure. -/
  | resting (wake : Nat)
  | left

/-- The job that a worker has not released. -/
def Worker.job? : Worker → Option CopyJob
  | holding job => some job
  | copying job _ _ => some job
  | _ => none

/-- The worker has left. -/
def Worker.hasLeft : Worker → Bool
  | left => true
  | _ => false

end Replication

/-- The feeder, the queue and the workers. -/
structure Replication where
  settings : ReplicationSettings
  inFlight : InFlight
  feeder : Replication.Feeder
  /-- The jobs in the queue, first come first. -/
  queue : List CopyJob
  workers : List Replication.Worker
  cancelled : Bool
  /-- The time of the next search. -/
  nextTick : Nat

namespace Replication

/-- Replication that has not been started. -/
def create (settings : ReplicationSettings) : Replication :=
  ⟨settings, [], .unstarted, [], [], false, 0⟩

/-- The room in the queue. -/
def capacity (r : Replication) : Nat := max r.settings.batchSize 1

/-- The settings can be run with: a search takes place every so often, and the queue can be
made. -/
def canStart (r : Replication) : Bool := r.settings.interval.nanos != 0 && r.capacity ≤ queueLimit

/-- Starts the feeder and the workers.  The first search is due at once. -/
def start (r : Replication) (now : Nat) : Replication :=
  if r.canStart then
    { r with
      feeder := .ticking, queue := [], cancelled := false, nextTick := now
      workers := List.replicate r.settings.workers .idle }
  else { r with feeder := .crashed, queue := [], workers := [] }

/-- Asks the feeder and the workers to come to an end. -/
def cancel (r : Replication) : Replication := { r with cancelled := true }

/-- The feeder is not at work: it has come to an end, or was never started. -/
def isOver (r : Replication) : Bool :=
  match r.feeder with
  | .unstarted | .ended | .crashed => true
  | _ => false

/-- A search that is at most this late does not move those after it. -/
def tolerance : Duration := .ofMillis 5

/-- The time of the search after one that was due at `due` and is made now. -/
def tickAfter (r : Replication) (due now : Nat) : Nat :=
  if Clock.after due tolerance < now then Clock.after now r.settings.interval
  else Clock.after due r.settings.interval

/-! ### Actions of the feeder -/

/-- Searches for copies that are due. -/
def tick? (now : Nat) (v : Vault) (r : Replication) : Option Replication :=
  match r.feeder with
  | .ticking =>
    if r.cancelled || !Clock.isDue r.nextTick now then none
    else
      let (jobs, inFlight) := v.discover r.settings.batchSize r.inFlight
      some { r with
        inFlight := inFlight, feeder := .ofJobs jobs, nextTick := r.tickAfter r.nextTick now }
  | _ => none

/-- Sends a job, if there is room in the queue. -/
def send? (r : Replication) : Option Replication :=
  match r.feeder with
  | .sending job rest =>
    if r.cancelled || r.capacity ≤ r.queue.length then none
    else some { r with feeder := .ofJobs rest, queue := r.queue ++ [job] }
  | _ => none

/-- Gives up what is still to be sent, after a cancellation. -/
def close? (r : Replication) : Option Replication :=
  match r.feeder with
  | .ticking => if r.cancelled then some { r with feeder := .closing } else none
  | .sending job rest =>
    if r.cancelled then
      some { r with feeder := .closing, inFlight := r.inFlight.releaseAll (job :: rest) }
    else none
  | _ => none

/-- Gives up what is left in the queue, after all workers have left. -/
def conclude? (r : Replication) : Option Replication :=
  match r.feeder with
  | .closing =>
    if r.workers.all Worker.hasLeft then
      some { r with feeder := .ended, queue := [], inFlight := r.inFlight.releaseAll r.queue }
    else none
  | _ => none

/-! ### Actions of a worker -/

/-- The worker at a position is now about something else. -/
def setWorker (r : Replication) (i : Nat) (w : Worker) : Replication :=
  { r with workers := r.workers.set i w }

/-- The worker has dealt with a job. -/
def settle (r : Replication) (i : Nat) (job : CopyJob) (w : Worker) : Replication :=
  { r.setWorker i w with inFlight := r.inFlight.release job }

/-- The worker rests after a failure. -/
def rest (r : Replication) (now : Nat) : Worker :=
  .resting (Clock.after now r.settings.failurePause)

/-- Takes a job off the queue, or leaves after a cancellation. -/
def receive? (r : Replication) (i : Nat) : Option Replication :=
  if r.cancelled then some (r.setWorker i .left)
  else
    match r.queue with
    | [] => none
    | job :: rest => some { r.setWorker i (.holding job) with queue := rest }

/-- Begins a copy, unless replication was cancelled. -/
def begin (now : Nat) (v : Vault) (r : Replication) (i : Nat) (job : CopyJob) : Replication :=
  if r.cancelled then r.settle i job .left
  else
    match v.beginCopy job.source job.target job.ref with
    | .error _ => r.settle i job (r.rest now)
    | .ok copy =>
      r.setWorker i (.copying job copy (v.storage.approach copy.source copy.ref now))

/-- Goes on with a copy. -/
def copyOn? (now : Nat) (v : Vault) (r : Replication) (i : Nat) (job : CopyJob) (copy : Copy)
    (approach : Approach) : Option (Replication × Vault) :=
  match approach.passage with
  | .clear =>
    let (answer, storage) := v.storage.answer approach
    match copy.finish answer { v with storage := storage } with
    | (.ok (), v) => some (r.settle i job .idle, v)
    | (.error _, v) => some (r.settle i job (r.rest now), v)
  | _ =>
    match v.storage.advance? now approach with
    | some (approach, storage) =>
      some (r.setWorker i (.copying job copy approach), { v with storage := storage })
    | none => none

/-- The next action of a worker. -/
def work? (now : Nat) (v : Vault) (r : Replication) (i : Nat) : Option (Replication × Vault) :=
  match r.workers[i]? with
  | some .idle => (r.receive? i).map fun r => (r, v)
  | some (.holding job) => some (r.begin now v i job, v)
  | some (.copying job copy approach) => r.copyOn? now v i job copy approach
  | some (.resting wake) =>
    if r.cancelled then some (r.setWorker i .left, v)
    else if Clock.isDue wake now then some (r.setWorker i .idle, v)
    else none
  | some .left | none => none

/-! ### All actions -/

/-- Something that replication can do. -/
inductive Action where
  | tick
  | send
  | close
  | conclude
  | work (worker : Nat)
  deriving DecidableEq, Repr

/-- Carries out an action, if it is possible now. -/
def step? (now : Nat) (v : Vault) (r : Replication) : Action → Option (Replication × Vault)
  | .tick => (r.tick? now v).map fun r => (r, v)
  | .send => r.send?.map fun r => (r, v)
  | .close => r.close?.map fun r => (r, v)
  | .conclude => r.conclude?.map fun r => (r, v)
  | .work i => r.work? now v i

/-- All actions, whether possible or not. -/
def actions (r : Replication) : List Action :=
  [.close, .tick, .send] ++ (List.range r.workers.length).map .work ++ [.conclude]

/-- Carries out the first action that is possible now. -/
def next? (now : Nat) (v : Vault) (r : Replication) : Option (Replication × Vault) :=
  r.actions.findSome? (r.step? now v)

/-- The time that a worker waits for. -/
def Worker.wake? : Worker → Option Nat
  | resting wake => some wake
  | copying _ _ approach => approach.wake?
  | _ => none

/-- The times that something waits for. -/
def wakes (r : Replication) : List Nat :=
  (match r.feeder with
    | .ticking => [r.nextTick]
    | _ => []) ++ r.workers.filterMap Worker.wake?

end Replication

end BlobVault
