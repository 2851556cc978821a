import BlobVault.Simulation.Wait

/-!
# Requests

Everything that can be asked of a node while its background work goes on.  A request answers a
result, or the reason why there is none.
-/

namespace BlobVault

namespace Simulation

/-- Why a request has no result. -/
inductive Failure where
  | fault (fault : Fault)
  /-- It took too long. -/
  | timeout
  /-- What was waited for had crashed. -/
  | crash

/-- A result, or the reason why there is none. -/
abbrev Answer (α : Type) := Except Failure α

/-- A fault as an answer. -/
def answerOf {α : Type} : Except Fault α → Answer α
  | .ok a => .ok a
  | .error fault => .error (.fault fault)

/-- How long after its request a gate is opened. -/
def openingDelay : Duration := .ofMillis 50

/-- A gate that is opened a little later. -/
def openingAt (s : Simulation) (backend : BackendId) (permits : Nat) : Opening :=
  ⟨Clock.after s.now openingDelay, backend, permits⟩

/-! ### Time -/

/-- Lets some time pass. -/
def elapse (s : Simulation) (d : Duration) : Answer Unit × Simulation :=
  match s.wait ⟨.time (Clock.after s.now d), none⟩ with
  | (some _, s) => (.ok (), s)
  | (none, s) => (.error .timeout, s)

/-! ### Transfers -/

/-- What a backend answers, after the way to it. -/
def ask (s : Simulation) (b : BackendId) (r : Ref) :
    Answer (Except Fault Stream) × Simulation :=
  match s.wait ⟨.approach (s.vault.storage.approach b r s.now), none⟩ with
  | (some ⟨.approach a, _⟩, s) =>
    let (answer, storage) := s.vault.storage.answer a
    (.ok answer, { s with vault := { s.vault with storage := storage } })
  | (_, s) => (.error .timeout, s)

/-- The bytes that a backend keeps under a reference. -/
def rawFetch (s : Simulation) (b : BackendId) (r : Ref) : Answer Bytes × Simulation :=
  match s.ask b r with
  | (.error failure, s) => (.error failure, s)
  | (.ok (.error fault), s) => (.error (.fault fault), s)
  | (.ok (.ok stream), s) =>
    match stream.content with
    | .ok bs => (.ok bs, s)
    | .error fault => (.error (.fault (.ofIo fault)), s)

/-- Fetches a blob from a volume. -/
def fetch (s : Simulation) (r : Ref) (volume : VolumeId) : Answer Bytes × Simulation :=
  match s.operate fun v => v.beginFetch r volume with
  | (.error fault, s) => (.error (.fault fault), s)
  | (.ok f, s) =>
    match s.ask f.backend r with
    | (.error failure, s) => (.error failure, s)
    | (.ok answer, s) => (answerOf (f.finish answer), s)

/-- Copies a blob, as the node with some mount table sees it. -/
def replicateFrom (s : Simulation) (table : Nat) (source target : VolumeId) (r : Ref) :
    Answer Unit × Simulation :=
  match (s.seenFrom table).beginCopy source target r with
  | .error fault => (.error (.fault fault), s)
  | .ok c =>
    match s.ask c.source r with
    | (.error failure, s) => (.error failure, s)
    | (.ok answer, s) =>
      let (result, s) := s.operate fun v => c.finish answer v
      (answerOf result, s)

/-- Copies a blob from a volume to another. -/
def replicate (s : Simulation) (source target : VolumeId) (r : Ref) : Answer Unit × Simulation :=
  s.replicateFrom s.table source target r

/-- Checks a blob on a volume and counts its bytes. -/
def scrub (s : Simulation) (r : Ref) (volume : VolumeId) : Answer Nat × Simulation :=
  match s.vault.beginCheck r volume with
  | .error fault => (.error (.fault fault), s)
  | .ok c =>
    match s.ask c.backend r with
    | (.error failure, s) => (.error failure, s)
    | (.ok answer, s) => (answerOf (c.finish answer), s)

/-! ### Replication -/

/-- Sets replication up, in place of the present one. -/
def setUpReplication (s : Simulation) (settings : ReplicationSettings) : Simulation :=
  { s with replications := (s.table, .create settings) :: s.replications }

/-- Changes the present replication. -/
def modifyReplication (s : Simulation) (f : Replication → Replication) : Simulation :=
  match s.replications with
  | [] => s
  | (table, r) :: rest => { s with replications := (table, f r) :: rest }

/-- Searches for copies that are due, and puts them in flight. -/
def discover (s : Simulation) : List CopyJob × Simulation :=
  match s.replications with
  | [] => ([], s)
  | (table, r) :: rest =>
    let (jobs, inFlight) := (s.seenFrom table).discover r.settings.batchSize r.inFlight
    (jobs, { s with replications := (table, { r with inFlight := inFlight }) :: rest })

/-- Makes one copy, as replication would. -/
def replicateOne (s : Simulation) (source target : VolumeId) (r : Ref) :
    Answer Unit × Simulation :=
  s.replicateFrom ((s.replications.head?.map (·.1)).getD s.table) source target r

/-- The number of copies in flight. -/
def inFlightCount (s : Simulation) : Nat :=
  (s.replication?.map fun r => r.inFlight.length).getD 0

/-- Starts replication. -/
def startReplication (s : Simulation) : Simulation := s.modifyReplication fun r => r.start s.now

/-- Cancels replication and waits for its end. -/
def stopReplication (s : Simulation) (opening? : Option Opening) : Answer Unit × Simulation :=
  match (s.modifyReplication Replication.cancel).wait ⟨.replicationOver, opening?⟩ with
  | (none, s) => (.error .timeout, s)
  | (some _, s) =>
    match s.replication? with
    | some { feeder := .crashed, .. } => (.error .crash, s)
    | _ => (.ok (), s)

/-! ### Scrubbing -/

/-- Changes the present scrub controller. -/
def modifyController {α : Type} (s : Simulation) (default : α) (f : Controller → α × Controller) :
    α × Simulation :=
  match s.controllers with
  | [] => (default, s)
  | (table, c) :: rest => ((f c).1, { s with controllers := (table, (f c).2) :: rest })

/-- Starts a scrub controller, in place of the present one. -/
def startController (s : Simulation) (settings : ScrubSettings) : Answer Unit × Simulation :=
  if Controller.canStart settings then
    let s := (s.modifyController () fun c => ((), c.abandon)).2
    (.ok (), { s with controllers := (s.table, .start settings) :: s.controllers })
  else (.error .crash, s)

/-- Gives the scrub controller a command and waits for the reply. -/
def request (s : Simulation) (command : Controller.Command) (opening? : Option Opening) :
    Answer Controller.Reply × Simulation :=
  let (ticket, s) := s.modifyController 0 fun c => c.submit command
  match s.wait ⟨.reply ticket, opening?⟩ with
  | (none, s) => (.error .timeout, s)
  | (some _, s) =>
    match s.controller?.bind fun c => c.replyTo? ticket with
    | some (.refused fault) => (.error (.fault fault), s)
    | some reply => (.ok reply, s)
    | none => (.error (.fault .controllerStopped), s)

/-- Cancels the scrub controller and waits for its end. -/
def cancelController (s : Simulation) (opening? : Option Opening) : Answer Unit × Simulation :=
  let (_, s) := s.modifyController () fun c => ((), c.cancel)
  match s.wait ⟨.controllerOver, opening?⟩ with
  | (none, s) => (.error .timeout, s)
  | (some _, s) => (.ok (), s)

end Simulation

end BlobVault
