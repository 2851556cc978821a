import BlobVault.Scrub.Scan

/-!
# The scrub controller

One controller owns the table of running scans.  Every request about them is a command in its
queue, so there is one answer to what is running.  A scan that has ended leaves a notice, and the
notice removes the table's entry only if the entry is about that very run: by then the job may
have been stopped and resumed.  Whoever asks for a stop is answered after the scan has ended and
has saved its progress.

`Controller.serve?` is one action of the control loop, and `Controller.scan?` is one action of a
scan.
-/

namespace BlobVault

namespace Controller

/-- A request. -/
inductive Command where
  | resume (job : Uuid)
  | stop (job : Uuid)
  | list
  | shutdown
  deriving DecidableEq

/-- The answer to a request. -/
inductive Reply where
  | done
  | outcome (outcome : Scan.Outcome)
  | jobs (ids : List Uuid)
  | refused (fault : Fault)
  deriving DecidableEq

/-- A scan that was started. -/
structure Task where
  job : Uuid
  cancelled : Bool
  scan : Scan

/-- What the control loop is about. -/
inductive Phase where
  /-- It takes notices and commands. -/
  | serving
  /-- It waits for the end of a stopped run, and then answers. -/
  | joining (run : Nat) (ticket : Nat)
  /-- It waits for the end of all runs, and then answers whoever asked for that. -/
  | halting (runs : List Nat) (ticket? : Option Nat)
  | ended
  deriving DecidableEq

/-- The control loop has come to an end. -/
def Phase.isEnded : Phase → Bool
  | ended => true
  | _ => false

end Controller

/-- The control loop, its table and its scans. -/
structure Controller where
  settings : ScrubSettings
  phase : Controller.Phase
  /-- The number of the run of each running job. -/
  running : OrderedMap Uuid Nat
  /-- The scans by the numbers of their runs. -/
  tasks : OrderedMap Nat Controller.Task
  /-- The number of the last run. -/
  lastRun : Nat
  /-- The runs that have ended and not been looked at, first come first. -/
  notices : List (Uuid × Nat)
  /-- The commands that wait, with the tickets of those who gave them, first come first. -/
  commands : List (Nat × Controller.Command)
  /-- The answers by ticket. -/
  replies : List (Nat × Controller.Reply)
  /-- The number of tickets given out. -/
  issued : Nat
  cancelled : Bool
  /-- Nobody can give commands any more. -/
  abandoned : Bool

namespace Controller

/-- The command queue can be made. -/
def canStart (settings : ScrubSettings) : Bool := max settings.commandQueue 1 ≤ queueLimit

/-- A controller without scans. -/
def start (settings : ScrubSettings) : Controller :=
  { settings := settings, phase := .serving, running := .empty, tasks := .empty, lastRun := 0,
    notices := [], commands := [], replies := [], issued := 0, cancelled := false,
    abandoned := false }

/-! ### From outside -/

/-- Gives a command. -/
def submit (c : Controller) (command : Command) : Nat × Controller :=
  (c.issued, { c with commands := c.commands ++ [(c.issued, command)], issued := c.issued + 1 })

/-- The answer to a command, once there is one.  A controller that has ended answers nothing
any more. -/
def replyTo? (c : Controller) (ticket : Nat) : Option Reply :=
  match c.replies.lookup ticket with
  | some reply => some reply
  | none => if c.phase.isEnded then some (.refused .controllerStopped) else none

/-- The scan is asked to stop. -/
def Task.cancel (t : Task) : Task := { t with cancelled := true }

/-- Cancels the controller, and with it all its scans. -/
def cancel (c : Controller) : Controller :=
  { c with cancelled := true, tasks := c.tasks.mapVal fun _ t => t.cancel }

/-- Gives up the last means to give commands. -/
def abandon (c : Controller) : Controller := { c with abandoned := true }

/-! ### Actions of the control loop -/

/-- Answers a command. -/
def answer (c : Controller) (ticket : Nat) (reply : Reply) : Controller :=
  { c with replies := (ticket, reply) :: c.replies }

/-- The scan of a run is asked to stop. -/
def cancelRun (c : Controller) (run : Nat) : Controller :=
  { c with tasks := c.tasks.modify run Task.cancel }

/-- Starts a scan of a job. -/
def startRun (c : Controller) (now : Nat) (j : ScrubJob) : Controller :=
  let run := c.lastRun + 1
  { c with
    lastRun := run
    running := c.running.insert j.id run
    tasks := c.tasks.insert run ⟨j.id, c.cancelled, .start c.settings j now⟩ }

/-- Why a job cannot be resumed, or the job. -/
def resumable (c : Controller) (v : Vault) (id : Uuid) : Except Fault ScrubJob :=
  if c.running.contains id then .error (.jobAlreadyRunning id)
  else
    match v.catalog.findJob id with
    | .error fault => .error (.ofCatalog fault)
    | .ok j =>
      if j.isCompleted then .error (.jobCompleted id)
      else if !v.isMounted j.volumeId then .error (.capability (.notMounted j.volumeId))
      else .ok j

/-- Asks all running scans to stop and waits for them. -/
def halt (c : Controller) (ticket? : Option Nat) : Controller :=
  let runs := c.running.values
  { runs.foldl cancelRun c with phase := .halting runs ticket?, running := .empty }

/-- Carries out a command. -/
def obey (c : Controller) (now : Nat) (v : Vault) (ticket : Nat) : Command → Controller
  | .resume id =>
    match c.resumable v id with
    | .error fault => c.answer ticket (.refused fault)
    | .ok j => (c.startRun now j).answer ticket .done
  | .stop id =>
    match c.running.get? id with
    | none => c.answer ticket (.refused (.jobNotRunning id))
    | some run =>
      { c.cancelRun run with running := c.running.erase id, phase := .joining run ticket }
  | .list => c.answer ticket (.jobs c.running.keys)
  | .shutdown => c.halt (some ticket)

/-- Looks at the notice of a run: its entry leaves the table, unless it is about another run. -/
def reap (c : Controller) (id : Uuid) (run : Nat) : Controller :=
  if c.running.get? id = some run then { c with running := c.running.erase id } else c

/-- How a run ended, if it has. -/
def outcomeOf? (c : Controller) (run : Nat) : Option Scan.Outcome :=
  (c.tasks.get? run).bind fun t => t.scan.phase.outcome?

/-- The next action of the control loop, if it does not have to wait.  A cancellation comes before
notices, and notices before commands. -/
def serve? (c : Controller) (now : Nat) (v : Vault) : Option Controller :=
  match c.phase with
  | .serving =>
    if c.cancelled then some (c.halt none)
    else
      match c.notices, c.commands with
      | (id, run) :: rest, _ => some ({ c with notices := rest }.reap id run)
      | [], (ticket, command) :: rest => some ({ c with commands := rest }.obey now v ticket command)
      | [], [] => if c.abandoned then some (c.halt none) else none
  | .joining run ticket =>
    (c.outcomeOf? run).map fun outcome =>
      { c.answer ticket (.outcome outcome) with phase := .serving }
  | .halting runs ticket? =>
    if runs.all fun run => (c.outcomeOf? run).isSome then
      match ticket? with
      | some ticket => some { c.answer ticket .done with phase := .ended }
      | none => some { c with phase := .ended }
    else none
  | .ended => none

/-! ### Actions of the scans -/

/-- A scan has taken a step; at its end it leaves a notice. -/
def keep (c : Controller) (run : Nat) (t : Task) : Controller :=
  { c with
    tasks := c.tasks.insert run t
    notices := if t.scan.phase.outcome?.isSome then c.notices ++ [(t.job, run)] else c.notices }

/-- The next action of the scan of a run, if it does not have to wait. -/
def scan? (c : Controller) (now : Nat) (v : Vault) (run : Nat) : Option (Controller × Vault) :=
  match c.tasks.get? run with
  | none => none
  | some t =>
    (t.scan.step? now t.cancelled v).map fun (scan, v) => (c.keep run { t with scan := scan }, v)

/-! ### All actions -/

/-- Something that the controller or one of its scans can do. -/
inductive Action where
  | serve
  | scan (run : Nat)
  deriving DecidableEq, Repr

/-- Carries out an action, if it is possible now. -/
def step? (now : Nat) (v : Vault) (c : Controller) : Action → Option (Controller × Vault)
  | .serve => (c.serve? now v).map fun c => (c, v)
  | .scan run => c.scan? now v run

/-- All actions, whether possible or not. -/
def actions (c : Controller) : List Action := .serve :: c.tasks.keys.map .scan

/-- Carries out the first action that is possible now. -/
def next? (now : Nat) (v : Vault) (c : Controller) : Option (Controller × Vault) :=
  c.actions.findSome? (c.step? now v)

/-- The times that the scans wait for. -/
def wakes (c : Controller) : List Nat := c.tasks.values.filterMap fun t => t.scan.wake?

end Controller

namespace Vault

/-- Records a new scrub job of a volume.  It does not run before it is resumed. -/
def createJob (v : Vault) (volume : VolumeId) (now : Nat) : Except Fault ScrubJob × Vault :=
  match v.catalog.findVolume volume with
  | .error fault => (.error (.ofCatalog fault), v)
  | .ok _ =>
    let (id, storage) := v.storage.drawUuid
    let j := ScrubJob.fresh id volume (Timestamp.ofNanos now)
    (.ok j, { v with storage := storage, catalog := v.catalog.saveJob j })

end Vault

end BlobVault
