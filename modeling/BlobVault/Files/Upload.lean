import BlobVault.Files.Tree
import BlobVault.Stream

/-!
# Uploads

A file appears at its place complete or not at all: its content is written to a temporary file
beside it, which is then renamed.  An upload is the list of file operations that this takes, one
for each step, so that other uploads can come between any two of them.  An upload that fails
removes its temporary file.
-/

namespace BlobVault

namespace Upload

/-- What is left to do. -/
inductive Phase where
  /-- The folder of the target has to be made. -/
  | preparing (content : Stream)
  /-- The temporary file has to be made. -/
  | creating (content : Stream)
  /-- Content has to be written to the temporary file. -/
  | copying (content : Stream)
  /-- The temporary file has to be brought to the disk. -/
  | syncing
  /-- The temporary file has to take its place. -/
  | publishing
  /-- The temporary file has to be removed. -/
  | discarding (fault : IoFault)
  | finished (outcome : Except IoFault Unit)

/-- The most steps that a phase is away from the end. -/
def Phase.distance : Phase → Nat
  | preparing content => content.length + 6
  | creating content => content.length + 5
  | copying content => content.length + 4
  | syncing => 3
  | publishing => 2
  | discarding _ => 1
  | finished _ => 0

/-- How an upload ended, if it has. -/
def Phase.outcome? : Phase → Option (Except IoFault Unit)
  | finished outcome => some outcome
  | _ => none

end Upload

/-- A file on its way to its place. -/
structure Upload where
  target : Path
  temp : Path
  phase : Upload.Phase

namespace Upload

/-- An upload that has not begun. -/
def start (target temp : Path) (content : Stream) : Upload := ⟨target, temp, .preparing content⟩

/-- The phase after an operation that may be refused. -/
def after (next : Phase) (whenRefused : IoFault → Phase) (files : Files) :
    Except Refusal Files → Phase × Files
  | .ok files => (next, files)
  | .error refusal => (whenRefused refusal.fault, files)

/-- Writes the next piece of content. -/
def copyPiece (temp : Path) (files : Files) : Stream → Phase × Files
  | [] => (.syncing, files)
  | .fail fault :: _ => (.discarding fault, files)
  | .bytes bs :: rest =>
    if bs.isEmpty then (.syncing, files) else (.copying rest, files.append temp bs)

/-- One operation. -/
def advance (u : Upload) (files : Files) : Phase × Files :=
  match u.phase with
  | .preparing content =>
    after (.creating content) (fun fault => .finished (.error fault)) files
      (files.createFolders u.target.dropLast)
  | .creating content => after (.copying content) .discarding files (files.create u.temp)
  | .copying content => copyPiece u.temp files content
  | .syncing => (.publishing, files)
  | .publishing => after (.finished (.ok ())) .discarding files (files.rename u.temp u.target)
  | .discarding fault =>
    (.finished (.error fault), match files.remove u.temp with
      | .ok files => files
      | .error _ => files)
  | .finished outcome => (.finished outcome, files)

/-- One step of an upload. -/
def step (u : Upload) (files : Files) : Upload × Files :=
  ({ u with phase := (u.advance files).1 }, (u.advance files).2)

theorem distance_after (next : Phase) (whenRefused : IoFault → Phase) (files : Files)
    (answer : Except Refusal Files) {n : Nat} (hn : next.distance < n)
    (hr : ∀ fault, (whenRefused fault).distance < n) :
    (after next whenRefused files answer).1.distance < n := by
  cases answer with
  | ok => exact hn
  | error refusal => exact hr refusal.fault

theorem distance_copyPiece (temp : Path) (files : Files) (content : Stream) :
    (copyPiece temp files content).1.distance < content.length + 4 := by
  unfold copyPiece
  split <;> try split
  all_goals simp [Phase.distance]

/-- Every step brings an upload nearer to its end. -/
theorem distance_step (u : Upload) (files : Files) (h : u.phase.outcome? = none) :
    (u.step files).1.phase.distance < u.phase.distance := by
  unfold step advance
  split <;> rename_i hp
  · rw [hp]; exact distance_after _ _ _ _ (by simp [Phase.distance]) (by simp [Phase.distance])
  · rw [hp]; exact distance_after _ _ _ _ (by simp [Phase.distance]) (by simp [Phase.distance])
  · rw [hp]; exact distance_copyPiece _ _ _
  · rw [hp]; simp [Phase.distance]
  · rw [hp]; exact distance_after _ _ _ _ (by simp [Phase.distance]) (by simp [Phase.distance])
  · rw [hp]; simp [Phase.distance]
  · simp [hp, Phase.outcome?] at h

/-- All the steps of an upload. -/
def run (u : Upload) (files : Files) : Except IoFault Unit × Files :=
  match _ : u.phase.outcome? with
  | some outcome => (outcome, files)
  | none => run (u.step files).1 (u.step files).2
termination_by u.phase.distance
decreasing_by exact distance_step u files (by assumption)

end Upload

end BlobVault
