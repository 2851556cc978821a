import BlobVault.Fault
import BlobVault.OrderedMap

/-!
# File trees

A tree maps paths to folders and files; the root is always a folder.  An operation either answers
the next tree or is refused, for a reason that has a number on every system, and then it changes
nothing.
-/

namespace BlobVault

/-- The names from the root down to a file or folder. -/
abbrev Path := List String

/-- The path that a text denotes. -/
def Path.ofText (text : String) : Path :=
  ((text.splitOn "/").foldl (fun names name =>
    if name.isEmpty || name == "." then names
    else if name == ".." then names.drop 1
    else name :: names) []).reverse

/-- The text of a path relative to some folder. -/
def Path.toText (path : Path) : String := "/".intercalate path

/-- The paths above a path, shortest first. -/
def Path.above (path : Path) : List Path := (List.range path.length).map path.take

/-- What a path leads to. -/
inductive Files.Node where
  | folder
  | file (content : Bytes)
  deriving DecidableEq

/-- The files and folders under the root. -/
structure Files where
  nodes : OrderedMap Path Files.Node

/-- The system's codes for the reasons to refuse a file operation. -/
inductive Refusal where
  | missing
  | exists
  | notFolder
  | isFolder
  deriving DecidableEq, Repr

/-- The system's number for a refusal. -/
def Refusal.code : Refusal → Nat
  | .missing => 2
  | .exists => 17
  | .notFolder => 20
  | .isFolder => 21

/-- A refusal as a stream fault. -/
def Refusal.fault (r : Refusal) : IoFault := .system r.code

namespace Files

/-- The tree with nothing but its root. -/
def empty : Files := ⟨.empty⟩

/-- What is at a path. -/
def look? (files : Files) (path : Path) : Option Node :=
  if path = [] then some .folder else files.nodes.get? path

/-- Puts a file or folder at a path. -/
def put (files : Files) (path : Path) (node : Node) : Files :=
  ⟨files.nodes.insert path node⟩

/-- Takes away what is at a path. -/
def drop (files : Files) (path : Path) : Files := ⟨files.nodes.erase path⟩

/-- Some folder on the way to a path is a file. -/
def blocked (files : Files) (path : Path) : Bool :=
  path.above.any fun above =>
    match files.look? above with
    | some (.file _) => true
    | _ => false

/-- Follows a path to what is there. -/
def resolve (files : Files) (path : Path) : Except Refusal Node :=
  match files.look? path with
  | some node => .ok node
  | none => .error (if files.blocked path then .notFolder else .missing)

/-- The content of the file at a path. -/
def read (files : Files) (path : Path) : Except Refusal Bytes :=
  match files.resolve path with
  | .ok (.file content) => .ok content
  | .ok .folder => .error .isFolder
  | .error refusal => .error refusal

/-- Makes a folder unless something is there. -/
def putFolder (files : Files) (path : Path) : Files :=
  match files.look? path with
  | some _ => files
  | none => files.put path .folder

/-- Makes a folder and those above it. -/
def createFolders (files : Files) (path : Path) : Except Refusal Files :=
  if files.blocked path then .error .notFolder
  else
    match files.look? path with
    | some (.file _) => .error .exists
    | _ => .ok ((path.above ++ [path]).foldl putFolder files)

/-- Makes an empty file, or empties the one that is there. -/
def create (files : Files) (path : Path) : Except Refusal Files :=
  match files.look? path with
  | some .folder => .error .isFolder
  | some (.file _) => .ok (files.put path (.file []))
  | none =>
    match files.resolve path.dropLast with
    | .ok .folder => .ok (files.put path (.file []))
    | .ok (.file _) => .error .notFolder
    | .error refusal => .error refusal

/-- Adds bytes at the end of a file. -/
def append (files : Files) (path : Path) (bs : Bytes) : Files :=
  match files.look? path with
  | some (.file content) => files.put path (.file (content ++ bs))
  | _ => files

/-- Moves a file, in place of one that is there. -/
def rename (files : Files) (source target : Path) : Except Refusal Files :=
  match files.resolve source with
  | .error refusal => .error refusal
  | .ok node =>
    match files.look? target with
    | some .folder => .error .isFolder
    | _ => .ok ((files.drop source).put target node)

/-- Removes a file. -/
def remove (files : Files) (path : Path) : Except Refusal Files :=
  match files.resolve path with
  | .error refusal => .error refusal
  | .ok .folder => .error .isFolder
  | .ok (.file _) => .ok (files.drop path)

/-- Writes a whole file, with the folders above it. -/
def write (files : Files) (path : Path) (content : Bytes) : Except Refusal Files :=
  match files.createFolders path.dropLast with
  | .error refusal => .error refusal
  | .ok files =>
    match files.create path with
    | .error refusal => .error refusal
    | .ok files => .ok (files.append path content)

/-- The files under a folder, by their paths relative to it. -/
def under (files : Files) (folder : Path) : List (Path × Bytes) :=
  files.nodes.entries.filterMap fun (path, node) =>
    match node with
    | .folder => none
    | .file content =>
      if folder.isPrefixOf path then some (path.drop folder.length, content) else none

end Files

end BlobVault
