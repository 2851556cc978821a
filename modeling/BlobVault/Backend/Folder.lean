import BlobVault.Files.Upload

/-!
# Storage in a folder

Each object is a file, in a folder named by the first two digits of its reference.  New content
is uploaded beside its place, so a reader finds no file or a complete one.
-/

namespace BlobVault.Folder

/-- Where the object of a reference is. -/
def pathOf (root : Path) (r : Ref) : Path :=
  root ++ ["blobs", String.ofList (r.toHex.toList.take 2), r.toHex]

/-- What stands between a reference and an identifier in the name of a temporary file. -/
def tempMark : String := ".tmp-"

/-- Where new content of a reference is uploaded to. -/
def tempOf (root : Path) (r : Ref) (id : Uuid) : Path :=
  (pathOf root r).dropLast ++ ["." ++ r.toHex ++ tempMark ++ id.toText]

/-- Opens the file of an object.  A folder in its place can be opened but not read. -/
def fetch (files : Files) (root : Path) (r : Ref) : Except Fault Stream :=
  match files.resolve (pathOf root r) with
  | .ok (.file content) => .ok (.ofBytes content)
  | .ok .folder => .ok [.fail Refusal.isFolder.fault]
  | .error .missing => .error (.notFound (.blob r))
  | .error refusal => .error (.ofIo refusal.fault)

/-- The upload of an object. -/
def upload (root : Path) (r : Ref) (id : Uuid) (content : Stream) : Upload :=
  .start (pathOf root r) (tempOf root r id) content

/-- Writes the file of an object. -/
def store (files : Files) (root : Path) (r : Ref) (id : Uuid) (content : Stream) :
    Except Fault Unit × Files :=
  match (upload root r id content).run files with
  | (.ok (), files) => (.ok (), files)
  | (.error fault, files) => (.error (.ofIo fault), files)

/-- The name of a file, without what is random in it. -/
def shownName (name : String) : String :=
  match name.splitOn tempMark with
  | start :: _ :: _ => start ++ tempMark
  | _ => name

/-- The files under a folder with their sizes, by their shown paths in order. -/
def listing (files : Files) (root : Path) : List (String × Nat) :=
  let shown := (files.under root).map fun (path, content) =>
    (Path.toText (path.map shownName), content.length)
  shown.mergeSort fun a b => (compare a.1 b.1).isLE

end BlobVault.Folder
