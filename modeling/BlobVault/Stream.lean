import BlobVault.Fault

/-!
# Streams

A source of bytes is a script of what its reads give.  One read gives at most one piece; what is
left of a longer piece stays first.  An empty piece is an end of file that is seen once, a failure
fails one read, and after the last piece every read is at the end of the file.
-/

namespace BlobVault

/-- What one read of a stream can give. -/
inductive Piece where
  | bytes (bs : Bytes)
  | fail (fault : IoFault)
  deriving DecidableEq

/-- A stream as the script of its reads. -/
abbrev Stream := List Piece

namespace Stream

/-- The stream that gives a byte string and then ends. -/
def ofBytes (bs : Bytes) : Stream := [.bytes bs]

/-- The stream that gives a byte string and then fails, or ends. -/
def ofParts (bs : Bytes) (fault? : Option IoFault) : Stream :=
  (if bs.isEmpty then [] else [.bytes bs]) ++ fault?.toList.map .fail

/-- One read with room for `room` bytes.  No bytes with some room means the end of the file; a
read without room takes nothing. -/
def read (room : Nat) (s : Stream) : Except IoFault Bytes × Stream :=
  if room = 0 then (.ok [], s)
  else
    match s with
    | [] => (.ok [], [])
    | .fail fault :: rest => (.error fault, rest)
    | .bytes bs :: rest =>
      if bs.length ≤ room then (.ok bs, rest) else (.ok (bs.take room), .bytes (bs.drop room) :: rest)

/-- What reading to the end of a stream gives: the bytes that came, the failure that ended it
unless the end was clean, and what is left. -/
structure Drained where
  bytes : Bytes
  fault? : Option IoFault
  rest : Stream

/-- Reads up to the first end of file or failure. -/
def drain : Stream → Drained
  | [] => ⟨[], none, []⟩
  | .fail fault :: rest => ⟨[], some fault, rest⟩
  | .bytes bs :: rest =>
    if bs.isEmpty then ⟨[], none, rest⟩
    else
      let d := drain rest
      ⟨bs ++ d.bytes, d.fault?, d.rest⟩

/-- The whole content of a stream, or the failure that ended it. -/
def content (s : Stream) : Except IoFault Bytes :=
  match (drain s).fault? with
  | none => .ok (drain s).bytes
  | some fault => .error fault

end Stream

end BlobVault
