import BlobVault.Fault

/-!
# Reports

A scrub writes one line for each blob that it cannot confirm.  A report that has grown too long is
cut back to whole lines, and a last line says so.
-/

namespace BlobVault.Report

/-- The entry about a blob. -/
def entry (r : Ref) (fault : Fault) : String := r.toHex ++ ": " ++ fault.message ++ "\n"

/-- The last line of a report that was cut. -/
def marker : String := "[report truncated: error limit reached, scan aborted]\n"

/-- The longest start of a text that takes at most `room` bytes. -/
def fitting : (room : Nat) → List Char → List Char
  | _, [] => []
  | room, c :: cs => if c.utf8Size ≤ room then c :: fitting (room - c.utf8Size) cs else []

/-- A text up to its last line end. -/
def wholeLines (cs : List Char) : List Char := (cs.reverse.dropWhile (· != '\n')).reverse

/-- The report is longer than allowed. -/
def isOver (report : String) (cap : Nat) : Bool := cap < report.utf8ByteSize

/-- The lines of a report that leave room for the marker, and the marker. -/
def truncate (report : String) (cap : Nat) : String :=
  String.ofList (wholeLines (fitting (cap - marker.utf8ByteSize) report.toList)) ++ marker

end BlobVault.Report
