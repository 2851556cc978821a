/-!
# The tables of the deflate format

Matches of 3 to 258 bytes at distances of up to 32768 are written as a symbol for a range of
values and extra bits for the place in the range.
-/

namespace BlobVault.Gzip

/-- A range of lengths or distances: its smallest member and the number of extra bits. -/
structure Span where
  base : Nat
  extra : Nat
  deriving Inhabited

/-- The ranges of match lengths, for the symbols from 257 on. -/
def lengthSpans : Array Span :=
  #[⟨3, 0⟩, ⟨4, 0⟩, ⟨5, 0⟩, ⟨6, 0⟩, ⟨7, 0⟩, ⟨8, 0⟩, ⟨9, 0⟩, ⟨10, 0⟩, ⟨11, 1⟩, ⟨13, 1⟩, ⟨15, 1⟩,
    ⟨17, 1⟩, ⟨19, 2⟩, ⟨23, 2⟩, ⟨27, 2⟩, ⟨31, 2⟩, ⟨35, 3⟩, ⟨43, 3⟩, ⟨51, 3⟩, ⟨59, 3⟩, ⟨67, 4⟩,
    ⟨83, 4⟩, ⟨99, 4⟩, ⟨115, 4⟩, ⟨131, 5⟩, ⟨163, 5⟩, ⟨195, 5⟩, ⟨227, 5⟩, ⟨258, 0⟩]

/-- The ranges of match distances. -/
def distanceSpans : Array Span :=
  #[⟨1, 0⟩, ⟨2, 0⟩, ⟨3, 0⟩, ⟨4, 0⟩, ⟨5, 1⟩, ⟨7, 1⟩, ⟨9, 2⟩, ⟨13, 2⟩, ⟨17, 3⟩, ⟨25, 3⟩, ⟨33, 4⟩,
    ⟨49, 4⟩, ⟨65, 5⟩, ⟨97, 5⟩, ⟨129, 6⟩, ⟨193, 6⟩, ⟨257, 7⟩, ⟨385, 7⟩, ⟨513, 8⟩, ⟨769, 8⟩,
    ⟨1025, 9⟩, ⟨1537, 9⟩, ⟨2049, 10⟩, ⟨3073, 10⟩, ⟨4097, 11⟩, ⟨6145, 11⟩, ⟨8193, 12⟩,
    ⟨12289, 12⟩, ⟨16385, 13⟩, ⟨24577, 13⟩]

/-- The position of the last range that starts at or below a value. -/
def spanIndex (spans : Array Span) (value : Nat) : Nat :=
  (spans.toList.takeWhile fun s => s.base ≤ value).length - 1

/-- The order in which the word lengths of the length code are listed. -/
def lengthCodeOrder : List Nat :=
  [16, 17, 18, 0, 8, 7, 9, 6, 10, 5, 11, 4, 12, 3, 13, 2, 14, 1, 15]

/-- The fixed word lengths of literals and match lengths. -/
def fixedLiteralLengths : List Nat :=
  List.replicate 144 8 ++ List.replicate 112 9 ++ List.replicate 24 7 ++ List.replicate 8 8

/-- The fixed word lengths of distances. -/
def fixedDistanceLengths : List Nat := List.replicate 32 5

/-- One step of the expansion: a byte, or a copy of bytes that came before. -/
inductive Token where
  | literal (b : UInt8)
  | copy (length distance : Nat)
  deriving Inhabited

end BlobVault.Gzip
