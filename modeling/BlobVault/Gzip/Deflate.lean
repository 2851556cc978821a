import BlobVault.Bytes
import BlobVault.Gzip.Huffman
import BlobVault.Gzip.Parse

/-!
# Writing the deflate format

Each block is written with the fixed code if it stands for fewer than 48 bytes and with a code of
its own otherwise; if that is no shorter than the bytes themselves, they are stored as they are.
-/

namespace BlobVault.Gzip

/-- Bits in the order of writing: whole bytes, and fewer than eight bits after them. -/
structure BitWriter where
  bytes : Array UInt8
  pending : Nat
  count : Nat

namespace BitWriter

/-- Nothing written. -/
def empty : BitWriter := ⟨#[], 0, 0⟩

/-- Moves whole bytes out of the pending bits. -/
def flush : (fuel : Nat) → BitWriter → BitWriter
  | 0, w => w
  | fuel + 1, w =>
    if w.count < 8 then w
    else flush fuel ⟨w.bytes.push (UInt8.ofNat w.pending), w.pending / 256, w.count - 8⟩

/-- Writes the lowest `length` bits of a number, lowest first. -/
def put (w : BitWriter) (value length : Nat) : BitWriter :=
  flush 4 ⟨w.bytes, w.pending + (value % Nat.pow 2 length) * Nat.pow 2 w.count, w.count + length⟩

/-- Writes a code word. -/
def putWord (w : BitWriter) (c : CodeWord) : BitWriter := w.put c.bits c.length

/-- Fills the last byte with zero bits. -/
def pad (w : BitWriter) : BitWriter :=
  if w.count = 0 then w else w.put 0 (8 - w.count)

end BitWriter

/-- One item of the packed form of word lengths: a symbol of the length code, and the number and
value of its extra bits. -/
structure Packed where
  symbol : Nat
  value : Nat
  extra : Nat

/-- `count` further occurrences of a length. -/
def packRepeat (length count : Nat) : List Packed :=
  if count = 0 then [] else if count < 3 then List.replicate count ⟨length, 0, 0⟩
  else [⟨16, count - 3, 2⟩]

/-- `count` zero lengths. -/
def packZeros (count : Nat) : List Packed :=
  if count = 0 then [] else if count < 3 then List.replicate count ⟨0, 0, 0⟩
  else if count ≤ 10 then [⟨17, count - 3, 3⟩] else [⟨18, count - 11, 7⟩]

/-- Packs word lengths.  `last` is the length before, of which `again` occurrences are still to
be written; `zeros` zero lengths are as well. -/
def packLengths (last : Option Nat) (again zeros : Nat) : List Nat → List Packed
  | [] => if again ≠ 0 then packRepeat (last.getD 0) again else packZeros zeros
  | length :: rest =>
    if length = 0 then
      packRepeat (last.getD 0) again ++
        (if zeros + 1 = 138 then packZeros 138 ++ packLengths (some 0) 0 0 rest
        else packLengths (some 0) 0 (zeros + 1) rest)
    else if some length ≠ last then
      packZeros zeros ++ packRepeat (last.getD 0) again ++
        ⟨length, 0, 0⟩ :: packLengths (some length) 0 0 rest
    else if again + 1 = 6 then
      packZeros zeros ++ packRepeat length 6 ++ packLengths (some length) 0 0 rest
    else packZeros zeros ++ packLengths (some length) (again + 1) 0 rest

/-- The literal and distance codes of a block. -/
structure BlockCode where
  literals : Array CodeWord
  distances : Array CodeWord

/-- The code that needs no description. -/
def BlockCode.fixed : BlockCode :=
  ⟨canonical 15 fixedLiteralLengths.toArray, canonical 15 fixedDistanceLengths.toArray⟩

/-- Adds one to a count. -/
def countOne (counts : Array Nat) (i : Nat) : Array Nat :=
  counts.setIfInBounds i (counts.getD i 0 + 1)

/-- How often each symbol occurs in a block, with its one end mark. -/
def symbolCounts (tokens : List Token) : Array Nat × Array Nat :=
  tokens.foldl (fun acc t =>
      match t with
      | .literal b => (countOne acc.1 b.toNat, acc.2)
      | .copy length distance =>
        (countOne acc.1 (257 + spanIndex lengthSpans length),
          countOne acc.2 (spanIndex distanceSpans distance)))
    (countOne (Array.replicate 288 0) 256, Array.replicate 32 0)

/-- How many lengths are left when zeros at the end are dropped, but never fewer than `least`. -/
def usedLengths (least : Nat) (lengths : List Nat) : Nat :=
  max least (lengths.reverse.dropWhile (· = 0)).length

/-- Writes the description of a block's own code and gives the code. -/
def putCode (w : BitWriter) (tokens : List Token) : BitWriter × BlockCode :=
  let counts := symbolCounts tokens
  let literals := codeLengths 15 counts.1
  let distances := codeLengths 15 counts.2
  let literalCount := usedLengths 257 (literals.toList.take 286)
  let distanceCount := usedLengths 1 (distances.toList.take 30)
  let packed := packLengths none 0 0
    (literals.toList.take literalCount ++ distances.toList.take distanceCount)
  let lengthLengths := codeLengths 7
    (packed.foldl (fun acc p => countOne acc p.symbol) (Array.replicate 19 0))
  let lengthWords := canonical 7 lengthLengths
  let ordered := lengthCodeOrder.map fun i => lengthLengths.getD i 0
  let listed := usedLengths 4 ordered
  let w := ((w.put 2 2).put (literalCount - 257) 5).put (distanceCount - 1) 5
  let w := w.put (listed - 4) 4
  let w := (ordered.take listed).foldl (fun w l => w.put l 3) w
  let w := packed.foldl (fun w p => (w.putWord (lengthWords.getD p.symbol ⟨0, 0⟩)).put p.value p.extra) w
  (w, ⟨canonical 15 literals, canonical 15 distances⟩)

/-- Writes one token. -/
def putToken (code : BlockCode) (w : BitWriter) : Token → BitWriter
  | .literal b => w.putWord (code.literals.getD b.toNat ⟨0, 0⟩)
  | .copy length distance =>
    let i := spanIndex lengthSpans length
    let j := spanIndex distanceSpans distance
    let ls := lengthSpans.getD i ⟨0, 0⟩
    let ds := distanceSpans.getD j ⟨0, 0⟩
    let w := (w.putWord (code.literals.getD (257 + i) ⟨0, 0⟩)).put (length - ls.base) ls.extra
    (w.putWord (code.distances.getD j ⟨0, 0⟩)).put (distance - ds.base) ds.extra

/-- Writes bytes as they are. -/
def putStored (w : BitWriter) (data : Array UInt8) (start size : Nat) : BitWriter :=
  let w := (w.put 0 2).pad
  let w := (w.put size 16).put (65535 - size % 65536) 16
  ⟨w.bytes ++ data.extract start (start + size), 0, 0⟩

/-- Writes one block. -/
def putBlock (data : Array UInt8) (w : BitWriter) (b : Block) (last : Bool) : BitWriter :=
  let head := w.put (if last then 1 else 0) 1
  let (described, code) :=
    if b.size < 48 then (head.put 1 2, BlockCode.fixed) else putCode head b.tokens
  let body := b.tokens.foldl (putToken code) described
  let done := body.putWord (code.literals.getD 256 ⟨0, 0⟩)
  if b.size > 32 ∧ done.bytes.size - head.bytes.size + 1 ≥ b.size ∧ b.storable then
    putStored head data b.start b.size
  else done

/-- Writes blocks, the last of which ends the stream. -/
def putBlocks (data : Array UInt8) (w : BitWriter) : List Block → BitWriter
  | [] => w
  | [b] => (putBlock data w b true).pad
  | b :: bs => putBlocks data (putBlock data w b false) bs

/-- The compressed form of some data. -/
def deflate (data : Array UInt8) : Array UInt8 :=
  (putBlocks data .empty (blocksOf data)).bytes

end BlobVault.Gzip
