import BlobVault.Gzip.Format
import BlobVault.Gzip.Huffman

/-!
# Reading the deflate format

Bits are read from the lowest of each byte on.  A copy that reaches back before the first byte
finds zeros there.  Reading ends with the last block, or with one of two faults.
-/

namespace BlobVault.Gzip

/-- Why compressed data cannot be expanded. -/
inductive InflateFault where
  /-- The data ends too early. -/
  | truncated
  /-- The data breaks a rule of the format. -/
  | corrupt
  deriving DecidableEq, Repr

/-- Compressed data, and how many of its bits have been read. -/
structure BitReader where
  data : Array UInt8
  pos : Nat

namespace BitReader

/-- The next bit. -/
def bit (r : BitReader) : Except InflateFault (Nat × BitReader) :=
  if r.pos / 8 < r.data.size then
    .ok (((r.data.getD (r.pos / 8) 0).toNat >>> (r.pos % 8)) % 2, { r with pos := r.pos + 1 })
  else .error .truncated

/-- The next `count` bits as a number, the lowest first. -/
def bits (r : BitReader) : (count : Nat) → Except InflateFault (Nat × BitReader)
  | 0 => .ok (0, r)
  | count + 1 => do
    let (b, r) ← r.bit
    let (n, r) ← r.bits count
    pure (b + 2 * n, r)

/-- Skips to the next byte boundary. -/
def align (r : BitReader) : BitReader := { r with pos := (r.pos + 7) / 8 * 8 }

end BitReader

/-- Reads a word bit by bit.  `code` is the number read so far, `first` the first word of the
current length and `index` the position of its symbol. -/
def readFull (symbols : Array Nat) (r : BitReader) (code first index : Nat) :
    List Nat → Except InflateFault (Nat × BitReader)
  | [] => .error .corrupt
  | n :: counts => do
    let (b, r) ← r.bit
    let code := code + b
    if code < first + n then pure (symbols.getD (index + (code - first)) 0, r)
    else readFull symbols r (2 * code) (2 * (first + n)) (index + n) counts

/-- Reads the only word of a code, whose bits are all zero. -/
def readLone (symbol : Nat) (r : BitReader) : (length : Nat) → Except InflateFault (Nat × BitReader)
  | 0 => .ok (symbol, r)
  | length + 1 => do
    let (b, r) ← r.bit
    if b = 0 then readLone symbol r length else .error .corrupt

/-- Reads the next symbol. -/
def Decoder.read (d : Decoder) (r : BitReader) : Except InflateFault (Nat × BitReader) :=
  match d with
  | .none => do
    let _ ← r.bit
    .error .corrupt
  | .lone symbol length => readLone symbol r length
  | .full counts symbols => readFull symbols r 0 0 0 counts

/-- Reads the word lengths of a block's codes, at most `fuel` symbols; the lengths read so far
are kept newest first. -/
def readLengths (d : Decoder) (total : Nat) :
    (fuel : Nat) → BitReader → (count : Nat) → List Nat → Except InflateFault (List Nat × BitReader)
  | 0, _, _, _ => .error .corrupt
  | fuel + 1, r, count, lengths =>
    if count = total then .ok (lengths.reverse, r)
    else if count > total then .error .corrupt
    else do
      let (symbol, r) ← d.read r
      if symbol < 16 then readLengths d total fuel r (count + 1) (symbol :: lengths)
      else if symbol = 16 then
        match lengths with
        | [] => .error .corrupt
        | last :: _ => do
          let (n, r) ← r.bits 2
          readLengths d total fuel r (count + n + 3) (List.replicate (n + 3) last ++ lengths)
      else if symbol = 17 then do
        let (n, r) ← r.bits 3
        readLengths d total fuel r (count + n + 3) (List.replicate (n + 3) 0 ++ lengths)
      else do
        let (n, r) ← r.bits 7
        readLengths d total fuel r (count + n + 11) (List.replicate (n + 11) 0 ++ lengths)

/-- Reads `count` lengths of three bits. -/
def readTriples : (count : Nat) → BitReader → Except InflateFault (List Nat × BitReader)
  | 0, r => .ok ([], r)
  | count + 1, r => do
    let (n, r) ← r.bits 3
    let (ns, r) ← readTriples count r
    pure (n :: ns, r)

/-- The lengths of the length code by symbol, from their listed order. -/
def orderLengths (listed : List Nat) : List Nat :=
  (List.range 19).map fun symbol =>
    ((lengthCodeOrder.zip listed).lookup symbol).getD 0

/-- A decoder, or the fault that the lengths are wrong. -/
def decoderOf (lengths : List Nat) : Except InflateFault Decoder :=
  match Decoder.ofLengths? lengths with
  | some d => .ok d
  | none => .error .corrupt

/-- Reads the description of a block's own codes. -/
def readCode (r : BitReader) : Except InflateFault (Decoder × Decoder × BitReader) := do
  let (hlit, r) ← r.bits 5
  let (hdist, r) ← r.bits 5
  let (hclen, r) ← r.bits 4
  let literalCount := hlit + 257
  let distanceCount := hdist + 1
  if literalCount > 286 ∨ distanceCount > 30 then .error .corrupt
  else
    let (listed, r) ← readTriples (hclen + 4) r
    let d ← decoderOf (orderLengths listed)
    if !d.isFull then .error .corrupt
    else
      let total := literalCount + distanceCount
      let (lengths, r) ← readLengths d total (total + 1) r 0 []
      let distances ← decoderOf (lengths.drop literalCount)
      let literals ← decoderOf (lengths.take literalCount)
      pure (literals, distances, r)

/-- Appends `count` bytes that stand `distance` before the end. -/
def copyBack (distance : Nat) : (count : Nat) → Array UInt8 → Array UInt8
  | 0, out => out
  | count + 1, out =>
    let b := if distance ≤ out.size then out.getD (out.size - distance) 0 else 0
    copyBack distance count (out.push b)

/-- Reads the tokens of a block up to its end mark. -/
def readTokens (literals distances : Decoder) :
    (fuel : Nat) → BitReader → Array UInt8 → Except InflateFault (Array UInt8 × BitReader)
  | 0, _, _ => .error .truncated
  | fuel + 1, r, out => do
    let (symbol, r) ← literals.read r
    if symbol < 256 then readTokens literals distances fuel r (out.push (UInt8.ofNat symbol))
    else if symbol = 256 then pure (out, r)
    else if symbol > 285 then .error .corrupt
    else
      let ls := lengthSpans.getD (symbol - 257) ⟨0, 0⟩
      let (n, r) ← r.bits ls.extra
      let (place, r) ← distances.read r
      if place > 29 then .error .corrupt
      else
        let ds := distanceSpans.getD place ⟨0, 0⟩
        let (m, r) ← r.bits ds.extra
        readTokens literals distances fuel r (copyBack (ds.base + m) (ls.base + n) out)

/-- Reads a block that is stored as it is. -/
def readStored (r : BitReader) (out : Array UInt8) :
    Except InflateFault (Array UInt8 × BitReader) := do
  let r := r.align
  let (size, r) ← r.bits 16
  let (check, r) ← r.bits 16
  if size + check ≠ 65535 then .error .corrupt
  else
    let start := r.pos / 8
    if start + size > r.data.size then .error .truncated
    else pure (out ++ r.data.extract start (start + size), { r with pos := r.pos + 8 * size })

/-- Reads one block of the given type. -/
def readBlock (kind : Nat) (r : BitReader) (out : Array UInt8) :
    Except InflateFault (Array UInt8 × BitReader) := do
  let fuel := 8 * r.data.size + 1
  match kind with
  | 0 => readStored r out
  | 1 =>
    let literals ← decoderOf fixedLiteralLengths
    let distances ← decoderOf fixedDistanceLengths
    readTokens literals distances fuel r out
  | 2 => do
    let (literals, distances, r) ← readCode r
    readTokens literals distances fuel r out
  | _ => .error .corrupt

/-- Reads blocks up to the last one. -/
def readBlocks : (fuel : Nat) → BitReader → Array UInt8 →
    Except InflateFault (Array UInt8 × BitReader)
  | 0, _, _ => .error .truncated
  | fuel + 1, r, out => do
    let (last, r) ← r.bit
    let (kind, r) ← r.bits 2
    let (out, r) ← readBlock kind r out
    if last = 1 then pure (out, r) else readBlocks fuel r out

/-- Expands the compressed data that starts at byte `start`; gives the position of the byte
after it as well. -/
def inflate (data : Array UInt8) (start : Nat) : Except InflateFault (Array UInt8 × Nat) := do
  let (out, r) ← readBlocks (8 * data.size + 1) ⟨data, 8 * start⟩ #[]
  pure (out, r.align.pos / 8)

end BlobVault.Gzip
