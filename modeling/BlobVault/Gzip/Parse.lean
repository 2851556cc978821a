import BlobVault.Gzip.Format

/-!
# Splitting data into literals and copies

The compressor goes through the data with a window of up to 32768 bytes behind it and up to 258
bytes ahead.  Positions whose next three bytes have one hash form a chain, newest first, of which
a limited number is tried.  A match of fewer than 128 bytes is held back by one position, in case
the next position has a longer one.
-/

namespace BlobVault.Gzip

/-- The size of the window. -/
def windowSize : Nat := 32768

/-- The longest match. -/
def maxCopy : Nat := 258

/-- The hash of three bytes. -/
def hash3 (a b c : UInt8) : Nat :=
  ((a.toNat <<< 10) ^^^ (b.toNat <<< 5) ^^^ c.toNat) % windowSize

/-- The chains of positions: the newest position of each hash, and the position before each
position of the window.  Positions are kept modulo 65536, and zero ends a chain. -/
structure Chains where
  newest : Array Nat
  before : Array Nat

/-- Chains without positions. -/
def Chains.empty : Chains := ⟨Array.replicate windowSize 0, Array.replicate windowSize 0⟩

/-- Adds the position of three bytes to their chain. -/
def Chains.add (c : Chains) (data : Array UInt8) (pos : Nat) : Chains :=
  let h := hash3 (data.getD pos 0) (data.getD (pos + 1) 0) (data.getD (pos + 2) 0)
  let old := c.newest.getD h 0
  ⟨c.newest.setIfInBounds h (pos % 65536), c.before.setIfInBounds (pos % windowSize) old⟩

/-- Adds the positions whose third byte is one of the next `count` bytes after `seen`. -/
def Chains.addMany (data : Array UInt8) : (count seen : Nat) → Chains → Chains
  | 0, _, c => c
  | count + 1, seen, c =>
    Chains.addMany data count (seen + 1) (if seen < 2 then c else c.add data (seen - 2))

/-- How many bytes from `length` on, up to `limit`, agree at two positions. -/
def agreement (data : Array UInt8) (p q : Nat) : (room length : Nat) → Nat
  | 0, length => length
  | room + 1, length =>
    if data.getD (p + length) 0 == data.getD (q + length) 0 then
      agreement data p q room (length + 1)
    else length

/-- The search for a match at `pos` in progress. -/
structure Probe where
  /-- Probes that are left. -/
  probes : Nat
  /-- Steps along the chain that are left in this probe. -/
  steps : Nat
  /-- Where on the chain the search stands. -/
  place : Nat
  /-- The best distance so far, zero for none. -/
  distance : Nat
  /-- The best length so far. -/
  length : Nat

/-- Follows the chain.  A probe ends with a candidate whose bytes at the end of the best match so
far are right, or after three steps. -/
def search (data : Array UInt8) (c : Chains) (pos maxDistance maxLength : Nat) :
    (fuel : Nat) → Probe → Nat × Nat
  | 0, p => (p.distance, p.length)
  | fuel + 1, p =>
    if p.steps = 0 then
      if p.probes ≤ 1 then (p.distance, p.length)
      else search data c pos maxDistance maxLength fuel { p with probes := p.probes - 1, steps := 3 }
    else
      let next := c.before.getD (p.place % windowSize) 0
      let distance := (pos % 65536 + 65536 - next) % 65536
      if next = 0 ∨ distance > maxDistance then (p.distance, p.length)
      else
        let q := pos - distance
        let ends := data.getD (q + p.length - 1) 0 == data.getD (pos + p.length - 1) 0
          && data.getD (q + p.length) 0 == data.getD (pos + p.length) 0
        if !ends then
          search data c pos maxDistance maxLength fuel { p with steps := p.steps - 1, place := next }
        else if distance = 0 then (p.distance, p.length)
        else
          let starts := data.getD q 0 == data.getD pos 0
            && data.getD (q + 1) 0 == data.getD (pos + 1) 0
          let length := if starts then agreement data pos q (maxLength - 2) 2 else 0
          if length > p.length then
            if length = maxLength then (distance, length)
            else
              search data c pos maxDistance maxLength fuel
                { p with steps := 0, place := next, distance := distance, length := length }
          else
            search data c pos maxDistance maxLength fuel { p with steps := 0, place := next }

/-- The best match at `pos` that is longer than `atLeast`, as distance and length; a distance of
zero means none. -/
def findCopy (data : Array UInt8) (c : Chains) (pos maxDistance maxLength atLeast : Nat) :
    Nat × Nat :=
  if maxLength ≤ atLeast then (0, atLeast)
  else
    let probes := if atLeast < 32 then 44 else 12
    search data c pos maxDistance maxLength (4 * probes + 4) ⟨probes, 0, pos, 0, atLeast⟩

/-- A run of tokens that is written as one block. -/
structure Block where
  tokens : List Token
  /-- The position of the first byte. -/
  start : Nat
  /-- How many bytes the tokens stand for. -/
  size : Nat
  /-- The bytes were still in the window when the block ended. -/
  storable : Bool

/-- A match that is held back. -/
structure Held where
  literal : UInt8
  distance : Nat
  length : Nat

/-- The state of the compressor. -/
structure Parser where
  chains : Chains
  /-- The position that is looked at. -/
  pos : Nat
  /-- How many bytes from there on are in view. -/
  ahead : Nat
  /-- How many bytes behind it may be copied from. -/
  window : Nat
  held : Option Held
  /-- The tokens of the current block, newest first. -/
  tokens : List Token
  /-- The room that the tokens take in the token buffer. -/
  room : Nat
  /-- How many tokens share the last flag byte of the buffer. -/
  flags : Nat
  start : Nat
  size : Nat
  /-- The finished blocks, newest first. -/
  blocks : List Block

/-- The compressor before the first byte. -/
def Parser.fresh : Parser :=
  { chains := .empty, pos := 0, ahead := 0, window := 0, held := none, tokens := [], room := 1,
    flags := 0, start := 0, size := 0, blocks := [] }

namespace Parser

/-- Adds a token to the current block. -/
def emit (p : Parser) (t : Token) : Parser :=
  let cost := match t with
    | .literal _ => 1
    | .copy _ _ => 3
  let size := match t with
    | .literal _ => 1
    | .copy length _ => length
  let full := p.flags = 7
  { p with
    tokens := t :: p.tokens, size := p.size + size
    room := p.room + cost + (if full then 1 else 0), flags := if full then 0 else p.flags + 1 }

/-- Ends the current block. -/
def endBlock (p : Parser) : Parser :=
  let block : Block := ⟨p.tokens.reverse, p.start, p.size, p.pos - p.start ≤ p.window⟩
  { p with
    tokens := [], room := 1, flags := 0, start := p.start + p.size, size := 0
    blocks := block :: p.blocks }

/-- Brings up to 258 bytes into view. -/
def fill (data : Array UInt8) (p : Parser) : Parser :=
  let seen := p.pos + p.ahead
  let count := min (data.size - seen) (maxCopy - p.ahead)
  let ahead := p.ahead + count
  { p with
    chains := Chains.addMany data count seen p.chains, ahead := ahead
    window := min (windowSize - ahead) p.window }

/-- Moves on by some bytes. -/
def move (p : Parser) (count : Nat) : Parser :=
  { p with
    pos := p.pos + count, ahead := p.ahead - count, window := min (p.window + count) windowSize }

/-- Ends the block when the token buffer is full, or when the tokens take more room than the
bytes they stand for. -/
def settle (p : Parser) : Parser :=
  if p.room > 65528 ∨ (p.size > 31 * 1024 ∧ p.room * 115 / 128 ≥ p.size) then p.endBlock else p

/-- Decides about the bytes at the current position. -/
def decide (data : Array UInt8) (p : Parser) : Parser :=
  let here := data.getD p.pos 0
  let atLeast := match p.held with
    | some h => h.length
    | none => 2
  let (distance, length) := findCopy data p.chains p.pos p.window p.ahead atLeast
  let useless := (length = 3 ∧ distance ≥ 8192) ∨ p.pos % windowSize = distance
  let (distance, length) := if useless then (0, 0) else (distance, length)
  match p.held with
  | some h =>
    if length > h.length then
      let p := p.emit (.literal h.literal)
      if length ≥ 128 then ({ p.emit (.copy length distance) with held := none }).move length
      else ({ p with held := some ⟨here, distance, length⟩ }).move 1
    else ({ p.emit (.copy h.length h.distance) with held := none }).move (h.length - 1)
  | none =>
    if distance = 0 then (p.emit (.literal here)).move 1
    else if length ≥ 128 then (p.emit (.copy length distance)).move length
    else ({ p with held := some ⟨here, distance, length⟩ }).move 1

/-- Goes through the data, deciding at most `fuel` times. -/
def run (data : Array UInt8) : (fuel : Nat) → Parser → Parser
  | 0, p => p
  | fuel + 1, p =>
    let p := p.fill data
    if p.ahead = 0 then p else run data fuel (p.decide data).settle

end Parser

/-- The blocks of some data; the last one may be empty. -/
def blocksOf (data : Array UInt8) : List Block :=
  (Parser.run data (data.size + 1) .fresh).endBlock.blocks.reverse

end BlobVault.Gzip
