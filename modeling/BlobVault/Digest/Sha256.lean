import BlobVault.Bytes

/-!
# SHA-256

The digest that names every blob.  There are two ways to compute it: `Sha256.hash` pads a whole
message and compresses its blocks, and a `Sha256.Hasher` takes the message in pieces of any size,
keeping back the bytes of an unfinished block.
-/

namespace BlobVault.Sha256

/-- The eight chaining words. -/
structure Chain where
  a : UInt32
  b : UInt32
  c : UInt32
  d : UInt32
  e : UInt32
  f : UInt32
  g : UInt32
  h : UInt32
  deriving DecidableEq, Repr

/-- The chaining words before the first block. -/
def Chain.start : Chain :=
  ⟨0x6a09e667, 0xbb67ae85, 0x3c6ef372, 0xa54ff53a, 0x510e527f, 0x9b05688c, 0x1f83d9ab, 0x5be0cd19⟩

/-- Wordwise sum of two chains. -/
def Chain.add (s t : Chain) : Chain :=
  ⟨s.a + t.a, s.b + t.b, s.c + t.c, s.d + t.d, s.e + t.e, s.f + t.f, s.g + t.g, s.h + t.h⟩

/-- The 32 bytes of a chain. -/
def Chain.toBytes (s : Chain) : Bytes :=
  [s.a, s.b, s.c, s.d, s.e, s.f, s.g, s.h].flatMap fun w => Bytes.ofNatBE 4 w.toNat

/-- One constant for each of the 64 rounds. -/
def roundConstants : List UInt32 :=
  [ 0x428a2f98, 0x71374491, 0xb5c0fbcf, 0xe9b5dba5, 0x3956c25b, 0x59f111f1,
    0x923f82a4, 0xab1c5ed5, 0xd807aa98, 0x12835b01, 0x243185be, 0x550c7dc3,
    0x72be5d74, 0x80deb1fe, 0x9bdc06a7, 0xc19bf174, 0xe49b69c1, 0xefbe4786,
    0x0fc19dc6, 0x240ca1cc, 0x2de92c6f, 0x4a7484aa, 0x5cb0a9dc, 0x76f988da,
    0x983e5152, 0xa831c66d, 0xb00327c8, 0xbf597fc7, 0xc6e00bf3, 0xd5a79147,
    0x06ca6351, 0x14292967, 0x27b70a85, 0x2e1b2138, 0x4d2c6dfc, 0x53380d13,
    0x650a7354, 0x766a0abb, 0x81c2c92e, 0x92722c85, 0xa2bfe8a1, 0xa81a664b,
    0xc24b8b70, 0xc76c51a3, 0xd192e819, 0xd6990624, 0xf40e3585, 0x106aa070,
    0x19a4c116, 0x1e376c08, 0x2748774c, 0x34b0bcb5, 0x391c0cb3, 0x4ed8aa4a,
    0x5b9cca4f, 0x682e6ff3, 0x748f82ee, 0x78a5636f, 0x84c87814, 0x8cc70208,
    0x90befffa, 0xa4506ceb, 0xbef9a3f7, 0xc67178f2 ]

/-- Rotation to the right. -/
def rotate (x : UInt32) (n : UInt32) : UInt32 := (x >>> n) ||| (x <<< (32 - n))

/-- The sixteen big-endian words of a block. -/
def wordsOf : Bytes → List UInt32
  | b0 :: b1 :: b2 :: b3 :: rest =>
    ((b0.toUInt32 <<< 24) ||| (b1.toUInt32 <<< 16) ||| (b2.toUInt32 <<< 8) ||| b3.toUInt32)
      :: wordsOf rest
  | _ => []

/-- The word that follows a window of sixteen in the message schedule. -/
def nextWord (window : List UInt32) : UInt32 :=
  let w1 := window.getD 1 0
  let w14 := window.getD 14 0
  let s0 := rotate w1 7 ^^^ rotate w1 18 ^^^ (w1 >>> 3)
  let s1 := rotate w14 17 ^^^ rotate w14 19 ^^^ (w14 >>> 10)
  window.getD 0 0 + s0 + window.getD 9 0 + s1

/-- One round with its constant and its schedule word. -/
def round (s : Chain) (k w : UInt32) : Chain :=
  let s1 := rotate s.e 6 ^^^ rotate s.e 11 ^^^ rotate s.e 25
  let ch := (s.e &&& s.f) ^^^ ((s.e ^^^ 0xffffffff) &&& s.g)
  let t1 := s.h + s1 + ch + k + w
  let s0 := rotate s.a 2 ^^^ rotate s.a 13 ^^^ rotate s.a 22
  let maj := (s.a &&& s.b) ^^^ (s.a &&& s.c) ^^^ (s.b &&& s.c)
  ⟨t1 + (s0 + maj), s.a, s.b, s.c, s.d + t1, s.e, s.f, s.g⟩

/-- Runs the rounds whose constants are given; the window holds the next sixteen schedule
words. -/
def rounds (s : Chain) (window : List UInt32) : List UInt32 → Chain
  | [] => s
  | k :: ks => rounds (round s k (window.getD 0 0)) (window.drop 1 ++ [nextWord window]) ks

/-- Takes one block of 64 bytes into the chain. -/
def compress (s : Chain) (block : Bytes) : Chain :=
  s.add (rounds s (wordsOf block) roundConstants)

/-- Takes the first `blocks` blocks of a byte string into the chain. -/
def absorb (s : Chain) : (blocks : Nat) → Bytes → Chain
  | 0, _ => s
  | blocks + 1, bs => absorb (compress s (bs.take 64)) blocks (bs.drop 64)

/-- What follows a message of `n` bytes: a one bit, the fewest zeros that fill the block, and the
length in bits. -/
def padding (n : Nat) : Bytes :=
  0x80 :: (List.replicate ((119 - n % 64) % 64) 0 ++ Bytes.ofNatBE 8 (8 * n))

/-- Takes a message whose length is a whole number of blocks into the chain. -/
def absorbAll (s : Chain) (bs : Bytes) : Chain := absorb s (bs.length / 64) bs

/-- The digest of a message. -/
def hash (message : Bytes) : Bytes :=
  (absorbAll Chain.start (message ++ padding message.length)).toBytes

/-- A digest in progress. -/
structure Hasher where
  /-- The chain after all whole blocks. -/
  chain : Chain
  /-- The bytes after the last whole block. -/
  pending : Bytes
  /-- How many bytes have been taken in. -/
  count : Nat
  deriving DecidableEq, Repr

namespace Hasher

/-- A hasher that has seen nothing. -/
def fresh : Hasher := ⟨Chain.start, [], 0⟩

/-- Takes in the next piece of the message. -/
def update (s : Hasher) (piece : Bytes) : Hasher :=
  let bs := s.pending ++ piece
  let blocks := bs.length / 64
  ⟨absorb s.chain blocks bs, bs.drop (64 * blocks), s.count + piece.length⟩

/-- The digest of everything taken in. -/
def finish (s : Hasher) : Bytes :=
  (absorbAll s.chain (s.pending ++ padding s.count)).toBytes

end Hasher

@[simp] theorem Chain.length_toBytes (s : Chain) : s.toBytes.length = 32 := by
  simp [Chain.toBytes]

@[simp] theorem length_hash (message : Bytes) : (hash message).length = 32 := by
  simp [hash]

@[simp] theorem Hasher.length_finish (s : Hasher) : s.finish.length = 32 := by
  simp [Hasher.finish]

end BlobVault.Sha256
