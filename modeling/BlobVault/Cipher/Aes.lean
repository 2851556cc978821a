import BlobVault.Bytes

/-!
# AES

The block cipher behind the keystream: one block of sixteen bytes under a key of 16, 24 or 32
bytes.  Only the encrypting direction is needed, since a keystream is undone by itself.
-/

namespace BlobVault.Aes

/-- Four bytes: a column of the cipher's state, or a word of the key schedule. -/
structure Word where
  b0 : UInt8
  b1 : UInt8
  b2 : UInt8
  b3 : UInt8
  deriving DecidableEq, Repr

namespace Word

/-- Bytewise exclusive or. -/
def xor (v w : Word) : Word := ⟨v.b0 ^^^ w.b0, v.b1 ^^^ w.b1, v.b2 ^^^ w.b2, v.b3 ^^^ w.b3⟩

/-- The four bytes in order. -/
def toBytes (w : Word) : Bytes := [w.b0, w.b1, w.b2, w.b3]

end Word

/-- The words of a byte string; a rest of fewer than four bytes is left out. -/
def wordsOf : Bytes → List Word
  | b0 :: b1 :: b2 :: b3 :: rest => ⟨b0, b1, b2, b3⟩ :: wordsOf rest
  | _ => []

/-- The substitution table. -/
def substitutionTable : Array UInt8 :=
  #[0x63, 0x7c, 0x77, 0x7b, 0xf2, 0x6b, 0x6f, 0xc5, 0x30, 0x01, 0x67, 0x2b, 0xfe, 0xd7, 0xab, 0x76,
    0xca, 0x82, 0xc9, 0x7d, 0xfa, 0x59, 0x47, 0xf0, 0xad, 0xd4, 0xa2, 0xaf, 0x9c, 0xa4, 0x72, 0xc0,
    0xb7, 0xfd, 0x93, 0x26, 0x36, 0x3f, 0xf7, 0xcc, 0x34, 0xa5, 0xe5, 0xf1, 0x71, 0xd8, 0x31, 0x15,
    0x04, 0xc7, 0x23, 0xc3, 0x18, 0x96, 0x05, 0x9a, 0x07, 0x12, 0x80, 0xe2, 0xeb, 0x27, 0xb2, 0x75,
    0x09, 0x83, 0x2c, 0x1a, 0x1b, 0x6e, 0x5a, 0xa0, 0x52, 0x3b, 0xd6, 0xb3, 0x29, 0xe3, 0x2f, 0x84,
    0x53, 0xd1, 0x00, 0xed, 0x20, 0xfc, 0xb1, 0x5b, 0x6a, 0xcb, 0xbe, 0x39, 0x4a, 0x4c, 0x58, 0xcf,
    0xd0, 0xef, 0xaa, 0xfb, 0x43, 0x4d, 0x33, 0x85, 0x45, 0xf9, 0x02, 0x7f, 0x50, 0x3c, 0x9f, 0xa8,
    0x51, 0xa3, 0x40, 0x8f, 0x92, 0x9d, 0x38, 0xf5, 0xbc, 0xb6, 0xda, 0x21, 0x10, 0xff, 0xf3, 0xd2,
    0xcd, 0x0c, 0x13, 0xec, 0x5f, 0x97, 0x44, 0x17, 0xc4, 0xa7, 0x7e, 0x3d, 0x64, 0x5d, 0x19, 0x73,
    0x60, 0x81, 0x4f, 0xdc, 0x22, 0x2a, 0x90, 0x88, 0x46, 0xee, 0xb8, 0x14, 0xde, 0x5e, 0x0b, 0xdb,
    0xe0, 0x32, 0x3a, 0x0a, 0x49, 0x06, 0x24, 0x5c, 0xc2, 0xd3, 0xac, 0x62, 0x91, 0x95, 0xe4, 0x79,
    0xe7, 0xc8, 0x37, 0x6d, 0x8d, 0xd5, 0x4e, 0xa9, 0x6c, 0x56, 0xf4, 0xea, 0x65, 0x7a, 0xae, 0x08,
    0xba, 0x78, 0x25, 0x2e, 0x1c, 0xa6, 0xb4, 0xc6, 0xe8, 0xdd, 0x74, 0x1f, 0x4b, 0xbd, 0x8b, 0x8a,
    0x70, 0x3e, 0xb5, 0x66, 0x48, 0x03, 0xf6, 0x0e, 0x61, 0x35, 0x57, 0xb9, 0x86, 0xc1, 0x1d, 0x9e,
    0xe1, 0xf8, 0x98, 0x11, 0x69, 0xd9, 0x8e, 0x94, 0x9b, 0x1e, 0x87, 0xe9, 0xce, 0x55, 0x28, 0xdf,
    0x8c, 0xa1, 0x89, 0x0d, 0xbf, 0xe6, 0x42, 0x68, 0x41, 0x99, 0x2d, 0x0f, 0xb0, 0x54, 0xbb, 0x16]

/-- Substitution of one byte. -/
def substitute (b : UInt8) : UInt8 := substitutionTable.getD b.toNat 0

/-- Substitution of a word. -/
def substituteWord (w : Word) : Word :=
  ⟨substitute w.b0, substitute w.b1, substitute w.b2, substitute w.b3⟩

/-- Doubling in the field of 256 elements. -/
def double (b : UInt8) : UInt8 :=
  if b &&& 0x80 = 0 then b <<< 1 else (b <<< 1) ^^^ 0x1b

/-- Mixes the bytes of one column. -/
def mixColumn (w : Word) : Word :=
  let all := w.b0 ^^^ w.b1 ^^^ w.b2 ^^^ w.b3
  ⟨w.b0 ^^^ all ^^^ double (w.b0 ^^^ w.b1), w.b1 ^^^ all ^^^ double (w.b1 ^^^ w.b2),
    w.b2 ^^^ all ^^^ double (w.b2 ^^^ w.b3), w.b3 ^^^ all ^^^ double (w.b3 ^^^ w.b0)⟩

/-- The cipher's state: four columns. -/
structure State where
  c0 : Word
  c1 : Word
  c2 : Word
  c3 : Word
  deriving DecidableEq, Repr

namespace State

/-- Columnwise exclusive or. -/
def xor (s t : State) : State := ⟨s.c0.xor t.c0, s.c1.xor t.c1, s.c2.xor t.c2, s.c3.xor t.c3⟩

/-- Substitutes every byte and rotates row `i` by `i` places. -/
def substituteAndShift (s : State) : State :=
  ⟨substituteWord ⟨s.c0.b0, s.c1.b1, s.c2.b2, s.c3.b3⟩,
    substituteWord ⟨s.c1.b0, s.c2.b1, s.c3.b2, s.c0.b3⟩,
    substituteWord ⟨s.c2.b0, s.c3.b1, s.c0.b2, s.c1.b3⟩,
    substituteWord ⟨s.c3.b0, s.c0.b1, s.c1.b2, s.c2.b3⟩⟩

/-- Mixes every column. -/
def mixColumns (s : State) : State :=
  ⟨mixColumn s.c0, mixColumn s.c1, mixColumn s.c2, mixColumn s.c3⟩

/-- The sixteen bytes, column by column. -/
def toBytes (s : State) : Bytes :=
  s.c0.toBytes ++ s.c1.toBytes ++ s.c2.toBytes ++ s.c3.toBytes

/-- The state that holds the first sixteen bytes of a byte string; missing bytes are zero. -/
def ofBytes (bs : Bytes) : State :=
  match wordsOf (bs ++ List.replicate (16 - bs.length) 0) with
  | c0 :: c1 :: c2 :: c3 :: _ => ⟨c0, c1, c2, c3⟩
  | _ => ⟨⟨0, 0, 0, 0⟩, ⟨0, 0, 0, 0⟩, ⟨0, 0, 0, 0⟩, ⟨0, 0, 0, 0⟩⟩

end State

/-- The next word of a key schedule.  `recent` holds the last `n` words, newest first, of a key
of `n` words; `i` is the position of the new word and `rc` the current round constant. -/
def nextWord (n i : Nat) (rc : UInt8) (recent : List Word) : Word :=
  let last := recent.getD 0 ⟨0, 0, 0, 0⟩
  let back := recent.getD (n - 1) ⟨0, 0, 0, 0⟩
  if i % n = 0 then
    let t := substituteWord ⟨last.b1, last.b2, last.b3, last.b0⟩
    back.xor ⟨t.b0 ^^^ rc, t.b1, t.b2, t.b3⟩
  else if n > 6 ∧ i % n = 4 then back.xor (substituteWord last)
  else back.xor last

/-- Appends `count` words to a key schedule kept newest first. -/
def extend (n : Nat) : (count i : Nat) → (rc : UInt8) → List Word → List Word
  | 0, _, _, recent => recent
  | count + 1, i, rc, recent =>
    extend n count (i + 1) (if i % n = 0 then double rc else rc) (nextWord n i rc recent :: recent)

/-- Groups schedule words into round keys. -/
def roundKeysOf : List Word → List State
  | c0 :: c1 :: c2 :: c3 :: rest => ⟨c0, c1, c2, c3⟩ :: roundKeysOf rest
  | _ => []

/-- The round keys of a key: as many rounds as key words and six more, and one key before the
first round. -/
def schedule (key : Bytes) : List State :=
  let words := wordsOf key
  let n := words.length
  roundKeysOf (extend n (4 * (n + 7) - n) n 1 words.reverse).reverse

/-- The rounds after the first key addition; the last one does not mix columns. -/
def rounds (s : State) : List State → State
  | [] => s
  | [k] => s.substituteAndShift.xor k
  | k :: ks => rounds (s.substituteAndShift.mixColumns.xor k) ks

/-- Encrypts one block under a list of round keys. -/
def encryptWith (keys : List State) (s : State) : State :=
  match keys with
  | [] => s
  | k :: ks => rounds (s.xor k) ks

/-- Encrypts one block of sixteen bytes under a key. -/
def encrypt (key block : Bytes) : Bytes :=
  (encryptWith (schedule key) (State.ofBytes block)).toBytes

@[simp] theorem State.length_toBytes (s : State) : s.toBytes.length = 16 := rfl

end BlobVault.Aes
