import BlobVault.Bytes

/-!
# UTF-8

The byte form of text.  Sizes of reports are counted in these bytes, and every text that is
stored, hashed or parsed as a document goes through `Utf8.encode` and `Utf8.decode?`.
-/

namespace BlobVault.Utf8

/-- The bytes of one code point. -/
def encodeCode (n : Nat) : Bytes :=
  if n < 0x80 then [UInt8.ofNat n]
  else if n < 0x800 then [UInt8.ofNat (0xC0 + n / 64), UInt8.ofNat (0x80 + n % 64)]
  else if n < 0x10000 then
    [UInt8.ofNat (0xE0 + n / 4096), UInt8.ofNat (0x80 + n / 64 % 64), UInt8.ofNat (0x80 + n % 64)]
  else
    [UInt8.ofNat (0xF0 + n / 262144), UInt8.ofNat (0x80 + n / 4096 % 64),
      UInt8.ofNat (0x80 + n / 64 % 64), UInt8.ofNat (0x80 + n % 64)]

/-- The bytes of a list of characters. -/
def encodeChars (cs : List Char) : Bytes := cs.flatMap fun c => encodeCode c.toNat

/-- The bytes of a text. -/
def encode (s : String) : Bytes := encodeChars s.toList

/-- How many bytes a list of characters takes. -/
def size (cs : List Char) : Nat := cs.foldr (fun c n => c.utf8Size + n) 0

/-- A continuation byte's six bits. -/
def continuation? (b : UInt8) : Option Nat :=
  if 0x80 ≤ b.toNat ∧ b.toNat < 0xC0 then some (b.toNat - 0x80) else none

/-- The first character of a byte string, with the number of further bytes it takes.  Overlong
forms, surrogates and numbers past the last code point are refused. -/
def decodeHead? (b : UInt8) (rest : Bytes) : Option (Char × Nat) :=
  let n := b.toNat
  if n < 0x80 then some (Char.ofNat n, 0)
  else if 0xC2 ≤ n ∧ n < 0xE0 then
    match rest with
    | b1 :: _ => do
      let x ← continuation? b1
      pure (Char.ofNat ((n - 0xC0) * 64 + x), 1)
    | _ => none
  else if 0xE0 ≤ n ∧ n < 0xF0 then
    match rest with
    | b1 :: b2 :: _ => do
      let x ← continuation? b1
      let y ← continuation? b2
      let code := (n - 0xE0) * 4096 + x * 64 + y
      if code < 0x800 ∨ (0xD800 ≤ code ∧ code < 0xE000) then none
      else pure (Char.ofNat code, 2)
    | _ => none
  else if 0xF0 ≤ n ∧ n < 0xF5 then
    match rest with
    | b1 :: b2 :: b3 :: _ => do
      let x ← continuation? b1
      let y ← continuation? b2
      let z ← continuation? b3
      let code := (n - 0xF0) * 262144 + x * 4096 + y * 64 + z
      if code < 0x10000 ∨ 0x110000 ≤ code then none
      else pure (Char.ofNat code, 3)
    | _ => none
  else none

/-- The characters of a byte string, or `none` if it is not well-formed.  The first argument
counts the bytes of the current character that are still to be skipped. -/
def decodeChars? : Nat → Bytes → Option (List Char)
  | _, [] => some []
  | skip + 1, _ :: bs => decodeChars? skip bs
  | 0, b :: bs => do
    let (c, more) ← decodeHead? b bs
    let cs ← decodeChars? more bs
    pure (c :: cs)

/-- The text of a byte string, or `none` if it is not well-formed. -/
def decode? (bs : Bytes) : Option String :=
  (decodeChars? 0 bs).map String.ofList

end BlobVault.Utf8
