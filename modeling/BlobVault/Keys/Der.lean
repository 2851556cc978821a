import BlobVault.Keys.Key

/-!
# Keys in DER

Keys are stored in nested tag–length–value records.  A `Node` is one record; `readPublic?` and
`readPrivate?` know the public key information, the bare RSA keys, the wrapped private keys and
the bare curve keys.  `writePublic` is the form that fingerprints are taken of.
-/

namespace BlobVault.Der

/-- A record: its tag and its content. -/
structure Node where
  tag : UInt8
  content : Bytes

/-- Reads the length of a record and the rest after it. -/
def length? : Bytes → Option (Nat × Bytes)
  | [] => none
  | b :: rest =>
    let n := b.toNat
    if n < 128 then some (n, rest)
    else
      let count := n - 128
      if count = 0 ∨ 4 < count ∨ rest.length < count then none
      else some (Bytes.toNatBE (rest.take count), rest.drop count)

/-- Reads one record and the rest after it. -/
def node? (bs : Bytes) : Option (Node × Bytes) :=
  match bs with
  | [] => none
  | tag :: rest => do
    let (n, rest) ← length? rest
    if rest.length < n then none else some (⟨tag, rest.take n⟩, rest.drop n)

/-- Reads records up to the end, at most `fuel`. -/
def nodes? : (fuel : Nat) → Bytes → Option (List Node)
  | _, [] => some []
  | 0, _ => none
  | fuel + 1, bs => do
    let (n, rest) ← node? bs
    let ns ← nodes? fuel rest
    some (n :: ns)

/-- The parts of a sequence that fills the whole input. -/
def sequence? (bs : Bytes) : Option (List Node) := do
  let (n, rest) ← node? bs
  if n.tag = 0x30 ∧ rest.isEmpty then nodes? n.content.length n.content else none

/-- The parts of a record that is a sequence. -/
def Node.parts? (n : Node) : Option (List Node) :=
  if n.tag = 0x30 then nodes? n.content.length n.content else none

/-- The natural number of an integer record. -/
def Node.natural? (n : Node) : Option Nat :=
  match n.tag, n.content with
  | 2, b :: bs => if b < 128 then some (Bytes.toNatBE (b :: bs)) else none
  | _, _ => none

/-- The bytes of a record of whole bytes of bits. -/
def Node.bits? (n : Node) : Option Bytes :=
  match n.tag, n.content with
  | 3, 0 :: bs => some bs
  | _, _ => none

/-- The algorithm of RSA keys. -/
def rsaId : Bytes := [0x2a, 0x86, 0x48, 0x86, 0xf7, 0x0d, 0x01, 0x01, 0x01]

/-- The algorithm of curve keys. -/
def curveId : Bytes := [0x2a, 0x86, 0x48, 0xce, 0x3d, 0x02, 0x01]

/-- The curve P-256. -/
def p256Id : Bytes := [0x2a, 0x86, 0x48, 0xce, 0x3d, 0x03, 0x01, 0x07]

/-- The algorithms that are known. -/
inductive Algorithm where
  | rsa
  | p256
  deriving DecidableEq

/-- The algorithm of an algorithm record. -/
def Node.algorithm? (n : Node) : Option Algorithm := do
  match ← n.parts? with
  | [⟨6, id⟩] => if id = rsaId then some .rsa else none
  | [⟨6, id⟩, ⟨5, []⟩] => if id = rsaId then some .rsa else none
  | [⟨6, id⟩, ⟨6, curve⟩] => if id = curveId ∧ curve = p256Id then some .p256 else none
  | _ => none

/-- The prime of the curve P-256. -/
def curvePrime : Nat := Nat.pow 2 256 - Nat.pow 2 224 + Nat.pow 2 192 + Nat.pow 2 96 - 1

/-- The constant of the curve P-256. -/
def curveConstant : Nat := 0x5ac635d8aa3a93e7b3ebbd55769886bc651d06b0cc53b0f63bce3c3e27d2604b

/-- A point in uncompressed form that lies on the curve. -/
def point? (bs : Bytes) : Option Bytes :=
  match bs with
  | 4 :: rest =>
    let x := Bytes.toNatBE (rest.take 32)
    let y := Bytes.toNatBE (rest.drop 32)
    if rest.length = 64 ∧ x < curvePrime ∧ y < curvePrime
        ∧ (y * y + 3 * x) % curvePrime = (x * x * x + curveConstant) % curvePrime then some bs
    else none
  | _ => none

/-- Reads a bare RSA public key. -/
def rsaPublic? (bs : Bytes) : Option PublicKey := do
  match ← sequence? bs with
  | [n, e] => some (.rsa (← n.natural?) (← e.natural?))
  | _ => none

/-- Reads a bare RSA private key. -/
def rsaPrivate? (bs : Bytes) : Option PrivateKey := do
  match ← sequence? bs with
  | [_, n, e, d, p, q, dp, dq, qi] =>
    let _ ← [p, q, dp, dq, qi].mapM Node.natural?
    some (.rsa (← n.natural?) (← e.natural?) (← d.natural?))
  | _ => none

/-- Reads a bare curve private key that holds its point. -/
def curvePrivate? (bs : Bytes) : Option PrivateKey := do
  let parts ← sequence? bs
  let held ← parts.find? fun n => n.tag = 0xA1
  match ← nodes? held.content.length held.content with
  | [n] => (point? (← n.bits?)).map .curve
  | _ => none

/-- Reads a public key with its algorithm. -/
def readPublic? (bs : Bytes) : Option PublicKey := do
  match ← sequence? bs with
  | [algorithm, key] =>
    match ← algorithm.algorithm? with
    | .rsa => rsaPublic? (← key.bits?)
    | .p256 => (point? (← key.bits?)).map .curve
  | _ => none

/-- Reads a private key with its algorithm. -/
def readPrivate? (bs : Bytes) : Option PrivateKey := do
  match ← sequence? bs with
  | _ :: algorithm :: ⟨4, key⟩ :: _ =>
    match ← algorithm.algorithm? with
    | .rsa => rsaPrivate? key
    | .p256 => curvePrivate? key
  | _ => none

/-- The fewest bytes of a positive number. -/
def naturalBytes (n : Nat) : Bytes := Bytes.ofNatBE (modulusSize n) n

/-- Writes a record. -/
def write (tag : UInt8) (content : Bytes) : Bytes :=
  let n := content.length
  let length :=
    if n < 128 then [UInt8.ofNat n]
    else UInt8.ofNat (128 + (naturalBytes n).length) :: naturalBytes n
  tag :: (length ++ content)

/-- Writes an integer. -/
def writeNatural (n : Nat) : Bytes :=
  let bs := naturalBytes n
  match bs with
  | [] => write 2 [0]
  | b :: _ => write 2 (if b < 128 then bs else 0 :: bs)

/-- Writes a public key with its algorithm. -/
def writePublic : PublicKey → Bytes
  | .rsa n e =>
    write 0x30 (write 0x30 (write 6 rsaId ++ write 5 [])
      ++ write 3 (0 :: write 0x30 (writeNatural n ++ writeNatural e)))
  | .curve point => write 0x30 (write 0x30 (write 6 curveId ++ write 6 p256Id) ++ write 3 (0 :: point))

end BlobVault.Der
