/-!
# Canonical Huffman codes

A code is fixed by the length of each symbol's word.  `codeLengths` chooses lengths from symbol
counts: it merges the two lightest trees until one is left, a leaf before a merged tree of the
same weight, and then shortens words over the limit.  `canonical` numbers the words of given
lengths, and `Decoder` reads them back.
-/

namespace BlobVault.Gzip

/-- The shape of a merged tree. -/
inductive Tree where
  | leaf
  | node (left right : Tree)

namespace Tree

/-- Adds the depths of the leaves to a list, for a tree whose root lies at the given depth. -/
def depths : Tree → Nat → List Nat → List Nat
  | leaf, depth, acc => depth :: acc
  | node l r, depth, acc => l.depths (depth + 1) (r.depths (depth + 1) acc)

end Tree

/-- Takes the lightest tree out of the remaining leaves and the merged trees, both in ascending
order of weight. -/
def takeLightest : List Nat → List (Nat × Tree) →
    Option ((Nat × Tree) × List Nat × List (Nat × Tree))
  | [], [] => none
  | w :: leaves, [] => some ((w, .leaf), leaves, [])
  | [], t :: merged => some (t, [], merged)
  | w :: leaves, t :: merged =>
    if t.1 < w then some (t, w :: leaves, merged) else some ((w, .leaf), leaves, t :: merged)

/-- Merges the two lightest trees, at most `fuel` times. -/
def mergeTrees : (fuel : Nat) → List Nat → List (Nat × Tree) → Option Tree
  | 0, _, _ => none
  | fuel + 1, leaves, merged =>
    match takeLightest leaves merged with
    | none => none
    | some (a, leaves, merged) =>
      match takeLightest leaves merged with
      | none => some a.2
      | some (b, leaves, merged) =>
        mergeTrees fuel leaves (merged ++ [(a.1 + b.1, .node a.2 b.2)])

/-- The depths of the leaves of the tree made from ascending weights. -/
def leafDepths (weights : List Nat) : List Nat :=
  match weights with
  | [] => []
  | [_] => [1]
  | _ =>
    match mergeTrees (weights.length + 1) weights [] with
    | none => []
    | some t => t.depths 0 []

/-- How many words there are of each length from 1 to `limit`; longer ones count as `limit`. -/
def lengthCounts (limit : Nat) (depths : List Nat) : List Nat :=
  (List.range limit).map fun i =>
    depths.countP fun d => if i + 1 = limit then limit ≤ d else d = i + 1

/-- The share of the code space that words of the given counts take, in units of one word of the
longest length. -/
def codeSpace : List Nat → Nat
  | [] => 0
  | n :: counts => n * Nat.pow 2 counts.length + codeSpace counts

/-- Lengthens one word of the greatest length below the last that has one: of `counts`, given
from the longest length down without the last, one word moves down by one length and takes
another with it. -/
def splitLast : List Nat → List Nat
  | a :: b :: rest => if b = 0 then a :: splitLast (b :: rest) else (a + 2) :: (b - 1) :: rest
  | counts => counts

/-- Takes one word of the greatest length away, and splits the next shorter one. -/
def relieve (counts : List Nat) : List Nat :=
  match counts.reverse with
  | [] => []
  | a :: rest => (splitLast ((a - 1) :: rest)).reverse

/-- Applies a function a number of times. -/
def repeated {α : Type} (f : α → α) : Nat → α → α
  | 0, a => a
  | n + 1, a => repeated f n (f a)

/-- Brings word counts back into the code space. -/
def fitCounts (limit : Nat) (counts : List Nat) : List Nat :=
  repeated relieve (codeSpace counts - Nat.pow 2 limit) counts

/-- The word length of each symbol, none longer than `limit`; a symbol that does not occur has
length zero. -/
def codeLengths (limit : Nat) (counts : Array Nat) : Array Nat :=
  let used := ((List.range counts.size).map fun i => (counts.getD i 0, i)).filter (·.1 ≠ 0)
  let sorted := used.mergeSort fun p q => p.1 ≤ q.1
  let byLength := lengthCounts limit (leafDepths (sorted.map (·.1)))
  let byLength := if used.length ≤ 1 then byLength else fitCounts limit byLength
  let lengths := (byLength.zipIdx 1).flatMap fun p => List.replicate p.1 p.2
  (sorted.reverse.zip lengths).foldl (fun a p => a.setIfInBounds p.1.2 p.2)
    (Array.replicate counts.size 0)

/-- The lowest `length` bits of a number in reverse order, before the bits of `acc`. -/
def reverseBits : (length n acc : Nat) → Nat
  | 0, _, acc => acc
  | length + 1, n, acc => reverseBits length (n / 2) (2 * acc + n % 2)

/-- A word of a code: its bits in the order in which they are written, lowest first. -/
structure CodeWord where
  bits : Nat
  length : Nat
  deriving Inhabited

/-- The first word of each length from 1 on, when `counts` lists how many there are. -/
def firstWords (code : Nat) : List Nat → List Nat
  | [] => []
  | n :: counts => code :: firstWords (2 * (code + n)) counts

/-- The canonical code with the given word lengths: words of one length are consecutive numbers
in symbol order. -/
def canonical (limit : Nat) (lengths : Array Nat) : Array CodeWord :=
  let counts := (List.range limit).map fun i => lengths.toList.countP (· = i + 1)
  let first := (0 :: firstWords 0 counts).toArray
  let step (acc : Array Nat × Array CodeWord) (length : Nat) : Array Nat × Array CodeWord :=
    if length = 0 then (acc.1, acc.2.push ⟨0, 0⟩)
    else
      let code := acc.1.getD length 0
      (acc.1.setIfInBounds length (code + 1), acc.2.push ⟨reverseBits length code 0, length⟩)
  (lengths.foldl step (first, #[])).2

/-- What is needed to read the words of a code. -/
inductive Decoder where
  /-- No word. -/
  | none
  /-- One word, all of whose bits are zero. -/
  | lone (symbol length : Nat)
  /-- Words that fill the code space: how many there are of each length from 1 on, and their
  symbols in the order of the words. -/
  | full (counts : List Nat) (symbols : Array Nat)
  deriving Inhabited

/-- The decoder for given word lengths, or `none` if two or more words do not exactly fill the
code space. -/
def Decoder.ofLengths? (lengths : List Nat) : Option Decoder :=
  let used := lengths.zipIdx.filter (·.1 ≠ 0)
  match used with
  | [] => some .none
  | [p] => some (.lone p.2 p.1)
  | _ =>
    let counts := (List.range 15).map fun i => lengths.countP (· = i + 1)
    if codeSpace counts = Nat.pow 2 14 * 2 then
      some (.full counts ((used.mergeSort fun p q => p.1 ≤ q.1).map (·.2)).toArray)
    else none

/-- The words fill the code space. -/
def Decoder.isFull : Decoder → Bool
  | .full _ _ => true
  | .lone _ _ => false
  | .none => false

end BlobVault.Gzip
