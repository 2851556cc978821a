import BlobVault.Yaml.Token

/-!
# The nodes of a YAML document

A document is a tree of scalars, lists and maps, in which an alias stands for a node with an
anchor.  A text that stops making sense still has a tree up to there: its lists and maps say
whether they were closed, and a node that could not be read is `Node.broken`.  So a reader sees
everything in front of the first fault of the text, and meets the fault where it is.
-/

namespace BlobVault.Yaml

/-- A node of a document. -/
inductive Node where
  | scalar (text : String) (style : ScalarStyle) (tag? : Option String)
  /-- A list, with its items up to its end or up to a fault of the text. -/
  | list (tag? : Option String) (items : List Node) (closed : Bool)
  /-- A map, with its entries up to its end or up to a fault of the text. -/
  | map (tag? : Option String) (entries : List (Node × Node)) (closed : Bool)
  /-- The node of an anchor, by the number of the anchor. -/
  | «alias» (anchor : Nat)
  /-- The text makes no sense here. -/
  | broken
  deriving Inhabited

/-- A scalar without text. -/
def Node.empty : Node := .scalar "" .plain none

mutual

/-- The text makes sense throughout the node. -/
def Node.isWhole : Node → Bool
  | .scalar .. => true
  | .list _ items closed => closed && areWhole items
  | .map _ entries closed => closed && entriesAreWhole entries
  | .alias _ => true
  | .broken => false

/-- The text makes sense throughout the nodes. -/
def areWhole : List Node → Bool
  | [] => true
  | n :: ns => n.isWhole && areWhole ns

/-- The text makes sense throughout the entries. -/
def entriesAreWhole : List (Node × Node) → Bool
  | [] => true
  | (k, v) :: rest => k.isWhole && v.isWhole && entriesAreWhole rest

end

/-! ### Anchors -/

/-- What has been met of a document so far.  An anchor has as its number the number of different
names at its time, so a name that is used again takes the number of the next name. -/
structure Anchors where
  /-- The number of the last anchor of each name. -/
  numbers : List (String × Nat)
  /-- The place of the last node of each number, newest first. -/
  places : List (Nat × Nat)
  /-- The nodes with anchors, by their places. -/
  nodes : List (Nat × Node)
  /-- The number of scalars and aliases, and of starts and ends of lists and maps. -/
  marks : Nat

namespace Anchors

/-- Nothing has been met. -/
def none : Anchors := ⟨[], [], [], 0⟩

/-- Counts a mark. -/
def count (a : Anchors) : Anchors := { a with marks := a.marks + 1 }

/-- Notes the anchor of a node that begins here. -/
def note (a : Anchors) (name? : Option String) : Anchors :=
  match name? with
  | .none => a.count
  | some name =>
    let number := a.numbers.length
    { numbers := (name, number) :: a.numbers.filter fun p => p.1 != name,
      places := (number, a.marks) :: a.places, nodes := a.nodes, marks := a.marks + 1 }

/-- Keeps the node that began at a place, if it has an anchor. -/
def keep (a : Anchors) (name? : Option String) (place : Nat) (n : Node) : Anchors :=
  if name?.isSome then { a with nodes := (place, n) :: a.nodes } else a

/-- The node of an anchor. -/
def node? (a : Anchors) (number : Nat) : Option Node := do a.nodes.lookup (← a.places.lookup number)

end Anchors

/-! ### Nodes of tokens -/

/-- What has been read, what was met on the way, and the tokens after it; `none` where the text
makes no sense. -/
structure Built (α : Type) where
  value : α
  anchors : Anchors
  rest? : Option (List Token)

namespace Built

/-- Reads something after what has been read, if the text makes sense so far. -/
def andThen {α β : Type} (b : Built α) (stop : α → β)
    (next : α → Anchors → List Token → Built β) : Built β :=
  match b.rest? with
  | none => ⟨stop b.value, b.anchors, none⟩
  | some ts => next b.value b.anchors ts

end Built

/-- The text of a tag.  Handles stand for the texts that directives give them. -/
def resolveTag? (handles : List (String × String)) (handle suffix : String) : Option String :=
  if handle.isEmpty then some suffix else (handles.lookup handle).map (· ++ suffix)

/-- The anchor and the tag in front of a node. -/
structure Properties where
  anchor? : Option String
  tag? : Option String

/-- Reads the anchor and the tag in front of a node, in either order. -/
def properties? (handles : List (String × String)) :
    List Token → Option (Properties × List Token)
  | .anchor a :: .tag h s :: ts => do some (⟨some a, ← resolveTag? handles h s⟩, ts)
  | .tag h s :: .anchor a :: ts => do some (⟨some a, ← resolveTag? handles h s⟩, ts)
  | .anchor a :: ts => some (⟨some a, none⟩, ts)
  | .tag h s :: ts => do some (⟨none, ← resolveTag? handles h s⟩, ts)
  | ts => some (⟨none, none⟩, ts)

/-- The list or map of items and of the tokens after it. -/
def closing {α : Type} (make : List α → Bool → Node) (p : Properties) (place : Nat)
    (b : Built (List α)) : Built Node :=
  let n := make b.value b.rest?.isSome
  ⟨n, b.anchors.keep p.anchor? place n, b.rest?⟩

/-- Puts an item in front of those that follow. -/
def Built.cons {α : Type} (a : α) (b : Built (List α)) : Built (List α) :=
  { b with value := a :: b.value }

/-- The end of a list or map. -/
def ended {α : Type} (a : Anchors) (ts : List Token) : Built (List α) := ⟨[], a.count, some ts⟩

/-- A list or map in which the text makes no sense. -/
def brokenOff {α : Type} (a : Anchors) : Built (List α) := ⟨[], a, none⟩

mutual

/-- Reads a node.  Inside brackets there are no blocks, and only the value of a key may be a list
that is not indented. -/
def node (handles : List (String × String)) :
    (fuel : Nat) → (block indentless : Bool) → Anchors → List Token → Built Node
  | 0, _, _, a, _ => ⟨.broken, a, none⟩
  | fuel + 1, block, indentless, a, ts =>
    match ts with
    | .alias name :: ts =>
      match a.numbers.lookup name with
      | some number => ⟨.alias number, a.count, some ts⟩
      | none => ⟨.broken, a, none⟩
    | _ =>
      match properties? handles ts with
      | none => ⟨.broken, a, none⟩
      | some (p, ts) =>
        let place := a.marks
        let a' := a.note p.anchor?
        let scalar (text : String) (style : ScalarStyle) (tag? : Option String) (ts : List Token) :
            Built Node :=
          let n := Node.scalar text style tag?
          ⟨n, a'.keep p.anchor? place n, some ts⟩
        match ts with
        | .item :: _ =>
          if indentless then
            closing (Node.list p.tag?) p place (looseItems handles fuel a' ts)
          else if p.anchor?.isSome || p.tag?.isSome then scalar "" .plain p.tag? ts
          else ⟨.broken, a, none⟩
        | .scalar text style :: ts =>
          scalar text style (if p.tag? = some "!" then none else p.tag?) ts
        | .listStart :: ts => closing (Node.list p.tag?) p place (flowItems handles fuel true a' ts)
        | .mapStart :: ts => closing (Node.map p.tag?) p place (flowEntries handles fuel true a' ts)
        | .blockListStart :: ts' =>
          if block then closing (Node.list p.tag?) p place (blockItems handles fuel a' ts')
          else if p.anchor?.isSome || p.tag?.isSome then scalar "" .plain p.tag? ts
          else ⟨.broken, a, none⟩
        | .blockMapStart :: ts' =>
          if block then closing (Node.map p.tag?) p place (blockEntries handles fuel a' ts')
          else if p.anchor?.isSome || p.tag?.isSome then scalar "" .plain p.tag? ts
          else ⟨.broken, a, none⟩
        | [] => ⟨.broken, a, none⟩
        | _ =>
          if p.anchor?.isSome || p.tag?.isSome then scalar "" .plain p.tag? ts
          else ⟨.broken, a, none⟩

/-- Reads the items of a block. -/
def blockItems (handles : List (String × String)) :
    (fuel : Nat) → Anchors → List Token → Built (List Node)
  | 0, a, _ => brokenOff a
  | fuel + 1, a, ts =>
    match ts with
    | .item :: ts =>
      let n : Built Node :=
        match ts with
        | .item :: _ | .blockEnd :: _ => ⟨.empty, a.count, some ts⟩
        | _ => node handles fuel true false a ts
      n.andThen (fun n => [n]) fun n a ts => (blockItems handles fuel a ts).cons n
    | .blockEnd :: ts => ended a ts
    | _ => brokenOff a

/-- Reads the items of a list that is not indented. -/
def looseItems (handles : List (String × String)) :
    (fuel : Nat) → Anchors → List Token → Built (List Node)
  | 0, a, _ => brokenOff a
  | fuel + 1, a, ts =>
    match ts with
    | .item :: ts =>
      let n : Built Node :=
        match ts with
        | .item :: _ | .key :: _ | .value :: _ | .blockEnd :: _ => ⟨.empty, a.count, some ts⟩
        | _ => node handles fuel true false a ts
      n.andThen (fun n => [n]) fun n a ts => (looseItems handles fuel a ts).cons n
    | [] => brokenOff a
    | _ => ended a ts

/-- Reads the entries of a block. -/
def blockEntries (handles : List (String × String)) :
    (fuel : Nat) → Anchors → List Token → Built (List (Node × Node))
  | 0, a, _ => brokenOff a
  | fuel + 1, a, ts =>
    match ts with
    | .key :: ts =>
      let k : Built Node :=
        match ts with
        | .key :: _ | .value :: _ | .blockEnd :: _ => ⟨.empty, a.count, some ts⟩
        | _ => node handles fuel true true a ts
      k.andThen (fun k => [(k, .broken)]) fun k a ts => blockValue handles fuel k a ts
    | .value :: _ => blockValue handles fuel .empty a.count ts
    | .blockEnd :: ts => ended a ts
    | _ => brokenOff a

/-- Reads the value of a key of a block, and the entries after it. -/
def blockValue (handles : List (String × String)) :
    (fuel : Nat) → Node → Anchors → List Token → Built (List (Node × Node))
  | 0, _, a, _ => brokenOff a
  | fuel + 1, k, a, ts =>
    let v : Built Node :=
      match ts with
      | [] => ⟨.broken, a, none⟩
      | .value :: ts =>
        match ts with
        | .key :: _ | .value :: _ | .blockEnd :: _ => ⟨.empty, a.count, some ts⟩
        | _ => node handles fuel true true a ts
      | _ => ⟨.empty, a.count, some ts⟩
    v.andThen (fun v => [(k, v)]) fun v a ts => (blockEntries handles fuel a ts).cons (k, v)

/-- Reads the items between brackets. -/
def flowItems (handles : List (String × String)) :
    (fuel : Nat) → (first : Bool) → Anchors → List Token → Built (List Node)
  | 0, _, a, _ => brokenOff a
  | fuel + 1, first, a, ts =>
    match ts with
    | [] => brokenOff a
    | .listEnd :: ts => ended a ts
    | t :: rest =>
      if !first && t != .separator then brokenOff a
      else
        let ts := if first then ts else rest
        match ts with
        | .listEnd :: ts => ended a ts
        | .key :: ts =>
          (flowPair handles fuel a ts).andThen (fun n => [n]) fun n a ts =>
            (flowItems handles fuel false a ts).cons n
        | ts =>
          (node handles fuel false false a ts).andThen (fun n => [n]) fun n a ts =>
            (flowItems handles fuel false a ts).cons n

/-- Reads a map of one entry that stands in a list without brackets of its own. -/
def flowPair (handles : List (String × String)) :
    (fuel : Nat) → Anchors → List Token → Built Node
  | 0, a, _ => ⟨.broken, a, none⟩
  | fuel + 1, a, ts =>
    let k : Built Node :=
      match ts with
      | .value :: rest | .separator :: rest | .listEnd :: rest =>
        ⟨.empty, a.count.count, some rest⟩
      | _ => node handles fuel false false a.count ts
    let b : Built (List (Node × Node)) :=
      k.andThen (fun k => [(k, .broken)]) fun k a ts =>
        let v : Built Node :=
          match ts with
          | [] => ⟨.broken, a, none⟩
          | .value :: ts =>
            match ts with
            | .separator :: _ | .listEnd :: _ => ⟨.empty, a.count, some ts⟩
            | _ => node handles fuel false false a ts
          | _ => ⟨.empty, a.count, some ts⟩
        v.andThen (fun v => [(k, v)]) fun v a ts => ⟨[(k, v)], a.count, some ts⟩
    closing (Node.map none) ⟨none, none⟩ 0 b

/-- Reads the entries between braces. -/
def flowEntries (handles : List (String × String)) :
    (fuel : Nat) → (first : Bool) → Anchors → List Token → Built (List (Node × Node))
  | 0, _, a, _ => brokenOff a
  | fuel + 1, first, a, ts =>
    match ts with
    | [] => brokenOff a
    | .mapEnd :: ts => ended a ts
    | t :: rest =>
      if !first && t != .separator then brokenOff a
      else
        let ts := if first then ts else rest
        match ts with
        | .mapEnd :: ts => ended a ts
        | .key :: ts =>
          let k : Built Node :=
            match ts with
            | .value :: _ | .separator :: _ | .mapEnd :: _ => ⟨.empty, a.count, some ts⟩
            | _ => node handles fuel false false a ts
          k.andThen (fun k => [(k, .broken)]) fun k a ts =>
            let v : Built Node :=
              match ts with
              | [] => ⟨.broken, a, none⟩
              | .value :: ts =>
                match ts with
                | .separator :: _ | .mapEnd :: _ => ⟨.empty, a.count, some ts⟩
                | _ => node handles fuel false false a ts
              | _ => ⟨.empty, a.count, some ts⟩
            v.andThen (fun v => [(k, v)]) fun v a ts =>
              (flowEntries handles fuel false a ts).cons (k, v)
        | ts =>
          (node handles fuel false false a ts).andThen (fun k => [(k, .broken)]) fun k a ts =>
            match ts with
            | [] => ⟨[(k, .broken)], a, none⟩
            | ts => (flowEntries handles fuel false a.count ts).cons (k, .empty)

end

/-! ### Documents -/

/-- The first document of a text. -/
structure Document where
  /-- The node of the document; there is none in an empty text. -/
  root? : Option Node
  anchors : Anchors
  /-- The text makes sense up to the end of the document. -/
  whole : Bool
  /-- Nothing follows the document. -/
  alone : Bool

/-- The handles that need no directive. -/
def commonHandles : List (String × String) := [("!", "!"), ("!!", "tag:yaml.org,2002:")]

/-- Reads directives: the handles they define and the tokens after them.  There may be one version,
1.1 or 1.2, and one text for each handle. -/
def directives? (versioned : Bool) (handles : List (String × String)) :
    List Token → Option (List (String × String) × List Token)
  | .version major minor :: ts =>
    if versioned || major != 1 || (minor != 1 && minor != 2) then none
    else directives? true handles ts
  | .tagAlias h text :: ts =>
    if (handles.lookup h).isSome then none else directives? versioned ((h, text) :: handles) ts
  | ts => some (handles, ts)

namespace Document

/-- A text that makes no sense at its start. -/
def unreadable : Document := ⟨some .broken, .none, false, false⟩

/-- Moves over the marks of the end of a document. -/
def skipEnds : List Token → List Token
  | .documentEnd :: ts => skipEnds ts
  | ts => ts

/-- The document whose node has been read. -/
def ofBuilt (b : Built Node) : Document :=
  match b.rest? with
  | none | some [] => ⟨some b.value, b.anchors, false, false⟩
  | some ts => ⟨some b.value, b.anchors, true, (skipEnds ts).head? == some .streamEnd⟩

/-- Reads the node of a document after its mark. -/
def content (handles : List (String × String)) (ts : List Token) : Document :=
  match ts with
  | [] => unreadable
  | .version .. :: _ | .tagAlias .. :: _ | .documentStart :: _ | .documentEnd :: _
  | .streamEnd :: _ => ofBuilt ⟨.empty, Anchors.none.count, some ts⟩
  | _ => ofBuilt (node handles (4 * ts.length + 10) true false .none ts)

/-- The first document of a list of tokens. -/
def ofTokens (ts : List Token) : Document :=
  match ts with
  | .streamEnd :: _ => ⟨none, .none, true, true⟩
  | .version .. :: _ | .tagAlias .. :: _ | .documentStart :: _ =>
    match directives? false [] ts with
    | some (handles, .documentStart :: ts) => content (handles ++ commonHandles) ts
    | _ => unreadable
  | [] => unreadable
  | _ => ofBuilt (node commonHandles (4 * ts.length + 10) true false .none ts)

/-- The first document of a text. -/
def ofText (text : String) : Document := ofTokens (tokens text).1

end Document

end BlobVault.Yaml
