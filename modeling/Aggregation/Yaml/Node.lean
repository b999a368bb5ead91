import Aggregation.Yaml.Scanner

/-! The one document of a YAML text, as a tree.

An alias stays an alias in the tree and names an anchored node by number. The number of an anchor
is how many names were anchored before it, and the last node that was given a number has it: a
name anchored anew takes the number that the next new name will take over. -/
namespace Aggregation.Yaml

inductive Node where
  | scalar (tag : Option (List Char)) (style : Style) (text : List Char)
  | sequence (items : List Node)
  | mapping (entries : List (Node × Node))
  | alias (id : Nat)

/-- A node with nothing written where it should be. -/
def Node.empty : Node :=
  .scalar none .plain []

mutual
/-- How many parts a node is made of: a scalar or an alias is one, and a collection has two ends. -/
def Node.parts : Node → Nat
  | .scalar _ _ _ => 1
  | .sequence items => 2 + partsOfItems items
  | .mapping entries => 2 + partsOfEntries entries
  | .alias _ => 1

def partsOfItems : List Node → Nat
  | [] => 0
  | n :: rest => n.parts + partsOfItems rest

def partsOfEntries : List (Node × Node) → Nat
  | [] => 0
  | e :: rest => partsOfEntry e + partsOfEntries rest

def partsOfEntry : Node × Node → Nat
  | (k, v) => k.parts + v.parts
end

/-- A document: nothing at all, or a node and the anchored nodes with their numbers, the one that
counts first. -/
structure Document where
  root : Option Node
  anchored : List (Nat × Node)

/-- The node that an alias stands for. -/
def Document.target? (d : Document) (id : Nat) : Option Node :=
  (d.anchored.find? fun entry => entry.1 == id).map Prod.snd

/-! ### Parsing -/

/-- What is left to parse and what was found about tags and anchors. -/
structure Parsing where
  tokens : List Token
  /-- What the handles of tags stand for. -/
  handles : List (List Char × List Char)
  /-- The numbers of the names anchored so far. -/
  numbers : List (List Char × Nat)
  /-- How many nodes were anchored so far. -/
  started : Nat
  /-- Finished anchored nodes: when they started, their numbers, and themselves. -/
  finished : List (Nat × Nat × Node)

namespace Parsing

def lookup {α : Type} (name : List Char) : List (List Char × α) → Option α
  | [] => none
  | (other, a) :: rest => if other == name then some a else lookup name rest

def advance (p : Parsing) : Parsing :=
  {p with tokens := p.tokens.drop 1}

/-! ### Tags and anchors -/

/-- A tag in full. -/
def fullTag (p : Parsing) (handle suffix : List Char) : Option (List Char) :=
  if handle.isEmpty then some suffix
  else (lookup handle p.handles).map fun base => base ++ suffix

/-- What stands in front of a node: an anchor and a tag, in either order. -/
structure Properties where
  anchor : Option (List Char)
  tag : Option (List Char)

def Properties.any (props : Properties) : Bool :=
  props.anchor.isSome || props.tag.isSome

def properties (p : Parsing) : Option (Properties × Parsing) :=
  match p.tokens with
  | .anchor name :: .tag handle suffix :: rest =>
    (p.fullTag handle suffix).map fun tag => (⟨some name, some tag⟩, {p with tokens := rest})
  | .anchor name :: rest => some (⟨some name, none⟩, {p with tokens := rest})
  | .tag handle suffix :: .anchor name :: rest =>
    (p.fullTag handle suffix).map fun tag => (⟨some name, some tag⟩, {p with tokens := rest})
  | .tag handle suffix :: rest =>
    (p.fullTag handle suffix).map fun tag => (⟨none, some tag⟩, {p with tokens := rest})
  | _ => some (⟨none, none⟩, p)

/-- How many names are anchored. -/
def nameCount : List (List Char) → List (List Char × Nat) → Nat
  | _, [] => 0
  | seen, (name, _) :: rest =>
    if seen.contains name then nameCount seen rest else nameCount (name :: seen) rest + 1

/-- Begin an anchored node: when it starts and its number. -/
def anchor (p : Parsing) (name : Option (List Char)) : Option (Nat × Nat) × Parsing :=
  match name with
  | none => (none, p)
  | some name =>
    let number := nameCount [] p.numbers
    (some (p.started, number),
      {p with numbers := (name, number) :: p.numbers, started := p.started + 1})

def finish (p : Parsing) (place : Option (Nat × Nat)) (n : Node) : Parsing :=
  match place with
  | none => p
  | some (start, number) => {p with finished := (start, number, n) :: p.finished}

/-! ### Nodes -/

/-- Tokens before which an item or a key or value of a block is missing. -/
def endsBlockItem : List Token → Bool
  | .blockEntry :: _ => true
  | .blockEnd :: _ => true
  | _ => false

def endsBlockValue : List Token → Bool
  | .key :: _ => true
  | .value :: _ => true
  | .blockEnd :: _ => true
  | _ => false

def endsSequenceValue : List Token → Bool
  | .flowEntry :: _ => true
  | .flowSequenceEnd :: _ => true
  | _ => false

def endsMappingValue : List Token → Bool
  | .flowEntry :: _ => true
  | .flowMappingEnd :: _ => true
  | _ => false

def startsValue : List Token → Bool
  | .value :: _ => true
  | _ => false

mutual
/-- A node. `block` says whether it may be a block collection, `indentless` whether the items of a
block sequence may stand at the column of the mapping they are in. -/
def node : (fuel : Nat) → (block indentless : Bool) → Parsing → Option (Node × Parsing)
  | 0, _, _, _ => none
  | fuel + 1, block, indentless, p =>
    match p.tokens with
    | .alias name :: _ => (lookup name p.numbers).map fun id => (.alias id, p.advance)
    | _ =>
      match p.properties with
      | none => none
      | some (props, p) =>
        let (place, p) := p.anchor props.anchor
        match content fuel block indentless props p with
        | none => none
        | some (n, p) => some (n, p.finish place n)

/-- What a node is, after its properties. -/
def content : (fuel : Nat) → (block indentless : Bool) → Properties → Parsing → Option (Node × Parsing)
  | 0, _, _, _, _ => none
  | fuel + 1, block, indentless, props, p =>
    match p.tokens with
    | .scalar style text :: _ => some (.scalar props.tag style text, p.advance)
    | .flowSequenceStart :: _ =>
      (flowItems fuel true p.advance).map fun (items, p) => (.sequence items, p)
    | .flowMappingStart :: _ =>
      (flowEntries fuel true p.advance).map fun (entries, p) => (.mapping entries, p)
    | token :: _ =>
      match token, block, indentless with
      | .blockEntry, _, true =>
        (flatItems fuel p).map fun (items, p) => (.sequence items, p)
      | .blockSequenceStart, true, _ =>
        (blockItems fuel p.advance).map fun (items, p) => (.sequence items, p)
      | .blockMappingStart, true, _ =>
        (blockEntries fuel p.advance).map fun (entries, p) => (.mapping entries, p)
      | _, _, _ => if props.any then some (.scalar props.tag .plain [], p) else none
    | [] => if props.any then some (.scalar props.tag .plain [], p) else none

/-- The items of a block sequence and its end. -/
def blockItems : (fuel : Nat) → Parsing → Option (List Node × Parsing)
  | 0, _ => none
  | fuel + 1, p =>
    match p.tokens with
    | .blockEntry :: rest =>
      match (if endsBlockItem rest then some (Node.empty, p.advance)
        else node fuel true false p.advance) with
      | none => none
      | some (n, p) => (blockItems fuel p).map fun (items, p) => (n :: items, p)
    | .blockEnd :: _ => some ([], p.advance)
    | _ => none

/-- The items of a block sequence that stands at the column of its mapping. -/
def flatItems : (fuel : Nat) → Parsing → Option (List Node × Parsing)
  | 0, _ => none
  | fuel + 1, p =>
    match p.tokens with
    | .blockEntry :: rest =>
      match (if endsBlockItem rest || endsBlockValue rest then some (Node.empty, p.advance)
        else node fuel true false p.advance) with
      | none => none
      | some (n, p) => (flatItems fuel p).map fun (items, p) => (n :: items, p)
    | _ => some ([], p)

/-- The entries of a block mapping and its end. -/
def blockEntries : (fuel : Nat) → Parsing → Option (List (Node × Node) × Parsing)
  | 0, _ => none
  | fuel + 1, p =>
    match p.tokens with
    | .key :: rest =>
      match (if endsBlockValue rest then some (Node.empty, p.advance)
        else node fuel true true p.advance) with
      | none => none
      | some (k, p) =>
        match (if startsValue p.tokens then
            (if endsBlockValue (p.tokens.drop 1) then some (Node.empty, p.advance)
              else node fuel true true p.advance)
          else some (Node.empty, p)) with
        | none => none
        | some (v, p) => (blockEntries fuel p).map fun (entries, p) => ((k, v) :: entries, p)
    | .blockEnd :: _ => some ([], p.advance)
    | _ => none

/-- The items of a flow sequence and its end; a marked key makes an item a mapping of one entry. -/
def flowItems : (fuel : Nat) → (first : Bool) → Parsing → Option (List Node × Parsing)
  | 0, _, _ => none
  | fuel + 1, first, p =>
    match p.tokens with
    | .flowSequenceEnd :: _ => some ([], p.advance)
    | tokens =>
      match (if first then some p
        else match tokens with
          | .flowEntry :: _ => some p.advance
          | _ => none) with
      | none => none
      | some p =>
        match p.tokens with
        | .flowSequenceEnd :: _ => some ([], p.advance)
        | .key :: rest =>
          match (if startsValue rest || endsSequenceValue rest then some (Node.empty, p.advance.advance)
            else node fuel false false p.advance) with
          | none => none
          | some (k, p) =>
            match (if startsValue p.tokens then
                (if endsSequenceValue (p.tokens.drop 1) then some (Node.empty, p.advance)
                  else node fuel false false p.advance)
              else some (Node.empty, p)) with
            | none => none
            | some (v, p) =>
              (flowItems fuel false p).map fun (items, p) => (.mapping [(k, v)] :: items, p)
        | _ =>
          match node fuel false false p with
          | none => none
          | some (n, p) => (flowItems fuel false p).map fun (items, p) => (n :: items, p)

/-- The entries of a flow mapping and its end. -/
def flowEntries : (fuel : Nat) → (first : Bool) → Parsing → Option (List (Node × Node) × Parsing)
  | 0, _, _ => none
  | fuel + 1, first, p =>
    match p.tokens with
    | .flowMappingEnd :: _ => some ([], p.advance)
    | tokens =>
      match (if first then some p
        else match tokens with
          | .flowEntry :: _ => some p.advance
          | _ => none) with
      | none => none
      | some p =>
        match p.tokens with
        | .flowMappingEnd :: _ => some ([], p.advance)
        | .key :: rest =>
          match (if startsValue rest || endsMappingValue rest then some (Node.empty, p.advance)
            else node fuel false false p.advance) with
          | none => none
          | some (k, p) =>
            match (if startsValue p.tokens then
                (if endsMappingValue (p.tokens.drop 1) then some (Node.empty, p.advance)
                  else node fuel false false p.advance)
              else some (Node.empty, p)) with
            | none => none
            | some (v, p) => (flowEntries fuel false p).map fun (entries, p) => ((k, v) :: entries, p)
        | _ =>
          match node fuel false false p with
          | none => none
          | some (k, p) =>
            (flowEntries fuel false p).map fun (entries, p) => ((k, Node.empty) :: entries, p)
end

/-! ### Documents -/

/-- The handles that need no directive. -/
def standardHandles : List (List Char × List Char) :=
  [(['!'], ['!']), (['!', '!'], "tag:yaml.org,2002:".toList)]

/-- The directives before a document: the version at most once and no handle twice. -/
def directives (p : Parsing) (version : Bool) (seen : List (List Char)) : List Token →
    Option Parsing
  | .versionDirective major minor :: rest =>
    if version || major != 1 || (minor != 1 && minor != 2) then none
    else directives p true seen rest
  | .tagDirective handle base :: rest =>
    if seen.contains handle then none
    else directives {p with handles := (handle, base) :: p.handles} version (handle :: seen) rest
  | tokens => some {p with tokens}

/-- Whether nothing but ends of documents is left. -/
def atEnd : List Token → Bool
  | [] => true
  | .documentEnd :: rest => atEnd rest
  | _ => false

/-- Whether a document has nothing in it. -/
def isVoid : List Token → Bool
  | [] => true
  | .documentStart :: _ => true
  | .documentEnd :: _ => true
  | .versionDirective .. :: _ => true
  | .tagDirective .. :: _ => true
  | _ => false

/-- The node of a document, when its start is behind. -/
def body (explicit : Bool) (p : Parsing) : Option (Node × Parsing) :=
  if explicit && isVoid p.tokens then some (Node.empty, p)
  else node (3 * p.tokens.length + 3) true false p

/-- Put an anchored node in front of those that started earlier. -/
def insertLatest (entry : Nat × Nat × Node) : List (Nat × Nat × Node) → List (Nat × Nat × Node)
  | [] => [entry]
  | other :: rest =>
    if other.1 < entry.1 then entry :: other :: rest else other :: insertLatest entry rest

def toDocument (n : Node) (p : Parsing) : Document :=
  let latest := p.finished.foldl (fun sorted entry => insertLatest entry sorted) []
  ⟨some n, latest.map Prod.snd⟩

end Parsing

/-- The document of a text, if the text is well formed and holds no second one. -/
def document? (cs : List Char) : Option Document := do
  let tokens ← tokens? cs
  if tokens.isEmpty then some ⟨none, []⟩
  else
    let start : Parsing := ⟨tokens, Parsing.standardHandles, [], 0, []⟩
    let p ← start.directives false [] tokens
    let explicit := p.tokens.length != tokens.length
    let (explicit, p) ← match p.tokens with
      | .documentStart :: _ => some (true, p.advance)
      | _ => if explicit then none else some (false, p)
    let (n, p) ← p.body explicit
    if Parsing.atEnd p.tokens then some (p.toDocument n) else none

end Aggregation.Yaml
