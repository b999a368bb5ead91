import Aggregation.Text.Digits
import Aggregation.Yaml.Cursor

/-! Reading scalars: plain ones, quoted ones, and blocks.

In plain and quoted scalars the blanks around a line break are dropped, a single break becomes a
space and of several the first is dropped. A block keeps its breaks or folds them by the same rule,
except around lines that start with a blank. -/
namespace Aggregation.Yaml

/-- How a scalar is written. -/
inductive Style where
  | plain
  | single
  | double
  | literal
  | folded
  deriving DecidableEq

/-! ### Gaps between the words of a scalar -/

/-- Blanks and breaks: the blanks, while no break has come; else the first break and the others. -/
structure Gap where
  blanks : List Char
  first : List Char
  others : List Char
  broken : Bool

namespace Gap

def none : Gap := ⟨[], [], [], false⟩

/-- What a gap adds to a scalar. -/
def text (g : Gap) : List Char :=
  if g.broken then
    if g.first == ['\n'] then
      if g.others.isEmpty then [' '] else g.others
    else g.first ++ g.others
  else g.blanks

/-- Read on while there are blanks and breaks. After a break no tab may stand before the column
`indent`. -/
def read (indent : Nat) : (fuel : Nat) → Gap → Cursor → Option (Gap × Cursor)
  | 0, g, c => some (g, c)
  | fuel + 1, g, c =>
    match c.rest with
    | [] => some (g, c)
    | ch :: _ =>
      if isBlank ch then
        if g.broken then
          if c.column < indent && ch == '\t' then .none else read indent fuel g c.skip
        else read indent fuel {g with blanks := g.blanks ++ [ch]} c.skip
      else if isBreak ch then
        if g.broken then read indent fuel {g with others := g.others ++ c.breakText} c.skipLine
        else read indent fuel ⟨[], c.breakText, [], true⟩ c.skipLine
      else some (g, c)

end Gap

/-! ### Plain scalars -/

/-- Whether a plain scalar ends before the character here. -/
def endsPlain (flow : Bool) (c : Cursor) : Bool :=
  (c.isAt ':' && c.isGap 1) || (flow && c.has 0 isFlowMark)

/-- Whether a colon stands here that is no part of a scalar inside a flow collection. -/
def strayColon (flow : Bool) (c : Cursor) : Bool :=
  flow && c.isAt ':' && c.has 1 fun ch => isFlowMark ch || ch == '?'

/-- The characters up to the next gap or the end of the scalar. -/
def plainWord (flow : Bool) : (fuel : Nat) → Cursor → Option (List Char × Cursor)
  | 0, c => some ([], c)
  | fuel + 1, c =>
    match c.rest with
    | [] => some ([], c)
    | ch :: _ =>
      if isBlank ch || isBreak ch then some ([], c)
      else if strayColon flow c then none
      else if endsPlain flow c then some ([], c)
      else (plainWord flow fuel c.skip).map fun (word, c) => (ch :: word, c)

/-- The words of a plain scalar after what was read, and whether a line break came after the last. -/
def plainWords (flow : Bool) (indent : Nat) : (fuel : Nat) → (read : List Char) → Gap → Cursor →
    Option (List Char × Bool × Cursor)
  | 0, read, g, c => some (read, g.broken, c)
  | fuel + 1, read, g, c =>
    if c.isDocumentMark || c.isAt '#' then some (read, g.broken, c)
    else
      match plainWord flow c.rest.length c with
      | none => none
      | some (word, c) =>
        let (read, g) := if word.isEmpty then (read, g) else (read ++ g.text ++ word, Gap.none)
        if !(c.has 0 fun ch => isBlank ch || isBreak ch) then some (read, g.broken, c)
        else
          match Gap.read indent c.rest.length g c with
          | none => none
          | some (g, c) =>
            if !flow && c.column < indent then some (read, g.broken, c)
            else plainWords flow indent fuel read g c

/-- A plain scalar whose further lines must reach the column `indent`. -/
def plainScalar (flow : Bool) (indent : Nat) (c : Cursor) : Option (List Char × Bool × Cursor) :=
  plainWords flow indent (c.rest.length + 1) [] Gap.none c

/-! ### Quoted scalars -/

/-- What an escape of one letter stands for. -/
def escaped? (ch : Char) : Option Char :=
  match ch with
  | '0' => some (Char.ofNat 0)
  | 'a' => some (Char.ofNat 7)
  | 'b' => some (Char.ofNat 8)
  | 't' => some '\t'
  | '\t' => some '\t'
  | 'n' => some '\n'
  | 'v' => some (Char.ofNat 11)
  | 'f' => some (Char.ofNat 12)
  | 'r' => some '\r'
  | 'e' => some (Char.ofNat 27)
  | ' ' => some ' '
  | '"' => some '"'
  | '/' => some '/'
  | '\\' => some '\\'
  | 'N' => some '\u0085'
  | '_' => some '\u00a0'
  | 'L' => some '\u2028'
  | 'P' => some '\u2029'
  | _ => none

/-- How many hexadecimal digits an escape takes. -/
def escapeWidth? (ch : Char) : Option Nat :=
  match ch with
  | 'x' => some 2
  | 'u' => some 4
  | 'U' => some 8
  | _ => none

/-- The character of a number, surrogates and what lies beyond Unicode excluded. -/
def charOf? (n : Nat) : Option Char :=
  if (0xD800 ≤ n && n ≤ 0xDFFF) || 0x10FFFF < n then none else some (Char.ofNat n)

/-- The character of an escape after its backslash. -/
def escape? (c : Cursor) : Option (Char × Cursor) :=
  match c.rest with
  | [] => none
  | ch :: _ =>
    match escapeWidth? ch with
    | none => (escaped? ch).map fun e => (e, c.skip)
    | some width =>
      let c := c.skip
      let digits := c.rest.take width
      match digits.mapM Text.hexValue? with
      | none => none
      | some values =>
        if values.length < width then none
        else
          (charOf? (values.foldl (fun n v => 16 * n + v) 0)).map fun e => (e, Cursor.skipMany width c)

/-- The characters up to the next gap or the closing quote; an escaped line break ends them as an
open gap. -/
def quotedWord (quote : Char) : (fuel : Nat) → Cursor → Option (List Char × Gap × Cursor)
  | 0, c => some ([], Gap.none, c)
  | fuel + 1, c =>
    match c.rest with
    | [] => some ([], Gap.none, c)
    | ch :: _ =>
      if isBlank ch || isBreak ch then some ([], Gap.none, c)
      else if quote == '\'' && ch == '\'' && c.peek 1 == some '\'' then
        (quotedWord quote fuel c.skip.skip).map fun (word, g, c) => ('\'' :: word, g, c)
      else if ch == quote then some ([], Gap.none, c)
      else if quote == '"' && ch == '\\' then
        if c.has 1 isBreak then some ([], ⟨[], [], [], true⟩, c.skip.skipLine)
        else
          match escape? c.skip with
          | none => none
          | some (e, c) => (quotedWord quote fuel c).map fun (word, g, c) => (e :: word, g, c)
      else (quotedWord quote fuel c.skip).map fun (word, g, c) => (ch :: word, g, c)

/-- The words of a quoted scalar up to its closing quote. -/
def quotedWords (quote : Char) : (fuel : Nat) → Cursor → Option (List Char × Cursor)
  | 0, _ => none
  | fuel + 1, c =>
    if c.isDocumentMark || c.atEnd then none
    else
      match quotedWord quote (c.rest.length + 1) c with
      | none => none
      | some (word, g, c) =>
        if c.isAt quote then some (word, c.skip)
        else
          match Gap.read 0 c.rest.length g c with
          | none => none
          | some (g, c) =>
            (quotedWords quote fuel c).map fun (more, c) => (word ++ g.text ++ more, c)

/-- A quoted scalar after its opening quote. -/
def quotedScalar (quote : Char) (c : Cursor) : Option (List Char × Cursor) :=
  quotedWords quote (c.rest.length + 1) c

/-! ### Blocks -/

/-- What is done with the line breaks at the end of a block. -/
inductive Chomping where
  | clip
  | strip
  | keep
  deriving DecidableEq

def chomping? (c : Cursor) : Option Chomping :=
  if c.isAt '+' then some .keep else if c.isAt '-' then some .strip else none

/-- The indicators after a block's mark, in either order: chomping, and how much deeper the block
is than what it is in (zero if that is to be found out). -/
def blockHeader (c : Cursor) : Option (Chomping × Nat × Cursor) :=
  let digit (c : Cursor) : Option (Nat × Cursor) :=
    match c.rest with
    | ch :: _ =>
      if Text.isDigit ch then (if ch == '0' then none else some (Text.digitValue ch, c.skip))
      else some (0, c)
    | [] => some (0, c)
  match chomping? c with
  | some chomping => (digit c.skip).map fun (n, c) => (chomping, n, c)
  | none =>
    match digit c with
    | none => none
    | some (0, c) => some (.clip, 0, c)
    | some (n, c) =>
      match chomping? c with
      | some chomping => some (chomping, n, c.skip)
      | none => some (.clip, n, c)

/-- Whether the column is still left of the block, whose indentation may be unknown (zero). -/
def leftOf (indent : Nat) (c : Cursor) : Bool :=
  indent == 0 || c.column < indent

/-- Indentation and empty lines: their breaks and the deepest column, or nothing if a tab stands
where indentation is expected. -/
def blockBreaks (indent : Nat) : (fuel : Nat) → (deepest : Nat) → Cursor →
    Option (List Char × Nat × Cursor)
  | 0, deepest, c => some ([], deepest, c)
  | fuel + 1, deepest, c =>
    if leftOf indent c && c.isAt ' ' then blockBreaks indent fuel deepest c.skip
    else
      let deepest := if deepest < c.column then c.column else deepest
      if leftOf indent c && c.isAt '\t' then none
      else if c.has 0 isBreak then
        (blockBreaks indent fuel deepest c.skipLine).map fun (breaks, deepest, after) =>
          (c.breakText ++ breaks, deepest, after)
      else some ([], deepest, c)

/-- The lines of a block. `first` is the break before the next line, `others` are those after it,
`blank` says whether the line before started with a blank. -/
def blockLines (folded : Bool) (indent : Nat) : (fuel : Nat) → (read first others : List Char) →
    (blank : Bool) → Cursor → Option (List Char × List Char × List Char × Cursor)
  | 0, read, first, others, _, c => some (read, first, others, c)
  | fuel + 1, read, first, others, blank, c =>
    if c.column != indent || c.atEnd then some (read, first, others, c)
    else
      let blankHere := c.has 0 isBlank
      let joint :=
        if folded && first == ['\n'] && !blank && !blankHere then
          if others.isEmpty then [' '] else []
        else first
      let (line, c) := c.takeWhile fun ch => !isBreak ch
      let first := c.breakText
      match blockBreaks indent (c.skipLine.rest.length + 1) 0 c.skipLine with
      | none => none
      | some (breaks, _, c) =>
        blockLines folded indent fuel (read ++ joint ++ others ++ line) first breaks blankHere c

/-- A block after its mark, inside something indented by `parent` (-1 for the whole text). -/
def blockScalar (folded : Bool) (parent : Int) (c : Cursor) : Option (List Char × Cursor) :=
  match blockHeader c with
  | none => none
  | some (chomping, increment, c) =>
    let c := (c.skipWhile isBlank).skipComment
    if !c.atLineEnd then none
    else
      let c := c.skipLine
      let given := if increment == 0 then 0 else (if 0 ≤ parent then parent.toNat else 0) + increment
      match blockBreaks given (c.rest.length + 1) 0 c with
      | none => none
      | some (breaks, deepest, c) =>
        let least := (parent + 1).toNat
        let found := if deepest < least then least else deepest
        let indent := if given == 0 then (if found < 1 then 1 else found) else given
        match blockLines folded indent (c.rest.length + 1) [] [] breaks false c with
        | none => none
        | some (read, first, others, c) =>
          match chomping with
          | .strip => some (read, c)
          | .clip => some (read ++ first, c)
          | .keep => some (read ++ first ++ others, c)

end Aggregation.Yaml
