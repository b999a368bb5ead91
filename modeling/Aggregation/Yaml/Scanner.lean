import Aggregation.Yaml.Token

/-! Cutting a YAML text into tokens.

In block context the nesting is that of columns: a token further right opens a collection, one
further left closes all that are deeper. A key is only known to be one when its colon comes, so
the scanner remembers where one may have started; the marks of key and mapping are then put in
front of the tokens read since. Such a key must be on one line and no longer than 1024 bytes, and
if it stands at the column of the block mapping it is in, it must turn out to be one. -/
namespace Aggregation.Yaml

/-- A place where a key may have started. -/
structure KeyPlace where
  /-- How many tokens came before it. -/
  number : Nat
  required : Bool
  place : Cursor

structure Scanner where
  here : Cursor
  /-- The newest first. -/
  tokens : List Token
  count : Nat
  indent : Int
  indents : List Int
  /-- How many flow collections are open. -/
  flow : Nat
  keyAllowed : Bool
  /-- Where a key may have started, for each open flow collection and, last, outside of all. -/
  keys : List (Option KeyPlace)

namespace Scanner

def start (cs : List Char) : Scanner :=
  ⟨Cursor.start cs, [], 0, -1, [], 0, true, [none]⟩

def inFlow (s : Scanner) : Bool :=
  s.flow != 0

def push (s : Scanner) (t : Token) : Scanner :=
  {s with tokens := t :: s.tokens, count := s.count + 1}

/-- Put a token in front of the one with a number. -/
def insert (s : Scanner) (number : Nat) (t : Token) : Scanner :=
  let later := s.count - number
  {s with tokens := s.tokens.take later ++ t :: s.tokens.drop later, count := s.count + 1}

def key? (s : Scanner) : Option KeyPlace :=
  match s.keys with
  | k :: _ => k
  | [] => none

def setKey (s : Scanner) (k : Option KeyPlace) : Scanner :=
  {s with keys := k :: s.keys.drop 1}

/-! ### Keys -/

/-- Forget where a key may have started; an error if it was required. -/
def dropKey (s : Scanner) : Option Scanner :=
  match s.key? with
  | some k => if k.required then none else some (s.setKey none)
  | none => some s

/-- Remember that a key may start here. -/
def saveKey (s : Scanner) : Option Scanner :=
  if s.keyAllowed then
    let required := !s.inFlow && s.indent == (s.here.column : Int)
    s.dropKey.map fun s => s.setKey (some ⟨s.count, required, s.here⟩)
  else some s

/-- Whether a key place has become too distant. -/
def isStale (here : Cursor) (k : KeyPlace) : Bool :=
  k.place.line < here.line || k.place.index + 1024 < here.index

/-- Forget the places that have become too distant; an error if one was required. -/
def dropStale (here : Cursor) : List (Option KeyPlace) → Option (List (Option KeyPlace))
  | [] => some []
  | none :: rest => (dropStale here rest).map (none :: ·)
  | some k :: rest =>
    if isStale here k then
      if k.required then none else (dropStale here rest).map (none :: ·)
    else (dropStale here rest).map (some k :: ·)

/-! ### Indentation -/

/-- Open a block collection if a column is further right. -/
def roll (s : Scanner) (column : Nat) (number : Nat) (t : Token) : Scanner :=
  if !s.inFlow && s.indent < (column : Int) then
    {s with indent := (column : Int), indents := s.indent :: s.indents}.insert number t
  else s

/-- Close the block collections that are further right than a column. -/
def unrollFrom (column : Int) : List Int → Scanner → Scanner
  | [], s => s
  | outer :: rest, s =>
    if column < s.indent then
      unrollFrom column rest ({s with indent := outer, indents := rest}.push .blockEnd)
    else s

def unroll (s : Scanner) (column : Int) : Scanner :=
  if s.inFlow then s else unrollFrom column s.indents s

/-! ### Between tokens -/

/-- Move to the next token, over blanks, comments and line breaks, and over a mark of byte order
that starts a line. Tabs are blanks where no key can start. -/
def skipGaps : (fuel : Nat) → Scanner → Scanner
  | 0, s => s
  | fuel + 1, s =>
    let tabs := s.inFlow || !s.keyAllowed
    let here :=
      (s.here.skipOrderMark.skipWhile fun ch => ch == ' ' || (tabs && ch == '\t')).skipComment
    if here.has 0 isBreak then
      skipGaps fuel {s with here := here.skipLine, keyAllowed := s.keyAllowed || !s.inFlow}
    else {s with here}

/-! ### Tokens -/

/-- A token of one character. -/
def mark (s : Scanner) (keyAllowed : Bool) (t : Token) : Scanner :=
  {s with here := s.here.skip, keyAllowed}.push t

def directive (s : Scanner) : Option Scanner := do
  let s ← (s.unroll (-1)).dropKey
  let (t, here) ← Token.scanDirective s.here
  some ({s with here, keyAllowed := false}.push t)

def documentMark (s : Scanner) (t : Token) : Option Scanner := do
  let s ← (s.unroll (-1)).dropKey
  some ({s with here := Cursor.skipMany 3 s.here, keyAllowed := false}.push t)

def flowStart (s : Scanner) (t : Token) : Option Scanner := do
  let s ← s.saveKey
  some ({s with keys := none :: s.keys, flow := s.flow + 1}.mark true t)

def flowEnd (s : Scanner) (t : Token) : Option Scanner := do
  let s ← s.dropKey
  let s := if s.inFlow then {s with keys := s.keys.drop 1, flow := s.flow - 1} else s
  some (s.mark false t)

def flowEntry (s : Scanner) : Option Scanner := do
  let s ← s.dropKey
  some (s.mark true .flowEntry)

def blockEntry (s : Scanner) : Option Scanner :=
  if !s.inFlow && !s.keyAllowed then none
  else do
    let s ← (s.roll s.here.column s.count .blockSequenceStart).dropKey
    some (s.mark true .blockEntry)

def keyMark (s : Scanner) : Option Scanner :=
  if !s.inFlow && !s.keyAllowed then none
  else do
    let s ← (s.roll s.here.column s.count .blockMappingStart).dropKey
    some (s.mark (!s.inFlow) .key)

/-- A colon: what may have been a key is one. -/
def valueMark (s : Scanner) : Option Scanner :=
  match s.key? with
  | some k =>
    let s := (s.insert k.number .key).roll k.place.column k.number .blockMappingStart
    some ((s.setKey none).mark false .value)
  | none =>
    if !s.inFlow && !s.keyAllowed then none
    else some ((s.roll s.here.column s.count .blockMappingStart).mark (!s.inFlow) .value)

/-- A token that may be, or begin, a key. -/
def keyed (s : Scanner) (scan : Cursor → Option (Token × Cursor)) : Option Scanner := do
  let s ← s.saveKey
  let (t, here) ← scan s.here
  some ({s with here, keyAllowed := false}.push t)

def block (s : Scanner) (folded : Bool) : Option Scanner := do
  let s ← s.dropKey
  let (text, here) ← blockScalar folded s.indent s.here.skip
  some ({s with here, keyAllowed := true}.push
    (.scalar (if folded then .folded else .literal) text))

def quoted (s : Scanner) (quote : Char) : Option Scanner :=
  s.keyed fun c => (quotedScalar quote c.skip).map fun (text, c) =>
    (.scalar (if quote == '"' then .double else .single) text, c)

def plain (s : Scanner) : Option Scanner := do
  let s ← s.saveKey
  let (text, broken, here) ← plainScalar s.inFlow (s.indent + 1).toNat s.here
  some ({s with here, keyAllowed := broken}.push (.scalar .plain text))

/-- Characters that never start a plain scalar. -/
def isIndicator (ch : Char) : Bool :=
  [',', '[', ']', '\x7b', '\x7d', '#', '&', '*', '!', '|', '>', '\'', '"', '%', '@', '\x60'].contains ch

/-- Whether a plain scalar can start here. -/
def startsPlain (s : Scanner) : Bool :=
  match s.here.rest with
  | [] => false
  | ch :: _ =>
    if isBlank ch || isBreak ch then false
    else if ch == '-' then !s.here.has 1 isBlank
    else if ch == '?' || ch == ':' then !s.inFlow && !s.here.isGap 1
    else !isIndicator ch

/-- The next token at a place that is not the end. -/
def token (s : Scanner) : Option Scanner :=
  let c := s.here
  if c.column == 0 && c.isAt '%' then s.directive
  else if c.isMarker '-' then s.documentMark .documentStart
  else if c.isMarker '.' then s.documentMark .documentEnd
  else if c.isAt '[' then s.flowStart .flowSequenceStart
  else if c.isAt '\x7b' then s.flowStart .flowMappingStart
  else if c.isAt ']' then s.flowEnd .flowSequenceEnd
  else if c.isAt '\x7d' then s.flowEnd .flowMappingEnd
  else if c.isAt ',' then s.flowEntry
  else if c.isAt '-' && c.isGap 1 then s.blockEntry
  else if c.isAt '?' && (s.inFlow || c.isGap 1) then s.keyMark
  else if c.isAt ':' && (s.inFlow || c.isGap 1) then s.valueMark
  else if c.isAt '*' then s.keyed fun c => (Token.anchorName c.skip).map fun (n, c) => (.alias n, c)
  else if c.isAt '&' then s.keyed fun c => (Token.anchorName c.skip).map fun (n, c) => (.anchor n, c)
  else if c.isAt '!' then s.keyed (Token.scanTag s.inFlow)
  else if c.isAt '|' && !s.inFlow then s.block false
  else if c.isAt '>' && !s.inFlow then s.block true
  else if c.isAt '\'' then s.quoted '\''
  else if c.isAt '"' then s.quoted '"'
  else if s.startsPlain then s.plain
  else none

/-- Close everything at the end of the text. -/
def finish (s : Scanner) : Option (List Token) :=
  ((s.unroll (-1)).dropKey).map fun s => s.tokens.reverse

/-- All tokens from here on. -/
def scan : (fuel : Nat) → Scanner → Option (List Token)
  | 0, _ => none
  | fuel + 1, s => do
    let s := s.skipGaps (s.here.rest.length + 1)
    let keys ← dropStale s.here s.keys
    let s := {s with keys}.unroll (s.here.column : Int)
    if s.here.atEnd then s.finish else scan fuel (← s.token)

end Scanner

/-- The tokens of a text, unless one of its characters may not stand in any. -/
def tokens? (cs : List Char) : Option (List Token) :=
  if cs.all isAllowed then Scanner.scan (cs.length + 1) (Scanner.start cs) else none

end Aggregation.Yaml
