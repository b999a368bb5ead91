/-! A place in a YAML text, and the classes of characters that the format tells apart.

Lines end in a line feed, a carriage return, both, or one of three characters beyond ASCII. Only
the first three are turned into a line feed when they are part of a scalar. -/
namespace Aggregation.Yaml

/-! ### Characters -/

def isBlank (c : Char) : Bool :=
  c == ' ' || c == '\t'

def isBreak (c : Char) : Bool :=
  c == '\n' || c == '\r' || c == '\u0085' || c == '\u2028' || c == '\u2029'

/-- Letters, digits, hyphens and underscores of ASCII. -/
def isWord (c : Char) : Bool :=
  c.isAlphanum || c == '-' || c == '_'

/-- The marks that have a meaning inside flow collections. -/
def isFlowMark (c : Char) : Bool :=
  c == ',' || c == '[' || c == ']' || c == '\x7b' || c == '\x7d'

/-- Characters that may stand in a text. -/
def isAllowed (c : Char) : Bool :=
  let n := c.toNat
  n == 9 || n == 10 || n == 13 || (32 ≤ n && n ≤ 126) || n == 0x85 || (0xA0 ≤ n && n ≤ 0xD7FF) ||
    (0xE000 ≤ n && n ≤ 0xFFFD) || 0x10000 ≤ n

/-- How many bytes characters take together. -/
def byteLength (cs : List Char) : Nat :=
  cs.foldl (fun n c => n + c.utf8Size) 0

/-! ### Places -/

/-- The characters from a place on, with the number of bytes and lines before it and of characters
before it on its line. -/
structure Cursor where
  rest : List Char
  index : Nat
  line : Nat
  column : Nat

namespace Cursor

def start (cs : List Char) : Cursor :=
  ⟨cs, 0, 0, 0⟩

def peek (c : Cursor) (ahead : Nat) : Option Char :=
  (c.rest.drop ahead).head?

def isAt (c : Cursor) (ch : Char) : Bool :=
  c.rest.head? == some ch

def atEnd (c : Cursor) : Bool :=
  c.rest.isEmpty

/-- Whether a class of characters holds at a distance. -/
def has (c : Cursor) (ahead : Nat) (p : Char → Bool) : Bool :=
  match c.peek ahead with
  | some ch => p ch
  | none => false

/-- Whether a blank, a line break or the end is at a distance. -/
def isGap (c : Cursor) (ahead : Nat) : Bool :=
  match c.peek ahead with
  | some ch => isBlank ch || isBreak ch
  | none => true

/-- Whether the line or the text ends here. -/
def atLineEnd (c : Cursor) : Bool :=
  match c.rest with
  | [] => true
  | ch :: _ => isBreak ch

def skip (c : Cursor) : Cursor :=
  match c.rest with
  | [] => c
  | ch :: rest => ⟨rest, c.index + ch.utf8Size, c.line, c.column + 1⟩

def skipMany : (n : Nat) → Cursor → Cursor
  | 0, c => c
  | n + 1, c => skipMany n c.skip

/-- Move behind a line break, if there is one here. -/
def skipLine (c : Cursor) : Cursor :=
  match c.rest with
  | '\r' :: '\n' :: rest => ⟨rest, c.index + 2, c.line + 1, 0⟩
  | ch :: rest => if isBreak ch then ⟨rest, c.index + ch.utf8Size, c.line + 1, 0⟩ else c
  | [] => c

/-- What the line break here adds to a scalar. -/
def breakText (c : Cursor) : List Char :=
  match c.rest with
  | [] => []
  | ch :: _ => if ch == '\u2028' || ch == '\u2029' then [ch] else if isBreak ch then ['\n'] else []

/-- Take the characters of a class. -/
def takeWhile (p : Char → Bool) (c : Cursor) : List Char × Cursor :=
  let taken := c.rest.takeWhile p
  (taken, ⟨c.rest.drop taken.length, c.index + byteLength taken, c.line, c.column + taken.length⟩)

def skipWhile (p : Char → Bool) (c : Cursor) : Cursor :=
  (c.takeWhile p).2

/-- Move behind a mark of byte order, if one starts the line here. It takes a column like any other
character. -/
def skipOrderMark (c : Cursor) : Cursor :=
  if c.column == 0 && c.isAt '\ufeff' then c.skip else c

/-- Move to the end of the line if a comment starts here. -/
def skipComment (c : Cursor) : Cursor :=
  if c.isAt '#' then c.skipWhile fun ch => !isBreak ch else c

/-- Whether a line starts here with three given marks and nothing joined to them. -/
def isMarker (c : Cursor) (mark : Char) : Bool :=
  c.column == 0 && c.isAt mark && c.peek 1 == some mark && c.peek 2 == some mark && c.isGap 3

/-- Whether a line starts here that begins or ends a document. -/
def isDocumentMark (c : Cursor) : Bool :=
  c.isMarker '-' || c.isMarker '.'

end Cursor

end Aggregation.Yaml
