import Aggregation.Yaml.Scalar

/-! The tokens of a YAML text, and how tags are read. -/
namespace Aggregation.Yaml

inductive Token where
  | versionDirective (major minor : Nat)
  | tagDirective (handle base : List Char)
  | documentStart
  | documentEnd
  | blockSequenceStart
  | blockMappingStart
  | blockEnd
  | flowSequenceStart
  | flowSequenceEnd
  | flowMappingStart
  | flowMappingEnd
  | blockEntry
  | flowEntry
  | key
  | value
  | alias (name : List Char)
  | anchor (name : List Char)
  | tag (handle suffix : List Char)
  | scalar (style : Style) (text : List Char)

namespace Token

/-! ### Tags -/

/-- Characters of a tag; the last three marks only where flow collections cannot be meant. -/
def isTagChar (verbatim : Bool) (c : Char) : Bool :=
  isWord c || [';', '/', '?', ':', '@', '&', '=', '+', '$', '.', '!', '~', '*', '\'', '(', ')'].contains c ||
    (verbatim && (c == ',' || c == '[' || c == ']'))

/-- How many bytes a character takes, by its first. -/
def byteCount (lead : Nat) : Nat :=
  if lead < 0x80 then 1
  else if 0xC0 ≤ lead && lead < 0xE0 then 2
  else if 0xE0 ≤ lead && lead < 0xF0 then 3
  else if 0xF0 ≤ lead && lead < 0xF8 then 4
  else 0

/-- One byte as a percent sign and two digits. -/
def percentByte : Cursor → Option (Nat × Cursor)
  | c =>
    match c.rest with
    | '%' :: a :: b :: _ =>
      match Text.hexValue? a, Text.hexValue? b with
      | some a, some b => some (16 * a + b, Cursor.skipMany 3 c)
      | _, _ => none
    | _ => none

/-- The bytes that continue a character. -/
def continuation : (n : Nat) → (code : Nat) → Cursor → Option (Nat × Cursor)
  | 0, code, c => some (code, c)
  | n + 1, code, c =>
    match percentByte c with
    | some (b, c) =>
      if 0x80 ≤ b && b < 0xC0 then continuation n (64 * code + (b - 0x80)) c else none
    | none => none

/-- The least code point that a count of continuing bytes is needed for. -/
def leastCode (count : Nat) : Nat :=
  if count == 1 then 0x80 else if count == 2 then 0x800 else 0x10000

/-- The character of a code point after so many continuing bytes. Bytes that spell no character, or
one that needs fewer, stand for the replacement character, which no known tag has. -/
def spelled (count code : Nat) : Char :=
  if leastCode count ≤ code && code.isValidChar then Char.ofNat code else '\ufffd'

/-- A character escaped byte by byte. -/
def percentChar (c : Cursor) : Option (Char × Cursor) :=
  match percentByte c with
  | none => none
  | some (lead, c) =>
    match byteCount lead with
    | 0 => none
    | 1 => some (Char.ofNat lead, c)
    | n + 1 =>
      let code := if n == 1 then lead - 0xC0 else if n == 2 then lead - 0xE0 else lead - 0xF0
      (continuation n code c).map fun (code, c) => (spelled n code, c)

/-- The characters of a tag from here on. -/
def tagChars (verbatim : Bool) : (fuel : Nat) → Cursor → Option (List Char × Cursor)
  | 0, c => some ([], c)
  | fuel + 1, c =>
    match c.rest with
    | [] => some ([], c)
    | ch :: _ =>
      if ch == '%' then
        match percentChar c with
        | none => none
        | some (ch, c) => (tagChars verbatim fuel c).map fun (more, c) => (ch :: more, c)
      else if isTagChar verbatim ch then
        (tagChars verbatim fuel c.skip).map fun (more, c) => (ch :: more, c)
      else some ([], c)

/-- The part of a tag that counts: it ends before an escaped null character. -/
def effective (cs : List Char) : List Char :=
  cs.takeWhile fun ch => ch.toNat != 0

/-- The characters of a tag; none at all are an error. -/
def someTagChars (verbatim : Bool) (c : Cursor) : Option (List Char × Cursor) :=
  match tagChars verbatim c.rest.length c with
  | some (cs, c) => if cs.isEmpty then none else some (effective cs, c)
  | none => none

/-- An exclamation mark and a word, with the second mark that makes it a handle if there is one. -/
def tagHead (c : Cursor) : Option (List Char × Bool × Cursor) :=
  if !c.isAt '!' then none
  else
    let (word, c) := c.skip.takeWhile isWord
    if c.isAt '!' then some ('!' :: word ++ ['!'], true, c.skip) else some ('!' :: word, false, c)

/-- A tag in front of a node. -/
def scanTag (flow : Bool) (c : Cursor) : Option (Token × Cursor) := do
  let (token, c) ←
    if c.peek 1 == some '<' then do
      let (suffix, c) ← someTagChars true c.skip.skip
      if c.isAt '>' then some (Token.tag [] suffix, c.skip) else none
    else do
      let (head, closed, c) ← tagHead c
      if closed then
        let (suffix, c) ← someTagChars false c
        some (.tag head suffix, c)
      else
        let (more, c) ← tagChars false c.rest.length c
        let suffix := effective (head.drop 1 ++ more)
        some (if suffix.isEmpty then .tag [] ['!'] else .tag ['!'] suffix, c)
  if c.isGap 0 || (flow && c.isAt ',') then some (token, c) else none

/-! ### Anchors -/

/-- The name after the mark of an anchor or an alias. -/
def anchorName (c : Cursor) : Option (List Char × Cursor) :=
  let (name, c) := c.takeWhile isWord
  if name.isEmpty then none
  else if c.isGap 0 ||
      c.has 0 fun ch => ['?', ':', ',', ']', '\x7d', '%', '@', '\x60'].contains ch then some (name, c)
  else none

/-! ### Directives -/

/-- A number of at most nine digits. -/
def versionNumber (c : Cursor) : Option (Nat × Cursor) :=
  let (digits, c) := c.takeWhile Text.isDigit
  if digits.isEmpty || 9 < digits.length then none else some (Text.continued 0 digits, c)

/-- What a directive of a given name says. -/
def directiveBody (name : List Char) (c : Cursor) : Option (Token × Cursor) := do
  let c := c.skipWhile isBlank
  if name == ['Y', 'A', 'M', 'L'] then
    let (major, c) ← versionNumber c
    if !c.isAt '.' then none
    else
      let (minor, c) ← versionNumber c.skip
      some (.versionDirective major minor, c)
  else if name == ['T', 'A', 'G'] then
    let (handle, closed, c) ← tagHead c
    if !closed && handle != ['!'] then none
    else if !c.has 0 isBlank then none
    else
      let (base, c) ← someTagChars true (c.skipWhile isBlank)
      if c.isGap 0 then some (.tagDirective handle base, c) else none
  else none

/-- A directive, up to the end of its line. -/
def scanDirective (c : Cursor) : Option (Token × Cursor) := do
  let (name, c) := c.skip.takeWhile isWord
  if name.isEmpty || !c.isGap 0 then none
  else
    let (token, c) ← directiveBody name c
    let c := (c.skipWhile isBlank).skipComment
    if c.atLineEnd then some (token, c.skipLine) else none

end Token

end Aggregation.Yaml
