import Aggregation.Text.Digits

/-! The lexical parts of TOML: blanks, comments, strings and keys.

Each reader takes the characters from a place on and returns what it read with the characters
after it, or nothing if there is an error. -/
namespace Aggregation.Toml

/-! ### Blanks and lines -/

def isBlank (c : Char) : Bool :=
  c == ' ' || c == '\t'

def skipBlanks (cs : List Char) : List Char :=
  cs.dropWhile isBlank

/-- Characters of comments and strings: no control character but the tab. -/
def isPrinted (c : Char) : Bool :=
  c == '\t' || (32 ≤ c.toNat && c.toNat != 127)

/-- What follows a line break, if there is one. -/
def lineBreak? : List Char → Option (List Char)
  | '\n' :: rest => some rest
  | '\r' :: '\n' :: rest => some rest
  | _ => none

/-- What follows the end of a line: blanks, perhaps a comment, and a line break or the end. -/
def lineEnd (cs : List Char) : Option (List Char) :=
  let cs := skipBlanks cs
  let cs := match cs with
    | '#' :: rest => rest.dropWhile isPrinted
    | _ => cs
  match cs with
  | [] => some []
  | _ => lineBreak? cs

/-- Skip blanks, comments and line breaks. -/
def skipLines : (fuel : Nat) → List Char → Option (List Char)
  | 0, cs => some cs
  | fuel + 1, cs =>
    match skipBlanks cs with
    | '#' :: rest =>
      match rest.dropWhile isPrinted with
      | [] => some []
      | rest => (lineBreak? rest).bind (skipLines fuel)
    | '\n' :: rest => skipLines fuel rest
    | '\r' :: '\n' :: rest => skipLines fuel rest
    | rest => some rest

/-! ### Strings -/

/-- The character that an escape of so many digits names. -/
def codePoint (width : Nat) (cs : List Char) : Option (Char × List Char) :=
  match (cs.take width).mapM Text.hexValue? with
  | none => none
  | some values =>
    let n := values.foldl (fun n v => 16 * n + v) 0
    if values.length < width || (0xD800 ≤ n && n ≤ 0xDFFF) || 0x10FFFF < n then none
    else some (Char.ofNat n, cs.drop width)

/-- The character of an escape after its backslash. -/
def escape : List Char → Option (Char × List Char)
  | 'b' :: rest => some (Char.ofNat 8, rest)
  | 'f' :: rest => some (Char.ofNat 12, rest)
  | 'n' :: rest => some ('\n', rest)
  | 'r' :: rest => some ('\r', rest)
  | 't' :: rest => some ('\t', rest)
  | '"' :: rest => some ('"', rest)
  | '\\' :: rest => some ('\\', rest)
  | 'u' :: rest => codePoint 4 rest
  | 'U' :: rest => codePoint 8 rest
  | _ => none

/-- A string on one line, after its opening quote; only double quotes know escapes. -/
def lineString (quote : Char) : (fuel : Nat) → List Char → Option (List Char × List Char)
  | 0, _ => none
  | fuel + 1, cs =>
    match cs with
    | [] => none
    | c :: rest =>
      if c == quote then some ([], rest)
      else if quote == '"' && c == '\\' then
        match escape rest with
        | none => none
        | some (c, rest) => (lineString quote fuel rest).map fun (more, rest) => (c :: more, rest)
      else if isPrinted c then
        (lineString quote fuel rest).map fun (more, rest) => (c :: more, rest)
      else none

/-- How many of the quotes that stand here belong to the end of a string of several lines: the
last three end it, and up to two before them are part of it. -/
def closing (quote : Char) (cs : List Char) : Nat :=
  Nat.min 5 (cs.takeWhile (· == quote)).length

/-- Skip blanks and line breaks. -/
def skipSpace : List Char → List Char
  | '\n' :: rest => skipSpace rest
  | '\r' :: '\n' :: rest => skipSpace rest
  | c :: rest => if isBlank c then skipSpace rest else c :: rest
  | [] => []

/-- What follows a backslash that ends its line: blanks and line breaks are skipped. -/
def foldedBreak? (cs : List Char) : Option (List Char) :=
  (lineBreak? (skipBlanks cs)).map skipSpace

/-- A string of several lines, after its opening quotes. -/
def blockString (quote : Char) : (fuel : Nat) → List Char → Option (List Char × List Char)
  | 0, _ => none
  | fuel + 1, cs =>
    match cs with
    | [] => none
    | c :: rest =>
      if c == quote then
        let quotes := closing quote cs
        if 3 ≤ quotes then some (List.replicate (quotes - 3) quote, cs.drop quotes)
        else (blockString quote fuel rest).map fun (more, rest) => (c :: more, rest)
      else if quote == '"' && c == '\\' then
        match foldedBreak? rest with
        | some rest => blockString quote fuel rest
        | none =>
          match escape rest with
          | none => none
          | some (c, rest) => (blockString quote fuel rest).map fun (more, rest) => (c :: more, rest)
      else if isPrinted c then
        (blockString quote fuel rest).map fun (more, rest) => (c :: more, rest)
      else
        match lineBreak? cs with
        | none => none
        | some rest => (blockString quote fuel rest).map fun (more, rest) => ('\n' :: more, rest)

/-- A string of either kind of quotes, of one or of several lines. -/
def string (quote : Char) (cs : List Char) : Option (List Char × List Char) :=
  if cs.take 3 == [quote, quote, quote] then
    let rest := cs.drop 3
    blockString quote (rest.length + 1) ((lineBreak? rest).getD rest)
  else lineString quote (cs.length + 1) (cs.drop 1)

/-! ### Keys -/

def isBare (c : Char) : Bool :=
  c.isAlphanum || c == '-' || c == '_'

/-- One name of a key. -/
def name (cs : List Char) : Option (List Char × List Char) :=
  match cs with
  | '"' :: rest => lineString '"' (rest.length + 1) rest
  | '\'' :: rest => lineString '\'' (rest.length + 1) rest
  | _ =>
    let bare := cs.takeWhile isBare
    if bare.isEmpty then none else some (bare, cs.drop bare.length)

/-- A name, and the names of the tables on the way to it. -/
structure Key where
  path : List String
  last : String

/-- The names of a key, separated by points; blanks may stand around them. -/
def names : (fuel : Nat) → List Char → Option (Key × List Char)
  | 0, _ => none
  | fuel + 1, cs =>
    match name (skipBlanks cs) with
    | none => none
    | some (first, rest) =>
      match skipBlanks rest with
      | '.' :: rest =>
        (names fuel rest).map fun (k, rest) => (⟨String.ofList first :: k.path, k.last⟩, rest)
      | rest => some (⟨[], String.ofList first⟩, rest)

/-- How many names a key may have, and how deep values may nest. -/
def depthLimit : Nat := 79

def key (cs : List Char) : Option (Key × List Char) :=
  match names (cs.length + 1) cs with
  | some (k, rest) => if k.path.length < depthLimit then some (k, rest) else none
  | none => none

end Aggregation.Toml
