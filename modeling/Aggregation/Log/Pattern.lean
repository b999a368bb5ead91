import Aggregation.Text.Digits
import Aggregation.Text.Letter

/-! Patterns: the regular expressions that a filter asks the value of a detail to match.

No record is in a span, so no value is ever matched, and all that counts is which texts are
patterns. A filter ends a value at a comma, an equals sign or a closing brace. So a pattern has none
of these, and what needs a closing brace, such as a repetition by count, is never complete.

A pattern is about characters unless it says that it is about bytes. About characters no tables of
words, properties or letter case are at hand, so what needs one is refused. About bytes they are not
needed, but as only text is matched, nothing may match a byte that is not a character by itself. -/
namespace Aggregation.Log.Pattern

/-- What a pattern says about its own reading. -/
structure Settings where
  /-- Letters match in either case. -/
  anyCase : Bool
  /-- It is about bytes. -/
  bytes : Bool
  /-- Blanks and comments mean nothing. -/
  spaced : Bool

namespace Settings

def start : Settings := ⟨false, false, false⟩

/-- Change a setting by its letter. The others do not matter to whether a text is a pattern. -/
def put (s : Settings) (letter : Char) (on : Bool) : Settings :=
  if letter == 'i' then {s with anyCase := on}
  else if letter == 'u' then {s with bytes := !on}
  else if letter == 'x' then {s with spaced := on}
  else s

def skipFiller : (comment : Bool) → List Char → List Char
  | _, [] => []
  | true, c :: rest => skipFiller (c != '\n') rest
  | false, c :: rest =>
    if c == '#' then skipFiller true rest
    else if Text.isBlank c then skipFiller false rest
    else c :: rest

/-- Skip blanks and comments where they mean nothing. -/
def skip (s : Settings) (cs : List Char) : List Char :=
  if s.spaced then skipFiller false cs else cs

/-- The first character that is no blank, and not the first mark of a comment. -/
def firstSolid : (comment : Bool) → List Char → Option Char
  | _, [] => none
  | comment, c :: rest =>
    if Text.isBlank c then firstSolid comment rest
    else if c == '#' && !comment then firstSolid true rest
    else some c

/-- The character that comes next, where a hyphen is to be told from a range. -/
def upcoming (s : Settings) (cs : List Char) : Option Char :=
  if s.spaced then firstSolid false cs else cs.head?

/-- Whether a class in brackets may name a character. -/
def admits (s : Settings) (c : Char) : Bool :=
  if s.bytes then Nat.blt c.toNat 128 else !s.anyCase

end Settings

/-! ### Single characters -/

/-- What stands for one character, or for a place between two. -/
inductive Primitive where
  /-- A character; `byte` if it is written as the number of a byte. -/
  | literal (c : Char) (byte : Bool)
  | any
  /-- The start or the end of a text or of a line. -/
  | anchor
  /-- An edge of a word, or a place that is none. -/
  | wordEdge
  /-- Digits, blanks or word characters, or all others. -/
  | kind (negated : Bool)

namespace Primitive

def isAvailable (s : Settings) : Primitive → Bool
  | .literal c byte => if s.bytes then !byte || Nat.blt c.toNat 128 else !s.anyCase
  | .any => !s.bytes
  | .anchor => true
  | .wordEdge => s.bytes
  | .kind negated => s.bytes && !negated

/-- Whether it may stand in a class in brackets. -/
def isMember (s : Settings) : Primitive → Bool
  | .literal c _ => s.admits c
  | .kind negated => s.bytes && !negated
  | _ => false

end Primitive

/-- A number of a given count of hexadecimal digits. -/
def hexadecimal (s : Settings) : (count value : Nat) → List Char → Option (Nat × List Char)
  | 0, value, cs => some (value, cs)
  | count + 1, value, c :: rest =>
    match Text.hexValue? c with
    | some digit => hexadecimal s count (16 * value + digit) (s.skip rest)
    | none => none
  | _ + 1, _, [] => none

/-- The character whose code point is given by hexadecimal digits. -/
def codePoint (s : Settings) (count : Nat) (cs : List Char) : Option (Primitive × List Char) :=
  match hexadecimal s count 0 (s.skip cs) with
  | some (n, rest) => if n.isValidChar then some (.literal (Char.ofNat n) (count == 2), rest) else none
  | none => none

/-- The control characters that a letter stands for. -/
def controls : List (Char × Char) :=
  [('a', '\x07'), ('t', '\t'), ('n', '\n'), ('v', '\x0b'), ('f', '\x0c'), ('r', '\r')]

/-- What follows a backslash. Letters and digits have a meaning or are refused, other characters of
ASCII stand for themselves. Properties are always refused. -/
def escape (s : Settings) : List Char → Option (Primitive × List Char)
  | [] => none
  | c :: rest =>
    if c == 'x' then codePoint s 2 rest
    else if c == 'u' then codePoint s 4 rest
    else if c == 'U' then codePoint s 8 rest
    else if c == 'd' || c == 's' || c == 'w' then some (.kind false, rest)
    else if c == 'D' || c == 'S' || c == 'W' then some (.kind true, rest)
    else if c == 'A' || c == 'z' then some (.anchor, rest)
    else if c == 'b' || c == 'B' || c == '<' || c == '>' then some (.wordEdge, rest)
    else
      match controls.find? fun control => control.1 == c with
      | some control => some (.literal control.2 false, rest)
      | none =>
        if Nat.blt c.toNat 128 && !c.isAlphanum then some (.literal c false, rest) else none

/-! ### Classes in brackets -/

/-- How deep a list of parts nests whose deepest part is given: two parts or more need a level of
their own. -/
def joined (count depth : Nat) : Nat :=
  if 2 ≤ count then depth + 1 else depth

/-- The names of classes of ASCII characters. -/
def asciiNames : List String :=
  ["alnum", "alpha", "ascii", "blank", "cntrl", "digit", "graph", "lower", "print", "punct",
   "space", "upper", "word", "xdigit"]

/-- The rest of a class by name, after its opening bracket; whether it is negated. -/
def asciiClass? (cs : List Char) : Option (Bool × List Char) :=
  match cs with
  | ':' :: rest =>
    let (negated, rest) := match rest with
      | '^' :: rest => (true, rest)
      | _ => (false, rest)
    let name := rest.takeWhile (· != ':')
    match rest.drop name.length with
    | ':' :: ']' :: rest =>
      if asciiNames.contains (String.ofList name) then some (negated, rest) else none
    | _ => none
  | _ => none

/-- One end of a range, or a member that is no range. -/
def member (s : Settings) : List Char → Option (Primitive × List Char)
  | [] => none
  | '\\' :: rest => escape s rest
  | c :: rest => some (.literal c false, rest)

/-- A member or a range. A hyphen makes a range unless the class ends or a difference starts
there. -/
def range (s : Settings) (cs : List Char) : Option (List Char) :=
  match member s cs with
  | none => none
  | some (low, rest) =>
    match s.skip rest with
    | '-' :: after =>
      if s.upcoming after == some ']' || s.upcoming after == some '-' then
        if low.isMember s then some ('-' :: after) else none
      else
        match low, member s (s.skip after) with
        | .literal a _, some (.literal b _, rest) =>
          if Nat.ble a.toNat b.toNat && s.admits a && s.admits b then some rest else none
        | _, _ => none
    | rest => if low.isMember s then some rest else none

/-- How many hyphens a class starts with; a closing bracket counts if there are none. They stand for
themselves. -/
def leading (s : Settings) : (fuel count : Nat) → List Char → Nat × List Char
  | 0, count, cs => (count, cs)
  | fuel + 1, count, cs =>
    match cs with
    | '-' :: rest => leading s fuel (count + 1) (s.skip rest)
    | ']' :: rest => if count == 0 then (1, s.skip rest) else (count, cs)
    | _ => (count, cs)

mutual
/-- A class after its opening bracket, up to and with its closing one; how deep it nests. -/
def bracketed : (fuel : Nat) → Settings → List Char → Option (Nat × List Char)
  | 0, _, _ => none
  | fuel + 1, s, cs =>
    let (negated, cs) := match s.skip cs with
      | '^' :: rest => (true, s.skip rest)
      | cs => (false, cs)
    let (count, cs) := leading s cs.length 0 cs
    if negated && s.bytes || count != 0 && !s.admits '-' then none
    else (members fuel s none count 0 cs).map fun (depth, rest) => (depth + 1, rest)

/-- The members of a class. `left` is the depth of what an operator joins to them from the left. -/
def members : (fuel : Nat) → Settings → (left : Option Nat) → (count depth : Nat) → List Char →
    Option (Nat × List Char)
  | 0, _, _, _, _, _ => none
  | fuel + 1, s, left, count, depth, cs =>
    let all := match left with
      | none => joined count depth
      | some left => Nat.max left (joined count depth) + 1
    match s.skip cs with
    | ']' :: rest => some (all, rest)
    | '&' :: '&' :: rest => members fuel s (some all) 0 0 rest
    | '-' :: '-' :: rest => members fuel s (some all) 0 0 rest
    | '~' :: '~' :: rest => members fuel s (some all) 0 0 rest
    | '[' :: rest =>
      match asciiClass? rest with
      | some (negated, rest) =>
        if (if s.bytes then negated else s.anyCase) then none
        else members fuel s left (count + 1) depth rest
      | none =>
        match bracketed fuel s rest with
        | some (inner, rest) => members fuel s left (count + 1) (Nat.max depth inner) rest
        | none => none
    | cs =>
      match range s cs with
      | some rest => members fuel s left (count + 1) depth rest
      | none => none
end

/-! ### Groups -/

/-- What a parenthesis opens. -/
inductive Opening where
  /-- New settings up to the end of the group around. -/
  | settings (s : Settings)
  | group (s : Settings) (name : Option (List Char))

/-- Letters of settings, up to a colon or a closing parenthesis. No letter comes twice, and a hyphen,
behind which they are turned off, is followed by one. -/
def letters : (seen : List Char) → (on : Bool) → Settings → List Char → Option (Opening × List Char)
  | _, _, _, [] => none
  | seen, on, s, c :: rest =>
    if c == ':' then
      if seen.head? == some '-' then none else some (.group s none, rest)
    else if c == ')' then
      if seen.isEmpty || seen.head? == some '-' then none else some (.settings s, rest)
    else if seen.contains c then none
    else if c == '-' then letters (c :: seen) false s rest
    else if ['i', 'm', 's', 'U', 'u', 'R', 'x'].contains c then
      letters (c :: seen) on (s.put c on) rest
    else none

/-- Whether a group may have a name. -/
def isName : List Char → Bool
  | [] => false
  | c :: rest =>
    (c == '_' || Text.isLetter c) &&
      rest.all fun c => c == '_' || c == '.' || c == '[' || c == ']' || Text.isAlphanumeric c

/-- The name of a group and the mark behind it. -/
def named (s : Settings) (cs : List Char) : Option (Opening × List Char) :=
  let name := cs.takeWhile (· != '>')
  match cs.drop name.length with
  | [] => none
  | _ :: rest => if isName name then some (.group s (some name), rest) else none

/-- What follows an opening parenthesis. -/
def opening (s : Settings) (cs : List Char) : Option (Opening × List Char) :=
  match s.skip cs with
  | '?' :: 'P' :: '<' :: rest => named s rest
  | '?' :: '<' :: rest => named s rest
  | '?' :: rest => letters [] true s rest
  | cs => some (.group s none, cs)

/-- What was read of the group that is open. -/
structure Branch where
  /-- How deep the alternatives before this one nest, if there are any. -/
  earlier : Option Nat
  /-- How many parts this one has, and how deep the deepest nests. -/
  count : Nat
  deepest : Nat
  /-- How deep the last part nests, if it may be repeated. -/
  last : Option Nat

namespace Branch

def start : Branch := ⟨none, 0, 0, none⟩

def depth (b : Branch) : Nat :=
  match b.earlier with
  | none => joined b.count b.deepest
  | some earlier => Nat.max earlier (joined b.count b.deepest + 1)

/-- Begin another alternative. -/
def next (b : Branch) : Branch :=
  let depth := joined b.count b.deepest + 1
  ⟨some (Nat.max (b.earlier.getD 0) depth), 0, 0, none⟩

def add (b : Branch) (depth : Nat) : Branch :=
  {b with count := b.count + 1, deepest := Nat.max b.deepest depth, last := some depth}

/-- Add settings, which cannot be repeated. -/
def addSettings (b : Branch) : Branch :=
  {b with count := b.count + 1, last := none}

/-- Repeat the last part, if it may be. -/
def repeat? (b : Branch) : Option Branch :=
  b.last.map fun depth =>
    {b with deepest := Nat.max b.deepest (depth + 1), last := some (depth + 1)}

end Branch

/-- A primitive outside of classes. -/
def primitive (s : Settings) : List Char → Option (Primitive × List Char)
  | [] => none
  | '\\' :: rest => escape s rest
  | '.' :: rest => some (.any, rest)
  | '^' :: rest => some (.anchor, rest)
  | '$' :: rest => some (.anchor, rest)
  | c :: rest => some (.literal c false, rest)

/-- The rest of a group, or of the whole text if none is open: how deep it nests, the names of groups
so far, and what follows. -/
def alternatives : (fuel : Nat) → (inGroup : Bool) → Branch → Settings → (names : List (List Char)) →
    List Char → Option (Nat × List (List Char) × List Char)
  | 0, _, _, _, _, _ => none
  | fuel + 1, inGroup, b, s, names, cs =>
    match s.skip cs with
    | [] => if inGroup then none else some (b.depth, names, [])
    | c :: rest =>
      if c == ')' then
        if inGroup then some (b.depth, names, rest) else none
      else if c == '|' then alternatives fuel inGroup b.next s names rest
      else if c == '?' || c == '*' || c == '+' then
        match b.repeat? with
        | none => none
        | some b =>
          match rest with
          | '?' :: rest => alternatives fuel inGroup b s names rest
          | _ => alternatives fuel inGroup b s names rest
      else if c == '\x7b' then none
      else if c == '(' then
        match opening s rest with
        | none => none
        | some (.settings s, rest) => alternatives fuel inGroup b.addSettings s names rest
        | some (.group inner name, rest) =>
          if names.any fun other => name == some other then none
          else
            match alternatives fuel true .start inner (name.toList ++ names) rest with
            | none => none
            | some (depth, names, rest) => alternatives fuel inGroup (b.add (depth + 1)) s names rest
      else if c == '[' then
        match bracketed fuel s rest with
        | none => none
        | some (depth, rest) => alternatives fuel inGroup (b.add depth) s names rest
      else
        match primitive s (c :: rest) with
        | none => none
        | some (p, rest) =>
          if p.isAvailable s then alternatives fuel inGroup (b.add 0) s names rest else none

/-- The greatest depth of nesting. -/
def depthLimit : Nat := 250

/-- Whether a text is a pattern. -/
def isPattern (cs : List Char) : Bool :=
  match alternatives (2 * cs.length + 4) false .start .start [] cs with
  | some (depth, _, _) => Nat.ble depth depthLimit
  | none => false

end Aggregation.Log.Pattern
