import Aggregation.Toml.Number
import Aggregation.Toml.Table

/-! Reading the values of TOML. -/
namespace Aggregation.Toml

/-- A word for a truth value or a number that is none. -/
def word (cs : List Char) : Option (Item × List Char) :=
  match cs with
  | 't' :: 'r' :: 'u' :: 'e' :: rest => some (.boolean true, rest)
  | 'f' :: 'a' :: 'l' :: 's' :: 'e' :: rest => some (.boolean false, rest)
  | _ => (floatWord? cs).map fun rest => (.float, rest)

/-- A date, or else a float, or else an integer; a signed word is a float as well. -/
def numeric (cs : List Char) : Option (Item × List Char) :=
  match moment? cs with
  | some read => read.map fun rest => (.moment, rest)
  | none =>
    match float? cs with
    | some read => read.map fun rest => (.float, rest)
    | none =>
      match floatWord? cs with
      | some rest => some (.float, rest)
      | none => (integer cs).map fun (n, rest) => (.integer n, rest)

/-- Skip what may stand between the items of an array. -/
def skipBetween (cs : List Char) : Option (List Char) :=
  skipLines (cs.length + 1) cs

mutual
/-- A value that nests at most `depth` deep. Each level of nesting and each further item takes one
unit of fuel; twice the length of the text always suffices. -/
def value : (fuel depth : Nat) → List Char → Option (Item × List Char)
  | 0, _, _ => none
  | fuel + 1, depth, cs =>
    match cs with
    | [] => none
    | c :: rest =>
      if c == '"' || c == '\'' then
        (string c cs).map fun (s, rest) => (.string (String.ofList s), rest)
      else if c == '[' then
        match depth with
        | 0 => none
        | depth + 1 =>
          match skipBetween rest with
          | some (']' :: rest) => some (.array [], rest)
          | _ => (items fuel depth rest).map fun (vs, rest) => (.array vs, rest)
      else if c == '\x7b' then
        match depth with
        | 0 => none
        | depth + 1 =>
          match skipBlanks rest with
          | '\x7d' :: rest => some (.table .written [], rest)
          | _ => (pairs fuel depth [] rest).map fun (es, rest) => (.table .written es, rest)
      else if c == '+' || c == '-' || Text.isDigit c then numeric cs
      else word cs

/-- The items of an array up to its closing bracket; a comma may follow the last. -/
def items : (fuel depth : Nat) → List Char → Option (List Item × List Char)
  | 0, _, _ => none
  | fuel + 1, depth, cs =>
    match skipBetween cs with
    | none => none
    | some cs =>
      match value fuel depth cs with
      | none => none
      | some (v, rest) =>
        match skipBetween rest with
        | some (']' :: rest) => some ([v], rest)
        | some (',' :: rest) =>
          match skipBetween rest with
          | some (']' :: rest) => some ([v], rest)
          | _ => (items fuel depth rest).map fun (vs, rest) => (v :: vs, rest)
        | _ => none

/-- The entries of a table on one line up to its closing brace. -/
def pairs : (fuel depth : Nat) → Entries → List Char → Option (Entries × List Char)
  | 0, _, _, _ => none
  | fuel + 1, depth, held, cs =>
    match key cs with
    | some (k, '=' :: rest) =>
      match value fuel depth (skipBlanks rest) with
      | none => none
      | some (v, rest) =>
        match Entries.assign k v .written held with
        | none => none
        | some held =>
          match skipBlanks rest with
          | '\x7d' :: rest => some (held, rest)
          | ',' :: rest => pairs fuel depth held rest
          | _ => none
    | _ => none
end

end Aggregation.Toml
