import Aggregation.Config.Toml
import Aggregation.Config.Yaml

/-! The formats of configuration files, and how a file is read. The end of its name says which
format it has; where it does not, the formats are tried one after the other. -/
namespace Aggregation.Config

inductive Format where
  | yaml
  | toml
  deriving DecidableEq

namespace Format

def parse? : Format → List Char → Option Config
  | .yaml, cs => Yaml.parse? cs
  | .toml, cs => Toml.parse? cs

/-- The formats to try on a file, by the extension of its name. -/
def ofExtension (extension : String) : List Format :=
  let lower := extension.map Char.toLower
  if lower = "yaml" || lower = "yml" then [.yaml]
  else if lower = "toml" then [.toml]
  else [.yaml, .toml]

/-- What follows the last point of a file's name, unless the name starts with that point. -/
def extension (path : String) : String :=
  let named := (Storage.pieces path.toList).filter fun piece => piece != "."
  let name := named.getLast?.getD ""
  let pieces := Text.split '.' name.toList
  match pieces.dropLast with
  | [] => ""
  | [[]] => ""
  | _ => String.ofList (pieces.getLast?.getD [])

end Format

/-- The configuration in a file. -/
def load (s : Storage) (path : String) : Except Problem Config :=
  match s.read path with
  | .error failure => .error (.unreadable path failure)
  | .ok cs =>
    match (Format.ofExtension (Format.extension path)).findSome? fun format => format.parse? cs with
    | some c => .ok c
    | none => .error .malformed

end Aggregation.Config
