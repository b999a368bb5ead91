import Aggregation.Clock.Timestamp
import Aggregation.Json.Writer
import Aggregation.Log.Record
import Aggregation.Text.Quoted

/-! The two layouts of a record on a line: an object in JSON, or text with terminal colours. -/
namespace Aggregation.Log

inductive Layout where
  | json
  | text
  deriving DecidableEq

namespace Layout

/-- The layout of a name. -/
def named (format : String) : Layout :=
  if format = "json" then .json else .text

/-! ### JSON -/

def jsonDetail : Detail → List Char
  | .quoted s => Json.Writer.string s
  | .plain s => Json.Writer.string s
  | .number n => Text.decimal n

/-- Message and details are fields of one object. -/
def jsonLine (stamp : Option Timestamp) (r : Record) : List Char :=
  let fields := ("message", Json.Writer.string r.message) ::
    r.details.map fun detail => (detail.1, jsonDetail detail.2)
  Json.Writer.braced
    ((stamp.map fun t => ("timestamp", Json.Writer.quoted t.micros)).toList ++
      [("level", Json.Writer.string r.level.name),
       ("fields", Json.Writer.braced fields),
       ("target", Json.Writer.string r.target)])

/-! ### Text -/

/-- Text in one of the terminal's styles. -/
def styled (style : List Char) (cs : List Char) : List Char :=
  '\x1b' :: '[' :: style ++ 'm' :: cs ++ ['\x1b', '[', '0', 'm']

def dimmed : List Char → List Char :=
  styled ['2']

def italic : List Char → List Char :=
  styled ['3']

/-- The colour of a level. -/
def colour : Level → List Char
  | .error => ['3', '1']
  | .warn => ['3', '3']
  | .info => ['3', '2']
  | .debug => ['3', '4']
  | .trace => ['3', '5']

/-- A level's name, five characters wide. -/
def levelText (level : Level) : List Char :=
  let name := level.name.toList
  styled (colour level) (List.replicate (5 - name.length) ' ' ++ name)

/-- A character of a message. Controls by which a message could command the terminal are spelt
out. -/
def harmless (c : Char) : List Char :=
  let n := c.toNat
  if n = 7 || n = 8 || n = 12 || n = 27 || n = 127 then
    ['\\', 'x', Text.hexDigit (n / 16), Text.hexDigit (n % 16)]
  else if 128 ≤ n && n ≤ 159 then Text.Quoted.codePoint c
  else [c]

def textDetail : Detail → List Char
  | .quoted s => Text.Quoted.text s.toList
  | .plain s => s.toList
  | .number n => Text.decimal n

def textLine (stamp : Option Timestamp) (r : Record) : List Char :=
  ((stamp.map fun t => dimmed t.micros ++ [' ']).getD []) ++
    levelText r.level ++ ' ' :: dimmed r.target.toList ++ dimmed [':'] ++
    ' ' :: r.message.toList.flatMap harmless ++
    r.details.flatMap fun detail =>
      ' ' :: italic detail.1.toList ++ dimmed ['='] ++ textDetail detail.2

def line : Layout → Option Timestamp → Record → List Char
  | .json => jsonLine
  | .text => textLine

end Layout

end Aggregation.Log
