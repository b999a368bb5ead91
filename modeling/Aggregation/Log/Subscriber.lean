import Aggregation.Config
import Aggregation.Log.Filter
import Aggregation.Log.Layout

/-! The subscriber: it writes the records that are wanted, one line each. A process has at most
one, and the first stays. -/
namespace Aggregation.Log

structure Subscriber where
  filter : Filter
  layout : Layout
  timestamps : Bool

namespace Subscriber

/-- The subscriber that settings ask for. Directives in the environment go before their level. -/
def ofSettings (environment : Option String) (settings : Config.Logging) : Subscriber :=
  ⟨Filter.chosen environment settings.level, Layout.named settings.format, settings.timestamps⟩

/-- Install a subscriber where none is yet. The answer says whether it was installed. -/
def install (s : Subscriber) : Option Subscriber → Bool × Option Subscriber
  | none => (true, some s)
  | some held => (false, some held)

/-- The line of a record, if it is wanted. -/
def line? (s : Subscriber) (now : Timestamp) (r : Record) : Option (List Char) :=
  if s.filter.wants r then
    some (s.layout.line (if s.timestamps then some now else none) r)
  else none

end Subscriber

end Aggregation.Log
