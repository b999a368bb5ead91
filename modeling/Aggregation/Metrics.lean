import Aggregation.Bag
import Aggregation.Decimal.Layout
import Aggregation.Policy
import Aggregation.Text.Order

/-! Counting what becomes of groups and messages.

Numbers are doubles where they are shown, so a total is rounded to a double after every addition;
below `2 ^ 53` nothing is ever rounded. A series of a labelled counter exists once it was touched,
be it only to ask for its count. -/
namespace Aggregation

/-- How often each upper bound was not exceeded, how many sizes there were, and their total. -/
structure Histogram where
  buckets : List (Nat × Nat)
  count : Nat
  sum : Nat

structure Metrics where
  created : Nat
  completed : Bag Nat
  faults : Bag Nat
  late : Nat
  active : Int
  sizes : Histogram

namespace Histogram

/-- The nearest number of at most 53 binary digits, a tie going to the even one. -/
def rounded (n : Nat) : Nat :=
  if n < 9007199254740992 then n
  else
    let unit := Nat.pow 2 (Nat.log2 n - 52)
    let below := n / unit
    let rest := n % unit
    if unit < 2 * rest || unit == 2 * rest && below % 2 == 1 then (below + 1) * unit
    else below * unit

def empty (bounds : List Nat) : Histogram :=
  ⟨bounds.map fun b => (b, 0), 0, 0⟩

def observe (h : Histogram) (size : Nat) : Histogram :=
  { buckets := h.buckets.map fun (bound, n) => (bound, if rounded size ≤ bound then n + 1 else n)
    count := h.count + 1
    sum := rounded (h.sum + rounded size) }

end Histogram

namespace Metrics

/-- The upper bounds of the sizes told apart. -/
def bounds : List Nat := [0, 1, 2, 5, 10, 25, 50, 100, 500]

def empty : Metrics :=
  ⟨0, Bag.empty, Bag.empty, 0, 0, Histogram.empty bounds⟩

/-- Add to a labelled series, which starts at zero. -/
def bump (series : Bag Nat) (label : String) (n : Nat) : Bag Nat :=
  series.put label ((series.get? label).getD 0 + n)

def recordCreated (m : Metrics) : Metrics :=
  {m with created := m.created + 1, active := m.active + 1}

def recordCompleted (m : Metrics) (trigger : Trigger) (size : Nat) : Metrics :=
  {m with
    completed := bump m.completed trigger.name 1
    active := m.active - 1
    sizes := m.sizes.observe size}

def recordFault (m : Metrics) (kind : String) : Metrics :=
  {m with faults := bump m.faults kind 1}

def recordLate (m : Metrics) : Metrics :=
  {m with late := m.late + 1}

/-- How many groups a trigger completed; asking creates the series. -/
def completedCount (m : Metrics) (trigger : Trigger) : Nat × Metrics :=
  ((m.completed.get? trigger.name).getD 0, {m with completed := bump m.completed trigger.name 0})

/-! ### Exposition text -/

def natText (n : Nat) : String :=
  Decimal.Layout.plain.text (Float.ofNat n)

def intText (n : Int) : String :=
  Decimal.Layout.plain.text (Float.ofInt n)

/-- A label's value as it stands between quotes. -/
def escaped (value : String) : String :=
  String.ofList (value.toList.flatMap fun c =>
    if c = '\\' then ['\\', '\\'] else if c = '"' then ['\\', '"']
    else if c = '\n' then ['\\', 'n'] else [c])

def sample (name value : String) : String :=
  name ++ " " ++ value ++ "\n"

def labelled (name label value : String) : String :=
  name ++ "\x7b" ++ label ++ "=\"" ++ escaped value ++ "\"\x7d"

/-- The two lines before a family's samples. -/
def heading (name help kind : String) : String :=
  "# HELP " ++ name ++ " " ++ help ++ "\n# TYPE " ++ name ++ " " ++ kind ++ "\n"

/-- A family of one number. -/
def single (name help kind value : String) : String :=
  heading name help kind ++ sample name value

/-- A labelled family, its series in order of label; nothing if it has none. -/
def family (name help label : String) (series : Bag Nat) : String :=
  match Text.sortedBy (fun entry : String × Nat => entry.1.toList) series.entries with
  | [] => ""
  | entries =>
    heading name help "counter" ++
      String.join (entries.map fun (value, n) => sample (labelled name label value) (natText n))

def histogram (name help : String) (h : Histogram) : String :=
  heading name help "histogram" ++
    String.join (h.buckets.map fun (bound, n) =>
      sample (labelled (name ++ "_bucket") "le" (natText bound)) (natText n)) ++
    sample (labelled (name ++ "_bucket") "le" "+Inf") (natText h.count) ++
    sample (name ++ "_sum") (natText h.sum) ++
    sample (name ++ "_count") (natText h.count)

/-- All families in order of name. -/
def gather (m : Metrics) : String :=
  single "conflux_active_groups" "Groups currently collecting" "gauge" (intText m.active) ++
    family "conflux_faults_total" "Aggregation faults by kind" "kind" m.faults ++
    histogram "conflux_group_size" "Messages per finalized group" m.sizes ++
    family "conflux_groups_completed_total" "Aggregation groups finalized, by completion trigger"
      "trigger" m.completed ++
    single "conflux_groups_created_total" "Aggregation groups created" "counter" (natText m.created) ++
    single "conflux_late_messages_total" "Messages that arrived after their group completed" "counter"
      (natText m.late)

end Metrics

end Aggregation
