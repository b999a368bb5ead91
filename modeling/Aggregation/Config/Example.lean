import Aggregation.Config

/-! A configuration to start from, and how a file spells it in each format. -/
namespace Aggregation.Config.Example

def config : Config where
  name := "quote-aggregator"
  metrics := true
  deadLetterFile := some "/var/lib/conflux/dlq.jsonl"
  aggregates := Bag.ofList [("quotes", ⟨some "quotes", 5000, 2, 10⟩)]
  logging := ⟨"info", "json", true⟩

def yaml : List String :=
  ["name: quote-aggregator",
   "metrics_enabled: true",
   "dead_letter_file: /var/lib/conflux/dlq.jsonl",
   "aggregates:",
   "  quotes:",
   "    id: quotes",
   "    timeout_ms: 5000",
   "    min_messages: 2",
   "    max_messages: 10",
   "logging:",
   "  level: info",
   "  format: json",
   "  timestamps: true"]

def toml : List String :=
  ["name = \"quote-aggregator\"",
   "metrics_enabled = true",
   "dead_letter_file = \"/var/lib/conflux/dlq.jsonl\"",
   "",
   "[aggregates.quotes]",
   "id = \"quotes\"",
   "timeout_ms = 5000",
   "min_messages = 2",
   "max_messages = 10",
   "",
   "[logging]",
   "level = \"info\"",
   "format = \"json\"",
   "timestamps = true"]

/-- The text of lines, each of them ended. -/
def text (lines : List String) : String :=
  String.join (lines.map fun line => line ++ "\n")

end Aggregation.Config.Example
