import RoutePolicy.Scenario.Run
import RoutePolicy.Text.Pad

/-!
# Presenting scenarios

A title, what the scenario is about, one line for each outcome, and the seal: the size of the
table, the diagnostics, and the fingerprint.
-/

set_option autoImplicit false

namespace RoutePolicy

/-- A write in an outcome. -/
def describeWrite (w : RouteField × AttributeValue) : String := w.1.describe ++ "=" ++ w.2.describe

/-- The line of an outcome. -/
def RouteOutcome.line (o : RouteOutcome) : String :=
  "  " ++ padRight 18 o.label ++ " " ++ padRight 10 o.direction.name ++ " "
    ++ padRight 6 o.decision.result.name ++ " "
    ++ " ".intercalate (o.decision.attributes.toList.map describeWrite)

/-- The lines of a seal. -/
def ScenarioResult.sealLines (r : ScenarioResult) : List String :=
  let counts := r.report.counts
  ["  Policies in table:      " ++ Decimal.text r.table.size,
    "  Diagnostics:            " ++ Decimal.text counts.undefinedReferences ++ " undefined, "
      ++ Decimal.text counts.unsupportedConstructs ++ " unsupported, "
      ++ Decimal.text counts.callCycles ++ " cycle(s), "
      ++ Decimal.text counts.depthExceeded ++ " depth"]
  ++ r.report.diagnostics.map (fun d => "    - " ++ d.message)
  ++ ["  Table fingerprint:      " ++ r.report.tableFingerprint.getD "-" ++ " (VERIFIED)"]

namespace Scenario

/-- The number of a scenario. -/
def number : Scenario → String
  | .peerImport => "1"
  | .aggregate => "2"
  | .vrfLeak => "3"

/-- The title of a scenario. -/
def title : Scenario → String
  | .peerImport => "Transit Peer Import and Export"
  | .aggregate => "Aggregate Contributors"
  | .vrfLeak => "Routing-Instance Leaking"

/-- The lines before a scenario is run. -/
def preamble (s : Scenario) : List String :=
  ["=== Scenario " ++ s.number ++ ": " ++ s.title ++ " ===", ""]
  ++ match s with
    | .peerImport =>
      ["  Peer:          " ++ Transit.peer,
        "  Import chain:  " ++ " ".intercalate Transit.importChain,
        "  Export chain:  " ++ " ".intercalate Transit.exportChain, ""]
    | .aggregate | .vrfLeak => []

/-- The line with the accepted contributors of an aggregate. -/
def contributorsLine (outcomes : List RouteOutcome) (aggregate : Prefix) : String :=
  let policy := Derived.generationPolicyName aggregate
  let accepted := outcomes.filter fun o => o.policy == policy && o.decision.isAccepted
  "  Aggregate " ++ padRight 15 aggregate.text ++ " contributors: "
    ++ ", ".intercalate (accepted.map (·.label))

/-- The lines with the outcomes of a scenario. -/
def findings (outcomes : List RouteOutcome) : Scenario → List String
  | .peerImport => outcomes.map (·.line)
  | .aggregate =>
    Campus.aggregates.map (contributorsLine outcomes) ++ [""] ++ outcomes.map (·.line)
  | .vrfLeak =>
    let half := outcomes.length / 2
    ["  RIB group " ++ Leaking.ribGroup ++ " (import chain LEAK-FROM-BLUE):"]
      ++ (outcomes.take half).map (·.line)
      ++ ["", "  Instance-import into '" ++ Leaking.target ++ "' (LEAK-FROM-BLUE LEAK-STATIC):"]
      ++ (outcomes.drop half).map (·.line)

/-- Runs a scenario and prints it. -/
def present (s : Scenario) : Journaled ScenarioResult := do
  Journaled.print s.preamble
  let result ← s.execute
  Journaled.print <|
    s.findings result.outcomes ++ [""] ++ result.sealLines
      ++ ["", "  Scenario " ++ s.number ++ " complete.", ""]
  pure result

end Scenario

end RoutePolicy
