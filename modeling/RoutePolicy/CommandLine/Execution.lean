import RoutePolicy.CommandLine.Command
import RoutePolicy.Codec.Decision
import RoutePolicy.Codec.Report
import RoutePolicy.Configuration.Document
import RoutePolicy.LogFilter.Basic
import RoutePolicy.Scenario.Presentation

/-!
# Executing commands

* `Command.execute` — the work of a command, given the files it can read;
* `Execution.of` — what the program shows for a command line: two streams of text and an exit code.
-/

set_option autoImplicit false

namespace RoutePolicy

/-- The files that can be read. -/
abbrev Files := String → Except FileCause String

namespace Command

/-- What is shown before a scenario. -/
def banner : List String :=
  ["", "Route Policy Engine", "Junos Reference Demo", "====================", "",
    "Per configuration:",
    "  [1] Policy statements compile term by term into the policy IR",
    "  [2] Derived policies wire peers, aggregates and instances to user policies",
    "  [3] The registry freezes, linking references and reporting dangling ones",
    "  [4] Routes evaluate to accept/reject plus attribute writes",
    "  [5] The table fingerprint seals the diagnostic report", ""]

/-- The table of the configuration in a file. -/
def load (files : Files) (file : String) (simplify : Bool) : Journaled Table := do
  let text ← Journaled.lift <|
    (files file).mapError fun cause => .configuration (.unreadableFile file cause)
  let c ← Journaled.lift (Configuration.read text)
  let table ← Configuration.tabulate { c with simplify := c.simplify || simplify }
  Journaled.log (.configurationLoaded file table.size)
  pure table

/-- The line of a policy in a listing. -/
def policyLine (p : Policy) : String :=
  let sources := p.sources.toList
  padRight 40 p.name ++ " " ++ padLeft 3 (Decimal.text p.statements.length)
    ++ " statement(s)  sources: " ++ (if sources.isEmpty then "-" else ", ".intercalate sources)

/-- The line of a diagnostic. -/
def warning (d : Diagnostic) : String := "warning: " ++ d.message

/-- A table and the report on it, as lines. -/
def listing (t : Table) (r : Report) : List String :=
  t.policies.map policyLine ++ [""] ++ r.diagnostics.map warning
    ++ ["fingerprint: " ++ r.tableFingerprint.getD "-"]

/-- A table and the report on it, as data. -/
def dump (t : Table) (r : Report) : Json :=
  .object [("policies", .array (t.policies.map Policy.toJson)), ("report", r.toRecord)]

/-- The work of a command. -/
def execute (files : Files) : Command → Journaled Unit
  | .runAll => do
    Journaled.print banner
    Scenario.all.forM fun s => do let _ ← s.present
    Journaled.print ["All scenarios completed successfully."]
  | .present s => do
    Journaled.print banner
    let _ ← s.present
  | .compile file simplify json => do
    let table ← load files file simplify
    let report ← reportOn table
    Journaled.print (if json then [(dump table report).pretty] else listing table report)
  | .evaluate file policy route direction defaultAction => do
    let table ← load files file false
    if (table.idOf? policy).isNone then throw (.unknownPolicy policy)
    let decision ← table.decide { defaultAction } policy route direction
    Journaled.print [decision.toJson.pretty]
    Journaled.complain ((← get).collector.diagnostics.map warning)
  | .help topic => Journaled.print topic.lines

end Command

/-- What the program shows, and its exit code. -/
structure Execution where
  output : List Output := []
  code : Nat
  deriving DecidableEq, Repr

namespace Execution

/-- What is shown for a command line that is no command. -/
def usage : List String :=
  ["usage: run-all | peer-import | aggregate | vrf-leak",
    "       compile FILE [--simplify] [--json]",
    "       eval FILE --policy NAME --prefix PREFIX [--protocol NAME] [--direction NAME]",
    "            [--as-path ASN,...] [--community ASN:VALUE,...] [--tag NUMBER] [--vrf NAME]",
    "            [--default-action accept|reject]"]

/-- The execution of a command line. -/
def of (files : Files) (args : List String) : Execution :=
  match Command.parse? args with
  | none => { output := usage.map .complaint, code := 2 }
  | some command =>
    match (command.execute files).start with
    | (.ok _, journal) => { output := journal.output, code := 0 }
    | (.error failure, journal) =>
      { output := journal.output ++ [.complaint ("Demo error: " ++ failure.message)], code := 1 }

/-- The texts of the standard output, where the log is written as well; `nameOf` names the
components for its filter. -/
def standardOutput (filter : LogFilter) (nameOf : Component → String) (e : Execution) :
    List String :=
  e.output.filterMap fun
    | .event event => if filter.admits nameOf event then some event.line else none
    | .line text => some text
    | .complaint _ => none

/-- The texts of the error output. -/
def errorOutput (e : Execution) : List String := complaintsOf e.output

end Execution

end RoutePolicy
