import RoutePolicy.Diagnostic.Basic
import RoutePolicy.Evaluation.Decision

/-!
# Events and notices

An `Event` is something worth a line in the log.  A `Notice` is what a computation reports while
it runs: an event or a diagnostic, and the order of notices is the order in which they arise.

* `Event.severity`, `Event.line` — how an event appears in a log;
* `Event.component`, `Event.detailNames` — where it arises and what is told about it;
* `Severity.admits` — which events a log of a given severity holds;
* `diagnosticsOf` — the diagnostics among notices.
-/

set_option autoImplicit false

namespace RoutePolicy

/-- The severity of an event, most severe first. -/
inductive Severity where
  | error
  | warn
  | info
  | debug
  | trace
  deriving DecidableEq, Repr

namespace Severity

/-- The rank of a severity; more severe is lower. -/
def rank : Severity → Nat
  | .error => 0
  | .warn => 1
  | .info => 2
  | .debug => 3
  | .trace => 4

/-- Whether a log that is kept at `limit` holds events of severity `s`. -/
def admits (limit s : Severity) : Bool := s.rank ≤ limit.rank

/-- The name in log lines. -/
def label : Severity → String
  | .error => "ERROR"
  | .warn => "WARN"
  | .info => "INFO"
  | .debug => "DEBUG"
  | .trace => "TRACE"

/-- The name in settings. -/
def name : Severity → String
  | .error => "error"
  | .warn => "warn"
  | .info => "info"
  | .debug => "debug"
  | .trace => "trace"

/-- Every severity, most severe first. -/
def all : List Severity := [.error, .warn, .info, .debug, .trace]

/-- The severity of a name in settings. -/
def ofName? (name : String) : Option Severity := all.find? (fun s => s.name == name)

end Severity

/-- A part of the program in which events arise. -/
inductive Component where
  | registry
  | evaluation
  | compiler
  | conversion
  | collector
  | scenario
  | program
  deriving DecidableEq, Repr

/-- The name in settings. -/
def Component.name : Component → String
  | .registry => "registry"
  | .evaluation => "evaluation"
  | .compiler => "compiler"
  | .conversion => "conversion"
  | .collector => "collector"
  | .scenario => "scenario"
  | .program => "program"

/-- Something worth a line in the log. -/
inductive Event where
  | policyDefined (policy : String) (statements : Nat) (derived : Bool)
  | undefinedPolicyIgnored (policy target : String)
  | undefinedPrefixList (policy : String) (term : Nat) (prefixList : String)
  | unsupportedConstruct (policy : String) (term : Nat) (construct : String)
  | statementCompiled (policy : String) (terms statements : Nat)
  | configurationConverted (policies statements : Nat) (simplified : Bool)
  | undefinedPolicyRejects (policy : String)
  | conventionalDefault (policy : String)
  | topLevelEvaluation (policy : String) (direction : Direction)
  | callEvaluated (policy callee : String) (result : Verdict)
  | callCycle (policy : String) (path : List String)
  | callDepthExceeded (policy : String) (depth : Nat)
  | fallingThrough (policy defaultPolicy : String)
  | policyEvaluated (policy : String) (direction : Direction) (result : Action) (writes : Nat)
  | diagnosticRecorded (diagnostic : Diagnostic)
  | reportExported (distinct recorded : Nat)
  | scenarioCompiled (policies diagnostics : Nat)
  | configurationLoaded (file : String) (policies : Nat)
  deriving DecidableEq, Repr

namespace Event

/-- The severity of an event. -/
def severity : Event → Severity
  | undefinedPolicyIgnored .. | undefinedPrefixList .. | unsupportedConstruct ..
  | undefinedPolicyRejects .. | callCycle .. | callDepthExceeded .. => .warn
  | configurationConverted .. | reportExported .. | scenarioCompiled ..
  | configurationLoaded .. => .info
  | policyDefined .. | statementCompiled .. | conventionalDefault .. | fallingThrough ..
  | policyEvaluated .. | diagnosticRecorded .. => .debug
  | topLevelEvaluation .. | callEvaluated .. => .trace

/-- Where an event arises. -/
def component : Event → Component
  | policyDefined .. | undefinedPolicyIgnored .. => .registry
  | undefinedPolicyRejects .. | conventionalDefault .. | topLevelEvaluation .. | callEvaluated ..
  | callCycle .. | callDepthExceeded .. | fallingThrough .. | policyEvaluated .. => .evaluation
  | undefinedPrefixList .. | unsupportedConstruct .. | statementCompiled .. => .compiler
  | configurationConverted .. => .conversion
  | diagnosticRecorded .. | reportExported .. => .collector
  | scenarioCompiled .. => .scenario
  | configurationLoaded .. => .program

/-- What happened, in words. -/
def message : Event → String
  | policyDefined .. => "policy defined"
  | undefinedPolicyIgnored .. => "reference to undefined policy ignored"
  | undefinedPrefixList .. => "undefined prefix-list never matches"
  | unsupportedConstruct .. => "unsupported construct"
  | statementCompiled .. => "policy statement compiled"
  | configurationConverted .. => "configuration converted"
  | undefinedPolicyRejects .. => "evaluation of undefined policy rejects"
  | conventionalDefault .. => "import evaluation relies on the conventional default action"
  | topLevelEvaluation .. => "top-level evaluation"
  | callEvaluated .. => "call expression evaluated"
  | callCycle .. => "policy call cycle detected"
  | callDepthExceeded .. => "policy call depth exceeded"
  | fallingThrough .. => "falling through to default policy"
  | policyEvaluated .. => "policy evaluated"
  | diagnosticRecorded .. => "diagnostic recorded"
  | reportExported .. => "diagnostic report exported"
  | scenarioCompiled .. => "scenario configuration compiled"
  | configurationLoaded .. => "configuration loaded"

/-- A truth value in a log line. -/
def flag (b : Bool) : String := if b then "true" else "false"

/-- The details of an event, by name.  The identity of an epoch is random and shown as `-`, so
that the logs of two runs can be compared. -/
def details : Event → List (String × String)
  | policyDefined p n d => [("policy", p), ("statements", Decimal.text n), ("derived", flag d)]
  | undefinedPolicyIgnored p t => [("policy", p), ("target", t)]
  | undefinedPrefixList p t l => [("policy", p), ("term", Decimal.text t), ("prefix_list", l)]
  | unsupportedConstruct p t c => [("policy", p), ("term", Decimal.text t), ("construct", c)]
  | statementCompiled p t n =>
    [("policy", p), ("terms", Decimal.text t), ("statements", Decimal.text n)]
  | configurationConverted p n s =>
    [("policies", Decimal.text p), ("statements", Decimal.text n), ("simplified", flag s)]
  | undefinedPolicyRejects p => [("policy", p)]
  | conventionalDefault p => [("policy", p)]
  | topLevelEvaluation p d => [("policy", p), ("direction", d.name)]
  | callEvaluated p c r => [("policy", p), ("callee", c), ("result", r.describe)]
  | callCycle p path => [("policy", p), ("path", describePath path)]
  | callDepthExceeded p d => [("policy", p), ("depth", Decimal.text d)]
  | fallingThrough p d => [("policy", p), ("default_policy", d)]
  | policyEvaluated p d r n =>
    [("policy", p), ("direction", d.name), ("result", r.name), ("writes", Decimal.text n)]
  | diagnosticRecorded d => [("epoch", "-"), ("diagnostic", d.message)]
  | reportExported d r =>
    [("epoch", "-"), ("distinct", Decimal.text d), ("recorded", Decimal.text r)]
  | scenarioCompiled p d =>
    [("policies", Decimal.text p), ("diagnostics", Decimal.text d), ("epoch", "-")]
  | configurationLoaded f p => [("file", f), ("policies", Decimal.text p)]

/-- The names of what is told about an event: its message and its details. -/
def detailNames (e : Event) : List String := "message" :: e.details.map (·.1)

/-- The log line of an event. -/
def line (e : Event) : String :=
  e.severity.label ++ " " ++ e.message
    ++ String.join (e.details.map fun d => " " ++ d.1 ++ "=" ++ d.2)

end Event

/-- What a computation reports while it runs. -/
inductive Notice where
  | event (event : Event)
  | diagnostic (diagnostic : Diagnostic)
  deriving DecidableEq, Repr

/-- The diagnostics among notices, in order. -/
def diagnosticsOf (notices : List Notice) : List Diagnostic :=
  notices.filterMap fun
    | .diagnostic d => some d
    | .event _ => none

end RoutePolicy
