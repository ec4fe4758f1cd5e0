import RoutePolicy.Text.Decimal

/-!
# Diagnostics

Problems that do not stop anything: a name without a meaning, a construct that cannot be
expressed, a policy that calls itself, calls that nest too deep.  Each names the policy it belongs
to and, where one is known, the term.
-/

set_option autoImplicit false

namespace RoutePolicy

/-- What a name was meant to refer to. -/
inductive ReferenceKind where
  | policy
  | prefixList
  deriving DecidableEq, Repr

/-- The kind of object in messages and in data. -/
def ReferenceKind.name : ReferenceKind → String
  | .policy => "policy"
  | .prefixList => "prefix-list"

/-- What a diagnostic reports. -/
inductive Finding where
  | undefinedReference (kind : ReferenceKind) (name : String)
  | unsupportedConstruct (construct : String)
  | callCycle (path : List String)
  | callDepthExceeded (depth : Nat)
  deriving DecidableEq, Repr

/-- A path of policies in messages. -/
def describePath (path : List String) : String := " -> ".intercalate path

/-- The wording of a finding. -/
def Finding.message : Finding → String
  | .undefinedReference kind name =>
    "undefined " ++ kind.name ++ " '" ++ name ++ "' (reference ignored)"
  | .unsupportedConstruct construct => "unsupported construct '" ++ construct ++ "' (never matches)"
  | .callCycle path => "call cycle " ++ describePath path
  | .callDepthExceeded depth => "call depth exceeded " ++ Decimal.text depth

/-- A finding with the place it belongs to. -/
structure Diagnostic where
  policy : String
  term : Option Nat := none
  finding : Finding
  deriving DecidableEq, Repr

/-- What diagnostics are told apart by: the policy, the term and the finding. -/
abbrev DiagnosticKey : Type := String × Option Nat × Finding

/-- The key of a diagnostic. -/
def Diagnostic.key (d : Diagnostic) : DiagnosticKey := (d.policy, d.term, d.finding)

/-- The wording of a diagnostic. -/
def Diagnostic.message (d : Diagnostic) : String :=
  let term := match d.term with
    | some n => " term #" ++ Decimal.text n
    | none => ""
  "policy '" ++ d.policy ++ "'" ++ term ++ ": " ++ d.finding.message

end RoutePolicy
