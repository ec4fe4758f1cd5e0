import RoutePolicy.CommandLine.Arguments
import RoutePolicy.CommandLine.Help
import RoutePolicy.Evaluation.Decision
import RoutePolicy.Prefix.Text

/-!
# Commands

* `Command` — what the program can be asked to do;
* `Command.parse?` — the command of a command line, if it is one.
-/

set_option autoImplicit false

namespace RoutePolicy

/-- What the program can be asked to do: show every scenario or one, list the policies of a
configuration, evaluate one of them on a route, or give help. -/
inductive Command where
  | runAll
  | present (scenario : Scenario)
  | compile (file : String) (simplify json : Bool)
  | evaluate (file policy : String) (route : Route) (direction : Direction)
      (defaultAction : Option Action)
  | help (topic : HelpTopic)
  deriving DecidableEq

namespace Command

/-- The file that a command reads. -/
def file? : Command → Option String
  | .compile file _ _ => some file
  | .evaluate file _ _ _ _ => some file
  | .runAll | .present _ | .help _ => none

/-- Reads a number of 32 bits, which may have a sign. -/
def word? (text : List Char) : Option UInt32 :=
  let read (limit : Nat) (cs : List Char) : Option UInt32 :=
    match Decimal.read limit cs with
    | .ok n => some (UInt32.ofNat n)
    | .error _ => none
  match text with
  | '-' :: '+' :: _ => none
  | '-' :: cs => read 0 cs
  | cs => read 0xFFFFFFFF cs

/-- The values of an option whose values are lists with commas. -/
def listed (args : List Argument) (name : String) : List (List Char) :=
  (Arguments.values args name).flatMap fun value => splitAll ',' value.toList

/-- The file argument, if it is given; none when it is empty, and when there are more arguments. -/
def fileOf? (args : List Argument) : Option (Option String) :=
  match Arguments.ordinary args with
  | [] => some none
  | [file] => if file.isEmpty then none else some (some file)
  | _ => none

/-- The command that was read, or help on it where it was called for.  Help does not ask for what the
command cannot do without, but everything in front of the call has to make sense. -/
def orHelp (topic : HelpTopic) (args : List Argument) (command : Option Command) : Option Command :=
  if args.contains .help then some (.help topic) else command

/-- A prefix of the command line. -/
def prefixOf? (text : String) : Option Prefix :=
  match Prefix.parse text with
  | .ok p => some p
  | .error _ => none

/-- A protocol of the command line. -/
def protocolOf? (text : String) : Option Protocol :=
  match Protocol.parse text with
  | .ok p => some p
  | .error _ => none

/-- A direction of the command line. -/
def directionOf? (text : String) : Option Direction :=
  [Direction.inbound, .outbound, .generation].find? (fun d => d.name == text)

/-- An action of the command line. -/
def actionOf? (text : String) : Option Action :=
  [Action.accept, .reject].find? (fun a => a.name == text)

/-- The options and flags of `compile`. -/
def compileSpelling : Spelling := { flags := ["simplify", "json"] }

/-- Reads the arguments of `compile`. -/
def parseCompile? (texts : List String) : Option Command := do
  let args ← readArguments? compileSpelling texts
  let file ← fileOf? args
  let simplify ← Arguments.flag? args "simplify"
  let json ← Arguments.flag? args "json"
  orHelp .compile args do return .compile (← file) simplify json

/-- The options of `eval`. -/
def evaluateSpelling : Spelling :=
  { options := ["policy", "prefix", "protocol", "direction", "as-path", "community", "tag", "vrf",
      "default-action"] }

/-- Reads the arguments of `eval`. -/
def parseEvaluate? (texts : List String) : Option Command := do
  let args ← readArguments? evaluateSpelling texts
  let file ← fileOf? args
  let policy ← Arguments.single? args "policy"
  let network ← (← Arguments.single? args "prefix").mapM prefixOf?
  let protocol ← protocolOf? ((← Arguments.single? args "protocol").getD "bgp")
  let direction ← directionOf? ((← Arguments.single? args "direction").getD "import")
  let asPath ← (listed args "as-path").mapM word?
  let communities ← (listed args "community").mapM fun cs => Community.parse? (String.ofList cs)
  let tag ← word? ((← Arguments.single? args "tag").getD "0").toList
  let sourceVrf ← Arguments.single? args "vrf"
  let defaultAction ← (← Arguments.single? args "default-action").mapM actionOf?
  orHelp .evaluate args do
    let route : Route :=
      { network := ← network, protocol, asPath, communities := .ofList communities, tag, sourceVrf }
    return .evaluate (← file) (← policy) route direction defaultAction

/-- Reads the arguments of a command that takes none. -/
def parseBare? (topic : HelpTopic) (command : Command) (texts : List String) : Option Command := do
  let args ← readArguments? {} texts
  if (Arguments.ordinary args).isEmpty then orHelp topic args (some command) else none

/-- Reads the arguments of `help`: the name of a command, or nothing. -/
def parseHelp? : List String → Option Command
  | [] => some (.help (.program true))
  | [name] => (HelpTopic.ofName? name).map .help
  | _ => none

/-- The command of a command line. -/
def parse? : List String → Option Command
  | [] => none
  | name :: texts =>
    if callsForHelp name then some (.help (.program (name == "--help")))
    else
      match HelpTopic.ofName? name with
      | some .runAll => parseBare? .runAll .runAll texts
      | some (.present s) => parseBare? (.present s) (.present s) texts
      | some .compile => parseCompile? texts
      | some .evaluate => parseEvaluate? texts
      | some .help => parseHelp? texts
      | some (.program _) | none => none

end Command

end RoutePolicy
