import RoutePolicy.Scenario.Basic
import RoutePolicy.Text.Pad

/-!
# Help

* `HelpTopic` — what help can be asked for: the program, briefly or in full, or one of its commands;
* `HelpTopic.lines` — what is shown then.

The help of a command has the same form throughout: what it does, its usage, its arguments, and its
options.  Where one of the explanations is long, all of them stand on lines of their own.
-/

set_option autoImplicit false

namespace RoutePolicy

/-- What help can be asked for. -/
inductive HelpTopic where
  | program (full : Bool)
  | runAll
  | present (scenario : Scenario)
  | compile
  | evaluate
  | help
  deriving DecidableEq, Repr

namespace HelpTopic

/-- The commands, in the order in which they are listed. -/
def commands : List HelpTopic :=
  [runAll] ++ Scenario.all.map present ++ [compile, evaluate, help]

/-- The name of a topic on the command line. -/
def name : HelpTopic → String
  | program _ => "demo"
  | runAll => "run-all"
  | present s => s.name
  | compile => "compile"
  | evaluate => "eval"
  | help => "help"

/-- The command of a name. -/
def ofName? (name : String) : Option HelpTopic := commands.find? (·.name == name)

/-- What a topic is about. -/
def about : HelpTopic → List String
  | program false => ["Route policy engine reference demo"]
  | program true =>
    ["Compiles vendor policy statements into the policy IR and evaluates routes",
      "against them, reporting decisions, attribute writes and diagnostics."]
  | runAll => ["Run all three reference scenarios in sequence"]
  | present .peerImport => ["Scenario 1: Transit peer import and export chains"]
  | present .aggregate => ["Scenario 2: Aggregate contributor selection"]
  | present .vrfLeak => ["Scenario 3: RIB group and instance-import leaking"]
  | compile => ["Compile a configuration and list its policies and diagnostics"]
  | evaluate => ["Evaluate one route against one policy of a configuration"]
  | help => ["Print this message or the help of the given subcommand(s)"]

/-- How a topic is used. -/
def usage : HelpTopic → String
  | program _ => "Usage: demo <COMMAND>"
  | runAll => "Usage: demo run-all"
  | present s => "Usage: demo " ++ s.name
  | compile => "Usage: demo compile [OPTIONS] <FILE>"
  | evaluate => "Usage: demo eval [OPTIONS] --policy <POLICY> --prefix <PREFIX> <FILE>"
  | help => "Usage: demo help [COMMAND]..."

/-- A line of the list of commands. -/
def commandLine (t : HelpTopic) : String := "  " ++ padRight 13 t.name ++ String.join t.about

/-- A line of the list of options with a short explanation. -/
def optionLine (width : Nat) (spelling explanation : String) : String :=
  "  " ++ padRight width spelling ++ "  " ++ explanation

/-- The lines of an option whose explanation is on a line of its own. -/
def optionLines (spelling explanation : String) : List String :=
  ["  " ++ spelling, "          " ++ explanation]

/-- The sections of lists, which are set apart by empty lines. -/
def sections : HelpTopic → List (List String)
  | program full =>
    ["Commands:" :: commands.map commandLine,
      "Options:" ::
        if full then optionLines "-h, --help" "Print help (see a summary with '-h')"
        else [optionLine 10 "-h, --help" "Print help (see more with '--help')"]]
  | runAll | present _ => [["Options:", optionLine 10 "-h, --help" "Print help"]]
  | compile =>
    [["Arguments:", "  <FILE>  TOML configuration file"],
      ["Options:",
        optionLine 14 "    --simplify" "Simplify every policy before freezing",
        optionLine 14 "    --json" "Dump the compiled policies and the diagnostic report as JSON",
        optionLine 14 "-h, --help" "Print help"]]
  | evaluate =>
    [["Arguments:", "  <FILE>  TOML configuration file"],
      "Options:" ::
        optionLines "    --policy <POLICY>" "Policy to evaluate, user-written or derived"
        ++ optionLines "    --prefix <PREFIX>" ""
        ++ optionLines "    --protocol <PROTOCOL>" "[default: bgp]"
        ++ optionLines "    --direction <DIRECTION>"
          "[default: import] [possible values: import, export, generation]"
        ++ optionLines "    --as-path <AS_PATH>" "Comma-separated AS path, neighbor first"
        ++ optionLines "    --community <COMMUNITY>" ""
        ++ optionLines "    --tag <TAG>" "[default: 0]"
        ++ optionLines "    --vrf <VRF>" "Source routing instance"
        ++ optionLines "    --default-action <DEFAULT_ACTION>"
          ("Initial default action. Defaults to the direction's convention "
            ++ "[possible values: accept, reject]")
        ++ optionLines "-h, --help" "Print help"]
  | help => [["Arguments:", "  [COMMAND]...  Print help for the subcommand(s)"]]

/-- The lines of the help on a topic. -/
def lines (t : HelpTopic) : List String :=
  t.about ++ ["", t.usage] ++ t.sections.flatMap ("" :: ·)

example : (present .aggregate).lines =
    ["Scenario 2: Aggregate contributor selection", "", "Usage: demo aggregate", "", "Options:",
      "  -h, --help  Print help"] := by decide +kernel

end HelpTopic

end RoutePolicy
