import RoutePolicy.Text.Split

/-!
# Arguments of a command

Long flags and options among other arguments.  The value of an option follows an equals sign or is
the next argument, which then may not look like an option itself.  Everything after `--` is an
ordinary argument.  A call for help, `-h` or `--help`, ends the reading.

* `readArguments?` — the parts of a command line;
* `Arguments.single?` — the value of an option that may be given once.
-/

set_option autoImplicit false

namespace RoutePolicy

/-- The long names that a command knows, without their hyphens. -/
structure Spelling where
  flags : List String := []
  options : List String := []
  deriving DecidableEq, Repr

/-- A part of a command line. -/
inductive Argument where
  | ordinary (text : String)
  | flag (name : String)
  | option (name value : String)
  | help
  deriving DecidableEq, Repr

/-- Whether an argument looks like an option.  A hyphen alone does not. -/
def looksLikeOption (text : String) : Bool :=
  match text.toList with
  | '-' :: _ :: _ => true
  | _ => false

/-- Whether an argument calls for help.  What follows the letter of the short form is not read. -/
def callsForHelp (text : String) : Bool :=
  match text.toList with
  | '-' :: 'h' :: _ => true
  | _ => text == "--help"

/-- Reads a command line; none when an option is unknown or has no value, or a flag has one. -/
def readArguments? (s : Spelling) : List String → Option (List Argument)
  | [] => some []
  | text :: rest =>
    if text = "--" then some (rest.map .ordinary)
    else if callsForHelp text then some [.help]
    else if !looksLikeOption text then (readArguments? s rest).map (.ordinary text :: ·)
    else match text.toList with
      | '-' :: '-' :: cs =>
        match splitFirst '=' cs with
        | some (name, value) =>
          let name := String.ofList name
          if s.options.contains name then
            (readArguments? s rest).map (.option name (String.ofList value) :: ·)
          else none
        | none =>
          let name := String.ofList cs
          if s.flags.contains name then (readArguments? s rest).map (.flag name :: ·)
          else if s.options.contains name then
            match rest with
            | [] => none
            | value :: rest =>
              if looksLikeOption value then none
              else (readArguments? s rest).map (.option name value :: ·)
          else none
      | _ => none

namespace Arguments

/-- The ordinary arguments. -/
def ordinary (args : List Argument) : List String :=
  args.filterMap fun
    | .ordinary text => some text
    | _ => none

/-- The values of an option, in order. -/
def values (args : List Argument) (name : String) : List String :=
  args.filterMap fun
    | .option n value => if n = name then some value else none
    | _ => none

/-- Whether a flag is given; none when it is given more than once. -/
def flag? (args : List Argument) (name : String) : Option Bool :=
  match args.filter (· == .flag name) with
  | [] => some false
  | [_] => some true
  | _ => none

/-- The value of an option, if it is given; none when it is given more than once. -/
def single? (args : List Argument) (name : String) : Option (Option String) :=
  match values args name with
  | [] => some none
  | [value] => some (some value)
  | _ => none

end Arguments

end RoutePolicy
