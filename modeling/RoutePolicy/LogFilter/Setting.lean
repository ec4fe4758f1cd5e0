import RoutePolicy.LogFilter.Basic
import RoutePolicy.Pattern.Reader
import RoutePolicy.Text.ByteSlice
import RoutePolicy.Text.Decimal
import RoutePolicy.Text.Split

/-!
# Settings of the log

The text that sets a filter is a list of directives with commas between them:

* a level alone, which is the limit for all events;
* how the names of components begin, with or without `=` and a level;
* the same with a scope in brackets before the equals sign, such as `[span]`, `[{detail}]` or
  `[{detail=value}]`.

Without a level a directive admits everything.  Events arise outside of any span and their details
are not compared with values, so a directive with a span or a value admits none; a value is a number
or a pattern all the same.

* `LogFilter.read?` — the filter of a setting;
* `LogFilter.ofSetting` — the filter that is used: one bad directive makes the whole setting void.
-/

set_option autoImplicit false

namespace RoutePolicy

namespace LogFilter

/-- Reads a level: the name of a severity in any case, or its number from one on; `off` and zero
admit nothing. -/
def readLevel? (cs : List Char) : Option (Option Severity) :=
  match Decimal.read Severity.all.length cs with
  | .ok 0 => some none
  | .ok (n + 1) => some Severity.all[n]?
  | .error _ =>
    let name := String.ofList (cs.map Char.toLower)
    if name = "off" then some none else (Severity.ofName? name).map some

/-- Reads the level of a directive, which may be left out. -/
def readLimit? (cs : List Char) : Option (Option Severity) :=
  if cs.isEmpty then some (some .trace) else readLevel? cs

/-- What a directive does: it sets a rule, or it admits no event. -/
inductive Directive where
  | rule (rule : Rule)
  | inert
  deriving DecidableEq, Repr

namespace Directive

/-- Whether a directive can begin with the character, when it does not begin with a scope. -/
def canBegin (c : Char) : Bool := isAlphanumeric c || c == '-' || c == ':' || c == '_'

/-- Whether digits with at most one point among them and perhaps an exponent follow. -/
def isUnsigned (cs : List Char) : Bool :=
  let rest := cs.dropWhile Char.isDigit
  let fraction := if rest.head? = some '.' then rest.drop 1 else []
  let exponent := if rest.head? = some '.' then fraction.dropWhile Char.isDigit else rest
  (cs.head?.any Char.isDigit || fraction.head?.any Char.isDigit) && match exponent with
    | [] => true
    | e :: '+' :: ds | e :: '-' :: ds => e.toLower == 'e' && !ds.isEmpty && ds.all Char.isDigit
    | e :: ds => e.toLower == 'e' && !ds.isEmpty && ds.all Char.isDigit

/-- Whether a detail can be compared with the value.  A number with a plus sign is the one kind of
number that is no pattern as well. -/
def isValue : List Char → Bool
  | '+' :: cs =>
    isUnsigned cs || ["inf", "infinity", "nan"].contains (String.ofList (cs.map Char.toLower))
  | cs => (Pattern.read? cs).any Pattern.isSupported

/-- The directive for a detail, which is a name or a name and a value. -/
def ofDetail? (component : Option String) (detail : List Char) (limit : Option Severity) :
    Option Directive :=
  match splitAll '=' detail with
  | [name] => some (.rule { component, detail := some (String.ofList name), limit })
  | _ :: value :: _ => if isValue value then some .inert else none
  | [] => none

/-- Reads the level behind an equals sign, which is at a position of the text. -/
def limitAt? (text : List Char) (position : Nat) : Option (Option Severity) :=
  (dropBytes? (position + 1) text).bind readLimit?

/-- Reads what follows the scope, which is at a position of the text. -/
def afterScope? (text : List Char) (position : Nat) : List Char → Option (Option Severity)
  | [] => some (some .trace)
  | '=' :: _ => limitAt? text position
  | _ => none

/-- Reads a scope after its opening bracket, which is at a position of the text. -/
def scope? (text : List Char) (component : Option String) (position : Nat) (rest : List Char) :
    Option Directive := do
  let span := rest.takeWhile fun c => c != ']' && c != '{'
  let spanEnd := position + 1 + byteLength span
  let _ ← byteSlice? (position + 1) spanEnd text
  match rest.drop span.length with
  | ']' :: rest =>
    let _ ← afterScope? text (spanEnd + 1) rest
    return .inert
  | '{' :: rest =>
    let detail := rest.takeWhile (· != '}')
    let detailEnd := spanEnd + 1 + byteLength detail
    match rest.drop detail.length with
    | '}' :: ']' :: rest =>
      if detail.isEmpty then none
      let directive ←
        ofDetail? component (← byteSlice? (spanEnd + 1) detailEnd text)
          (← afterScope? text (detailEnd + 2) rest)
      return if span.isEmpty then directive else .inert
    | _ => none
  | _ => none

/-- Reads a directive.  Positions are counted in bytes from the first character that is not blank,
but the parts are cut out of the whole text at these positions, so that blanks in front move every
cut. -/
def read? (text : List Char) : Option Directive :=
  let trimmed := trimBlank text
  let head := trimmed.takeWhile fun c => c != '=' && c != '['
  let component := (takeBytes? (byteLength head) text).map String.ofList
  match trimmed.head?, trimmed.drop head.length with
  | none, _ => none
  | some '[', _ => scope? text none 0 (trimmed.drop 1)
  | some c, rest =>
    if !canBegin c then none
    else match rest with
      | [] =>
        match readLevel? text with
        | some limit => some (.rule { limit })
        | none => some (.rule { component := some (String.ofList text), limit := some .trace })
      | '=' :: _ => do
        let component ← component
        return .rule { component, limit := ← limitAt? text (byteLength head) }
      | _ :: rest => do scope? text (← component) (byteLength head) rest

/-- The rule that a directive sets. -/
def rule? : Directive → Option Rule
  | .rule r => some r
  | .inert => none

end Directive

/-- Reads a filter.  A setting without any directive admits errors. -/
def read? (setting : String) : Option LogFilter := do
  let texts := (splitAll ',' setting.toList).filter (!·.isEmpty)
  let directives ← texts.mapM Directive.read?
  return if directives.isEmpty then uniform (some .error)
    else ⟨directives.filterMap Directive.rule?⟩

example : read? "" = some (uniform (some .error)) := by decide +kernel

example : read? "INFO,a=0" =
    some ⟨[{ limit := some .info }, { component := some "a", limit := none }]⟩ := by
  decide +kernel

example : read? "a[\x7bb\x7d]=2" =
    some ⟨[{ component := some "a", detail := some "b", limit := some .warn }]⟩ := by
  decide +kernel

example : read? "info,=x" = none := by decide +kernel

/-- The filter of a setting; it admits warnings if there is no setting or no sense in it. -/
def ofSetting (setting : Option String) : LogFilter :=
  (setting.bind read?).getD (uniform (some .warn))

end LogFilter

end RoutePolicy
