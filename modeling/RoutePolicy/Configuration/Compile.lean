import RoutePolicy.Configuration.Basic
import RoutePolicy.Event
import RoutePolicy.Policy.Basic

/-!
# Compiling policy statements

A policy statement becomes a policy whose program tries the terms in order.

* The match clauses of a term are grouped by kind.  A route matches the term when it matches some
  clause of every kind that occurs; the kinds that run other policies come last.
* The actions of a term are ordered: writes first, control last.
* A route filter with actions of its own becomes a branch in front of its term.
* In the end a policy that runs at top level returns without a decision.

`PolicyStatement.compile` is the program, `PolicyStatement.notices` what is reported about it:
undefined prefix lists, which match nothing, and unsupported constructs.
-/

set_option autoImplicit false

namespace RoutePolicy

/-- The kinds of match clauses, in the order in which they are tested. -/
inductive ClauseKind where
  | protocol
  | prefixes
  | community
  | asPath
  | tag
  | localPreference
  | metric
  | interface
  | vrf
  | family
  | color
  | unsupported
  | policy
  | policyChain
  deriving DecidableEq, Repr

/-- All kinds, in order. -/
def ClauseKind.all : List ClauseKind :=
  [.protocol, .prefixes, .community, .asPath, .tag, .localPreference, .metric, .interface, .vrf,
    .family, .color, .unsupported, .policy, .policyChain]

namespace FromClause

/-- The kind of a clause. -/
def kind : FromClause → ClauseKind
  | .protocol _ => .protocol
  | .prefixList _ | .routeFilter _ => .prefixes
  | .community _ => .community
  | .asPath _ => .asPath
  | .tag _ => .tag
  | .localPreference _ => .localPreference
  | .metric _ => .metric
  | .interface _ => .interface
  | .vrf _ => .vrf
  | .family _ => .family
  | .color _ => .color
  | .unsupported _ => .unsupported
  | .policy _ => .policy
  | .policyChain _ => .policyChain

/-- The test of a single attribute that a clause asks for. -/
def predicate? : FromClause → Option Predicate
  | .protocol p => some (.protocol p)
  | .community c => some (.community c)
  | .asPath p => some (.asPath p)
  | .tag n => some (.tag n)
  | .localPreference n => some (.localPreference n)
  | .metric n => some (.metric n)
  | .interface s => some (.sourceInterface s)
  | .vrf s => some (.sourceVrf s)
  | .family f => some (.addressFamily f)
  | .color n => some (.color n)
  | .unsupported s => some (.unsupported s)
  | .prefixList _ | .routeFilter _ | .policy _ | .policyChain _ => none

/-- The prefix list that a clause names. -/
def prefixList? : FromClause → Option String
  | .prefixList name => some name
  | _ => none

/-- The route filter that a clause holds. -/
def routeFilter? : FromClause → Option RouteFilter
  | .routeFilter f => some f
  | _ => none

/-- The policies that a clause names. -/
def policies : FromClause → List String
  | .policy names | .policyChain names => names
  | _ => []

end FromClause

/-- The disjunction of several conditions; a single one stands for itself. -/
def anyOf : List Condition → Condition
  | [c] => c
  | cs => .any cs

/-- The prefixes of a prefix list; a list that is not defined has none. -/
def PrefixLists.setOf (lists : PrefixLists) (name : String) : PrefixSet :=
  match lists.find? name with
  | some ps => .ofPrefixes ps
  | none => .empty

/-- The sets of prefixes that clauses name: one for each prefix list, then one for all filters. -/
def prefixSetsOf (lists : PrefixLists) (clauses : List FromClause) : List PrefixSet :=
  let named := (clauses.filterMap FromClause.prefixList?).map lists.setOf
  let filters := ((clauses.filterMap FromClause.routeFilter?).map RouteFilter.range).foldl
    PrefixSet.add .empty
  if filters.ranges.isEmpty then named else named ++ [filters]

/-- The references to the policies that clauses name. -/
def subroutinesOf (term : Nat) (clauses : List FromClause) : List Reference :=
  (clauses.flatMap FromClause.policies).map fun name => (Reference.named name).atTerm term

/-- The condition that the clauses of one kind ask for. -/
def ClauseKind.condition (lists : PrefixLists) (term : Nat) (clauses : List FromClause) :
    ClauseKind → Condition
  | .policy => .allMatch (subroutinesOf term clauses)
  | .policyChain => .firstMatch (subroutinesOf term clauses)
  | .prefixes => anyOf ((prefixSetsOf lists clauses).map fun s => .test (.prefixIn s))
  | _ => anyOf ((clauses.filterMap FromClause.predicate?).map Condition.test)

/-- The clauses of one kind. -/
def clausesOf (kind : ClauseKind) (clauses : List FromClause) : List FromClause :=
  clauses.filter fun c => c.kind == kind

/-- The conditions that match clauses ask for, one for each kind that occurs. -/
def operandsOf (lists : PrefixLists) (term : Nat) (clauses : List FromClause) : List Condition :=
  ClauseKind.all.filterMap fun kind =>
    match clausesOf kind clauses with
    | [] => none
    | c :: cs => some (kind.condition lists term (c :: cs))

/-- The guard of a term, when it has match clauses. -/
def guardOf? (lists : PrefixLists) (term : Nat) (clauses : List FromClause) : Option Condition :=
  match operandsOf lists term clauses with
  | [] => none
  | [c] => some c
  | cs => some (.all cs)

namespace ThenClause

/-- Whether an action controls the evaluation instead of writing an attribute. -/
def isControl : ThenClause → Bool
  | .accept | .reject | .nextTerm | .nextPolicy | .defaultAccept | .defaultReject => true
  | _ => false

/-- The statement of an action. -/
def statement : ThenClause → Statement
  | .accept => .control .exitAccept
  | .reject => .control .exitReject
  | .nextTerm => .comment "next term"
  | .nextPolicy => .control .nextPolicy
  | .defaultAccept => .control .defaultAccept
  | .defaultReject => .control .defaultReject
  | .localPreference n => .set .localPreference (.number n)
  | .metric n => .set .metric (.number n)
  | .metricAdd n => .write .metric (.increment n)
  | .metricSubtract n => .write .metric (.decrement n)
  | .metricType t => .set .metricType (.metricType t)
  | .tag n => .set .tag (.number n)
  | .origin o => .set .origin (.origin o)
  | .nextHop a => .set .nextHop (.nextHop a)
  | .communityAdd cs => .write .communities (.addCommunities (.ofList cs))
  | .communityDelete cs => .write .communities (.removeCommunities (.ofList cs))
  | .communitySet cs => .set .communities (.communities (.ofList cs))
  | .asPathPrepend asns => .write .asPath (.prepend asns)
  | .unsupported s => .comment ("unsupported: then " ++ s)

/-- The unsupported construct of an action. -/
def unsupported? : ThenClause → Option String
  | .unsupported s => some s
  | _ => none

end ThenClause

/-- The statements of actions: writes first, control last, each in the given order. -/
def actionsOf (actions : List ThenClause) : List Statement :=
  (actions.filter (fun a => !a.isControl) ++ actions.filter ThenClause.isControl).map
    ThenClause.statement

namespace Term

/-- The filters of a term that have actions of their own. -/
def activeFilters (t : Term) : List RouteFilter :=
  (t.clauses.filterMap FromClause.routeFilter?).filter fun f => !f.actions.isEmpty

/-- The program of a term; `index` is its number in the policy statement. -/
def compile (lists : PrefixLists) (index : Nat) (t : Term) : List Statement :=
  let heading := if t.name.isEmpty then [] else [Statement.comment ("term " ++ t.name)]
  let filters := t.activeFilters.map fun f =>
    .guarded (.test (.prefixIn (.single f.range))) (actionsOf f.actions)
  let body := match guardOf? lists index t.clauses with
    | none => actionsOf t.actions
    | some guard => [.guarded guard (actionsOf t.actions)]
  heading ++ filters ++ body

end Term

/-- What is reported for an unsupported construct. -/
def unsupportedNotices (policy : String) (term : Nat) (construct : String) : List Notice :=
  [.event (.unsupportedConstruct policy term construct),
   .diagnostic { policy, term := some term, finding := .unsupportedConstruct construct }]

/-- What is reported for an undefined prefix list. -/
def undefinedListNotices (policy : String) (term : Nat) (name : String) : List Notice :=
  [.event (.undefinedPrefixList policy term name),
   .diagnostic { policy, term := some term, finding := .undefinedReference .prefixList name }]

/-- What is reported about actions. -/
def actionNotices (policy : String) (term : Nat) (actions : List ThenClause) : List Notice :=
  (actions.filterMap ThenClause.unsupported?).flatMap fun s =>
    unsupportedNotices policy term ("then " ++ s)

/-- What is reported about the match clauses of one kind. -/
def ClauseKind.notices (lists : PrefixLists) (policy : String) (term : Nat)
    (clauses : List FromClause) : ClauseKind → List Notice
  | .prefixes =>
    ((clauses.filterMap FromClause.prefixList?).filter fun name => !lists.contains name).flatMap
      (undefinedListNotices policy term)
  | .unsupported => clauses.flatMap fun
    | .unsupported s => unsupportedNotices policy term ("from " ++ s)
    | _ => []
  | _ => []

/-- What is reported about match clauses. -/
def clauseNotices (lists : PrefixLists) (policy : String) (term : Nat)
    (clauses : List FromClause) : List Notice :=
  ClauseKind.all.flatMap fun kind => kind.notices lists policy term (clausesOf kind clauses)

/-- What is reported about a term: the actions of its filters, its own, and its match clauses. -/
def Term.notices (lists : PrefixLists) (policy : String) (index : Nat) (t : Term) : List Notice :=
  t.activeFilters.flatMap (fun f => actionNotices policy index f.actions)
    ++ actionNotices policy index t.actions ++ clauseNotices lists policy index t.clauses

namespace PolicyStatement

/-- The terms in order; the default term comes last, unless it is empty. -/
def allTerms (s : PolicyStatement) : List Term :=
  s.terms ++ (s.defaultTerm.toList.filter fun t => !t.isEmpty)

/-- The end of every compiled program. -/
def ending : Statement := .branch .inCall [] [.control .returnUndecided]

/-- The program of a policy statement. -/
def program (lists : PrefixLists) (s : PolicyStatement) : List Statement :=
  (s.allTerms.mapIdx fun i t => t.compile lists i).flatten ++ [ending]

/-- The policy of a policy statement. -/
def compile (lists : PrefixLists) (s : PolicyStatement) : Policy :=
  { name := s.name, statements := s.program lists }

/-- What is reported when a policy statement is compiled. -/
def notices (lists : PrefixLists) (s : PolicyStatement) : List Notice :=
  (s.allTerms.mapIdx fun i t => t.notices lists s.name i).flatten
    ++ [.event (.statementCompiled s.name s.terms.length (s.program lists).length)]

end PolicyStatement

end RoutePolicy
