import RoutePolicy.Configuration.Compile
import RoutePolicy.Proofs.Evaluation.Laws

/-!
# The direct reading of a policy statement

What a policy statement says, read term by term from the vendor's text and not from the program
that it is compiled to.

* The terms are tried in order, and the default term after them.
* A term first takes the actions of its own route filters, where the route lies in their range,
  and then its actions, when it matches.
* It matches when for every kind of match clause that occurs some clause of that kind holds.  The
  policies that it names are asked in any case, since asking them may write attributes.
* Actions write attributes first; then the control clauses apply in order, up to one that ends the
  policy.

Nothing in a reading can fail.  The answer of a named policy is left to a parameter `ask`.
-/

set_option autoImplicit false

namespace RoutePolicy

/-- How far a policy statement has come with a route: it decided, it hands the route to the next
policy, or it has not decided yet. -/
inductive Stance where
  | exits (action : Action)
  | nextPolicy
  | undecided
  deriving DecidableEq, Repr

namespace ThenClause

/-- The attribute that a clause writes. -/
def field? : ThenClause → Option RouteField
  | .localPreference _ => some .localPreference
  | .metric _ | .metricAdd _ | .metricSubtract _ => some .metric
  | .metricType _ => some .metricType
  | .tag _ => some .tag
  | .origin _ => some .origin
  | .nextHop _ => some .nextHop
  | .communityAdd _ | .communityDelete _ | .communitySet _ => some .communities
  | .asPathPrepend _ => some .asPath
  | .accept | .reject | .nextTerm | .nextPolicy | .defaultAccept | .defaultReject
  | .unsupported _ => none

/-- The route after a clause has written its attribute. -/
def rewrite (r : Route) : ThenClause → Route
  | .localPreference n => { r with localPreference := n }
  | .metric n => { r with metric := n }
  | .metricAdd n => { r with metric := saturatingAdd r.metric n }
  | .metricSubtract n => { r with metric := saturatingSub r.metric n }
  | .metricType t => { r with metricType := t }
  | .tag n => { r with tag := n }
  | .origin o => { r with origin := o }
  | .nextHop a => { r with nextHop := a }
  | .communityAdd cs => { r with communities := r.communities.union (.ofList cs) }
  | .communityDelete cs => { r with communities := r.communities.diff (.ofList cs) }
  | .communitySet cs => { r with communities := .ofList cs }
  | .asPathPrepend asns => { r with asPath := asns ++ r.asPath }
  | .accept | .reject | .nextTerm | .nextPolicy | .defaultAccept | .defaultReject
  | .unsupported _ => r

/-- The write of a clause: the route changes and the overlay notes the new value. -/
def write (c : ThenClause) : Evaluation Unit := Evaluation.modify fun env =>
  match c.field? with
  | some field =>
    let route := c.rewrite env.route
    { env with route, overlay := env.overlay.set field (route.get field) }
  | none => env

/-- The writes of clauses, in order. -/
def writeAll : List ThenClause → Evaluation Unit
  | [] => pure ()
  | c :: cs => do
    c.write
    writeAll cs

/-- What the control clauses among clauses decide, in order, up to one that ends the policy. -/
def control : List ThenClause → Evaluation Stance
  | [] => pure .undecided
  | .accept :: _ => pure (.exits .accept)
  | .reject :: _ => pure (.exits .reject)
  | .nextPolicy :: _ => pure .nextPolicy
  | .defaultAccept :: cs => do
    Evaluation.modify fun env => { env with defaultAction := .accept }
    control cs
  | .defaultReject :: cs => do
    Evaluation.modify fun env => { env with defaultAction := .reject }
    control cs
  | _ :: cs => control cs

/-- The actions of a term or of a filter: all writes, and then control. -/
def take (cs : List ThenClause) : Evaluation Stance := do
  writeAll cs
  control cs

end ThenClause

namespace FromClause

/-- Whether a clause that asks for an attribute holds of a route. -/
def holds (lists : PrefixLists) (r : Route) : FromClause → Bool
  | .protocol p => p.covers r.protocol
  | .prefixList name => ((lists.find? name).getD []).contains r.network
  | .routeFilter f => f.range.selects r.network
  | .community c => decide (c ∈ r.communities)
  | .asPath pattern => pattern.holds r.asPath
  | .tag n => r.tag == n
  | .localPreference n => r.localPreference == n
  | .metric n => r.metric == n
  | .interface name => r.sourceInterface == some name
  | .vrf name => r.sourceVrf == some name
  | .family f => r.addressFamily == f
  | .color n => r.color == some n
  | .policy _ | .policyChain _ | .unsupported _ => false

/-- The policies that must all match, in a clause of that kind. -/
def conjunction? : FromClause → Option (List String)
  | .policy names => some names
  | _ => none

/-- The policies of which the first definite one counts, in a clause of that kind. -/
def chain? : FromClause → Option (List String)
  | .policyChain names => some names
  | _ => none

/-- Whether a clause asks other policies. -/
def asksPolicies (c : FromClause) : Bool := c.conjunction?.isSome || c.chain?.isSome

end FromClause

/-- The names that clauses of one kind give, in order; none when there is no such clause. -/
def namesOf? (pick : FromClause → Option (List String)) (clauses : List FromClause) :
    Option (List String) :=
  match clauses.filterMap pick with
  | [] => none
  | groups => some groups.flatten

section

variable (lists : PrefixLists) (ask : String → Evaluation Verdict)

/-- Whether policies all match; they are asked in order, up to one that does not. -/
def allMatched : List String → Evaluation Bool
  | [] => pure true
  | name :: names => do
    match ← ask name with
    | .matched true => allMatched names
    | _ => pure false

/-- Whether the first policy with a definite verdict matches. -/
def firstMatched : List String → Evaluation Bool
  | [] => pure false
  | name :: names => do
    match ← ask name with
    | .matched b => pure b
    | .unmatched => firstMatched names

/-- The verdict of the first policy with a definite one. -/
def firstDefinite : List String → Evaluation Verdict
  | [] => pure .unmatched
  | name :: names => do
    let v ← ask name
    if v.isDefinite then pure v else firstDefinite names

theorem isTrue_firstDefinite (names : List String) :
    Verdict.isTrue <$> firstDefinite ask names = firstMatched ask names := by
  induction names with
  | nil => exact map_pure _ _
  | cons name names ih =>
    rw [firstDefinite, firstMatched, map_bind, ← ih]
    refine bind_congr fun v => ?_
    cases v with
    | unmatched => rfl
    | matched b => exact map_pure _ _

theorem firstDefinite_singleton (name : String) : firstDefinite ask [name] = ask name := by
  refine (bind_congr fun v => ?_).trans (bind_pure _)
  cases v <;> rfl

theorem firstDefinite_append (names names' : List String) :
    firstDefinite ask (names ++ names') = firstDefinite ask names >>= fun v =>
      if v.isDefinite then pure v else firstDefinite ask names' := by
  induction names with
  | nil => exact (pure_bind _ _).symm
  | cons name names ih =>
    rw [List.cons_append, firstDefinite, firstDefinite, ih, bind_assoc]
    refine bind_congr fun v => ?_
    cases v with
    | unmatched => rfl
    | matched b => exact (pure_bind _ _).symm

/-- The actions of a route filter, where the route lies in its range. -/
def RouteFilter.read (f : RouteFilter) : Evaluation Stance := do
  let env ← Evaluation.get
  if f.range.selects env.route.network then ThenClause.take f.actions
  else pure .undecided

namespace Term

/-- Whether some clause holds of every kind that occurs and asks for an attribute. -/
def attributesHold (t : Term) (r : Route) : Bool :=
  t.clauses.all fun c =>
    c.asksPolicies || t.clauses.any fun c' => c'.kind == c.kind && c'.holds lists r

/-- Whether the policies match that must all match, where a term names any.  A clause without
policies never holds. -/
def conjunctionHolds (t : Term) : Evaluation Bool :=
  match namesOf? FromClause.conjunction? t.clauses with
  | none => pure true
  | some [] => pure false
  | some names => allMatched ask names

/-- Whether the first definite policy matches, where a term names policies in a chain. -/
def chainHolds (t : Term) : Evaluation Bool :=
  match namesOf? FromClause.chain? t.clauses with
  | none => pure true
  | some names => firstMatched ask names

/-- Whether a term matches. -/
def isMatched (t : Term) : Evaluation Bool := do
  let env ← Evaluation.get
  let policies ← t.conjunctionHolds ask
  let chain ← t.chainHolds ask
  pure (t.attributesHold lists env.route && policies && chain)

/-- What the route filters among clauses do with a route, in order. -/
def readFilters : List FromClause → Evaluation Stance
  | [] => pure .undecided
  | .routeFilter f :: cs =>
    (f.read).thenIf .undecided (readFilters cs)
  | _ :: cs => readFilters cs

/-- What a term does with a route. -/
def read (t : Term) : Evaluation Stance :=
  (readFilters t.clauses).thenIf .undecided do
    if ← t.isMatched lists ask then ThenClause.take t.actions
    else pure .undecided

/-- What terms do with a route, in order. -/
def readAll : List Term → Evaluation Stance
  | [] => pure .undecided
  | t :: ts => (t.read lists ask).thenIf .undecided (readAll ts)

end Term

/-- What a policy statement does with a route. -/
def PolicyStatement.read (s : PolicyStatement) : Evaluation Stance :=
  (Term.readAll lists ask s.terms).thenIf .undecided <|
    match s.defaultTerm with
    | none => pure .undecided
    | some t => if t.isEmpty then pure .undecided else t.read lists ask

end

end RoutePolicy
