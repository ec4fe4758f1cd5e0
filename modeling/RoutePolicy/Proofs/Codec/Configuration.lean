import RoutePolicy.Codec.Configuration
import RoutePolicy.Proofs.Codec.Route

/-!
# Decoding a configuration undoes encoding it

The data of a configuration is read back in every dialect, because it takes none of the liberties in
which dialects differ.

* `MatchType.ofJson?_toJson`, `ThenClause.ofJson?_toJson`, `FromClause.ofJson?_toJson` — clauses;
* `PolicyStatement.ofJson?_toJson` — policy statements;
* `Configuration.ofJson?_toJson` — whole configurations.
-/

set_option autoImplicit false

namespace RoutePolicy

variable (d : Dialect)

/-! ## Clauses -/

theorem MatchType.ofJson?_toJson (m : MatchType) : ofJson? d m.toJson = some m := by
  cases m with
  | exact => rfl
  | orLonger => rfl
  | longer => rfl
  | upTo n => exact congrArg (Option.map upTo) (Json.uint8?_nat n)
  | lengthRange a b =>
    have ha := Json.uint8?_nat a
    have hb := Json.uint8?_nat b
    simp [ofJson?, toJson, Json.choice?, Record.of?, Record.named?, Record.hasOnly,
      Record.required, Record.get?, Json.fieldIn, ha, hb]

theorem ThenClause.list?_communitiesToJson (cs : List Community) :
    (communitiesToJson cs).list? Community.ofJson? = some cs :=
  Json.list?_map_self Community.ofJson?_toJson cs

theorem ThenClause.ofJson?_toJson (c : ThenClause) : ofJson? d c.toJson = some c := by
  cases c with
  | accept => rfl
  | reject => rfl
  | nextTerm => rfl
  | nextPolicy => rfl
  | defaultAccept => rfl
  | defaultReject => rfl
  | localPreference n => exact congrArg (Option.map localPreference) (Json.uint32?_wordToJson n)
  | metric n => exact congrArg (Option.map metric) (Json.uint32?_wordToJson n)
  | metricAdd n => exact congrArg (Option.map metricAdd) (Json.uint32?_wordToJson n)
  | metricSubtract n => exact congrArg (Option.map metricSubtract) (Json.uint32?_wordToJson n)
  | metricType t => exact congrArg (Option.map metricType) (t.ofJson?_toJson d)
  | tag n => exact congrArg (Option.map tag) (Json.uint32?_wordToJson n)
  | origin o => exact congrArg (Option.map origin) (o.ofJson?_toJson d)
  | nextHop a =>
    have hstep : ofJson? d (nextHop a).toJson = (Address.ofJson? a.toJson).map nextHop := rfl
    rw [hstep, a.ofJson?_toJson]
    rfl
  | communityAdd cs => exact congrArg (Option.map communityAdd) (list?_communitiesToJson cs)
  | communityDelete cs => exact congrArg (Option.map communityDelete) (list?_communitiesToJson cs)
  | communitySet cs => exact congrArg (Option.map communitySet) (list?_communitiesToJson cs)
  | asPathPrepend ns => exact congrArg (Option.map asPathPrepend) (Json.list?_wordsToJson ns)
  | unsupported s => rfl

theorem RouteFilter.ofJson?_toJson (f : RouteFilter) : ofJson? d f.toJson = some f := by
  have hbase := f.base.ofJson?_toJson
  have hmatchType := f.matchType.ofJson?_toJson d
  have hactions := Json.list?_map_self (ThenClause.ofJson?_toJson d) f.actions
  rw [ofJson?, toJson]
  refine Option.bind_eq_some_iff.mpr ⟨.named _, rfl, ?_⟩
  refine Record.required_bind hbase rfl ?_
  refine Record.defaulted_bind hmatchType rfl ?_
  refine Record.defaulted_bind hactions rfl ?_
  rfl

theorem FromClause.patternOfJson?_patternToJson (p : PathPattern) :
    patternOfJson? d (patternToJson p) = some p := by
  cases p with
  | contains n => exact congrArg (Option.map PathPattern.contains) (Json.uint32?_wordToJson n)
  | originAs n => exact congrArg (Option.map PathPattern.originAs) (Json.uint32?_wordToJson n)
  | neighborAs n => exact congrArg (Option.map PathPattern.neighborAs) (Json.uint32?_wordToJson n)
  | empty => rfl

theorem FromClause.ofJson?_toJson (c : FromClause) : ofJson? d c.toJson = some c := by
  cases c with
  | protocol p => exact congrArg (Option.map protocol) (p.ofJson?_toJson d)
  | prefixList name => rfl
  | routeFilter f =>
    have hstep : ofJson? d (routeFilter f).toJson =
        (RouteFilter.ofJson? d f.toJson).map routeFilter := rfl
    rw [hstep, f.ofJson?_toJson]
    rfl
  | community c => exact congrArg (Option.map community) c.ofJson?_toJson
  | asPath p => exact congrArg (Option.map asPath) (patternOfJson?_patternToJson d p)
  | tag n => exact congrArg (Option.map tag) (Json.uint32?_wordToJson n)
  | localPreference n => exact congrArg (Option.map localPreference) (Json.uint32?_wordToJson n)
  | metric n => exact congrArg (Option.map metric) (Json.uint32?_wordToJson n)
  | interface name => rfl
  | vrf name => rfl
  | family f => exact congrArg (Option.map family) (f.ofJson?_toJson d)
  | color n => exact congrArg (Option.map color) (Json.uint32?_wordToJson n)
  | policy names => exact congrArg (Option.map policy) (Json.list?_strings names)
  | policyChain names => exact congrArg (Option.map policyChain) (Json.list?_strings names)
  | unsupported s => rfl

/-! ## Policy statements -/

theorem Term.ofJson?_toJson (t : Term) : ofJson? d t.toJson = some t := by
  have hclauses := Json.list?_map_self (FromClause.ofJson?_toJson d) t.clauses
  have hactions := Json.list?_map_self (ThenClause.ofJson?_toJson d) t.actions
  rw [ofJson?, toJson]
  refine Option.bind_eq_some_iff.mpr ⟨.named _, rfl, ?_⟩
  refine Record.defaulted_bind (Json.string?_string t.name) rfl ?_
  refine Record.defaulted_bind hclauses rfl ?_
  refine Record.defaulted_bind hactions rfl ?_
  rfl

theorem PolicyStatement.ofJson?_toJson (s : PolicyStatement) : ofJson? d s.toJson = some s := by
  have hterms := Json.list?_map_self (Term.ofJson?_toJson d) s.terms
  have hdefaultTerm : (Json.orNull Term.toJson s.defaultTerm).nullable? (Term.ofJson? d) =
      some s.defaultTerm :=
    Json.nullable?_orNull (Term.ofJson?_toJson d) nofun s.defaultTerm
  rw [ofJson?, toJson]
  refine Option.bind_eq_some_iff.mpr ⟨.named _, rfl, ?_⟩
  refine Record.required_bind (Json.string?_string s.name) rfl ?_
  refine Record.defaulted_bind hterms rfl ?_
  refine Record.defaulted_bind hdefaultTerm rfl ?_
  rfl

/-! ## What uses policies -/

theorem Peer.ofJson?_toJson (p : Peer) : ofJson? d p.toJson = some p := by
  rw [ofJson?, toJson]
  refine Option.bind_eq_some_iff.mpr ⟨.named _, rfl, ?_⟩
  refine Record.required_bind (Json.string?_string p.name) rfl ?_
  refine Record.defaulted_bind (p.protocol.ofJson?_toJson d) rfl ?_
  refine Record.defaulted_bind (Json.list?_strings p.inbound) rfl ?_
  refine Record.defaulted_bind (Json.list?_strings p.outbound) rfl ?_
  rfl

theorem Aggregate.ofJson?_toJson (a : Aggregate) : ofJson? d a.toJson = some a := by
  rw [ofJson?, toJson]
  refine Option.bind_eq_some_iff.mpr ⟨.named _, rfl, ?_⟩
  refine Record.required_bind a.base.ofJson?_toJson rfl ?_
  refine Record.defaulted_bind (Json.list?_strings a.policies) rfl ?_
  rfl

theorem RibGroup.ofJson?_toJson (g : RibGroup) : ofJson? d g.toJson = some g := by
  rw [ofJson?, toJson]
  refine Option.bind_eq_some_iff.mpr ⟨.named _, rfl, ?_⟩
  refine Record.required_bind (Json.string?_string g.name) rfl ?_
  refine Record.defaulted_bind (g.protocol.ofJson?_toJson d) rfl ?_
  refine Record.defaulted_bind (Json.list?_strings g.inbound) rfl ?_
  rfl

theorem InstanceImport.ofJson?_toJson (i : InstanceImport) : ofJson? d i.toJson = some i := by
  rw [ofJson?, toJson]
  refine Option.bind_eq_some_iff.mpr ⟨.named _, rfl, ?_⟩
  refine Record.required_bind (Json.string?_string i.vrf) rfl ?_
  refine Record.defaulted_bind (Json.list?_strings i.policies) rfl ?_
  rfl

/-! ## Configurations -/

theorem PrefixLists.ofJson?_toJson (m : PrefixLists) : ofJson? (toJson m) = some m := by
  have hlist : ∀ ps : List Prefix,
      (Json.array (ps.map Prefix.toJson)).list? Prefix.ofJson? = some ps :=
    Json.list?_map_self Prefix.ofJson?_toJson
  rw [ofJson?, toJson, Json.entries?_map hlist, Option.map_some, List.map_id',
    SortedMap.ofList_entries]

theorem Configuration.ofJson?_toJson (c : Configuration) : ofJson? d c.toJson = some c := by
  have hprefixLists := PrefixLists.ofJson?_toJson c.prefixLists
  have hpolicyStatements :=
    Json.list?_map_self (PolicyStatement.ofJson?_toJson d) c.policyStatements
  have hpeers := Json.list?_map_self (Peer.ofJson?_toJson d) c.peers
  have haggregates := Json.list?_map_self (Aggregate.ofJson?_toJson d) c.aggregates
  have hribGroups := Json.list?_map_self (RibGroup.ofJson?_toJson d) c.ribGroups
  have hinstanceImports := Json.list?_map_self (InstanceImport.ofJson?_toJson d) c.instanceImports
  rw [ofJson?, toJson]
  refine Option.bind_eq_some_iff.mpr ⟨.named _, rfl, ?_⟩
  refine Record.defaulted_bind hprefixLists rfl ?_
  refine Record.defaulted_bind hpolicyStatements rfl ?_
  refine Record.defaulted_bind hpeers rfl ?_
  refine Record.defaulted_bind haggregates rfl ?_
  refine Record.defaulted_bind hribGroups rfl ?_
  refine Record.defaulted_bind hinstanceImports rfl ?_
  refine Record.defaulted_bind (Json.bool?_bool c.simplify) rfl ?_
  rfl

end RoutePolicy
