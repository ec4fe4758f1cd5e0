import RoutePolicy.Proofs.Configuration.Definitions
import RoutePolicy.Proofs.Configuration.Guard
import RoutePolicy.Proofs.Registry.Closed
import RoutePolicy.Proofs.Registry.Define

/-!
# What the policies of a configuration contain

The writes and the references in compiled policy statements and in the policies that builders
make.  Every write fits its field; the references are exactly those that the configuration names.

* `PolicyStatement.fits_compile`, `PolicyStatement.references_program` — compiled statements;
* `Configuration.fits_of_mem_definitions`, `Configuration.unlinked_of_mem_definitions` and
  `Configuration.plain_of_mem_definitions` — every policy of a configuration.
-/

set_option autoImplicit false

namespace RoutePolicy

/-! ## Actions -/

namespace ThenClause

theorem fits_statement (c : ThenClause) : ∀ w ∈ c.statement.writes, w.2.fits w.1 = true := by
  cases c <;>
    simp [statement, Statement.set, Statement.writes, Update.fits, AttributeValue.fits,
      RouteField.isNumeric]

theorem references_statement (c : ThenClause) : c.statement.references = [] := by
  cases c <;> rfl

theorem fits_actionsOf (cs : List ThenClause) :
    ∀ w ∈ Statement.writesAll (actionsOf cs), w.2.fits w.1 = true := by
  intro w hw
  rw [Statement.writesAll_eq_flatMap, actionsOf, List.flatMap_map, List.mem_flatMap] at hw
  obtain ⟨c, -, hc⟩ := hw
  exact c.fits_statement w hc

theorem references_actionsOf (cs : List ThenClause) :
    Statement.referencesAll (actionsOf cs) = [] := by
  rw [Statement.referencesAll_eq_flatMap, actionsOf, List.flatMap_map, List.flatMap_eq_nil_iff]
  intro c _
  exact c.references_statement

end ThenClause

/-! ## Guards -/

theorem references_anyOf (cs : List Condition) :
    (anyOf cs).references = Condition.referencesAll cs := by
  unfold anyOf
  split
  · rw [Condition.referencesAll, Condition.referencesAll, List.append_nil]
  · rfl

theorem references_anyOf_tests (ps : List Predicate) :
    (anyOf (ps.map .test)).references = [] := by
  rw [references_anyOf, Condition.referencesAll_eq_flatMap, List.flatMap_map,
    List.flatMap_eq_nil_iff]
  intro p _
  rfl

theorem ClauseKind.references_condition (lists : PrefixLists) (term : Nat) {kind : ClauseKind}
    (h : kind ∈ attributes) (cs : List FromClause) :
    (kind.condition lists term cs).references = [] := by
  obtain ⟨hpolicy, hchain⟩ := mem_attributes.mp h
  by_cases hprefixes : kind = .prefixes
  · subst hprefixes
    have hmap : (prefixSetsOf lists cs).map (fun s => Condition.test (.prefixIn s)) =
        ((prefixSetsOf lists cs).map Predicate.prefixIn).map .test := by simp
    rw [condition, hmap, references_anyOf_tests]
  · have hcondition : kind.condition lists term cs =
        anyOf ((cs.filterMap FromClause.predicate?).map .test) := by
      cases kind <;> first
        | rfl
        | exact absurd rfl hprefixes
        | exact absurd rfl hpolicy
        | exact absurd rfl hchain
    rw [hcondition, references_anyOf_tests]

/-- The references of the operand for one kind, from those of the condition for its clauses. -/
theorem references_operand? (lists : PrefixLists) (term : Nat) (clauses : List FromClause)
    {kind : ClauseKind} {references : List FromClause → List Reference}
    (hnil : references [] = [])
    (hkind : ∀ cs, (kind.condition lists term cs).references = references cs) :
    Condition.referencesAll (operand? lists term clauses kind).toList =
      references (clausesOf kind clauses) := by
  unfold operand?
  split
  · rename_i hnone
    rw [hnone, hnil]
    rfl
  · rename_i hsome
    rw [hsome, Option.toList_some, Condition.referencesAll, Condition.referencesAll,
      List.append_nil, hkind]

namespace Term

/-- The references to the policies that the clauses of a term name: those that must all match, and
then those in a chain. -/
def subroutines (index : Nat) (t : Term) : List Reference :=
  subroutinesOf index (clausesOf .policy t.clauses)
    ++ subroutinesOf index (clausesOf .policyChain t.clauses)

theorem references_attributes (lists : PrefixLists) (index : Nat) (t : Term)
    {kinds : List ClauseKind} (h : ∀ kind ∈ kinds, kind ∈ ClauseKind.attributes) :
    Condition.referencesAll (kinds.filterMap (operand? lists index t.clauses)) = [] := by
  induction kinds with
  | nil => rfl
  | cons kind kinds ih =>
    obtain ⟨hkind, hrest⟩ := List.forall_mem_cons.mp h
    have hhead := references_operand? lists index t.clauses rfl
      (ClauseKind.references_condition lists index hkind)
    have hfront : (kind :: kinds).filterMap (operand? lists index t.clauses) =
        (operand? lists index t.clauses kind).toList ++
          kinds.filterMap (operand? lists index t.clauses) := by
      cases hoperand : operand? lists index t.clauses kind <;> simp [hoperand]
    rw [hfront, Condition.referencesAll_append, hhead, ih hrest, List.append_nil]

theorem references_operandsOf (lists : PrefixLists) (index : Nat) (t : Term) :
    Condition.referencesAll (operandsOf lists index t.clauses) = t.subroutines index := by
  have hpolicy : Condition.referencesAll (operand? lists index t.clauses .policy).toList =
      subroutinesOf index (clausesOf .policy t.clauses) :=
    references_operand? lists index t.clauses rfl fun _ => rfl
  have hchain : Condition.referencesAll (operand? lists index t.clauses .policyChain).toList =
      subroutinesOf index (clausesOf .policyChain t.clauses) :=
    references_operand? lists index t.clauses rfl fun _ => rfl
  rw [operandsOf_eq, Condition.referencesAll_append, Condition.referencesAll_append,
    references_attributes lists index t fun _ hkind => hkind, hpolicy, hchain, List.nil_append,
    subroutines]

theorem references_guarded (guard : Condition) (cs : List ThenClause) :
    (Statement.guarded guard (actionsOf cs)).references = guard.references := by
  rw [Statement.guarded, Statement.references, ThenClause.references_actionsOf,
    Statement.referencesAll, List.append_nil, List.append_nil]

theorem references_body (lists : PrefixLists) (index : Nat) (t : Term) :
    Statement.referencesAll
        (match guardOf? lists index t.clauses with
          | none => actionsOf t.actions
          | some guard => [.guarded guard (actionsOf t.actions)]) =
      t.subroutines index := by
  rw [← references_operandsOf lists, guardOf?]
  rcases operandsOf lists index t.clauses with _ | ⟨c, _ | ⟨c', cs⟩⟩
  · exact ThenClause.references_actionsOf _
  · simp only [Statement.referencesAll, references_guarded, Condition.referencesAll]
  · simp only [Statement.referencesAll, references_guarded, Condition.references, List.append_nil]

/-- The references of a compiled term. -/
theorem references_compile (lists : PrefixLists) (index : Nat) (t : Term) :
    Statement.referencesAll (t.compile lists index) = t.subroutines index := by
  have hheading : Statement.referencesAll
      (if t.name.isEmpty then [] else [Statement.comment ("term " ++ t.name)]) = [] := by
    split <;> rfl
  have hfilters : Statement.referencesAll (t.activeFilters.map fun f =>
      Statement.guarded (.test (.prefixIn (.single f.range))) (actionsOf f.actions)) = [] := by
    rw [Statement.referencesAll_eq_flatMap, List.flatMap_map, List.flatMap_eq_nil_iff]
    intro f _
    exact references_guarded _ _
  rw [compile, Statement.referencesAll_append, Statement.referencesAll_append, hheading, hfilters,
    List.nil_append, List.nil_append]
  exact references_body lists index t

/-- The writes of a compiled term fit their fields. -/
theorem fits_compile (lists : PrefixLists) (index : Nat) (t : Term) :
    ∀ w ∈ Statement.writesAll (t.compile lists index), w.2.fits w.1 = true := by
  have hguarded : ∀ guard cs, ∀ w ∈ (Statement.guarded guard (actionsOf cs)).writes,
      w.2.fits w.1 = true := by
    intro guard cs w hw
    rw [Statement.guarded, Statement.writes, Statement.writesAll, List.append_nil] at hw
    exact ThenClause.fits_actionsOf cs w hw
  intro w hw
  rw [compile, Statement.writesAll_append, Statement.writesAll_append, List.mem_append,
    List.mem_append] at hw
  rcases hw with (hheading | hfilters) | hbody
  · split at hheading <;> cases hheading
  · rw [Statement.writesAll_eq_flatMap, List.flatMap_map, List.mem_flatMap] at hfilters
    obtain ⟨f, -, hf⟩ := hfilters
    exact hguarded _ _ w hf
  · split at hbody
    · exact ThenClause.fits_actionsOf _ w hbody
    · rw [Statement.writesAll, Statement.writesAll, List.append_nil] at hbody
      exact hguarded _ _ w hbody

end Term

namespace PolicyStatement

/-- What is read off the list that terms make is read off what each of them makes. -/
theorem flatten_mapIdx_terms {α β : Type} {read : List α → List β} (hnil : read [] = [])
    (happend : ∀ as bs, read (as ++ bs) = read as ++ read bs) (ts : List Term)
    (f : Nat → Term → List α) :
    read (ts.mapIdx f).flatten = (ts.mapIdx fun i t => read (f i t)).flatten := by
  induction ts generalizing f with
  | nil => exact hnil
  | cons t ts ih =>
    rw [List.mapIdx_cons, List.mapIdx_cons, List.flatten_cons, List.flatten_cons, happend, ih]

/-- The references of a compiled policy statement are those of its terms, in order. -/
theorem references_program (lists : PrefixLists) (s : PolicyStatement) :
    Statement.referencesAll (s.program lists) =
      (s.allTerms.mapIdx fun i t => t.subroutines i).flatten := by
  have hending : Statement.referencesAll [ending] = [] := rfl
  rw [program, Statement.referencesAll_append, hending, List.append_nil,
    flatten_mapIdx_terms rfl Statement.referencesAll_append]
  simp only [Term.references_compile]

/-- The writes of a compiled policy statement fit their fields. -/
theorem fits_compile (lists : PrefixLists) (s : PolicyStatement) : (s.compile lists).Fits := by
  intro w hw
  have hprogram : (s.compile lists).statements = s.program lists := rfl
  rw [hprogram, program, Statement.writesAll_append, List.mem_append] at hw
  rcases hw with hterms | hending
  · rw [Statement.writesAll_eq_flatMap, List.mem_flatMap] at hterms
    obtain ⟨statement, hstatement, hw⟩ := hterms
    obtain ⟨program, hprogram, hmem⟩ := List.mem_flatten.mp hstatement
    obtain ⟨i, hi, rfl⟩ := List.mem_mapIdx.mp hprogram
    refine Term.fits_compile lists i s.allTerms[i] w ?_
    rw [Statement.writesAll_eq_flatMap, List.mem_flatMap]
    exact ⟨statement, hmem, hw⟩
  · cases hending

/-- A reference of a compiled policy statement names a policy of a clause and has no link. -/
theorem of_mem_references {lists : PrefixLists} {s : PolicyStatement} {r : Reference}
    (h : r ∈ Statement.referencesAll (s.compile lists).statements) :
    r.link = none ∧ ∃ t ∈ s.allTerms, ∃ c ∈ t.clauses, r.name ∈ c.policies := by
  have hsubroutines : ∀ (kind : ClauseKind) (i : Nat) (t : Term),
      r ∈ subroutinesOf i (clausesOf kind t.clauses) →
        r.link = none ∧ ∃ c ∈ t.clauses, r.name ∈ c.policies := by
    intro kind i t hr
    obtain ⟨name, hname, rfl⟩ := List.mem_map.mp hr
    obtain ⟨c, hc, hmem⟩ := List.mem_flatMap.mp hname
    exact ⟨rfl, c, (List.mem_filter.mp hc).1, hmem⟩
  have hreferences : r ∈ (s.allTerms.mapIdx fun i t => t.subroutines i).flatten := by
    rw [← references_program lists]
    exact h
  obtain ⟨references, hmem, hr⟩ := List.mem_flatten.mp hreferences
  obtain ⟨i, hi, rfl⟩ := List.mem_mapIdx.mp hmem
  have hterm : s.allTerms[i] ∈ s.allTerms := List.getElem_mem hi
  rcases List.mem_append.mp hr with hr | hr
  · obtain ⟨hlink, hclause⟩ := hsubroutines .policy i _ hr
    exact ⟨hlink, _, hterm, hclause⟩
  · obtain ⟨hlink, hclause⟩ := hsubroutines .policyChain i _ hr
    exact ⟨hlink, _, hterm, hclause⟩

end PolicyStatement

/-! ## Builders -/

/-- A derived policy under a reserved name that writes nothing and refers to others by name
alone. -/
structure Policy.Built (p : Policy) : Prop where
  derived : p.isDerived = true
  reserved : isReservedName p.name = true
  writes : Statement.writesAll p.statements = []
  plain : p.Plain

namespace Derived

theorem built_defaultReject : defaultReject.Built where
  derived := rfl
  reserved := isReservedName_derivedName _
  writes := rfl
  plain _ hr := by cases hr

theorem built_defaultAccept : defaultAccept.Built where
  derived := rfl
  reserved := isReservedName_derivedName _
  writes := rfl
  plain _ hr := by cases hr

theorem built_protocolDefault (p : Protocol) (d : Direction) : (protocolDefault p d).Built where
  derived := rfl
  reserved := isReservedName_derivedName _
  writes := rfl
  plain _ hr := by cases hr

theorem writesAll_calls (policies : List String) :
    Statement.writesAll (policies.map fun p => Statement.call (.named p)) = [] := by
  rw [Statement.writesAll_eq_flatMap, List.flatMap_map, List.flatMap_eq_nil_iff]
  exact fun _ _ => rfl

theorem referencesAll_calls (policies : List String) :
    Statement.referencesAll (policies.map fun p => Statement.call (.named p)) =
      policies.map Reference.named := by
  rw [Statement.referencesAll_eq_flatMap, List.flatMap_map, List.map_eq_flatMap]
  rfl

theorem built_peerChain (peer : String) (d : Direction) (defaultPolicy : String)
    (policies : List String) : (peerChain peer d defaultPolicy policies).Built where
  derived := rfl
  reserved := isReservedName_derivedName _
  writes := writesAll_calls policies
  plain := by
    intro r hr
    have hreferences : Statement.referencesAll
        (peerChain peer d defaultPolicy policies).statements =
          .named defaultPolicy :: policies.map Reference.named :=
      congrArg _ (referencesAll_calls policies)
    rw [hreferences, List.mem_cons] at hr
    rcases hr with rfl | hr
    · rfl
    · obtain ⟨p, -, rfl⟩ := List.mem_map.mp hr
      rfl

theorem built_generationPolicy (aggregate : Prefix) (policies : List String) :
    (generationPolicy aggregate policies).Built where
  derived := rfl
  reserved := isReservedName_derivedName _
  writes := writesAll_calls policies
  plain := by
    intro r hr
    have hreferences : Statement.referencesAll (generationPolicy aggregate policies).statements =
        policies.map Reference.named := referencesAll_calls policies
    rw [hreferences] at hr
    obtain ⟨p, -, rfl⟩ := List.mem_map.mp hr
    rfl

theorem built_ribGroupPolicy (group : String) (p : Protocol) (policies : List String) :
    (ribGroupPolicy group p policies).Built where
  derived := rfl
  reserved := isReservedName_derivedName _
  writes := rfl
  plain := by
    intro r hr
    simp only [ribGroupPolicy, Policy.derived, Statement.referencesAll, Statement.references,
      Condition.references, List.mem_append, List.mem_cons, List.mem_map, List.not_mem_nil,
      or_false] at hr
    rcases hr with rfl | ⟨p, -, rfl⟩ | rfl <;> rfl

theorem built_instanceImportPolicy (vrf : String) (policies : List String) :
    (instanceImportPolicy vrf policies).Built where
  derived := rfl
  reserved := isReservedName_derivedName _
  writes := rfl
  plain := by
    intro r hr
    simp only [instanceImportPolicy, Policy.derived, Statement.referencesAll,
      Statement.references, Condition.references, List.mem_append, List.mem_cons, List.mem_map,
      List.not_mem_nil, or_false] at hr
    rcases hr with rfl | ⟨p, -, rfl⟩ <;> rfl

theorem built_instanceImportGate (vrf : String) : (instanceImportGate vrf).Built where
  derived := rfl
  reserved := isReservedName_derivedName _
  writes := rfl
  plain := by
    intro r hr
    simp only [instanceImportGate, Policy.derived, Statement.referencesAll, Statement.references,
      Condition.references, List.mem_append, List.mem_cons, List.not_mem_nil, or_false] at hr
    rw [hr]
    rfl

end Derived

/-! ## All policies of a configuration -/

namespace Configuration

variable {c : Configuration} {d : Definition}

/-- The derived policies of a configuration come from builders. -/
theorem Derives.built {title : Derived.Title} {p : Policy} (h : c.Derives title p) : p.Built := by
  cases title with
  | defaultReject =>
    obtain rfl := h
    exact Derived.built_defaultReject
  | defaultAccept =>
    obtain rfl := h
    exact Derived.built_defaultAccept
  | protocolDefault =>
    obtain ⟨-, rfl⟩ := h
    exact Derived.built_protocolDefault _ _
  | peerChain =>
    obtain ⟨_, -, -, _, -, rfl⟩ := h
    exact Derived.built_peerChain _ _ _ _
  | generationPolicy =>
    obtain ⟨_, -, -, rfl⟩ := h
    exact Derived.built_generationPolicy _ _
  | ribGroupPolicy =>
    obtain ⟨_, -, -, rfl⟩ := h
    exact Derived.built_ribGroupPolicy _ _ _
  | instanceImportPolicy =>
    obtain ⟨_, -, -, rfl⟩ := h
    exact Derived.built_instanceImportPolicy _ _
  | instanceImportGate =>
    obtain ⟨-, rfl⟩ := h
    exact Derived.built_instanceImportGate _

/-- A definition of a configuration is a compiled policy statement or comes from a builder. -/
theorem compiled_or_built (h : d ∈ c.definitions) :
    (∃ s ∈ c.policyStatements, d.policy = s.compile c.prefixLists) ∨ d.policy.Built := by
  rcases mem_definitions_iff.mp ⟨d, h, rfl⟩ with ⟨s, hs, hpolicy⟩ | ⟨title, hderives⟩
  · exact .inl ⟨s, hs, hpolicy.symm⟩
  · exact .inr hderives.built

/-- Every write of a policy of a configuration fits its field. -/
theorem fits_of_mem_definitions (h : d ∈ c.definitions) : d.policy.Fits := by
  rcases compiled_or_built h with ⟨s, -, hpolicy⟩ | hbuilt
  · rw [hpolicy]
    exact s.fits_compile c.prefixLists
  · intro w hw
    rw [hbuilt.writes] at hw
    cases hw

/-- No reference in a policy of a configuration is linked. -/
theorem unlinked_of_mem_definitions (h : d ∈ c.definitions) :
    ∀ r ∈ Statement.referencesAll d.policy.statements, r.link = none := by
  intro r hr
  rcases compiled_or_built h with ⟨s, -, hpolicy⟩ | hbuilt
  · rw [hpolicy] at hr
    exact (PolicyStatement.of_mem_references hr).1
  · rw [hbuilt.plain r hr]
    rfl

/-- The derived policies of a configuration refer to others by name alone. -/
theorem plain_of_mem_definitions (h : d ∈ c.definitions) (hderived : d.policy.isDerived = true) :
    d.policy.Plain := by
  rcases compiled_or_built h with ⟨s, -, hpolicy⟩ | hbuilt
  · rw [hpolicy] at hderived
    cases hderived
  · exact hbuilt.plain

end Configuration

end RoutePolicy
