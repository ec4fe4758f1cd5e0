import Mathlib.Data.List.Perm.Basic
import RoutePolicy.Proofs.Configuration.Contents
import RoutePolicy.Proofs.Configuration.Lowering

/-!
# What is found in a policy statement

The diagnostics of a compiled policy statement, and the policies that it refers to, read off its
clauses one by one.

* `ThenClause.findings`, `FromClause.findings` — what is found in a single clause;
* `Term.findings`, `Term.perm_findings` — what is found in a term, in the order of the reports;
* `Term.policyNames`, `Term.perm_policyNames` — the policies that a term refers to;
* `PolicyStatement.compile_findings` — a whole policy statement.
-/

set_option autoImplicit false

namespace RoutePolicy

/-! ## Single clauses -/

/-- What is found in an action: a construct that is not supported. -/
def ThenClause.findings : ThenClause → List Finding
  | .unsupported s => [.unsupportedConstruct ("then " ++ s)]
  | _ => []

namespace FromClause

/-- What is found in the actions of a route filter. -/
def filterFindings : FromClause → List Finding
  | .routeFilter f => f.actions.flatMap ThenClause.findings
  | _ => []

/-- The prefix list that a clause names, if it is not defined. -/
def listFindings (lists : PrefixLists) : FromClause → List Finding
  | .prefixList name => if lists.contains name then [] else [.undefinedReference .prefixList name]
  | _ => []

/-- The match clause itself, if it is not supported. -/
def unsupportedFindings : FromClause → List Finding
  | .unsupported s => [.unsupportedConstruct ("from " ++ s)]
  | _ => []

/-- What is found in a match clause; at most one of the three can be. -/
def findings (lists : PrefixLists) (c : FromClause) : List Finding :=
  c.filterFindings ++ (c.listFindings lists ++ c.unsupportedFindings)

end FromClause

/-! ## Terms -/

/-- A finding, attributed to a term of a policy. -/
def Finding.inTerm (policy : String) (term : Nat) (f : Finding) : Diagnostic :=
  { policy, term := some term, finding := f }

theorem flatMap_filter {α β : Type} (p : α → Bool) (g : α → List β) (l : List α) :
    (l.filter p).flatMap g = l.flatMap fun a => if p a then g a else [] := by
  induction l with
  | nil => rfl
  | cons a l ih =>
    rw [List.flatMap_cons, ← ih, List.filter_cons]
    cases p a <;> rfl

namespace Term

/-- What is found in a term, as it is reported: in the actions of its filters, in its own actions,
among its prefix lists, and among its other clauses. -/
def findings (lists : PrefixLists) (t : Term) : List Finding :=
  t.clauses.flatMap FromClause.filterFindings ++ t.actions.flatMap ThenClause.findings ++
    (t.clauses.flatMap (FromClause.listFindings lists) ++
      t.clauses.flatMap FromClause.unsupportedFindings)

/-- What is found in a term is what is found in its clauses and in its actions, one by one. -/
theorem perm_findings (lists : PrefixLists) (t : Term) : (t.findings lists).Perm
    (t.clauses.flatMap (FromClause.findings lists) ++ t.actions.flatMap ThenClause.findings) := by
  have hclauses := (List.flatMap_append_perm t.clauses (FromClause.listFindings lists)
    FromClause.unsupportedFindings).append_left (t.clauses.flatMap FromClause.filterFindings)
  have hall := List.flatMap_append_perm t.clauses FromClause.filterFindings
    fun c => c.listFindings lists ++ c.unsupportedFindings
  rw [findings, List.append_assoc]
  refine (List.perm_append_comm.append_left _).trans ?_
  rw [← List.append_assoc]
  exact (hclauses.trans hall).append_right _

/-- The policies that a term refers to: those that must all match, and then those in a chain. -/
def policyNames (t : Term) : List String :=
  (clausesOf .policy t.clauses).flatMap FromClause.policies ++
    (clausesOf .policyChain t.clauses).flatMap FromClause.policies

/-- The policies that a term refers to are those that its clauses name, one by one. -/
theorem perm_policyNames (t : Term) :
    t.policyNames.Perm (t.clauses.flatMap FromClause.policies) := by
  have hkinds : ∀ c : FromClause, (if c.kind == .policy then c.policies else []) ++
      (if c.kind == .policyChain then c.policies else []) = c.policies := by
    intro c
    cases c <;> simp [FromClause.kind, FromClause.policies]
  have hperm := List.flatMap_append_perm t.clauses
    (fun c => if c.kind == .policy then c.policies else [])
    fun c => if c.kind == .policyChain then c.policies else []
  simp only [hkinds] at hperm
  rw [policyNames, clausesOf, clausesOf, flatMap_filter, flatMap_filter]
  exact hperm

theorem subroutines_eq (index : Nat) (t : Term) : t.subroutines index =
    t.policyNames.map fun name => (Reference.named name).atTerm index :=
  List.map_append.symm

section

variable (policy : String) (index : Nat)

theorem diagnosticsOf_actionNotices (actions : List ThenClause) :
    diagnosticsOf (actionNotices policy index actions) =
      (actions.flatMap ThenClause.findings).map (Finding.inTerm policy index) := by
  rw [actionNotices_eq_flatMap, diagnosticsOf_flatMap, List.map_flatMap]
  refine List.flatMap_congr fun c _ => ?_
  cases c <;> rfl

theorem diagnosticsOf_filters (t : Term) :
    diagnosticsOf (t.activeFilters.flatMap fun f => actionNotices policy index f.actions) =
      (t.clauses.flatMap FromClause.filterFindings).map (Finding.inTerm policy index) := by
  rw [activeFilters, flatMap_filter, flatMap_filterMap, diagnosticsOf_flatMap, List.map_flatMap]
  refine List.flatMap_congr fun c _ => ?_
  cases c with
  | routeFilter f =>
    show diagnosticsOf ([f].flatMap fun f => if !f.actions.isEmpty then _ else []) = _
    rw [List.flatMap_singleton, FromClause.filterFindings, ← diagnosticsOf_actionNotices]
    cases f.actions <;> rfl
  | _ => rfl

variable (lists : PrefixLists)

/-- The findings about the clauses of one kind, when clauses of other kinds have none. -/
theorem diagnosticsOf_kind {kind : ClauseKind} {found : FromClause → List Finding}
    (h : ∀ c : FromClause, diagnosticsOf
        (if c.kind == kind then kind.notices lists policy index [c] else []) =
      (found c).map (Finding.inTerm policy index)) (cs : List FromClause) :
    diagnosticsOf (kind.notices lists policy index (clausesOf kind cs)) =
      (cs.flatMap found).map (Finding.inTerm policy index) := by
  rw [ClauseKind.notices_eq_flatMap, clausesOf, flatMap_filter, diagnosticsOf_flatMap,
    List.map_flatMap]
  exact List.flatMap_congr fun c _ => h c

theorem diagnosticsOf_clauseNotices (cs : List FromClause) :
    diagnosticsOf (clauseNotices lists policy index cs) =
      (cs.flatMap (FromClause.listFindings lists) ++
        cs.flatMap FromClause.unsupportedFindings).map (Finding.inTerm policy index) := by
  have hkinds : clauseNotices lists policy index cs =
      ClauseKind.prefixes.notices lists policy index (clausesOf .prefixes cs) ++
        ClauseKind.unsupported.notices lists policy index (clausesOf .unsupported cs) := by
    simp [clauseNotices, ClauseKind.all, ClauseKind.notices]
  rw [hkinds, diagnosticsOf_append, List.map_append]
  congr 1
  · refine diagnosticsOf_kind policy index lists (fun c => ?_) cs
    cases c with
    | prefixList name =>
      show diagnosticsOf (ClauseKind.prefixes.notices lists policy index [.prefixList name]) = _
      rw [ClauseKind.notices_prefixList, FromClause.listFindings]
      split <;> rfl
    | _ => rfl
  · refine diagnosticsOf_kind policy index lists (fun c => ?_) cs
    cases c <;> rfl

/-- What is reported about a term is what is found in it. -/
theorem diagnosticsOf_notices (t : Term) : diagnosticsOf (t.notices lists policy index) =
    (t.findings lists).map (Finding.inTerm policy index) := by
  rw [notices, diagnosticsOf_append, diagnosticsOf_append, diagnosticsOf_filters,
    diagnosticsOf_actionNotices, diagnosticsOf_clauseNotices, ← List.map_append, ← List.map_append]
  rfl

end

end Term

/-! ## Policy statements -/

namespace PolicyStatement

variable (lists : PrefixLists) (s : PolicyStatement)

/-- **What is found in a policy statement, and what it refers to.**  Compiling it in one pass gives
its program and reports its notices.  The diagnostics among them are the findings of its terms, in
order, each attributed to the statement and to the number of its term; and the findings of a term
are those of its single clauses.  The references of the program are those of its terms, each with
the number of its term; and the references of a term are the policies that its single clauses
name. -/
theorem compile_findings :
    Lowering.Yields (s.lower lists) (s.compile lists) (s.notices lists) ∧
    diagnosticsOf (s.notices lists) =
      s.eachTerm (fun i t => (t.findings lists).map (Finding.inTerm s.name i)) ∧
    (∀ t : Term, (t.findings lists).Perm
      (t.clauses.flatMap (FromClause.findings lists) ++ t.actions.flatMap ThenClause.findings)) ∧
    Statement.referencesAll (s.compile lists).statements =
      s.eachTerm (fun i t => t.policyNames.map fun name => (Reference.named name).atTerm i) ∧
    ∀ t : Term, t.policyNames.Perm (t.clauses.flatMap FromClause.policies) := by
  have hreports : diagnosticsOf (s.notices lists) =
      s.eachTerm (fun i t => (t.findings lists).map (Finding.inTerm s.name i)) := by
    have hcompiled : diagnosticsOf
        [.event (.statementCompiled s.name s.terms.length (s.program lists).length)] = [] := rfl
    rw [notices, diagnosticsOf_append, hcompiled, List.append_nil,
      flatten_mapIdx_terms rfl diagnosticsOf_append, ← flatten_mapIdx_allTerms]
    simp only [Term.diagnosticsOf_notices]
  have hreferences : Statement.referencesAll (s.compile lists).statements =
      s.eachTerm fun i t => t.policyNames.map fun name => (Reference.named name).atTerm i := by
    rw [compile, references_program, ← flatten_mapIdx_allTerms]
    simp only [Term.subroutines_eq]
  exact ⟨s.yields_lower lists, hreports, Term.perm_findings lists, hreferences,
    Term.perm_policyNames⟩

/-- A filter, a prefix list and an action with findings in the second term, and one in the default
term behind it. -/
example :
    let ten : Prefix := ⟨⟨0x0a000000⟩, 8, by decide, by decide⟩
    let t : Term :=
      { clauses := [.prefixList "none", .routeFilter { base := ten, actions := [.unsupported "x"] }]
        actions := [.unsupported "y"] }
    let s : PolicyStatement :=
      { name := "P", terms := [{ name := "a" }, t], defaultTerm := some { clauses := [.unsupported "z"] } }
    diagnosticsOf (s.notices .empty) =
      [⟨"P", some 1, .unsupportedConstruct "then x"⟩, ⟨"P", some 1, .unsupportedConstruct "then y"⟩,
        ⟨"P", some 1, .undefinedReference .prefixList "none"⟩,
        ⟨"P", some 2, .unsupportedConstruct "from z"⟩] := by
  decide

end PolicyStatement

end RoutePolicy
