import Mathlib.Data.List.Basic
import Mathlib.Data.List.Flatten
import RoutePolicy.Configuration.Compile
import RoutePolicy.Proofs.Lowering
import RoutePolicy.Proofs.Ordered.SortedMap

/-!
# Compiling in one pass

The program of a policy statement and what is reported about it are defined apart from each other.
Here they come out of one pass, which looks at every clause when it compiles it and reports what it
finds there and then.  It groups clauses in a map from kinds, and sorts actions by a tag.

* `Lowering.mergeSort_tag`, `FromClause.entries_groupByKind` — what the sort and the map amount to;
* `ThenClause.lower`, `FromClause.lower`, `ClauseKind.lower`, `Term.lower`, `PolicyStatement.lower` —
  the pass, by the levels of the syntax;
* `PolicyStatement.yields_lower` — the pass gives the program and reports the notices.
-/

set_option autoImplicit false

namespace RoutePolicy

/-! ## Sorting by a tag -/

namespace Lowering

variable {α : Type}

/-- A list in which nothing tagged stands in front of something untagged. -/
theorem eq_filter_append_filter {tag : α → Bool} {l : List α}
    (h : l.Pairwise fun a b => (!tag a || tag b) = true) :
    l = l.filter (fun a => !tag a) ++ l.filter tag := by
  induction l with
  | nil => rfl
  | cons a l ih =>
    obtain ⟨ha, hl⟩ := List.pairwise_cons.mp h
    cases htag : tag a with
    | false => simpa [htag] using ih hl
    | true =>
      have hbehind : ∀ b ∈ l, tag b = true := fun b hb => by simpa [htag] using ha b hb
      have hnone : l.filter (fun a => !tag a) = [] :=
        List.filter_eq_nil_iff.mpr fun b hb => by simp [hbehind b hb]
      simp [htag, hnone, List.filter_eq_self.mpr hbehind]

/-- Sorting by a tag puts what is tagged behind what is not, and changes nothing else. -/
theorem mergeSort_tag (tag : α → Bool) (l : List α) :
    l.mergeSort (fun a b => !tag a || tag b) = l.filter (fun a => !tag a) ++ l.filter tag := by
  have htrans : ∀ a b c : α, (!tag a || tag b) = true → (!tag b || tag c) = true →
      (!tag a || tag c) = true := by
    intro a b c
    cases tag a <;> cases tag b <;> simp
  have htotal : ∀ a b : α, ((!tag a || tag b) || (!tag b || tag a)) = true := by
    intro a b
    cases tag a <;> simp
  -- what has one tag is in order already, so it keeps its order
  have hkept : ∀ p : α → Bool, (∀ a b, p a = true → p b = true → (!tag a || tag b) = true) →
      (l.mergeSort fun a b => !tag a || tag b).filter p = l.filter p := by
    intro p hp
    have hordered : (l.filter p).Pairwise fun a b => (!tag a || tag b) = true :=
      List.pairwise_of_forall_mem_list fun a ha b hb =>
        hp a b (List.mem_filter.mp ha).2 (List.mem_filter.mp hb).2
    have hsublist := (List.sublist_mergeSort htrans htotal hordered List.filter_sublist).filter p
    rw [List.filter_filter, List.filter_congr fun a _ => Bool.and_self (p a)] at hsublist
    exact (hsublist.eq_of_length ((List.mergeSort_perm l _).filter p).length_eq.symm).symm
  rw [eq_filter_append_filter (List.pairwise_mergeSort htrans htotal l),
    hkept _ fun a b ha hb => by simp [ha], hkept _ fun a b ha hb => by simp [hb]]

end Lowering

/-! ## Grouping by kind -/

namespace ClauseKind

/-- A kind comes before another one when it is listed before it. -/
instance : LT ClauseKind := ⟨fun a b => a.ctorIdx < b.ctorIdx⟩

instance : DecidableLT ClauseKind := fun a b => Nat.decLt a.ctorIdx b.ctorIdx

theorem getElem?_all (kind : ClauseKind) : all[kind.ctorIdx]? = some kind := by
  cases kind <;> rfl

instance : KeyOrder ClauseKind where
  irrefl a := Nat.lt_irrefl a.ctorIdx
  trans h h' := Nat.lt_trans h h'
  connected {a b} hab hba := by
    have heq : a.ctorIdx = b.ctorIdx := Nat.le_antisymm (Nat.not_lt.mp hba) (Nat.not_lt.mp hab)
    have hsome := a.getElem?_all
    rw [heq, b.getElem?_all, Option.some.injEq] at hsome
    exact hsome.symm

theorem ascending_all : all.Pairwise (· < ·) := by decide

theorem mem_all (kind : ClauseKind) : kind ∈ all := List.mem_of_getElem? kind.getElem?_all

end ClauseKind

namespace FromClause

/-- The clauses under their kinds, collected one after the other. -/
def groupByKind (cs : List FromClause) : SortedMap ClauseKind (List FromClause) :=
  cs.foldl (fun m c => m.insert c.kind ((m.find? c.kind).getD [] ++ [c])) .empty

/-- The clauses of a kind, when there are any. -/
def group? (cs : List FromClause) (kind : ClauseKind) : Option (List FromClause) :=
  match clausesOf kind cs with
  | [] => none
  | c :: group => some (c :: group)

/-- Clauses that are added to a group go behind those that are there. -/
theorem find?_foldl_insert (cs : List FromClause) (kind : ClauseKind)
    (m : SortedMap ClauseKind (List FromClause)) :
    (cs.foldl (fun m c => m.insert c.kind ((m.find? c.kind).getD [] ++ [c])) m).find? kind =
      match clausesOf kind cs with
      | [] => m.find? kind
      | c :: group => some ((m.find? kind).getD [] ++ c :: group) := by
  induction cs generalizing m with
  | nil => rfl
  | cons c cs ih =>
    rw [List.foldl_cons, ih]
    by_cases hkind : c.kind = kind
    · subst hkind
      have hclauses : clausesOf c.kind (c :: cs) = c :: clausesOf c.kind cs :=
        List.filter_cons_of_pos (by simp)
      rw [SortedMap.find?_insert_self, hclauses]
      cases clausesOf c.kind cs <;> simp
    · have hclauses : clausesOf kind (c :: cs) = clausesOf kind cs :=
        List.filter_cons_of_neg (by simpa using hkind)
      rw [SortedMap.find?_insert_of_ne _ (Ne.symm hkind), hclauses]

theorem find?_groupByKind (cs : List FromClause) (kind : ClauseKind) :
    (groupByKind cs).find? kind = group? cs kind :=
  find?_foldl_insert cs kind .empty

/-- The kinds that occur, in order, with the clauses of each. -/
theorem entries_groupByKind (cs : List FromClause) : (groupByKind cs).entries =
    ClauseKind.all.filterMap fun kind => (group? cs kind).map (kind, ·) := by
  have hascending : (ClauseKind.all.filterMap fun kind => (group? cs kind).map (kind, ·)).Pairwise
      fun a b => a.1 < b.1 := by
    refine ClauseKind.ascending_all.filterMap _ fun kind kind' hless e he e' he' => ?_
    obtain ⟨_, -, rfl⟩ := Option.map_eq_some_iff.mp he
    obtain ⟨_, -, rfl⟩ := Option.map_eq_some_iff.mp he'
    exact hless
  have hmap : groupByKind cs = ⟨_, hascending⟩ := by
    refine SortedMap.ext_find? fun kind => ?_
    rw [find?_groupByKind]
    refine Option.ext fun group => ?_
    rw [SortedMap.find?_eq_some_iff, List.mem_filterMap]
    constructor
    · intro h
      exact ⟨kind, kind.mem_all, by rw [h, Option.map_some]⟩
    · rintro ⟨kind', -, h⟩
      obtain ⟨group', hgroup, heq⟩ := Option.map_eq_some_iff.mp h
      cases heq
      exact hgroup
  exact congrArg SortedMap.entries hmap

theorem eq_clausesOf {cs group : List FromClause} {kind : ClauseKind}
    (h : group? cs kind = some group) : group = clausesOf kind cs := by
  unfold group? at h
  split at h
  · cases h
  · rename_i c rest hclauses
    cases h
    exact hclauses.symm

end FromClause

/-! ## The pass -/

section Clauses

variable (policy : String) (term : Nat)

/-- Compiles an action, with a tag that tells whether it controls the evaluation. -/
def ThenClause.lower : ThenClause → Lowering (Bool × Statement)
  | .unsupported s => do
    Lowering.report (unsupportedNotices policy term ("then " ++ s))
    return (false, .comment ("unsupported: then " ++ s))
  | c => return (c.isControl, c.statement)

/-- Compiles actions and sorts what comes out by the tags. -/
def ThenClause.lowerAll (cs : List ThenClause) : Lowering (List Statement) := do
  let tagged ← cs.mapM (lower policy term)
  return (tagged.mergeSort fun a b => !a.1 || b.1).map Prod.snd

/-- Compiles a route filter with actions of its own. -/
def RouteFilter.lower (f : RouteFilter) : Lowering Statement := do
  let actions ← ThenClause.lowerAll policy term f.actions
  return .guarded (.test (.prefixIn (.single f.range))) actions

/-- Compiles a clause that asks for an attribute; clauses of the other kinds never get here. -/
def FromClause.lower : FromClause → Lowering Condition
  | .unsupported s => do
    Lowering.report (unsupportedNotices policy term ("from " ++ s))
    return .test (.unsupported s)
  | c => return match c.predicate? with
    | some p => .test p
    | none => .literal false

variable (lists : PrefixLists)

/-- Looks a prefix list up. -/
def PrefixLists.lower (name : String) : Lowering PrefixSet :=
  match lists.find? name with
  | some ps => return .ofPrefixes ps
  | none => do
    Lowering.report (undefinedListNotices policy term name)
    return .empty

/-- Adds a prefix clause to the set of all filters, or its list to the sets of prefix lists. -/
def FromClause.lowerPrefix (sets : PrefixSet × List PrefixSet) :
    FromClause → Lowering (PrefixSet × List PrefixSet)
  | .routeFilter f => return (sets.1.union (.single f.range), sets.2)
  | .prefixList name => do
    let named ← lists.lower policy term name
    return (sets.1, sets.2 ++ [named])
  | _ => return sets

/-- Compiles the clauses of one kind. -/
def ClauseKind.lower (cs : List FromClause) : ClauseKind → Lowering Condition
  | .policy => return .allMatch (subroutinesOf term cs)
  | .policyChain => return .firstMatch (subroutinesOf term cs)
  | .prefixes => do
    let (filters, named) ← cs.foldlM (FromClause.lowerPrefix policy term lists) (.empty, [])
    let sets := if filters.ranges.isEmpty then named else named ++ [filters]
    return anyOf (sets.map fun s => .test (.prefixIn s))
  | _ => do
    let operands ← cs.mapM (FromClause.lower policy term)
    return anyOf operands

/-- Compiles match clauses, kind by kind. -/
def FromClause.lowerGuard (cs : List FromClause) : Lowering (Option Condition) := do
  let operands ← (groupByKind cs).entries.mapM fun (kind, group) =>
    kind.lower policy term lists group
  return match operands with
    | [] => none
    | [c] => some c
    | cs => some (.all cs)

/-- Compiles a term: its filters, its actions and its match clauses. -/
def Term.lower (t : Term) : Lowering (List Statement) := do
  let heading := if t.name.isEmpty then [] else [Statement.comment ("term " ++ t.name)]
  let filters ← t.activeFilters.mapM (RouteFilter.lower policy term)
  let actions ← ThenClause.lowerAll policy term t.actions
  let guard ← FromClause.lowerGuard policy term lists t.clauses
  return heading ++ filters ++ match guard with
    | none => actions
    | some guard => [.guarded guard actions]

end Clauses

/-! ## What the pass gives -/

section

variable (policy : String) (term : Nat) (lists : PrefixLists)

theorem flatMap_filterMap {α β γ : Type} (f : α → Option β) (g : β → List γ) (l : List α) :
    (l.filterMap f).flatMap g = l.flatMap fun a => (f a).toList.flatMap g := by
  rw [List.filterMap_eq_flatMap_toList, List.flatMap_assoc]

theorem actionNotices_eq_flatMap (cs : List ThenClause) : actionNotices policy term cs =
    cs.flatMap fun c => actionNotices policy term [c] := by
  simp only [actionNotices, flatMap_filterMap, List.flatMap_singleton]

theorem ThenClause.yields_lower (c : ThenClause) : Lowering.Yields (c.lower policy term)
    (c.isControl, c.statement) (actionNotices policy term [c]) := by
  cases c with
  | unsupported s => exact (Lowering.Yields.report _).bind (.pure _)
  | _ => exact .pure _

/-- Sorting the tagged statements puts writes first and control last. -/
theorem ThenClause.yields_lowerAll (cs : List ThenClause) :
    Lowering.Yields (lowerAll policy term cs) (actionsOf cs) (actionNotices policy term cs) := by
  have htagged := Lowering.Yields.mapM fun c (_ : c ∈ cs) => c.yields_lower policy term
  have hsorted : ((cs.map fun c => (c.isControl, c.statement)).mergeSort
      fun a b => !a.1 || b.1).map Prod.snd = actionsOf cs := by
    rw [Lowering.mergeSort_tag Prod.fst, List.filter_map, List.filter_map,
      ← List.map_append, List.map_map]
    rfl
  rw [actionNotices_eq_flatMap, ← hsorted]
  exact htagged.andReturn _

theorem RouteFilter.yields_lower (f : RouteFilter) : Lowering.Yields (f.lower policy term)
    (.guarded (.test (.prefixIn (.single f.range))) (actionsOf f.actions))
    (actionNotices policy term f.actions) :=
  (ThenClause.yields_lowerAll policy term f.actions).andReturn _

theorem ClauseKind.notices_append (kind : ClauseKind) (cs ds : List FromClause) :
    kind.notices lists policy term (cs ++ ds) =
      kind.notices lists policy term cs ++ kind.notices lists policy term ds := by
  cases kind <;> simp [notices]

theorem ClauseKind.notices_eq_flatMap (kind : ClauseKind) (cs : List FromClause) :
    kind.notices lists policy term cs = cs.flatMap fun c => kind.notices lists policy term [c] := by
  induction cs with
  | nil => cases kind <;> rfl
  | cons c cs ih => rw [List.flatMap_cons, ← ih, ← notices_append, List.singleton_append]

theorem FromClause.yields_lower {c : FromClause} {p : Predicate} (h : c.predicate? = some p) :
    Lowering.Yields (c.lower policy term) (.test p) (c.kind.notices lists policy term [c]) := by
  cases c with
  | unsupported s =>
    cases h
    exact (Lowering.Yields.report _).bind (.pure _)
  | prefixList | routeFilter | policy | policyChain => cases h
  | _ =>
    cases h
    exact .pure _

theorem ClauseKind.notices_prefixList (name : String) :
    ClauseKind.prefixes.notices lists policy term [.prefixList name] =
      if lists.contains name then [] else undefinedListNotices policy term name := by
  show ([name].filter fun name => !lists.contains name).flatMap _ = _
  rw [List.filter_singleton]
  cases lists.contains name <;> simp

theorem PrefixLists.yields_lower (name : String) :
    Lowering.Yields (lists.lower policy term name) (lists.setOf name)
      (ClauseKind.prefixes.notices lists policy term [.prefixList name]) := by
  rw [ClauseKind.notices_prefixList, SortedMap.contains, PrefixLists.lower, PrefixLists.setOf]
  cases lists.find? name with
  | none => exact (Lowering.Yields.report _).andReturn fun _ => PrefixSet.empty
  | some ps => exact .pure _

/-- The prefix clauses of a term add to the sets that are there. -/
theorem FromClause.yields_foldlM {cs : List FromClause} (hcs : ∀ c ∈ cs, c.kind = .prefixes)
    (filters : PrefixSet) (named : List PrefixSet) :
    Lowering.Yields (cs.foldlM (lowerPrefix policy term lists) (filters, named))
      (((cs.filterMap routeFilter?).map RouteFilter.range).foldl PrefixSet.add filters,
        named ++ (cs.filterMap prefixList?).map lists.setOf)
      (ClauseKind.prefixes.notices lists policy term cs) := by
  induction cs generalizing filters named with
  | nil =>
    rw [List.filterMap_nil, List.filterMap_nil, List.map_nil, List.map_nil, List.append_nil]
    exact .pure _
  | cons c cs ih =>
    obtain ⟨hc, hrest⟩ := List.forall_mem_cons.mp hcs
    rw [List.foldlM_cons, ← List.singleton_append, ClauseKind.notices_append]
    cases c with
    | prefixList name =>
      have hstep := (lists.yields_lower policy term name).andReturn
        fun set => (filters, named ++ [set])
      have hsets : named ++ (([prefixList name] ++ cs).filterMap prefixList?).map lists.setOf =
          named ++ [lists.setOf name] ++ (cs.filterMap prefixList?).map lists.setOf := by
        simp [prefixList?]
      rw [hsets]
      exact hstep.bind (ih hrest _ _)
    | routeFilter f => exact (Lowering.Yields.pure (filters.add f.range, named)).bind (ih hrest _ _)
    | _ => cases hc

/-- Clauses that ask for an attribute become tests. -/
theorem FromClause.yields_mapM {kind : ClauseKind} {cs : List FromClause}
    (hkind : kind ≠ .prefixes ∧ kind ≠ .policy ∧ kind ≠ .policyChain)
    (hcs : ∀ c ∈ cs, c.kind = kind) :
    Lowering.Yields (cs.mapM (lower policy term)) ((cs.filterMap predicate?).map .test)
      (kind.notices lists policy term cs) := by
  obtain ⟨hprefixes, hpolicy, hchain⟩ := hkind
  let predicate (c : FromClause) : Predicate := c.predicate?.getD (.unsupported "")
  have hpredicate : ∀ c ∈ cs, c.predicate? = some (predicate c) := by
    intro c hc
    have hother := hcs c hc
    subst hother
    cases c <;> first
      | rfl
      | exact absurd rfl hprefixes
      | exact absurd rfl hpolicy
      | exact absurd rfl hchain
  have htests : (cs.filterMap predicate?).map Condition.test =
      cs.map fun c => .test (predicate c) := by
    rw [List.filterMap_eq_map_iff_forall_eq_some.mpr hpredicate, List.map_map]
    rfl
  rw [htests, ClauseKind.notices_eq_flatMap]
  refine Lowering.Yields.mapM fun c hc => ?_
  rw [← hcs c hc]
  exact yields_lower policy term lists (hpredicate c hc)

theorem ClauseKind.yields_lower {kind : ClauseKind} {cs : List FromClause}
    (hcs : ∀ c ∈ cs, c.kind = kind) :
    Lowering.Yields (kind.lower policy term lists cs) (kind.condition lists term cs)
      (kind.notices lists policy term cs) := by
  cases kind with
  | policy => exact .pure _
  | policyChain => exact .pure _
  | prefixes => exact (FromClause.yields_foldlM policy term lists hcs .empty []).andReturn _
  | _ => exact (FromClause.yields_mapM policy term lists (by decide) hcs).andReturn anyOf

theorem FromClause.yields_lowerGuard (cs : List FromClause) :
    Lowering.Yields (lowerGuard policy term lists cs) (guardOf? lists term cs)
      (clauseNotices lists policy term cs) := by
  have hentry : ∀ e ∈ (groupByKind cs).entries, Lowering.Yields
      (match e with | (kind, group) => kind.lower policy term lists group)
      (e.1.condition lists term e.2) (e.1.notices lists policy term e.2) := by
    rintro ⟨kind, group⟩ he
    have hgroup : group = clausesOf kind cs := by
      rw [← SortedMap.find?_eq_some_iff, find?_groupByKind] at he
      exact eq_clausesOf he
    refine ClauseKind.yields_lower policy term lists fun c hc => ?_
    rw [hgroup] at hc
    simpa using (List.mem_filter.mp hc).2
  have hoperands : (groupByKind cs).entries.map (fun e => e.1.condition lists term e.2) =
      operandsOf lists term cs := by
    rw [entries_groupByKind, List.map_filterMap]
    refine List.filterMap_congr fun kind _ => ?_
    rw [group?]
    cases clausesOf kind cs <;> rfl
  have hnotices : (groupByKind cs).entries.flatMap (fun e => e.1.notices lists policy term e.2) =
      clauseNotices lists policy term cs := by
    rw [entries_groupByKind, flatMap_filterMap]
    refine List.flatMap_congr fun kind _ => ?_
    rw [group?]
    cases clausesOf kind cs with
    | nil => cases kind <;> rfl
    | cons c group => exact List.append_nil _
  rw [← hnotices, guardOf?, ← hoperands]
  exact (Lowering.Yields.mapM hentry).andReturn _

theorem Term.yields_lower (t : Term) :
    Lowering.Yields (t.lower policy term lists) (t.compile lists term)
      (t.notices lists policy term) := by
  have hfilters := Lowering.Yields.mapM fun f (_ : f ∈ t.activeFilters) =>
    f.yields_lower policy term
  have hactions := ThenClause.yields_lowerAll policy term t.actions
  have hguard := FromClause.yields_lowerGuard policy term lists t.clauses
  rw [Term.notices, List.append_assoc]
  exact hfilters.bind (hactions.bind (hguard.andReturn _))

end

namespace PolicyStatement

/-- What is made of the terms in order, each under its number, and of the default term at last; it
counts as the one behind all others, and is left out when it is empty. -/
def eachTerm {α : Type} (f : Nat → Term → List α) (s : PolicyStatement) : List α :=
  (s.terms.mapIdx f).flatten ++
    (s.defaultTerm.toList.filter fun t => !t.isEmpty).flatMap (f s.terms.length)

theorem flatten_mapIdx_allTerms {α : Type} (f : Nat → Term → List α) (s : PolicyStatement) :
    (s.allTerms.mapIdx f).flatten = s.eachTerm f := by
  have hlast : ((s.defaultTerm.toList.filter fun t => !t.isEmpty).mapIdx
      fun i => f (i + s.terms.length)).flatten =
        (s.defaultTerm.toList.filter fun t => !t.isEmpty).flatMap (f s.terms.length) := by
    cases s.defaultTerm with
    | none => rfl
    | some t => cases hempty : t.isEmpty <;> simp [hempty]
  rw [allTerms, List.mapIdx_append, List.flatten_append, hlast, eachTerm]

/-- Compiles a policy statement: the terms in order, and then the default term. -/
def lower (lists : PrefixLists) (s : PolicyStatement) : Lowering Policy := do
  let terms ← s.terms.zipIdx.mapM fun (t, i) => t.lower s.name i lists
  let last ← (s.defaultTerm.toList.filter fun t => !t.isEmpty).mapM
    (Term.lower s.name s.terms.length lists)
  let statements := terms.flatten ++ last.flatten ++ [ending]
  Lowering.report [.event (.statementCompiled s.name s.terms.length statements.length)]
  return { name := s.name, statements }

/-- **Compiling in one pass** gives the program of the policy statement and reports its notices. -/
theorem yields_lower (lists : PrefixLists) (s : PolicyStatement) :
    Lowering.Yields (s.lower lists) (s.compile lists) (s.notices lists) := by
  have hterms : Lowering.Yields (s.terms.zipIdx.mapM fun (t, i) => t.lower s.name i lists)
      (s.terms.mapIdx fun i t => t.compile lists i)
      (s.terms.mapIdx fun i t => t.notices lists s.name i).flatten := by
    rw [List.mapIdx_eq_zipIdx_map, List.mapIdx_eq_zipIdx_map, ← List.flatMap_def]
    exact .mapM fun e _ => e.1.yields_lower s.name e.2 lists
  have hlast := Lowering.Yields.mapM
    fun t (_ : t ∈ s.defaultTerm.toList.filter fun t => !t.isEmpty) =>
      t.yields_lower s.name s.terms.length lists
  have hprogram : s.program lists = (s.terms.mapIdx fun i t => t.compile lists i).flatten ++
      ((s.defaultTerm.toList.filter fun t => !t.isEmpty).map fun t =>
        t.compile lists s.terms.length).flatten ++ [ending] := by
    rw [program, flatten_mapIdx_allTerms, eachTerm, List.flatMap_def]
  rw [notices, flatten_mapIdx_allTerms, eachTerm, List.append_assoc, compile, hprogram]
  exact hterms.bind (hlast.bind ((Lowering.Yields.report _).andReturn _))

end PolicyStatement

end RoutePolicy
