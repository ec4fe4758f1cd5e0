import RoutePolicy.Proofs.Evaluation.Adequacy
import RoutePolicy.Proofs.Registry.Define
import RoutePolicy.Proofs.Table.Links
import RoutePolicy.Proofs.Table.Renaming

/-!
# Adding unrelated policies

More policies in a registry move those that were there to other places, so that every link of the
frozen table changes.  As long as no policy that can be reached from a policy mentions one of the
new names, the evaluation of that policy does not change.

* `Registry.mentioned`, `Registry.Reaches` — the references between the policies of a registry, by
  name;
* `Policy.linkAll_moved` — a program that is linked among other names is the linked program with its
  links moved, when the same references of it are defined and no link is a stray one;
* `Registry.UnrelatedExtension.table_renaming` — the tables before and after are renamings of each
  other, on the policies that can be reached;
* `Registry.evaluate_extension` — the result for evaluations;
* `Registry.evaluate_extension_stray` — what a stray link does.
-/

set_option autoImplicit false

namespace RoutePolicy

/-! ## References by name -/

namespace Registry

variable (r : Registry)

/-- The names that the policy of a name refers to: in calls, in conditions, or as default policies.
There are none where no policy has the name. -/
def mentioned (caller : String) : List String :=
  match r.get? caller with
  | some p => (Statement.referencesAll p.statements).map (·.name)
  | none => []

/-- The names that can be reached from a name over the references of policies. -/
inductive Reaches (start : String) : String → Prop where
  | start : Reaches start start
  | step {caller name : String} (reached : Reaches start caller)
      (mentions : name ∈ r.mentioned caller) : Reaches start name

variable {r}

theorem mem_mentioned {caller : String} {p : Policy} (hget : r.get? caller = some p)
    {ref : Reference} (href : ref ∈ Statement.referencesAll p.statements) :
    ref.name ∈ r.mentioned caller := by
  unfold mentioned
  rw [hget]
  exact List.mem_map_of_mem href

/-- Names that mention one another only are all that can be reached from one of them. -/
theorem Reaches.mem_of_closed {start name : String} {names : List String}
    (h : r.Reaches start name) (hstart : start ∈ names)
    (hclosed : ∀ caller ∈ names, ∀ name ∈ r.mentioned caller, name ∈ names) : name ∈ names := by
  induction h with
  | start => exact hstart
  | step _ hmentions ih => exact hclosed _ ih _ hmentions

end Registry

/-! ## Linking among other names -/

section

variable {names names' : List String}

/-- The reference with the place of its name among other names. -/
def Reference.moved (names : List String) (r : Reference) : Reference :=
  { r with link := placeOf names r.name }

theorem Reference.name_linkOrKeep (r : Reference) : (r.linkOrKeep names).name = r.name := by
  cases hplace : placeOf names r.name with
  | none => rw [linkOrKeep_of_undefined hplace]
  | some id => rw [linkOrKeep_of_place hplace, linked]

/-- Linking a reference once more, among other names, forgets the first link.  An undefined
reference has to be undefined again, and must not bring a link along. -/
theorem Reference.linkOrKeep_moved {r : Reference}
    (hundefined : placeOf names r.name = none → placeOf names' r.name = none)
    (hdefined : placeOf names' r.name = none → placeOf names r.name = none)
    (hlink : placeOf names r.name = none → r.link = none) :
    (r.linkOrKeep names).moved names' = r.linkOrKeep names' := by
  cases hplace : placeOf names r.name with
  | none =>
    rw [linkOrKeep_of_undefined hplace, linkOrKeep_of_undefined (hundefined hplace), moved,
      hundefined hplace, ← hlink hplace]
  | some id =>
    cases hplace' : placeOf names' r.name with
    | none =>
      rw [hdefined hplace'] at hplace
      cases hplace
    | some id' =>
      rw [linkOrKeep_of_place hplace, linkOrKeep_of_place hplace']
      exact congrArg (fun link => { r with link }) hplace'

/-- Linking among other names gives the same program with other links, when the same references
are defined and none that is left over has a link. -/
theorem Policy.linkAll_moved {p : Policy} (hstray : p.NoStrayLinks names)
    (hdefined : ∀ r ∈ Statement.referencesAll p.statements, r.name ∈ names' ↔ r.name ∈ names) :
    Statement.mapReferencesAll (.moved names') (Statement.linkAll names p.statements) =
      Statement.linkAll names' p.statements := by
  have hpruned : Statement.pruneAll names' p.statements = Statement.pruneAll names p.statements :=
    Statement.pruneAll_congr _ fun r hr => by
      rw [Bool.eq_iff_iff, List.contains_iff_mem, List.contains_iff_mem, hdefined r hr]
  rw [Statement.linkAll_eq, Statement.linkAll_eq, hpruned, Statement.mapReferencesAll_comp]
  refine Statement.mapReferencesAll_congr _ fun r hr => ?_
  have hsame : placeOf names' r.name = none ↔ placeOf names r.name = none := by
    rw [placeOf_eq_none_iff, placeOf_eq_none_iff,
      hdefined r (Statement.mem_referencesAll_of_pruneAll names hr)]
  refine Reference.linkOrKeep_moved hsame.mpr hsame.mp fun hplace => ?_
  -- what is undefined and was not dropped is left over
  rw [← Statement.map_target_occurrencesAll, Statement.occurrencesAll_pruneAll] at hr
  obtain ⟨o, ho, rfl⟩ := List.mem_map.mp hr
  obtain ⟨hmem, hstays⟩ := List.mem_filter.mp ho
  rw [Occurrence.stays_of_undefined hplace] at hstays
  exact hstray o (Policy.mem_leftOver_iff.mpr ⟨hmem, hplace, hstays⟩)

end

/-! ## The tables before and after -/

namespace Registry

variable {r r' : Registry} {added : List Policy} {policy : String}

/-- Further policies were added to a registry, and no policy that can be reached from `policy`
mentions one of them. -/
structure UnrelatedExtension (r r' : Registry) (added : List Policy) (policy : String) : Prop where
  mem_iff : ∀ p, p ∈ r'.policies ↔ p ∈ r.policies ∨ p ∈ added
  unrelated : ∀ caller, r.Reaches policy caller → ∀ p ∈ added, p.name ∉ r.mentioned caller

/-- No policy that can be reached from `policy` has a stray link. -/
def NoStrayLinksFrom (r : Registry) (policy : String) : Prop :=
  ∀ caller p, r.Reaches policy caller → r.get? caller = some p → p.NoStrayLinks r.names

theorem NoStrayLinks.fromPolicy (h : r.NoStrayLinks) (policy : String) :
    r.NoStrayLinksFrom policy :=
  fun _ p _ hget => h p (mem_of_get? hget)

/-- The places of one policy before and after, for the policies that can be reached. -/
def SamePolicy (r r' : Registry) (policy : String) (id id' : PolicyId) : Prop :=
  ∃ name, r.Reaches policy name ∧ placeOf r.names name = some id ∧ placeOf r'.names name = some id'

namespace UnrelatedExtension

variable (h : UnrelatedExtension r r' added policy)

include h

theorem mem_names {name : String} (hname : name ∈ r.names) : name ∈ r'.names := by
  obtain ⟨p, hp, rfl⟩ := List.mem_map.mp hname
  exact List.mem_map_of_mem ((h.mem_iff p).mpr (.inl hp))

/-- A name that a reachable policy mentions is defined after the extension only if it was before:
no new policy takes an undefined name that matters. -/
theorem mem_names_iff {caller name : String} (hcaller : r.Reaches policy caller)
    (hmentions : name ∈ r.mentioned caller) : name ∈ r'.names ↔ name ∈ r.names := by
  refine ⟨fun hname => ?_, h.mem_names⟩
  obtain ⟨p, hp, rfl⟩ := List.mem_map.mp hname
  rcases (h.mem_iff p).mp hp with hold | hnew
  · exact List.mem_map_of_mem hold
  · exact absurd hmentions (h.unrelated caller hcaller p hnew)

/-- The links of a reachable policy lead to the same policies before and after. -/
theorem link_related (hstray : r.NoStrayLinksFrom policy) {caller : String} {p q : Policy}
    (hcaller : r.Reaches policy caller) (hget : r.get? caller = some p)
    (hq : q.LinkedFrom r.names p) {ref : Reference}
    (href : ref ∈ Statement.referencesAll q.statements) :
    Option.Rel (SamePolicy r r' policy) ref.link (ref.moved r'.names).link := by
  have hmentions : ref.name ∈ r.mentioned caller := by
    rw [hq.statements_eq] at href
    have hkept := (Statement.referencesAll_linkAll_sublist r.names p.statements).subset href
    obtain ⟨source, hsource, rfl⟩ := List.mem_map.mp hkept
    rw [source.name_linkOrKeep]
    exact mem_mentioned hget hsource
  have hlink := hq.link_eq_placeOf_iff.mpr (hstray caller p hcaller hget) ref href
  have hmoved : (ref.moved r'.names).link = placeOf r'.names ref.name := rfl
  rw [hlink, hmoved]
  have hdefined := h.mem_names_iff hcaller hmentions
  cases hplace : placeOf r.names ref.name with
  | none =>
    rw [placeOf_eq_none_iff, ← hdefined, ← placeOf_eq_none_iff] at hplace
    rw [hplace]
    exact .none
  | some id =>
    cases hplace' : placeOf r'.names ref.name with
    | none =>
      rw [placeOf_eq_none_iff, hdefined, ← placeOf_eq_none_iff, hplace] at hplace'
      cases hplace'
    | some id' => exact .some ⟨ref.name, .step hcaller hmentions, hplace, hplace'⟩

/-- **The frozen tables are renamings of each other** on the policies that can be reached. -/
theorem table_renaming (hstray : r.NoStrayLinksFrom policy) :
    r.table.Renaming r'.table (SamePolicy r r' policy) where
  place_eq_iff := by
    rintro a b a' b' ⟨name, -, ha, hb⟩ ⟨name', -, ha', hb'⟩
    constructor
    · rintro rfl
      have hname : name = name' :=
        (r.nameOf_of_placeOf ha).2.symm.trans (r.nameOf_of_placeOf ha').2
      rw [hname, hb', Option.some.injEq] at hb
      exact hb.symm
    · rintro rfl
      have hname : name = name' :=
        (r'.nameOf_of_placeOf hb).2.symm.trans (r'.nameOf_of_placeOf hb').2
      rw [hname, ha', Option.some.injEq] at ha
      exact ha.symm
  nameOf_eq := by
    rintro a b ⟨name, -, ha, hb⟩
    rw [(r.nameOf_of_placeOf ha).2, (r'.nameOf_of_placeOf hb).2]
  policy := by
    rintro a b ⟨name, hname, ha, hb⟩
    obtain ⟨p, q, hget, hp, hpname, ht, hq⟩ := r.get?_of_placeOf ha
    have hget' : r'.policies[b.index]? = some p :=
      r'.getElem?_of_placeOf ((h.mem_iff p).mpr (.inl hp)) (hpname ▸ hb)
    obtain ⟨q', ht', hq'⟩ := r'.get?_table_of_some hget'
    rw [ht, ht']
    refine .some ⟨hq.name_eq.trans hq'.name_eq.symm, .moved r'.names, ?_, ?_⟩
    · rw [hq.statements_eq, hq'.statements_eq]
      exact (Policy.linkAll_moved (hstray name p hname hget) fun ref href =>
        h.mem_names_iff hname (mem_mentioned hget href)).symm
    · intro ref href
      exact h.link_related hstray hname hget hq href

end UnrelatedExtension

/-- **Adding unrelated policies changes nothing**, unless a stray link is in the way.  Where no
policy that can be reached from a policy mentions a new one, or has a stray link, the policy
decides, writes or fails on every route as before, and its evaluation records the same diagnostics,
although all places in the table may have changed. -/
theorem evaluate_extension (r r' : Registry) (added : List Policy) (policy : String)
    (hstray : r.NoStrayLinksFrom policy) (hpolicy : policy ∈ r.names)
    (h : UnrelatedExtension r r' added policy) (s : Settings) (route : Route) (d : Direction) :
    (r'.freeze.2.evaluate s policy route d).2 = (r.freeze.2.evaluate s policy route d).2 ∧
      diagnosticsOf (r'.freeze.2.evaluate s policy route d).1 =
        diagnosticsOf (r.freeze.2.evaluate s policy route d).1 := by
  show (r'.table.evaluate s policy route d).2 = (r.table.evaluate s policy route d).2 ∧
    diagnosticsOf (r'.table.evaluate s policy route d).1 =
      diagnosticsOf (r.table.evaluate s policy route d).1
  have hplace : Option.Rel (SamePolicy r r' policy) (r.table.idOf? policy)
      (r'.table.idOf? policy) := by
    rw [r.idOf?_table, r'.idOf?_table]
    cases hid : placeOf r.names policy with
    | none => exact absurd hpolicy (placeOf_eq_none_iff.mp hid)
    | some id =>
      cases hid' : placeOf r'.names policy with
      | none => exact absurd (h.mem_names hpolicy) (placeOf_eq_none_iff.mp hid')
      | some id' => exact .some ⟨policy, .start, hid, hid'⟩
  obtain ⟨hdiagnostics, hsame⟩ := (h.table_renaming hstray).evaluate_match rfl hplace route
  exact ⟨hsame.eq.symm, hdiagnostics.symm⟩

/-- A new policy that stands in front of two policies which call each other and refer to an
undefined one, and a third policy that mentions the new one but cannot be reached. -/
theorem evaluate_extension_cycle :
    let first : Policy :=
      { name := "b"
        statements := [
          .setDefaultPolicy (.named "c"),
          .branch (.firstMatch [.named "missing", .named "c"])
            [.write .metric (.increment 3)] [.call (.named "missing")]] }
    let second : Policy :=
      { name := "c", statements := [.branch (.callPolicy (.named "b")) [] [.control .returnTrue]] }
    let caller : Policy := { name := "d", statements := [.call (.named "a"), .call (.named "b")] }
    let new : Policy := { name := "a", statements := [.control .exitReject] }
    let r : Registry := { policies := [first, second, caller], ascending := by decide }
    r.NoStrayLinksFrom "b" ∧ "b" ∈ r.names ∧ UnrelatedExtension r (r.insert new) [new] "b" ∧
      r.freeze.2.idOf? "b" = some ⟨0⟩ ∧ (r.insert new).freeze.2.idOf? "b" = some ⟨1⟩ ∧
      ((r.insert new).freeze.2.evaluate {} "b" {} .inbound).2 =
        (r.freeze.2.evaluate {} "b" {} .inbound).2 ∧
      diagnosticsOf ((r.insert new).freeze.2.evaluate {} "b" {} .inbound).1 =
        diagnosticsOf (r.freeze.2.evaluate {} "b" {} .inbound).1 := by
  intro first second caller new r
  have hstray : r.NoStrayLinksFrom "b" := NoStrayLinks.fromPolicy (by decide) "b"
  have hpolicy : "b" ∈ r.names := by decide
  have hextension : UnrelatedExtension r (r.insert new) [new] "b" := by
    refine ⟨fun p => ?_, fun name hname p hp => ?_⟩
    · rw [mem_insert_iff (by decide), List.mem_singleton]
    · have hnear : name ∈ ["b", "c", "missing"] := hname.mem_of_closed (by decide) (by decide)
      have hsilent : ∀ name ∈ ["b", "c", "missing"], "a" ∉ r.mentioned name := by decide
      rw [List.mem_singleton.mp hp]
      exact hsilent name hnear
  exact ⟨hstray, hpolicy, hextension, by decide, by decide,
    evaluate_extension r (r.insert new) [new] "b" hstray hpolicy hextension {} {} .inbound⟩

/-- **A new policy takes the place that a stray link leads to.**  A policy that asks the undefined
policy "a" is taken out of the table in which "a" was the first policy.  By itself it stands at that
place, so that it asks itself; behind a new policy "b" it asks that one. -/
theorem evaluate_extension_stray :
    let asking (ref : Reference) : Policy :=
      { name := "p"
        statements := [.branch (.callPolicy ref) [.control .exitAccept] [.control .exitReject]] }
    let first (name : String) : Policy := { name, statements := [.control .returnTrue] }
    let old : Registry := { policies := [first "a", asking (.named "a")], ascending := by decide }
    let taken : Policy :=
      { asking ((Reference.named "a").linked ⟨0⟩) with sources := .ofList ["p"] }
    let r : Registry := { policies := [taken], ascending := by decide }
    let r' : Registry := r.insert (first "b")
    old.freeze.2.resolve? "p" = some taken ∧
      "p" ∈ r.names ∧ UnrelatedExtension r r' [first "b"] "p" ∧
      (r.freeze.2.evaluate {} "p" {} .inbound).2 = .ok ⟨.reject, .empty⟩ ∧
      diagnosticsOf (r.freeze.2.evaluate {} "p" {} .inbound).1 =
        [{ policy := "p", finding := .callCycle ["p", "p"] }] ∧
      (r'.freeze.2.evaluate {} "p" {} .inbound).2 = .ok ⟨.accept, .empty⟩ ∧
      diagnosticsOf (r'.freeze.2.evaluate {} "p" {} .inbound).1 = [] := by
  intro asking first old taken r r'
  have hextension : UnrelatedExtension r r' [first "b"] "p" := by
    refine ⟨fun p => ?_, fun name hname p hp => ?_⟩
    · exact (mem_insert_iff (by decide)).trans (or_congr_right List.mem_singleton.symm)
    · have hnear : name ∈ ["p", "a"] := hname.mem_of_closed (by decide) (by decide)
      have hsilent : ∀ name ∈ ["p", "a"], "b" ∉ r.mentioned name := by decide
      rw [List.mem_singleton.mp hp]
      exact hsilent name hnear
  have hbefore : (r.freeze.2.evaluate {} "p" {} .inbound).2 = .ok ⟨.reject, .empty⟩ ∧
      diagnosticsOf (r.freeze.2.evaluate {} "p" {} .inbound).1 =
        [{ policy := "p", finding := .callCycle ["p", "p"] }] :=
    Machine.evaluate_of_halts 7 (by decide)
  have hafter : (r'.freeze.2.evaluate {} "p" {} .inbound).2 = .ok ⟨.accept, .empty⟩ ∧
      diagnosticsOf (r'.freeze.2.evaluate {} "p" {} .inbound).1 = [] :=
    Machine.evaluate_of_halts 10 (by decide)
  exact ⟨by decide, by decide, hextension, hbefore.1, hbefore.2, hafter.1, hafter.2⟩

end Registry

end RoutePolicy
