import RoutePolicy.Proofs.Configuration.Asked
import RoutePolicy.Proofs.Configuration.Entries
import RoutePolicy.Proofs.Configuration.Report

/-!
# What the table of a configuration holds

The table of a configuration holds the policies of its statements and its derived policies, each
once.  Whatever a builder refers to on its own is among them, and so it is linked; the only
references that can be undefined are those that the configuration makes itself.

* `Configuration.prepared` — a policy as it goes into the table;
* `Configuration.Converted.exists_linked`, `Configuration.Converted.linked_of_mem` — the policies of
  the table and those of the registry;
* `Configuration.Mentions`, `Configuration.Derives.mentions_or_derives` — what derived policies
  refer to;
* `Table.Links` — a reference to a policy of the table;
* `Configuration.Inventory`, `Configuration.inventory_of_convert` — everything together.
-/

set_option autoImplicit false

namespace RoutePolicy

/-- A reference to the policy of a name, linked to its place in the table. -/
def Table.Links (t : Table) (name : String) (ref : Reference) : Prop :=
  ∃ id, t.idOf? name = some id ∧ ref = (Reference.named name).linked id

theorem Statement.linkAll_setDefaultPolicy {names : List String} {name : String} {id : PolicyId}
    (h : placeOf names name = some id) (ss : List Statement) :
    linkAll names (.setDefaultPolicy (.named name) :: ss) =
      .setDefaultPolicy ((Reference.named name).linked id) :: linkAll names ss := by
  simp [linkAll, link?, Reference.link?, Reference.named, h]

theorem Derived.simplify_ribGroupPolicy (group : String) (p : Protocol) (policies : List String) :
    (ribGroupPolicy group p policies).simplify = ribGroupPolicy group p policies := by
  have hchain : (policies.map Reference.named ++
      [Reference.named (protocolDefaultName p .inbound)]).isEmpty = false := by simp
  simp only [ribGroupPolicy, Policy.derived, Policy.simplify, Statement.simplifyAll,
    Statement.simplifyEach, Statement.simplify, Condition.simplify, hchain]
  rfl

theorem Derived.linkAll_ribGroupPolicy {names : List String} {group : String} {p : Protocol}
    {id : PolicyId} (h : placeOf names (protocolDefaultName p .inbound) = some id)
    {policies : List String} :
    let ref := (Reference.named (protocolDefaultName p .inbound)).linked id
    Statement.linkAll names (ribGroupPolicy group p policies).statements =
      [.setDefaultPolicy ref,
        .branch (.firstMatch ((policies.map Reference.named).filterMap (·.link? names) ++ [ref]))
          [.control .exitAccept] [.control .exitReject]] := by
  simp [ribGroupPolicy, Policy.derived, Statement.linkAll, Statement.link?, Condition.link,
    Reference.link?, Reference.named, h]

theorem Derived.linkAll_instanceImportGate {names : List String} {vrf : String} {id : PolicyId}
    (h : placeOf names (instanceImportPolicyName vrf) = some id) :
    Statement.linkAll names (instanceImportGate vrf).statements =
      [.branch (.callPolicy ((Reference.named (instanceImportPolicyName vrf)).linked id))
        [.control .exitAccept] [.control .exitReject]] := by
  simp [instanceImportGate, Policy.derived, Statement.linkAll, Statement.link?, Condition.link,
    Reference.linkOrKeep, Reference.link?, Reference.named, h]

namespace Configuration

/-- A policy as it goes into the table: simplified when the configuration says so. -/
def prepared (c : Configuration) (p : Policy) : Policy := if c.simplify then p.simplify else p

/-- An entry of the configuration names the policy. -/
inductive Mentions (c : Configuration) (name : String) : Prop where
  | statement (s : PolicyStatement) (mem : s ∈ c.policyStatements) (asks : s.Asks name)
  | peer (p : Peer) (mem : p ∈ c.peers) (side : Direction) (members : List String)
    (chain : (side, members) ∈ p.chains) (name_mem : name ∈ members)
  | aggregate (a : Aggregate) (mem : a ∈ c.aggregates) (name_mem : name ∈ a.policies)
  | ribGroup (g : RibGroup) (mem : g ∈ c.ribGroups) (name_mem : name ∈ g.inbound)
  | instanceImport (i : InstanceImport) (mem : i ∈ c.instanceImports) (name_mem : name ∈ i.policies)

/-- A policy that the table of the configuration has to hold. -/
def Defines (c : Configuration) (p : Policy) : Prop :=
  (∃ s ∈ c.policyStatements, s.compile c.prefixLists = p) ∨ ∃ title, c.Derives title p

/-- What the table of a configuration holds, and what is reported about undefined policies. -/
structure Inventory (c : Configuration) (notices : List Notice) (t : Table) : Prop where
  /-- No two policies of the table have one name. -/
  nodup_names : t.names.Nodup
  /-- Every policy of the table is one that the configuration defines. -/
  defined : ∀ q ∈ t.policies, ∃ p, c.Defines p ∧ q.LinkedFrom t.names (c.prepared p)
  /-- Every policy that the configuration defines is in the table. -/
  held : ∀ p, c.Defines p → ∃ q, t.resolve? p.name = some q ∧ q.LinkedFrom t.names (c.prepared p)
  /-- The derived policies are those with reserved names. -/
  isDerived_eq : ∀ q ∈ t.policies, q.isDerived = isReservedName q.name
  /-- The chains of a peer begin with the default of its protocol. -/
  peerChain_linked : ∀ peer ∈ c.peers, ∀ side members, (side, members) ∈ peer.chains →
    ∃ q ref rest, t.resolve? (Derived.peerChainName peer.name side) = some q ∧
      t.Links (Derived.protocolDefaultName peer.protocol side) ref ∧
      q.statements = .setDefaultPolicy ref :: rest
  /-- The policy of a RIB group begins with the default of its protocol, and closes with it. -/
  ribGroupPolicy_linked : ∀ group ∈ c.ribGroups,
    ∃ q ref members, t.resolve? (Derived.ribGroupPolicyName group.name) = some q ∧
      t.Links (Derived.protocolDefaultName group.protocol .inbound) ref ∧
      q.statements = [.setDefaultPolicy ref,
        .branch (.firstMatch (members ++ [ref])) [.control .exitAccept] [.control .exitReject]]
  /-- The policy of an instance begins with the policy that rejects everything. -/
  instanceImportPolicy_linked : ∀ i ∈ c.instanceImports,
    ∃ q ref rest, t.resolve? (Derived.instanceImportPolicyName i.vrf) = some q ∧
      t.Links Derived.defaultRejectName ref ∧ q.statements = .setDefaultPolicy ref :: rest
  /-- The gate of an instance asks the policy of the instance. -/
  instanceImportGate_linked : ∀ i ∈ c.instanceImports,
    ∃ q ref, t.resolve? (Derived.instanceImportGateName i.vrf) = some q ∧
      t.Links (Derived.instanceImportPolicyName i.vrf) ref ∧
      q.statements =
        [.branch (.callPolicy ref) [.control .exitAccept] [.control .exitReject]]
  /-- What is reported as undefined is named by the configuration, and not in the table. -/
  undefined : ∀ d ∈ diagnosticsOf notices, ∀ name,
    d.finding = .undefinedReference .policy name → c.Mentions name ∧ name ∉ t.names

variable {c : Configuration} {r : Registry} {t : Table} {title : Derived.Title} {p : Policy}

theorem name_prepared (c : Configuration) (p : Policy) : (c.prepared p).name = p.name := by
  unfold prepared
  split <;> rfl

theorem isDerived_prepared (c : Configuration) (p : Policy) :
    (c.prepared p).isDerived = p.isDerived := by
  unfold prepared
  split <;> rfl

/-- The registry that is frozen holds the prepared policies. -/
theorem policies_frozen (c : Configuration) (r : Registry) :
    (if c.simplify then r.simplifyAll else r).policies = r.policies.map c.prepared := by
  unfold prepared
  split
  · rfl
  · exact (List.map_id _).symm

/-- A program that begins with a default policy still does when it is simplified. -/
theorem prepared_setDefaultPolicy (c : Configuration) {target : Reference} {ss : List Statement}
    (h : p.statements = .setDefaultPolicy target :: ss) :
    ∃ rest, (c.prepared p).statements = .setDefaultPolicy target :: rest := by
  unfold prepared
  split
  · refine ⟨Statement.simplifyAll ss, ?_⟩
    rw [Policy.simplify, h]
    rfl
  · exact ⟨ss, h⟩

theorem prepared_of_simplify (c : Configuration) (h : p.simplify = p) : c.prepared p = p := by
  unfold prepared
  split
  · exact h
  · rfl

/-! ## Policies of the table -/

namespace Converted

theorem names_frozen (h : c.Converted r t) :
    t.names = (if c.simplify then r.simplifyAll else r).names := by
  rw [h.table_eq]
  exact Registry.names_table _

theorem names_eq (h : c.Converted r t) : t.names = r.names := by
  rw [h.names_frozen]
  split
  · exact r.names_simplifyAll
  · rfl

theorem linked_of_mem (h : c.Converted r t) {q : Policy} (hq : q ∈ t.policies) :
    ∃ p ∈ r.policies, q.LinkedFrom t.names (c.prepared p) := by
  have hnames := h.names_frozen
  rw [h.table_eq] at hq
  obtain ⟨p', hp', hlinked⟩ := Registry.exists_of_mem_table hq
  rw [policies_frozen] at hp'
  obtain ⟨p, hp, rfl⟩ := List.mem_map.mp hp'
  exact ⟨p, hp, hnames ▸ hlinked⟩

theorem exists_linked (h : c.Converted r t) (hp : p ∈ r.policies) :
    ∃ q, t.resolve? p.name = some q ∧ q.LinkedFrom t.names (c.prepared p) := by
  have hnames := h.names_frozen
  have hmem : c.prepared p ∈ (if c.simplify then r.simplifyAll else r).policies := by
    rw [policies_frozen]
    exact List.mem_map_of_mem hp
  obtain ⟨i, hi⟩ := List.getElem?_of_mem hmem
  have hget : (if c.simplify then r.simplifyAll else r).policies[(PolicyId.mk i).index]? =
      some (c.prepared p) := hi
  obtain ⟨q, hq, hlinked⟩ := Registry.get?_table_of_some _ hget
  refine ⟨q, ?_, hnames ▸ hlinked⟩
  have hplace : placeOf (if c.simplify then r.simplifyAll else r).names p.name = some ⟨i⟩ :=
    (Registry.placeOf_names_iff _).mpr ⟨_, hi, c.name_prepared p⟩
  rw [Table.resolve?, h.table_eq, Registry.idOf?_table, hplace]
  exact hq

/-- A reference to a derived policy of the configuration is linked. -/
theorem exists_links (h : c.Converted r t) (title : Derived.Title) (hp : c.Derives title p) :
    ∃ id, placeOf t.names title.name = some id ∧
      t.Links title.name ((Reference.named title.name).linked id) := by
  obtain ⟨id, _, hplace, hid, -⟩ := h.entry (h.mem_of_derives title hp)
  rw [hp.name_eq] at hplace hid
  exact ⟨id, h.names_eq ▸ hplace, id, hid, rfl⟩

/-- A derived policy of the configuration as it stands in the table. -/
theorem exists_linked_derived (h : c.Converted r t) (title : Derived.Title)
    (hp : c.Derives title p) :
    ∃ q, t.resolve? title.name = some q ∧
      q.statements = Statement.linkAll t.names (c.prepared p).statements := by
  obtain ⟨q, hq, hlinked⟩ := h.exists_linked (h.mem_of_derives title hp)
  exact ⟨q, hp.name_eq ▸ hq, hlinked.statements_eq⟩

/-- A policy that begins with a default policy still does when it is in the table. -/
theorem exists_linked_setDefaultPolicy (h : c.Converted r t) (title : Derived.Title)
    (hp : c.Derives title p) (title' : Derived.Title) {p' : Policy} (hdefault : c.Derives title' p')
    {ss : List Statement}
    (hstatements : p.statements = .setDefaultPolicy (.named title'.name) :: ss) :
    ∃ q ref rest, t.resolve? title.name = some q ∧ t.Links title'.name ref ∧
      q.statements = .setDefaultPolicy ref :: rest := by
  obtain ⟨q, hq, hlinked⟩ := h.exists_linked_derived title hp
  obtain ⟨id, hplace, hlinks⟩ := h.exists_links title' hdefault
  obtain ⟨rest, hrest⟩ := prepared_setDefaultPolicy c hstatements
  refine ⟨q, _, Statement.linkAll t.names rest, hq, hlinks, ?_⟩
  rw [hlinked, hrest, Statement.linkAll_setDefaultPolicy hplace]

end Converted

/-! ## References of builders -/

/-- A derived policy refers to what the configuration names, and to other derived policies. -/
theorem Derives.mentions_or_derives (h : c.Derives title p) {ref : Reference}
    (href : ref ∈ Statement.referencesAll p.statements) :
    c.Mentions ref.name ∨ ∃ title' p', c.Derives title' p' ∧ ref.name = title'.name := by
  cases title with
  | defaultReject | defaultAccept =>
    obtain rfl := h
    cases href
  | protocolDefault =>
    obtain ⟨-, rfl⟩ := h
    cases href
  | peerChain name side =>
    obtain ⟨peer, hpeer, rfl, members, hside, rfl⟩ := h
    have hreferences : ref ∈ .named (Derived.protocolDefaultName peer.protocol side) ::
        Statement.referencesAll (members.map fun p => .call (.named p)) := href
    rw [Derived.referencesAll_calls] at hreferences
    rcases List.mem_cons.mp hreferences with rfl | hnamed
    · exact .inr ⟨.protocolDefault peer.protocol side, _,
        ⟨.inl ⟨peer, hpeer, rfl, Peer.exists_chain_iff.mp ⟨members, hside⟩⟩, rfl⟩, rfl⟩
    · obtain ⟨member, hmember, rfl⟩ := List.mem_map.mp hnamed
      exact .inl (.peer peer hpeer side members hside hmember)
  | generationPolicy base =>
    obtain ⟨a, ha, rfl, rfl⟩ := h
    have hreferences : ref ∈ Statement.referencesAll (a.policies.map fun p => .call (.named p)) :=
      href
    rw [Derived.referencesAll_calls] at hreferences
    obtain ⟨member, hmember, rfl⟩ := List.mem_map.mp hreferences
    exact .inl (.aggregate a ha hmember)
  | ribGroupPolicy name =>
    obtain ⟨g, hg, rfl, rfl⟩ := h
    simp only [Derived.ribGroupPolicy, Policy.derived, Statement.referencesAll,
      Statement.references, Condition.references, List.mem_append, List.mem_cons, List.mem_map,
      List.not_mem_nil, or_false] at href
    have hdefault : c.Derives (.protocolDefault g.protocol .inbound) _ :=
      ⟨.inr ⟨g, hg, rfl, rfl⟩, rfl⟩
    rcases href with rfl | ⟨member, hmember, rfl⟩ | rfl
    · exact .inr ⟨_, _, hdefault, rfl⟩
    · exact .inl (.ribGroup g hg hmember)
    · exact .inr ⟨_, _, hdefault, rfl⟩
  | instanceImportPolicy vrf =>
    obtain ⟨i, hi, rfl, rfl⟩ := h
    simp only [Derived.instanceImportPolicy, Policy.derived, Statement.referencesAll,
      Statement.references, Condition.references, List.mem_append, List.mem_cons, List.mem_map,
      List.not_mem_nil, or_false] at href
    rcases href with rfl | ⟨member, hmember, rfl⟩
    · exact .inr ⟨.defaultReject, _, rfl, rfl⟩
    · exact .inl (.instanceImport i hi hmember)
  | instanceImportGate vrf =>
    obtain ⟨⟨i, hi, rfl⟩, rfl⟩ := h
    obtain rfl := List.mem_singleton.mp href
    exact .inr ⟨.instanceImportPolicy i.vrf, _, ⟨i, hi, rfl, rfl⟩, rfl⟩

/-- A reference of a policy in the frozen registry that leads nowhere is one that the configuration
names. -/
theorem Converted.mentions_of_dangling (h : c.Converted r t) (hp : p ∈ r.policies)
    {ref : Reference} (href : ref ∈ (c.prepared p).dangling t.names) :
    c.Mentions ref.name ∧ ref.name ∉ t.names := by
  obtain ⟨hmem, hnone⟩ := List.mem_filter.mp href
  rw [Option.isNone_iff_eq_none] at hnone
  have habsent : ref.name ∉ t.names := placeOf_eq_none_iff.mp hnone
  have hwritten : ref ∈ Statement.referencesAll p.statements := by
    unfold prepared at hmem
    split at hmem
    · exact (Statement.referencesAll_simplifyAll_sublist p.statements).subset hmem
    · exact hmem
  refine ⟨?_, habsent⟩
  rcases h.mem_policies_iff.mp hp with ⟨s, hs, rfl⟩ | ⟨title, hderives⟩
  · obtain ⟨-, hasks⟩ := PolicyStatement.of_mem_references hwritten
    exact .statement s hs hasks
  · rcases hderives.mentions_or_derives hwritten with hmentions | ⟨title', p', hderives', hname⟩
    · exact hmentions
    · obtain ⟨id, hplace, -⟩ := h.exists_links title' hderives'
      rw [← hname, hnone] at hplace
      cases hplace

/-- **The table of a configuration is closed, and its names say who wrote its policies.**  The table
holds exactly the policies of the statements and the derived policies of the configuration, each
once.  A policy is derived exactly when its name is reserved.  What the builders refer to on their
own is linked to the policy of that name, and every finding about an undefined policy names one that
the configuration mentions itself. -/
theorem inventory_of_convert {notices : List Notice} (hconvert : c.convert = (notices, .ok t)) :
    c.Inventory notices t := by
  obtain ⟨r, h, hreport⟩ := exists_converted_report hconvert
  refine
    { nodup_names := ?_
      defined := fun q hq => ?_
      held := fun p hp => h.exists_linked (h.mem_policies_iff.mpr hp)
      isDerived_eq := fun q hq => ?_
      peerChain_linked := fun peer hpeer side members hside => ?_
      ribGroupPolicy_linked := fun group hgroup => ?_
      instanceImportPolicy_linked := fun i hi => ?_
      instanceImportGate_linked := fun i hi => ?_
      undefined := fun d hd name hfinding => ?_ }
  · exact List.pairwise_map.mpr (t.ascending.imp KeyOrder.ne_of_lt)
  · obtain ⟨p, hp, hlinked⟩ := h.linked_of_mem hq
    exact ⟨p, h.mem_policies_iff.mp hp, hlinked⟩
  · obtain ⟨p, hp, hlinked⟩ := h.linked_of_mem hq
    have hderived : q.isDerived = p.isDerived :=
      (congrArg (· == Authorship.derived) hlinked.origin_eq).trans (c.isDerived_prepared p)
    rw [hderived, hlinked.name_eq, c.name_prepared]
    rcases h.mem_policies_iff.mp hp with ⟨s, -, rfl⟩ | ⟨title, hderives⟩
    · exact ((h.namesAllowed _ hp).resolve_left Bool.false_ne_true).symm
    · rw [hderives.built.derived, hderives.built.reserved]
  · exact h.exists_linked_setDefaultPolicy (.peerChain peer.name side)
      ⟨peer, hpeer, rfl, members, hside, rfl⟩ (.protocolDefault peer.protocol side)
      ⟨.inl ⟨peer, hpeer, rfl, Peer.exists_chain_iff.mp ⟨members, hside⟩⟩, rfl⟩ rfl
  · obtain ⟨q, hq, hlinked⟩ :=
      h.exists_linked_derived (.ribGroupPolicy group.name) ⟨group, hgroup, rfl, rfl⟩
    obtain ⟨id, hplace, hlinks⟩ := h.exists_links
      (.protocolDefault group.protocol .inbound) ⟨.inr ⟨group, hgroup, rfl, rfl⟩, rfl⟩
    rw [c.prepared_of_simplify (Derived.simplify_ribGroupPolicy _ _ _)] at hlinked
    exact ⟨q, _, _, hq, hlinks, hlinked.trans (Derived.linkAll_ribGroupPolicy hplace)⟩
  · exact h.exists_linked_setDefaultPolicy (.instanceImportPolicy i.vrf) ⟨i, hi, rfl, rfl⟩
      .defaultReject rfl rfl
  · obtain ⟨q, hq, hlinked⟩ :=
      h.exists_linked_derived (.instanceImportGate i.vrf) ⟨⟨i, hi, rfl⟩, rfl⟩
    obtain ⟨id, hplace, hlinks⟩ :=
      h.exists_links (.instanceImportPolicy i.vrf) ⟨i, hi, rfl, rfl⟩
    rw [c.prepared_of_simplify rfl] at hlinked
    exact ⟨q, _, hq, hlinks, hlinked.trans (Derived.linkAll_instanceImportGate hplace)⟩
  · rw [hreport, List.mem_append] at hd
    rcases hd with hd | hd
    · have hcompiled : NoUndefinedPolicy (c.policyStatements.flatMap (·.notices c.prefixLists)) :=
        .flatMap fun s _ => s.noUndefinedPolicy_notices c.prefixLists
      exact absurd hfinding (hcompiled d hd name)
    · obtain ⟨p', hp', ref, href, rfl⟩ := Registry.mem_diagnosticsOf_freezeNotices.mp hd
      rw [policies_frozen] at hp'
      obtain ⟨p, hp, rfl⟩ := List.mem_map.mp hp'
      obtain rfl : ref.name = name := (Finding.undefinedReference.inj hfinding).2
      exact h.mentions_of_dangling hp (h.names_frozen ▸ href)

/-- Two peers that share the defaults of their protocol, a RIB group that shares one of them and an
instance, with undefined policies, a derived one and a policy of their own among the members. -/
theorem inventory_of_convert_shared :
    let c : Configuration :=
      { policyStatements := [
          { name := "a", terms := [{ clauses := [.policy ["missing"]], actions := [.accept] }] }]
        peers := [{ name := "n", inbound := ["a", "gone"] }, { name := "~n:", outbound := ["a"] }]
        ribGroups := [{ name := "g", inbound := [Derived.peerChainName "~n:" .outbound] }]
        instanceImports := [{ vrf := "v" }]
        simplify := true }
    ∃ notices t, c.convert = (notices, .ok t) ∧ c.Inventory notices t := by
  intro c
  rcases hconvert : c.convert with ⟨notices, e | t⟩
  · have hok : c.convert.2.toBool = true := by decide +kernel
    rw [hconvert] at hok
    cases hok
  · exact ⟨notices, t, rfl, inventory_of_convert hconvert⟩

end Configuration

end RoutePolicy
