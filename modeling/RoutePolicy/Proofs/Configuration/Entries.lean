import RoutePolicy.Proofs.Configuration.Converted

/-!
# The policies of a configuration

Where the policies of a configuration stand: what it says about statements, peers, aggregates, RIB
groups and instances, as policies of its registry, and their places in the table.

* `Configuration.Converted.mem_policies_iff` and the lemmas after it — the policies in the registry;
* `Configuration.Converted.idOf?_eq`, `Configuration.Converted.place_notMem`,
  `Configuration.Converted.entry_derived` — their places.
-/

set_option autoImplicit false

namespace RoutePolicy

namespace Configuration.Converted

variable {c : Configuration} {r : Registry} {t : Table}

/-! ## In the registry -/

theorem mem_policies_iff (h : c.Converted r t) {p : Policy} :
    p ∈ r.policies ↔
      (∃ s ∈ c.policyStatements, s.compile c.prefixLists = p) ∨ ∃ title, c.Derives title p :=
  (h.mem_iff p).trans mem_definitions_iff

theorem mem_statement (h : c.Converted r t) {statement : PolicyStatement}
    (hstatement : statement ∈ c.policyStatements) :
    statement.compile c.prefixLists ∈ r.policies :=
  h.mem_policies_iff.mpr (.inl ⟨statement, hstatement, rfl⟩)

/-- A derived policy of the configuration is in the registry. -/
theorem mem_of_derives (h : c.Converted r t) (title : Derived.Title) {p : Policy}
    (hp : c.Derives title p) : p ∈ r.policies :=
  h.mem_policies_iff.mpr (.inr ⟨title, hp⟩)

theorem mem_peer (h : c.Converted r t) {peer : Peer} (hpeer : peer ∈ c.peers) {side : Direction}
    {members : List String} (hside : (side, members) ∈ peer.chains) :
    Derived.protocolDefault peer.protocol side ∈ r.policies ∧
    Derived.peerChain peer.name side (Derived.protocolDefaultName peer.protocol side) members ∈
      r.policies := by
  constructor
  · refine h.mem_of_derives (.protocolDefault peer.protocol side) ⟨.inl ?_, rfl⟩
    exact ⟨peer, hpeer, rfl, Peer.exists_chain_iff.mp ⟨members, hside⟩⟩
  · exact h.mem_of_derives (.peerChain peer.name side)
      ⟨peer, hpeer, rfl, members, hside, rfl⟩

theorem mem_aggregate (h : c.Converted r t) {aggregate : Aggregate}
    (haggregate : aggregate ∈ c.aggregates) :
    Derived.generationPolicy aggregate.base aggregate.policies ∈ r.policies :=
  h.mem_of_derives (.generationPolicy aggregate.base) ⟨aggregate, haggregate, rfl, rfl⟩

theorem mem_ribGroup (h : c.Converted r t) {group : RibGroup} (hgroup : group ∈ c.ribGroups) :
    Derived.protocolDefault group.protocol .inbound ∈ r.policies ∧
    Derived.ribGroupPolicy group.name group.protocol group.inbound ∈ r.policies := by
  constructor
  · exact h.mem_of_derives (.protocolDefault group.protocol .inbound)
      ⟨.inr ⟨group, hgroup, rfl, rfl⟩, rfl⟩
  · exact h.mem_of_derives (.ribGroupPolicy group.name) ⟨group, hgroup, rfl, rfl⟩

theorem mem_instanceImport (h : c.Converted r t) {i : InstanceImport}
    (hi : i ∈ c.instanceImports) :
    Derived.instanceImportPolicy i.vrf i.policies ∈ r.policies ∧
    Derived.instanceImportGate i.vrf ∈ r.policies := by
  constructor
  · exact h.mem_of_derives (.instanceImportPolicy i.vrf) ⟨i, hi, rfl, rfl⟩
  · exact h.mem_of_derives (.instanceImportGate i.vrf) ⟨⟨i, hi, rfl⟩, rfl⟩

theorem mem_defaultReject (h : c.Converted r t) : Derived.defaultReject ∈ r.policies :=
  h.mem_of_derives .defaultReject rfl

/-! ## In the table -/

theorem idOf?_eq (h : c.Converted r t) (name : String) : t.idOf? name = placeOf r.names name := by
  rw [h.equivalent.idOf?_eq, r.idOf?_table]

/-- Policies with different programs have different places. -/
theorem place_notMem {q q' : Policy} (hq : q ∈ r.policies) (hq' : q' ∈ r.policies)
    {id id' : PolicyId} (hplace : placeOf r.names q.name = some id)
    (hplace' : placeOf r.names q'.name = some id')
    (hne : q.statements.head? ≠ q'.statements.head?) : id ∉ [id'] := by
  rw [List.mem_singleton]
  rintro rfl
  have hsame := (r.getElem?_of_placeOf hq hplace).symm.trans (r.getElem?_of_placeOf hq' hplace')
  exact hne (congrArg (fun q => q.statements.head?) (Option.some.inj hsame))

/-- The entry of a derived policy. -/
theorem entry_derived (h : c.Converted r t) {q : Policy} (hq : q ∈ r.policies)
    (hreserved : isReservedName q.name = true) :
    ∃ id p, placeOf r.names q.name = some id ∧ t.idOf? q.name = some id ∧ t.get? id = some p ∧
      isReservedName p.name = true ∧ ∀ s stack, t.runPolicy s stack p =
        Statement.performAll r.names (t.context s stack q.name) q.statements := by
  obtain ⟨id, p, hplace, hid, hg, hname, hrun⟩ := h.entry hq
  exact ⟨id, p, hplace, hid, hg, hname ▸ hreserved, hrun⟩

end Configuration.Converted

end RoutePolicy
