import RoutePolicy.Proofs.Derived.Names
import RoutePolicy.Proofs.Registry.Define

/-!
# The policies that a configuration defines

A configuration defines the policies of its statements, and derived policies.  Which derived
policies these are is said by their titles: what a title is made for, and the policy that the
configuration wants under it.

* `Configuration.definitions_eq` — the definitions of a configuration, entry by entry;
* `Configuration.filter_user_definitions`, `Configuration.notices_definitions` — only statements
  define policies of users, and only they report anything;
* `Configuration.Derives` — the derived policies of a configuration, title by title;
* `Configuration.Derives.name_eq` — they have the names of their titles;
* `Configuration.mem_definitions_iff` — the definitions of a configuration are its statements and
  its derived policies.
-/

set_option autoImplicit false

namespace RoutePolicy

namespace Peer

/-- The chains of a peer: which way a route goes, and the policies it passes. -/
def chains (p : Peer) : List (Direction × List String) :=
  [(.inbound, p.inbound), (.outbound, p.outbound)]

theorem exists_chain_iff {peer : Peer} {side : Direction} :
    (∃ members, (side, members) ∈ peer.chains) ↔ side = .inbound ∨ side = .outbound := by
  simp only [chains, List.mem_cons, Prod.mk.injEq, List.not_mem_nil, or_false, exists_or,
    exists_and_left, exists_eq, and_true]

/-- The definitions of a peer are the default of its protocol and the chain, for both chains. -/
theorem mem_definitions_iff {peer : Peer} {d : Definition} :
    d ∈ peer.definitions ↔ ∃ side members, (side, members) ∈ peer.chains ∧
      (d = { policy := Derived.protocolDefault peer.protocol side } ∨
        d = { policy := Derived.peerChain peer.name side
                (Derived.protocolDefaultName peer.protocol side) members }) := by
  simp only [definitions, chains, List.mem_flatMap, Prod.exists, List.mem_cons, List.not_mem_nil,
    or_false]

end Peer

theorem Peer.quiet_definitions (peer : Peer) : ∀ d ∈ peer.definitions, d.Quiet := by
  intro d hd
  obtain ⟨side, members, -, rfl | rfl⟩ := Peer.mem_definitions_iff.mp hd
  · exact ⟨rfl, rfl⟩
  · exact ⟨rfl, rfl⟩

/-- The definition of a policy statement. -/
def PolicyStatement.definition (lists : PrefixLists) (s : PolicyStatement) : Definition where
  notices := s.notices lists
  policy := s.compile lists

/-- The definitions of an aggregate. -/
def Aggregate.definitions (a : Aggregate) : List Definition :=
  [{ policy := Derived.generationPolicy a.base a.policies }]

theorem Aggregate.quiet_definitions (a : Aggregate) : ∀ d ∈ a.definitions, d.Quiet := by
  intro d hd
  obtain rfl := List.mem_singleton.mp hd
  exact ⟨rfl, rfl⟩

/-- The definitions of a RIB group. -/
def RibGroup.definitions (g : RibGroup) : List Definition :=
  [{ policy := Derived.protocolDefault g.protocol .inbound },
    { policy := Derived.ribGroupPolicy g.name g.protocol g.inbound }]

theorem RibGroup.quiet_definitions (g : RibGroup) : ∀ d ∈ g.definitions, d.Quiet := by
  intro d hd
  rcases List.mem_pair.mp hd with rfl | rfl
  · exact ⟨rfl, rfl⟩
  · exact ⟨rfl, rfl⟩

/-- The definitions of an import into an instance. -/
def InstanceImport.definitions (i : InstanceImport) : List Definition :=
  [{ policy := Derived.instanceImportPolicy i.vrf i.policies },
    { policy := Derived.instanceImportGate i.vrf }]

theorem InstanceImport.quiet_definitions (i : InstanceImport) : ∀ d ∈ i.definitions, d.Quiet := by
  intro d hd
  rcases List.mem_pair.mp hd with rfl | rfl
  · exact ⟨rfl, rfl⟩
  · exact ⟨rfl, rfl⟩

section

variable {α : Type} {f : α → List Definition} (hf : ∀ a, ∀ d ∈ f a, d.Quiet) (as : List α)

include hf

theorem filter_user_of_quiet :
    ((as.flatMap f).map Definition.policy).filter (!·.isDerived) = [] := by
  rw [List.filter_eq_nil_iff]
  intro p hp
  obtain ⟨d, hd, rfl⟩ := List.mem_map.mp hp
  obtain ⟨a, -, hd⟩ := List.mem_flatMap.mp hd
  simp [(hf a d hd).derived]

theorem notices_of_quiet : (as.flatMap f).flatMap Definition.notices = [] := by
  rw [List.flatMap_eq_nil_iff]
  intro d hd
  obtain ⟨a, -, hd⟩ := List.mem_flatMap.mp hd
  exact (hf a d hd).notices_eq

end

namespace Configuration

/-- The definitions of a configuration, entry by entry. -/
theorem definitions_eq (c : Configuration) :
    c.definitions = [{ policy := Derived.defaultReject }, { policy := Derived.defaultAccept }] ++
      (c.policyStatements.map (·.definition c.prefixLists) ++
        (c.peers.flatMap Peer.definitions ++ (c.aggregates.flatMap Aggregate.definitions ++
          (c.ribGroups.flatMap RibGroup.definitions ++
            c.instanceImports.flatMap InstanceImport.definitions)))) := by
  have haggregates : c.aggregates.flatMap Aggregate.definitions = c.aggregates.map fun a =>
      { policy := Derived.generationPolicy a.base a.policies } := List.map_eq_flatMap.symm
  rw [haggregates]
  simp only [definitions, List.append_assoc]
  rfl

/-- The policies that users wrote, in the order of their definitions. -/
theorem filter_user_definitions (c : Configuration) :
    (c.definitions.map Definition.policy).filter (!·.isDerived) =
      c.policyStatements.map (·.compile c.prefixLists) := by
  have hdefaults : ([Derived.defaultReject, Derived.defaultAccept] : List Policy).filter
      (!·.isDerived) = [] := rfl
  have hstatements : (c.policyStatements.map (·.compile c.prefixLists)).filter (!·.isDerived) =
      c.policyStatements.map (·.compile c.prefixLists) := by
    rw [List.filter_eq_self]
    intro p hp
    obtain ⟨s, -, rfl⟩ := List.mem_map.mp hp
    rfl
  have hcompiled : (c.policyStatements.map (·.definition c.prefixLists)).map Definition.policy =
      c.policyStatements.map (·.compile c.prefixLists) := List.map_map
  rw [definitions_eq]
  simp only [List.map_append, List.filter_append, hcompiled, hstatements,
    filter_user_of_quiet Peer.quiet_definitions, filter_user_of_quiet Aggregate.quiet_definitions,
    filter_user_of_quiet RibGroup.quiet_definitions,
    filter_user_of_quiet InstanceImport.quiet_definitions, List.map_cons, List.map_nil, hdefaults,
    List.nil_append, List.append_nil]

/-- What is reported while the policies of a configuration are made. -/
theorem notices_definitions (c : Configuration) :
    c.definitions.flatMap Definition.notices =
      c.policyStatements.flatMap (·.notices c.prefixLists) := by
  have hdefaults : ([{ policy := Derived.defaultReject }, { policy := Derived.defaultAccept }] :
      List Definition).flatMap Definition.notices = [] := rfl
  have hstatements : (c.policyStatements.map (·.definition c.prefixLists)).flatMap
      Definition.notices = c.policyStatements.flatMap (·.notices c.prefixLists) :=
    List.flatMap_map _ _ _
  rw [definitions_eq]
  simp only [List.flatMap_append, hdefaults, hstatements, notices_of_quiet Peer.quiet_definitions,
    notices_of_quiet Aggregate.quiet_definitions, notices_of_quiet RibGroup.quiet_definitions,
    notices_of_quiet InstanceImport.quiet_definitions, List.nil_append, List.append_nil]

/-! ## Titles -/

/-- What a configuration wants under the title of a derived policy: always the two policies that
decide for everything; for a peer the default of its protocol and a chain, each for both
directions; a policy for an aggregate; the default of its protocol and a policy for a RIB group; a
policy and its gate for an instance. -/
def Derives (c : Configuration) : Derived.Title → Policy → Prop
  | .defaultReject, p => p = Derived.defaultReject
  | .defaultAccept, p => p = Derived.defaultAccept
  | .protocolDefault protocol d, p =>
    ((∃ peer ∈ c.peers, peer.protocol = protocol ∧ (d = .inbound ∨ d = .outbound)) ∨
      ∃ group ∈ c.ribGroups, group.protocol = protocol ∧ d = .inbound) ∧
    p = Derived.protocolDefault protocol d
  | .peerChain name d, p => ∃ peer ∈ c.peers, peer.name = name ∧
    ∃ members, (d, members) ∈ peer.chains ∧
      p = Derived.peerChain name d (Derived.protocolDefaultName peer.protocol d) members
  | .generationPolicy base, p => ∃ aggregate ∈ c.aggregates, aggregate.base = base ∧
    p = Derived.generationPolicy base aggregate.policies
  | .ribGroupPolicy name, p => ∃ group ∈ c.ribGroups, group.name = name ∧
    p = Derived.ribGroupPolicy name group.protocol group.inbound
  | .instanceImportPolicy vrf, p => ∃ i ∈ c.instanceImports, i.vrf = vrf ∧
    p = Derived.instanceImportPolicy vrf i.policies
  | .instanceImportGate vrf, p => (∃ i ∈ c.instanceImports, i.vrf = vrf) ∧
    p = Derived.instanceImportGate vrf

variable {c : Configuration} {title : Derived.Title} {p : Policy}

/-- A derived policy has the name of its title. -/
theorem Derives.name_eq (h : c.Derives title p) : p.name = title.name := by
  cases title with
  | defaultReject | defaultAccept =>
    obtain rfl := h
    rfl
  | protocolDefault | instanceImportGate =>
    obtain ⟨-, rfl⟩ := h
    rfl
  | peerChain =>
    obtain ⟨_, -, -, _, -, rfl⟩ := h
    rfl
  | generationPolicy | ribGroupPolicy | instanceImportPolicy =>
    obtain ⟨_, -, -, rfl⟩ := h
    rfl

/-- **What a configuration defines:** the policies of its statements, and its derived policies. -/
theorem mem_definitions_iff :
    (∃ d ∈ c.definitions, d.policy = p) ↔
      (∃ s ∈ c.policyStatements, s.compile c.prefixLists = p) ∨ ∃ title, c.Derives title p := by
  simp only [definitions_eq, Aggregate.definitions, RibGroup.definitions,
    InstanceImport.definitions, List.mem_append, List.mem_cons, List.not_mem_nil, or_false,
    List.mem_map, List.mem_flatMap]
  constructor
  · rintro ⟨d, (rfl | rfl) | ⟨s, hs, rfl⟩ | ⟨peer, hpeer, hd⟩ | ⟨a, ha, rfl⟩ |
      ⟨g, hg, rfl | rfl⟩ | ⟨i, hi, rfl | rfl⟩, rfl⟩
    · exact .inr ⟨.defaultReject, rfl⟩
    · exact .inr ⟨.defaultAccept, rfl⟩
    · exact .inl ⟨s, hs, rfl⟩
    · obtain ⟨side, members, hside, rfl | rfl⟩ := Peer.mem_definitions_iff.mp hd
      · exact .inr ⟨.protocolDefault peer.protocol side,
          .inl ⟨peer, hpeer, rfl, Peer.exists_chain_iff.mp ⟨members, hside⟩⟩, rfl⟩
      · exact .inr ⟨.peerChain peer.name side, peer, hpeer, rfl, members, hside, rfl⟩
    · exact .inr ⟨.generationPolicy a.base, a, ha, rfl, rfl⟩
    · exact .inr ⟨.protocolDefault g.protocol .inbound, .inr ⟨g, hg, rfl, rfl⟩, rfl⟩
    · exact .inr ⟨.ribGroupPolicy g.name, g, hg, rfl, rfl⟩
    · exact .inr ⟨.instanceImportPolicy i.vrf, i, hi, rfl, rfl⟩
    · exact .inr ⟨.instanceImportGate i.vrf, ⟨i, hi, rfl⟩, rfl⟩
  · rintro (⟨s, hs, rfl⟩ | ⟨title, h⟩)
    · exact ⟨_, .inr (.inl ⟨s, hs, rfl⟩), rfl⟩
    · cases title with
      | defaultReject => exact ⟨_, .inl (.inl rfl), h.symm⟩
      | defaultAccept => exact ⟨_, .inl (.inr rfl), h.symm⟩
      | protocolDefault protocol d =>
        obtain ⟨⟨peer, hpeer, rfl, hd⟩ | ⟨group, hgroup, rfl, rfl⟩, rfl⟩ := h
        · obtain ⟨members, hside⟩ := Peer.exists_chain_iff.mpr hd
          exact ⟨_, .inr (.inr (.inl ⟨peer, hpeer,
            Peer.mem_definitions_iff.mpr ⟨d, members, hside, .inl rfl⟩⟩)), rfl⟩
        · exact ⟨_, .inr (.inr (.inr (.inr (.inl ⟨group, hgroup, .inl rfl⟩)))), rfl⟩
      | peerChain name d =>
        obtain ⟨peer, hpeer, rfl, members, hside, rfl⟩ := h
        exact ⟨_, .inr (.inr (.inl ⟨peer, hpeer,
          Peer.mem_definitions_iff.mpr ⟨d, members, hside, .inr rfl⟩⟩)), rfl⟩
      | generationPolicy base =>
        obtain ⟨aggregate, haggregate, rfl, rfl⟩ := h
        exact ⟨_, .inr (.inr (.inr (.inl ⟨aggregate, haggregate, rfl⟩))), rfl⟩
      | ribGroupPolicy name =>
        obtain ⟨group, hgroup, rfl, rfl⟩ := h
        exact ⟨_, .inr (.inr (.inr (.inr (.inl ⟨group, hgroup, .inr rfl⟩)))), rfl⟩
      | instanceImportPolicy vrf =>
        obtain ⟨i, hi, rfl, rfl⟩ := h
        exact ⟨_, .inr (.inr (.inr (.inr (.inr ⟨i, hi, .inl rfl⟩)))), rfl⟩
      | instanceImportGate vrf =>
        obtain ⟨⟨i, hi, rfl⟩, rfl⟩ := h
        exact ⟨_, .inr (.inr (.inr (.inr (.inr ⟨i, hi, .inr rfl⟩)))), rfl⟩

end Configuration

end RoutePolicy
