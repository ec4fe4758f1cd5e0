import RoutePolicy.Proofs.Configuration.Converted
import RoutePolicy.Proofs.Registry.Repeats

/-!
# Which configurations cannot be converted

A configuration fails to convert exactly when two of its entries want one name for different
policies, when two statements have one name, or when a statement has a reserved name.  Nothing else
can collide, since the names of derived policies are reserved, and say what they are made for.

* `Configuration.Collides` — the failures that the entries of a configuration lead to;
* `Configuration.Derives.eq_or_collides` — derived policies of one title;
* `Configuration.withoutRepeats`, `Configuration.convert_withoutRepeats` — repeated entries;
* `Configuration.convert_error_iff` — when the conversion fails, and which failure it gives.
-/

set_option autoImplicit false

namespace RoutePolicy

/-! ## Builders -/

namespace Derived

theorem named_injective : Function.Injective Reference.named := fun _ _ h =>
  congrArg Reference.name h

theorem protocolDefaultName_injective {p q : Protocol} {d : Direction}
    (h : protocolDefaultName p d = protocolDefaultName q d) : p = q := by
  have htitle : Title.protocolDefault p d = .protocolDefault q d := Title.name_injective h
  cases htitle
  rfl

theorem calls_injective {policies policies' : List String}
    (h : policies.map (fun p => Statement.call (.named p)) =
      policies'.map fun p => Statement.call (.named p)) : policies = policies' :=
  List.map_injective_iff.mpr (fun _ _ hp => named_injective (Statement.call.inj hp)) h

theorem peerChain_injective {peer : String} {d : Direction} {p p' : Protocol}
    {policies policies' : List String}
    (h : peerChain peer d (protocolDefaultName p d) policies =
      peerChain peer d (protocolDefaultName p' d) policies') : p = p' ∧ policies = policies' := by
  obtain ⟨hdefault, hcalls⟩ := List.cons.inj (congrArg Policy.statements h)
  exact ⟨protocolDefaultName_injective (named_injective (Statement.setDefaultPolicy.inj hdefault)),
    calls_injective hcalls⟩

theorem generationPolicy_injective {aggregate : Prefix} {policies policies' : List String}
    (h : generationPolicy aggregate policies = generationPolicy aggregate policies') :
    policies = policies' :=
  calls_injective (List.cons.inj (List.cons.inj (congrArg Policy.statements h)).2).2

theorem ribGroupPolicy_injective {group : String} {p p' : Protocol}
    {policies policies' : List String}
    (h : ribGroupPolicy group p policies = ribGroupPolicy group p' policies') :
    p = p' ∧ policies = policies' := by
  obtain ⟨hdefault, hbranch⟩ := List.cons.inj (congrArg Policy.statements h)
  have hprotocol : p = p' :=
    protocolDefaultName_injective (named_injective (Statement.setDefaultPolicy.inj hdefault))
  subst hprotocol
  obtain ⟨hguard, -, -⟩ := Statement.branch.inj (List.cons.inj hbranch).1
  exact ⟨rfl, List.map_injective_iff.mpr named_injective
    (List.append_cancel_right (Condition.firstMatch.inj hguard))⟩

theorem instanceImportPolicy_injective {vrf : String} {policies policies' : List String}
    (h : instanceImportPolicy vrf policies = instanceImportPolicy vrf policies') :
    policies = policies' := by
  obtain ⟨-, hbranch⟩ := List.cons.inj (congrArg Policy.statements h)
  obtain ⟨hguard, -, -⟩ := Statement.branch.inj (List.cons.inj hbranch).1
  exact List.map_injective_iff.mpr named_injective (Condition.firstMatch.inj hguard)

end Derived

namespace Configuration

/-- The failures that the entries of a configuration lead to. -/
inductive Collides (c : Configuration) : DefineError → Prop where
  | reserved {s : PolicyStatement} (mem : s ∈ c.policyStatements)
    (name_reserved : isReservedName s.name = true) : Collides c (.reservedName s.name)
  | statements {name : String} (twice : [name, name].Sublist (c.policyStatements.map (·.name))) :
    Collides c (.duplicate name)
  | peersInbound {p q : Peer} (mem : p ∈ c.peers) (mem' : q ∈ c.peers) (name_eq : p.name = q.name)
    (differ : p.protocol ≠ q.protocol ∨ p.inbound ≠ q.inbound) :
    Collides c (.duplicate (Derived.peerChainName p.name .inbound))
  | peersOutbound {p q : Peer} (mem : p ∈ c.peers) (mem' : q ∈ c.peers) (name_eq : p.name = q.name)
    (differ : p.protocol ≠ q.protocol ∨ p.outbound ≠ q.outbound) :
    Collides c (.duplicate (Derived.peerChainName p.name .outbound))
  | aggregates {a b : Aggregate} (mem : a ∈ c.aggregates) (mem' : b ∈ c.aggregates)
    (base_eq : a.base = b.base) (differ : a.policies ≠ b.policies) :
    Collides c (.duplicate (Derived.generationPolicyName a.base))
  | ribGroups {g h : RibGroup} (mem : g ∈ c.ribGroups) (mem' : h ∈ c.ribGroups)
    (name_eq : g.name = h.name) (differ : g.protocol ≠ h.protocol ∨ g.inbound ≠ h.inbound) :
    Collides c (.duplicate (Derived.ribGroupPolicyName g.name))
  | instanceImports {i j : InstanceImport} (mem : i ∈ c.instanceImports)
    (mem' : j ∈ c.instanceImports) (vrf_eq : i.vrf = j.vrf) (differ : i.policies ≠ j.policies) :
    Collides c (.duplicate (Derived.instanceImportPolicyName i.vrf))

variable {c : Configuration} {title : Derived.Title} {p q : Policy}

theorem eq_or_collides_peerChain {name : String} {side : Direction}
    (hp : c.Derives (.peerChain name side) p) (hq : c.Derives (.peerChain name side) q) :
    p = q ∨ c.Collides (.duplicate (Derived.peerChainName name side)) := by
  obtain ⟨peer, hpeer, rfl, members, hmembers, rfl⟩ := hp
  obtain ⟨peer', hpeer', hname, members', hmembers', rfl⟩ := hq
  by_cases hsame : peer.protocol = peer'.protocol ∧ members = members'
  · exact .inl (by rw [hsame.1, hsame.2])
  · right
    rw [not_and_or] at hsame
    simp only [Peer.chains, List.mem_cons, Prod.mk.injEq, List.not_mem_nil, or_false]
      at hmembers hmembers'
    rcases hmembers with ⟨rfl, rfl⟩ | ⟨rfl, rfl⟩
    · obtain ⟨-, rfl⟩ := hmembers'.resolve_right (by simp)
      exact .peersInbound hpeer hpeer' hname.symm hsame
    · obtain ⟨-, rfl⟩ := hmembers'.resolve_left (by simp)
      exact .peersOutbound hpeer hpeer' hname.symm hsame

/-- Two policies that a configuration wants under one title are the same, or collide. -/
theorem Derives.eq_or_collides (hp : c.Derives title p) (hq : c.Derives title q) :
    p = q ∨ c.Collides (.duplicate title.name) := by
  cases title with
  | defaultReject | defaultAccept => exact .inl (hp.trans hq.symm)
  | protocolDefault | instanceImportGate => exact .inl (hp.2.trans hq.2.symm)
  | peerChain name side => exact eq_or_collides_peerChain hp hq
  | generationPolicy base =>
    obtain ⟨a, ha, rfl, rfl⟩ := hp
    obtain ⟨b, hb, hbase, rfl⟩ := hq
    by_cases hsame : a.policies = b.policies
    · exact .inl (by rw [hsame])
    · exact .inr (.aggregates ha hb hbase.symm hsame)
  | ribGroupPolicy name =>
    obtain ⟨g, hg, rfl, rfl⟩ := hp
    obtain ⟨g', hg', hname, rfl⟩ := hq
    by_cases hsame : g.protocol = g'.protocol ∧ g.inbound = g'.inbound
    · exact .inl (by rw [hsame.1, hsame.2])
    · exact .inr (.ribGroups hg hg' hname.symm (not_and_or.mp hsame))
  | instanceImportPolicy vrf =>
    obtain ⟨i, hi, rfl, rfl⟩ := hp
    obtain ⟨j, hj, hvrf, rfl⟩ := hq
    by_cases hsame : i.policies = j.policies
    · exact .inl (by rw [hsame])
    · exact .inr (.instanceImports hi hj hvrf.symm hsame)

/-! ## Definitions -/

theorem names_user_definitions (c : Configuration) :
    ((c.definitions.map Definition.policy).filter (!·.isDerived)).map (·.name) =
      c.policyStatements.map (·.name) := by
  rw [filter_user_definitions, List.map_map]
  rfl

/-- Whether a policy of a configuration is derived is said by its name, unless a statement has a
reserved one. -/
theorem derives_or_user (hp : ∃ d ∈ c.definitions, d.policy = p)
    (hallowed : p.isDerived = true ∨ isReservedName p.name = false) :
    (∃ title, c.Derives title p ∧ isReservedName p.name = true) ∨
      p.isDerived = false ∧ isReservedName p.name = false := by
  rcases mem_definitions_iff.mp hp with ⟨s, -, rfl⟩ | ⟨title, hderives⟩
  · exact .inr ⟨rfl, hallowed.resolve_left Bool.false_ne_true⟩
  · exact .inl ⟨title, hderives, hderives.built.reserved⟩

/-- A policy that is refused after the definitions before it collides with one of them, or is a
statement with a reserved name. -/
theorem collides_of_refused {earlier later : List Definition} {d : Definition} {e : DefineError}
    (hsplit : c.definitions = earlier ++ d :: later)
    (hsettled : Policies.Settled (earlier.map Definition.policy))
    (hrefused : d.policy.Refused (earlier.map Definition.policy) e) : c.Collides e := by
  have hd : d ∈ c.definitions := by simp [hsplit]
  cases hrefused with
  | reserved huser hname =>
    rcases mem_definitions_iff.mp ⟨d, hd, rfl⟩ with ⟨s, hs, hpolicy⟩ | ⟨title, hderives⟩
    · rw [← hpolicy] at hname ⊢
      exact .reserved hs hname
    · rw [hderives.built.derived] at huser
      cases huser
  | duplicate q hq hname hallowed hdiffers =>
    have hqDefined : ∃ d ∈ c.definitions, d.policy = q := by
      obtain ⟨d', hd', hpolicy⟩ := List.mem_map.mp hq
      exact ⟨d', by simp [hsplit, hd'], hpolicy⟩
    rcases derives_or_user hqDefined (hsettled.allowed q hq) with
      ⟨title, hqDerives, hqReserved⟩ | ⟨hqUser, hqFree⟩
    · rcases derives_or_user ⟨d, hd, rfl⟩ hallowed with ⟨title', hderives, -⟩ | ⟨-, hfree⟩
      · have htitle : title = title' := Derived.Title.name_injective
          (hqDerives.name_eq.symm.trans (hname.trans hderives.name_eq))
        subst htitle
        rw [hderives.name_eq]
        exact (hqDerives.eq_or_collides hderives).resolve_left (hdiffers hderives.built.derived)
      · rw [hname, hfree] at hqReserved
        cases hqReserved
    · rcases derives_or_user ⟨d, hd, rfl⟩ hallowed with ⟨title', -, hreserved⟩ | ⟨huser, -⟩
      · rw [hname, hreserved] at hqFree
        cases hqFree
      · -- both are statements, the one behind the other
        have hpair : [q, d.policy].Sublist (c.definitions.map Definition.policy) := by
          rw [hsplit, List.map_append, List.map_cons]
          exact (List.singleton_sublist.mpr hq).append
            (List.singleton_sublist.mpr List.mem_cons_self)
        have hnames := (hpair.filter (!·.isDerived)).map (·.name)
        rw [names_user_definitions] at hnames
        simp only [List.filter_cons, hqUser, huser, Bool.not_false, if_true, List.filter_nil,
          List.map_cons, List.map_nil, hname] at hnames
        exact .statements hnames

/-- The policies of a configuration with a collision cannot be stored together. -/
theorem not_settled_of_collides {e : DefineError} (h : c.Collides e) :
    ¬ Policies.Settled (c.definitions.map Definition.policy) := by
  intro hsettled
  obtain ⟨hallowed, hdistinct, hshared⟩ := Policies.settled_iff.mp hsettled
  have hunique : ∀ title {p q}, c.Derives title p → c.Derives title q → p = q := by
    intro title p q hp hq
    have hmem : ∀ {p}, c.Derives title p → p ∈ c.definitions.map Definition.policy := fun hp =>
      List.mem_map.mpr (mem_definitions_iff.mpr (.inr ⟨title, hp⟩))
    exact hshared p (hmem hp) q (hmem hq) hp.built.derived (hp.name_eq.trans hq.name_eq.symm)
  cases h with
  | reserved hs hname =>
    have hs := hallowed _ (List.mem_map.mpr (mem_definitions_iff.mpr (.inl ⟨_, hs, rfl⟩)))
    rcases hs with hderived | hfree
    · cases hderived
    · exact Bool.noConfusion (hfree.symm.trans hname)
  | statements htwice =>
    rw [names_user_definitions] at hdistinct
    exact List.nodup_iff_sublist.mp hdistinct _ htwice
  | peersInbound hp hq hname hdiffer =>
    obtain ⟨hprotocol, hmembers⟩ := Derived.peerChain_injective
      (hunique (.peerChain _ .inbound) ⟨_, hp, rfl, _, List.mem_cons_self, rfl⟩
        ⟨_, hq, hname.symm, _, List.mem_cons_self, rfl⟩)
    rcases hdiffer with hne | hne
    · exact hne hprotocol
    · exact hne hmembers
  | peersOutbound hp hq hname hdiffer =>
    obtain ⟨hprotocol, hmembers⟩ := Derived.peerChain_injective
      (hunique (.peerChain _ .outbound)
        ⟨_, hp, rfl, _, List.mem_cons_of_mem _ List.mem_cons_self, rfl⟩
        ⟨_, hq, hname.symm, _, List.mem_cons_of_mem _ List.mem_cons_self, rfl⟩)
    rcases hdiffer with hne | hne
    · exact hne hprotocol
    · exact hne hmembers
  | aggregates ha hb hbase hdiffer =>
    exact hdiffer (Derived.generationPolicy_injective
      (hunique (.generationPolicy _) ⟨_, ha, rfl, rfl⟩ ⟨_, hb, hbase.symm, rfl⟩))
  | ribGroups hg hg' hname hdiffer =>
    obtain ⟨hprotocol, hmembers⟩ := Derived.ribGroupPolicy_injective
      (hunique (.ribGroupPolicy _) ⟨_, hg, rfl, rfl⟩ ⟨_, hg', hname.symm, rfl⟩)
    rcases hdiffer with hne | hne
    · exact hne hprotocol
    · exact hne hmembers
  | instanceImports hi hj hvrf hdiffer =>
    exact hdiffer (Derived.instanceImportPolicy_injective
      (hunique (.instanceImportPolicy _) ⟨_, hi, rfl, rfl⟩ ⟨_, hj, hvrf.symm, rfl⟩))

theorem convert_eq_error_iff {e : DefineError} :
    c.convert.2 = .error e ↔ (Registry.empty.defineAll c.definitions).2 = .error e := by
  rw [convert_snd]
  cases (Registry.empty.defineAll c.definitions).2 with
  | error e' => simp [Except.map]
  | ok r => simp [Except.map]

/-! ## Repeated entries -/

/-- The configuration with every peer, aggregate, RIB group and instance listed once. -/
def withoutRepeats (c : Configuration) : Configuration :=
  { c with
    peers := c.peers.eraseDups
    aggregates := c.aggregates.eraseDups
    ribGroups := c.ribGroups.eraseDups
    instanceImports := c.instanceImports.eraseDups }

/-- Repeated entries make no difference to the result of the conversion, or to what it reports. -/
theorem convert_withoutRepeats (c : Configuration) : c.withoutRepeats.convert = c.convert := by
  have hdefine : Registry.empty.defineAll c.withoutRepeats.definitions =
      Registry.empty.defineAll c.definitions := by
    rw [definitions_eq, definitions_eq]
    refine Registry.defineAll_append_congr fun _ r₁ _ =>
      Registry.defineAll_append_congr fun _ r₂ _ => ?_
    rw [Registry.defineAll_eraseDups Peer.quiet_definitions r₂ c.peers]
    refine Registry.defineAll_append_congr fun _ r₃ _ => ?_
    rw [Registry.defineAll_eraseDups Aggregate.quiet_definitions r₃ c.aggregates]
    refine Registry.defineAll_append_congr fun _ r₄ _ => ?_
    rw [Registry.defineAll_eraseDups RibGroup.quiet_definitions r₄ c.ribGroups]
    refine Registry.defineAll_append_congr fun _ r₅ _ => ?_
    have himports :=
      Registry.defineAll_eraseDups InstanceImport.quiet_definitions r₅ c.instanceImports []
    rw [List.append_nil, List.append_nil] at himports
    exact himports.symm
  unfold convert
  rw [hdefine]
  rfl

/-- **The conversion fails exactly on collisions.**  It fails when a statement has a reserved name,
when two statements share a name, or when two peers, aggregates, RIB groups or instances of one name
differ in what their policies are made of, and in no other case; whatever texts the names are made
of, no other two entries are in each other's way.  The failure is that of the first definition that
is refused after the ones before it.  Entries that are repeated as they are make no difference: they
are accepted, and their policies are defined and reported once. -/
theorem convert_error_iff (c : Configuration) :
    ((∃ e, c.convert.2 = .error e) ↔ ∃ e, c.Collides e) ∧
    (∀ e, c.convert.2 = .error e ↔ c.Collides e ∧
      ∃ earlier d later, c.definitions = earlier ++ d :: later ∧
        Policies.Settled (earlier.map Definition.policy) ∧
        d.policy.Refused (earlier.map Definition.policy) e) ∧
    c.withoutRepeats.convert = c.convert := by
  have hplain : ∀ d ∈ c.definitions, d.policy.isDerived = true → d.policy.Plain := fun d hd =>
    plain_of_mem_definitions hd
  have hfirst : ∀ e, c.convert.2 = .error e ↔ c.Collides e ∧
      ∃ earlier d later, c.definitions = earlier ++ d :: later ∧
        Policies.Settled (earlier.map Definition.policy) ∧
        d.policy.Refused (earlier.map Definition.policy) e := by
    intro e
    rw [convert_eq_error_iff, Registry.defineAll_error_iff hplain]
    constructor
    · rintro ⟨earlier, d, later, hsplit, hsettled, hrefused⟩
      exact ⟨collides_of_refused hsplit hsettled hrefused, earlier, d, later, hsplit, hsettled,
        hrefused⟩
    · exact And.right
  refine ⟨⟨fun ⟨e, he⟩ => ⟨e, ((hfirst e).mp he).1⟩, ?_⟩, hfirst, convert_withoutRepeats c⟩
  rintro ⟨e, he⟩
  cases hdefine : (Registry.empty.defineAll c.definitions).2 with
  | error e' => exact ⟨e', convert_eq_error_iff.mpr hdefine⟩
  | ok r =>
    have hsettled := (Registry.exists_defineAll_iff hplain).mp ⟨r, hdefine⟩
    exact absurd hsettled (not_settled_of_collides he)

/-- Two peers of one name and different protocols: the defaults of both protocols are defined, and
the inbound chain is the one that is refused. -/
example : let c : Configuration :=
      { peers := [{ name := "n" }, { name := "n" }, { name := "n", protocol := .ospf }] }
    (c.convert.2.map fun _ => ()) = .error (.duplicate "~PEER_IMPORT:n~") := by decide

end Configuration

end RoutePolicy
