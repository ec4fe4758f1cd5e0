import Mathlib.Data.List.Nodup
import RoutePolicy.Derived.Name
import RoutePolicy.Proofs.Prefix.Text

/-!
# The names of derived policies do not collide

The name of a derived policy is a tag and, for most builders, what the policy was built for.  The
tags contain no colon and are pairwise different, so a name is read back by a cut at its first
colon, whatever the part behind it contains.

* `Derived.Title` — which builder made a policy, and for what;
* `Derived.Tag` — the first parts of the names, one for each builder and its fixed choices;
* `Derived.derivedName_injective` — a name determines its tag and its argument;
* `Derived.Title.name_injective` — a name determines its title;
* `Derived.Title.name_separates` — names are reserved, and no two titles share one.
-/

set_option autoImplicit false

namespace RoutePolicy

theorem isReservedName_derivedName (parts : List String) :
    isReservedName (derivedName parts) = true := by
  simp [isReservedName, derivedName]

namespace Derived

/-- Which builder made a derived policy, and for what. -/
inductive Title where
  | defaultReject
  | defaultAccept
  | protocolDefault (protocol : Protocol) (d : Direction)
  | peerChain (peer : String) (d : Direction)
  | generationPolicy (base : Prefix)
  | ribGroupPolicy (group : String)
  | instanceImportPolicy (vrf : String)
  | instanceImportGate (vrf : String)
  deriving DecidableEq

/-- The name that the builder gives to the policy. -/
def Title.name : Title → String
  | .defaultReject => defaultRejectName
  | .defaultAccept => defaultAcceptName
  | .protocolDefault protocol d => protocolDefaultName protocol d
  | .peerChain peer d => peerChainName peer d
  | .generationPolicy base => generationPolicyName base
  | .ribGroupPolicy group => ribGroupPolicyName group
  | .instanceImportPolicy vrf => instanceImportPolicyName vrf
  | .instanceImportGate vrf => instanceImportGateName vrf

/-! ## Tags -/

/-- The first parts of the names of derived policies. -/
inductive Tag where
  | defaultReject
  | defaultAccept
  | protocolDefault (protocol : Protocol) (d : Direction)
  | peerChain (d : Direction)
  | generationPolicy
  | ribGroupPolicy
  | instanceImportPolicy
  | instanceImportGate
  deriving DecidableEq

namespace Tag

/-- The text of a tag. -/
def text : Tag → String
  | .defaultReject => "DEFAULT_REJECT"
  | .defaultAccept => "DEFAULT_ACCEPT"
  | .protocolDefault protocol d => upperCase protocol.name ++ "_DEFAULT_" ++ directionTag d
  | .peerChain d => "PEER_" ++ directionTag d
  | .generationPolicy => "GENERATED_ROUTE_POLICY"
  | .ribGroupPolicy => "RIB_GROUP_IMPORT"
  | .instanceImportPolicy => "INSTANCE_IMPORT"
  | .instanceImportGate => "INSTANCE_IMPORT_GATE"

/-- All tags. -/
def all : List Tag :=
  ([.defaultReject, .defaultAccept] : List Tag)
    ++ (Protocol.all.flatMap fun protocol =>
      [.protocolDefault protocol .inbound, .protocolDefault protocol .outbound,
        .protocolDefault protocol .generation] : List Tag)
    ++ ([.peerChain .inbound, .peerChain .outbound, .peerChain .generation, .generationPolicy,
      .ribGroupPolicy, .instanceImportPolicy, .instanceImportGate] : List Tag)

theorem mem_all (tag : Tag) : tag ∈ all := by
  cases tag with
  | protocolDefault protocol d => cases protocol <;> cases d <;> decide
  | peerChain d => cases d <;> decide
  | _ => decide

theorem nodup_text_all : (all.map text).Nodup := by
  decide +kernel

theorem text_injective {tag tag' : Tag} (h : tag.text = tag'.text) : tag = tag' :=
  List.inj_on_of_nodup_map nodup_text_all tag.mem_all tag'.mem_all h

theorem colon_notMem_text (tag : Tag) : ':' ∉ tag.text.toList := by
  have hprotocol : ∀ protocol : Protocol, ':' ∉ (upperCase protocol.name).toList := by
    intro protocol
    rw [upperCase]
    cases protocol <;> decide
  have hdirection : ∀ d, ':' ∉ (directionTag d).toList := by
    intro d
    cases d <;> decide
  cases tag with
  | protocolDefault protocol d =>
    simp only [text, String.toList_append, List.mem_append, not_or]
    exact ⟨⟨hprotocol protocol, by decide⟩, hdirection d⟩
  | peerChain d =>
    simp only [text, String.toList_append, List.mem_append, not_or]
    exact ⟨by decide, hdirection d⟩
  | _ => decide

end Tag

/-! ## Titles -/

/-- The cut of a name at its first colon. -/
theorem splitFirst_intercalate {tag : String} (htag : ':' ∉ tag.toList) (argument : Option String) :
    splitFirst ':' (":".intercalate (tag :: argument.toList)).toList =
      argument.map fun x => (tag.toList, x.toList) := by
  cases argument with
  | none => simp [splitFirst_of_notMem htag]
  | some x => simp [splitFirst_append htag]

/-- A name whose first part has no colon determines that part and the one behind it. -/
theorem derivedName_injective {tag tag' : String} {argument argument' : Option String}
    (htag : ':' ∉ tag.toList) (htag' : ':' ∉ tag'.toList)
    (h : derivedName (tag :: argument.toList) = derivedName (tag' :: argument'.toList)) :
    tag = tag' ∧ argument = argument' := by
  have hinner : (":".intercalate (tag :: argument.toList)).toList =
      (":".intercalate (tag' :: argument'.toList)).toList := by
    have hlist := congrArg String.toList h
    simp only [derivedName, String.toList_append] at hlist
    exact List.append_cancel_left (List.append_cancel_right hlist)
  have hsplit := congrArg (splitFirst ':') hinner
  rw [splitFirst_intercalate htag, splitFirst_intercalate htag'] at hsplit
  cases argument with
  | none =>
    cases argument' with
    | none => exact ⟨String.toList_inj.mp (by simpa using hinner), rfl⟩
    | some x' => cases hsplit
  | some x =>
    cases argument' with
    | none => cases hsplit
    | some x' =>
      rw [Option.map_some, Option.map_some, Option.some.injEq, Prod.mk.injEq] at hsplit
      exact ⟨String.toList_inj.mp hsplit.1, congrArg some (String.toList_inj.mp hsplit.2)⟩

namespace Title

/-- The first part of the name. -/
def tag : Title → Tag
  | .defaultReject => .defaultReject
  | .defaultAccept => .defaultAccept
  | .protocolDefault protocol d => .protocolDefault protocol d
  | .peerChain _ d => .peerChain d
  | .generationPolicy _ => .generationPolicy
  | .ribGroupPolicy _ => .ribGroupPolicy
  | .instanceImportPolicy _ => .instanceImportPolicy
  | .instanceImportGate _ => .instanceImportGate

/-- The part of the name behind the tag. -/
def argument? : Title → Option String
  | .defaultReject | .defaultAccept | .protocolDefault _ _ => none
  | .peerChain peer _ => some peer
  | .generationPolicy base => some base.text
  | .ribGroupPolicy group => some group
  | .instanceImportPolicy vrf => some vrf
  | .instanceImportGate vrf => some vrf

theorem name_eq (title : Title) :
    title.name = derivedName (title.tag.text :: title.argument?.toList) := by
  cases title <;> rfl

theorem eq_of_parts {title title' : Title} (htag : title.tag = title'.tag)
    (hargument : title.argument? = title'.argument?) : title = title' := by
  cases title <;> cases title' <;> cases htag
  case generationPolicy.generationPolicy base base' =>
    rw [Prefix.text_injective (Option.some.inj hargument)]
  case peerChain.peerChain => rw [Option.some.inj hargument]
  case ribGroupPolicy.ribGroupPolicy => rw [Option.some.inj hargument]
  case instanceImportPolicy.instanceImportPolicy => rw [Option.some.inj hargument]
  case instanceImportGate.instanceImportGate => rw [Option.some.inj hargument]
  all_goals rfl

/-- **Derived policies of different titles have different names.** -/
theorem name_injective {title title' : Title} (h : title.name = title'.name) : title = title' := by
  rw [name_eq, name_eq] at h
  obtain ⟨htag, hargument⟩ :=
    derivedName_injective title.tag.colon_notMem_text title'.tag.colon_notMem_text h
  exact eq_of_parts (Tag.text_injective htag) hargument

theorem isReservedName_name (title : Title) : isReservedName title.name = true := by
  rw [name_eq]
  exact isReservedName_derivedName _

/-- **Names of derived policies are reserved and never collide.**  Two of them are equal only if the
same builder made them, for equal protocols, directions, prefixes and texts; the texts may hold
colons, tildes and the tags of other builders. -/
theorem name_separates :
    (∀ title : Title, isReservedName title.name = true) ∧
    ∀ title title' : Title, title.name = title'.name ↔ title = title' :=
  ⟨isReservedName_name, fun _ _ => ⟨name_injective, congrArg name⟩⟩

/-- A tag that continues another one, and a text that continues its own tag. -/
example : (instanceImportPolicy "_GATE:v").name ≠ (instanceImportGate "v").name ∧
    (instanceImportPolicy "_GATE:v").name = "~INSTANCE_IMPORT:_GATE:v~" := by
  decide

end Title

end Derived

end RoutePolicy
