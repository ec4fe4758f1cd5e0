import RoutePolicy.Codec.Policy
import RoutePolicy.Proofs.Json.Printer

/-!
# The data of a policy has no decimals

All numbers in policies are natural, so that their data can be read back from its compact form.

* `Json.exactItems_map` — a list, from what is known of its items;
* `Condition.exact_toJson`, `Statement.exact_toJson` — by induction on the syntax;
* `Policy.exact_toJson` — whole policies.
-/

set_option autoImplicit false

namespace RoutePolicy

namespace Json

theorem exactItems_map {α : Type} {f : α → Json} {l : List α} (h : ∀ a ∈ l, (f a).Exact) :
    ExactItems (l.map f) := by
  induction l with
  | nil => trivial
  | cons a l ih =>
    obtain ⟨ha, hl⟩ := List.forall_mem_cons.mp h
    exact ⟨ha, ih hl⟩

/-- A value under a name. -/
theorem exact_field {name : String} {v : Json} (h : v.Exact) : (object [(name, v)]).Exact :=
  ⟨h, trivial⟩

theorem exact_wordsToJson (ns : List UInt32) : (wordsToJson ns).Exact :=
  exactItems_map fun _ _ => trivial

theorem exact_strings (l : List String) : (strings l).Exact :=
  exactItems_map fun _ _ => trivial

end Json

open Json (exact_field exactItems_map)

/-! ## Tests and updates -/

theorem CommunitySet.exact_toJson (s : CommunitySet) : s.toJson.Exact :=
  exactItems_map fun _ _ => trivial

theorem AttributeValue.exact_toJson (v : AttributeValue) : v.toJson.Exact := by
  cases v with
  | communities s => exact exact_field s.exact_toJson
  | asPath path => exact exact_field (Json.exact_wordsToJson path)
  | _ => exact exact_field trivial

theorem PrefixRange.exact_toJson (r : PrefixRange) : r.toJson.Exact :=
  ⟨trivial, trivial, trivial, trivial⟩

theorem PrefixSet.exact_toJson (s : PrefixSet) : s.toJson.Exact :=
  exact_field (exactItems_map fun r _ => r.exact_toJson)

theorem PathPattern.exact_toJson (p : PathPattern) : p.toJson.Exact := by
  cases p with
  | empty => trivial
  | _ => exact exact_field trivial

theorem Predicate.exact_toJson (p : Predicate) : p.toJson.Exact := by
  cases p with
  | prefixIn s => exact exact_field s.exact_toJson
  | asPath p => exact exact_field p.exact_toJson
  | _ => exact exact_field trivial

theorem Update.exact_toJson (u : Update) : u.toJson.Exact := by
  cases u with
  | assign v => exact exact_field v.exact_toJson
  | addCommunities s => exact exact_field s.exact_toJson
  | removeCommunities s => exact exact_field s.exact_toJson
  | prepend ns => exact exact_field (Json.exact_wordsToJson ns)
  | _ => exact exact_field trivial

/-! ## Conditions and statements -/

namespace Condition

theorem exact_referencesToJson (rs : List Reference) : (referencesToJson rs).Exact :=
  exactItems_map fun _ _ => trivial

mutual

theorem exact_toJson : (c : Condition) → c.toJson.Exact
  | .literal _ => exact_field trivial
  | .test p => exact_field p.exact_toJson
  | .not c => exact_field (exact_toJson c)
  | .all cs => exact_field (exact_toJsonEach cs)
  | .any cs => exact_field (exact_toJsonEach cs)
  | .firstMatch rs => exact_field (exact_referencesToJson rs)
  | .allMatch rs => exact_field (exact_referencesToJson rs)
  | .callPolicy _ => exact_field trivial
  | .inCall => trivial

theorem exact_toJsonEach : (cs : List Condition) → Json.ExactItems (toJsonEach cs)
  | [] => trivial
  | c :: cs => ⟨exact_toJson c, exact_toJsonEach cs⟩

end

end Condition

namespace Statement

mutual

theorem exact_toJson : (s : Statement) → s.toJson.Exact
  | .branch guard a b =>
    exact_field ⟨guard.exact_toJson, exact_toJsonEach a, exact_toJsonEach b, trivial⟩
  | .write _ update => exact_field ⟨trivial, update.exact_toJson, trivial⟩
  | .setDefaultPolicy _ => exact_field (exact_field trivial)
  | .call _ => exact_field (exact_field trivial)
  | .comment _ => exact_field (exact_field trivial)
  | .control _ => exact_field trivial

theorem exact_toJsonEach : (ss : List Statement) → Json.ExactItems (toJsonEach ss)
  | [] => trivial
  | s :: ss => ⟨exact_toJson s, exact_toJsonEach ss⟩

end

end Statement

theorem Policy.exact_toJson (p : Policy) : p.toJson.Exact :=
  ⟨trivial, Statement.exact_toJsonEach p.statements, Json.exact_strings p.sources.toList, trivial,
    trivial⟩

end RoutePolicy
