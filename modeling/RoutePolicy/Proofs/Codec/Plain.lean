import RoutePolicy.Codec.Policy
import RoutePolicy.Proofs.Registry.ByName
import RoutePolicy.Proofs.Registry.Define

/-!
# Policies from data have no links

A reference is read from data as a name.  It gets a link when its registry is frozen, and not
before.

* `Condition.plain_of_ofJson?`, `Statement.plain_of_ofJson?` — by induction on the data;
* `Policy.plain_of_ofJson?`, `Registry.unlinked_of_data` — whole policies and registries.
-/

set_option autoImplicit false

namespace RoutePolicy

/-- What holds of whatever a decoder gives holds of all items of a list. -/
theorem Json.forall_of_list? {α : Type} {f : Json → Option α} {P : α → Prop}
    (hf : ∀ v a, f v = some a → P a) {v : Json} {l : List α} (h : v.list? f = some l) :
    ∀ a ∈ l, P a := by
  cases v with
  | array items =>
    have hitems : items.mapM f = some l := h
    clear h
    induction items generalizing l with
    | nil =>
      cases hitems
      exact List.forall_mem_nil _
    | cons v items ih =>
      rw [List.mapM_cons] at hitems
      obtain ⟨a, ha, hrest⟩ := Option.bind_eq_some_iff.mp hitems
      obtain ⟨as, has, hl⟩ := Option.bind_eq_some_iff.mp hrest
      cases hl
      exact List.forall_mem_cons.mpr ⟨hf v a ha, ih has⟩
  | _ => cases h

/-- The reference is a name, without a link and without a term. -/
def Reference.Plain (r : Reference) : Prop := r = .named r.name

theorem Reference.plain_of_ofJson? {v : Json} {r : Reference} (h : ofJson? v = some r) :
    r.Plain := by
  obtain ⟨name, -, rfl⟩ := Option.map_eq_some_iff.mp h
  rfl

namespace Condition

theorem plain_of_leafOfJson? {name : String} {v : Json} {c : Condition}
    (h : leafOfJson? name v = some c) : ∀ r ∈ c.references, r.Plain := by
  unfold leafOfJson? at h
  split at h
  · obtain ⟨b, -, rfl⟩ := Option.map_eq_some_iff.mp h
    exact List.forall_mem_nil _
  · obtain ⟨p, -, rfl⟩ := Option.map_eq_some_iff.mp h
    exact List.forall_mem_nil _
  · obtain ⟨rs, hrs, rfl⟩ := Option.map_eq_some_iff.mp h
    exact Json.forall_of_list? (fun _ _ => Reference.plain_of_ofJson?) hrs
  · obtain ⟨rs, hrs, rfl⟩ := Option.map_eq_some_iff.mp h
    exact Json.forall_of_list? (fun _ _ => Reference.plain_of_ofJson?) hrs
  · obtain ⟨r, hr, rfl⟩ := Option.map_eq_some_iff.mp h
    exact List.forall_mem_singleton.mpr (Reference.plain_of_ofJson? hr)
  · split at h
    · cases h
      exact List.forall_mem_nil _
    · cases h
  · cases h

mutual

theorem plain_of_ofJson? : (v : Json) → {c : Condition} → ofJson? v = some c →
    ∀ r ∈ c.references, r.Plain
  | .string name, c, h => by
    rw [ofJson?] at h
    split at h
    · cases h
      exact List.forall_mem_nil _
    · cases h
  | .object [(name, v)], c, h => by
    rw [ofJson?] at h
    split at h
    · obtain ⟨inner, hinner, rfl⟩ := Option.map_eq_some_iff.mp h
      have hplain : ∀ r ∈ inner.references, r.Plain := plain_of_ofJson? v hinner
      exact hplain
    split at h
    · obtain ⟨cs, hcs, rfl⟩ := Option.map_eq_some_iff.mp h
      exact plain_of_ofJsonArray? v hcs
    split at h
    · obtain ⟨cs, hcs, rfl⟩ := Option.map_eq_some_iff.mp h
      exact plain_of_ofJsonArray? v hcs
    · exact plain_of_leafOfJson? h
  | .object [], c, h => by cases h
  | .object (_ :: _ :: _), c, h => by cases h
  | .null, c, h | .bool _, c, h | .int _, c, h | .decimal _, c, h | .array _, c, h => by cases h

theorem plain_of_ofJsonArray? : (v : Json) → {cs : List Condition} → ofJsonArray? v = some cs →
    ∀ r ∈ referencesAll cs, r.Plain
  | .array items, cs, h => plain_of_ofJsonEach? items h
  | .null, cs, h | .bool _, cs, h | .int _, cs, h | .decimal _, cs, h | .string _, cs, h
  | .object _, cs, h => by cases h

theorem plain_of_ofJsonEach? : (vs : List Json) → {cs : List Condition} →
    ofJsonEach? vs = some cs → ∀ r ∈ referencesAll cs, r.Plain
  | [], cs, h => by
    cases h
    exact List.forall_mem_nil _
  | v :: vs, cs, h => by
    rw [ofJsonEach?] at h
    obtain ⟨c, hc, hrest⟩ := Option.bind_eq_some_iff.mp h
    obtain ⟨cs', hcs, hcons⟩ := Option.bind_eq_some_iff.mp hrest
    cases hcons
    rw [referencesAll, List.forall_mem_append]
    exact ⟨plain_of_ofJson? v hc, plain_of_ofJsonEach? vs hcs⟩

end

end Condition

namespace Statement

theorem plain_of_leafOfJson? {name : String} {v : Json} {s : Statement}
    (h : leafOfJson? name v = some s) : ∀ r ∈ s.references, r.Plain := by
  have htarget : ∀ {fields : Record} {target}, fields.required 0 "target" Reference.ofJson? =
      some target → ∀ r ∈ [target], r.Plain := by
    intro fields target hrequired
    obtain ⟨w, -, hread⟩ := Option.bind_eq_some_iff.mp hrequired
    exact List.forall_mem_singleton.mpr (Reference.plain_of_ofJson? hread)
  unfold leafOfJson? at h
  split at h
  · obtain ⟨fields, -, h⟩ := Option.bind_eq_some_iff.mp h
    obtain ⟨field, -, h⟩ := Option.bind_eq_some_iff.mp h
    obtain ⟨update, -, h⟩ := Option.bind_eq_some_iff.mp h
    cases h
    exact List.forall_mem_nil _
  · obtain ⟨fields, -, h⟩ := Option.bind_eq_some_iff.mp h
    obtain ⟨target, hrequired, h⟩ := Option.bind_eq_some_iff.mp h
    cases h
    exact htarget hrequired
  · obtain ⟨fields, -, h⟩ := Option.bind_eq_some_iff.mp h
    obtain ⟨target, hrequired, h⟩ := Option.bind_eq_some_iff.mp h
    cases h
    exact htarget hrequired
  · obtain ⟨fields, -, h⟩ := Option.bind_eq_some_iff.mp h
    obtain ⟨text, -, h⟩ := Option.bind_eq_some_iff.mp h
    cases h
    exact List.forall_mem_nil _
  · obtain ⟨kind, -, rfl⟩ := Option.map_eq_some_iff.mp h
    exact List.forall_mem_nil _
  · cases h

/-- A branch of a statement in data, where a missing branch is empty. -/
def branchIn? (name : String) (fields : List (String × Json)) : Option (List Statement) :=
  match Json.fieldIn name fields with
  | some v => ofJsonArray? v
  | none => some []

theorem ofJson?_branch (fields : List (String × Json)) :
    ofJson? (.object [("if", .object fields)]) = do
      let guard ← (Json.fieldIn "guard" fields).bind Condition.ofJson?
      let a ← branchIn? "then_branch" fields
      let b ← branchIn? "else_branch" fields
      return .branch guard a b := by
  rw [ofJson?.eq_def, branchIn?, branchIn?]
  dsimp only
  rw [if_pos rfl]
  refine Option.bind_congr fun guard _ => ?_
  split <;> split <;> simp [*]

mutual

theorem plain_of_ofJson? : (v : Json) → {s : Statement} → ofJson? v = some s →
    ∀ r ∈ s.references, r.Plain
  | .object [(name, .object fields)], s, h => by
    by_cases hname : name = "if"
    · rw [hname, ofJson?_branch] at h
      obtain ⟨guard, hguard, h⟩ := Option.bind_eq_some_iff.mp h
      obtain ⟨w, -, hguard⟩ := Option.bind_eq_some_iff.mp hguard
      obtain ⟨a, ha, h⟩ := Option.bind_eq_some_iff.mp h
      obtain ⟨b, hb, h⟩ := Option.bind_eq_some_iff.mp h
      cases h
      rw [references, List.forall_mem_append, List.forall_mem_append]
      exact ⟨⟨Condition.plain_of_ofJson? w hguard, plain_of_branchIn? fields ha⟩,
        plain_of_branchIn? fields hb⟩
    · rw [ofJson?.eq_def] at h
      dsimp only at h
      rw [if_neg hname] at h
      exact plain_of_leafOfJson? h
  | .object [(_, .null)], s, h | .object [(_, .bool _)], s, h | .object [(_, .int _)], s, h
  | .object [(_, .decimal _)], s, h | .object [(_, .string _)], s, h
  | .object [(_, .array _)], s, h => by
    rw [ofJson?.eq_def] at h
    dsimp only at h
    split at h
    · cases h
    · exact plain_of_leafOfJson? h
  | .object [], s, h | .object (_ :: _ :: _), s, h | .null, s, h | .bool _, s, h | .int _, s, h
  | .decimal _, s, h | .string _, s, h | .array _, s, h => by
    rw [ofJson?.eq_def] at h
    cases h
termination_by v => sizeOf v

theorem plain_of_branchIn? (fields : List (String × Json)) {name : String}
    {ss : List Statement} (h : branchIn? name fields = some ss) :
    ∀ r ∈ referencesAll ss, r.Plain := by
  unfold branchIn? at h
  split at h
  · rename_i v hv
    have hless := Json.sizeOf_fieldIn_lt hv
    exact plain_of_ofJsonArray? v h
  · cases h
    exact List.forall_mem_nil _
termination_by sizeOf fields

theorem plain_of_ofJsonArray? : (v : Json) → {ss : List Statement} → ofJsonArray? v = some ss →
    ∀ r ∈ referencesAll ss, r.Plain
  | .array items, ss, h => by
    rw [ofJsonArray?] at h
    exact plain_of_ofJsonEach? items h
  | .null, cs, h | .bool _, cs, h | .int _, cs, h | .decimal _, cs, h | .string _, cs, h
  | .object _, cs, h => by
    rw [ofJsonArray?.eq_def] at h
    cases h
termination_by v => sizeOf v

theorem plain_of_ofJsonEach? : (vs : List Json) → {ss : List Statement} →
    ofJsonEach? vs = some ss → ∀ r ∈ referencesAll ss, r.Plain
  | [], ss, h => by
    rw [ofJsonEach?] at h
    cases h
    exact List.forall_mem_nil _
  | v :: vs, ss, h => by
    rw [ofJsonEach?] at h
    obtain ⟨s, hs, hrest⟩ := Option.bind_eq_some_iff.mp h
    obtain ⟨ss', hss, hcons⟩ := Option.bind_eq_some_iff.mp hrest
    cases hcons
    rw [referencesAll, List.forall_mem_append]
    exact ⟨plain_of_ofJson? v hs, plain_of_ofJsonEach? vs hss⟩
termination_by vs => sizeOf vs

end

end Statement

/-- **Policies from data have no links**, and no terms. -/
theorem Policy.plain_of_ofJson? {v : Json} {p : Policy} (h : ofJson? v = some p) : p.Plain := by
  obtain ⟨fields, -, h⟩ := Option.bind_eq_some_iff.mp h
  obtain ⟨name, -, h⟩ := Option.bind_eq_some_iff.mp h
  obtain ⟨statements, hstatements, h⟩ := Option.bind_eq_some_iff.mp h
  obtain ⟨w, -, hread⟩ := Option.bind_eq_some_iff.mp hstatements
  obtain ⟨sources, -, h⟩ := Option.bind_eq_some_iff.mp h
  obtain ⟨origin, -, h⟩ := Option.bind_eq_some_iff.mp h
  cases h
  exact Statement.plain_of_ofJsonArray? w hread

/-- A registry of policies from data has no links. -/
theorem Registry.unlinked_of_data {r : Registry}
    (h : ∀ p ∈ r.policies, ∃ v, Policy.ofJson? v = some p) : r.Unlinked := by
  intro p hp ref href
  obtain ⟨v, hv⟩ := h p hp
  rw [Policy.plain_of_ofJson? hv ref href]
  rfl

end RoutePolicy
