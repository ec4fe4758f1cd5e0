import RoutePolicy.Proofs.Policy.Linking
import RoutePolicy.Proofs.Registry.Linked
import RoutePolicy.Proofs.Table.Places

/-!
# What a frozen table holds

The policies of a frozen table are those of its registry at the same places, with the same names
and linked programs.

* `Table.idOf?_eq_some_iff`, `Registry.placeOf_names_iff` — the place of a name is the place of the
  policy of that name;
* `Registry.names_table`, `Registry.size_table` — freezing keeps the names and their order;
* `Registry.get?_table_some`, `Registry.get?_table_of_some` — the policy at a place, before and
  after it is linked;
* `Policy.LinkedFrom.runAll_eq` — a linked program does what it does before it is linked.
-/

set_option autoImplicit false

namespace RoutePolicy

/-- Among policies in the order of their names, the place of a name is the place of the policy of
that name. -/
theorem placeOf_map_name_iff {ps : List Policy} (hps : ps.Pairwise fun p q => p.name < q.name)
    {name : String} {id : PolicyId} :
    placeOf (ps.map (·.name)) name = some id ↔ ∃ p, ps[id.index]? = some p ∧ p.name = name := by
  have hfound : placeOf (ps.map (·.name)) name = some id ↔
      (ps.map (·.name)).findIdx? (· == name) = some id.index := by
    rw [placeOf, Option.map_eq_some_iff]
    constructor
    · rintro ⟨i, hi, rfl⟩
      exact hi
    · intro h
      exact ⟨id.index, h, rfl⟩
  rw [hfound, List.findIdx?_eq_some_iff_getElem]
  constructor
  · rintro ⟨hi, hname, -⟩
    have hl : id.index < ps.length := by simpa using hi
    exact ⟨ps[id.index], List.getElem?_eq_getElem hl, by simpa using hname⟩
  · rintro ⟨p, hp, rfl⟩
    obtain ⟨hl, rfl⟩ := List.getElem?_eq_some_iff.mp hp
    refine ⟨by simpa using hl, by simp, fun j hj => ?_⟩
    have hlt := List.pairwise_iff_getElem.mp hps j id.index (by omega) hl hj
    simpa using KeyOrder.ne_of_lt hlt

namespace Table

variable {t : Table} {name : String} {id : PolicyId}

theorem exists_get?_iff : (∃ p, t.get? id = some p) ↔ id.index < t.size := by
  constructor
  · rintro ⟨_, hp⟩
    exact index_lt_of_get? hp
  · intro h
    exact ⟨_, List.getElem?_eq_getElem h⟩

theorem idOf?_eq_some_iff : t.idOf? name = some id ↔ ∃ p, t.get? id = some p ∧ p.name = name :=
  placeOf_map_name_iff t.ascending

theorem nameOf_of_idOf? (h : t.idOf? name = some id) :
    id.index < t.size ∧ t.nameOf id = name := by
  obtain ⟨p, hp, rfl⟩ := idOf?_eq_some_iff.mp h
  exact ⟨index_lt_of_get? hp, by rw [nameOf, hp]⟩

theorem idOf?_nameOf (h : id.index < t.size) : t.idOf? (t.nameOf id) = some id := by
  obtain ⟨p, hp⟩ := exists_get?_iff.mpr h
  refine idOf?_eq_some_iff.mpr ⟨p, hp, ?_⟩
  rw [nameOf, hp]

end Table

/-- `q` is the policy `p` after it was linked among `names`: nothing but the references and the
sources may differ. -/
structure Policy.LinkedFrom (names : List String) (q p : Policy) : Prop where
  name_eq : q.name = p.name
  origin_eq : q.origin = p.origin
  statements_eq : q.statements = Statement.linkAll names p.statements

theorem Policy.LinkedFrom.isDerived_eq {names : List String} {q p : Policy}
    (h : q.LinkedFrom names p) : q.isDerived = p.isDerived := by
  rw [Policy.isDerived, Policy.isDerived, h.origin_eq]

theorem Policy.LinkedFrom.runAll_eq {names : List String} {q p : Policy}
    (h : q.LinkedFrom names p) (ctx : Context) :
    Statement.runAll ctx q.statements = Statement.performAll names ctx p.statements := by
  rw [h.statements_eq, Statement.performAll]

namespace Registry

variable (r : Registry)

theorem placeOf_names_iff {name : String} {id : PolicyId} :
    placeOf r.names name = some id ↔ ∃ p, r.policies[id.index]? = some p ∧ p.name = name :=
  placeOf_map_name_iff r.ascending

theorem getElem?_of_placeOf {q : Policy} (hq : q ∈ r.policies) {id : PolicyId}
    (hplace : placeOf r.names q.name = some id) : r.policies[id.index]? = some q := by
  obtain ⟨i, hi⟩ := List.getElem?_of_mem hq
  have hplace' : placeOf r.names q.name = some ⟨i⟩ := r.placeOf_names_iff.mpr ⟨q, hi, rfl⟩
  rw [hplace, Option.some.injEq] at hplace'
  rw [hplace']
  exact hi

theorem names_table : r.table.policies.map (·.name) = r.names := by
  apply List.ext_getElem?
  intro i
  simp [table, linked, names, Policy.link, Function.comp_def]

theorem size_table : r.table.size = r.size := by
  simp [Table.size, table, linked, size]

theorem idOf?_table (name : String) : r.table.idOf? name = placeOf r.names name := by
  rw [Table.idOf?, names_table]

theorem get?_table_some {id : PolicyId} {q : Policy} (h : r.table.get? id = some q) :
    ∃ p, r.policies[id.index]? = some p ∧ q.LinkedFrom r.names p := by
  simp only [Table.get?, table, linked, List.getElem?_mapIdx, List.getElem?_map,
    Option.map_map, Option.map_eq_some_iff] at h
  obtain ⟨p, hp, rfl⟩ := h
  exact ⟨p, hp, rfl, rfl, rfl⟩

theorem get?_table_of_some {id : PolicyId} {p : Policy} (h : r.policies[id.index]? = some p) :
    ∃ q, r.table.get? id = some q ∧ q.LinkedFrom r.names p := by
  obtain ⟨q, hq⟩ : ∃ q, r.table.get? id = some q := by
    simp [Table.get?, table, linked, h]
  obtain ⟨p', hp', hlinked⟩ := r.get?_table_some hq
  rw [h] at hp'
  cases hp'
  exact ⟨q, hq, hlinked⟩

/-! ## Names and places -/

theorem nameOf_of_placeOf {name : String} {id : PolicyId} (h : placeOf r.names name = some id) :
    id.index < r.table.size ∧ r.table.nameOf id = name :=
  Table.nameOf_of_idOf? ((r.idOf?_table name).trans h)

theorem placeOf_nameOf {id : PolicyId} (h : id.index < r.table.size) :
    placeOf r.names (r.table.nameOf id) = some id :=
  (r.idOf?_table _).symm.trans (Table.idOf?_nameOf h)

/-- Distinct places of a table have distinct names. -/
theorem mem_map_nameOf_iff {ids : List PolicyId} (hids : r.table.Within ids)
    {name : String} {id : PolicyId} (h : placeOf r.names name = some id) :
    name ∈ ids.map r.table.nameOf ↔ id ∈ ids := by
  constructor
  · intro hmem
    obtain ⟨id', hid', rfl⟩ := List.mem_map.mp hmem
    rw [r.placeOf_nameOf (hids id' hid'), Option.some.injEq] at h
    exact h ▸ hid'
  · intro hmem
    exact List.mem_map.mpr ⟨id, hmem, (r.nameOf_of_placeOf h).2⟩

theorem get?_eq (name : String) :
    r.get? name = (placeOf r.names name).bind fun id => r.policies[id.index]? := by
  rw [get?, List.find?_eq_bind_findIdx?_getElem?, placeOf, names, List.findIdx?_map,
    Option.bind_map]
  rfl

theorem get?_of_placeOf_none {name : String} (h : placeOf r.names name = none) :
    r.get? name = none := by
  rw [get?_eq, h, Option.bind_none]

/-- A name leads to the same policy in the registry and, by its place, in the table. -/
theorem get?_of_placeOf {name : String} {id : PolicyId} (h : placeOf r.names name = some id) :
    ∃ p q, r.get? name = some p ∧ p ∈ r.policies ∧ p.name = name ∧
      r.table.get? id = some q ∧ q.LinkedFrom r.names p := by
  obtain ⟨p, hp, hname⟩ := r.placeOf_names_iff.mp h
  obtain ⟨q, hq, hlinked⟩ := r.get?_table_of_some hp
  have hget : r.get? name = some p := by rw [get?_eq, h, Option.bind_some, hp]
  exact ⟨p, q, hget, List.mem_of_getElem? hp, hname, hq, hlinked⟩

end Registry

end RoutePolicy
