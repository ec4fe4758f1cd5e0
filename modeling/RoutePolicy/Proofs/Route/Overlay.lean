import RoutePolicy.Evaluation.Decision

/-!
# Overlays and the routes they make

An overlay is applied field by field in the order of the fields, whatever the order was in which
its writes were made.  What it does to a route is nevertheless plain: every field that is written
has the value of its last write, and every other attribute is as before.

* `AttributeValue.fits` — the shapes of values that a field takes, and `Route.write_eq_ok_iff`;
* `Overlay.applyTo_eq_ok_iff` — when an overlay can be applied, and the route it makes;
* `Overlay.applyTo_set` — one more write to the overlay and to the route;
* `Overlay.applyTo_self` — an overlay that is applied twice changes nothing the second time.
-/

set_option autoImplicit false

namespace RoutePolicy

/-- Whether a value has the shape that a field takes. -/
def AttributeValue.fits (field : RouteField) : AttributeValue → Bool
  | .communities _ => field == .communities
  | .origin _ => field == .origin
  | .nextHop _ => field == .nextHop
  | .metricType _ => field == .metricType
  | .number _ => field == .localPreference || field == .metric || field == .tag
  | .asPath _ => field == .asPath

namespace Route

/-- The attributes that no policy can write are the same. -/
structure SameIdentity (r r' : Route) : Prop where
  network : r'.network = r.network
  protocol : r'.protocol = r.protocol
  sourceVrf : r'.sourceVrf = r.sourceVrf
  sourceInterface : r'.sourceInterface = r.sourceInterface
  addressFamily : r'.addressFamily = r.addressFamily
  color : r'.color = r.color

theorem SameIdentity.refl (r : Route) : SameIdentity r r := ⟨rfl, rfl, rfl, rfl, rfl, rfl⟩

theorem SameIdentity.symm {a b : Route} (h : SameIdentity a b) : SameIdentity b a :=
  ⟨h.network.symm, h.protocol.symm, h.sourceVrf.symm, h.sourceInterface.symm,
    h.addressFamily.symm, h.color.symm⟩

theorem SameIdentity.trans {a b c : Route} (hab : SameIdentity a b) (hbc : SameIdentity b c) :
    SameIdentity a c where
  network := hbc.network.trans hab.network
  protocol := hbc.protocol.trans hab.protocol
  sourceVrf := hbc.sourceVrf.trans hab.sourceVrf
  sourceInterface := hbc.sourceInterface.trans hab.sourceInterface
  addressFamily := hbc.addressFamily.trans hab.addressFamily
  color := hbc.color.trans hab.color

/-- A route is its identity and its writable attributes. -/
theorem SameIdentity.eq {r r' : Route} (h : SameIdentity r r')
    (hget : ∀ field, r'.get field = r.get field) : r' = r := by
  have hcommunities := hget .communities
  have horigin := hget .origin
  have hnextHop := hget .nextHop
  have hmetricType := hget .metricType
  have hlocalPreference := hget .localPreference
  have hmetric := hget .metric
  have htag := hget .tag
  have hasPath := hget .asPath
  obtain ⟨h1, h2, h3, h4, h5, h6⟩ := h
  cases r
  cases r'
  simp_all [get]

/-- The route `r'` is `r` with one attribute written. -/
structure Written (r : Route) (field : RouteField) (value : AttributeValue) (r' : Route) :
    Prop where
  identity : SameIdentity r r'
  get_self : r'.get field = value
  get_of_ne : ∀ other, other ≠ field → r'.get other = r.get other

theorem write_of_misfit (r : Route) {field : RouteField} {value : AttributeValue}
    (h : value.fits field = false) : r.write field value = .error ⟨field, value⟩ := by
  cases value <;> cases field <;> first
    | rfl
    | simp [AttributeValue.fits] at h

theorem exists_write (r : Route) {field : RouteField} {value : AttributeValue}
    (h : value.fits field = true) : ∃ r', r.write field value = .ok r' := by
  cases value <;> cases field <;> first
    | exact ⟨_, rfl⟩
    | simp [AttributeValue.fits] at h

theorem written_of_write {r r' : Route} {field : RouteField} {value : AttributeValue}
    (h : r.write field value = .ok r') : r.Written field value r' := by
  unfold write at h
  split at h
  all_goals
    cases h
  all_goals
    refine ⟨⟨rfl, rfl, rfl, rfl, rfl, rfl⟩, rfl, fun other hne => ?_⟩
    cases other <;> first
      | rfl
      | exact absurd rfl hne

/-- There is only one way to write an attribute. -/
theorem Written.unique {r a b : Route} {field : RouteField} {value : AttributeValue}
    (ha : r.Written field value a) (hb : r.Written field value b) : a = b := by
  refine (hb.identity.symm.trans ha.identity).eq fun other => ?_
  by_cases hother : other = field
  · rw [hother, ha.get_self, hb.get_self]
  · rw [ha.get_of_ne other hother, hb.get_of_ne other hother]

/-- A write is possible where the value has the shape of the field. -/
theorem write_eq_ok_iff {r r' : Route} {field : RouteField} {value : AttributeValue} :
    r.write field value = .ok r' ↔ value.fits field = true ∧ r.Written field value r' := by
  constructor
  · intro h
    refine ⟨?_, written_of_write h⟩
    cases hfits : value.fits field with
    | true => rfl
    | false =>
      rw [write_of_misfit r hfits] at h
      cases h
  · rintro ⟨hfits, hwritten⟩
    obtain ⟨r'', hwrite⟩ := r.exists_write hfits
    rw [hwrite, hwritten.unique (written_of_write hwrite)]

end Route

namespace Overlay

theorem get?_set_self (o : Overlay) (field : RouteField) (value : AttributeValue) :
    (o.set field value).get? field = some value :=
  SortedMap.find?_insert_self field value o.writes

theorem get?_set_of_ne (o : Overlay) {field other : RouteField} (value : AttributeValue)
    (h : other ≠ field) : (o.set field value).get? other = o.get? other :=
  SortedMap.find?_insert_of_ne value h o.writes

/-- The route `r'` is `r` with the values of some writes, of which each has the shape of its
field. -/
structure Makes (find : RouteField → Option AttributeValue) (r r' : Route) : Prop where
  fits : ∀ field value, find field = some value → value.fits field = true
  identity : r.SameIdentity r'
  get_eq : ∀ field, r'.get field = (find field).getD (r.get field)

/-- No key of an ascending list comes back behind it. -/
theorem findIn_eq_none {field : RouteField} {l : List (RouteField × AttributeValue)}
    (h : ∀ e ∈ l, field < e.1) : SortedMap.findIn field l = none := by
  induction l with
  | nil => rfl
  | cons e rest ih =>
    have hne : e.1 ≠ field := (KeyOrder.ne_of_lt (h e List.mem_cons_self)).symm
    rw [SortedMap.findIn, if_neg hne]
    exact ih fun e' he' => h e' (List.mem_cons_of_mem _ he')

/-- Writes to distinct fields make a route, and which one does not depend on their order. -/
theorem writeAll_eq_ok_iff {l : List (RouteField × AttributeValue)}
    (hl : l.Pairwise fun a b => a.1 < b.1) {r r' : Route} :
    writeAll l r = .ok r' ↔ Makes (SortedMap.findIn · l) r r' := by
  induction l generalizing r with
  | nil =>
    constructor
    · intro h
      cases h
      refine ⟨fun field value hfind => ?_, .refl _, fun _ => rfl⟩
      cases hfind
    · intro h
      rw [writeAll, h.identity.eq h.get_eq]
  | cons e rest ih =>
    obtain ⟨field, value⟩ := e
    obtain ⟨hfirst, hrest⟩ := List.pairwise_cons.mp hl
    have hnone : SortedMap.findIn field rest = none := findIn_eq_none hfirst
    have hself : SortedMap.findIn field ((field, value) :: rest) = some value := by
      rw [SortedMap.findIn, if_pos rfl]
    have hother : ∀ other, other ≠ field →
        SortedMap.findIn other ((field, value) :: rest) = SortedMap.findIn other rest := by
      intro other hne
      rw [SortedMap.findIn, if_neg hne.symm]
    constructor
    · intro h
      rw [writeAll] at h
      split at h
      · rename_i r₁ hwrite
        obtain ⟨hfits, hwritten⟩ := Route.write_eq_ok_iff.mp hwrite
        have hmakes := (ih hrest).mp h
        refine ⟨fun other v hv => ?_, hwritten.identity.trans hmakes.identity, fun other => ?_⟩
        · by_cases he : other = field
          · subst he
            rw [hself, Option.some.injEq] at hv
            exact hv ▸ hfits
          · exact hmakes.fits other v (by rw [← hother other he]; exact hv)
        · by_cases he : other = field
          · subst he
            rw [hself, hmakes.get_eq, hnone]
            exact hwritten.get_self
          · rw [hother other he, hmakes.get_eq, hwritten.get_of_ne other he]
      · cases h
    · intro h
      obtain ⟨r₁, hwrite⟩ := r.exists_write (h.fits field value hself)
      have hwritten := Route.written_of_write hwrite
      have hmakes : Makes (SortedMap.findIn · rest) r₁ r' := by
        refine ⟨fun other v hv => ?_, hwritten.identity.symm.trans h.identity, fun other => ?_⟩
        · by_cases he : other = field
          · subst he
            rw [hnone] at hv
            cases hv
          · exact h.fits other v (by rw [hother other he]; exact hv)
        · by_cases he : other = field
          · subst he
            rw [h.get_eq, hself, hnone, Option.getD_none, Option.getD_some, hwritten.get_self]
          · rw [h.get_eq, hother other he, hwritten.get_of_ne other he]
      rw [writeAll, hwrite]
      exact (ih hrest).mpr hmakes

/-- An overlay can be applied where each of its values has the shape of its field.  Then every
field has the value that is written to it, or the value it had. -/
theorem applyTo_eq_ok_iff {o : Overlay} {r r' : Route} :
    o.applyTo r = .ok r' ↔ Makes o.get? r r' :=
  writeAll_eq_ok_iff o.writes.ascending

theorem applyTo_empty (r : Route) : empty.applyTo r = .ok r := rfl

/-- A write that comes after those of an overlay may be made on the route or noted in the
overlay. -/
theorem applyTo_set {o : Overlay} {r r' r'' : Route} {field : RouteField} {value : AttributeValue}
    (happly : o.applyTo r = .ok r') (hwrite : r'.write field value = .ok r'') :
    (o.set field value).applyTo r = .ok r'' := by
  have hmakes := applyTo_eq_ok_iff.mp happly
  obtain ⟨hfits, hwritten⟩ := Route.write_eq_ok_iff.mp hwrite
  refine applyTo_eq_ok_iff.mpr ⟨fun other v hv => ?_, hmakes.identity.trans hwritten.identity,
    fun other => ?_⟩
  · by_cases he : other = field
    · subst he
      rw [get?_set_self, Option.some.injEq] at hv
      exact hv ▸ hfits
    · rw [get?_set_of_ne o value he] at hv
      exact hmakes.fits other v hv
  · by_cases he : other = field
    · subst he
      rw [get?_set_self, hwritten.get_self, Option.getD_some]
    · rw [get?_set_of_ne o value he, hwritten.get_of_ne other he, hmakes.get_eq]

/-- Applying an overlay a second time changes nothing. -/
theorem applyTo_self {o : Overlay} {r r' : Route} (h : o.applyTo r = .ok r') :
    o.applyTo r' = .ok r' := by
  have hmakes := applyTo_eq_ok_iff.mp h
  refine applyTo_eq_ok_iff.mpr ⟨hmakes.fits, .refl r', fun field => ?_⟩
  cases hget : o.get? field with
  | none => rfl
  | some value => rw [hmakes.get_eq, hget, Option.getD_some, Option.getD_some]

/-- A field that is not written is as before. -/
theorem get_eq_of_applyTo {o : Overlay} {r r' : Route} (h : o.applyTo r = .ok r')
    {field : RouteField} (hfield : o.get? field = none) : r'.get field = r.get field := by
  rw [(applyTo_eq_ok_iff.mp h).get_eq, hfield, Option.getD_none]

end Overlay

end RoutePolicy
