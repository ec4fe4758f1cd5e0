import RoutePolicy.Codec.Route
import RoutePolicy.Proofs.Ordered.SortedMap
import RoutePolicy.Proofs.Ordered.SortedSet
import RoutePolicy.Proofs.Prefix.Text
import RoutePolicy.Proofs.Route.Community

/-!
# Decoding routes and their attributes undoes encoding them

* `Json.list?_map`, `Json.entries?_map`, `Json.nullable?_orNull` — lists, objects with arbitrary
  names and values that may be missing, from what is known of their parts;
* `Record.required_bind`, `Record.defaulted_bind` — structures, field by field;
* `PrefixSet.ofJson?_toJson`, `AttributeValue.ofJson?_toJson` and the other lemmas of that name —
  each type in turn;
* `Route.ofJson?_toJson`, `Overlay.ofJson?_toJson` — routes and writes.
-/

set_option autoImplicit false

namespace RoutePolicy

namespace Json

/-- A list of encoded items is decoded item by item. -/
theorem list?_map {α β : Type} {f : Json → Option β} {encode : α → Json} {g : α → β} {l : List α}
    (h : ∀ a ∈ l, f (encode a) = some (g a)) :
    (array (l.map encode)).list? f = some (l.map g) := by
  show (l.map encode).mapM f = some (l.map g)
  induction l with
  | nil => rfl
  | cons a l ih =>
    obtain ⟨ha, hl⟩ := List.forall_mem_cons.mp h
    rw [List.map_cons, List.mapM_cons, ha, ih hl]
    rfl

/-- A list of encoded items is decoded to the list itself, when every item is. -/
theorem list?_map_self {α : Type} {f : Json → Option α} {encode : α → Json}
    (h : ∀ a, f (encode a) = some a) (l : List α) : (array (l.map encode)).list? f = some l := by
  rw [list?_map (g := fun a => a) fun a _ => h a, List.map_id']

/-- An object with arbitrary names is decoded entry by entry. -/
theorem entries?_map {α β : Type} {f : Json → Option β} {encode : β → Json} {key : α → String}
    {value : α → β} {l : List α} (h : ∀ b, f (encode b) = some b) :
    (object (l.map fun a => (key a, encode (value a)))).entries? f =
      some (l.map fun a => (key a, value a)) := by
  show (l.map _).mapM _ = _
  induction l with
  | nil => rfl
  | cons a l ih =>
    rw [List.map_cons, List.mapM_cons, ih]
    simp only [h, Option.map_some, List.map_cons]
    rfl

/-- A value that may be missing is decoded, when its data is never null. -/
theorem nullable?_orNull {α : Type} {f : Json → Option α} {encode : α → Json}
    (h : ∀ a, f (encode a) = some a) (hnull : ∀ a, encode a ≠ null) (o : Option α) :
    (orNull encode o).nullable? f = some o := by
  cases o with
  | none => rfl
  | some a =>
    have hdecoded : (encode a).nullable? f = (f (encode a)).map some := by
      unfold nullable?
      split
      · rename_i hencode
        exact absurd hencode (hnull a)
      · rfl
    rw [orNull, hdecoded, h, Option.map_some]

theorem string?_string (s : String) : (string s).string? = some s := rfl

theorem bool?_bool (b : Bool) : (bool b).bool? = some b := rfl

theorem natUpTo?_nat {limit n : Nat} (h : n ≤ limit) : (nat n).natUpTo? limit = some n := by
  show (if n ≤ limit then some n else none) = some n
  rw [if_pos h]

theorem uint8?_nat (n : UInt8) : (nat n.toNat).uint8? = some n := by
  have hn : n.toNat ≤ 0xFF := Nat.le_of_lt_succ n.toNat_lt
  rw [uint8?, natUpTo?_nat hn, Option.map_some, UInt8.ofNat_toNat]

theorem uint32?_wordToJson (n : UInt32) : (wordToJson n).uint32? = some n := by
  have hn : n.toNat ≤ 0xFFFFFFFF := Nat.le_of_lt_succ n.toNat_lt
  rw [uint32?, wordToJson, natUpTo?_nat hn, Option.map_some, UInt32.ofNat_toNat]

theorem list?_wordsToJson (ns : List UInt32) : (wordsToJson ns).list? uint32? = some ns :=
  list?_map_self uint32?_wordToJson ns

theorem list?_strings (l : List String) : (strings l).list? string? = some l :=
  list?_map_self string?_string l

end Json

/-! ## Records -/

namespace Record

variable {α β : Type} {r : Record} {position : Nat} {name : String} {v : Json} {k : α → Option β}
  {b : β}

/-- A field that must be there is read, and the other fields after it. -/
theorem required_bind {f : Json → Option α} {a : α} (hv : f v = some a)
    (hget : r.get? position name = some v) (hk : k a = some b) :
    (r.required position name f).bind k = some b := by
  rw [required, hget, Option.bind_some, hv, Option.bind_some, hk]

/-- A field that may be missing is read, and the other fields after it. -/
theorem defaulted_bind {f : Json → Option α} {a default : α} (hv : f v = some a)
    (hget : r.get? position name = some v) (hk : k a = some b) :
    (r.defaulted position name default f).bind k = some b := by
  simp only [defaulted, hget, hv, Option.bind_some, hk]

end Record

/-! ## Texts and sets -/

theorem Address.ofJson?_toJson (a : Address) : ofJson? a.toJson = some a := by
  rw [ofJson?, toJson, Json.string?, Option.bind_some, a.read?_text]

theorem Prefix.ofJson?_toJson (p : Prefix) : ofJson? p.toJson = some p := by
  rw [ofJson?, toJson, Json.string?, Option.bind_some, p.parse_text]

theorem Community.ofJson?_toJson (c : Community) : ofJson? c.toJson = some c := by
  rw [ofJson?, toJson, Json.string?, Option.bind_some, c.parse?_text]

theorem CommunitySet.ofJson?_toJson (s : CommunitySet) : ofJson? s.toJson = some s := by
  rw [ofJson?, toJson, Json.list?_map_self Community.ofJson?_toJson, Option.map_some,
    SortedSet.ofList_toList]

/-! ## Enumerations -/

theorem Protocol.ofJson?_toJson (d : Dialect) (p : Protocol) : ofJson? d p.toJson = some p := by
  cases p <;> rfl

theorem OriginType.ofJson?_toJson (d : Dialect) (o : OriginType) : ofJson? d o.toJson = some o := by
  cases o <;> rfl

theorem MetricType.ofJson?_toJson (d : Dialect) (t : MetricType) : ofJson? d t.toJson = some t := by
  cases t <;> rfl

theorem AddressFamily.ofJson?_toJson (d : Dialect) (f : AddressFamily) :
    ofJson? d f.toJson = some f := by
  cases f <;> rfl

theorem RouteField.ofJson?_toJson (f : RouteField) : ofJson? f.toJson = some f := by
  cases f <;> rfl

/-! ## Values of attributes -/

theorem AttributeValue.ofJson?_toJson (v : AttributeValue) : ofJson? v.toJson = some v := by
  cases v with
  | communities s => exact congrArg (Option.map communities) s.ofJson?_toJson
  | origin o => exact congrArg (Option.map origin) (o.ofJson?_toJson .json)
  | nextHop a =>
    have hstep : ofJson? (nextHop a).toJson = (Address.ofJson? a.toJson).map nextHop := rfl
    rw [hstep, a.ofJson?_toJson]
    rfl
  | metricType t => exact congrArg (Option.map metricType) (t.ofJson?_toJson .json)
  | number n => exact congrArg (Option.map number) (Json.uint32?_wordToJson n)
  | asPath path => exact congrArg (Option.map asPath) (Json.list?_wordsToJson path)

/-! ## Sets of prefixes -/

theorem PrefixRange.ofJson?_toJson (r : PrefixRange) : ofJson? r.toJson = some r := by
  have hbase : Prefix.ofJson? r.base.toJson = some r.base := r.base.ofJson?_toJson
  have hmin := Json.uint8?_nat r.minLength
  have hmax := Json.uint8?_nat r.maxLength
  rw [ofJson?, toJson]
  refine Option.bind_eq_some_iff.mpr ⟨.named _, rfl, ?_⟩
  refine Record.required_bind hbase rfl ?_
  refine Record.required_bind hmin rfl ?_
  refine Record.required_bind hmax rfl ?_
  rfl

theorem PrefixSet.ofJson?_toJson (s : PrefixSet) : ofJson? s.toJson = some s := by
  have hranges := Json.list?_map_self PrefixRange.ofJson?_toJson s.ranges
  rw [ofJson?, toJson]
  refine Option.bind_eq_some_iff.mpr ⟨.named _, rfl, ?_⟩
  refine Record.required_bind hranges rfl ?_
  rfl

/-! ## Routes -/

theorem Route.ofJson?_toJson (r : Route) : ofJson? r.toJson = some r := by
  have hnetwork := r.network.ofJson?_toJson
  have hprotocol := r.protocol.ofJson?_toJson .json
  have hnextHop := r.nextHop.ofJson?_toJson
  have hasPath := Json.list?_wordsToJson r.asPath
  have hword := Json.uint32?_wordToJson
  have hcommunities := r.communities.ofJson?_toJson
  have hmetricType := r.metricType.ofJson?_toJson .json
  have horigin := r.origin.ofJson?_toJson .json
  have haddressFamily := r.addressFamily.ofJson?_toJson .json
  have htext : ∀ o : Option String, (Json.orNull .string o).nullable? Json.string? = some o :=
    Json.nullable?_orNull Json.string?_string nofun
  have hcolor : (Json.orNull wordToJson r.color).nullable? Json.uint32? = some r.color :=
    Json.nullable?_orNull Json.uint32?_wordToJson nofun r.color
  rw [ofJson?, toJson]
  refine Option.bind_eq_some_iff.mpr ⟨.named _, rfl, ?_⟩
  refine Record.defaulted_bind hnetwork rfl ?_
  refine Record.defaulted_bind hprotocol rfl ?_
  refine Record.defaulted_bind hnextHop rfl ?_
  refine Record.defaulted_bind hasPath rfl ?_
  refine Record.defaulted_bind hcommunities rfl ?_
  refine Record.defaulted_bind (hword r.localPreference) rfl ?_
  refine Record.defaulted_bind (hword r.metric) rfl ?_
  refine Record.defaulted_bind hmetricType rfl ?_
  refine Record.defaulted_bind (hword r.tag) rfl ?_
  refine Record.defaulted_bind horigin rfl ?_
  refine Record.defaulted_bind (htext r.sourceVrf) rfl ?_
  refine Record.defaulted_bind (htext r.sourceInterface) rfl ?_
  refine Record.defaulted_bind haddressFamily rfl ?_
  refine Record.defaulted_bind hcolor rfl ?_
  rfl

/-! ## Writes -/

namespace Overlay

/-- The names of fields are read back one by one. -/
theorem mapM_ofName? (l : List (RouteField × AttributeValue)) :
    ((l.map fun w => (w.1.name, w.2)).mapM fun e =>
      (RouteField.ofName? e.1).map fun f => (f, e.2)) = some l := by
  induction l with
  | nil => rfl
  | cons w l ih =>
    have hname : RouteField.ofName? w.1.name = some w.1 := by
      cases w.1 <;> rfl
    rw [List.map_cons, List.mapM_cons, ih, hname]
    rfl

theorem ofJson?_toJson (o : Overlay) : ofJson? o.toJson = some o := by
  have hwrites : writesOfJson? (.object (o.toList.map fun w => (w.1.name, w.2.toJson))) =
      some o.writes := by
    rw [writesOfJson?, Json.entries?_map AttributeValue.ofJson?_toJson]
    simp only [Option.bind_eq_bind, Option.bind_some, mapM_ofName?, toList,
      SortedMap.ofList_entries]
    rfl
  rw [ofJson?, toJson]
  refine Option.bind_eq_some_iff.mpr ⟨.named _, rfl, ?_⟩
  refine Record.required_bind hwrites rfl ?_
  rfl

end Overlay

end RoutePolicy
