import RoutePolicy.Codec.Policy
import RoutePolicy.Proofs.Codec.Route

/-!
# Decoding a policy undoes encoding it

References are encoded by name alone, so what comes back is the policy with its references
forgotten but for their names.  Everything else comes back as it was.

* `Reference.forget`, `Policy.forget` — what is left of references and of policies;
* `Statement.ofJson?_toJson` — by induction on statements and conditions;
* `Policy.ofJson?_toJson`, `Policy.forget_eq_of_toJson_eq` — so the data of a policy determines the
  policy up to links and terms.
-/

set_option autoImplicit false

namespace RoutePolicy

/-- A reference that only keeps its name. -/
def Reference.forget (r : Reference) : Reference := .named r.name

/-- A policy whose references only keep their names. -/
def Policy.forget (p : Policy) : Policy := p.mapReferences Reference.forget

/-! ## Tests and updates -/

theorem PathPattern.ofJson?_toJson (p : PathPattern) : ofJson? p.toJson = some p := by
  cases p with
  | contains n => exact congrArg (Option.map contains) (Json.uint32?_wordToJson n)
  | originAs n => exact congrArg (Option.map originAs) (Json.uint32?_wordToJson n)
  | neighborAs n => exact congrArg (Option.map neighborAs) (Json.uint32?_wordToJson n)
  | empty => rfl

theorem Predicate.ofJson?_toJson (p : Predicate) : ofJson? p.toJson = some p := by
  cases p with
  | protocol p => exact congrArg (Option.map protocol) (p.ofJson?_toJson .json)
  | prefixIn s => exact congrArg (Option.map prefixIn) s.ofJson?_toJson
  | contributesTo p =>
    have hstep : ofJson? (contributesTo p).toJson =
        (Prefix.ofJson? p.toJson).map contributesTo := rfl
    rw [hstep, p.ofJson?_toJson]
    rfl
  | asPath p => exact congrArg (Option.map asPath) p.ofJson?_toJson
  | community c => exact congrArg (Option.map community) c.ofJson?_toJson
  | tag n => exact congrArg (Option.map tag) (Json.uint32?_wordToJson n)
  | localPreference n => exact congrArg (Option.map localPreference) (Json.uint32?_wordToJson n)
  | metric n => exact congrArg (Option.map metric) (Json.uint32?_wordToJson n)
  | sourceInterface s => rfl
  | sourceVrf s => rfl
  | addressFamily f => exact congrArg (Option.map addressFamily) (f.ofJson?_toJson .json)
  | color n => exact congrArg (Option.map color) (Json.uint32?_wordToJson n)
  | unsupported s => rfl

theorem Update.ofJson?_toJson (u : Update) : ofJson? u.toJson = some u := by
  cases u with
  | assign v => exact congrArg (Option.map assign) v.ofJson?_toJson
  | addCommunities s => exact congrArg (Option.map addCommunities) s.ofJson?_toJson
  | removeCommunities s => exact congrArg (Option.map removeCommunities) s.ofJson?_toJson
  | increment n => exact congrArg (Option.map increment) (Json.uint32?_wordToJson n)
  | decrement n => exact congrArg (Option.map decrement) (Json.uint32?_wordToJson n)
  | prepend ns => exact congrArg (Option.map prepend) (Json.list?_wordsToJson ns)

theorem Control.ofJson?_toJson (kind : Control) : ofJson? kind.toJson = some kind := by
  cases kind <;> rfl

theorem Authorship.ofJson?_name (origin : Authorship) :
    ofJson? (.string origin.name) = some origin := by
  cases origin <;> rfl

/-! ## References and conditions -/

theorem Reference.ofJson?_toJson (r : Reference) : ofJson? r.toJson = some r.forget := rfl

namespace Condition

theorem list?_referencesToJson (rs : List Reference) :
    (referencesToJson rs).list? Reference.ofJson? = some (rs.map Reference.forget) :=
  Json.list?_map fun r _ => r.ofJson?_toJson

mutual

theorem ofJson?_toJson : (c : Condition) → ofJson? c.toJson = some (c.mapReferences .forget)
  | .literal _ => rfl
  | .test p => congrArg (Option.map test) p.ofJson?_toJson
  | .not c => congrArg (Option.map Condition.not) (ofJson?_toJson c)
  | .all cs => congrArg (Option.map all) (ofJsonEach?_toJsonEach cs)
  | .any cs => congrArg (Option.map any) (ofJsonEach?_toJsonEach cs)
  | .firstMatch rs => congrArg (Option.map firstMatch) (list?_referencesToJson rs)
  | .allMatch rs => congrArg (Option.map allMatch) (list?_referencesToJson rs)
  | .callPolicy _ => rfl
  | .inCall => rfl

theorem ofJsonEach?_toJsonEach : (cs : List Condition) →
    ofJsonEach? (toJsonEach cs) = some (mapReferencesAll .forget cs)
  | [] => rfl
  | c :: cs => by
    have hc := ofJson?_toJson c
    have hcs := ofJsonEach?_toJsonEach cs
    rw [toJsonEach, ofJsonEach?, hc, hcs]
    rfl

end

end Condition

/-! ## Statements -/

namespace Statement

mutual

theorem ofJson?_toJson : (s : Statement) → ofJson? s.toJson = some (s.mapReferences .forget)
  | .branch guard a b => by
    have hguard := guard.ofJson?_toJson
    have ha := ofJsonEach?_toJsonEach a
    have hb := ofJsonEach?_toJsonEach b
    rw [toJson, ofJson?, mapReferences]
    simp [Json.fieldIn, hguard, ofJsonArray?, ha, hb]
  | .write field update => by
    have hfield := field.ofJson?_toJson
    have hupdate := update.ofJson?_toJson
    rw [toJson, ofJson?, mapReferences]
    simp [leafOfJson?, Record.named?, Record.required, Record.get?, Json.fieldIn, hfield, hupdate]
  | .setDefaultPolicy target => by
    rw [toJson, ofJson?, mapReferences]
    rfl
  | .call target => by
    rw [toJson, ofJson?, mapReferences]
    rfl
  | .comment text => by
    rw [toJson, ofJson?, mapReferences]
    rfl
  | .control kind => by
    have hkind := kind.ofJson?_toJson
    rw [toJson, ofJson?.eq_def, mapReferences]
    exact congrArg (Option.map control) hkind

theorem ofJsonEach?_toJsonEach : (ss : List Statement) →
    ofJsonEach? (toJsonEach ss) = some (mapReferencesAll .forget ss)
  | [] => by
    rw [toJsonEach, ofJsonEach?]
    rfl
  | s :: ss => by
    have hs := ofJson?_toJson s
    have hss := ofJsonEach?_toJsonEach ss
    rw [toJsonEach, ofJsonEach?, hs, hss]
    rfl

end

end Statement

/-! ## Policies -/

namespace Policy

/-- **Decoding the data of a policy gives the policy back**, up to what references hold besides
their names. -/
theorem ofJson?_toJson (p : Policy) : ofJson? p.toJson = some p.forget := by
  have hstatements : Statement.ofJsonArray? (.array (Statement.toJsonEach p.statements)) =
      some (Statement.mapReferencesAll .forget p.statements) := by
    rw [Statement.ofJsonArray?]
    exact Statement.ofJsonEach?_toJsonEach p.statements
  have hsources : ((Json.strings p.sources.toList).list? Json.string?).map SortedSet.ofList =
      some p.sources := by
    rw [Json.list?_strings, Option.map_some, SortedSet.ofList_toList]
  have horigin := p.origin.ofJson?_name
  simp [ofJson?, toJson, Record.of?, Record.required, Record.defaulted, Record.get?, Json.fieldIn,
    Json.string?, hstatements, hsources, horigin, forget, mapReferences]

/-- The data of a policy determines the policy up to links and terms. -/
theorem forget_eq_of_toJson_eq {p q : Policy} (h : p.toJson = q.toJson) : p.forget = q.forget := by
  have hp := p.ofJson?_toJson
  rw [h, q.ofJson?_toJson, Option.some.injEq] at hp
  exact hp.symm

end Policy

end RoutePolicy
