import RoutePolicy.Codec.Decision
import RoutePolicy.Proofs.Codec.Configuration
import RoutePolicy.Proofs.Codec.Plain
import RoutePolicy.Proofs.Codec.Policy

/-!
# Typed data survives a round trip

Encoding a value and decoding the result gives the value back.  Policies lose what their references
hold besides names, once: a policy that was decoded has nothing left to lose.

* `Decision.ofJson?_toJson` — decisions;
* `Policy.Plain.forget_eq` — policies whose references are names;
* `typedData_roundTrip` — all of the format.
-/

set_option autoImplicit false

namespace RoutePolicy

theorem Action.ofJson?_toJson (a : Action) : ofJson? a.toJson = some a := by
  cases a <;> rfl

theorem Decision.ofJson?_toJson (d : Decision) : ofJson? d.toJson = some d := by
  have hresult := d.result.ofJson?_toJson
  have hattributes := d.attributes.ofJson?_toJson
  rw [ofJson?, toJson]
  refine Option.bind_eq_some_iff.mpr ⟨.named _, rfl, ?_⟩
  refine Record.required_bind hresult rfl ?_
  refine Record.required_bind hattributes rfl ?_
  rfl

/-- References that are names have nothing to forget. -/
theorem Policy.Plain.forget_eq {p : Policy} (h : p.Plain) : p.forget = p := by
  have hkept : Statement.mapReferencesAll Reference.forget p.statements = p.statements :=
    Statement.mapReferencesAll_eq_self fun r hr => (h r hr).symm
  unfold forget mapReferences
  rw [hkept]

/-- **Decoding undoes encoding, for every type of the format.**  Policies, however deep their
statements and conditions are nested, come back with references that are names and nothing else;
policy statements, configurations, routes and decisions come back as they were.  Whatever is
decoded from data of any kind, with fields left out, host bits set, and sets in any order and with
repetitions, is a value that encoding and decoding do not change any more. -/
theorem typedData_roundTrip :
    ((∀ p : Policy, Policy.ofJson? p.toJson = some p.forget) ∧
      (∀ s : PolicyStatement, PolicyStatement.ofJson? .json s.toJson = some s) ∧
      (∀ c : Configuration, Configuration.ofJson? .json c.toJson = some c) ∧
      (∀ r : Route, Route.ofJson? r.toJson = some r) ∧
      (∀ d : Decision, Decision.ofJson? d.toJson = some d)) ∧
    ((∀ v p, Policy.ofJson? v = some p → Policy.ofJson? p.toJson = some p) ∧
      (∀ v s, PolicyStatement.ofJson? .json v = some s →
        PolicyStatement.ofJson? .json s.toJson = some s) ∧
      (∀ v c, Configuration.ofJson? .json v = some c →
        Configuration.ofJson? .json c.toJson = some c) ∧
      (∀ v r, Route.ofJson? v = some r → Route.ofJson? r.toJson = some r) ∧
      (∀ v d, Decision.ofJson? v = some d → Decision.ofJson? d.toJson = some d)) := by
  refine ⟨⟨Policy.ofJson?_toJson, PolicyStatement.ofJson?_toJson .json,
    Configuration.ofJson?_toJson .json, Route.ofJson?_toJson, Decision.ofJson?_toJson⟩,
    fun v p h => ?_, fun _ s _ => s.ofJson?_toJson .json, fun _ c _ => c.ofJson?_toJson .json,
    fun _ r _ => r.ofJson?_toJson, fun _ d _ => d.ofJson?_toJson⟩
  have hplain : p.Plain := Policy.plain_of_ofJson? h
  rw [p.ofJson?_toJson, hplain.forget_eq]

end RoutePolicy
