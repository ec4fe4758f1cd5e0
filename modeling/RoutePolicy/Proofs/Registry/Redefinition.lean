import RoutePolicy.Derived.Policy
import RoutePolicy.Proofs.Policy.Shape
import RoutePolicy.Proofs.Registry.Operations

/-!
# Defining a derived policy again

Builders make equal policies from equal arguments, and a registry takes such a policy as often as it
is offered.  It compares what it is offered with what it holds, and what it holds changes when its
policies are simplified; so a policy is only taken again afterwards when it was in normal form.  An
instance that imports by no policies asks a chain without members, so its policy is not.

* `Registry.get?_after` — what becomes of a policy that is held;
* `Registry.define_after_define` — a derived policy that is defined again;
* `Derived.Builder`, `Derived.Builder.isNormal_policy_iff` — the builders with their arguments, and
  which of their policies are in normal form;
* `Registry.define_builder_again` — both of them together.
-/

set_option autoImplicit false

namespace RoutePolicy

/-! ## A policy that is held -/

namespace Registry

variable {r r' : Registry} {p : Policy}

theorem get?_simplifyAll (name : String) :
    r.simplifyAll.get? name = (r.get? name).map Policy.simplify := by
  rw [← find?_store, store_simplifyAll, SortedMap.find?_mapValues, find?_store]

/-- A definition leaves the policies that are held as they are, whether it fails or not. -/
theorem get?_perform_define {name : String} {stored : Policy} (h : r.get? name = some stored)
    (p : Policy) : (r.perform (.define p)).get? name = some stored := by
  rw [perform]
  cases hdefine : r.define p with
  | error e => exact h
  | ok result =>
    obtain ⟨notices, r'⟩ := result
    cases defined_of_define hdefine with
    | again => exact h
    | new hfree => exact get?_insert_of_some hfree h

/-- What becomes of a policy that is held: it is simplified when the registry is, and stays as it is
otherwise. -/
theorem get?_after {name : String} {stored : Policy} (h : r.get? name = some stored)
    (ops : List Operation) : (r.after ops).get? name =
      some (if .simplifyAll ∈ ops then stored.simplify else stored) := by
  induction ops generalizing r stored with
  | nil => exact h
  | cons o ops ih =>
    show ((r.perform o).after ops).get? name = _
    cases o with
    | define p => simpa using ih (get?_perform_define h p)
    | simplifyAll =>
      have hsimplified : (r.perform .simplifyAll).get? name = some stored.simplify := by
        rw [perform, get?_simplifyAll, h, Option.map_some]
      -- a second simplification changes nothing
      simpa [Policy.simplify_of_isNormal stored.isNormal_simplify] using ih hsimplified

/-- A derived policy is refused where another one has its name. -/
theorem define_of_differs {stored : Policy} (hget : r.get? p.name = some stored)
    (hderived : p.isDerived = true) (hdiffers : stored.same p = false) :
    r.define p = .error (.duplicate p.name) := by
  rw [define, hderived, hget]
  simp [hdiffers]

/-- **A derived policy that is defined again** changes nothing and reports nothing, unless the
registry was simplified in between and the policy is not in normal form; then it is refused. -/
theorem define_after_define {notices : List Notice} (hderived : p.isDerived = true)
    (h : r.define p = .ok (notices, r')) (ops : List Operation) :
    (.simplifyAll ∉ ops ∨ p.IsNormal → (r'.after ops).define p = .ok ([], r'.after ops)) ∧
      (.simplifyAll ∈ ops → ¬ p.IsNormal →
        (r'.after ops).define p = .error (.duplicate p.name)) := by
  obtain ⟨stored, hstored, hsame⟩ := ((defined_of_define h).keeps hderived).held
  have hnormal : stored.IsNormal ↔ p.IsNormal := Policy.isNormal_of_same hsame
  have hlater := get?_after hstored ops
  constructor
  · intro hkept
    have hunchanged : (if .simplifyAll ∈ ops then stored.simplify else stored) = stored := by
      rcases hkept with hops | hp
      · exact if_neg hops
      · rw [Policy.simplify_of_isNormal (hnormal.mpr hp), ite_self]
    rw [hunchanged] at hlater
    exact Keeps.define_eq ⟨hderived, stored, hlater, hsame⟩
  · intro hops hp
    rw [if_pos hops] at hlater
    refine define_of_differs hlater hderived (Bool.eq_false_iff.mpr fun hagain => hp ?_)
    exact (Policy.isNormal_of_same hagain).mp stored.isNormal_simplify

end Registry

/-! ## Builders -/

namespace Statement

theorem isNormalAll_singleton {s : Statement} (hs : s.IsNormal) : IsNormalAll [s] :=
  ⟨hs, fun _ => rfl, trivial⟩

theorem IsNormalAll.cons {s : Statement} {ss : List Statement} (hs : s.IsNormal)
    (hgoes : s.alwaysEnds = false) (hss : IsNormalAll ss) : IsNormalAll (s :: ss) :=
  ⟨hs, fun hends => absurd (hgoes.symm.trans hends) Bool.false_ne_true, hss⟩

theorem isNormalAll_calls (policies : List String) :
    IsNormalAll (policies.map fun p => .call (.named p)) := by
  induction policies with
  | nil => trivial
  | cons p policies ih => exact .cons trivial rfl ih

/-- A branch that ends the list on either side is normal when its guard is. -/
theorem isNormal_decision {guard : Condition} {kind other : Control}
    (hundecided : guard.isLiteral = false) (hguard : guard.IsNormal) :
    (branch guard [.control kind] [.control other]).IsNormal :=
  ⟨⟨hundecided, fun hnil => nomatch hnil⟩, hguard, isNormalAll_singleton trivial,
    isNormalAll_singleton trivial⟩

end Statement

namespace Derived

/-- A builder with its arguments. -/
inductive Builder where
  | defaultReject
  | defaultAccept
  | protocolDefault (p : Protocol) (d : Direction)
  | policyChain (name defaultPolicy : String) (policies : List String)
  | generationPolicy (aggregate : Prefix) (policies : List String)
  | ribGroupPolicy (group : String) (p : Protocol) (policies : List String)
  | instanceImportPolicy (vrf : String) (policies : List String)
  | instanceImportGate (vrf : String)

namespace Builder

/-- What the builder makes. -/
def policy : Builder → Policy
  | .defaultReject => Derived.defaultReject
  | .defaultAccept => Derived.defaultAccept
  | .protocolDefault p d => Derived.protocolDefault p d
  | .policyChain name defaultPolicy policies => Derived.policyChain name defaultPolicy policies
  | .generationPolicy aggregate policies => Derived.generationPolicy aggregate policies
  | .ribGroupPolicy group p policies => Derived.ribGroupPolicy group p policies
  | .instanceImportPolicy vrf policies => Derived.instanceImportPolicy vrf policies
  | .instanceImportGate vrf => Derived.instanceImportGate vrf

theorem isDerived_policy (b : Builder) : b.policy.isDerived = true := by
  cases b <;> rfl

open Statement in
/-- Every builder makes policies in normal form, except for the import policy of an instance without
policies. -/
theorem isNormal_policy_iff (b : Builder) :
    b.policy.IsNormal ↔ ∀ vrf, b ≠ .instanceImportPolicy vrf [] := by
  cases b with
  | instanceImportPolicy vrf policies =>
    cases policies with
    | nil =>
      -- the guard is a chain without members
      refine iff_of_false (fun h => ?_) fun h => h vrf rfl
      obtain ⟨-, -, ⟨-, hguard, -⟩, -⟩ := h
      exact hguard rfl
    | cons p policies =>
      have hguard : (Condition.firstMatch ((p :: policies).map .named)).IsNormal :=
        List.cons_ne_nil _ _
      refine iff_of_true ?_ fun vrf' h => nomatch h
      exact .cons trivial rfl (isNormalAll_singleton (isNormal_decision rfl hguard))
  | ribGroupPolicy group p policies =>
    have hguard : (Condition.firstMatch
        (policies.map .named ++ [.named (protocolDefaultName p .inbound)])).IsNormal :=
      List.append_ne_nil_of_right_ne_nil _ (List.cons_ne_nil _ _)
    refine iff_of_true ?_ fun _ h => nomatch h
    exact .cons trivial rfl (isNormalAll_singleton (isNormal_decision rfl hguard))
  | generationPolicy aggregate policies =>
    have hbranch : (branch (.test (.contributesTo aggregate)) [] [.control .exitReject]).IsNormal :=
      ⟨⟨rfl, fun _ hnil => nomatch hnil⟩, trivial, trivial, isNormalAll_singleton trivial⟩
    refine iff_of_true ?_ fun _ h => nomatch h
    exact .cons hbranch rfl (.cons trivial rfl (isNormalAll_calls policies))
  | policyChain name defaultPolicy policies =>
    exact iff_of_true (.cons trivial rfl (isNormalAll_calls policies)) fun _ h => nomatch h
  | defaultReject => exact iff_of_true (isNormalAll_singleton trivial) fun _ h => nomatch h
  | defaultAccept => exact iff_of_true (isNormalAll_singleton trivial) fun _ h => nomatch h
  | protocolDefault p d =>
    refine iff_of_true ?_ fun _ h => nomatch h
    exact isNormalAll_singleton (isNormal_decision rfl trivial)
  | instanceImportGate vrf =>
    refine iff_of_true ?_ fun _ h => nomatch h
    exact isNormalAll_singleton (isNormal_decision rfl trivial)

end Builder

end Derived

namespace Registry

variable {r r' : Registry} {b : Derived.Builder} {notices : List Notice}

/-- **What a builder makes can be defined again.**  Once it is stored, and whatever is asked of the
registry next, defining it again changes nothing and reports nothing; the exception is the import
policy of an instance without policies, which is refused from when the registry is simplified. -/
theorem define_builder_again (h : r.define b.policy = .ok (notices, r')) (ops : List Operation) :
    ((.simplifyAll ∉ ops ∨ ∀ vrf, b ≠ .instanceImportPolicy vrf []) →
      (r'.after ops).define b.policy = .ok ([], r'.after ops)) ∧
    (.simplifyAll ∈ ops → ∀ vrf, b = .instanceImportPolicy vrf [] →
      (r'.after ops).define b.policy = .error (.duplicate b.policy.name)) := by
  obtain ⟨hagain, hrefused⟩ := define_after_define b.isDerived_policy h ops
  rw [b.isNormal_policy_iff] at hagain hrefused
  exact ⟨hagain, fun hops vrf hb => hrefused hops fun hother => hother vrf hb⟩

/-- A RIB group without policies between two simplifications, with a policy that is refused and one
that is stored. -/
theorem define_builder_again_ribGroup :
    let b : Derived.Builder := .ribGroupPolicy "g" .static []
    let ops : List Operation :=
      [.simplifyAll, .define (.derived b.policy.name []), .define Derived.defaultAccept, .simplifyAll]
    ∃ notices r', empty.define b.policy = .ok (notices, r') ∧
      (r'.after ops).size = 2 ∧ (r'.after ops).define b.policy = .ok ([], r'.after ops) := by
  intro b ops
  have hdefine : empty.define b.policy = .ok (_, empty.insert b.policy) := rfl
  have hnever : ∀ vrf, b ≠ .instanceImportPolicy vrf [] := fun _ h => nomatch h
  exact ⟨_, _, hdefine, by decide, (define_builder_again hdefine ops).1 (.inr hnever)⟩

/-- The import policy of an instance without policies is refused after a simplification. -/
theorem define_instanceImport_refused :
    let p := Derived.instanceImportPolicy "v" []
    ∃ notices r', empty.define p = .ok (notices, r') ∧
      (r'.after [.simplifyAll]).define p = .error (.duplicate "~INSTANCE_IMPORT:v~") :=
  ⟨_, _, rfl, rfl⟩

end Registry

end RoutePolicy
