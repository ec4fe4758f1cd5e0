import RoutePolicy.Proofs.Configuration.Report
import RoutePolicy.Proofs.Registry.Refusal

/-!
# The order of definitions does not matter

The entries of a configuration can be listed in any order, each kind on its own.  Which of them is
defined first decides nothing: an entry is refused for what the others are, not for where they
stand, and the registry and its table list the policies by their names.

* `Configuration.Reordered` — the same entries in another order;
* `Configuration.exists_convert_iff` — when a configuration can be converted;
* `Configuration.Converted.unique` — the registry of a configuration;
* `Configuration.convert_reordered` — conversions of a configuration in different orders.
-/

set_option autoImplicit false

namespace RoutePolicy

namespace Configuration

/-- The same configuration with its policy statements, peers, aggregates, RIB groups and instances
listed in another order, each list on its own. -/
structure Reordered (c c' : Configuration) : Prop where
  prefixLists_eq : c.prefixLists = c'.prefixLists
  simplify_eq : c.simplify = c'.simplify
  policyStatements : c.policyStatements.Perm c'.policyStatements
  peers : c.peers.Perm c'.peers
  aggregates : c.aggregates.Perm c'.aggregates
  ribGroups : c.ribGroups.Perm c'.ribGroups
  instanceImports : c.instanceImports.Perm c'.instanceImports

/-- The diagnostics of the policy statements of a configuration, which are found while they are
compiled. -/
def compileDiagnostics (c : Configuration) : List Diagnostic :=
  diagnosticsOf (c.policyStatements.flatMap (·.notices c.prefixLists))

variable {c c' : Configuration} {r r' : Registry} {t t' : Table}

theorem Reordered.definitions (h : c.Reordered c') : c.definitions.Perm c'.definitions := by
  rw [definitions_eq, definitions_eq, h.prefixLists_eq]
  refine (List.Perm.refl _).append ((h.policyStatements.map _).append ?_)
  refine (h.peers.flatMap_right _).append ((h.aggregates.flatMap_right _).append ?_)
  exact (h.ribGroups.flatMap_right _).append (h.instanceImports.flatMap_right _)

theorem Reordered.compileDiagnostics (h : c.Reordered c') :
    c.compileDiagnostics.Perm c'.compileDiagnostics := by
  unfold Configuration.compileDiagnostics
  rw [h.prefixLists_eq]
  exact (h.policyStatements.flatMap_right _).filterMap _

/-- A configuration can be converted when its policies can be stored together. -/
theorem exists_convert_iff :
    (∃ t, c.convert.2 = .ok t) ↔ Policies.Settled (c.definitions.map Definition.policy) := by
  rw [← Registry.exists_defineAll_iff fun d hd => plain_of_mem_definitions hd]
  rw [convert_snd]
  cases (Registry.empty.defineAll c.definitions).2 with
  | error e => simp [Except.map]
  | ok r => simp [Except.map]

/-- The registry of a configuration is determined by its definitions, in any order. -/
theorem Converted.unique (h : c.Converted r t) (h' : c'.Converted r' t')
    (hperm : c.definitions.Perm c'.definitions) : r = r' := by
  refine Registry.ext_mem fun p => ?_
  rw [h.mem_iff, h'.mem_iff]
  simp only [hperm.mem_iff]

/-- **The order of definitions does not matter.**  A configuration converts exactly when it does
with its entries in another order, each kind on its own, and then the tables are the same: places,
programs, links and sources, and with them the fingerprint.  What is found in the policy statements
is the same up to its order, and what is found about undefined policies when the registry is frozen
is the same in the same order. -/
theorem convert_reordered (h : c.Reordered c') :
    ((∃ t, c.convert.2 = .ok t) ↔ ∃ t, c'.convert.2 = .ok t) ∧
    ∀ notices t notices' t', c.convert = (notices, .ok t) → c'.convert = (notices', .ok t') →
      t = t' ∧
      c.compileDiagnostics.Perm c'.compileDiagnostics ∧
      ∃ undefined, (∀ d ∈ undefined, ∃ name, d.finding = .undefinedReference .policy name) ∧
        diagnosticsOf notices = c.compileDiagnostics ++ undefined ∧
        diagnosticsOf notices' = c'.compileDiagnostics ++ undefined := by
  constructor
  · have hpolicies := h.definitions.map Definition.policy
    rw [exists_convert_iff, exists_convert_iff]
    exact ⟨fun hsettled => hsettled.perm hpolicies, fun hsettled => hsettled.perm hpolicies.symm⟩
  · intro notices t notices' t' hconvert hconvert'
    obtain ⟨r, hconverted, hreport⟩ := exists_converted_report hconvert
    obtain ⟨r', hconverted', hreport'⟩ := exists_converted_report hconvert'
    obtain rfl : r = r' := hconverted.unique hconverted' h.definitions
    rw [← h.simplify_eq] at hreport'
    refine ⟨?_, h.compileDiagnostics, _, ?_, hreport, hreport'⟩
    · rw [hconverted.table_eq, hconverted'.table_eq, h.simplify_eq]
    · intro d hd
      obtain ⟨p, -, ref, -, rfl⟩ := Registry.mem_diagnosticsOf_freezeNotices.mp hd
      exact ⟨ref.name, rfl⟩

/-- Two statements with findings of their own and two peers that share the defaults of their
protocol, in both orders. -/
theorem convert_reordered_swapped :
    let a : PolicyStatement :=
      { name := "a", terms := [{ clauses := [.policy ["missing"], .unsupported "x"] }] }
    let b : PolicyStatement := { name := "b", terms := [{ clauses := [.prefixList "none"] }] }
    let n : Peer := { name := "n", inbound := ["a", "gone"] }
    let m : Peer := { name := "m", outbound := ["b"] }
    let c : Configuration := { policyStatements := [a, b], peers := [n, m] }
    let c' : Configuration := { policyStatements := [b, a], peers := [m, n] }
    c.Reordered c' ∧ ∃ notices t notices', c.convert = (notices, .ok t) ∧
      c'.convert = (notices', .ok t) ∧ c.compileDiagnostics.Perm c'.compileDiagnostics ∧
      ∃ undefined, (∀ d ∈ undefined, ∃ name, d.finding = .undefinedReference .policy name) ∧
        diagnosticsOf notices = c.compileDiagnostics ++ undefined ∧
        diagnosticsOf notices' = c'.compileDiagnostics ++ undefined := by
  intro a b n m c c'
  have hreordered : c.Reordered c' :=
    { prefixLists_eq := rfl
      simplify_eq := rfl
      policyStatements := .swap b a []
      peers := .swap m n []
      aggregates := .refl _
      ribGroups := .refl _
      instanceImports := .refl _ }
  rcases hconvert : c.convert with ⟨notices, e | t⟩
  · have hok : c.convert.2.toBool = true := by decide +kernel
    rw [hconvert] at hok
    cases hok
  · obtain ⟨hsucceeds, hsame⟩ := convert_reordered hreordered
    obtain ⟨t', ht'⟩ := hsucceeds.mp ⟨t, congrArg Prod.snd hconvert⟩
    have hconvert' : c'.convert = (c'.convert.1, .ok t') := congrArg (Prod.mk _) ht'
    obtain ⟨rfl, hperm, hundefined⟩ := hsame _ _ _ _ hconvert hconvert'
    exact ⟨hreordered, notices, t, c'.convert.1, rfl, hconvert', hperm, hundefined⟩

end Configuration

end RoutePolicy
