import RoutePolicy.Journal
import RoutePolicy.Scenario.Campus
import RoutePolicy.Scenario.Leaking
import RoutePolicy.Scenario.Transit

/-!
# Running scenarios

`Scenario.execute` compiles the configuration of a scenario, offers the routes to its policies, and
seals the result with a report and the fingerprint of the table.
-/

set_option autoImplicit false

namespace RoutePolicy

/-- What a scenario gives. -/
structure ScenarioResult where
  table : Table
  outcomes : List RouteOutcome
  report : Report

/-- The decision on a route under a policy, if the route was offered to it. -/
def ScenarioResult.decision? (r : ScenarioResult) (label policy : String) : Option Decision :=
  (r.outcomes.find? fun o => o.label == label && o.policy == policy).map (·.decision)

namespace Scenario

/-- The configuration of a scenario. -/
def configuration : Scenario → Configuration
  | .peerImport => Transit.configuration
  | .aggregate => Campus.configuration
  | .vrfLeak => Leaking.configuration

/-- Offers routes to a policy. -/
def offer (t : Table) (policy : String) (direction : Direction) (routes : List LabeledRoute) :
    Journaled (List RouteOutcome) :=
  routes.mapM fun r => do
    let decision ← t.decide {} policy r.route direction
    pure { label := r.label, policy, direction, decision }

/-- The routes that were accepted, with the writes of their decisions. -/
def survivors : List LabeledRoute → List RouteOutcome → Except Misfit (List LabeledRoute)
  | r :: routes, o :: outcomes => do
    if o.decision.isAccepted then
      let route ← o.decision.applyTo r.route
      let rest ← survivors routes outcomes
      return { r with route } :: rest
    else survivors routes outcomes
  | _, _ => return []

/-- A value that does not fit its field, outside of any policy. -/
def misfitFailure (m : Misfit) : Failure := .malformed ⟨"", .valueMisfit m⟩

/-- The outcomes of a scenario. -/
def outcomes (t : Table) : Scenario → Journaled (List RouteOutcome)
  | .peerImport => do
    let inbound ← offer t (Derived.peerChainName Transit.peer .inbound) .inbound Transit.feed
    let accepted ← Journaled.lift ((survivors Transit.feed inbound).mapError misfitFailure)
    let outbound ← offer t (Derived.peerChainName Transit.peer .outbound) .outbound accepted
    pure (inbound ++ outbound)
  | .aggregate => do
    let each ← Campus.aggregates.mapM fun a =>
      offer t (Derived.generationPolicyName a) .generation Campus.candidates
    pure each.flatten
  | .vrfLeak => do
    let group ← offer t (Derived.ribGroupPolicyName Leaking.ribGroup) .inbound Leaking.routes
    let gate ← offer t (Derived.instanceImportGateName Leaking.target) .inbound Leaking.routes
    pure (group ++ gate)

/-- Runs a scenario, with diagnostics of its own. -/
def execute (s : Scenario) : Journaled ScenarioResult := do
  modify fun j => { j with collector := .empty }
  let table ← s.configuration.tabulate
  Journaled.log (.scenarioCompiled table.size (← get).collector.size)
  let outcomes ← s.outcomes table
  let report ← reportOn table
  pure { table, outcomes, report }

end Scenario

end RoutePolicy
