import RoutePolicy.Proofs.Configuration.Asked
import RoutePolicy.Proofs.Configuration.Converted
import RoutePolicy.Proofs.Table.Places

/-!
# Policies of users, whoever calls them

When the clauses of a configuration name no derived policy, a policy that a user wrote only ever
runs other such policies.  Derived policies among its callers then cannot stand in the way of any of
them, and calls cannot nest too deep as long as the limit allows for the whole table.  So the policy
does the same to a route on top level and below any derived policies.

* `Configuration.AsksUsers`, `Table.Reserved` — the clauses, and the callers;
* `Table.Places.gives_visit`, `Table.Places.gives_askNamed` — calls that are never refused;
* `Configuration.Converted.agree_read` — by induction on the policies that are not running yet;
* `Table.Treats`, `Configuration.Converted.exists_treats` — what a policy of a user does to a route,
  without mention of its callers.
-/

set_option autoImplicit false

namespace RoutePolicy

open Evaluation (Gives Agree)

namespace Table

/-- All places of a list hold policies under reserved names. -/
def Reserved (t : Table) (ids : List PolicyId) : Prop :=
  ∀ id ∈ ids, ∃ p, t.get? id = some p ∧ isReservedName p.name = true

variable {t : Table} {ids : List PolicyId} {id : PolicyId} {p : Policy}

theorem Reserved.nil : t.Reserved [] := by
  intro id hid
  cases hid

theorem Reserved.append (h : t.Reserved ids) (hg : t.get? id = some p)
    (hname : isReservedName p.name = true) : t.Reserved (ids ++ [id]) := by
  intro id' hid'
  rcases List.mem_append.mp hid' with hid' | hid'
  · exact h id' hid'
  · rw [List.mem_singleton.mp hid']
    exact ⟨p, hg, hname⟩

theorem Reserved.notMem (h : t.Reserved ids) (hg : t.get? id = some p)
    (hname : isReservedName p.name = false) : id ∉ ids := by
  intro hid
  obtain ⟨q, hq, hreserved⟩ := h id hid
  rw [hg, Option.some.injEq] at hq
  rw [← hq, hname] at hreserved
  cases hreserved

namespace Places

variable {stack : List PolicyId} {s : Settings} {env after : Environment} {flow : Flow}

theorem notMem (h : t.Places (stack ++ [id])) : id ∉ stack := by
  intro hid
  exact (List.nodup_append.mp h.nodup).2.2 id hid id (List.mem_singleton_self id) rfl

/-- Calls among distinct policies nest less deep than the table is long, so that none is refused. -/
theorem gives_visit (h : t.Places (stack ++ [id])) (hdepth : t.size ≤ s.maxCallDepth)
    (policy : String) (ref : Reference) (hlink : ref.link = some id) (hg : t.get? id = some p)
    (hrun : (t.runPolicy s (stack ++ [id]) p).Gives env flow after) :
    ((t.context s stack policy).visit ref).Gives env (.ran p.name flow) after := by
  have hlength := h.length_le
  rw [List.length_append, List.length_singleton] at hlength
  exact Table.gives_visit policy ref hlink hg h.notMem (by omega) hrun

theorem gives_askNamed (h : t.Places (stack ++ [id])) (hdepth : t.size ≤ s.maxCallDepth)
    (policy : String) {names : List String} {name : String} (hplace : placeOf names name = some id)
    (hg : t.get? id = some p) (hrun : (t.runPolicy s (stack ++ [id]) p).Gives env flow after) :
    ((t.context s stack policy).askNamed names name).Gives env flow.verdict
      { after with defaultAction := env.defaultAction, defaultPolicy := env.defaultPolicy } :=
  Context.gives_ask (h.gives_visit hdepth policy (.placed names name) hplace hg hrun)

end Places

end Table

namespace Configuration

/-- No policy statement names a derived policy in its clauses. -/
def AsksUsers (c : Configuration) : Prop :=
  ∀ statement ∈ c.policyStatements, ∀ name, statement.Asks name → isReservedName name = false

namespace Converted

variable {c : Configuration} {r : Registry} {t : Table} {s : Settings}

/-- Behind a name that is not reserved there is a policy statement. -/
theorem exists_statement (h : c.Converted r t) {name : String} {id : PolicyId}
    (hplace : placeOf r.names name = some id) (hname : isReservedName name = false) :
    ∃ p, ∃ statement ∈ c.policyStatements, t.get? id = some p ∧ p.name = name ∧
      ∀ s stack, t.runPolicy s stack p =
        Stance.flow (0 < stack.length - 1) <$>
          statement.read c.prefixLists ((t.context s stack name).askNamed r.names) := by
  obtain ⟨q, hq, rfl⟩ := r.placeOf_names_iff.mp hplace
  have hmem : q ∈ r.policies := List.mem_of_getElem? hq
  obtain ⟨id', p, hplace', -, hg, hpname, hrun⟩ := h.entry hmem
  rw [hplace, Option.some.injEq] at hplace'
  subst hplace'
  obtain ⟨d, hd, rfl⟩ := (h.mem_iff q).mp hmem
  rcases compiled_or_built hd with ⟨statement, hstatement, hpolicy⟩ | hbuilt
  · refine ⟨p, statement, hstatement, hg, hpname, fun s stack => ?_⟩
    rw [hrun]
    generalize d.policy.name = name
    rw [hpolicy]
    exact PolicyStatement.performAll_program r.names _ c.prefixLists statement
  · have hreserved := hbuilt.reserved
    rw [hname] at hreserved
    cases hreserved

/-- **The reading of a policy statement does not depend on the derived policies among the
callers.**  By induction on the places that are not running yet: the policies that the statement
asks run under the same policies of users, and one more. -/
theorem agree_read (h : c.Converted r t) (hasks : c.AsksUsers)
    (hdepth : t.size ≤ s.maxCallDepth) {callers callers' running : List PolicyId}
    (hreserved : t.Reserved callers) (hreserved' : t.Reserved callers')
    (hplaces : t.Places (callers ++ running)) (hplaces' : t.Places (callers' ++ running))
    {statement : PolicyStatement} (hstatement : statement ∈ c.policyStatements) (policy : String) :
    Agree
      (statement.read c.prefixLists ((t.context s (callers ++ running) policy).askNamed r.names))
      (statement.read c.prefixLists
        ((t.context s (callers' ++ running) policy).askNamed r.names)) := by
  induction hn : t.unvisited running using Nat.strongRecOn
    generalizing running statement policy with
  | ind n ih =>
    subst hn
    refine PolicyStatement.agree_read _ fun name hname => ?_
    have huser := hasks statement hstatement name hname
    cases hplace : placeOf r.names name with
    | none =>
      have habsent : ∀ ctx : Context, ctx.askNamed r.names name = pure .unmatched :=
        fun ctx => ctx.ask_unlinked hplace
      rw [habsent, habsent]
      exact .pure _
    | some id =>
      obtain ⟨p, callee, hcallee, hg, hpname, hrun⟩ := h.exists_statement hplace huser
      rw [← hpname] at huser
      intro env env' halike
      by_cases hrunning : id ∈ running
      · -- the policy is running already, below both lists of callers
        have hrefused : ∀ callers env,
            ((t.context s (callers ++ running) policy).askNamed r.names name).Gives env .unmatched
              env := by
          intro callers env
          exact Context.gives_ask_unrun (.inr rfl)
            (Table.gives_visit_refused _ _ hplace hg (List.mem_append_right _ hrunning))
        exact ⟨.unmatched, env, env', hrefused callers env, hrefused callers' env', halike,
          .refl env, .refl env'⟩
      · have hless := Table.unvisited_append_lt hrunning (Table.index_lt_of_get? hg)
        have hgrown : ∀ {callers}, t.Reserved callers → t.Places (callers ++ running) →
            t.Places (callers ++ (running ++ [id])) := by
          intro callers hreserved hplaces
          have hfresh : id ∉ callers ++ running := by
            rw [List.mem_append, not_or]
            exact ⟨hreserved.notMem hg huser, hrunning⟩
          rw [← List.append_assoc]
          exact hplaces.append hfresh hg
        have hdeeper := hgrown hreserved hplaces
        have hdeeper' := hgrown hreserved' hplaces'
        obtain ⟨stance, after, after', hread, hread', hafter, hkeeps, hkeeps'⟩ :=
          ih _ hless hdeeper hdeeper' hcallee name rfl env env' halike
        have hverdict : ∀ {callers env after}, t.Places (callers ++ (running ++ [id])) →
            (callee.read c.prefixLists ((t.context s (callers ++ (running ++ [id])) name).askNamed
              r.names)).Gives env stance after →
            ((t.context s (callers ++ running) policy).askNamed r.names name).Gives env
              stance.verdict
              { after with
                defaultAction := env.defaultAction, defaultPolicy := env.defaultPolicy } := by
          intro callers env after hdeeper hread
          rw [← List.append_assoc] at hdeeper hread
          have hcalled := hread.map (Stance.flow (0 < (callers ++ running ++ [id]).length - 1))
          rw [← hrun] at hcalled
          have hasked := hdeeper.gives_askNamed hdepth policy hplace hg hcalled
          rw [Stance.verdict_flow] at hasked
          exact hasked
        exact ⟨stance.verdict, _, _, hverdict hdeeper hread, hverdict hdeeper' hread',
          ⟨hafter.route_eq, hafter.overlay_eq⟩, ⟨hkeeps.protocol_eq, rfl⟩,
          ⟨hkeeps'.protocol_eq, rfl⟩⟩

end Converted

end Configuration

/-- What a policy of a user does to a route below any derived policies: the stance that it comes to,
the route that it leaves and the writes that lead there. -/
structure Table.Treats (t : Table) (s : Settings) (id : PolicyId) (p : Policy) (before : Route)
    (stance : Stance) (after : Route) (writes : Overlay) : Prop where
  get_eq : t.get? id = some p
  user : isReservedName p.name = false
  protocol_eq : after.protocol = before.protocol
  run : ∀ callers, t.Places callers → t.Reserved callers →
    ∀ env : Environment, env.route = before → env.overlay = .empty → ∃ env',
      (t.runPolicy s (callers ++ [id]) p).Gives env (stance.flow (0 < callers.length)) env' ∧
        env'.route = after ∧ env'.overlay = writes ∧ env'.defaultPolicy = env.defaultPolicy

namespace Configuration

namespace Converted

variable {c : Configuration} {r : Registry} {t : Table} {s : Settings}

/-- **A policy of a user does the same to a route whoever calls it.** -/
theorem exists_treats (h : c.Converted r t) (hasks : c.AsksUsers)
    (hdepth : t.size ≤ s.maxCallDepth) {statement : PolicyStatement} {id : PolicyId}
    (hplace : placeOf r.names statement.name = some id)
    (hname : isReservedName statement.name = false) :
    ∃ p, t.get? id = some p ∧ p.name = statement.name ∧
      ∀ before, ∃ stance after writes, t.Treats s id p before stance after writes := by
  obtain ⟨p, source, hsource, hg, hpname, hrun⟩ := h.exists_statement hplace hname
  rw [← hpname] at hname
  refine ⟨p, hg, hpname, fun before => ?_⟩
  have hplaces : ∀ {callers}, t.Places callers → t.Reserved callers →
      t.Places (callers ++ [id]) := by
    intro callers hplaces hreserved
    exact hplaces.append (hreserved.notMem hg hname) hg
  have hnil : t.Places [] := ⟨List.nodup_nil, fun id hid => by cases hid⟩
  have hagree : ∀ callers, t.Places callers → t.Reserved callers → _ :=
    fun callers hcallers hreserved => h.agree_read hasks hdepth .nil hreserved
      (hplaces hnil .nil) (hplaces hcallers hreserved) hsource statement.name
  let start : Environment := { route := before, defaultAction := .reject }
  obtain ⟨stance, env, -, htop, -, -, hkeeps, -⟩ :=
    hagree [] hnil .nil start start ⟨rfl, rfl⟩
  refine ⟨stance, env.route, env.overlay, hg, hname, hkeeps.protocol_eq, ?_⟩
  intro callers hcallers hreserved env₀ hroute hoverlay
  obtain ⟨stance', after, after', hread, hread', halike, -, hkeeps'⟩ :=
    hagree callers hcallers hreserved start env₀ ⟨hroute.symm, hoverlay.symm⟩
  have hsame : (Except.ok (stance, env) : Except MalformedPolicy _) = .ok (stance', after) :=
    htop.symm.trans hread
  cases hsame
  refine ⟨after', ?_, halike.route_eq.symm, halike.overlay_eq.symm, hkeeps'.defaultPolicy_eq⟩
  have hcalled := hread'.map (Stance.flow (0 < (callers ++ [id]).length - 1))
  rw [← hrun] at hcalled
  simpa using hcalled

end Converted

end Configuration

end RoutePolicy
