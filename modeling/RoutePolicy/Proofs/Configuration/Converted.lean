import RoutePolicy.Proofs.Configuration.Contents
import RoutePolicy.Proofs.Registry.SimplifyAll

/-!
# The table of a configuration

The policies of a configuration that can be converted are exactly its definitions: they are stored
under distinct names, then simplified if the configuration says so, and linked.

* `Configuration.Converted`, `Configuration.exists_converted` — the registry behind a table;
* `Configuration.Converted.entry` — the place of a policy in the table, and what it does there;
* `Configuration.evaluate_convert_ok` — evaluations on such a table never fail, and what can fail
  on other tables.
-/

set_option autoImplicit false

namespace RoutePolicy

namespace Configuration

/-- `t` is the table of a configuration, and `r` the registry of its definitions. -/
structure Converted (c : Configuration) (r : Registry) (t : Table) : Prop where
  mem_iff : ∀ p, p ∈ r.policies ↔ ∃ d ∈ c.definitions, d.policy = p
  namesAllowed : r.NamesAllowed
  table_eq : t = (if c.simplify then r.simplifyAll else r).table

variable {c : Configuration} {r : Registry} {t : Table}

/-- The result of a conversion, from that of the definitions. -/
theorem convert_snd (c : Configuration) :
    c.convert.2 = (Registry.empty.defineAll c.definitions).2.map fun r =>
      (if c.simplify then r.simplifyAll else r).table := by
  unfold convert
  rcases Registry.empty.defineAll c.definitions with ⟨notices, e | r⟩
  · rfl
  · rfl

/-- A conversion succeeds when something that is made of its table is known. -/
theorem exists_convert_of_map {α : Type} {f : Table → α} {a : α}
    (h : c.convert.2.map f = .ok a) : ∃ notices t, c.convert = (notices, .ok t) ∧ f t = a := by
  rcases hconvert : c.convert with ⟨notices, e | t⟩
  · rw [hconvert] at h
    cases h
  · rw [hconvert] at h
    exact ⟨notices, t, rfl, Except.ok.inj h⟩

theorem converted_of_defineAll {notices : List Notice}
    (h : Registry.empty.defineAll c.definitions = (notices, .ok r)) :
    c.Converted r (if c.simplify then r.simplifyAll else r).table where
  mem_iff p := by
    have hempty : Registry.empty.DerivedPlain := by
      intro p hp
      cases hp
    rw [Registry.mem_defineAll_iff hempty (fun d hd => plain_of_mem_definitions hd) h p]
    exact or_iff_right List.not_mem_nil
  namesAllowed := by
    have hempty : Registry.empty.NamesAllowed := by
      intro p hp
      cases hp
    exact Registry.namesAllowed_defineAll hempty h
  table_eq := rfl

theorem exists_converted {notices : List Notice} (h : c.convert = (notices, .ok t)) :
    ∃ r, c.Converted r t := by
  unfold convert at h
  split at h
  · cases h
  · rename_i defined r hdefineAll
    cases h
    exact ⟨r, converted_of_defineAll hdefineAll⟩

namespace Converted

theorem unlinked (h : c.Converted r t) : r.Unlinked := by
  intro p hp
  obtain ⟨d, hd, rfl⟩ := (h.mem_iff p).mp hp
  exact unlinked_of_mem_definitions hd

theorem fits (h : c.Converted r t) : ∀ p ∈ r.policies, p.Fits := by
  intro p hp
  obtain ⟨d, hd, rfl⟩ := (h.mem_iff p).mp hp
  exact fits_of_mem_definitions hd

/-- The table of a configuration is closed. -/
theorem closed (h : c.Converted r t) : t.Closed := by
  rw [h.table_eq]
  split
  · exact h.unlinked.simplifyAll.noStrayLinks.closed_table
  · exact h.unlinked.noStrayLinks.closed_table

/-- Every write in the table of a configuration fits its field. -/
theorem fits_table (h : c.Converted r t) : ∀ q ∈ t.policies, q.Fits := by
  rw [h.table_eq]
  split
  · exact Registry.fits_table (Registry.fits_simplifyAll h.fits)
  · exact Registry.fits_table h.fits

/-- Whether a configuration asks for simplification or not makes no difference to what its table
does. -/
theorem equivalent (h : c.Converted r t) : t.Equivalent r.table := by
  rw [h.table_eq]
  split
  · exact r.simplifyAll_equivalent
  · exact .refl _

/-- A policy of the registry has a place in the table, where it runs the program that it had before
it was simplified and linked. -/
theorem entry (h : c.Converted r t) {q : Policy} (hq : q ∈ r.policies) :
    ∃ id p, placeOf r.names q.name = some id ∧ t.idOf? q.name = some id ∧ t.get? id = some p ∧
      p.name = q.name ∧ ∀ s stack, t.runPolicy s stack p =
        Statement.performAll r.names (t.context s stack q.name) q.statements := by
  obtain ⟨id, hi⟩ : ∃ id : PolicyId, r.policies[id.index]? = some q :=
    (List.getElem?_of_mem hq).imp' PolicyId.mk fun _ hi => hi
  have hplace : placeOf r.names q.name = some id := r.placeOf_names_iff.mpr ⟨q, hi, rfl⟩
  obtain ⟨linked, hlinkedAt, hlinked⟩ := r.get?_table_of_some hi
  cases hp : t.get? id with
  | none =>
    rw [h.equivalent.get?_none hp] at hlinkedAt
    cases hlinkedAt
  | some p =>
    have hequivalent := h.equivalent.policy hp hlinkedAt
    have hname : p.name = q.name := hequivalent.name_eq.trans hlinked.name_eq
    refine ⟨id, p, hplace, ?_, hp, hname, fun s stack => ?_⟩
    · rw [h.equivalent.idOf?_eq, r.idOf?_table, hplace]
    · rw [Table.runPolicy_eq, hname, hequivalent.runAll_eq, hlinked.runAll_eq]

end Converted

/-- **A converted configuration never fails in an evaluation.**  On the table of a configuration,
simplified or not, every evaluation looks up places of the table only, and gives a decision.  On
the table of any other registry without links the lookups stay inside the table as well, and an
evaluation can only fail in a write: a step that is about to make a write of the policy that the
failure names, with an update that does not fit the field.  No lookup is left out here: the names
apart, a step depends on nothing in the table but the policy at its target. -/
theorem evaluate_convert_ok :
    (∀ (c : Configuration) notices t, c.convert = (notices, .ok t) →
      ∀ s policy route d,
        (∀ n st id, Machine.after t s d policy route n = .running st → st.target? = some id →
          ∃ p, t.get? id = some p) ∧
        ∃ decision, (t.evaluate s policy route d).2 = .ok decision) ∧
    (∀ r : Registry, r.Unlinked → ∀ s policy route d,
      (∀ n st id, Machine.after r.freeze.2 s d policy route n = .running st →
        st.target? = some id → ∃ p, r.freeze.2.get? id = some p) ∧
      ∀ e, (r.freeze.2.evaluate s policy route d).2 = .error e →
        ∃ n st notices p field update ss next,
          Machine.after r.freeze.2 s d policy route n = .running st ∧
          Machine.step r.freeze.2 s d (.running st) = .halted notices (.error e) ∧
          st.control = .runs (.write field update :: ss) next ∧
          p ∈ r.freeze.2.policies ∧ p.name = e.policy ∧
          (field, update) ∈ Statement.writesAll p.statements ∧
          update.fits field = false ∧ e.reason = update.misfit field) ∧
    (∀ (t u : Table) s d st, t.nameOf = u.nameOf →
      (∀ id, st.target? = some id → t.get? id = u.get? id) →
      Machine.step t s d (.running st) = Machine.step u s d (.running st)) := by
  refine ⟨?_, ?_, fun t u s d st hnames hget => Machine.step_congr hnames hget⟩
  · intro c notices t hconvert s policy route d
    obtain ⟨r, hconverted⟩ := exists_converted hconvert
    have hclosed := hconverted.closed
    refine ⟨fun n st id hafter htarget => hclosed.get?_target hafter htarget, ?_⟩
    exact hclosed.exists_evaluate hconverted.fits_table s policy route d
  · intro r hr s policy route d
    have hclosed : r.freeze.2.Closed := hr.noStrayLinks.closed_table
    exact ⟨fun n st id hafter htarget => hclosed.get?_target hafter htarget,
      fun e hevaluate => hclosed.of_evaluate_error hevaluate⟩

/-- A policy statement with arithmetic on a metric and a clause that names an undefined policy
converts, and never fails; a hand-made policy that prepends to a metric does fail, in its own
write. -/
theorem evaluate_convert_ok_or_misfit :
    (let c : Configuration :=
      { policyStatements :=
          [{ name := "a"
             terms := [{ clauses := [.policy ["b"]], actions := [.metricAdd 1, .accept] }] }]
        simplify := true }
     ∃ notices t, c.convert = (notices, .ok t) ∧
      ∀ s policy route d, ∃ decision, (t.evaluate s policy route d).2 = .ok decision) ∧
    (let r := Registry.empty.insert
      { name := "a", statements := [.write .metric (.prepend [1])] }
     ∀ route, ∃ e, (r.freeze.2.evaluate {} "a" route .inbound).2 = .error e ∧
      ∃ p field update, p ∈ r.freeze.2.policies ∧ p.name = e.policy ∧
        (field, update) ∈ Statement.writesAll p.statements ∧ update.fits field = false) := by
  constructor
  · intro c
    rcases hconvert : c.convert with ⟨notices, e | t⟩
    · have hok : c.convert.2.toBool = true := by decide
      rw [hconvert] at hok
      cases hok
    · exact ⟨notices, t, rfl, fun s policy route d =>
        (evaluate_convert_ok.1 c notices t hconvert s policy route d).2⟩
  · intro r route
    have hunlinked : r.Unlinked := by decide
    have hevaluate : (r.freeze.2.evaluate {} "a" route .inbound).2 =
        .error ⟨"a", .updateMisfit (.prepend [1]) .metric⟩ := by
      have hid : r.freeze.2.idOf? "a" = some ⟨0⟩ := by decide
      obtain ⟨q, hget, hlinked⟩ : ∃ q, r.freeze.2.get? ⟨0⟩ = some q ∧ q.LinkedFrom r.names
          { name := "a", statements := [.write .metric (.prepend [1])] } :=
        r.get?_table_of_some rfl
      have hrun : ∀ env, r.freeze.2.runPolicy {} [⟨0⟩] q env =
          ⟨[], .error ⟨"a", .updateMisfit (.prepend [1]) .metric⟩⟩ := by
        intro env
        rw [Table.runPolicy_eq, hlinked.runAll_eq, hlinked.name_eq]
        rfl
      unfold Table.evaluate
      simp only [hid, hget, Table.runFrom_eq, hrun]
      rfl
    obtain ⟨n, st, notices, q, field, update, ss, next, -, -, -, hq, hname, hmem, hmisfit, -⟩ :=
      (evaluate_convert_ok.2.1 r hunlinked {} "a" route .inbound).2 _ hevaluate
    exact ⟨_, hevaluate, q, field, update, hq, hname, hmem, hmisfit⟩

end Configuration

end RoutePolicy
