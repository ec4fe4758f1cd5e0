import RoutePolicy.Proofs.Evaluation.WorkingRoute
import RoutePolicy.Policy.Simplify
import RoutePolicy.Registry.Link

/-!
# The writes of a program

Whether a write fails can be seen from the program: it depends on the field and on the right-hand
side, and not on the route, since a route always holds a value of the right shape in every field.

* `Update.fits` — whether an update gives values of the shape that a field takes;
* `Evaluation.write_of_fits`, `Evaluation.write_of_misfit` — what a write then does;
* `Statement.writesAll` — the writes that statements contain, at any depth of nesting;
* `Statement.writesAll_linkAll`, `Statement.writesAll_simplifyAll_sublist` — linking keeps the
  writes, and simplifying adds none.
-/

set_option autoImplicit false

namespace RoutePolicy

/-- Whether a field holds a number. -/
def RouteField.isNumeric : RouteField → Bool
  | .localPreference | .metric | .tag => true
  | .communities | .origin | .nextHop | .metricType | .asPath => false

namespace Update

/-- Whether an update applies to a field and gives it a value of the right shape. -/
def fits (field : RouteField) : Update → Bool
  | .assign value => value.fits field
  | .addCommunities _ | .removeCommunities _ => field == .communities
  | .increment _ | .decrement _ => field.isNumeric
  | .prepend _ => field == .asPath

/-- Why a write fails whose update does not fit its field: a value that is assigned has the wrong
shape, and any other update does not apply to the field. -/
def misfit (field : RouteField) : Update → Malformation
  | .assign value => .valueMisfit ⟨field, value⟩
  | update => .updateMisfit update field

/-- An update that fits a field gives it a value, whatever the route is. -/
theorem exists_compute (r : Route) {field : RouteField} {u : Update} (h : u.fits field = true) :
    ∃ value, u.compute (r.get field) = some value ∧ value.fits field = true := by
  cases u with
  | assign value => exact ⟨value, rfl, h⟩
  | _ =>
    cases field <;> first
      | exact ⟨_, rfl, rfl⟩
      | cases h

end Update

namespace Evaluation

variable {policy : String} {field : RouteField} {update : Update}

theorem write_of_fits (h : update.fits field = true) (env : Environment) :
    ∃ env', (write policy field update env).result = .ok ((), env') := by
  obtain ⟨value, hvalue, hfits⟩ := update.exists_compute env.route h
  obtain ⟨route, hroute⟩ := env.route.exists_write hfits
  refine ⟨{ env with route, overlay := env.overlay.set field value }, ?_⟩
  simp only [write, hvalue, hroute]

theorem write_of_misfit (h : update.fits field = false) (env : Environment) :
    (write policy field update env).result = .error ⟨policy, update.misfit field⟩ := by
  cases update with
  | assign value =>
    have hwrite := env.route.write_of_misfit h
    simp only [write, Update.compute, hwrite, Update.misfit]
  | _ =>
    cases field <;> first
      | rfl
      | cases h

/-- A write fails where its update does not fit its field, and only there. -/
theorem write_eq_error_iff {env : Environment} {e : MalformedPolicy} :
    (write policy field update env).result = .error e ↔
      update.fits field = false ∧ e = ⟨policy, update.misfit field⟩ := by
  cases hfits : update.fits field with
  | false =>
    rw [write_of_misfit hfits env, Except.error.injEq]
    exact ⟨fun h => ⟨rfl, h.symm⟩, fun h => h.2.symm⟩
  | true =>
    have hok : ∃ env', (write policy field update env).result = .ok ((), env') :=
      write_of_fits hfits env
    obtain ⟨env', henv'⟩ := hok
    rw [henv']
    simp

end Evaluation

namespace Statement

mutual

/-- The writes in a statement, in the order of their occurrence. -/
def writes : Statement → List (RouteField × Update)
  | .branch _ a b => writesAll a ++ writesAll b
  | .write field update => [(field, update)]
  | .setDefaultPolicy _ | .call _ | .comment _ | .control _ => []

/-- The writes in several statements. -/
def writesAll : List Statement → List (RouteField × Update)
  | [] => []
  | s :: ss => writes s ++ writesAll ss

end

theorem writesAll_eq_flatMap (ss : List Statement) : writesAll ss = ss.flatMap writes := by
  induction ss with
  | nil => rfl
  | cons s ss ih => rw [writesAll, ih, List.flatMap_cons]

theorem writesAll_append (ss ts : List Statement) :
    writesAll (ss ++ ts) = writesAll ss ++ writesAll ts := by
  simp only [writesAll_eq_flatMap, List.flatMap_append]

/-! ## Linking -/

mutual

theorem writes_link? (names : List String) : (s : Statement) →
    (s.link? names).toList.flatMap writes = s.writes
  | .branch guard a b => by
    simp only [link?, Option.toList_some, List.flatMap_singleton, writes]
    rw [writesAll_linkAll names a, writesAll_linkAll names b]
  | .write field update => by simp [link?, writes]
  | .setDefaultPolicy target => by cases h : target.link? names <;> simp [link?, writes, h]
  | .call target => by cases h : target.link? names <;> simp [link?, writes, h]
  | .comment text => by simp [link?, writes]
  | .control kind => by simp [link?, writes]

/-- A program has the same writes after it is linked. -/
theorem writesAll_linkAll (names : List String) : (ss : List Statement) →
    writesAll (linkAll names ss) = writesAll ss
  | [] => by rw [linkAll]
  | s :: ss => by
    have hfirst := writes_link? names s
    have hrest := writesAll_linkAll names ss
    rw [linkAll, writesAll, ← hfirst, ← hrest]
    cases s.link? names with
    | none => simp
    | some s' => simp [writesAll]

end

/-! ## Simplifying -/

theorem writesAll_cutAfterEnd_sublist (ss : List Statement) :
    (writesAll (cutAfterEnd ss)).Sublist (writesAll ss) := by
  induction ss with
  | nil => exact .refl _
  | cons s ss ih =>
    rw [cutAfterEnd, writesAll]
    split
    · rw [writesAll, writesAll, List.append_nil]
      exact List.sublist_append_left _ _
    · rw [writesAll]
      exact (List.Sublist.refl _).append ih

theorem writesAll_simplifyBranch_sublist (guard : Condition) (a b : List Statement) :
    (writesAll (simplifyBranch guard a b)).Sublist (writesAll a ++ writesAll b) := by
  unfold simplifyBranch
  split
  · exact List.sublist_append_left _ _
  · exact List.sublist_append_right _ _
  · split
    · exact List.nil_sublist _
    · have hbranch : writesAll [branch guard a b] = writesAll a ++ writesAll b :=
        List.append_nil _
      exact hbranch ▸ .refl _

mutual

theorem writesAll_simplify_sublist : (s : Statement) → (writesAll s.simplify).Sublist s.writes
  | .comment _ => by simp [simplify, writesAll]
  | .branch guard a b => by
    have ha := (writesAll_cutAfterEnd_sublist _).trans (writesAll_simplifyEach_sublist a)
    have hb := (writesAll_cutAfterEnd_sublist _).trans (writesAll_simplifyEach_sublist b)
    rw [simplify, writes]
    exact (writesAll_simplifyBranch_sublist _ _ _).trans (ha.append hb)
  | .write field update => by simp [simplify, writesAll]
  | .setDefaultPolicy _ => by simp [simplify, writesAll, writes]
  | .call _ => by simp [simplify, writesAll, writes]
  | .control _ => by simp [simplify, writesAll, writes]

theorem writesAll_simplifyEach_sublist : (ss : List Statement) →
    (writesAll (simplifyEach ss)).Sublist (writesAll ss)
  | [] => .refl _
  | s :: ss => by
    rw [simplifyEach, writesAll_append, writesAll]
    exact (writesAll_simplify_sublist s).append (writesAll_simplifyEach_sublist ss)

end

/-- A simplified program has no writes that the program lacks, and has them in the same order. -/
theorem writesAll_simplifyAll_sublist (ss : List Statement) :
    (writesAll (simplifyAll ss)).Sublist (writesAll ss) :=
  (writesAll_cutAfterEnd_sublist _).trans (writesAll_simplifyEach_sublist ss)

end Statement

end RoutePolicy
