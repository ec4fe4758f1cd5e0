import RoutePolicy.Proofs.Configuration.Account
import RoutePolicy.Proofs.Configuration.Entries
import RoutePolicy.Proofs.Route.Overlay
import RoutePolicy.Proofs.Table.Defaults

/-!
# The members of a chain

A derived policy calls the policies of a list in order, each on the route as the ones before have
left it, until one exits.  The account of such a chain is made of the accounts of the policy
statements behind the names.  A name without a policy statement is skipped, and where calls may not
nest at all, every call is refused and rejects.

* `Configuration.accountMember`, `Configuration.accountMembers` — the account of one member and of
  the whole chain;
* `Configuration.Converted.call_member`, `Configuration.Converted.performAll_members` — the calls in
  the table of a configuration do as the account says;
* `Configuration.Converted.parallel_members` — the account does not depend on the defaults at its
  start;
* `Configuration.tallies_accountMembers` — what it leaves behind of the defaults.
-/

set_option autoImplicit false

namespace RoutePolicy

open Evaluation (Tallies)

/-! ## Settings -/

namespace Table

variable {t : Table} {s s' : Settings}

theorem context_settings (hs : s.maxCallDepth = s'.maxCallDepth) (stack : List PolicyId)
    (policy : String) : t.context s stack policy = t.context s' stack policy := by
  have henter : t.enter s stack policy = t.enter s' stack policy := by
    funext id
    unfold enter
    cases t.get? id with
    | none => rfl
    | some callee => simp only [hs, runPolicy_settings hs]
  unfold context
  rw [henter]

theorem answer_settings (hs : s.maxCallDepth = s'.maxCallDepth) (stack : List PolicyId)
    (policy : String) : t.answer s stack policy = t.answer s' stack policy := by
  funext name
  rw [answer, answer, context_settings hs]

end Table

/-! ## Environments that hold the same route -/

/-- The environments hold the same route and the same writes, and the route has a protocol. -/
structure Environment.AlikeOf (protocol : Protocol) (env env' : Environment) : Prop where
  alike : env.Alike env'
  protocol_eq : env.route.protocol = protocol

theorem Environment.congruence_alikeOf {ρ : PolicyId → PolicyId → Prop} (protocol : Protocol) :
    Environment.Congruence ρ (AlikeOf protocol) where
  alike h := h.alike
  write h hwrite _ :=
    ⟨⟨rfl, rfl⟩, (Route.written_of_write hwrite).identity.protocol.trans h.protocol_eq⟩
  setAction h _ := ⟨⟨h.alike.route_eq, h.alike.overlay_eq⟩, h.protocol_eq⟩
  setPolicy h _ := ⟨⟨h.alike.route_eq, h.alike.overlay_eq⟩, h.protocol_eq⟩
  restore _ h := ⟨⟨h.alike.route_eq, h.alike.overlay_eq⟩, h.protocol_eq⟩

/-! ## Accounts of chains -/

/-- What a stance comes to for the policy that called: only an exit ends its list of calls. -/
def Stance.called : Stance → Stance
  | .exits action => .exits action
  | .nextPolicy | .undecided => .undecided

/-- The action of a stance that exits. -/
def Stance.exit? : Stance → Option Action
  | .exits action => some action
  | .nextPolicy | .undecided => none

theorem Stance.exit?_eq_of_flow {inCall : Bool} {stance stance' : Stance}
    (h : stance.flow inCall = stance'.flow inCall) : stance.exit? = stance'.exit? := by
  cases inCall <;> cases stance <;> cases stance' <;> simp_all [flow, exit?]

section

variable {x : Evaluation Account} {inCall : Bool} {env after : Environment} {ran : List Notice}

/-- Where an account is known, so is the way it leaves the policy. -/
theorem Account.flow_apply {a : Account} (h : x env = ⟨ran, .ok (a, after)⟩) :
    (Stance.flow inCall <$> stance <$> x) env = ⟨ran, .ok (a.stance.flow inCall, after)⟩ := by
  rw [Evaluation.map_apply, Evaluation.map_apply, h]

theorem Account.exists_of_flow_apply {flow : Flow}
    (h : (Stance.flow inCall <$> stance <$> x) env = ⟨ran, .ok (flow, after)⟩) :
    ∃ a, x env = ⟨ran, .ok (a, after)⟩ ∧ a.stance.flow inCall = flow := by
  obtain ⟨_, hstance, rfl⟩ := Evaluation.of_map_ok h
  obtain ⟨a, haccount, rfl⟩ := Evaluation.of_map_ok hstance
  exact ⟨a, haccount, rfl⟩

end

/-- What an account comes to for the policy that called. -/
def Account.called (a : Account) : Account := { a with stance := a.stance.called }

theorem Evaluation.Tallies.called {x : Evaluation Account} (hx : x.Tallies) :
    (Account.called <$> x).Tallies := by
  intro env b after h
  rw [map_eq_pure_bind] at h
  obtain ⟨a, mid, hmid, hend⟩ := h.of_bind
  cases hend
  exact hx env a after hmid

namespace Configuration

/-- The policy statement of a name. -/
def statement? (c : Configuration) (name : String) : Option PolicyStatement :=
  c.policyStatements.find? (·.name == name)

section

variable (c : Configuration) (t : Table) (maxCallDepth : Nat) (caller : String)

/-- The account of one member of a chain that the policy `caller` runs.  A name without a policy
statement is skipped; where calls may not nest at all, the call is refused and rejects. -/
def accountMember (name : String) : Evaluation Account :=
  match c.statement? name with
  | none => pure { stance := .undecided }
  | some statement =>
    if maxCallDepth = 0 then do
      Evaluation.report (Table.depthNotices caller 0)
      pure { stance := .exits .reject }
    else
      Account.called <$> statement.account c.prefixLists
        (t.answer { maxCallDepth } ([caller, name].filterMap t.idOf?) name)

/-- The account of a chain: its members in order, up to the first one that exits. -/
def accountMembers : List String → Evaluation Account
  | [] => pure { stance := .undecided }
  | name :: names => (accountMember c t maxCallDepth caller name).followedBy (accountMembers names)

theorem tallies_accountMember (name : String) :
    (c.accountMember t maxCallDepth caller name).Tallies := by
  unfold accountMember
  split
  · exact .pure _
  · split
    · exact .bind (.report _) fun _ => .pure _
    · refine Tallies.called (PolicyStatement.tallies_account c.prefixLists (fun name => ?_) _)
      exact t.keepsDefaults_ask _ _ _ _

/-- A chain leaves the last default action behind that a member set outside of the policies it
asked, and never sets a default policy. -/
theorem tallies_accountMembers (names : List String) :
    (c.accountMembers t maxCallDepth caller names).Tallies := by
  induction names with
  | nil => exact .pure _
  | cons name names ih => exact (c.tallies_accountMember t maxCallDepth caller name).followedBy ih

end

namespace Converted

variable {c : Configuration} {r : Registry} {t : Table}

/-! ## Policy statements in the table -/

theorem askNamed_eq (h : c.Converted r t) (s : Settings) (stack : List PolicyId)
    (policy : String) : (t.context s stack policy).askNamed r.names = t.answer s stack policy := by
  funext name
  rw [Table.answer, h.idOf?_eq]
  rfl

/-- Without a policy statement of its name, a policy that is not derived is not defined. -/
theorem placeOf_eq_none (h : c.Converted r t) {name : String}
    (hname : isReservedName name = false) (hnone : c.statement? name = none) :
    placeOf r.names name = none := by
  cases hplace : placeOf r.names name with
  | none => rfl
  | some id =>
    obtain ⟨q, hq, rfl⟩ := r.placeOf_names_iff.mp hplace
    obtain ⟨d, hd, rfl⟩ := (h.mem_iff q).mp (List.mem_of_getElem? hq)
    rcases compiled_or_built hd with ⟨statement, hstatement, hpolicy⟩ | hbuilt
    · have hother := List.find?_eq_none.mp hnone statement hstatement
      rw [hpolicy] at hother
      exact absurd (beq_self_eq_true statement.name) hother
    · rw [hbuilt.reserved] at hname
      cases hname

/-- The policy behind a policy statement does what the statement says. -/
theorem entry_statement (h : c.Converted r t) {name : String} {statement : PolicyStatement}
    (hstatement : c.statement? name = some statement) :
    ∃ id p, t.idOf? name = some id ∧ t.get? id = some p ∧ ∀ s stack,
      t.runPolicy s stack p = Stance.flow (0 < stack.length - 1) <$>
        statement.read c.prefixLists (t.answer s stack name) := by
  have hname : statement.name = name := by simpa using List.find?_some hstatement
  subst hname
  have hdefined := h.mem_statement (List.mem_of_find?_eq_some hstatement)
  obtain ⟨id, p, -, hid, hg, -, hrun⟩ := h.entry hdefined
  refine ⟨id, p, hid, hg, fun s stack => ?_⟩
  rw [hrun, ← h.askNamed_eq]
  exact PolicyStatement.performAll_program r.names _ c.prefixLists statement

/-! ## Calls -/

variable {caller : String} {id : PolicyId}

/-- A derived policy and a policy of a user have different places. -/
theorem notMem_caller (h : c.Converted r t) (hcaller : t.idOf? caller = some id)
    (hreserved : isReservedName caller = true) {name : String}
    (hname : isReservedName name = false) {idMember : PolicyId}
    (hmember : t.idOf? name = some idMember) : idMember ∉ [id] := by
  rw [List.mem_singleton]
  rintro rfl
  rw [h.idOf?_eq] at hcaller hmember
  have hsame : caller = name :=
    (r.nameOf_of_placeOf hcaller).2.symm.trans (r.nameOf_of_placeOf hmember).2
  rw [hsame, hname] at hreserved
  cases hreserved

/-- **A derived policy that calls a member of its chain does as the account of the member says.** -/
theorem call_member (h : c.Converted r t) (hcaller : t.idOf? caller = some id)
    (hreserved : isReservedName caller = true) {name : String}
    (hname : isReservedName name = false) (s : Settings) :
    (t.context s [id] caller).call ((Reference.named name).linkOrKeep r.names) =
      Stance.flow true <$> Account.stance <$> c.accountMember t s.maxCallDepth caller name := by
  have hlink : ((Reference.named name).linkOrKeep r.names).link = placeOf r.names name :=
    Reference.link_linkOrKeep r.names rfl
  unfold accountMember
  cases hstatement : c.statement? name with
  | none =>
    rw [Context.call, Context.visit, hlink, h.placeOf_eq_none hname hstatement]
    rfl
  | some statement =>
    obtain ⟨idMember, p, hmember, hg, hrun⟩ := h.entry_statement hstatement
    have hfresh := h.notMem_caller hcaller hreserved hname hmember
    have hvisit : (t.context s [id] caller).visit ((Reference.named name).linkOrKeep r.names) =
        t.enter s [id] caller idMember := by
      rw [Context.visit, hlink, ← h.idOf?_eq, hmember]
      rfl
    rw [Context.call, hvisit, Table.enter, hg]
    simp only [if_neg hfresh]
    by_cases hdepth : s.maxCallDepth = 0
    · rw [hdepth]
      rfl
    · have hdeep : ¬ s.maxCallDepth ≤ [id].length - 1 := by
        simpa using hdepth
      have hanswer : t.answer { maxCallDepth := s.maxCallDepth }
          ([caller, name].filterMap t.idOf?) name = t.answer s ([id] ++ [idMember]) name := by
        rw [List.filterMap_cons_some hcaller, List.filterMap_cons_some hmember]
        exact Table.answer_settings (by rfl) _ _
      simp only [if_neg hdeep, if_neg hdepth, hrun, hanswer, ← PolicyStatement.stance_account,
        map_eq_pure_bind, bind_assoc, pure_bind]
      refine bind_congr fun a => ?_
      rcases a with ⟨action | _ | _, defaults⟩ <;> rfl

/-- The calls of a derived policy do as the account of the chain says. -/
theorem performAll_members (h : c.Converted r t) (hcaller : t.idOf? caller = some id)
    (hreserved : isReservedName caller = true) {members : List String}
    (hmembers : ∀ name ∈ members, isReservedName name = false) (s : Settings) :
    Statement.performAll r.names (t.context s [id] caller)
        (members.map fun p => .call (.named p)) =
      Stance.flow true <$> Account.stance <$>
        c.accountMembers t s.maxCallDepth caller members := by
  induction members with
  | nil => exact Statement.performAll_nil _ _
  | cons name names ih =>
    obtain ⟨hname, hnames⟩ := List.forall_mem_cons.mp hmembers
    rw [List.map_cons, Statement.performAll_cons, Statement.perform_call _ _ rfl,
      h.call_member hcaller hreserved hname, ih hnames, accountMembers, Account.stance_followedBy,
      map_flow_thenIf]

/-! ## The start of a chain -/

/-- **A chain does the same to a route whatever the defaults are when it starts.**  It reports the
same notices, exits the same way and makes the same writes, and leaves the protocol of the route. -/
theorem parallel_members (h : c.Converted r t) (hcaller : t.idOf? caller = some id)
    (hreserved : isReservedName caller = true) {members : List String}
    (hmembers : ∀ name ∈ members, isReservedName name = false) {maxCallDepth : Nat}
    {env env' : Environment} (halike : env.Alike env') {ran : List Notice} {account : Account}
    {after : Environment}
    (hrun : c.accountMembers t maxCallDepth caller members env = ⟨ran, .ok (account, after)⟩) :
    ∃ account' after',
      c.accountMembers t maxCallDepth caller members env' = ⟨ran, .ok (account', after')⟩ ∧
        account'.stance.exit? = account.stance.exit? ∧ after.Alike after' ∧
        after.route.protocol = env.route.protocol := by
  have hcalls := h.performAll_members hcaller hreserved hmembers { maxCallDepth }
  have hmatch := t.parallel_runAll_self (Environment.congruence_alikeOf env.route.protocol)
    { maxCallDepth } [id] caller
    (Statement.linkAll r.names (members.map fun p => .call (.named p))) env env' ⟨halike, rfl⟩
  rw [← Statement.performAll, hcalls] at hmatch
  rw [Account.flow_apply hrun] at hmatch
  obtain ⟨after', hafter', hrelated⟩ := hmatch.of_ok
  obtain ⟨account', haccount', hsame⟩ := Account.exists_of_flow_apply hafter'
  exact ⟨account', after', haccount', Stance.exit?_eq_of_flow hsame, hrelated.alike,
    hrelated.protocol_eq⟩

end Converted

end Configuration

end RoutePolicy
