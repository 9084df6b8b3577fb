import DealershipAgent.Agents.Graph

/-!
# The runs of a turn

* `TurnAt`: where a turn can be, with the runs of the nodes up to there.
* `turnAt_reach`: every configuration that the supervisor graph reaches is one of these.
* `turn_returns`: a turn that returns is at its end.
-/

namespace DealershipAgent

open Py Json Interact

section Turn

variable {F : Type} [PyFloat F] [Unicode] {settings : Settings}
  {salesAgent accountAgent : SubAgent F} {st₀ : GraphState F}

/-- A configuration of a turn. -/
abbrev TurnConfig (F : Type) : Type := Config Node (GraphState F) (Request F) Answer

/-- The update of the intake node on a blank message. -/
def askAgain (F : Type) : StateUpdate F :=
  { routes := some [.clarify], clarifyQuestion := some (.string emptyMessageQuestion) }

/-- The update of the clarify node. -/
def answerQuestion (st : GraphState F) : StateUpdate F :=
  { finalResponse := some (st.clarifyQuestion.orElse (.string defaultClarifyQuestion)) }

/-- Where a turn can be: after which runs of which nodes. -/
inductive TurnAt (settings : Settings) (salesAgent accountAgent : SubAgent F)
    (st₀ : GraphState F) : TurnConfig F → Prop
  | start : TurnAt settings salesAgent accountAgent st₀ ⟨[.intake], [], st₀, []⟩
  | blank : lastIsBlank st₀.messages = true →
      TurnAt settings salesAgent accountAgent st₀
        ⟨[.clarify], [.intake], st₀.apply (askAgain F), []⟩
  | asked : lastIsBlank st₀.messages = false →
      TurnAt settings salesAgent accountAgent st₀ ⟨[.router], [.intake], st₀, []⟩
  | routed {u : StateUpdate F} {t : Trace F} {active : List Node} :
      lastIsBlank st₀.messages = false → Runs (routerNode settings st₀) t (.ok u) →
      routesAfterRouter (st₀.apply u) = active →
      TurnAt settings salesAgent accountAgent st₀
        ⟨active, [.intake, .router], st₀.apply u, t.map (Event.tag .router)⟩
  | clarified {path : List Node} {st : GraphState F} {tr : TurnTrace F} :
      TurnAt settings salesAgent accountAgent st₀ ⟨[.clarify], path, st, tr⟩ →
      TurnAt settings salesAgent accountAgent st₀
        ⟨[], path ++ [.clarify], st.apply (answerQuestion st), tr⟩
  | sales {path : List Node} {st : GraphState F} {tr : TurnTrace F} {u : StateUpdate F}
      {t : Trace F} :
      TurnAt settings salesAgent accountAgent st₀ ⟨[.salesAgent], path, st, tr⟩ →
      Runs (salesAgentNode settings salesAgent st) t (.ok u) →
      TurnAt settings salesAgent accountAgent st₀
        ⟨[.merge], path ++ [.salesAgent], st.apply u, tr ++ t.map (Event.tag .salesAgent)⟩
  | account {path : List Node} {st : GraphState F} {tr : TurnTrace F} {u : StateUpdate F}
      {t : Trace F} :
      TurnAt settings salesAgent accountAgent st₀ ⟨[.accountAgent], path, st, tr⟩ →
      Runs (accountAgentNode settings accountAgent st) t (.ok u) →
      TurnAt settings salesAgent accountAgent st₀
        ⟨[.merge], path ++ [.accountAgent], st.apply u, tr ++ t.map (Event.tag .accountAgent)⟩
  | both {path : List Node} {st : GraphState F} {tr tr' : TurnTrace F} {u u' : StateUpdate F}
      {t t' : Trace F} :
      TurnAt settings salesAgent accountAgent st₀ ⟨[.salesAgent, .accountAgent], path, st, tr⟩ →
      Runs (salesAgentNode settings salesAgent st) t (.ok u) →
      Runs (accountAgentNode settings accountAgent st) t' (.ok u') →
      Interleave (t.map (Event.tag .salesAgent)) (t'.map (Event.tag .accountAgent)) tr' →
      TurnAt settings salesAgent accountAgent st₀
        ⟨[.merge], path ++ [.salesAgent, .accountAgent], (st.apply u).apply u', tr ++ tr'⟩
  | merged {path : List Node} {st : GraphState F} {tr : TurnTrace F} {node : Node} :
      TurnAt settings salesAgent accountAgent st₀ ⟨[.merge], path, st, tr⟩ →
      routeAfterMerge st = node →
      TurnAt settings salesAgent accountAgent st₀ ⟨[node], path ++ [.merge], st, tr⟩
  | escalated {path : List Node} {st : GraphState F} {tr : TurnTrace F} {u : StateUpdate F}
      {t : Trace F} :
      TurnAt settings salesAgent accountAgent st₀ ⟨[.escalate], path, st, tr⟩ →
      Runs (escalateNode accountAgent st) t (.ok u) →
      TurnAt settings salesAgent accountAgent st₀
        ⟨[.synthesis], path ++ [.escalate], st.apply u, tr ++ t.map (Event.tag .escalate)⟩
  | drafted {path : List Node} {st : GraphState F} {tr : TurnTrace F} {u : StateUpdate F}
      {t : Trace F} :
      TurnAt settings salesAgent accountAgent st₀ ⟨[.synthesis], path, st, tr⟩ →
      Runs (synthesisNode settings st) t (.ok u) →
      TurnAt settings salesAgent accountAgent st₀
        ⟨[.verifyClaims], path ++ [.synthesis], st.apply u, tr ++ t.map (Event.tag .synthesis)⟩
  | verified {path : List Node} {st : GraphState F} {tr : TurnTrace F} {u : StateUpdate F}
      {t : Trace F} :
      TurnAt settings salesAgent accountAgent st₀ ⟨[.verifyClaims], path, st, tr⟩ →
      Runs (verifyClaimsNode settings st) t (.ok u) →
      TurnAt settings salesAgent accountAgent st₀
        ⟨[], path ++ [.verifyClaims], st.apply u, tr ++ t.map (Event.tag .verifyClaims)⟩

omit [PyFloat F] [Unicode] in
@[simp] theorem apply_empty (st : GraphState F) : st.apply {} = st := by
  cases st
  simp [GraphState.apply]

omit [PyFloat F] [Unicode] in
/-- What follows the router. -/
theorem routesAfterRouter_cases (st : GraphState F) :
    routesAfterRouter st = [.clarify] ∨ routesAfterRouter st = [.escalate] ∨
      routesAfterRouter st = [.salesAgent] ∨ routesAfterRouter st = [.accountAgent] ∨
      routesAfterRouter st = [.salesAgent, .accountAgent] := by
  unfold routesAfterRouter
  by_cases hs : Route.sales ∈ st.routes <;> by_cases ha : Route.account ∈ st.routes <;>
    by_cases hc : Route.clarify ∈ st.routes <;> by_cases he : Route.escalate ∈ st.routes <;>
    simp [hs, ha, hc, he]

omit [PyFloat F] [Unicode] in
theorem routeAfterMerge_cases (st : GraphState F) :
    routeAfterMerge st = .escalate ∨ routeAfterMerge st = .synthesis := by
  unfold routeAfterMerge
  by_cases h : anyResultNeedsEscalation st = true <;> simp [h]

/-- The shapes of the active nodes. -/
theorem TurnAt.active_cases {c : TurnConfig F}
    (h : TurnAt settings salesAgent accountAgent st₀ c) :
    c.active = [] ∨ c.active = [.intake] ∨ c.active = [.router] ∨ c.active = [.clarify] ∨
      c.active = [.escalate] ∨ c.active = [.salesAgent] ∨ c.active = [.accountAgent] ∨
      c.active = [.salesAgent, .accountAgent] ∨ c.active = [.merge] ∨ c.active = [.synthesis] ∨
      c.active = [.verifyClaims] := by
  cases h with
  | @routed u t active hb hrun ha =>
    subst ha
    rcases routesAfterRouter_cases (st₀.apply u) with h | h | h | h | h <;> simp [h]
  | @merged path st tr node h hn =>
    subst hn
    rcases routeAfterMerge_cases st with h | h <;> simp [h]
  | _ => simp

/-- A node that is active alone, when it is active. -/
theorem TurnAt.active_alone {c : TurnConfig F}
    (h : TurnAt settings salesAgent accountAgent st₀ c) {m : Node} (hm : m ∈ c.active)
    (hne : m ≠ .salesAgent ∧ m ≠ .accountAgent) : c.active = [m] := by
  rcases h.active_cases with ha | ha | ha | ha | ha | ha | ha | ha | ha | ha | ha <;>
    rw [ha] at hm ⊢ <;> simp at hm <;> grind

omit [PyFloat F] [Unicode] in
/-- The router and the merge lead to no other nodes. -/
theorem routesAfterRouter_ne {st : GraphState F} {node : Node} (h : routesAfterRouter st = [node]) :
    node = .clarify ∨ node = .escalate ∨ node = .salesAgent ∨ node = .accountAgent := by
  rcases routesAfterRouter_cases st with h' | h' | h' | h' | h' <;> rw [h'] at h <;> cases h <;> simp

/-! ## Every configuration of a turn is one of these -/

/-- A turn at the intake node has done nothing. -/
theorem TurnAt.at_intake {path : List Node} {st : GraphState F} {tr : TurnTrace F}
    (h : TurnAt settings salesAgent accountAgent st₀ ⟨[.intake], path, st, tr⟩) :
    path = [] ∧ st = st₀ ∧ tr = [] := by
  cases h with
  | start => exact ⟨rfl, rfl, rfl⟩
  | routed hb hrun ha => rcases routesAfterRouter_ne ha with h | h | h | h <;> cases h
  | @merged _ st _ _ h hn => rcases routeAfterMerge_cases st with h | h <;> rw [h] at hn <;> cases hn

/-- A turn at the router has a message to route. -/
theorem TurnAt.at_router {path : List Node} {st : GraphState F} {tr : TurnTrace F}
    (h : TurnAt settings salesAgent accountAgent st₀ ⟨[.router], path, st, tr⟩) :
    path = [.intake] ∧ st = st₀ ∧ tr = [] ∧ lastIsBlank st₀.messages = false := by
  cases h with
  | asked hb => exact ⟨rfl, rfl, rfl, hb⟩
  | routed hb hrun ha => rcases routesAfterRouter_ne ha with h | h | h | h <;> cases h
  | @merged _ st _ _ h hn => rcases routeAfterMerge_cases st with h | h <;> rw [h] at hn <;> cases hn

/-- A turn at the clarify node comes from a blank message or from the router. -/
theorem TurnAt.at_clarify {path : List Node} {st : GraphState F} {tr : TurnTrace F}
    (h : TurnAt settings salesAgent accountAgent st₀ ⟨[.clarify], path, st, tr⟩) :
    (path = [.intake] ∧ st = st₀.apply (askAgain F) ∧ tr = []) ∨
    ∃ u t, path = [.intake, .router] ∧ st = st₀.apply u ∧ tr = t.map (Event.tag .router) ∧
      Runs (routerNode settings st₀) t (.ok u) ∧ routesAfterRouter st = [.clarify] := by
  cases h with
  | blank hb => exact .inl ⟨rfl, rfl, rfl⟩
  | @routed u t _ hb hrun ha => exact .inr ⟨u, t, rfl, rfl, rfl, hrun, ha⟩
  | @merged _ st _ _ h hn => rcases routeAfterMerge_cases st with h | h <;> rw [h] at hn <;> cases hn

/-- A turn at `verify_claims` has a draft. -/
theorem TurnAt.at_verifyClaims {path : List Node} {st : GraphState F} {tr : TurnTrace F}
    (h : TurnAt settings salesAgent accountAgent st₀ ⟨[.verifyClaims], path, st, tr⟩) :
    ∃ draft, st.finalResponse = .string draft := by
  cases h with
  | routed hb hrun ha => rcases routesAfterRouter_ne ha with h | h | h | h <;> cases h
  | @merged _ st _ _ h hn => rcases routeAfterMerge_cases st with h | h <;> rw [h] at hn <;> cases hn
  | drafted h hrun =>
    obtain ⟨degraded, reasons, response, -, -, rfl⟩ := runs_synthesisNode hrun
    exact ⟨response, rfl⟩

/-- A superstep of the graph keeps `TurnAt`, by the nodes that are active. -/
theorem turnAt_step {c c' : TurnConfig F} (h₀ : st₀.routes ≠ [.clarify])
    (h : TurnAt settings salesAgent accountAgent st₀ c)
    (hstep : (buildSupervisorGraph settings salesAgent accountAgent).Superstep c c') :
    TurnAt settings salesAgent accountAgent st₀ c' := by
  have hshape := h.active_cases
  obtain ⟨active, path, st, tr⟩ := c
  simp only at hshape
  rcases hshape with rfl | rfl | rfl | rfl | rfl | rfl | rfl | rfl | rfl | rfl | rfl
  · cases hstep with
    | mk hne _ => exact absurd rfl hne
  · obtain ⟨u, t, hrun, rfl⟩ := hstep.single
    obtain ⟨rfl, rfl, rfl⟩ := h.at_intake
    change Runs (intakeNode st) t (.ok u) at hrun
    unfold intakeNode at hrun
    by_cases hb : lastIsBlank st.messages = true
    · rw [if_pos hb] at hrun
      obtain ⟨rfl, hu⟩ := runs_ret.mp hrun
      cases hu
      exact .blank hb
    · rw [if_neg hb] at hrun
      obtain ⟨rfl, hu⟩ := runs_ret.mp hrun
      cases hu
      have hnext : routeAfterIntake st = .router := if_neg h₀
      simp only [buildSupervisorGraph, nextNodes, apply_empty, hnext]
      exact .asked (by simpa using hb)
  · obtain ⟨u, t, hrun, rfl⟩ := hstep.single
    obtain ⟨rfl, rfl, rfl, hb⟩ := h.at_router
    refine .routed hb hrun ?_
    change _ = (routesAfterRouter (st.apply u)).dedup
    rcases routesAfterRouter_cases (st.apply u) with h | h | h | h | h <;> rw [h] <;> rfl
  · obtain ⟨u, t, hrun, rfl⟩ := hstep.single
    obtain ⟨rfl, hu⟩ := runs_ret.mp hrun
    cases hu
    rw [List.map_nil, List.append_nil]
    exact .clarified h
  · obtain ⟨u, t, hrun, rfl⟩ := hstep.single
    exact .escalated h hrun
  · obtain ⟨u, t, hrun, rfl⟩ := hstep.single
    exact .sales h hrun
  · obtain ⟨u, t, hrun, rfl⟩ := hstep.single
    exact .account h hrun
  · obtain ⟨u, u', t, t', t'', hrun, hrun', hi, rfl⟩ := hstep.pair
    exact .both h hrun hrun' hi
  · obtain ⟨u, t, hrun, rfl⟩ := hstep.single
    obtain ⟨rfl, hu⟩ := runs_ret.mp hrun
    cases hu
    have happly : (buildSupervisorGraph settings salesAgent accountAgent).apply st {} = st :=
      apply_empty st
    rw [List.map_nil, List.append_nil, happly]
    exact .merged h rfl
  · obtain ⟨u, t, hrun, rfl⟩ := hstep.single
    exact .drafted h hrun
  · obtain ⟨u, t, hrun, rfl⟩ := hstep.single
    exact .verified h hrun

/-- Every configuration that the graph reaches from the initial state. -/
theorem turnAt_reach {c : TurnConfig F} {n : Nat} (h₀ : st₀.routes ≠ [.clarify])
    (h : (buildSupervisorGraph settings salesAgent accountAgent).Reach ⟨[.intake], [], st₀, []⟩ n c) :
    TurnAt settings salesAgent accountAgent st₀ c := by
  induction h with
  | start => exact .start
  | step _ hs ih => exact turnAt_step h₀ ih hs

/-- A turn that returns has built its sub-agents and reached the end of the graph. -/
theorem turn_reaches {runner : Runner F} {sched : Nat → Nat → Nat → Bool}
    {identity : RequestIdentity} {messages : List Message} {tr : TurnTrace F} {path : List Node}
    {fin : GraphState F} (h : Runs (runTurn runner sched identity messages) tr (.ok (path, fin))) :
    ∃ salesAgent accountAgent n, buildSalesAgent runner.registered = .ok salesAgent ∧
      buildAccountAgent runner.registered = .ok accountAgent ∧
      (buildSupervisorGraph runner.settings salesAgent accountAgent).Reach
        ⟨[.intake], [], initialState identity messages, []⟩ n ⟨[], path, fin, tr⟩ := by
  unfold runTurn at h
  obtain ⟨salesAgent, t₁, t₂, rfl, h₁, h₂⟩ := runs_bind_ok.mp h
  obtain ⟨rfl, hs⟩ := runs_lift.mp h₁
  obtain ⟨accountAgent, t₃, t₄, rfl, h₃, h₄⟩ := runs_bind_ok.mp h₂
  obtain ⟨rfl, ha⟩ := runs_lift.mp h₃
  obtain ⟨n, hr⟩ := Graph.runs_run_ok (c := ⟨[Node.intake], [], initialState identity messages, []⟩)
    .start h₄
  exact ⟨salesAgent, accountAgent, n, mapError_eq_ok.mp hs.symm, mapError_eq_ok.mp ha.symm, hr⟩

/-- A turn that returns is at its end, with sub-agents that have exactly their tools. -/
theorem turn_returns {runner : Runner F} {sched : Nat → Nat → Nat → Bool}
    {identity : RequestIdentity} {messages : List Message} {tr : TurnTrace F} {path : List Node}
    {fin : GraphState F} (h : Runs (runTurn runner sched identity messages) tr (.ok (path, fin))) :
    ∃ salesAgent accountAgent, buildSalesAgent runner.registered = .ok salesAgent ∧
      buildAccountAgent runner.registered = .ok accountAgent ∧
      TurnAt runner.settings salesAgent accountAgent (initialState identity messages)
        ⟨[], path, fin, tr⟩ := by
  obtain ⟨salesAgent, accountAgent, n, hs, ha, hr⟩ := turn_reaches h
  exact ⟨salesAgent, accountAgent, hs, ha, turnAt_reach (by simp [initialState]) hr⟩

/-- The run of a turn whose router has decided: it goes on from the nodes `active`. -/
theorem exec_runTurn {runner : Runner F} {sched : Nat → Nat → Nat → Bool}
    {identity : RequestIdentity} {messages : List Message}
    {env : Env (Node × Request F) fun r => Answer r.2} {raw : Str} {u : StateUpdate F}
    {active : List Node} {limit : Nat} {rest : TurnTrace F × Except Raised (List Node × GraphState F)}
    (hs : buildSalesAgent runner.registered = .ok salesAgent)
    (ha : buildAccountAgent runner.registered = .ok accountAgent)
    (hlimit : runner.recursionLimit = limit + 2) (hb : lastIsBlank messages = false)
    (hraw : env [] (.router, .complete (⟨.system, routerSystemPrompt⟩ :: messages)
      runner.settings.modelClassifier) = .ok raw)
    (hu : routerDecision raw messages = .ok u)
    (hactive : (routesAfterRouter ((initialState identity messages).apply u)).dedup = active)
    (hrest : exec env [⟨(.router, .complete (⟨.system, routerSystemPrompt⟩ :: messages)
        runner.settings.modelClassifier), .ok raw⟩]
      ((buildSupervisorGraph runner.settings salesAgent accountAgent).run sched
        (recursionError runner.recursionLimit) limit active ((initialState identity messages).apply u)) =
      rest) :
    exec env [] (runTurn runner sched identity messages) =
      (⟨(.router, .complete (⟨.system, routerSystemPrompt⟩ :: messages)
        runner.settings.modelClassifier), .ok raw⟩ :: rest.1,
        rest.2.map fun x => (.intake :: .router :: x.1, x.2)) := by
  have hintake : Runs (intakeNode (initialState identity messages : GraphState F)) [] (.ok {}) := by
    unfold intakeNode
    rw [if_neg (by simpa [initialState] using hb)]
    exact .ret _
  have hrouter : Runs (routerNode runner.settings (initialState identity messages))
      [⟨.complete (⟨.system, routerSystemPrompt⟩ :: messages) runner.settings.modelClassifier,
        .ok raw⟩] (.ok u) := by
    unfold routerNode
    rw [if_neg (by simp [initialState])]
    exact runs_bind_ok.mpr ⟨raw, [_], [], rfl, runs_complete_ok.mpr rfl,
      runs_code_ok.mpr ⟨rfl, hu⟩⟩
  have hone : Runs (parAll (sched (limit + 1)) ((buildSupervisorGraph runner.settings salesAgent
      accountAgent).programs [.intake] (initialState identity messages))) [] (.ok [{}]) :=
    Runs.parAll_single (runs_tag.mpr ⟨[], rfl, hintake⟩)
  have hnext : (buildSupervisorGraph runner.settings salesAgent accountAgent).successors [.intake]
      (initialState identity messages) [{}] = [.router] := rfl
  have htwo : Runs (parAll (sched limit) ((buildSupervisorGraph runner.settings salesAgent
      accountAgent).programs [.router] (initialState identity messages))) [⟨(.router, .complete
        (⟨.system, routerSystemPrompt⟩ :: messages) runner.settings.modelClassifier), .ok raw⟩]
      (.ok [u]) :=
    Runs.parAll_single (runs_tag.mpr ⟨_, rfl, hrouter⟩)
  have hroutes : (buildSupervisorGraph runner.settings salesAgent accountAgent).successors [.router]
      (initialState identity messages) [u] = active := by
    rw [← hactive]
    simp only [Graph.successors, List.zip_cons_cons, List.zip_nil_right, List.flatMap_cons,
      List.flatMap_nil, List.append_nil]
    rfl
  have hmap : ∀ o : Except Raised (List Node × GraphState F),
      (o.map fun x => ([.router] ++ x.1, x.2)).map (fun x => ([.intake] ++ x.1, x.2)) =
        o.map fun x => (.intake :: .router :: x.1, x.2) := by
    intro o
    cases o <;> rfl
  have hnone : Answers env [] [] := trivial
  have hasked : Answers env [] [⟨(.router, .complete (⟨.system, routerSystemPrompt⟩ :: messages)
      runner.settings.modelClassifier), .ok raw⟩] := ⟨hraw.symm, trivial⟩
  have hfirst := Graph.exec_run (recursionError runner.recursionLimit) hone hnone
  have hsecond := Graph.exec_run (recursionError runner.recursionLimit) htwo hasked
  rw [hroutes] at hsecond
  rw [hlimit] at hfirst hsecond hrest
  rw [runTurn_eq hs ha, hlimit]
  refine hfirst.trans ?_
  refine (congrArg (fun rest : TurnTrace F × Except Raised (List Node × GraphState F) =>
    (([] : TurnTrace F) ++ rest.1, rest.2.map fun x => ([.intake] ++ x.1, x.2))) hsecond).trans ?_
  refine (congrArg (fun rest : TurnTrace F × Except Raised (List Node × GraphState F) =>
    (_ :: rest.1, (rest.2.map fun x => ([.router] ++ x.1, x.2)).map fun x =>
      ([.intake] ++ x.1, x.2))) hrest).trans ?_
  exact congrArg (Prod.mk _) (hmap rest.2)

/-- The run of a turn whose router has decided for one sub-agent, which has returned: it goes on from
`merge`. -/
theorem exec_runTurn_agent {runner : Runner F} {sched : Nat → Nat → Nat → Bool}
    {identity : RequestIdentity} {messages : List Message}
    {env : Env (Node × Request F) fun r => Answer r.2} {raw : Str} {u v : StateUpdate F}
    {m : Node} {t : Trace F} {limit : Nat}
    {rest : TurnTrace F × Except Raised (List Node × GraphState F)}
    (hs : buildSalesAgent runner.registered = .ok salesAgent)
    (ha : buildAccountAgent runner.registered = .ok accountAgent)
    (hlimit : runner.recursionLimit = limit + 1 + 2) (hb : lastIsBlank messages = false)
    (hraw : env [] (.router, .complete (⟨.system, routerSystemPrompt⟩ :: messages)
      runner.settings.modelClassifier) = .ok raw)
    (hu : routerDecision raw messages = .ok u)
    (hactive : (routesAfterRouter ((initialState identity messages).apply u)).dedup = [m])
    (hm : m = .salesAgent ∨ m = .accountAgent)
    (hagent : Runs ((buildSupervisorGraph runner.settings salesAgent accountAgent).node m
      ((initialState identity messages).apply u)) t (.ok v))
    (hanswers : Answers env [⟨(.router, .complete (⟨.system, routerSystemPrompt⟩ :: messages)
      runner.settings.modelClassifier), .ok raw⟩] (t.map (Event.tag m)))
    (hrest : exec env (⟨(.router, .complete (⟨.system, routerSystemPrompt⟩ :: messages)
        runner.settings.modelClassifier), .ok raw⟩ :: t.map (Event.tag m))
      ((buildSupervisorGraph runner.settings salesAgent accountAgent).run sched
        (recursionError runner.recursionLimit) limit [.merge]
        (((initialState identity messages).apply u).apply v)) = rest) :
    exec env [] (runTurn runner sched identity messages) =
      (⟨(.router, .complete (⟨.system, routerSystemPrompt⟩ :: messages)
        runner.settings.modelClassifier), .ok raw⟩ :: (t.map (Event.tag m) ++ rest.1),
        rest.2.map fun x => (.intake :: .router :: m :: x.1, x.2)) := by
  have hone : Runs (parAll (sched limit) ((buildSupervisorGraph runner.settings salesAgent
      accountAgent).programs [m] ((initialState identity messages).apply u)))
      (t.map (Event.tag m)) (.ok [v]) :=
    Runs.parAll_single (runs_tag.mpr ⟨_, rfl, hagent⟩)
  have hmerge : (buildSupervisorGraph runner.settings salesAgent accountAgent).successors [m]
      ((initialState identity messages).apply u) [v] = [.merge] := by
    rcases hm with rfl | rfl <;> rfl
  have hmap : ∀ o : Except Raised (List Node × GraphState F),
      (o.map fun x => ([m] ++ x.1, x.2)).map (fun x => (.intake :: .router :: x.1, x.2)) =
        o.map fun x => (.intake :: .router :: m :: x.1, x.2) := by
    intro o
    cases o <;> rfl
  have hstep := Graph.exec_run (recursionError runner.recursionLimit) hone hanswers
  rw [hmerge] at hstep
  subst hrest
  exact (exec_runTurn hs ha hlimit hb hraw hu hactive hstep).trans (congrArg (Prod.mk _) (hmap _))

end Turn

/-! ## Turns on fixed replies -/

/-- An LLM that answers each node with one text or exception, and tools that fail. -/
def nodeReplies (replies : Node → Except Exc Str) :
    Env (Node × Request FloatText) (fun r => Answer r.2) := fun _ r =>
  match r with
  | (node, .complete _ _) => replies node
  | (_, .callTool _ _) => .error ⟨.runtimeError, []⟩

def shopRunner : Runner FloatText where
  settings := { modelClassifier := "small", modelSynthesis := "large" }
  registered := (salesAgentTools ++ accountAgentTools).map fun name => ⟨name, none, []⟩

/-- An anonymous turn on the message `content`. -/
def shopTurn (content : Str) (replies : Node → Except Exc Str) :
    TurnTrace FloatText × Except Raised (List Node × GraphState FloatText) :=
  exec (nodeReplies replies) [] (@runTurn FloatText _ asciiUnicode shopRunner (fun _ _ _ => true)
    ⟨"s-1", none⟩ [⟨.user, content⟩])

theorem shopTurn_runs (content : Str) (replies : Node → Except Exc Str) :
    Runs (@runTurn FloatText _ asciiUnicode shopRunner (fun _ _ _ => true) ⟨"s-1", none⟩
      [⟨.user, content⟩]) (shopTurn content replies).1 (shopTurn content replies).2 :=
  exec_runs _ _ _

/-- What holds of each node's text holds of the events. -/
theorem shopTurn_onReply {P : Node → Str → Prop} {content : Str} {replies : Node → Except Exc Str}
    (h : ∀ node raw, replies node = .ok raw → P node raw) :
    ∀ ev ∈ (shopTurn content replies).1, OnReply (P ev.req.1) ev.untag := by
  refine exec_forall (fun hist r => ?_) _ _
  obtain ⟨node, r⟩ := r
  cases r with
  | callTool name arguments => exact trivial
  | complete messages model =>
    change OnReply (P node) (⟨.complete messages model, replies node⟩ :
      Event (Request FloatText) Answer)
    cases hr : replies node with
    | error e => exact trivial
    | ok raw => exact h node raw hr

end DealershipAgent
