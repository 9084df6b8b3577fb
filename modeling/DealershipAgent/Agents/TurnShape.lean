import Mathlib.Algebra.Order.BigOperators.Group.List
import Mathlib.Algebra.Order.Ring.Nat
import DealershipAgent.Interact.Eval
import DealershipAgent.Agents.Requests

/-!
# Where a turn goes

* `Gathered`: what the sub-agents have done when a turn is at `merge`; `TurnAt.at_merge`,
  `TurnAt.at_synthesis`: the whole turn up to there.
* `merge_state_det`: with the LLM and the tools functions of their requests, the state at `merge` does
  not depend on how the requests of the two loops interleave.
* `turn_shape`: the paths of the turns that return, and how many requests they make.
-/

namespace DealershipAgent

open Py Json Interact

section Shape

variable {F : Type} [PyFloat F] [Unicode] {settings : Settings}
  {salesAgent accountAgent : SubAgent F} {st₀ st₁ : GraphState F}

/-- The sub-agents that the router chose have run on the state `st₁`. -/
inductive Gathered (settings : Settings) (salesAgent accountAgent : SubAgent F)
    (st₁ : GraphState F) : List Node → GraphState F → TurnTrace F → Prop
  | sales {u : StateUpdate F} {t : Trace F} :
      Runs (salesAgentNode settings salesAgent st₁) t (.ok u) →
      Gathered settings salesAgent accountAgent st₁ [.salesAgent] (st₁.apply u)
        (t.map (Event.tag .salesAgent))
  | account {u : StateUpdate F} {t : Trace F} :
      Runs (accountAgentNode settings accountAgent st₁) t (.ok u) →
      Gathered settings salesAgent accountAgent st₁ [.accountAgent] (st₁.apply u)
        (t.map (Event.tag .accountAgent))
  | both {u u' : StateUpdate F} {t t' : Trace F} {tr : TurnTrace F} :
      Runs (salesAgentNode settings salesAgent st₁) t (.ok u) →
      Runs (accountAgentNode settings accountAgent st₁) t' (.ok u') →
      Interleave (t.map (Event.tag .salesAgent)) (t'.map (Event.tag .accountAgent)) tr →
      Gathered settings salesAgent accountAgent st₁ [.salesAgent, .accountAgent]
        ((st₁.apply u).apply u') tr

omit [PyFloat F] [Unicode] in
/-- The merge does not lead to a sub-agent. -/
theorem routeAfterMerge_ne {st : GraphState F} {node : Node} (h : routeAfterMerge st = node) :
    node = .escalate ∨ node = .synthesis := by
  rcases routeAfterMerge_cases st with h' | h' <;> rw [h'] at h <;> simp [← h]

/-- A turn at the sub-agents has been routed to them. -/
theorem TurnAt.at_agents {active path : List Node} {st : GraphState F} {tr : TurnTrace F}
    (h : TurnAt settings salesAgent accountAgent st₀ ⟨active, path, st, tr⟩)
    (hm : .salesAgent ∈ active ∨ .accountAgent ∈ active) :
    ∃ u t, Runs (routerNode settings st₀) t (.ok u) ∧ routesAfterRouter (st₀.apply u) = active ∧
      path = [.intake, .router] ∧ st = st₀.apply u ∧ tr = t.map (Event.tag .router) := by
  cases h with
  | routed hb hrun ha => exact ⟨_, _, hrun, ha, rfl, rfl, rfl⟩
  | merged h hn => rcases routeAfterMerge_ne hn with rfl | rfl <;> simp at hm
  | _ => simp at hm

/-- A turn at `merge` has gone through the router and the sub-agents. -/
theorem TurnAt.at_merge {path : List Node} {st : GraphState F} {tr : TurnTrace F}
    (h : TurnAt settings salesAgent accountAgent st₀ ⟨[.merge], path, st, tr⟩) :
    ∃ u t agents tr', Runs (routerNode settings st₀) t (.ok u) ∧
      routesAfterRouter (st₀.apply u) = agents ∧
      Gathered settings salesAgent accountAgent (st₀.apply u) agents st tr' ∧
      path = [.intake, .router] ++ agents ∧ tr = t.map (Event.tag .router) ++ tr' := by
  cases h with
  | routed hb hrun ha => rcases routesAfterRouter_ne ha with h | h | h | h <;> cases h
  | merged h hn => rcases routeAfterMerge_ne hn with h | h <;> cases h
  | sales h hrun =>
    obtain ⟨u, t, hr, ha, rfl, rfl, rfl⟩ := h.at_agents (.inl (by simp))
    exact ⟨u, t, _, _, hr, ha, .sales hrun, rfl, rfl⟩
  | account h hrun =>
    obtain ⟨u, t, hr, ha, rfl, rfl, rfl⟩ := h.at_agents (.inr (by simp))
    exact ⟨u, t, _, _, hr, ha, .account hrun, rfl, rfl⟩
  | both h hrun hrun' hi =>
    obtain ⟨u, t, hr, ha, rfl, rfl, rfl⟩ := h.at_agents (.inl (by simp))
    exact ⟨u, t, _, _, hr, ha, .both hrun hrun' hi, rfl, rfl⟩

/-- A turn at the escalate node comes from the router, or from `merge` because of a failed loop. -/
theorem TurnAt.at_escalate {path : List Node} {st : GraphState F} {tr : TurnTrace F}
    (h : TurnAt settings salesAgent accountAgent st₀ ⟨[.escalate], path, st, tr⟩) :
    (∃ u t, Runs (routerNode settings st₀) t (.ok u) ∧ path = [.intake, .router] ∧
      st = st₀.apply u ∧ tr = t.map (Event.tag .router)) ∨
    ∃ path', path = path' ++ [.merge] ∧ anyResultNeedsEscalation st = true ∧
      TurnAt settings salesAgent accountAgent st₀ ⟨[.merge], path', st, tr⟩ := by
  cases h with
  | routed hb hrun ha => exact .inl ⟨_, _, hrun, rfl, rfl, rfl⟩
  | @merged path' st tr node h hn =>
    refine .inr ⟨path', rfl, ?_, h⟩
    by_contra hany
    unfold routeAfterMerge at hn
    rw [if_neg hany] at hn
    cases hn

/-- A turn at `synthesis` comes from the escalate node, or from `merge` without a failed loop. -/
theorem TurnAt.at_synthesis {path : List Node} {st : GraphState F} {tr : TurnTrace F}
    (h : TurnAt settings salesAgent accountAgent st₀ ⟨[.synthesis], path, st, tr⟩) :
    (∃ path' st' tr' u t, path = path' ++ [.escalate] ∧ st = st'.apply u ∧
      tr = tr' ++ t.map (Event.tag .escalate) ∧ Runs (escalateNode accountAgent st') t (.ok u) ∧
      TurnAt settings salesAgent accountAgent st₀ ⟨[.escalate], path', st', tr'⟩) ∨
    ∃ path', path = path' ++ [.merge] ∧ anyResultNeedsEscalation st = false ∧
      TurnAt settings salesAgent accountAgent st₀ ⟨[.merge], path', st, tr⟩ := by
  cases h with
  | routed hb hrun ha => rcases routesAfterRouter_ne ha with h | h | h | h <;> cases h
  | escalated h hrun => exact .inl ⟨_, _, _, _, _, rfl, rfl, rfl, hrun, h⟩
  | @merged path' st tr node h hn =>
    refine .inr ⟨path', rfl, ?_, h⟩
    by_contra hany
    have hany' : anyResultNeedsEscalation st = true := by simpa using hany
    unfold routeAfterMerge at hn
    rw [if_pos hany'] at hn
    cases hn

/-- A turn at `verify_claims` comes from `synthesis`. -/
theorem TurnAt.from_synthesis {path : List Node} {st : GraphState F} {tr : TurnTrace F}
    (h : TurnAt settings salesAgent accountAgent st₀ ⟨[.verifyClaims], path, st, tr⟩) :
    ∃ path' st' tr' u t, path = path' ++ [.synthesis] ∧ st = st'.apply u ∧
      tr = tr' ++ t.map (Event.tag .synthesis) ∧ Runs (synthesisNode settings st') t (.ok u) ∧
      TurnAt settings salesAgent accountAgent st₀ ⟨[.synthesis], path', st', tr'⟩ := by
  cases h with
  | routed hb hrun ha => rcases routesAfterRouter_ne ha with h | h | h | h <;> cases h
  | merged h hn => rcases routeAfterMerge_ne hn with h | h <;> cases h
  | drafted h hrun => exact ⟨_, _, _, _, _, rfl, rfl, rfl, hrun, h⟩

/-- A turn that is over has asked the customer or verified its draft. -/
theorem TurnAt.at_end {path : List Node} {st : GraphState F} {tr : TurnTrace F}
    (h : TurnAt settings salesAgent accountAgent st₀ ⟨[], path, st, tr⟩) :
    (path = [.intake, .clarify] ∨ path = [.intake, .router, .clarify]) ∨
    ∃ path' st' tr' u t, path = path' ++ [.verifyClaims] ∧ st = st'.apply u ∧
      tr = tr' ++ t.map (Event.tag .verifyClaims) ∧ Runs (verifyClaimsNode settings st') t (.ok u) ∧
      TurnAt settings salesAgent accountAgent st₀ ⟨[.verifyClaims], path', st', tr'⟩ := by
  cases h with
  | @routed u t _ hb hrun ha =>
    rcases routesAfterRouter_cases (st₀.apply u) with h | h | h | h | h <;> rw [h] at ha <;> cases ha
  | clarified h =>
    rcases h.at_clarify with ⟨rfl, -, -⟩ | ⟨u, t, rfl, -, -, -, -⟩
    · exact .inl (.inl rfl)
    · exact .inl (.inr rfl)
  | verified h hrun => exact .inr ⟨_, _, _, _, _, rfl, rfl, rfl, hrun, h⟩

/-! ## The results of the sub-agents stay -/

omit [PyFloat F] [Unicode] in
/-- The results of the sub-agents are those of another state. -/
def GraphState.SameResults (st st' : GraphState F) : Prop :=
  st.salesResult = st'.salesResult ∧ st.accountResult = st'.accountResult

/-- An escalation sets its own result only. -/
theorem escalateNode_update {u : StateUpdate F} {st : GraphState F} {t : Trace F}
    (h : Runs (escalateNode accountAgent st) t (.ok u)) :
    ∃ v, u = { escalateResult := some v } := by
  unfold escalateNode at h
  simp only at h
  split at h
  · obtain ⟨-, hu⟩ := runs_ret.mp h
    cases hu
    exact ⟨_, rfl⟩
  · obtain ⟨v, t₁, t₂, rfl, -, h₂⟩ := runs_bind_ok.mp h
    obtain ⟨-, hu⟩ := runs_ret.mp h₂
    cases hu
    exact ⟨v, rfl⟩

theorem synthesisNode_sameResults {u : StateUpdate F} {st : GraphState F} {t : Trace F}
    (h : Runs (synthesisNode settings st) t (.ok u)) : (st.apply u).SameResults st := by
  obtain ⟨degraded, reasons, response, -, -, rfl⟩ := runs_synthesisNode h
  exact ⟨rfl, rfl⟩

theorem verifyClaimsNode_sameResults {u : StateUpdate F} {st : GraphState F} {t : Trace F}
    (h : Runs (verifyClaimsNode settings st) t (.ok u)) : (st.apply u).SameResults st := by
  obtain ⟨draft, evidence, outcome, -, -, ⟨-, rfl, -⟩ | ⟨-, t, t', text, regenerated, recheck, -, -,
    -, -, rfl⟩⟩ := runs_verifyClaimsNode h
  · exact ⟨rfl, rfl⟩
  · unfold replacement
    split <;> exact ⟨rfl, rfl⟩

omit [PyFloat F] [Unicode] in
/-- A sub-agent's loop has ended without an answer. -/
def LoopFailed (st : GraphState F) : Prop :=
  ∃ r, (st.salesResult = some r ∨ st.accountResult = some r) ∧
    (r.hitCap = true ∨ r.llmCallFailed = true ∨ r.hitBudgetGuard = true)

omit [PyFloat F] [Unicode] in
theorem loopFailed_iff {st : GraphState F} : LoopFailed st ↔ anyResultNeedsEscalation st = true := by
  unfold LoopFailed anyResultNeedsEscalation ToolLoopResult.failed
  rcases st.salesResult with _ | r <;> rcases st.accountResult with _ | r' <;> simp [or_assoc]

omit [PyFloat F] [Unicode] in
theorem loopFailed_congr {st st' : GraphState F} (h : st.SameResults st') :
    LoopFailed st ↔ LoopFailed st' := by
  unfold LoopFailed
  rw [h.1, h.2]

/-! ## What the sub-agents have asked -/

omit [PyFloat F] [Unicode] in
theorem GraphState.SameResults.trans {st st' st'' : GraphState F} (h : st.SameResults st')
    (h' : st'.SameResults st'') : st.SameResults st'' :=
  ⟨h.1.trans h'.1, h.2.trans h'.2⟩

/-- The update of a router that returns. -/
theorem routerNode_update {u : StateUpdate F} {st : GraphState F} {t : Trace F}
    (h : Runs (routerNode settings st) t (.ok u)) :
    u = {} ∨ ∃ decision routes content, u = routerUpdate decision routes content := by
  by_cases hst : st.routes = [.clarify]
  · unfold routerNode at h
    rw [if_pos hst] at h
    obtain ⟨-, hu⟩ := runs_ret.mp h
    cases hu
    exact .inl rfl
  · obtain ⟨raw, -, hu⟩ := runs_routerNode hst h
    obtain ⟨decision, routes, content, -, -, -, -, rfl⟩ := routerDecision_eq_ok.mp hu
    exact .inr ⟨decision, routes, content, rfl⟩

theorem routerNode_sameResults {u : StateUpdate F} {st : GraphState F} {t : Trace F}
    (h : Runs (routerNode settings st) t (.ok u)) : (st.apply u).SameResults st := by
  rcases routerNode_update h with rfl | ⟨decision, routes, content, rfl⟩ <;> exact ⟨rfl, rfl⟩

/-- The sub-agents have done these events. -/
def AgentsAsked (tr tr' : TurnTrace F) : Prop :=
  ∀ agent ∈ [Node.salesAgent, .accountAgent], Graph.traceOf agent tr = Graph.traceOf agent tr'

omit [PyFloat F] [Unicode] in
theorem AgentsAsked.append {tr tr' : TurnTrace F} {node : Node} (t : Trace F)
    (hs : node ≠ .salesAgent) (ha : node ≠ .accountAgent) (h : AgentsAsked tr tr') :
    AgentsAsked (tr ++ t.map (Event.tag node)) tr' := by
  intro agent hagent
  have hne : node ≠ agent := by
    rintro rfl
    simp [hs, ha] at hagent
  rw [Graph.traceOf_append, Graph.traceOf_tag, if_neg hne, List.append_nil]
  exact h agent hagent

omit [PyFloat F] [Unicode] in
theorem AgentsAsked.append_left {t : Trace F} {tr : TurnTrace F} :
    AgentsAsked (t.map (Event.tag .router) ++ tr) tr := by
  intro agent hagent
  have hne : Node.router ≠ agent := by
    rintro rfl
    simp at hagent
  rw [Graph.traceOf_append, Graph.traceOf_tag, if_neg hne]
  rfl

/-- The results of a state are those that the sub-agents have left, if they have run, and what the
sub-agents have asked is in those runs. -/
inductive FromAgents (settings : Settings) (salesAgent accountAgent : SubAgent F)
    (st₀ st : GraphState F) (tr : TurnTrace F) : Prop
  | before : st.SameResults st₀ → AgentsAsked tr [] →
      FromAgents settings salesAgent accountAgent st₀ st tr
  | ran {st₁ st₂ : GraphState F} {agents : List Node} {tr₂ : TurnTrace F} :
      st₁.SameResults st₀ → Gathered settings salesAgent accountAgent st₁ agents st₂ tr₂ →
      st.SameResults st₂ → AgentsAsked tr tr₂ →
      FromAgents settings salesAgent accountAgent st₀ st tr

/-- A node that is no sub-agent and leaves the results. -/
theorem FromAgents.after {st st' : GraphState F} {tr : TurnTrace F} {node : Node} (t : Trace F)
    (h : FromAgents settings salesAgent accountAgent st₀ st tr) (hst : st'.SameResults st)
    (hs : node ≠ .salesAgent) (ha : node ≠ .accountAgent) :
    FromAgents settings salesAgent accountAgent st₀ st' (tr ++ t.map (Event.tag node)) := by
  cases h with
  | before h₀ hasked => exact .before (hst.trans h₀) (hasked.append t hs ha)
  | ran h₁ hg h₂ hasked => exact .ran h₁ hg (hst.trans h₂) (hasked.append t hs ha)

/-- The sub-agents, when the router has chosen them. -/
theorem TurnAt.from_agents {active path agents : List Node} {st st' : GraphState F}
    {tr tr' : TurnTrace F} (h : TurnAt settings salesAgent accountAgent st₀ ⟨active, path, st, tr⟩)
    (hm : .salesAgent ∈ active ∨ .accountAgent ∈ active)
    (hg : Gathered settings salesAgent accountAgent st agents st' tr') :
    FromAgents settings salesAgent accountAgent st₀ st' (tr ++ tr') := by
  obtain ⟨u, t, hrun, -, -, rfl, rfl⟩ := h.at_agents hm
  exact .ran (routerNode_sameResults hrun) hg ⟨rfl, rfl⟩ .append_left

/-- Wherever a turn is, its results come from the sub-agents. -/
theorem TurnAt.fromAgents {c : TurnConfig F} (h : TurnAt settings salesAgent accountAgent st₀ c) :
    FromAgents settings salesAgent accountAgent st₀ c.st c.tr := by
  have hnone : AgentsAsked (F := F) [] [] := fun _ _ => rfl
  induction h with
  | start => exact .before ⟨rfl, rfl⟩ hnone
  | blank hb => exact .before ⟨rfl, rfl⟩ hnone
  | asked hb => exact .before ⟨rfl, rfl⟩ hnone
  | routed hb hrun ha =>
    exact .before (routerNode_sameResults hrun) (hnone.append _ (by simp) (by simp))
  | @clarified path st tr h ih =>
    have hst : (st.apply (answerQuestion st)).SameResults st := ⟨rfl, rfl⟩
    cases ih with
    | before h₀ hasked => exact .before (hst.trans h₀) hasked
    | ran h₁ hg h₂ hasked => exact .ran h₁ hg (hst.trans h₂) hasked
  | sales h hrun => exact h.from_agents (.inl (by simp)) (.sales hrun)
  | account h hrun => exact h.from_agents (.inr (by simp)) (.account hrun)
  | both h hrun hrun' hi => exact h.from_agents (.inl (by simp)) (.both hrun hrun' hi)
  | merged h hn ih => exact ih
  | escalated h hrun ih =>
    obtain ⟨v, rfl⟩ := escalateNode_update hrun
    exact ih.after _ ⟨rfl, rfl⟩ (by simp) (by simp)
  | drafted h hrun ih => exact ih.after _ (synthesisNode_sameResults hrun) (by simp) (by simp)
  | verified h hrun ih => exact ih.after _ (verifyClaimsNode_sameResults hrun) (by simp) (by simp)

/-! ## Interleavings -/

variable {f : (r : Request F) → Answer r}

omit [PyFloat F] [Unicode] in
theorem consistent_tag {node : Node} {t : Trace F}
    (h : Consistent (fun r : Node × Request F => f r.2) (t.map (Event.tag node))) :
    Consistent f t := by
  intro ev hev
  exact h _ (List.mem_map_of_mem hev)

/-- In a function's environment the sub-agents leave one state, however they interleave. -/
theorem Gathered.det {agents : List Node} {st st' : GraphState F} {tr tr' : TurnTrace F}
    (h : Gathered settings salesAgent accountAgent st₁ agents st tr)
    (h' : Gathered settings salesAgent accountAgent st₁ agents st' tr')
    (hc : Consistent (fun r : Node × Request F => f r.2) tr)
    (hc' : Consistent (fun r : Node × Request F => f r.2) tr') : st = st' := by
  cases h with
  | sales hrun =>
    cases h' with
    | sales hrun' =>
      obtain ⟨-, hu⟩ := hrun.det hrun' (consistent_tag hc) (consistent_tag hc')
      cases hu
      rfl
  | account hrun =>
    cases h' with
    | account hrun' =>
      obtain ⟨-, hu⟩ := hrun.det hrun' (consistent_tag hc) (consistent_tag hc')
      cases hu
      rfl
  | both hs ha hi =>
    cases h' with
    | both hs' ha' hi' =>
      have hleft := fun ev hev => hc ev (hi.sublist_left.subset hev)
      have hright := fun ev hev => hc ev (hi.sublist_right.subset hev)
      have hleft' := fun ev hev => hc' ev (hi'.sublist_left.subset hev)
      have hright' := fun ev hev => hc' ev (hi'.sublist_right.subset hev)
      obtain ⟨-, hu⟩ := hs.det hs' (consistent_tag hleft) (consistent_tag hleft')
      obtain ⟨-, hu'⟩ := ha.det ha' (consistent_tag hright) (consistent_tag hright')
      cases hu
      cases hu'
      rfl

/-! ## Every turn -/

/-- A turn of the runner reaches `merge` in this state, after these events. -/
def ReachesMerge (runner : Runner F) (identity : RequestIdentity) (messages : List Message)
    (tr : TurnTrace F) (st : GraphState F) : Prop :=
  ∃ salesAgent accountAgent n path, buildSalesAgent runner.registered = .ok salesAgent ∧
    buildAccountAgent runner.registered = .ok accountAgent ∧
    (buildSupervisorGraph runner.settings salesAgent accountAgent).Reach
      ⟨[.intake], [], initialState identity messages, []⟩ n ⟨[.merge], path, st, tr⟩

/-- A turn that visits `merge` has reached it. -/
theorem reachesMerge_of_visited {runner : Runner F} {sched : Nat → Nat → Nat → Bool}
    {identity : RequestIdentity} {messages : List Message} {tr : TurnTrace F} {path : List Node}
    {fin : GraphState F} (h : Runs (runTurn runner sched identity messages) tr (.ok (path, fin)))
    (hm : .merge ∈ path) :
    ∃ t rest st, tr = t ++ rest ∧ ReachesMerge runner identity messages t st := by
  obtain ⟨salesAgent, accountAgent, n, hs, ha, hr⟩ := turn_reaches h
  obtain ⟨n', ⟨active, path', st, t⟩, rest, hr', hactive, htr⟩ := hr.visited hm (by simp)
  obtain rfl : active = [.merge] :=
    (turnAt_reach (by simp [initialState]) hr').active_alone hactive (by simp)
  exact ⟨t, rest, st, htr, salesAgent, accountAgent, n', path', hs, ha, hr'⟩

/-- In a function's environment the state at `merge` is the same for every interleaving. -/
theorem merge_state_det {runner : Runner F} {identity : RequestIdentity} {messages : List Message}
    {tr tr' : TurnTrace F} {st st' : GraphState F}
    (h : ReachesMerge runner identity messages tr st)
    (h' : ReachesMerge runner identity messages tr' st')
    (hc : Consistent (fun r : Node × Request F => f r.2) tr)
    (hc' : Consistent (fun r : Node × Request F => f r.2) tr') : st = st' := by
  obtain ⟨salesAgent, accountAgent, n, path, hs, ha, hr⟩ := h
  obtain ⟨salesAgent', accountAgent', n', path', hs', ha', hr'⟩ := h'
  rw [hs] at hs'
  rw [ha] at ha'
  cases hs'
  cases ha'
  have h₀ : (initialState (F := F) identity messages).routes ≠ [.clarify] := by simp [initialState]
  obtain ⟨u, t, agents, t₁, hrun, hroutes, hg, -, rfl⟩ := (turnAt_reach h₀ hr).at_merge
  obtain ⟨u', t', agents', t₁', hrun', hroutes', hg', -, rfl⟩ := (turnAt_reach h₀ hr').at_merge
  obtain ⟨hc₁, hc₂⟩ := Graph.Consistent.append hc
  obtain ⟨hc₁', hc₂'⟩ := Graph.Consistent.append hc'
  obtain ⟨-, hu⟩ := hrun.det hrun' (consistent_tag hc₁) (consistent_tag hc₁')
  cases hu
  rw [hroutes] at hroutes'
  subst hroutes'
  exact hg.det hg' hc₂ hc₂'

omit [PyFloat F] [Unicode] in
/-- The sub-agents that run, before `merge`. -/
theorem Gathered.agents [PyFloat F] [Unicode] {agents : List Node} {st : GraphState F}
    {tr : TurnTrace F} (h : Gathered settings salesAgent accountAgent st₁ agents st tr) :
    agents ≠ [] ∧ agents.Sublist [.salesAgent, .accountAgent] := by
  cases h with
  | sales _ => exact ⟨by simp, by decide⟩
  | account _ => exact ⟨by simp, by decide⟩
  | both _ _ _ => exact ⟨by simp, by decide⟩

/-- The path of a turn that is over; through `merge`, the escalate node is on it when a loop has
failed. -/
theorem TurnAt.path_cases {path : List Node} {fin : GraphState F} {tr : TurnTrace F}
    (h : TurnAt settings salesAgent accountAgent st₀ ⟨[], path, fin, tr⟩) :
    path = [.intake, .clarify] ∨ path = [.intake, .router, .clarify] ∨
    path = [.intake, .router, .escalate, .synthesis, .verifyClaims] ∨
    ∃ agents escalation, agents ≠ [] ∧ agents.Sublist [.salesAgent, .accountAgent] ∧
      (escalation = [.escalate] ∧ LoopFailed fin ∨ escalation = [] ∧ ¬ LoopFailed fin) ∧
      path = [.intake, .router] ++ agents ++ [.merge] ++ escalation ++
        [.synthesis, .verifyClaims] := by
  rcases h.at_end with (rfl | rfl) | ⟨path₁, st₁, tr₁, u, t, rfl, rfl, rfl, hverify, h₁⟩
  · exact .inl rfl
  · exact .inr (.inl rfl)
  · obtain ⟨path₂, st₂, tr₂, u', t', rfl, rfl, rfl, hdraft, h₂⟩ := h₁.from_synthesis
    have hfin : LoopFailed ((st₂.apply u').apply u) ↔ LoopFailed st₂ :=
      (loopFailed_congr (verifyClaimsNode_sameResults hverify)).trans
        (loopFailed_congr (synthesisNode_sameResults hdraft))
    rw [hfin]
    rcases h₂.at_synthesis with ⟨path₃, st₃, tr₃, u'', t'', rfl, rfl, rfl, hescalate, h₃⟩ |
      ⟨path₃, rfl, hany, h₃⟩
    · obtain ⟨v, rfl⟩ := escalateNode_update hescalate
      rcases h₃.at_escalate with ⟨u₀, t₀, -, rfl, -, -⟩ | ⟨path₄, rfl, hany, h₄⟩
      · exact .inr (.inr (.inl rfl))
      · obtain ⟨u₀, t₀, agents, t₁, -, -, hg, rfl, -⟩ := h₄.at_merge
        refine .inr (.inr (.inr ⟨agents, [.escalate], hg.agents.1, hg.agents.2,
          .inl ⟨rfl, loopFailed_iff.mpr hany⟩, by simp⟩))
    · obtain ⟨u₀, t₀, agents, t₁, -, -, hg, rfl, -⟩ := h₃.at_merge
      refine .inr (.inr (.inr ⟨agents, [], hg.agents.1, hg.agents.2, .inr ⟨rfl, ?_⟩, by simp⟩))
      rw [loopFailed_iff, hany]
      simp

/-- What the nodes of such a path may make in all. -/
theorem TurnAt.path_bound {path : List Node} {fin : GraphState F} {tr : TurnTrace F} (c k : Nat)
    (h : TurnAt settings salesAgent accountAgent st₀ ⟨[], path, fin, tr⟩) :
    (path.map (Node.bound c k)).sum ≤ 2 * (maxIterations * (c + k)) + 7 * c + k := by
  rcases h.path_cases with rfl | rfl | rfl | ⟨agents, escalation, -, hagents, hescalation, rfl⟩
  · simp [Node.bound]
  · simp [Node.bound]
    omega
  · simp [Node.bound]
    omega
  · have hsum : (agents.map (Node.bound c k)).sum ≤
        ([.salesAgent, .accountAgent].map (Node.bound c k)).sum :=
      (hagents.map _).sum_le_sum fun _ _ => Nat.zero_le _
    rcases hescalation with ⟨rfl, -⟩ | ⟨rfl, -⟩ <;> simp [Node.bound] at hsum ⊢ <;> omega

/-- A turn that returns has gone one of these ways, within these numbers of requests; and the state at
`merge` does not depend on how the requests of the two loops interleave, when the LLM and the tools are
functions of their requests. -/
theorem turn_shape (runner : Runner F) (identity : RequestIdentity) (messages : List Message) :
    (∀ sched tr path fin, Runs (runTurn runner sched identity messages) tr (.ok (path, fin)) →
      (path = [.intake, .clarify] ∨ path = [.intake, .router, .clarify] ∨
        path = [.intake, .router, .escalate, .synthesis, .verifyClaims] ∨
        ∃ agents escalation, agents ≠ [] ∧ agents.Sublist [.salesAgent, .accountAgent] ∧
          (escalation = [.escalate] ∧ LoopFailed fin ∨ escalation = [] ∧ ¬ LoopFailed fin) ∧
          path = [.intake, .router] ++ agents ++ [.merge] ++ escalation ++
            [.synthesis, .verifyClaims]) ∧
      tr.countP (fun ev => isCompletion ev.req.2) ≤ 2 * maxIterations + 7 ∧
      tr.countP (fun ev => isToolCall ev.req.2) ≤ 2 * maxIterations + 1) ∧
    ∀ (f : (r : Request F) → Answer r) tr tr' st st',
      ReachesMerge runner identity messages tr st → ReachesMerge runner identity messages tr' st' →
      Consistent (fun r : Node × Request F => f r.2) tr →
      Consistent (fun r : Node × Request F => f r.2) tr' → st = st' := by
  refine ⟨fun sched tr path fin h => ?_, fun f tr tr' st st' h h' hc hc' =>
    merge_state_det h h' hc hc'⟩
  obtain ⟨salesAgent, accountAgent, n, -, -, hr⟩ := turn_reaches h
  have hend := turnAt_reach (by simp [initialState]) hr
  have hcompletions := hr.countP_le (P := fun r => isCompletion r.2) fun node st =>
    node_atMost node st atMost_complete_one (fun _ => atMost_callTool fun _ _ _ => rfl)
      fun _ => atMost_callTool fun _ _ _ => rfl
  have hcalls := hr.countP_le (P := fun r => isToolCall r.2) fun node st =>
    node_atMost node st (atMost_complete fun _ _ => rfl) (fun _ => atMost_callTool_one)
      fun _ => atMost_callTool_one
  exact ⟨hend.path_cases, Nat.le_trans hcompletions (hend.path_bound 1 0),
    Nat.le_trans hcalls (hend.path_bound 0 1)⟩

end Shape

/-! ## A turn of both sub-agents -/

/-- The router names both sub-agents, and each answers at once. -/
def pairAnswers : (r : Request FloatText) → Answer r
  | .complete messages model => .ok (
      if model = str "large" then "Sure."
      else if (messages.getLast?.map fun message => message.content.length) = some 2 then
        "\x7b\"routes\": [\"sales\", \"account\"]\x7d"
      else "No.")
  | .callTool _ _ => .error ⟨.runtimeError, []⟩

/-- A turn on the message "Hi". -/
def pairTurn (sched : Nat → Nat → Nat → Bool) :
    TurnTrace FloatText × Except Raised (List Node × GraphState FloatText) :=
  exec (Env.const fun r => pairAnswers r.2) [] (@runTurn FloatText _ asciiUnicode shopRunner sched
    ⟨"s-1", none⟩ [⟨.user, "Hi"⟩])

/-- The sales loop asks first. -/
def salesFirst : Nat → Nat → Nat → Bool := fun _ _ _ => true

/-- The account loop asks first. -/
def accountFirst : Nat → Nat → Nat → Bool := fun _ _ _ => false

/-- What `json.loads` makes of the replies, and what the sub-agents need. -/
theorem pairTurn_reads :
    loads (F := FloatText) "\x7b\"routes\": [\"sales\", \"account\"]\x7d" =
      some (.object [("routes", .array [.string "sales", .string "account"])]) ∧
    loads (F := FloatText) "No." = none ∧ str "small" ≠ str "large" ∧
    missingTools shopRunner.registered salesAgentTools = [] ∧
    missingTools shopRunner.registered accountAgentTools = [] := by
  decide +kernel

theorem pairTurn_readable :
    Readable FloatText "\x7b\"routes\": [\"sales\", \"account\"]\x7d" ∧ Readable FloatText "No." :=
  ⟨readable_of_length_le (by decide) (by decide),
    readable_of_length_le (by decide) (by decide)⟩

/-- A sub-agent of the turn answers at once. -/
theorem pairLoop_answers [Unicode] {agent : SubAgent FloatText} {systemPrompt userQuery : Str}
    (hprompt : systemPrompt.length ≤ 1500) (htools : (toolDescriptions agent).length ≤ 1000)
    (hlong : 2 < userQuery.length) (hshort : userQuery.length ≤ 1000) : ∃ messages,
      Runs (runToolLoop shopRunner.settings "small" agent systemPrompt userQuery)
        [⟨.complete messages "small", .ok "No."⟩]
        (.ok { finalAnswer := .string "No.", toolCalls := [] }) ∧
      pairAnswers (.complete messages "small") = .ok "No." := by
  refine ⟨_, runToolLoop_text rfl ?_ pairTurn_readable.2 pairTurn_reads.2.1, ?_⟩
  · have hsystem := estimateTokens_system_le hprompt htools
    have hquery := estimateTokens_le (by omega : 0 < 250) hshort
    simp only [estimateMessagesTokens, List.map_cons, List.map_nil, List.sum_cons, List.sum_nil,
      shopRunner]
    omega
  · have hlast : some userQuery.length ≠ some 2 := by
      rw [Ne, Option.some_inj]
      omega
    simp only [pairAnswers, List.getLast?_cons_cons, List.getLast?_singleton, Option.map_some]
    rw [if_neg pairTurn_reads.2.2.1, if_neg hlast]

/-- The sub-agents of the turn, as they are built. -/
def pairAgents : SubAgent FloatText × SubAgent FloatText :=
  (⟨"sales_agent", salesAgentTools, salesAgentTools.filterMap (bindTool shopRunner.registered),
    mem_bindTool pairTurn_reads.2.2.2.1⟩,
  ⟨"account_agent", accountAgentTools, accountAgentTools.filterMap (bindTool shopRunner.registered),
    mem_bindTool pairTurn_reads.2.2.2.2⟩)

/-- The state of the turn after the router. -/
def pairRouted : GraphState FloatText :=
  (initialState ⟨"s-1", none⟩ [⟨.user, "Hi"⟩]).apply (@routerUpdate _ _ asciiUnicode
    [("routes", .array [.string "sales", .string "account"])] (some [.sales, .account]) "Hi")

/-- What the sub-agents are asked is short, and they are asked both. -/
theorem pairTurn_short :
    (toolDescriptions pairAgents.1).length ≤ 1000 ∧ (toolDescriptions pairAgents.2).length ≤ 1000 ∧
    (salesQuery (F := FloatText) "Hi" pairRouted.priceFilters).length ∈ List.range' 3 900 ∧
    (@accountQuery FloatText _ asciiUnicode "Hi" pairRouted.orderRef).length ∈ List.range' 3 900 ∧
    (routesAfterRouter pairRouted).dedup = [.salesAgent, .accountAgent] := by
  decide +kernel

/-- In both orders the loops answer. -/
theorem pairAgents_answer {sched : Nat → Nat → Nat → Bool} (hsched : sched ∈ [salesFirst, accountFirst])
    (limit : Nat) : ∃ (t : TurnTrace FloatText) (r : ToolLoopResult FloatText),
      r = { finalAnswer := .string "No.", toolCalls := [] } ∧
      Runs (parAll (sched limit) ((@buildSupervisorGraph _ _ asciiUnicode shopRunner.settings
        pairAgents.1 pairAgents.2).programs [.salesAgent, .accountAgent] pairRouted)) t
        (.ok [{ salesResult := some r }, { accountResult := some r }]) ∧
      Consistent (fun r : Node × Request FloatText => pairAnswers r.2) t := by
  let _ := asciiUnicode
  obtain ⟨hsalesTools, haccountTools, hsalesQuery, haccountQuery, -⟩ := pairTurn_short
  rw [List.mem_range'_1] at hsalesQuery haccountQuery
  obtain ⟨m, hsales, hm⟩ := pairLoop_answers length_agentPrompts_le.1 hsalesTools hsalesQuery.1
    (by omega)
  obtain ⟨m', haccount, hm'⟩ := pairLoop_answers length_agentPrompts_le.2 haccountTools
    haccountQuery.1 (by omega)
  have hsalesNode : Runs (salesAgentNode shopRunner.settings pairAgents.1 pairRouted)
      [⟨.complete m "small", .ok "No."⟩]
      (.ok { salesResult := some { finalAnswer := .string "No.", toolCalls := [] } }) :=
    runs_bind_ok.mpr ⟨"Hi", [], [_], rfl, runs_code_ok.mpr ⟨rfl, rfl⟩,
      runs_bind_ok.mpr ⟨_, [_], [], rfl, hsales, .ret _⟩⟩
  have haccountNode : Runs (accountAgentNode shopRunner.settings pairAgents.2 pairRouted)
      [⟨.complete m' "small", .ok "No."⟩]
      (.ok { accountResult := some { finalAnswer := .string "No.", toolCalls := [] } }) :=
    runs_bind_ok.mpr ⟨"Hi", [], [_], rfl, runs_code_ok.mpr ⟨rfl, rfl⟩,
      runs_bind_ok.mpr ⟨_, [_], [], rfl, haccount, .ret _⟩⟩
  have hsalesTag := runs_tag (n := Node.salesAgent).mpr ⟨_, rfl, hsalesNode⟩
  have haccountTag := runs_tag (n := Node.accountAgent).mpr ⟨_, rfl, haccountNode⟩
  rcases List.mem_pair.mp hsched with rfl | rfl
  · refine ⟨_, _, rfl, hsalesTag.parAll_first (fun _ => rfl) haccountTag, ?_⟩
    intro ev hev
    rcases List.mem_pair.mp hev with rfl | rfl
    · exact hm.symm
    · exact hm'.symm
  · refine ⟨_, _, rfl, hsalesTag.parAll_second (fun _ => rfl) haccountTag, ?_⟩
    intro ev hev
    rcases List.mem_pair.mp hev with rfl | rfl
    · exact hm'.symm
    · exact hm.symm

/-- The way of the turn from the sub-agents on. -/
theorem pairTurn_rest {sched : Nat → Nat → Nat → Bool} (hsched : sched ∈ [salesFirst, accountFirst])
    (hist : TurnTrace FloatText) :
    (exec (Env.const fun r : Node × Request FloatText => pairAnswers r.2) hist
      ((@buildSupervisorGraph _ _ asciiUnicode shopRunner.settings pairAgents.1 pairAgents.2).run sched
        (recursionError shopRunner.recursionLimit) 23 [.salesAgent, .accountAgent]
        pairRouted)).2.map Prod.fst =
      .ok [.salesAgent, .accountAgent, .merge, .synthesis, .verifyClaims] := by
  obtain ⟨t, r, rfl, hagents, hc⟩ := pairAgents_answer hsched 22
  rw [Graph.exec_run _ hagents hc.answers]
  simp only [exec_const_eval]
  clear hagents
  rcases List.mem_pair.mp hsched with rfl | rfl <;> decide +kernel

theorem pairTurn_path : ∀ sched ∈ [salesFirst, accountFirst],
    (pairTurn sched).2.map Prod.fst = .ok [.intake, .router, .salesAgent, .accountAgent, .merge,
      .synthesis, .verifyClaims] := by
  let _ := asciiUnicode
  intro sched hsched
  have hdecision : routerDecision (str "\x7b\"routes\": [\"sales\", \"account\"]\x7d")
      [⟨.user, "Hi"⟩] = .ok (routerUpdate (F := FloatText)
        [("routes", .array [.string "sales", .string "account"])] (some [.sales, .account]) "Hi") := by
    refine routerDecision_eq_ok.mpr ⟨_, _, _, pairTurn_readable.1, ?_, rfl, rfl, rfl⟩
    rw [pairTurn_reads.1]
    rfl
  have hcons : ∀ (path : List Node) {o : Except Raised (List Node × GraphState FloatText)},
      o.map Prod.fst = .ok path →
      (o.map fun x => (.intake :: .router :: x.1, x.2)).map Prod.fst =
        .ok (.intake :: .router :: path) := by
    intro path o ho
    cases o with
    | error e => cases ho
    | ok x =>
      cases ho
      rfl
  have hs : buildSalesAgent shopRunner.registered = .ok pairAgents.1 :=
    buildSubAgent_registered pairTurn_reads.2.2.2.1
  have ha : buildAccountAgent shopRunner.registered = .ok pairAgents.2 :=
    buildSubAgent_registered pairTurn_reads.2.2.2.2
  have hrouter : Env.const (fun r : Node × Request FloatText => pairAnswers r.2) []
      (.router, .complete [⟨.system, routerSystemPrompt⟩, ⟨.user, "Hi"⟩]
        shopRunner.settings.modelClassifier) =
        .ok "\x7b\"routes\": [\"sales\", \"account\"]\x7d" := by
    decide +kernel
  unfold pairTurn
  rw [exec_runTurn hs ha (rfl : shopRunner.recursionLimit = 23 + 2) (by decide +kernel) hrouter
    hdecision pairTurn_short.2.2.2.2 rfl]
  dsimp only
  refine hcons [.salesAgent, .accountAgent, .merge, .synthesis, .verifyClaims] ?_
  exact pairTurn_rest hsched _

/-- In either order the loops leave one state at `merge`, and the turn makes few requests. -/
theorem pairTurn_shape :
    (pairTurn salesFirst).1.countP (fun ev => isCompletion ev.req.2) ≤ 17 ∧
    ∃ t t' rest rest' st, (pairTurn salesFirst).1 = t ++ rest ∧
      (pairTurn accountFirst).1 = t' ++ rest' ∧
      @ReachesMerge FloatText _ asciiUnicode shopRunner ⟨"s-1", none⟩ [⟨.user, "Hi"⟩] t st ∧
      @ReachesMerge FloatText _ asciiUnicode shopRunner ⟨"s-1", none⟩ [⟨.user, "Hi"⟩] t' st := by
  let _ := asciiUnicode
  have hshape := turn_shape (F := FloatText) shopRunner ⟨"s-1", none⟩ [⟨.user, "Hi"⟩]
  have hruns : ∀ sched ∈ [salesFirst, accountFirst], ∃ path fin, .merge ∈ path ∧
      Runs (runTurn shopRunner sched ⟨"s-1", none⟩ [⟨.user, "Hi"⟩]) (pairTurn sched).1
        (.ok (path, fin)) := by
    intro sched hsched
    have hpath := pairTurn_path sched hsched
    have hrun : Runs _ (pairTurn sched).1 (pairTurn sched).2 := exec_runs _ _ _
    cases hout : (pairTurn sched).2 with
    | error e => rw [hout] at hpath; cases hpath
    | ok x =>
      rw [hout] at hpath hrun
      refine ⟨x.1, x.2, ?_, hrun⟩
      rw [Except.ok.inj hpath]
      decide
  have hconsistent : ∀ sched, Consistent (fun r : Node × Request FloatText => pairAnswers r.2)
      (pairTurn sched).1 := fun sched => exec_const_consistent _ _ _
  obtain ⟨path, fin, hm, hrun⟩ := hruns salesFirst (by simp)
  obtain ⟨path', fin', hm', hrun'⟩ := hruns accountFirst (by simp)
  obtain ⟨t, rest, st, ht, hr⟩ := reachesMerge_of_visited hrun hm
  obtain ⟨t', rest', st', ht', hr'⟩ := reachesMerge_of_visited hrun' hm'
  have hc := hconsistent salesFirst
  have hc' := hconsistent accountFirst
  rw [ht] at hc
  rw [ht'] at hc'
  obtain rfl := hshape.2 pairAnswers t t' st st' hr hr' (Graph.Consistent.append hc).1
    (Graph.Consistent.append hc').1
  exact ⟨(hshape.1 _ _ _ _ hrun).2.1, t, t', rest, rest', st, ht, ht', hr, hr'⟩

end DealershipAgent
