import DealershipAgent.Agents.ToolLoopSpec
import DealershipAgent.Agents.Turn
import DealershipAgent.Interact.Triple

/-!
# Turns with a failing provider

* `WellFormed`: a reply of the LLM has the shape that its prompt asks for, and the tools work.
* `triple_routerNode` and so on: in such an environment a node raises only when the provider has failed
  a completion that it asked for, and the two loops never do.
* `turn_survives_iff`: with well-formed replies a turn ends with a response exactly when the completions
  that the provider fails are all requests of the two loops.
-/

namespace DealershipAgent

open Py Json Interact

/-! ## Well-formed environments -/

section WellFormed

variable {F : Type}

/-- The exception is the one that the provider raised for this request. -/
def ProviderFailed : Event (Request F) Answer → Raised → Prop
  | ⟨.complete _ _, .error x⟩, e => e = .provider x
  | ⟨.complete _ _, .ok _⟩, _ => False
  | ⟨.callTool _ _, _⟩, _ => False

def NullOrString (v : Json F) : Prop := v = .null ∨ ∃ s, v = .string s

variable [PyFloat F]

/-- A router's reply: an object with a list of strings and a question or none. -/
def RouterShape (F : Type) [PyFloat F] (raw : Str) : Prop :=
  ∃ (decision : List (Str × Json F)) (routes : List Str), Readable F raw ∧
    loads raw = some (.object decision) ∧
    dictGet decision "routes" = .array (routes.map Json.string) ∧
    NullOrString (dictGet decision "clarify_question")

/-- A reply in the shape that the prompt asks for. -/
def WellFormedReply (F : Type) [PyFloat F] (node : Node) (messages : List Message) (raw : Str) :
    Prop :=
  match node with
  | .router => RouterShape F raw
  | .salesAgent => ReadsAsObject F raw
  | .accountAgent => ReadsAsObject F raw
  | .verifyClaims => (IsStage messages → ∀ e, ¬ TooDeep F raw e) ∧
      (messages.head? = some ⟨.system, stage2SystemPrompt⟩ →
        ∀ claims : List (Json F), Stage2Reads raw claims → ∀ c ∈ claims, ActionClaim c)
  | _ => True

/-- The provider fails or gives a well-formed reply to the node; the session gives results of the
tools, and does not fail to escalate. -/
def WellFormed (node : Node) : Event (Request F) Answer → Prop
  | ⟨.complete messages _, .ok raw⟩ => WellFormedReply F node messages raw
  | ⟨.complete _ _, .error _⟩ => True
  | ⟨.callTool name arguments, x⟩ => ToolReply ⟨.callTool name arguments, x⟩ ∧
      (node = .escalate → ∃ result : CallToolResult F, x = .ok result ∧ result.isError = false)

variable {Q : Event (Request F) Answer → Prop} {E : Event (Request F) Answer → Raised → Prop}

omit [PyFloat F] in
theorem triple_complete {messages : List Message} {model : Str} {P : Str → Prop}
    (h : ∀ raw, Q ⟨.complete messages model, .ok raw⟩ → P raw) :
    Triple Q ProviderFailed (complete messages model) P := by
  intro tr out hrun hq
  obtain ⟨x, rfl, rfl⟩ := runs_complete.mp hrun
  have hx := hq _ List.mem_cons_self
  cases x with
  | ok raw => exact .inl ⟨raw, rfl, h raw hx⟩
  | error e => exact .inr ⟨.provider e, rfl, _, List.mem_cons_self, rfl⟩

omit [PyFloat F] in
theorem triple_code {α : Type} {x : Except Exc α} {a : α} {P : α → Prop} (hx : x = .ok a)
    (h : P a) : Triple Q E (code x) P :=
  Triple.lift (mapError_eq_ok.mpr hx) h

end WellFormed

section Nodes

variable {F : Type} [PyFloat F] [Unicode] {settings : Settings}
  {salesAgent accountAgent : SubAgent F} {st₀ st : GraphState F}

/-! ## The router -/

omit [PyFloat F] [Unicode] in
theorem lastContent_of_not_blank {messages : List Message} (h : lastIsBlank messages = false) :
    ∃ content, lastContent messages = .ok content := by
  unfold lastIsBlank at h
  unfold lastContent
  cases hm : messages.getLast? with
  | none => rw [hm] at h; cases h
  | some message => exact ⟨message.content, rfl⟩

omit [PyFloat F] [Unicode] in
/-- A list of strings does not make the router raise. -/
theorem readRoutes_strings (routes : List Str) :
    ∃ r, readRoutes (.array (routes.map Json.string) : Json F) = .ok r := by
  have hnone : (routes.map Json.string).find? (isUnhashable (F := F)) = none := by
    rw [List.find?_eq_none]
    intro v hv
    obtain ⟨s, -, rfl⟩ := List.mem_map.mp hv
    simp [isUnhashable]
  unfold readRoutes
  split
  · exact ⟨_, rfl⟩
  · next vs _ hvs =>
    cases hvs
    rw [hnone]
    cases (routes.map Json.string).mapM (validRoute (F := F)) with
    | none => exact ⟨_, rfl⟩
    | some rs => exact ⟨_, rfl⟩
  · exact ⟨_, rfl⟩

theorem triple_routerNode (h₀ : st.routes ≠ [.clarify])
    (hb : lastIsBlank st.messages = false) :
    Triple (WellFormed .router) ProviderFailed (routerNode settings st) fun u =>
      ∃ decision routes content, u = routerUpdate decision routes content ∧
        NullOrString (dictGet decision "clarify_question") := by
  unfold routerNode
  rw [if_neg h₀]
  refine Triple.bind (P := RouterShape F) (triple_complete fun raw hraw => hraw) fun raw hraw => ?_
  obtain ⟨decision, routes, hread, hl, hroutes, hq⟩ := hraw
  obtain ⟨r, hr⟩ := readRoutes_strings (F := F) routes
  obtain ⟨content, hc⟩ := lastContent_of_not_blank hb
  refine triple_code (routerDecision_eq_ok.mpr ⟨decision, r, content, hread, ?_, ?_, hc, rfl⟩)
    ⟨decision, r, content, rfl, hq⟩
  · rw [hl]
    rfl
  · rw [hroutes]
    exact hr

/-! ## The sub-agents -/

def IsArray (v : Json F) : Prop := ∃ vs, v = .array vs

omit [PyFloat F] [Unicode] in
/-- The tools of the sales agent return lists. -/
theorem salesAgent_returns (h : salesAgent.allowedTools = salesAgentTools) :
    salesAgent.Returns IsArray := by
  intro name hname v hv
  rw [h] at hname
  cases hv with
  | searchListings rs => exact ⟨_, rfl⟩
  | searchPolicyDocs rs => exact ⟨_, rfl⟩
  | noOrder => exact absurd hname (by decide)
  | getOrderStatus hk => exact absurd hname (by decide)
  | listMyOrders hk => exact ⟨_, rfl⟩
  | escalateToHuman id createdAt => exact absurd hname (by decide)

/-- What the calls have returned are lists. -/
def ToolLoopResult.ListsOnly (r : ToolLoopResult F) : Prop :=
  ∀ call ∈ r.toolCalls, ∀ v, call.returned = some v → IsArray v

omit [Unicode] in
theorem wellFormed_toolReply {node : Node} {tr : Trace F} (hq : ∀ ev ∈ tr, WellFormed node ev) :
    ∀ ev ∈ tr, ToolReply ev := by
  rintro ⟨r, x⟩ hev
  cases r with
  | complete messages model => trivial
  | callTool name arguments => exact (hq _ hev).1

omit [Unicode] in
theorem wellFormed_readsAsObject {node : Node} {tr : Trace F}
    (hn : node = .salesAgent ∨ node = .accountAgent) (hq : ∀ ev ∈ tr, WellFormed node ev) :
    ∀ ev ∈ tr, OnReply (ReadsAsObject F) ev := by
  rintro ⟨r, x⟩ hev
  have hev' := hq _ hev
  cases r with
  | callTool name arguments => trivial
  | complete messages model =>
    cases x with
    | error e => trivial
    | ok raw => rcases hn with rfl | rfl <;> exact hev'

theorem triple_salesAgentNode (hagent : salesAgent.allowedTools = salesAgentTools)
    (hb : lastIsBlank st.messages = false) :
    Triple (WellFormed .salesAgent) NoRaise (salesAgentNode settings salesAgent st) fun u =>
      ∃ r : ToolLoopResult F, u = { salesResult := some r } ∧ r.ListsOnly := by
  obtain ⟨content, hc⟩ := lastContent_of_not_blank hb
  refine Triple.bind (P := fun _ => True) (triple_code hc trivial) fun _ _ => ?_
  refine Triple.bind (P := ToolLoopResult.ListsOnly) (fun tr out hrun hq => ?_)
    fun r hr => Triple.ret ⟨r, rfl, hr⟩
  obtain ⟨r, rfl⟩ := runToolLoop_returns hrun (wellFormed_toolReply hq)
    (wellFormed_readsAsObject (.inl rfl) hq)
  exact .inl ⟨r, rfl,
    runToolLoop_holds (salesAgent_returns hagent) hrun (wellFormed_toolReply hq)⟩

theorem triple_accountAgentNode (hb : lastIsBlank st.messages = false) :
    Triple (WellFormed .accountAgent) NoRaise (accountAgentNode settings accountAgent st) fun u =>
      ∃ r : ToolLoopResult F, u = { accountResult := some r } := by
  obtain ⟨content, hc⟩ := lastContent_of_not_blank hb
  refine Triple.bind (P := fun _ => True) (triple_code hc trivial) fun _ _ => ?_
  refine Triple.bind (P := fun _ => True) (fun tr out hrun hq => ?_)
    fun r _ => Triple.ret ⟨r, rfl⟩
  obtain ⟨r, rfl⟩ := runToolLoop_returns hrun (wellFormed_toolReply hq)
    (wellFormed_readsAsObject (.inr rfl) hq)
  exact .inl ⟨r, rfl, trivial⟩

/-! ## Escalation and synthesis -/

def NullOrObject (v : Json F) : Prop := v = .null ∨ ∃ kvs, v = .object kvs

omit [PyFloat F] [Unicode] in
theorem toolResult_escalate {v : Json F} (h : ToolResult "escalate_to_human" v) :
    NullOrObject v := by
  generalize hn : str "escalate_to_human" = name at h
  cases h with
  | escalateToHuman id createdAt => exact .inr ⟨_, rfl⟩
  | _ => exact absurd hn (by decide)

theorem triple_escalateNode (hagent : accountAgent.allowedTools = accountAgentTools) :
    Triple (WellFormed .escalate) NoRaise (escalateNode accountAgent st) fun u =>
      ∃ v : Json F, u = { escalateResult := some v } ∧ NullOrObject v := by
  unfold escalateNode
  by_cases hc : st.identity.customerId = none
  · simp only [hc, if_true]
    exact Triple.ret ⟨_, rfl, .inr ⟨_, rfl⟩⟩
  · simp only [hc, if_false]
    refine Triple.bind (P := NullOrObject) (fun tr out hrun hq => ?_)
      fun v hv => Triple.ret ⟨v, rfl, hv⟩
    rcases runs_callTool hrun with ⟨e, rfl, rfl⟩ | ⟨name, hname, -, x, rfl, hx⟩
    · -- the tool is one of the agent's, so the call is not refused
      have hallowed : accountAgent.allowedTools.contains (str "escalate_to_human") = true := by
        rw [hagent]
        decide
      unfold SubAgent.callTool at hrun
      simp only [hallowed, if_true] at hrun
      rcases runs_bind.mp hrun with ⟨r, t₁, t₂, ht, h₁, -⟩ | ⟨e', h₁, -⟩
      · obtain ⟨x, rfl, -⟩ := runs_sessionCallTool.mp h₁
        cases ht
      · obtain ⟨x, hx, -⟩ := runs_sessionCallTool.mp h₁
        cases hx
    · cases hname
      obtain ⟨htool, hworks⟩ := hq _ List.mem_cons_self
      obtain ⟨result, rfl, hok⟩ := hworks rfl
      rcases hx with ⟨e, he, -⟩ | ⟨result', he, rfl⟩
      · cases he
      · cases he
        refine .inl ⟨result.value, ?_, ?_⟩
        · rw [CallToolResult.unwrap, if_neg (by rw [hok]; decide)]
          rfl
        · rcases htool with herr | hres
          · rw [hok] at herr
            cases herr
          · exact toolResult_escalate hres

theorem computeDegradation_ok (h : NullOrObject st.escalateResult) :
    ∃ x, computeDegradation st = .ok x := by
  unfold computeDegradation
  rcases h with h | ⟨kvs, h⟩ <;> rw [h] <;> exact ⟨_, rfl⟩

theorem triple_synthesisNode (h : NullOrObject st.escalateResult) :
    Triple (WellFormed .synthesis) ProviderFailed (synthesisNode settings st) fun u =>
      ∃ text degraded reasons, u =
        { finalResponse := some (.string text), degraded := some degraded,
          degradationReasons := some reasons } := by
  obtain ⟨⟨degraded, reasons⟩, hd⟩ := computeDegradation_ok h
  refine Triple.bind (P := fun _ => True) (triple_code hd trivial) fun x _ => ?_
  refine Triple.bind (P := fun _ => True) (triple_complete fun _ _ => trivial) fun response _ => ?_
  exact Triple.ret ⟨response, _, _, rfl⟩

/-! ## Verification -/

omit [Unicode] in
/-- What is left of claims in shape has that shape. -/
theorem judge_ok {claims : List (Json F)} (h : ∀ c ∈ claims, ActionClaim c) :
    ∃ outcome, judge claims = .ok outcome ∧ ∀ c ∈ outcome.claims, ActionClaim c := by
  have hrest : ∃ rest, unsubstantiated claims = .ok rest ∧ ∀ c ∈ rest, ActionClaim c := by
    induction claims with
    | nil => exact ⟨[], rfl, fun c hc => by cases hc⟩
    | cons c cs ih =>
      obtain ⟨hc, hcs⟩ := List.forall_mem_cons.mp h
      obtain ⟨rest, hr, hall⟩ := ih hcs
      obtain ⟨-, -, b, kvs, rfl, -⟩ := hc
      have hstep : unsubstantiated (.object kvs :: cs) = .ok
          (if (dictGet kvs "substantiated").truthy then rest else .object kvs :: rest) := by
        rw [unsubstantiated, hr]
        rfl
      refine ⟨_, hstep, ?_⟩
      by_cases ht : (dictGet kvs "substantiated").truthy = true
      · rw [if_pos ht]
        exact hall
      · rw [if_neg ht]
        exact List.forall_mem_cons.mpr ⟨h _ List.mem_cons_self, hall⟩
  obtain ⟨rest, hr, hall⟩ := hrest
  unfold judge
  rw [hr]
  exact ⟨_, rfl, hall⟩

theorem triple_checkDraft {model text : Str} {evidence : Json F} :
    Triple (WellFormed .verifyClaims) ProviderFailed (checkDraft model text evidence) fun outcome =>
      ∀ c ∈ outcome.claims, ActionClaim c := by
  have hnil : ∀ c ∈ ([] : List (Json F)), ActionClaim c := fun c hc => by cases hc
  intro tr out hrun hq
  cases runs_checkDraft hrun with
  | skipped hm => exact .inl ⟨_, rfl, hnil⟩
  | stage1Failed e hm => exact .inr ⟨_, rfl, _, List.mem_cons_self, rfl⟩
  | stage1TooDeep raw e hm hdeep =>
    exact absurd hdeep ((hq _ List.mem_cons_self).1 (.inl rfl) e)
  | stage1Unparseable raw hm hdeep hno => exact .inl ⟨_, rfl, hnil⟩
  | noClaim raw hm h₁ => exact .inl ⟨_, rfl, hnil⟩
  | stage2Failed raw e hm h₁ =>
    exact .inr ⟨_, rfl, _, List.mem_cons_of_mem _ List.mem_cons_self, rfl⟩
  | stage2TooDeep raw raw' e hm h₁ hdeep =>
    exact absurd hdeep ((hq _ (List.mem_cons_of_mem _ List.mem_cons_self)).1 (.inr rfl) e)
  | stage2Unparseable raw raw' hm h₁ hdeep hno => exact .inl ⟨_, rfl, hnil⟩
  | judged raw raw' claims hm h₁ h₂ =>
    have hshape := (hq _ (List.mem_cons_of_mem _ List.mem_cons_self)).2 rfl claims h₂
    obtain ⟨outcome, ho, hclaims⟩ := judge_ok hshape
    rw [ho]
    exact .inl ⟨outcome, rfl, hclaims⟩

theorem correction_ok {outcome : VerificationOutcome F}
    (h : ∀ c ∈ outcome.claims, ActionClaim c) : ∃ text, correction outcome = .ok text := by
  have hline : ∀ c ∈ outcome.claims, ∃ line, violationLine c = .ok line := by
    intro c hc
    obtain ⟨⟨type, ht⟩, ⟨quote, hq⟩, -⟩ := h c hc
    unfold violationLine
    rw [subscript_eq_ok.mpr ht]
    simp only [bind, Except.bind, subscript_eq_ok.mpr hq]
    exact ⟨_, rfl⟩
  have hformat : ∃ text, formatViolations outcome.claims = .ok text := by
    obtain ⟨lines, hlines⟩ := mapM_isOk hline
    unfold formatViolations
    rw [hlines]
    exact ⟨_, rfl⟩
  obtain ⟨text, ht⟩ := hformat
  unfold correction
  by_cases hu : outcome.unparseable = true
  · simp only [hu, if_true]
    exact ⟨_, rfl⟩
  · simp only [hu, Bool.false_eq_true, if_false, ht]
    exact ⟨_, rfl⟩

omit [Unicode] in
theorem buildEvidenceSummary_ok (h : ∀ r, st.salesResult = some r → r.ListsOnly) :
    ∃ evidence, buildEvidenceSummary st = .ok evidence := by
  have hcalls : ∀ calls : List (ToolCall F),
      (∀ call ∈ calls, ∀ v, call.returned = some v → IsArray v) →
        ∃ snippets, extractRetrievedPolicySnippets calls = .ok snippets := by
    intro calls hcalls
    induction calls with
    | nil => exact ⟨[], rfl⟩
    | cons call calls ih =>
      obtain ⟨hcall, hrest⟩ := List.forall_mem_cons.mp hcalls
      obtain ⟨rest, hr⟩ := ih hrest
      unfold extractRetrievedPolicySnippets
      by_cases ht : call.tool.eqStr "search_policy_docs" = true
      · rw [if_pos ht]
        have hiter : ∃ chunks, (call.resultOrNone.orElse (.array [])).iter = .ok chunks := by
          unfold ToolCall.resultOrNone
          cases hret : call.returned with
          | none => exact ⟨[], rfl⟩
          | some v =>
            obtain ⟨vs, rfl⟩ := hcall v hret
            cases vs with
            | nil => exact ⟨_, rfl⟩
            | cons v vs => exact ⟨_, rfl⟩
        obtain ⟨chunks, hchunks⟩ := hiter
        rw [hchunks]
        simp only [bind, Except.bind, hr]
        exact ⟨_, rfl⟩
      · rw [if_neg ht]
        exact ⟨rest, hr⟩
  unfold buildEvidenceSummary
  cases hs : st.salesResult with
  | none => exact ⟨_, rfl⟩
  | some r =>
    obtain ⟨snippets, hsn⟩ := hcalls r.toolCalls (h r hs)
    simp only [Option.map_some, Option.getD_some, hsn]
    exact ⟨_, rfl⟩

theorem triple_verifyClaimsNode {draft : Str} (hdraft : st.finalResponse = .string draft)
    (hs : ∀ r, st.salesResult = some r → r.ListsOnly) :
    Triple (WellFormed .verifyClaims) ProviderFailed (verifyClaimsNode settings st) fun u =>
      u = {} ∨ ∃ regenerated recheck, u = replacement st regenerated recheck := by
  obtain ⟨evidence, he⟩ := buildEvidenceSummary_ok hs
  have htext : ∃ text, asText (st.finalResponse.orElse (.string [])) = .ok text := by
    rw [hdraft]
    cases draft <;> exact ⟨_, rfl⟩
  obtain ⟨text, ht⟩ := htext
  refine Triple.bind (P := fun _ => True) (triple_code he trivial) fun evidence _ => ?_
  refine Triple.bind (P := fun _ => True) (triple_code ht trivial) fun text _ => ?_
  refine Triple.bind triple_checkDraft fun outcome hclaims => ?_
  by_cases hc : outcome.label = .clean
  · rw [if_pos hc]
    exact Triple.ret (.inl rfl)
  · rw [if_neg hc]
    obtain ⟨correction, hcorrection⟩ := correction_ok hclaims
    refine Triple.bind (P := fun _ => True) (triple_code hcorrection trivial) fun _ _ => ?_
    refine Triple.bind (P := fun _ => True) (triple_complete fun _ _ => trivial)
      fun regenerated _ => ?_
    refine Triple.bind triple_checkDraft fun recheck _ => ?_
    by_cases hr : recheck.label = .clean
    · rw [if_pos hr]
      exact Triple.ret (.inr ⟨regenerated, recheck, by rw [replacement, if_pos hr]⟩)
    · rw [if_neg hr]
      exact Triple.ret (.inr ⟨regenerated, recheck, by rw [replacement, if_neg hr]⟩)

/-! ## Turns -/

/-- What the nodes rely on in the state. -/
structure Sound (st₀ st : GraphState F) : Prop where
  messages : st.messages = st₀.messages
  question : NullOrString st.clarifyQuestion
  lists : ∀ r, st.salesResult = some r → r.ListsOnly
  escalation : NullOrObject st.escalateResult

/-- The events of a turn are well-formed for the nodes that ask. -/
def WellFormedTurn (tr : TurnTrace F) : Prop := ∀ ev ∈ tr, WellFormed ev.req.1 ev.untag

omit [Unicode] in
theorem wellFormedTurn_tag {m : Node} {t : Trace F} :
    WellFormedTurn (t.map (Event.tag m)) ↔ ∀ ev ∈ t, WellFormed m ev :=
  List.forall_mem_map

/-- Updates that keep `Sound`. -/
structure SoundUpdate (u : StateUpdate F) : Prop where
  question : ∀ q, u.clarifyQuestion = some q → NullOrString q
  lists : ∀ r, u.salesResult = some r → r.ListsOnly
  escalation : ∀ v, u.escalateResult = some v → NullOrObject v

omit [PyFloat F] [Unicode] in
theorem Sound.apply {u : StateUpdate F} (h : Sound st₀ st) (hu : SoundUpdate u) :
    Sound st₀ (st.apply u) where
  messages := h.messages
  question := by
    unfold GraphState.apply
    cases hq : u.clarifyQuestion with
    | none => exact h.question
    | some q => exact hu.question q hq
  lists r hr := by
    unfold GraphState.apply at hr
    cases hs : u.salesResult with
    | none => rw [hs] at hr; exact h.lists r hr
    | some r' =>
      rw [hs] at hr
      obtain rfl : r' = r := Option.some.inj hr
      exact hu.lists r' hs
  escalation := by
    unfold GraphState.apply
    cases hv : u.escalateResult with
    | none => exact h.escalation
    | some v => exact hu.escalation v hv

omit [Unicode] in
theorem soundUpdate_router {decision : List (Str × Json F)} {routes : Option (List Route)}
    {content : Str} [Unicode] (h : NullOrString (dictGet decision "clarify_question")) :
    SoundUpdate (routerUpdate decision routes content) where
  question q hq := by
    cases hq
    cases routes with
    | some rs => exact h
    | none =>
      unfold orElse
      by_cases ht : (dictGet decision "clarify_question").truthy = true
      · simp only [if_pos ht]
        exact h
      · simp only [if_neg ht]
        exact .inr ⟨_, rfl⟩
  lists r hr := by cases hr
  escalation v hv := by cases hv

omit [PyFloat F] [Unicode] in
/-- An update without these fields. -/
theorem soundUpdate_of_none {u : StateUpdate F} (hq : u.clarifyQuestion = none)
    (hs : u.salesResult = none) (he : u.escalateResult = none) : SoundUpdate u where
  question q h := by rw [hq] at h; cases h
  lists r h := by rw [hs] at h; cases h
  escalation v h := by rw [he] at h; cases h

/-- A turn that is neither at its start nor at its question nor at its end has a message. -/
theorem TurnAt.not_blank {c : TurnConfig F} (h : TurnAt settings salesAgent accountAgent st₀ c)
    (ha : c.active ≠ [.intake] ∧ c.active ≠ [.clarify] ∧ c.active ≠ []) :
    lastIsBlank st₀.messages = false := by
  induction h with
  | start => exact absurd rfl ha.1
  | blank _ => exact absurd rfl ha.2.1
  | asked hb => exact hb
  | routed hb _ _ => exact hb
  | clarified _ _ => exact absurd rfl ha.2.2
  | verified _ _ _ => exact absurd rfl ha.2.2
  | sales _ _ ih => exact ih (by simp)
  | account _ _ ih => exact ih (by simp)
  | both _ _ _ _ ih => exact ih (by simp)
  | merged _ _ ih => exact ih (by simp)
  | escalated _ _ ih => exact ih (by simp)
  | drafted _ _ ih => exact ih (by simp)

omit [PyFloat F] [Unicode] in
theorem soundUpdate_sales {r : ToolLoopResult F} (h : r.ListsOnly) :
    SoundUpdate { salesResult := some r } where
  question q hq := by cases hq
  lists r' hr := by cases hr; exact h
  escalation v hv := by cases hv

omit [PyFloat F] [Unicode] in
theorem soundUpdate_escalation {v : Json F} (h : NullOrObject v) :
    SoundUpdate { escalateResult := some v } where
  question q hq := by cases hq
  lists r hr := by cases hr
  escalation v' hv := by cases hv; exact h

/-- A turn in a well-formed environment keeps `Sound`. -/
theorem TurnAt.sound {c : TurnConfig F} (h₀ : st₀.routes ≠ [.clarify]) (hst : Sound st₀ st₀)
    (hsales : salesAgent.allowedTools = salesAgentTools)
    (haccount : accountAgent.allowedTools = accountAgentTools)
    (h : TurnAt settings salesAgent accountAgent st₀ c) (hq : WellFormedTurn c.tr) :
    Sound st₀ c.st := by
  induction h with
  | start => exact hst
  | asked hb => exact hst
  | blank hb =>
    refine hst.apply ⟨fun q hq => ?_, fun r hr => (by cases hr), fun v hv => (by cases hv)⟩
    cases hq
    exact .inr ⟨_, rfl⟩
  | routed hb hrun ha =>
    obtain ⟨decision, routes, content, rfl, hquestion⟩ :=
      (triple_routerNode h₀ hb).returns hrun (wellFormedTurn_tag.mp hq)
    exact hst.apply (soundUpdate_router hquestion)
  | clarified h ih => exact (ih hq).apply (soundUpdate_of_none rfl rfl rfl)
  | sales h hrun ih =>
    obtain ⟨hq', ht⟩ := List.forall_mem_append.mp hq
    have hs := ih hq'
    have hb : lastIsBlank _ = false := hs.messages ▸ h.not_blank (by simp)
    obtain ⟨r, rfl, hr⟩ :=
      (triple_salesAgentNode hsales hb).returns hrun (wellFormedTurn_tag.mp ht)
    exact hs.apply (soundUpdate_sales hr)
  | account h hrun ih =>
    obtain ⟨hq', ht⟩ := List.forall_mem_append.mp hq
    have hs := ih hq'
    have hb : lastIsBlank _ = false := hs.messages ▸ h.not_blank (by simp)
    obtain ⟨r, rfl⟩ := (triple_accountAgentNode hb).returns hrun (wellFormedTurn_tag.mp ht)
    exact hs.apply (soundUpdate_of_none rfl rfl rfl)
  | both h hrun hrun' hi ih =>
    obtain ⟨hq', ht⟩ := List.forall_mem_append.mp hq
    have hs := ih hq'
    have hb : lastIsBlank _ = false := hs.messages ▸ h.not_blank (by simp)
    obtain ⟨r, rfl, hr⟩ := (triple_salesAgentNode hsales hb).returns hrun
      (wellFormedTurn_tag.mp fun ev hev => ht ev (hi.sublist_left.subset hev))
    obtain ⟨r', rfl⟩ := (triple_accountAgentNode hb).returns hrun'
      (wellFormedTurn_tag.mp fun ev hev => ht ev (hi.sublist_right.subset hev))
    exact (hs.apply (soundUpdate_sales hr)).apply (soundUpdate_of_none rfl rfl rfl)
  | merged h hn ih => exact ih hq
  | escalated h hrun ih =>
    obtain ⟨hq', ht⟩ := List.forall_mem_append.mp hq
    obtain ⟨v, rfl, hv⟩ := (triple_escalateNode haccount).returns hrun (wellFormedTurn_tag.mp ht)
    exact (ih hq').apply (soundUpdate_escalation hv)
  | drafted h hrun ih =>
    obtain ⟨hq', -⟩ := List.forall_mem_append.mp hq
    obtain ⟨degraded, reasons, response, -, -, rfl⟩ := runs_synthesisNode hrun
    exact (ih hq').apply (soundUpdate_of_none rfl rfl rfl)
  | verified h hrun ih =>
    obtain ⟨hq', -⟩ := List.forall_mem_append.mp hq
    obtain ⟨draft, evidence, outcome, -, -, ⟨-, rfl, -⟩ |
      ⟨-, t, t', text, regenerated, recheck, -, -, -, -, rfl⟩⟩ := runs_verifyClaimsNode hrun
    · rw [apply_empty]
      exact ih hq'
    · refine (ih hq').apply ?_
      unfold replacement
      by_cases hc : recheck.label = .clean
      · rw [if_pos hc]
        exact soundUpdate_of_none rfl rfl rfl
      · rw [if_neg hc]
        exact soundUpdate_of_none rfl rfl rfl

/-- The provider failed the completion. -/
def FailedCompletion : Event (Request F) Answer → Prop
  | ⟨.complete _ _, .error _⟩ => True
  | ⟨.complete _ _, .ok _⟩ => False
  | ⟨.callTool _ _, _⟩ => False

/-- The completions that the provider failed are requests of the loops. -/
def FailuresInLoops (tr : TurnTrace F) : Prop :=
  ∀ ev ∈ tr, FailedCompletion ev.untag → ev.req.1 = .salesAgent ∨ ev.req.1 = .accountAgent

omit [PyFloat F] [Unicode] in
theorem failedCompletion_of_providerFailed {ev : Event (Request F) Answer} {e : Raised}
    (h : ProviderFailed ev e) : FailedCompletion ev := by
  obtain ⟨r, x⟩ := ev
  cases r with
  | callTool name arguments => exact h
  | complete messages model =>
    cases x with
    | ok raw => exact h
    | error e' => trivial

/-- A check that returns was answered. -/
theorem checkDraft_answered {model text : Str} {evidence : Json F} {tr : Trace F}
    {outcome : VerificationOutcome F} (h : Runs (checkDraft model text evidence) tr (.ok outcome)) :
    ∀ ev ∈ tr, ¬ FailedCompletion ev := by
  have hok : ∀ {messages model raw}, ¬ FailedCompletion
      (⟨.complete messages model, .ok raw⟩ : Event (Request F) Answer) := fun h => h
  generalize ho : (Except.ok outcome : Except Raised _) = out at h
  cases runs_checkDraft h with
  | stage1Failed e hm => cases ho
  | stage2Failed raw e hm h₁ => cases ho
  | stage1TooDeep raw e hm hdeep => cases ho
  | stage2TooDeep raw raw' e hm h₁ hdeep => cases ho
  | skipped hm => intro ev hev; cases hev
  | stage1Unparseable raw hm hdeep hno =>
    intro ev hev
    cases List.mem_singleton.mp hev
    exact hok
  | noClaim raw hm h₁ =>
    intro ev hev
    cases List.mem_singleton.mp hev
    exact hok
  | stage2Unparseable raw raw' hm h₁ hdeep hno =>
    intro ev hev
    rcases List.mem_pair.mp hev with rfl | rfl <;> exact hok
  | judged raw raw' claims hm h₁ h₂ =>
    intro ev hev
    rcases List.mem_pair.mp hev with rfl | rfl <;> exact hok

omit [PyFloat F] [Unicode] in
/-- Failures stay in the loops when a node without failures goes on. -/
theorem FailuresInLoops.append {tr : TurnTrace F} {m : Node} {t : Trace F}
    (h : FailuresInLoops tr) (ht : ∀ ev ∈ t, ¬ FailedCompletion ev) :
    FailuresInLoops (tr ++ t.map (Event.tag m)) := by
  intro ev hev hfail
  rcases List.mem_append.mp hev with hev | hev
  · exact h ev hev hfail
  · obtain ⟨ev', hev', rfl⟩ := List.mem_map.mp hev
    exact absurd hfail (ht ev' hev')

omit [PyFloat F] [Unicode] in
theorem failuresInLoops_loop {m : Node} (hm : m = .salesAgent ∨ m = .accountAgent) (t : Trace F) :
    FailuresInLoops (t.map (Event.tag m)) := by
  intro ev hev _
  obtain ⟨ev', -, rfl⟩ := List.mem_map.mp hev
  exact hm

/-- Where a turn is, the provider has failed no completions but those of the loops. -/
theorem TurnAt.failuresInLoops {c : TurnConfig F} (h₀ : st₀.routes ≠ [.clarify])
    (h : TurnAt settings salesAgent accountAgent st₀ c) : FailuresInLoops c.tr := by
  have hnil : FailuresInLoops ([] : TurnTrace F) := fun ev hev => by cases hev
  have hok : ∀ {messages model raw}, ∀ ev ∈ ([⟨.complete messages model, .ok raw⟩] : Trace F),
      ¬ FailedCompletion ev := by
    intro messages model raw ev hev
    cases List.mem_singleton.mp hev
    exact fun h => h
  induction h with
  | start => exact hnil
  | blank hb => exact hnil
  | asked hb => exact hnil
  | routed hb hrun ha =>
    obtain ⟨raw, rfl, -⟩ := runs_routerNode h₀ hrun
    exact hnil.append (m := .router) hok
  | clarified h ih => exact ih
  | merged h hn ih => exact ih
  | sales h hrun ih =>
    exact List.forall_mem_append.mpr ⟨ih, failuresInLoops_loop (.inl rfl) _⟩
  | account h hrun ih =>
    exact List.forall_mem_append.mpr ⟨ih, failuresInLoops_loop (.inr rfl) _⟩
  | both h hrun hrun' hi ih =>
    refine List.forall_mem_append.mpr ⟨ih, fun ev hev => ?_⟩
    rcases hi.mem_iff.mp hev with hev | hev
    · exact failuresInLoops_loop (.inl rfl) _ ev hev
    · exact failuresInLoops_loop (.inr rfl) _ ev hev
  | escalated h hrun ih =>
    refine ih.append fun ev hev => ?_
    obtain ⟨name, arguments, x, rfl⟩ := runs_escalateNode hrun ev hev
    exact fun h => h
  | drafted h hrun ih =>
    obtain ⟨degraded, reasons, response, -, rfl, -⟩ := runs_synthesisNode hrun
    exact ih.append hok
  | verified h hrun ih =>
    obtain ⟨draft, evidence, outcome, -, -, ⟨-, -, hcheck⟩ |
      ⟨-, t, t', text, regenerated, recheck, hcheck, -, hcheck', rfl, -⟩⟩ :=
        runs_verifyClaimsNode hrun
    · exact ih.append (checkDraft_answered hcheck)
    · refine ih.append (List.forall_mem_append.mpr ⟨checkDraft_answered hcheck,
        List.forall_mem_cons.mpr ⟨fun h => h, checkDraft_answered hcheck'⟩⟩)

/-- A node that raises in a well-formed environment is not a loop, and the provider failed it. -/
theorem TurnAt.raises {c : TurnConfig F} {m : Node} {t : Trace F} {e : Raised}
    (h₀ : st₀.routes ≠ [.clarify]) (hst : Sound st₀ st₀)
    (hsales : salesAgent.allowedTools = salesAgentTools)
    (haccount : accountAgent.allowedTools = accountAgentTools)
    (h : TurnAt settings salesAgent accountAgent st₀ c) (hq : WellFormedTurn c.tr)
    (hm : m ∈ c.active) (ht : ∀ ev ∈ t, WellFormed m ev)
    (hrun : Runs ((buildSupervisorGraph settings salesAgent accountAgent).node m c.st) t (.error e)) :
    (m ≠ .salesAgent ∧ m ≠ .accountAgent) ∧ ∃ ev ∈ t, FailedCompletion ev := by
  have hs := h.sound h₀ hst hsales haccount hq
  have hblamed : ∀ {m : Node}, (m ≠ .salesAgent ∧ m ≠ .accountAgent) → (∃ ev ∈ t, ProviderFailed ev e) →
      (m ≠ .salesAgent ∧ m ≠ .accountAgent) ∧ ∃ ev ∈ t, FailedCompletion ev :=
    fun hne ⟨ev, hev, hf⟩ => ⟨hne, ev, hev, failedCompletion_of_providerFailed hf⟩
  obtain ⟨active, path, st, tr⟩ := c
  have hblank : active ≠ [.intake] ∧ active ≠ [.clarify] ∧ active ≠ [] →
      lastIsBlank st.messages = false := fun ha => hs.messages ▸ h.not_blank ha
  cases m with
  | intake =>
    change Runs (intakeNode st) t _ at hrun
    unfold intakeNode at hrun
    by_cases hb : lastIsBlank st.messages = true
    · rw [if_pos hb] at hrun
      cases hrun
    · rw [if_neg hb] at hrun
      cases hrun
  | router =>
    obtain rfl : active = [.router] := h.active_alone hm (by decide)
    obtain ⟨-, rfl, -, hb⟩ := h.at_router
    exact hblamed (by decide) ((triple_routerNode h₀ hb).raises hrun ht)
  | salesAgent =>
    have hb := hblank ⟨by rintro rfl; simp at hm, by rintro rfl; simp at hm, by rintro rfl; cases hm⟩
    obtain ⟨ev, -, hf⟩ := (triple_salesAgentNode hsales hb).raises hrun ht
    exact hf.elim
  | accountAgent =>
    have hb := hblank ⟨by rintro rfl; simp at hm, by rintro rfl; simp at hm, by rintro rfl; cases hm⟩
    obtain ⟨ev, -, hf⟩ := (triple_accountAgentNode hb).raises hrun ht
    exact hf.elim
  | merge => cases hrun
  | escalate =>
    obtain ⟨ev, -, hf⟩ := (triple_escalateNode haccount).raises hrun ht
    exact hf.elim
  | clarify => cases hrun
  | synthesis => exact hblamed (by decide) ((triple_synthesisNode hs.escalation).raises hrun ht)
  | verifyClaims =>
    obtain rfl : active = [.verifyClaims] := h.active_alone hm (by decide)
    obtain ⟨draft, hdraft⟩ := h.at_verifyClaims
    exact hblamed (by decide) ((triple_verifyClaimsNode hdraft hs.lists).raises hrun ht)

/-- A well-formed turn that returns has a response. -/
theorem TurnAt.response {path : List Node} {fin : GraphState F} {tr : TurnTrace F}
    (h₀ : st₀.routes ≠ [.clarify]) (hst : Sound st₀ st₀)
    (hsales : salesAgent.allowedTools = salesAgentTools)
    (haccount : accountAgent.allowedTools = accountAgentTools)
    (h : TurnAt settings salesAgent accountAgent st₀ ⟨[], path, fin, tr⟩) (hq : WellFormedTurn tr) :
    ∃ text, fin.finalResponse = .string text := by
  cases h with
  | @routed u _ _ hb hrun ha =>
    rcases routesAfterRouter_cases (st₀.apply u) with h | h | h | h | h <;> rw [h] at ha <;> cases ha
  | @clarified _ st _ h =>
    have hquestion := (h.sound h₀ hst hsales haccount hq).question
    change ∃ text, st.clarifyQuestion.orElse (.string defaultClarifyQuestion) = .string text
    unfold orElse
    by_cases ht : st.clarifyQuestion.truthy = true
    · rw [if_pos ht]
      rcases hquestion with hnull | htext
      · rw [hnull] at ht
        cases ht
      · exact htext
    · rw [if_neg ht]
      exact ⟨_, rfl⟩
  | verified h hrun =>
    obtain ⟨draft, hdraft⟩ := h.at_verifyClaims
    obtain ⟨draft', evidence, outcome, -, -, ⟨-, rfl, -⟩ |
      ⟨-, t, t', text, regenerated, recheck, -, -, -, -, rfl⟩⟩ := runs_verifyClaimsNode hrun
    · rw [apply_empty]
      exact ⟨draft, hdraft⟩
    · unfold replacement
      by_cases hc : recheck.label = .clean
      · rw [if_pos hc]
        exact ⟨regenerated, rfl⟩
      · rw [if_neg hc]
        exact ⟨safeFallbackText, rfl⟩

end Nodes

/-! ## Turns on fixed replies -/

theorem shopRunner_lists : ∀ name ∈ salesAgentTools ++ accountAgentTools,
    ∃ tool ∈ shopRunner.registered, tool.name = name := by
  intro name hname
  exact ⟨⟨name, none, []⟩, List.mem_map_of_mem hname, rfl⟩

/-- The router asks what is meant. -/
def clarifyReplies : Node → Except Exc Str := fun _ =>
  .ok "\x7b\"routes\": [\"clarify\"], \"clarify_question\": \"Which car?\"\x7d"

theorem loads_clarify :
    loads (F := FloatText) "\x7b\"routes\": [\"clarify\"], \"clarify_question\": \"Which car?\"\x7d" =
      some (.object [("routes", .array [.string "clarify"]),
        ("clarify_question", .string "Which car?")]) ∧
    Readable FloatText "\x7b\"routes\": [\"clarify\"], \"clarify_question\": \"Which car?\"\x7d" := by
  decide +kernel

theorem clarifyReplies_wellFormed (node : Node) (messages : List Message) {raw : Str}
    (h : clarifyReplies node = .ok raw) : WellFormedReply FloatText node messages raw := by
  obtain rfl : _ = raw := Except.ok.inj h
  obtain ⟨hloads, hread⟩ := loads_clarify
  have hobject : ReadsAsObject FloatText _ := readsAsObject_object hread hloads
  cases node with
  | router => exact ⟨_, [str "clarify"], hread, hloads, rfl, .inr ⟨_, rfl⟩⟩
  | salesAgent => exact hobject
  | accountAgent => exact hobject
  | verifyClaims =>
    refine ⟨fun _ e hdeep => (by cases hread.symm.trans hdeep.1), ?_⟩
    rintro - claims ⟨-, v, hv, hm⟩
    rw [hloads] at hv
    cases hv
    obtain ⟨kvs, hk, hlookup⟩ := hm
    cases hk
    have hnone : List.lookup (str "claims") [(str "routes", Json.array [.string "clarify"]),
        (str "clarify_question", (.string "Which car?" : Json FloatText))] = none := by
      decide
    rw [hnone] at hlookup
    cases hlookup
  | _ => trivial

theorem shopTurn_clarify_asks :
    (shopTurn "Hm." clarifyReplies).1.map (fun ev => ev.req.1) = [.router] := by
  decide +kernel

end DealershipAgent
