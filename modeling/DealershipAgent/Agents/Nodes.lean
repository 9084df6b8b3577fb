import DealershipAgent.Agents.ActionClaims
import DealershipAgent.Agents.Degradation
import DealershipAgent.Agents.Pricing
import DealershipAgent.Agents.Prompts
import DealershipAgent.Agents.ToolLoop

/-!
# The nodes of the supervisor graph

`agents/nodes.py`: each node is a program from the state to an update of it.

* `verifyRun`: the runs of the verification, by how far they come.
* `runs_routerNode`, `runs_verifyClaimsNode`, ..: the runs of a node that return.
-/

namespace DealershipAgent

open Py Json Interact

/-- `DEFAULT_CLARIFY_QUESTION` -/
def defaultClarifyQuestion : Str :=
  text [
    "Could you tell me a bit more about what you're looking for - a vehicle, a dealership policy, ",
    "or help with an existing order?"]

/-- The question of the intake node. -/
def emptyMessageQuestion : Str := "I didn't catch that - what can I help you with?"

/-- `messages[-1].content` -/
def lastContent (messages : List Message) : Except Exc Str :=
  match messages.getLast? with
  | some message => .ok message.content
  | none => .error ⟨.indexError, "list index out of range"⟩

/-- The conversation ends in no text: `last_content` is empty. -/
def lastIsBlank (messages : List Message) : Bool :=
  match messages.getLast? with
  | some message => (strip message.content).isEmpty
  | none => true

section Nodes

variable {F : Type}

def intakeNode (st : GraphState F) : Program F (StateUpdate F) :=
  if lastIsBlank st.messages then
    return { routes := some [.clarify], clarifyQuestion := some (.string emptyMessageQuestion) }
  else return {}

/-! ## The router -/

/-- The member of `VALID_ROUTES`. -/
def validRoute (v : Json F) : Option Route :=
  if v.eqStr "sales" then some .sales
  else if v.eqStr "account" then some .account
  else if v.eqStr "clarify" then some .clarify
  else if v.eqStr "escalate" then some .escalate
  else none

/-- `clarify` and `escalate` stand alone. -/
def exclusiveRoutes (routes : List Route) : Bool :=
  !(decide (.clarify ∈ routes) && decide (1 < routes.length)) &&
    !(decide (.escalate ∈ routes) && decide (1 < routes.length))

/-- A value that `set(..)` cannot hold. -/
def isUnhashable : Json F → Bool
  | .array _ => true
  | .object _ => true
  | _ => false

/-- The routes of a decision, if it passes the checks. `set(routes)` raises on a list or an object
among them. -/
def readRoutes (routes : Json F) : Except Exc (Option (List Route)) :=
  match routes with
  | .array [] => .ok none
  | .array vs =>
    match vs.find? isUnhashable with
    | some v => .error (unhashable v)
    | none =>
      match vs.mapM validRoute with
      | some routes => .ok (if exclusiveRoutes routes then some routes else none)
      | none => .ok none
  | _ => .ok none

variable [PyFloat F] [Unicode]

/-- The update for a decision, on the content `content` of the last message. -/
def routerUpdate (decision : List (Str × Json F)) (routes : Option (List Route)) (content : Str) :
    StateUpdate F :=
  let clarifyQuestion := dictGet decision "clarify_question"
  { routes := some (routes.getD [.clarify]),
    orderRef := some (dictGet decision "order_ref"),
    priceFilters := some (derivePriceFilters content),
    clarifyQuestion := some (match routes with
      | some _ => clarifyQuestion
      | none => clarifyQuestion.orElse (.string defaultClarifyQuestion)),
    escalateSummary := some (dictGet decision "escalate_summary"),
    escalateReason := some (dictGet decision "escalate_reason") }

/-- What the router makes of a completion. Text that is no JSON counts as `{}`. -/
def routerDecision (raw : Str) (messages : List Message) : Except Exc (StateUpdate F) := do
  let parsed ← loadsOrNone raw
  let decision ← (parsed.getD (.object [])).asDict
  let routes ← readRoutes (dictGet decision "routes")
  let content ← lastContent messages
  return routerUpdate decision routes content

def routerNode (settings : Settings) (st : GraphState F) : Program F (StateUpdate F) := do
  if st.routes = [.clarify] then return {}
  let raw ← complete (⟨.system, routerSystemPrompt⟩ :: st.messages) settings.modelClassifier
  code (routerDecision raw st.messages)

/-! ## The sub-agents -/

omit [Unicode] in
def salesQuery (originalQuery : Str) (priceFilters : Option PriceFilters) : Str :=
  str "Customer asked: " ++ originalQuery ++
    match priceFilters with
    | some filters =>
      text [
        "\n",
        "The customer used vague price language. Use exactly this price filter if you call ",
        "search_listings: "] ++ dumps (filters.toJson : Json F)
    | none => []

def accountQuery (originalQuery : Str) (orderRef : Json F) : Str :=
  str "Customer asked: " ++ originalQuery ++
    str "\nExtracted order reference (may be empty): " ++ (orderRef.orElse (.string [])).pyStr

def salesAgentNode (settings : Settings) (salesAgent : SubAgent F) (st : GraphState F) :
    Program F (StateUpdate F) := do
  let originalQuery ← code (lastContent st.messages)
  let result ← runToolLoop settings settings.modelClassifier salesAgent salesAgentSystemPrompt
    (salesQuery (F := F) originalQuery st.priceFilters)
  return { salesResult := some result }

def accountAgentNode (settings : Settings) (accountAgent : SubAgent F) (st : GraphState F) :
    Program F (StateUpdate F) := do
  let originalQuery ← code (lastContent st.messages)
  let result ← runToolLoop settings settings.modelClassifier accountAgent accountAgentSystemPrompt
    (accountQuery originalQuery st.orderRef)
  return { accountResult := some result }

omit [PyFloat F] [Unicode] in
def mergeNode (_ : GraphState F) : Program F (StateUpdate F) := return {}

/-! ## Escalation and clarification -/

omit [Unicode] in
/-- The summary and the reason of an escalation. -/
def escalationRequest (st : GraphState F) : Json F × Json F :=
  match escalationCause st with
  | some (summary, reason) => (.string summary, .string reason)
  | none => (st.escalateSummary.orElse (.string "Customer requested human assistance."),
      st.escalateReason.orElse (.string "customer_requested"))

/-- The result without an authenticated customer. -/
def notCreated : Json F :=
  .object [("status", .string "not_created"), ("reason", .string "no_authenticated_customer")]

def escalateNode (accountAgent : SubAgent F) (st : GraphState F) : Program F (StateUpdate F) := do
  let (summary, reason) := escalationRequest st
  if st.identity.customerId = none then
    return { escalateResult := some notCreated }
  let result ← accountAgent.callTool (.string "escalate_to_human")
    (.object [("summary", summary), ("reason", reason)])
  return { escalateResult := some result }

omit [Unicode] in
def clarifyNode (st : GraphState F) : Program F (StateUpdate F) :=
  return { finalResponse := some (st.clarifyQuestion.orElse (.string defaultClarifyQuestion)) }

/-! ## Synthesis and verification -/

omit [Unicode] in
/-- `_build_synthesis_messages` -/
def buildSynthesisMessages (st : GraphState F) (degradationNote : Option Str := none) :
    List Message :=
  let result (r : Option (ToolLoopResult F)) : Json F := (r.map ToolLoopResult.toJson).getD .null
  let payload : Json F := .object [("sales", result st.salesResult),
    ("account", result st.accountResult), ("escalation", st.escalateResult)]
  ⟨.system, synthesisSystemPrompt⟩ :: st.messages ++
    [⟨.user, str "Agent results: " ++ dumps payload⟩] ++
    (degradationNote.toList.map fun note => ⟨.user, note⟩)

/-- `_degradation_note` -/
def degradationNote (reasons : List Str) : Str :=
  str "Internal note, do not quote verbatim: this turn did not fully complete (" ++
    join ", " reasons ++
  text [
    "). If this means part of the customer's request could not be answered, you MUST say so ",
    "plainly in your reply and offer to try again or escalate - never present partial or missing ",
    "results as if they were complete."]

def synthesisNode (settings : Settings) (st : GraphState F) : Program F (StateUpdate F) := do
  let (degraded, reasons) ← code (computeDegradation st)
  let note := if degraded then some (degradationNote reasons) else none
  let response ← complete (buildSynthesisMessages st note) settings.modelSynthesis
  return { finalResponse := some (.string response), degraded := some degraded,
           degradationReasons := some reasons }

/-- `draft.lower()` needs a `str`. -/
def asText : Json F → Except Exc Str
  | .string s => .ok s
  | v => .error ⟨.attributeError, str "'" ++ v.typeName ++ str "' object has no attribute 'lower'"⟩

/-- The correction for a draft that was not found clean. -/
def correction (outcome : VerificationOutcome F) : Except Exc Str := do
  let violationText ←
    if outcome.unparseable then
      .ok (text [
        "- the fact-check itself could not be completed, so no claim in this draft can be ",
        "verified as true"])
    else formatViolations outcome.claims
  return correctionInstruction violationText

def verifyClaimsNode (settings : Settings) (st : GraphState F) : Program F (StateUpdate F) := do
  let draft := st.finalResponse.orElse (.string [])
  let evidence ← code (buildEvidenceSummary st)
  let draft ← code (asText draft)
  let outcome ← checkDraft settings.modelClassifier draft evidence
  if outcome.label = .clean then return {}
  let correction ← code (correction outcome)
  let regenerated ← complete
    (buildSynthesisMessages st ++ [⟨.assistant, draft⟩, ⟨.user, correction⟩]) settings.modelSynthesis
  let recheck ← checkDraft settings.modelClassifier regenerated evidence
  if recheck.label = .clean then
    return { finalResponse := some (.string regenerated), degraded := some true,
             degradationReasons := some (st.degradationReasons ++ [str "action_claim_corrected"]) }
  return { finalResponse := some (.string safeFallbackText), degraded := some true,
           degradationReasons := some (st.degradationReasons ++ [str "action_claim_replaced"]) }

end Nodes

/-! ## The runs of the nodes -/

section Runs

variable {F : Type} [PyFloat F] [Unicode] {settings : Settings} {st : GraphState F} {tr : Trace F}
  {u : StateUpdate F}

theorem routerDecision_eq_ok {raw : Str} {messages : List Message} :
    routerDecision raw messages = .ok u ↔ ∃ (decision : List (Str × Json F))
      (routes : Option (List Route)) (content : Str), Readable F raw ∧
      (loads raw).getD (.object []) = .object decision ∧
      readRoutes (dictGet decision "routes") = .ok routes ∧ lastContent messages = .ok content ∧
      u = routerUpdate decision routes content := by
  constructor
  · intro h
    obtain ⟨parsed, hp, h⟩ := bind_eq_ok.mp h
    obtain ⟨hread, rfl⟩ := loadsOrNone_eq_ok.mp hp
    obtain ⟨decision, hd, h⟩ := bind_eq_ok.mp h
    obtain ⟨routes, hr, h⟩ := bind_eq_ok.mp h
    obtain ⟨content, hc, h⟩ := bind_eq_ok.mp h
    cases h
    exact ⟨decision, routes, content, hread, asDict_eq_ok.mp hd, hr, hc, rfl⟩
  · rintro ⟨decision, routes, content, hread, hd, hr, hc, rfl⟩
    refine bind_eq_ok.mpr ⟨_, hread.loadsOrNone, ?_⟩
    rw [hd]
    exact bind_eq_ok.mpr ⟨_, rfl, bind_eq_ok.mpr ⟨_, hr, bind_eq_ok.mpr ⟨_, hc, rfl⟩⟩⟩

/-- A router that returns has got a completion that it could read. -/
theorem runs_routerNode (hst : st.routes ≠ [.clarify])
    (h : Runs (routerNode settings st) tr (.ok u)) :
    ∃ raw, tr = [⟨.complete (⟨.system, routerSystemPrompt⟩ :: st.messages) settings.modelClassifier,
        .ok raw⟩] ∧ routerDecision raw st.messages = .ok u := by
  unfold routerNode at h
  rw [if_neg hst] at h
  obtain ⟨raw, t₁, t₂, rfl, h₁, h₂⟩ := runs_bind_ok.mp h
  obtain rfl := runs_complete_ok.mp h₁
  obtain ⟨rfl, hu⟩ := runs_code_ok.mp h₂
  exact ⟨raw, rfl, hu⟩

/-- A sub-agent that returns has run its loop. -/
theorem runs_salesAgentNode {salesAgent : SubAgent F}
    (h : Runs (salesAgentNode settings salesAgent st) tr (.ok u)) :
    ∃ query r, lastContent st.messages = .ok query ∧ u = { salesResult := some r } ∧
      Runs (runToolLoop settings settings.modelClassifier salesAgent salesAgentSystemPrompt
        (salesQuery (F := F) query st.priceFilters)) tr (.ok r) := by
  obtain ⟨query, t₁, t₂, rfl, h₁, h₂⟩ := runs_bind_ok.mp h
  obtain ⟨rfl, hquery⟩ := runs_code_ok.mp h₁
  obtain ⟨r, t₃, t₄, rfl, h₃, h₄⟩ := runs_bind_ok.mp h₂
  obtain ⟨rfl, hu⟩ := runs_ret.mp h₄
  cases hu
  exact ⟨query, r, hquery, rfl, by simpa using h₃⟩

theorem runs_accountAgentNode {accountAgent : SubAgent F}
    (h : Runs (accountAgentNode settings accountAgent st) tr (.ok u)) :
    ∃ query r, lastContent st.messages = .ok query ∧ u = { accountResult := some r } ∧
      Runs (runToolLoop settings settings.modelClassifier accountAgent accountAgentSystemPrompt
        (accountQuery query st.orderRef)) tr (.ok r) := by
  obtain ⟨query, t₁, t₂, rfl, h₁, h₂⟩ := runs_bind_ok.mp h
  obtain ⟨rfl, hquery⟩ := runs_code_ok.mp h₁
  obtain ⟨r, t₃, t₄, rfl, h₃, h₄⟩ := runs_bind_ok.mp h₂
  obtain ⟨rfl, hu⟩ := runs_ret.mp h₄
  cases hu
  exact ⟨query, r, hquery, rfl, by simpa using h₃⟩

/-- An escalation asks for one tool call at most. -/
theorem runs_escalateNode {accountAgent : SubAgent F}
    (h : Runs (escalateNode accountAgent st) tr (.ok u)) :
    ∀ ev ∈ tr, ∃ name arguments x, ev = ⟨.callTool name arguments, x⟩ := by
  unfold escalateNode at h
  by_cases hc : st.identity.customerId = none
  · simp only [hc, if_true] at h
    obtain ⟨rfl, -⟩ := runs_ret.mp h
    intro ev hev
    cases hev
  · simp only [hc, if_false] at h
    obtain ⟨v, t₁, t₂, rfl, h₁, h₂⟩ := runs_bind_ok.mp h
    obtain ⟨rfl, -⟩ := runs_ret.mp h₂
    rw [List.append_nil]
    rcases runs_callTool h₁ with ⟨e, rfl, -⟩ | ⟨name, -, -, x, rfl, -⟩
    · intro ev hev
      cases hev
    · intro ev hev
      exact ⟨_, _, _, List.mem_singleton.mp hev⟩

/-- A synthesis that returns has a text as the response. -/
theorem runs_synthesisNode (h : Runs (synthesisNode settings st) tr (.ok u)) :
    ∃ degraded reasons response, computeDegradation st = .ok (degraded, reasons) ∧
      tr = [⟨.complete (buildSynthesisMessages st
        (if degraded then some (degradationNote reasons) else none)) settings.modelSynthesis,
        .ok response⟩] ∧
      u = { finalResponse := some (.string response), degraded := some degraded,
            degradationReasons := some reasons } := by
  unfold synthesisNode at h
  obtain ⟨⟨degraded, reasons⟩, t₁, t₂, rfl, h₁, h₂⟩ := runs_bind_ok.mp h
  obtain ⟨rfl, hd⟩ := runs_code_ok.mp h₁
  obtain ⟨response, t₃, t₄, rfl, h₃, h₄⟩ := runs_bind_ok.mp h₂
  obtain rfl := runs_complete_ok.mp h₃
  obtain ⟨rfl, hu⟩ := runs_ret.mp h₄
  cases hu
  exact ⟨degraded, reasons, response, hd, rfl, rfl⟩

/-- The update of a verification whose first check does not find the draft clean: the regenerated
text if the second check finds that clean, else the fallback. -/
def replacement (st : GraphState F) (regenerated : Str) (recheck : VerificationOutcome F) :
    StateUpdate F :=
  if recheck.label = .clean then
    { finalResponse := some (.string regenerated), degraded := some true,
      degradationReasons := some (st.degradationReasons ++ [str "action_claim_corrected"]) }
  else
    { finalResponse := some (.string safeFallbackText), degraded := some true,
      degradationReasons := some (st.degradationReasons ++ [str "action_claim_replaced"]) }

/-- The messages that ask for another draft. -/
def redraftMessages (st : GraphState F) (draft text : Str) : List Message :=
  buildSynthesisMessages st ++ [⟨.assistant, draft⟩, ⟨.user, text⟩]

/-- The runs of a verification, by how far they come. -/
inductive VerifyRun (settings : Settings) (st : GraphState F) :
    Trace F → Except Raised (StateUpdate F) → Prop
  | noEvidence (e : Exc) : buildEvidenceSummary st = .error e →
      VerifyRun settings st [] (.error (.code e))
  | noText (e : Exc) : asText (st.finalResponse.orElse (.string [])) = .error e →
      VerifyRun settings st [] (.error (.code e))
  | unchecked {draft : Str} {evidence : Json F} {t : Trace F} (e : Raised) :
      buildEvidenceSummary st = .ok evidence →
      asText (st.finalResponse.orElse (.string [])) = .ok draft →
      Runs (checkDraft settings.modelClassifier draft evidence) t (.error e) →
      VerifyRun settings st t (.error e)
  | clean {draft : Str} {evidence : Json F} {t : Trace F} (outcome : VerificationOutcome F) :
      buildEvidenceSummary st = .ok evidence →
      asText (st.finalResponse.orElse (.string [])) = .ok draft →
      Runs (checkDraft settings.modelClassifier draft evidence) t (.ok outcome) →
      outcome.label = .clean → VerifyRun settings st t (.ok {})
  | noCorrection {draft : Str} {evidence : Json F} {t : Trace F} (outcome : VerificationOutcome F)
      (e : Exc) : buildEvidenceSummary st = .ok evidence →
      asText (st.finalResponse.orElse (.string [])) = .ok draft →
      Runs (checkDraft settings.modelClassifier draft evidence) t (.ok outcome) →
      outcome.label ≠ .clean → correction outcome = .error e →
      VerifyRun settings st t (.error (.code e))
  | notRegenerated {draft : Str} {evidence : Json F} {t : Trace F} (outcome : VerificationOutcome F)
      (text : Str) (e : Exc) : buildEvidenceSummary st = .ok evidence →
      asText (st.finalResponse.orElse (.string [])) = .ok draft →
      Runs (checkDraft settings.modelClassifier draft evidence) t (.ok outcome) →
      outcome.label ≠ .clean → correction outcome = .ok text →
      VerifyRun settings st
        (t ++ [⟨.complete (redraftMessages st draft text) settings.modelSynthesis, .error e⟩])
        (.error (.provider e))
  | regenerated {draft : Str} {evidence : Json F} {t t' : Trace F} (outcome : VerificationOutcome F)
      (text regenerated : Str) (o : Except Raised (VerificationOutcome F)) :
      buildEvidenceSummary st = .ok evidence →
      asText (st.finalResponse.orElse (.string [])) = .ok draft →
      Runs (checkDraft settings.modelClassifier draft evidence) t (.ok outcome) →
      outcome.label ≠ .clean → correction outcome = .ok text →
      Runs (checkDraft settings.modelClassifier regenerated evidence) t' o →
      VerifyRun settings st
        (t ++ ⟨.complete (redraftMessages st draft text) settings.modelSynthesis, .ok regenerated⟩ :: t')
        (o.map (replacement st regenerated))

theorem verifyRun {out : Except Raised (StateUpdate F)}
    (h : Runs (verifyClaimsNode settings st) tr out) : VerifyRun settings st tr out := by
  unfold verifyClaimsNode at h
  cases he : buildEvidenceSummary st with
  | error e =>
    rw [he] at h
    cases h
    exact .noEvidence e he
  | ok evidence =>
  rw [he] at h
  change Runs (code (asText _) >>= _) tr out at h
  cases hd : asText (st.finalResponse.orElse (.string [])) with
  | error e =>
    rw [hd] at h
    cases h
    exact .noText e hd
  | ok draft =>
  rw [hd] at h
  change Runs (checkDraft settings.modelClassifier draft evidence >>= _) tr out at h
  rcases runs_bind.mp h with ⟨outcome, t, rest, rfl, hcheck, hrest⟩ | ⟨e, hcheck, rfl⟩
  swap
  · exact .unchecked e he hd hcheck
  by_cases hc : outcome.label = .clean
  · rw [if_pos hc] at hrest
    obtain ⟨rfl, rfl⟩ := runs_ret.mp hrest
    rw [List.append_nil]
    exact .clean outcome he hd hcheck hc
  rw [if_neg hc] at hrest
  cases ht : correction outcome with
  | error e =>
    rw [ht] at hrest
    cases hrest
    rw [List.append_nil]
    exact .noCorrection outcome e he hd hcheck hc ht
  | ok text =>
  rw [ht] at hrest
  change Runs (complete (redraftMessages st draft text) settings.modelSynthesis >>= _) rest out at hrest
  rcases runs_bind.mp hrest with ⟨regenerated, t₁, t₂, rfl, h₁, h₂⟩ | ⟨e, h₁, rfl⟩
  swap
  · obtain ⟨x, rfl, hx⟩ := runs_complete.mp h₁
    cases x with
    | ok raw => cases hx
    | error e =>
      cases hx
      exact .notRegenerated outcome text e he hd hcheck hc ht
  obtain rfl := runs_complete_ok.mp h₁
  rcases runs_bind.mp h₂ with ⟨recheck, t', t₃, rfl, h₃, h₄⟩ | ⟨e, h₃, rfl⟩
  swap
  · exact .regenerated outcome text regenerated (.error e) he hd hcheck hc ht h₃
  have hlast : t₃ = [] ∧ out = .ok (replacement st regenerated recheck) := by
    unfold replacement
    by_cases hr : recheck.label = .clean
    · rw [if_pos hr] at h₄ ⊢
      exact runs_ret.mp h₄
    · rw [if_neg hr] at h₄ ⊢
      exact runs_ret.mp h₄
  obtain ⟨rfl, rfl⟩ := hlast
  rw [List.append_nil]
  exact .regenerated outcome text regenerated (.ok recheck) he hd hcheck hc ht h₃

/-- A verification that returns has checked the draft, and then what it has regenerated. -/
theorem runs_verifyClaimsNode (h : Runs (verifyClaimsNode settings st) tr (.ok u)) :
    ∃ draft evidence outcome, asText (st.finalResponse.orElse (.string [])) = .ok draft ∧
      buildEvidenceSummary st = .ok evidence ∧
      ((outcome.label = .clean ∧ u = {} ∧
          Runs (checkDraft settings.modelClassifier draft evidence) tr (.ok outcome)) ∨
        (outcome.label ≠ .clean ∧ ∃ t t' text regenerated recheck,
          Runs (checkDraft settings.modelClassifier draft evidence) t (.ok outcome) ∧
          correction outcome = .ok text ∧
          Runs (checkDraft settings.modelClassifier regenerated evidence) t' (.ok recheck) ∧
          tr = t ++ ⟨.complete (buildSynthesisMessages st ++ [⟨.assistant, draft⟩, ⟨.user, text⟩])
            settings.modelSynthesis, .ok regenerated⟩ :: t' ∧
          u = replacement st regenerated recheck)) := by
  generalize hout : (Except.ok u : Except Raised _) = out at h
  cases verifyRun h with
  | noEvidence e he => cases hout
  | noText e hd => cases hout
  | unchecked e he hd hcheck => cases hout
  | noCorrection outcome e he hd hcheck hc ht => cases hout
  | notRegenerated outcome text e he hd hcheck hc ht => cases hout
  | clean outcome he hd hcheck hc =>
    cases hout
    exact ⟨_, _, outcome, hd, he, .inl ⟨hc, rfl, hcheck⟩⟩
  | regenerated outcome text regenerated o he hd hcheck hc ht hrecheck =>
    cases o with
    | error e => cases hout
    | ok recheck =>
      cases hout
      exact ⟨_, _, outcome, hd, he,
        .inr ⟨hc, _, _, text, regenerated, recheck, hcheck, ht, hrecheck, rfl, rfl⟩⟩

end Runs

end DealershipAgent
