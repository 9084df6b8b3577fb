import DealershipAgent.Agents.FinalResponse
import DealershipAgent.Agents.TurnShape

/-!
# Honest degradation

* `loopReasons`: the reasons that a sub-agent's result should give.
* `computeDegradation_eq_ok`: the reasons before verification are those, and the one of an escalation
  that created nothing.
* `honest_degradation`: a verified turn is degraded exactly when something went wrong in it, and its
  reasons name what.
-/

namespace DealershipAgent

open Py Json Interact

section Reasons

variable {F : Type} [PyFloat F] [Unicode]

omit [PyFloat F] [Unicode] in
/-- A flag is set, or a recorded call has an error. -/
def ToolLoopResult.WentWrong (r : ToolLoopResult F) : Prop :=
  r.hitCap = true ∨ r.llmCallFailed = true ∨ r.hitBudgetGuard = true ∨
    ∃ call ∈ r.toolCalls, call.hasError = true

omit [PyFloat F] [Unicode] in
/-- The flags of a result, each with its reason. -/
def ToolLoopResult.flags (r : ToolLoopResult F) : List (Bool × Str) :=
  [(r.hitCap, "_hit_iteration_cap"), (r.llmCallFailed, "_llm_call_failed"),
    (r.hitBudgetGuard, "_budget_guard_fired")]

/-- One reason for each flag that is set, then one for each failed call. -/
def loopReasons (label : Str) : Option (ToolLoopResult F) → List Str
  | none => []
  | some r => ((r.flags.filter (·.1)).map fun flag => label ++ flag.2) ++
      (r.toolCalls.filter ToolCall.hasError).map fun call =>
        label ++ str "_tool_error:" ++ call.tool.pyStr

theorem resultDegradationReasons_eq (label : Str) (r : Option (ToolLoopResult F)) :
    resultDegradationReasons label r = loopReasons label r := by
  cases r with
  | none => rfl
  | some r =>
    have hcalls : ∀ calls : List (ToolCall F),
        (calls.filterMap fun call => if call.hasError then
          some (label ++ str "_tool_error:" ++ call.tool.pyStr) else none) =
        (calls.filter ToolCall.hasError).map fun call =>
          label ++ str "_tool_error:" ++ call.tool.pyStr := by
      intro calls
      rw [← List.filterMap_eq_map, List.filterMap_filter]
      rfl
    unfold resultDegradationReasons loopReasons ToolLoopResult.flags
    simp only [hcalls]
    cases r.hitCap <;> cases r.llmCallFailed <;> cases r.hitBudgetGuard <;> rfl

theorem loopReasons_ne_nil {label : Str} {r : Option (ToolLoopResult F)} :
    loopReasons label r ≠ [] ↔ ∃ result, r = some result ∧ result.WentWrong := by
  cases r with
  | none => simp [loopReasons]
  | some r =>
    have hcalls : r.toolCalls.filter ToolCall.hasError ≠ [] ↔
        ∃ call ∈ r.toolCalls, call.hasError = true := by
      rw [ne_eq, List.filter_eq_nil_iff]
      simp
    simp only [Option.some.injEq, exists_eq_left']
    unfold loopReasons ToolLoopResult.flags ToolLoopResult.WentWrong
    rw [← hcalls]
    obtain ⟨finalAnswer, calls, hitCap, llmCallFailed, hitBudgetGuard⟩ := r
    cases hitCap <;> cases llmCallFailed <;> cases hitBudgetGuard <;> simp

omit [PyFloat F] [Unicode] in
/-- The escalation reports that it has created nothing. -/
def NotCreated (escalateResult : Json F) : Prop :=
  escalateResult.HasMember "status" (.string "not_created")

omit [PyFloat F] [Unicode] in
theorem escalationNotCreated_eq_ok {v : Json F} {b : Bool} (h : escalationNotCreated v = .ok b) :
    b = true ↔ NotCreated v := by
  unfold NotCreated
  cases v with
  | null =>
    cases h
    refine iff_of_false (by simp) ?_
    rintro ⟨kvs, hkvs, -⟩
    cases hkvs
  | object kvs =>
    obtain rfl : (dictGet kvs "status").eqStr "not_created" = b := Except.ok.inj h
    rw [eqStr_eq_true, HasMember, dictGet, dictGetD]
    constructor
    · intro hstatus
      cases hl : kvs.lookup (str "status") with
      | none => rw [hl] at hstatus; cases hstatus
      | some w =>
        rw [hl] at hstatus
        exact ⟨kvs, rfl, hl.trans (congrArg some hstatus)⟩
    · rintro ⟨kvs', hkvs, hl⟩
      cases hkvs
      rw [hl]
      rfl
  | _ => cases h

/-- The reason of the escalation, if it has created nothing. -/
inductive EscalationReasons (escalateResult : Json F) : List Str → Prop
  | notCreated : NotCreated escalateResult →
      EscalationReasons escalateResult [str "escalation_not_created"]
  | fine : ¬ NotCreated escalateResult → EscalationReasons escalateResult []

omit [PyFloat F] [Unicode] in
theorem EscalationReasons.ne_nil {v : Json F} {reasons : List Str} (h : EscalationReasons v reasons) :
    reasons ≠ [] ↔ NotCreated v := by
  cases h with
  | notCreated h => exact iff_of_true (by simp) h
  | fine h => exact iff_of_false (by simp) h

/-- The reasons before verification. -/
theorem computeDegradation_eq_ok {st : GraphState F} {degraded : Bool} {reasons : List Str}
    (h : computeDegradation st = .ok (degraded, reasons)) :
    degraded = !reasons.isEmpty ∧ ∃ escalation, EscalationReasons st.escalateResult escalation ∧
      reasons = loopReasons "sales" st.salesResult ++ loopReasons "account" st.accountResult ++
        escalation := by
  unfold computeDegradation at h
  simp only [resultDegradationReasons_eq] at h
  cases he : escalationNotCreated st.escalateResult with
  | error e => rw [he] at h; cases h
  | ok notCreated =>
    rw [he] at h
    have hiff := escalationNotCreated_eq_ok he
    cases notCreated with
    | true =>
      cases h
      exact ⟨rfl, _, .notCreated (hiff.mp rfl), rfl⟩
    | false =>
      cases h
      exact ⟨rfl, [], .fine fun hno => (by simpa using hiff.mpr hno), (List.append_nil _).symm⟩

/-- The checks of a draft, what the first one found, and the reason that they give. -/
inductive Verified (settings : Settings) (draft : Str) (evidence : Json F) :
    Trace F → VerificationLabel → List Str → Prop
  | clean {t : Trace F} {outcome : VerificationOutcome F} :
      Runs (checkDraft settings.modelClassifier draft evidence) t (.ok outcome) →
      outcome.label = .clean → Verified settings draft evidence t .clean []
  | corrected {t t' : Trace F} {messages : List Message} {regenerated : Str}
      {outcome recheck : VerificationOutcome F} :
      Runs (checkDraft settings.modelClassifier draft evidence) t (.ok outcome) →
      outcome.label = .violation →
      Runs (checkDraft settings.modelClassifier regenerated evidence) t' (.ok recheck) →
      recheck.label = .clean →
      Verified settings draft evidence
        (t ++ ⟨.complete messages settings.modelSynthesis, .ok regenerated⟩ :: t') .violation
        [str "action_claim_corrected"]
  | replaced {t t' : Trace F} {messages : List Message} {regenerated : Str}
      {outcome recheck : VerificationOutcome F} :
      Runs (checkDraft settings.modelClassifier draft evidence) t (.ok outcome) →
      outcome.label = .violation →
      Runs (checkDraft settings.modelClassifier regenerated evidence) t' (.ok recheck) →
      recheck.label = .violation →
      Verified settings draft evidence
        (t ++ ⟨.complete messages settings.modelSynthesis, .ok regenerated⟩ :: t') .violation
        [str "action_claim_replaced"]

/-- A verification that returns adds its reason to those there are. -/
theorem verifyClaimsNode_verified {settings : Settings} {st : GraphState F} {t : Trace F}
    {u : StateUpdate F} {draft : Str} (hdraft : st.finalResponse = .string draft)
    (hdegraded : st.degraded = !st.degradationReasons.isEmpty)
    (h : Runs (verifyClaimsNode settings st) t (.ok u)) :
    ∃ evidence label reasons, buildEvidenceSummary st = .ok evidence ∧
      Verified settings draft evidence t label reasons ∧
      (reasons ≠ [] ↔ label = .violation) ∧
      (st.apply u).degradationReasons = st.degradationReasons ++ reasons ∧
      (st.apply u).degraded = !(st.degradationReasons ++ reasons).isEmpty := by
  obtain ⟨draft', evidence, outcome, hdraft', hevidence, hrun⟩ := runs_verifyClaimsNode h
  have hviolation : ∀ {o : VerificationOutcome F}, o.label ≠ .clean → o.label = .violation := by
    intro o ho
    cases hl : o.label with
    | violation => rfl
    | clean => exact absurd hl ho
  obtain rfl : draft = draft' := by
    rw [hdraft, orElse] at hdraft'
    split at hdraft'
    · exact Except.ok.inj hdraft'
    · next hempty =>
      have hnil : draft = [] := by simpa [truthy] using hempty
      rw [hnil]
      exact Except.ok.inj hdraft'
  rcases hrun with ⟨hclean, rfl, hcheck⟩ |
    ⟨hlabel, t₁, t₂, text, regenerated, recheck, hcheck, -, hrecheck, rfl, rfl⟩
  · refine ⟨evidence, .clean, [], hevidence, .clean hcheck hclean, by simp, ?_, ?_⟩
    · rw [apply_empty, List.append_nil]
    · rw [apply_empty, List.append_nil, hdegraded]
  · unfold replacement
    by_cases hc : recheck.label = .clean
    · rw [if_pos hc]
      refine ⟨evidence, .violation, [str "action_claim_corrected"], hevidence,
        .corrected hcheck (hviolation hlabel) hrecheck hc, by simp, rfl, ?_⟩
      simp [GraphState.apply]
    · rw [if_neg hc]
      refine ⟨evidence, .violation, [str "action_claim_replaced"], hevidence,
        .replaced hcheck (hviolation hlabel) hrecheck (hviolation hc), by simp, rfl, ?_⟩
      simp [GraphState.apply]

omit [Unicode] in
theorem buildEvidenceSummary_congr {st st' : GraphState F} (h : st.SameResults st')
    (he : st.escalateResult = st'.escalateResult) :
    buildEvidenceSummary st = buildEvidenceSummary st' := by
  unfold buildEvidenceSummary
  rw [h.1, h.2, he]

theorem verifyClaimsNode_escalateResult {settings : Settings} {st : GraphState F} {t : Trace F}
    {u : StateUpdate F} (h : Runs (verifyClaimsNode settings st) t (.ok u)) :
    (st.apply u).escalateResult = st.escalateResult := by
  obtain ⟨draft, evidence, outcome, -, -, ⟨-, rfl, -⟩ | ⟨-, t, t', text, regenerated, recheck, -, -,
    -, -, rfl⟩⟩ := runs_verifyClaimsNode h
  · rfl
  · unfold replacement
    split <;> rfl

/-- A turn that returns through `verify_claims` is degraded exactly when a loop, its escalation or the
first check of its draft went wrong, and its reasons are those of the sales loop, the account loop, the
escalation and the verification, in that order. -/
theorem honest_degradation {runner : Runner F} {sched : Nat → Nat → Nat → Bool}
    {identity : RequestIdentity} {messages : List Message} {tr : TurnTrace F} {path : List Node}
    {fin : GraphState F} (h : Runs (runTurn runner sched identity messages) tr (.ok (path, fin)))
    (hv : .verifyClaims ∈ path) :
    ∃ (before : TurnTrace F) (synthesis t : Trace F) (request : List Message) (draft : Str)
        (evidence : Json F) (label : VerificationLabel) (escalation verification : List Str),
      tr = before ++ synthesis.map (Event.tag .synthesis) ++ t.map (Event.tag .verifyClaims) ∧
      synthesis = [⟨.complete request runner.settings.modelSynthesis, .ok draft⟩] ∧
      buildEvidenceSummary fin = .ok evidence ∧
      Verified runner.settings draft evidence t label verification ∧
      EscalationReasons fin.escalateResult escalation ∧
      fin.degradationReasons = loopReasons "sales" fin.salesResult ++
        loopReasons "account" fin.accountResult ++ escalation ++ verification ∧
      (fin.degraded = true ↔
        (∃ r, (fin.salesResult = some r ∨ fin.accountResult = some r) ∧ r.WentWrong) ∨
          NotCreated fin.escalateResult ∨ label = .violation) ∧
      (fin.degraded = true ↔ fin.degradationReasons ≠ []) := by
  obtain ⟨salesAgent, accountAgent, n, -, -, hr⟩ := turn_reaches h
  rcases (turnAt_reach (by simp [initialState]) hr).at_end with
    (rfl | rfl) | ⟨path₁, st₁, before₁, u, t, rfl, rfl, rfl, hverify, h₁⟩
  · simp at hv
  · simp at hv
  · obtain ⟨path₂, st₂, before, u', synthesis, rfl, rfl, rfl, hdraft, h₂⟩ := h₁.from_synthesis
    obtain ⟨degraded, reasons, draft, hcompute, rfl, rfl⟩ := runs_synthesisNode hdraft
    obtain ⟨hdegraded, escalation, hescalation, hreasons⟩ := computeDegradation_eq_ok hcompute
    obtain ⟨evidence, label, verification, hevidence, hverified, hlabel, hfin, hfin'⟩ :=
      verifyClaimsNode_verified rfl hdegraded hverify
    have hsame := verifyClaimsNode_sameResults hverify
    have hescalate := verifyClaimsNode_escalateResult hverify
    have hreasons' : (GraphState.apply _ u).degradationReasons =
        loopReasons "sales" st₂.salesResult ++ loopReasons "account" st₂.accountResult ++ escalation ++
          verification := hfin.trans (congrArg (· ++ verification) hreasons)
    rw [hsame.1, hsame.2, hescalate]
    refine ⟨before, _, t, _, draft, evidence, label, escalation, verification, rfl, rfl, ?_, hverified,
      hescalation, hreasons', ?_, ?_⟩
    · exact (buildEvidenceSummary_congr hsame hescalate).trans hevidence
    · rw [hfin', Bool.not_eq_true', List.isEmpty_eq_false_iff, ← hfin, hreasons']
      simp only [ne_eq, List.append_eq_nil_iff, not_and_or]
      refine (or_congr (or_congr (or_congr loopReasons_ne_nil loopReasons_ne_nil)
        hescalation.ne_nil) hlabel).trans ?_
      rw [or_assoc, ← exists_or]
      exact or_congr (exists_congr fun r => or_and_right.symm) Iff.rfl
    · rw [hfin', hfin, Bool.not_eq_true', List.isEmpty_eq_false_iff]

end Reasons

/-- An anonymous customer who is escalated gets a degraded turn. -/
theorem shopTurn_escalate_degraded : ∃ path fin, (shopTurn "Help!" escalateReplies).2 =
    .ok (path, fin) ∧ fin.degradationReasons = [str "escalation_not_created"] ∧
      fin.degraded = true := by
  let _ := asciiUnicode
  have hends := shopTurn_escalate_ends.1
  have hrun := shopTurn_runs "Help!" escalateReplies
  cases hout : (shopTurn "Help!" escalateReplies).2 with
  | error e => rw [hout] at hends; cases hends
  | ok x =>
    rw [hout] at hends hrun
    obtain ⟨hpath, hx⟩ := Prod.mk.inj (Except.ok.inj hends)
    have hv : .verifyClaims ∈ x.1 := by
      rw [hpath]
      decide
    obtain ⟨_, _, _, _, _, _, _, _, _, -, -, -, -, -, -, -, hdegraded⟩ := honest_degradation hrun hv
    exact ⟨x.1, x.2, rfl, hx, hdegraded.mpr (by rw [hx]; simp)⟩

end DealershipAgent
