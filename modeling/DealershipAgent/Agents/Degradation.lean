import DealershipAgent.Agents.State
import DealershipAgent.Py.Json.Dump

/-!
# Loops without an answer, and degradation

`any_result_needs_escalation` and `_escalation_cause` (`agents/nodes.py`) route on the flags of the
sub-agents' results; `compute_degradation` (`agents/degradation.py`) names what went wrong in a turn.
-/

namespace DealershipAgent

open Py Json

section Flags

variable {F : Type}

/-- One of the three ways to end without an answer. -/
def ToolLoopResult.failed (result : ToolLoopResult F) : Bool :=
  result.hitCap || result.llmCallFailed || result.hitBudgetGuard

def anyResultNeedsEscalation (st : GraphState F) : Bool :=
  [st.salesResult, st.accountResult].any fun result =>
    match result with
    | some result => result.failed
    | none => false

/-- The causes of one sub-agent. -/
def resultCauses (label : Str) : Option (ToolLoopResult F) → List Str
  | none => []
  | some result =>
    (if result.hitCap then
      [label ++ str " reached its tool-call limit without finding an answer"] else []) ++
    (if result.llmCallFailed then
      [label ++ str " hit a technical issue reaching the language model"] else []) ++
    (if result.hitBudgetGuard then
      [label ++ str "'s conversation grew too large to continue safely"] else [])

end Flags

section Causes

variable {F : Type}

/-- `_escalation_cause`: a summary and a reason. -/
def escalationCause (st : GraphState F) : Option (Str × Str) :=
  match resultCauses "the sales lookup" st.salesResult ++
      resultCauses "the account lookup" st.accountResult with
  | [] => none
  | causes => some
      (str "The assistant could not fully resolve the customer's request: " ++
        join "; " causes ++ str ". Escalating rather than failing silently.",
        "tool_loop_could_not_complete")

variable [PyFloat F] [Unicode]

/-- `_result_degradation_reasons` -/
def resultDegradationReasons (label : Str) : Option (ToolLoopResult F) → List Str
  | none => []
  | some result =>
    (if result.hitCap then [label ++ str "_hit_iteration_cap"] else []) ++
    (if result.llmCallFailed then [label ++ str "_llm_call_failed"] else []) ++
    (if result.hitBudgetGuard then [label ++ str "_budget_guard_fired"] else []) ++
    result.toolCalls.filterMap fun call =>
      if call.hasError then some (label ++ str "_tool_error:" ++ call.tool.pyStr) else none

/-- `escalate_result is not None and escalate_result.get("status") == "not_created"` -/
def escalationNotCreated (escalateResult : Json F) : Except Exc Bool :=
  match escalateResult with
  | .null => .ok false
  | v => do
    let kvs ← v.asDict
    return (dictGet kvs "status").eqStr "not_created"

/-- Whether anything went wrong, and what. -/
def computeDegradation (st : GraphState F) : Except Exc (Bool × List Str) := do
  let reasons := resultDegradationReasons "sales" st.salesResult ++
    resultDegradationReasons "account" st.accountResult
  let notCreated ← escalationNotCreated st.escalateResult
  let reasons := if notCreated then reasons ++ [str "escalation_not_created"] else reasons
  return (!reasons.isEmpty, reasons)

end Causes

end DealershipAgent
