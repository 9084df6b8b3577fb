import DealershipAgent.Agents.Turn
import DealershipAgent.Interact.Count

/-!
# How many requests the nodes make

Bounds on the requests of a node that satisfy some predicate, when a completion counts for `c` and a
tool call for `k`.

* `Node.bound`: the bound of each node; `node_atMost`: it holds.
* `atMost_callTool`: an agent's call reaches the session for the agent's own tools only.
-/

namespace DealershipAgent

open Py Json Interact

section Bounds

variable {F : Type} [PyFloat F] [Unicode] {P : Request F → Bool} {c k : Nat}

omit [PyFloat F] [Unicode] in
theorem atMost_code {α : Type} {n : Nat} (x : Except Exc α) : AtMost P n (code (F := F) x) :=
  .lift _

/-- An iteration of the tool loop makes one completion and one tool call. -/
theorem atMost_iteration {cfg : LoopConfig F} {st : LoopState F}
    (hc : AtMost P c (complete (F := F) st.messages cfg.model))
    (hk : ∀ toolName arguments, AtMost P k (cfg.agent.callTool toolName arguments)) :
    AtMost P (c + k) (iteration cfg st) := by
  have hcall : ∀ raw decision, AtMost P k (callDecision cfg st raw decision) := by
    intro raw decision
    unfold callDecision
    simp only
    split
    · exact atMost_code _
    · refine (hk _ _).attempt.bind_left fun out => ?_
      cases out with
      | error e => exact .ret _
      | ok result => exact .ret _
  unfold iteration
  by_cases hb : cfg.tokenBudget ≤ estimateMessagesTokens st.messages
  · rw [if_pos hb]
    exact .ret _
  · rw [if_neg hb]
    refine hc.attempt.bind fun out => ?_
    cases out with
    | error e => exact .ret _
    | ok raw =>
      refine (atMost_code _).bind_right fun parsed => ?_
      cases parsed with
      | none => exact .ret _
      | some v =>
        refine (atMost_code _).bind_right fun decision => ?_
        simp only
        split
        · exact .ret _
        · split
          · exact .ret _
          · exact (hcall raw decision).map

variable {settings : Settings} {agent salesAgent accountAgent : SubAgent F}

theorem atMost_runToolLoop {model systemPrompt userQuery : Str}
    (hc : ∀ messages model, AtMost P c (complete (F := F) messages model))
    (hk : ∀ toolName arguments, AtMost P k (agent.callTool toolName arguments)) :
    AtMost P (maxIterations * (c + k))
      (runToolLoop settings model agent systemPrompt userQuery) :=
  .loop (fun _ => atMost_iteration (hc _ _) hk) _ _

/-- The check of a draft makes two completions. -/
theorem atMost_checkDraft {model draftText : Str} {evidence : Json F}
    (h₁ : AtMost P c (complete (F := F) (stage1Messages draftText) model))
    (h₂ : AtMost P c (complete (F := F) (stage2Messages draftText evidence) model)) :
    AtMost P (c + c) (checkDraft model draftText evidence) := by
  have hread : ∀ {α : Type} (x : Except Exc α), AtMost P 0 (noneIfUnparseable (F := F) x) := by
    intro α x
    unfold noneIfUnparseable
    cases x with
    | ok a => exact .ret _
    | error e =>
      simp only
      split
      · exact .ret _
      · exact atMost_code _
  unfold checkDraft
  split
  · exact .ret _
  · refine (h₁.bind_left fun raw => hread _).bind fun detected => ?_
    cases detected with
    | none => exact .ret _
    | some detected =>
      cases detected with
      | false => exact .ret _
      | true =>
        refine (h₂.bind_left fun raw => hread _).bind_left fun claims => ?_
        cases claims with
        | none => exact .ret _
        | some claims => exact atMost_code _

/-- What a node makes at most, when a completion counts for `c` and a tool call for `k`. -/
def Node.bound (c k : Nat) : Node → Nat
  | .router => c
  | .salesAgent => maxIterations * (c + k)
  | .accountAgent => maxIterations * (c + k)
  | .escalate => k
  | .synthesis => c
  | .verifyClaims => c + c + c + (c + c)
  | .intake | .merge | .clarify => 0

theorem node_atMost (node : Node) (st : GraphState F)
    (hc : ∀ messages model, AtMost P c (complete (F := F) messages model))
    (hs : node = .salesAgent →
      ∀ toolName arguments, AtMost P k (salesAgent.callTool toolName arguments))
    (ha : node = .accountAgent ∨ node = .escalate →
      ∀ toolName arguments, AtMost P k (accountAgent.callTool toolName arguments)) :
    AtMost P (node.bound c k)
      ((buildSupervisorGraph settings salesAgent accountAgent).node node st) := by
  cases node with
  | intake =>
    change AtMost P 0 (intakeNode st)
    unfold intakeNode
    split <;> exact .ret _
  | router =>
    change AtMost P c (routerNode settings st)
    unfold routerNode
    by_cases hst : st.routes = [.clarify]
    · rw [if_pos hst]
      exact .ret _
    · rw [if_neg hst]
      exact (hc _ _).bind_left fun raw => atMost_code _
  | salesAgent =>
    change AtMost P _ (salesAgentNode settings salesAgent st)
    exact (atMost_code _).bind_right fun query =>
      (atMost_runToolLoop hc (hs rfl)).bind_left fun result => .ret _
  | accountAgent =>
    change AtMost P _ (accountAgentNode settings accountAgent st)
    exact (atMost_code _).bind_right fun query =>
      (atMost_runToolLoop hc (ha (.inl rfl))).bind_left fun result => .ret _
  | merge => exact .ret _
  | escalate =>
    change AtMost P k (escalateNode accountAgent st)
    unfold escalateNode
    simp only
    split
    · exact .ret _
    · exact (ha (.inr rfl) _ _).bind_left fun result => .ret _
  | clarify => exact .ret _
  | synthesis =>
    change AtMost P c (synthesisNode settings st)
    exact (atMost_code _).bind_right fun reasons => (hc _ _).bind_left fun response => .ret _
  | verifyClaims =>
    change AtMost P _ (verifyClaimsNode settings st)
    unfold verifyClaimsNode
    refine (atMost_code _).bind_right fun evidence => (atMost_code _).bind_right fun draft => ?_
    change AtMost P (c + c + c + (c + c)) _
    rw [Nat.add_assoc (c + c)]
    refine (atMost_checkDraft (hc _ _) (hc _ _)).bind fun outcome => ?_
    split
    · exact .ret _
    · refine (atMost_code _).bind_right fun correction => (hc _ _).bind fun regenerated => ?_
      refine (atMost_checkDraft (hc _ _) (hc _ _)).bind_left fun recheck => ?_
      split <;> exact .ret _

/-! ## Kinds of requests -/

omit [PyFloat F] [Unicode] in
def isCompletion : Request F → Bool
  | .complete _ _ => true
  | .callTool _ _ => false

omit [PyFloat F] [Unicode] in
def isToolCall : Request F → Bool
  | .complete _ _ => false
  | .callTool _ _ => true

omit [PyFloat F] [Unicode] in
theorem atMost_complete (hP : ∀ messages model, P (.complete messages model) = false)
    (messages : List Message) (model : Str) : AtMost P 0 (complete (F := F) messages model) :=
  .skip (hP messages model) fun _ => .lift _

omit [PyFloat F] [Unicode] in
theorem atMost_complete_one (messages : List Message) (model : Str) :
    AtMost P 1 (complete (F := F) messages model) :=
  .ask fun _ => .lift _

/-- A call of the agent reaches the session for its own tools only. -/
theorem atMost_callTool (hP : ∀ name ∈ agent.allowedTools, ∀ arguments,
    P (.callTool name arguments) = false) (toolName arguments : Json F) :
    AtMost P 0 (agent.callTool toolName arguments) := by
  unfold SubAgent.callTool
  split
  · exact atMost_code _
  · exact atMost_code _
  · split
    · next hallowed =>
      refine AtMost.bind_left (.skip (hP _ (List.contains_iff_mem.mp hallowed) _) fun x => .lift _)
        fun result => atMost_code _
    · exact atMost_code _
  · exact atMost_code _

theorem atMost_callTool_one (toolName arguments : Json F) :
    AtMost P 1 (agent.callTool toolName arguments) := by
  unfold SubAgent.callTool
  split
  · exact atMost_code _
  · exact atMost_code _
  · split
    · refine AtMost.bind_left (.ask fun x => .lift _) fun result => atMost_code _
    · exact atMost_code _
  · exact atMost_code _

end Bounds

end DealershipAgent
