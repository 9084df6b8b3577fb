import DealershipAgent.Agents.Requests
import DealershipAgent.Agents.ToolLoopSpec

/-!
# The roles of the messages of a completion

* `isDialogue`: messages that begin and end with the user's, none a system message and no two in a row
  the assistant's.
* `Prompted`: a system prompt and a dialogue. `iteration_prompted`: the tool loop keeps its messages so.
* `Node.prompts`: the system prompts of a node, each with its model.
* `turn_asksWithin`: every completion of a turn is one of these prompts and a dialogue.
-/

namespace DealershipAgent

open Py Json Interact

/-! ## Dialogues -/

/-- After a message of the role `last`: an assistant's message follows a user's, and the last is a
user's. -/
def dialogueFrom : Role → List Message → Bool
  | last, [] => last = .user
  | last, m :: messages =>
    (m.role = .user || m.role = .assistant && last = .user) && dialogueFrom m.role messages

def isDialogue (messages : List Message) : Bool := dialogueFrom .assistant messages

section Dialogue

variable {last : Role} {messages messages' : List Message}

theorem dialogueFrom_append (h : dialogueFrom last messages = true) (messages' : List Message) :
    dialogueFrom last (messages ++ messages') = dialogueFrom .user messages' := by
  induction messages generalizing last with
  | nil =>
    obtain rfl : last = .user := of_decide_eq_true h
    rfl
  | cons m messages ih =>
    rw [dialogueFrom, Bool.and_eq_true] at h
    rw [List.cons_append, dialogueFrom, h.1, Bool.true_and, ih h.2]

theorem dialogueFrom_roles (h : dialogueFrom last messages = true) :
    ∀ m ∈ messages, m.role ≠ .system := by
  induction messages generalizing last with
  | nil => simp
  | cons m messages ih =>
    rw [dialogueFrom, Bool.and_eq_true] at h
    intro m' hm'
    rcases List.mem_cons.mp hm' with rfl | hm'
    · intro hsystem
      simp [hsystem] at h
    · exact ih h.2 m' hm'

theorem isDialogue_start (s : Str) : isDialogue [⟨.user, s⟩] = true := rfl

/-- A dialogue that goes on with a message of the user. -/
theorem isDialogue_user (h : isDialogue messages = true) (s : Str) :
    isDialogue (messages ++ [⟨.user, s⟩]) = true := by
  rw [isDialogue, dialogueFrom_append h]
  rfl

/-- A dialogue that goes on with a reply and a message of the user. -/
theorem isDialogue_reply (h : isDialogue messages = true) (raw s : Str) :
    isDialogue (messages ++ [⟨.assistant, raw⟩, ⟨.user, s⟩]) = true := by
  rw [isDialogue, dialogueFrom_append h]
  rfl

end Dialogue

/-! ## Prompts -/

/-- The prompt, and a dialogue after it. -/
def Prompted (prompt : Str) (messages : List Message) : Prop :=
  ∃ conversation, messages = ⟨.system, prompt⟩ :: conversation ∧ isDialogue conversation = true

section Prompted

variable {prompt : Str} {messages : List Message}

theorem Prompted.user (h : Prompted prompt messages) (s : Str) :
    Prompted prompt (messages ++ [⟨.user, s⟩]) := by
  obtain ⟨conversation, rfl, hd⟩ := h
  exact ⟨_, rfl, isDialogue_user hd s⟩

theorem Prompted.reply (h : Prompted prompt messages) (raw s : Str) :
    Prompted prompt (messages ++ [⟨.assistant, raw⟩, ⟨.user, s⟩]) := by
  obtain ⟨conversation, rfl, hd⟩ := h
  exact ⟨_, rfl, isDialogue_reply hd raw s⟩

end Prompted

section Prompts

variable {F : Type} {prompts : List (Str × Str)} {messages : List Message} {prompt model : Str}

/-- A completion for one of the prompts, on a dialogue. -/
def asksWithin (prompts : List (Str × Str)) : Request F → Bool
  | .complete (⟨.system, prompt⟩ :: conversation) model =>
    decide ((prompt, model) ∈ prompts) && isDialogue conversation
  | .complete _ _ => false
  | .callTool _ _ => true

theorem asksWithin_complete (h : asksWithin (F := F) prompts (.complete messages model) = true) :
    ∃ prompt, (prompt, model) ∈ prompts ∧ Prompted prompt messages := by
  unfold asksWithin at h
  split at h
  · next prompt conversation model' heq =>
    cases heq
    rw [Bool.and_eq_true] at h
    exact ⟨prompt, of_decide_eq_true h.1, conversation, rfl, h.2⟩
  · cases h
  · next heq => cases heq

/-- No other completion is asked for. -/
def Within {α : Type} (prompts : List (Str × Str)) (p : Program F α) : Prop :=
  AtMost (fun r => !asksWithin prompts r) 0 p

theorem within_complete (hprompt : (prompt, model) ∈ prompts) (h : Prompted prompt messages) :
    Within (F := F) prompts (complete messages model) := by
  obtain ⟨conversation, rfl, hd⟩ := h
  exact .skip (by simp [asksWithin, hprompt, hd]) fun x => .lift _

end Prompts

/-! ## The tool loop -/

section Loop

variable {F : Type} [PyFloat F]

/-- The system prompt of the loop of an agent. -/
def loopPrompt (systemPrompt : Str) (agent : SubAgent F) : Str :=
  systemPrompt ++ str "\n\n" ++ loopInstructions (toolDescriptions agent)

variable [Unicode] {cfg : LoopConfig F} {st st' : LoopState F} {tr : Trace F} {prompt : Str}

/-- A decision to call a tool adds one message, the user's. -/
theorem callRun_messages {toolName arguments : Json F}
    (h : CallRun cfg st toolName arguments tr (.ok st')) :
    ∃ s, st'.messages = st.messages ++ [⟨.user, s⟩] := by
  generalize hout : (Except.ok st' : Except Raised _) = out at h
  cases h with
  | repeated result hl =>
    obtain ⟨s, hc, hst⟩ := bind_eq_ok.mp (mapError_eq_ok.mp hout.symm)
    cases hst
    exact ⟨_, rfl⟩
  | failed e hl hrun =>
    cases hout
    exact ⟨_, rfl⟩
  | result result hl hrun =>
    cases hout
    unfold recordResult
    cases hc : compactToolResult result cfg.maxObservationChars with
    | error e => exact ⟨_, rfl⟩
    | ok s => exact ⟨_, rfl⟩

/-- An iteration that goes on adds the completion and the observation on it. -/
theorem iteration_prompted (h : Runs (iteration cfg st) tr (.ok (.inl st')))
    (hst : Prompted prompt st.messages) : Prompted prompt st'.messages := by
  generalize hout : (Except.ok (Sum.inl st') : Except Raised _) = out at h
  cases runs_iteration h with
  | @callTool raw decision rest o hb hread hl hf hc hcall =>
    cases o with
    | error e => cases hout
    | ok st'' =>
      cases hout
      obtain ⟨s, hs⟩ := callRun_messages hcall
      rw [hs, LoopState.append, List.append_assoc]
      exact hst.reply raw s
  | _ => cases hout

variable {prompts : List (Str × Str)} {settings : Settings} {model systemPrompt : Str}
  {agent : SubAgent F}

theorem within_callTool (toolName arguments : Json F) :
    Within prompts (agent.callTool toolName arguments) :=
  atMost_callTool (fun _ _ _ => rfl) toolName arguments

theorem within_runToolLoop (hprompt : (loopPrompt systemPrompt agent, model) ∈ prompts)
    (userQuery : Str) : Within prompts (runToolLoop settings model agent systemPrompt userQuery) :=
  AtMost.loop_of (I := fun st => Prompted (loopPrompt systemPrompt agent) st.messages)
    (fun _ hst => atMost_iteration (within_complete hprompt hst) within_callTool)
    (fun _ _ _ hst hrun => iteration_prompted hrun hst) _ ⟨_, rfl, isDialogue_start userQuery⟩

/-- The two stages of a check ask on a single message. -/
theorem within_checkDraft (h₁ : (stage1SystemPrompt, model) ∈ prompts)
    (h₂ : (stage2SystemPrompt, model) ∈ prompts) (draftText : Str) (evidence : Json F) :
    Within prompts (checkDraft model draftText evidence) :=
  atMost_checkDraft (within_complete h₁ ⟨_, rfl, isDialogue_start _⟩)
    (within_complete h₂ ⟨_, rfl, isDialogue_start _⟩)

end Loop

/-! ## The nodes -/

section Nodes

variable {F : Type} [PyFloat F]

/-- The system prompts of a node, each with the model that it is for. -/
def Node.prompts (settings : Settings) (salesAgent accountAgent : SubAgent F) : Node → List (Str × Str)
  | .router => [(routerSystemPrompt, settings.modelClassifier)]
  | .salesAgent => [(loopPrompt salesAgentSystemPrompt salesAgent, settings.modelClassifier)]
  | .accountAgent => [(loopPrompt accountAgentSystemPrompt accountAgent, settings.modelClassifier)]
  | .synthesis => [(synthesisSystemPrompt, settings.modelSynthesis)]
  | .verifyClaims => [(stage1SystemPrompt, settings.modelClassifier),
      (stage2SystemPrompt, settings.modelClassifier), (synthesisSystemPrompt, settings.modelSynthesis)]
  | .intake | .merge | .escalate | .clarify => []

theorem buildSynthesisMessages_prompted {st : GraphState F} (hst : isDialogue st.messages = true)
    (note : Option Str) : Prompted synthesisSystemPrompt (buildSynthesisMessages st note) := by
  have hresults : Prompted synthesisSystemPrompt (buildSynthesisMessages st) := by
    rw [buildSynthesisMessages, Option.toList_none, List.map_nil, List.append_nil]
    exact Prompted.user ⟨_, rfl, hst⟩ _
  cases note with
  | none => exact hresults
  | some note =>
    have h := hresults.user note
    rw [buildSynthesisMessages, Option.toList_none, List.map_nil, List.append_nil] at h
    exact h

variable [Unicode] {settings : Settings} {salesAgent accountAgent : SubAgent F}

/-- A node asks for its own prompts only, on the dialogue of the state and what it adds to it. -/
theorem node_within (node : Node) {st : GraphState F} (hst : isDialogue st.messages = true) :
    Within (node.prompts settings salesAgent accountAgent)
      ((buildSupervisorGraph settings salesAgent accountAgent).node node st) := by
  cases node with
  | intake =>
    change Within _ (intakeNode st)
    unfold intakeNode
    split <;> exact .ret _
  | router =>
    change Within _ (routerNode settings st)
    unfold routerNode
    by_cases hroutes : st.routes = [.clarify]
    · rw [if_pos hroutes]
      exact .ret _
    · rw [if_neg hroutes]
      exact (within_complete List.mem_cons_self ⟨_, rfl, hst⟩).bind_left fun raw => atMost_code _
  | salesAgent =>
    change Within _ (salesAgentNode settings salesAgent st)
    exact (atMost_code _).bind_right fun query =>
      (within_runToolLoop List.mem_cons_self _).bind_left fun result => .ret _
  | accountAgent =>
    change Within _ (accountAgentNode settings accountAgent st)
    exact (atMost_code _).bind_right fun query =>
      (within_runToolLoop List.mem_cons_self _).bind_left fun result => .ret _
  | merge => exact .ret _
  | escalate =>
    change Within _ (escalateNode accountAgent st)
    unfold escalateNode
    simp only
    split
    · exact .ret _
    · exact (within_callTool _ _).bind_left fun result => .ret _
  | clarify => exact .ret _
  | synthesis =>
    change Within _ (synthesisNode settings st)
    exact (atMost_code _).bind_right fun reasons =>
      (within_complete List.mem_cons_self (buildSynthesisMessages_prompted hst _)).bind_left
        fun response => .ret _
  | verifyClaims =>
    change Within _ (verifyClaimsNode settings st)
    have hcheck : ∀ draftText (evidence : Json F), Within (Node.verifyClaims.prompts settings salesAgent
        accountAgent) (checkDraft settings.modelClassifier draftText evidence) :=
      within_checkDraft (by simp [Node.prompts]) (by simp [Node.prompts])
    unfold verifyClaimsNode
    refine (atMost_code _).bind_right fun evidence => (atMost_code _).bind_right fun draft => ?_
    refine (hcheck _ _).bind_left fun outcome => ?_
    split
    · exact .ret _
    · refine (atMost_code _).bind_right fun text => ?_
      refine (within_complete (by simp [Node.prompts])
        ((buildSynthesisMessages_prompted hst none).reply draft text)).bind_left fun regenerated => ?_
      refine (hcheck _ _).bind_left fun recheck => ?_
      split <;> exact .ret _

end Nodes

/-! ## Turns -/

section Turns

variable {F : Type} [PyFloat F] [Unicode] {runner : Runner F} {salesAgent accountAgent : SubAgent F}

/-- However far a turn on a dialogue has come, each of its completions has asked for a prompt of its
node on a dialogue. -/
theorem turn_asksWithin (hs : buildSalesAgent runner.registered = .ok salesAgent)
    (ha : buildAccountAgent runner.registered = .ok accountAgent) {sched : Nat → Nat → Nat → Bool}
    {identity : RequestIdentity} {messages : List Message} (hm : isDialogue messages = true)
    {tr : TurnTrace F} (h : Begins (runTurn runner sched identity messages) tr) :
    ∀ ev ∈ tr, asksWithin (ev.req.1.prompts runner.settings salesAgent accountAgent) ev.req.2 = true := by
  rw [runTurn_eq hs ha] at h
  have hst : isDialogue (initialState (F := F) identity messages).messages = true := hm
  have hnone := (AtMost.run_of (g := buildSupervisorGraph runner.settings salesAgent accountAgent)
    (P := fun r => !asksWithin (r.1.prompts runner.settings salesAgent accountAgent) r.2)
    (I := fun st => isDialogue st.messages = true) (fun _ _ hst => hst)
    (fun node _ hst => node_within node hst) sched (recursionError runner.recursionLimit)
    runner.recursionLimit [.intake] hst).none h
  intro ev hev
  simpa using hnone ev hev

end Turns

end DealershipAgent
