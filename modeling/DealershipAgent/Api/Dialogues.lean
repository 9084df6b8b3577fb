import DealershipAgent.Agents.PromptRoles
import DealershipAgent.Api.Sessions
import DealershipAgent.Llm.Bedrock

/-!
# What the providers are sent for a chat

* `Exchanges`: histories of whole exchanges, which every run of requests keeps (`chats_exchanges`).
* `chat_prompts`: every completion of every turn has one system prompt, its node's, and a dialogue.
-/

namespace DealershipAgent

open Py Json Interact RowSecurity

/-! ## Histories of exchanges -/

/-- A message of the user and the answer to it, any number of times. -/
def Exchanges (rows : List (Str × Str)) : Prop :=
  ∃ pairs : List (Str × Str),
    rows = pairs.flatMap fun p => [(Role.user.value, p.1), (Role.assistant.value, p.2)]

theorem Exchanges.append {rows rows' : List (Str × Str)} (h : Exchanges rows) (h' : Exchanges rows') :
    Exchanges (rows ++ rows') := by
  obtain ⟨pairs, rfl⟩ := h
  obtain ⟨pairs', rfl⟩ := h'
  exact ⟨pairs ++ pairs', List.flatMap_append.symm⟩

theorem Exchanges.flatMap {α : Type} {f : α → List (Str × Str)} {xs : List α}
    (h : ∀ x ∈ xs, Exchanges (f x)) : Exchanges (xs.flatMap f) := by
  induction xs with
  | nil => exact ⟨[], rfl⟩
  | cons x xs ih =>
    rw [List.forall_mem_cons] at h
    exact h.1.append (ih h.2)

theorem exchanges_exchange (request : ChatRequest) (answer : Str) :
    Exchanges ((exchange request answer).map Message.columns) :=
  ⟨[(request.message, answer)], rfl⟩

/-- Messages read back from exchanges are a dialogue with the next message of the user. -/
theorem Exchanges.isDialogue {messages : List Message} (h : Exchanges (messages.map Message.columns))
    (s : Str) : isDialogue (messages ++ [⟨.user, s⟩]) = true := by
  obtain ⟨pairs, h⟩ := h
  have hmessages : messages = pairs.flatMap fun p => [⟨.user, p.1⟩, ⟨.assistant, p.2⟩] := by
    refine columns_injective.list_map (h.trans ?_)
    rw [List.map_flatMap]
    rfl
  rw [hmessages]
  clear h hmessages
  induction pairs with
  | nil => rfl
  | cons p pairs ih =>
    cases pairs with
    | nil => rfl
    | cons p' pairs => exact ih

section Dialogues

variable {N T F : Type} [DecidableEq N] [PyFloat F] {pg : Postgres} {faults : Bool}
  {wholeSeconds : T → Int} {requests : N → RequestIdentity × ChatRequest}
  {store₀ : ConversationStore} {h h₁ h₂ : List (Event (N × ApiRequest) fun r => ApiAnswer T F r.2)}
  {sys : System N ConversationStore ApiRequest (ApiAnswer T F) ApiError ChatResponse} {n : N}

/-- Histories of exchanges stay so, whatever requests are served and in whatever order. -/
theorem chats_exchanges (h₀ : InOrder store₀)
    (hstore : ∀ conversationId, Exchanges (history store₀.db conversationId))
    (hr : SharedRun (ChatService pg faults) (chats wholeSeconds requests store₀) h sys)
    (conversationId : Int) : Exchanges (history sys.store.db conversationId) := by
  rw [(run_recorded h₀ hr).history]
  refine (hstore conversationId).append (.flatMap fun a ha => ?_)
  obtain ⟨n, conversationId', messages⟩ := a
  obtain ⟨c, hev⟩ := mem_appends.mp (List.mem_filter.mp ha).1
  obtain ⟨⟨prior, result, answer, -, -, rfl⟩, -⟩ :=
    (chats_trace hr n).appended (Graph.mem_traceOf.mpr hev)
  exact exchanges_exchange _ _

/-- The prior messages of a request are a whole history of its time. -/
theorem opened_exchanges (h₀ : InOrder store₀)
    (hstore : ∀ conversationId, Exchanges (history store₀.db conversationId))
    (hr : SharedRun (ChatService pg faults) (chats wholeSeconds requests store₀) h sys)
    {c conversationId : Int} {request : ChatRequest} {ev : ApiEvent T F} {ref : Str}
    {prior : List Message} (hopened : Opened c request ev conversationId ref prior)
    (hev : ev.tag n ∈ h) : Exchanges (prior.map Message.columns) := by
  cases hopened with
  | created hnone => exact ⟨[], rfl⟩
  | loaded hloaded =>
    obtain ⟨before, after, rfl⟩ := List.append_of_mem hev
    obtain ⟨sys₁, sys₂, hr₁, hs, -⟩ := hr.split
    cases hs with
    | mk hask hserve =>
      obtain ⟨-, hx | ⟨-, e, hx⟩⟩ := service_loadConversation hserve
      · rw [(loadConversationOnce_ok hx.symm).2.1]
        exact chats_exchanges h₀ hstore hr₁ _
      · cases hx

variable [Unicode]

/-- Any number of requests, in any order of their steps: each turn is on a dialogue that ends in the
message of its request, and each completion of the turn, however far it comes, is a prompt of the asking
node for its model and a dialogue. Bedrock is sent these two and nothing else. -/
theorem chat_prompts {identity : RequestIdentity} {messages : List Message}
    {x : Except Raised (GraphState F)} (h₀ : InOrder store₀)
    (hstore : ∀ conversationId, Exchanges (history store₀.db conversationId))
    (hr : SharedRun (ChatService pg faults) (chats wholeSeconds requests store₀) h sys)
    (hturn : (⟨.runTurn identity messages, x⟩ : ApiEvent T F).tag n ∈ h) {runner : Runner F}
    {salesAgent accountAgent : SubAgent F} (hs : buildSalesAgent runner.registered = .ok salesAgent)
    (ha : buildAccountAgent runner.registered = .ok accountAgent) {sched : Nat → Nat → Nat → Bool}
    {tr : TurnTrace F} (hbegins : Begins (runTurn runner sched identity messages) tr) :
    isDialogue messages = true ∧ messages.getLast? = some ⟨.user, (requests n).2.message⟩ ∧
    ∀ node asked model y,
      (⟨(node, .complete asked model), y⟩ : Event (Node × Request F) fun r => Answer r.2) ∈ tr →
      ∃ prompt conversation, (prompt, model) ∈ node.prompts runner.settings salesAgent accountAgent ∧
        asked = ⟨.system, prompt⟩ :: conversation ∧ isDialogue conversation = true ∧
        systemBlocks asked = [prompt] ∧
        converseMessages asked = conversation.map fun m => (m.role, m.content) := by
  obtain ⟨rfl, c, ev, conversationId, ref, prior, hc, hev, hopened, rfl⟩ :=
    (chats_trace hr n).turn (Graph.mem_traceOf.mpr hturn)
  have hm := (opened_exchanges h₀ hstore hr hopened (Graph.mem_traceOf.mp hev)).isDialogue
    (requests n).2.message
  refine ⟨hm, List.getLast?_concat, fun node asked model y hasked => ?_⟩
  obtain ⟨prompt, hprompt, conversation, rfl, hd⟩ :=
    asksWithin_complete (turn_asksWithin hs ha hm hbegins _ hasked)
  obtain ⟨hsystem, hconverse⟩ := bedrock_splits prompt (dialogueFrom_roles hd)
  exact ⟨prompt, conversation, hprompt, rfl, hd, hsystem, hconverse⟩

end Dialogues

/-- The second request on a conversation, and the router's completion in its turn. -/
theorem talk_prompts : ∃ prompt conversation,
    isDialogue conversation = true ∧ conversation.getLast? = some ⟨.user, "Two"⟩ ∧
    systemBlocks (⟨.system, routerSystemPrompt⟩ :: (exchange (talkRequests true).2 "First" ++
      [⟨.user, (talkRequests false).2.message⟩])) = [prompt] ∧
    converseMessages (⟨.system, routerSystemPrompt⟩ :: (exchange (talkRequests true).2 "First" ++
      [⟨.user, (talkRequests false).2.message⟩])) = conversation.map fun m => (m.role, m.content) := by
  obtain ⟨h₁, sys₁, hr₁, hstore, -, hclient, -⟩ := talk_first
  obtain ⟨h₂, sys, hr₂⟩ := talk_second hstore hclient
  have hempty : ∀ conversationId, Exchanges (history talkStore.db conversationId) :=
    fun conversationId => ⟨[], by simp [history, talkStore]⟩
  obtain ⟨hm, hlast, hasked⟩ := @chat_prompts _ _ FloatText _ _ _ _ _ _ _ _ _ _ asciiUnicode _ _ _
    talk_keyed.1 hempty (hr₁.append hr₂)
    (List.mem_append_right h₁ (List.mem_append_right h₂ List.mem_cons_self)) shopRunner _ _ rfl rfl
    (fun _ _ _ => true) _ (.ask (.ok "Hm.") (.start _))
  obtain ⟨prompt, conversation, -, heq, hd, hsystem, hconverse⟩ :=
    hasked .router _ _ _ List.mem_cons_self
  cases heq
  exact ⟨_, _, hm, hlast, hsystem, hconverse⟩

end DealershipAgent
