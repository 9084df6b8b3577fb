import DealershipAgent.Agents.LeastPrivilege
import DealershipAgent.Api.Chat

/-!
# The response to a stored turn

* `stored_turn_response`: once `chat` has stored the messages of a turn, it returns a response exactly
  when every element of `_tool_calls_made` is a string.
* `persisted_turn_answered_iff`: it does, with names of tools that their agents may call, exactly when
  no sub-agent was asked for a tool that is not its own.
-/

namespace DealershipAgent

open Py Json Interact

section Names

variable {F : Type}

/-- The elements of `_tool_calls_made`, each with the node that has recorded it. -/
def recordedCalls (result : GraphState F) : List (Node × Json F) :=
  (result.salesResult.toList.flatMap fun r => r.toolCalls.map fun call => (.salesAgent, call.tool)) ++
    (result.accountResult.toList.flatMap fun r =>
      r.toolCalls.map fun call => (.accountAgent, call.tool)) ++
    match result.escalateResult with
    | .null => []
    | _ => [(.escalate, .string "escalate_to_human")]

theorem recordedCalls_toolCallsMade (result : GraphState F) :
    (recordedCalls result).map Prod.snd = toolCallsMade result := by
  unfold recordedCalls toolCallsMade
  rw [List.flatMap_append]
  simp only [List.map_append, List.map_flatMap, List.map_map]
  congr 1
  cases result.escalateResult <;> rfl

/-- The name of a tool that the node may call. -/
def OwnTool (call : Node × Json F) : Prop := ∃ name ∈ call.1.tools, call.2 = .string name

theorem OwnTool.isString {call : Node × Json F} (h : OwnTool call) : ∃ s, call.2 = .string s := by
  obtain ⟨name, -, hname⟩ := h
  exact ⟨name, hname⟩

theorem mapM_validStr {names : List (Json F)} :
    (∃ texts, names.mapM validStr = .ok texts) ↔ ∀ name ∈ names, ∃ s, name = .string s := by
  induction names with
  | nil => simp [pure, Except.pure]
  | cons name names ih =>
    rw [List.mapM_cons, List.forall_mem_cons, ← ih]
    cases name with
    | string s =>
      cases names.mapM validStr with
      | error e => simp [validStr, bind, Except.bind]
      | ok texts => simp [validStr, bind, Except.bind, pure, Except.pure]
    | _ => simp [validStr, bind, Except.bind]

/-- The response can be built exactly when the names are strings. -/
theorem chatResponse_eq_ok {answer conversationRef : Str} {result : GraphState F} :
    (∃ response, chatResponse answer conversationRef result = .ok response) ↔
      ∀ name ∈ toolCallsMade result, ∃ s, name = .string s := by
  rw [← mapM_validStr]
  unfold chatResponse
  cases (toolCallsMade result).mapM validStr with
  | error e => simp [bind, Except.bind]
  | ok texts => simp [bind, Except.bind, pure, Except.pure]

end Names

/-! ## After the messages are stored -/

section Stored

variable {T F : Type} {wholeSeconds : T → Int} {identity : RequestIdentity} {request : ChatRequest}
  {tr : List (ApiEvent T F)}

/-- To open its conversation a request asks once, and neither runs a turn nor appends. -/
theorem runs_openConversation {c : Int} {out : Except ApiError (Int × Str × List Message)}
    (h : Runs (openConversation c request) tr out) :
    ∃ ev : ApiEvent T F, tr = [ev] ∧ ev.req.isAppend = false ∧
      ∀ i messages x, ev ≠ ⟨.runTurn i messages, x⟩ := by
  unfold openConversation at h
  cases hr : request.conversationId with
  | some ref =>
    simp only [hr] at h
    obtain ⟨x, rfl, -⟩ := runs_ask_lift.mp h
    exact ⟨_, rfl, rfl, fun i messages y hy => by cases hy⟩
  | none =>
    simp only [hr] at h
    obtain ⟨x, rfl, -⟩ := runs_ask_lift.mp h
    exact ⟨_, rfl, rfl, fun i messages y hy => by cases hy⟩

variable [PyFloat F] {out : Except ApiError ChatResponse}

/-- A run that has stored messages ends with what `chatResponse` makes of its turn. -/
theorem stored_turn_ends {c conversationId : Int} {stored messages : List Message}
    {fin : GraphState F} (h : Runs (chat wholeSeconds identity request) tr out)
    (hturn : ⟨.runTurn identity messages, .ok fin⟩ ∈ tr)
    (hstored : ⟨.appendMessages c conversationId stored, .ok ()⟩ ∈ tr) :
    ∃ answer ref, out = (chatResponse answer ref fin).mapError ApiError.code := by
  unfold chat at h
  obtain ⟨rate, tr, rfl, hrate⟩ := runs_ask.mp h
  clear h
  have hstored : ⟨.appendMessages c conversationId stored, .ok ()⟩ ∈ tr := by simpa using hstored
  have hturn : ⟨.runTurn identity messages, .ok fin⟩ ∈ tr := by simpa using hturn
  by_cases hallowed : (!rate.allowed) = true
  · rw [if_pos hallowed] at hrate
    obtain ⟨rfl, -⟩ := runs_raise.mp hrate
    cases hstored
  · rw [if_neg hallowed] at hrate
    cases hc : identity.customerId with
    | none =>
      simp only [hc] at hrate
      obtain ⟨rfl, -⟩ := runs_raise.mp hrate
      cases hstored
    | some customerId =>
      simp only [hc] at hrate
      rcases runs_bind.mp hrate with ⟨⟨id, ref, prior⟩, t, tr', rfl, hopen, hafter⟩ | ⟨e, hopen, -⟩
      · obtain ⟨ev, rfl, happend, hev⟩ := runs_openConversation hopen
        have hstored : ⟨.appendMessages c conversationId stored, .ok ()⟩ ∈ tr' := by
          rcases List.mem_append.mp hstored with hm | hm
          · obtain rfl := List.mem_singleton.mp hm
            cases happend
          · exact hm
        have hturn : ⟨.runTurn identity messages, .ok fin⟩ ∈ tr' := by
          rcases List.mem_append.mp hturn with hm | hm
          · exact absurd (List.mem_singleton.mp hm).symm (hev _ _ _)
          · exact hm
        rcases runs_bind.mp hafter with ⟨result, t₁, t₂, rfl, hrun, hrest⟩ | ⟨e, hrun, -⟩
        · obtain ⟨x, rfl, hx⟩ := runs_ask_lift.mp hrun
          rcases runs_bind.mp hrest with ⟨answer, t₃, t₄, rfl, hanswer, hlast⟩ | ⟨e, hanswer, -⟩
          · obtain ⟨rfl, -⟩ := runs_lift.mp hanswer
            rcases runs_bind.mp hlast with ⟨u, t₅, t₆, rfl, happended, hresponse⟩ | ⟨e, happended, -⟩
            · obtain ⟨y, rfl, -⟩ := runs_ask_lift.mp happended
              obtain ⟨rfl, rfl⟩ := runs_lift.mp hresponse
              rcases List.mem_cons.mp hturn with hm | hm
              · cases hm
                cases hx
                exact ⟨answer, ref, rfl⟩
              · cases List.mem_singleton.mp hm
            · obtain ⟨y, rfl, hy⟩ := runs_ask_lift.mp happended
              rcases List.mem_cons.mp hstored with hm | hm
              · cases hm
              · cases List.mem_singleton.mp hm
                cases hy
          · obtain ⟨rfl, -⟩ := runs_lift.mp hanswer
            simp at hstored
        · obtain ⟨x, rfl, -⟩ := runs_ask_lift.mp hrun
          simp at hstored
      · obtain ⟨ev, rfl, happend, hev⟩ := runs_openConversation hopen
        obtain rfl := List.mem_singleton.mp hstored
        cases happend

/-- A request whose messages are stored gets its response exactly when the recorded calls have
strings for names. -/
theorem stored_turn_response {c conversationId : Int} {stored messages : List Message}
    {fin : GraphState F} (h : Runs (chat wholeSeconds identity request) tr out)
    (hturn : ⟨.runTurn identity messages, .ok fin⟩ ∈ tr)
    (hstored : ⟨.appendMessages c conversationId stored, .ok ()⟩ ∈ tr) :
    (∃ response, out = .ok response) ↔ ∀ name ∈ toolCallsMade fin, ∃ s, name = .string s := by
  obtain ⟨answer, ref, rfl⟩ := stored_turn_ends h hturn hstored
  rw [← @chatResponse_eq_ok _ answer ref]
  cases chatResponse answer ref fin <;> simp [Except.mapError]

/-- Every answer that is a text can be stored. -/
theorem stored_turn_runs (wholeSeconds : Int → Int) {customerId : Int} (message : Str)
    {fin : GraphState F} {answer : Str} (hc : identity.customerId = some customerId)
    (hanswer : answerText fin = .ok answer) :
    ∃ (tr : List (ApiEvent Int F)) (out : Except ApiError ChatResponse),
      Runs (chat wholeSeconds identity ⟨message, none⟩) tr out ∧
        ⟨.runTurn identity [⟨.user, message⟩], .ok fin⟩ ∈ tr ∧
        ⟨.appendMessages customerId 1 (exchange ⟨message, none⟩ answer), .ok ()⟩ ∈ tr := by
  refine ⟨[⟨.checkRate (rateKey identity.customerId), ⟨true, 0⟩⟩,
    ⟨.createConversation customerId, .ok (1, "conv-1")⟩,
    ⟨.runTurn identity [⟨.user, message⟩], .ok fin⟩,
    ⟨.appendMessages customerId 1 (exchange ⟨message, none⟩ answer), .ok ()⟩],
    (chatResponse answer "conv-1" fin).mapError ApiError.code, ?_, by simp, by simp⟩
  unfold chat
  refine .ask _ ?_
  simp only [hc]
  refine .ask _ (.ask _ ?_)
  change Runs (.lift ((answerText fin).mapError ApiError.code) >>= _) _ _
  rw [hanswer]
  exact .ask _ (runs_lift.mpr ⟨rfl, rfl⟩)

end Stored

/-! ## The turn -/

section Turn

variable {F : Type} {agent salesAgent accountAgent : SubAgent F}

theorem allows_iff {v : Json F} :
    agent.allows v = true ↔ ∃ name ∈ agent.allowedTools, v = .string name := by
  cases v with
  | string s => simp [SubAgent.allows]
  | _ => simp [SubAgent.allows]

theorem refusedCalls_eq_nil {calls : List (ToolCall F)} : refusedCalls agent calls = [] ↔
    ∀ call ∈ calls, ∃ name ∈ agent.allowedTools, call.tool = .string name := by
  simp only [refusedCalls, List.map_eq_nil_iff, List.filter_eq_nil_iff, Bool.not_eq_true',
    Bool.not_eq_false, allows_iff]

/-- The recorded calls are of the recorders' own tools exactly when no result has a refused one. -/
theorem recordedCalls_own {fin : GraphState F} (hsales : salesAgent.allowedTools = salesAgentTools)
    (haccount : accountAgent.allowedTools = accountAgentTools) :
    (∀ call ∈ recordedCalls fin, OwnTool call) ↔
      (fin.salesResult.toList.flatMap fun r => refusedCalls salesAgent r.toolCalls) = [] ∧
        (fin.accountResult.toList.flatMap fun r => refusedCalls accountAgent r.toolCalls) = [] := by
  have hescalate : OwnTool ((.escalate, .string "escalate_to_human") : Node × Json F) :=
    ⟨"escalate_to_human", List.mem_of_getLast? rfl, rfl⟩
  have hlast : ∀ call ∈ (match fin.escalateResult with
      | .null => []
      | _ => [((.escalate, .string "escalate_to_human") : Node × Json F)]), OwnTool call := by
    intro call hcall
    split at hcall
    · cases hcall
    · cases List.mem_singleton.mp hcall
      exact hescalate
  unfold recordedCalls
  rw [List.forall_mem_append, List.forall_mem_append, and_iff_left hlast]
  simp only [List.flatMap_eq_nil_iff, refusedCalls_eq_nil, hsales, haccount, List.forall_mem_flatMap,
    List.forall_mem_map, OwnTool, Node.tools]

/-- The requests that store the messages of a turn with this result get their responses. -/
def Answered [PyFloat F] (T : Type) (identity : RequestIdentity) (messages : List Message)
    (fin : GraphState F) : Prop :=
  ∀ (wholeSeconds : T → Int) (request : ChatRequest) (tr : List (ApiEvent T F))
    (out : Except ApiError ChatResponse) (c conversationId : Int) (stored : List Message),
    Runs (chat wholeSeconds identity request) tr out →
    ⟨.runTurn identity messages, .ok fin⟩ ∈ tr →
    ⟨.appendMessages c conversationId stored, .ok ()⟩ ∈ tr → ∃ response, out = .ok response

variable [PyFloat F] [Unicode]

/-- For every result of a turn: a request that has stored its messages is answered, and every recorded
call has the name of a tool that its agent may call, exactly when no `call_tool` decision of a
sub-agent's loop was for another tool. -/
theorem persisted_turn_answered_iff [LawfulFloat F] (T : Type) {runner : Runner F}
    {sched : Nat → Nat → Nat → Bool} {identity : RequestIdentity} {messages : List Message}
    {tr : TurnTrace F} {path : List Node} {fin : GraphState F}
    (hs : buildSalesAgent runner.registered = .ok salesAgent)
    (ha : buildAccountAgent runner.registered = .ok accountAgent)
    (h : Runs (runTurn runner sched identity messages) tr (.ok (path, fin))) :
    (Answered T identity messages fin ∧ ∀ call ∈ recordedCalls fin, OwnTool call) ↔
      refusals salesAgent (Graph.traceOf .salesAgent tr) = [] ∧
        refusals accountAgent (Graph.traceOf .accountAgent tr) = [] := by
  obtain ⟨sales, account, hs', ha', hat⟩ := turn_returns h
  obtain rfl := Except.ok.inj (hs.symm.trans hs')
  obtain rfl := Except.ok.inj (ha.symm.trans ha')
  have hsales := buildSubAgent_allowedTools hs
  have haccount := buildSubAgent_allowedTools ha
  have hrefused := hat.fromAgents.refusedCalls_eq
    (fun name hname => plainString_tools name (List.mem_append_left _ (hsales ▸ hname)))
    (fun name hname => plainString_tools name (List.mem_append_right _ (haccount ▸ hname))) ⟨rfl, rfl⟩
  rw [← hrefused.1, ← hrefused.2, ← recordedCalls_own hsales haccount]
  refine ⟨And.right, fun hown => ⟨?_, hown⟩⟩
  intro wholeSeconds request ctr out c conversationId stored hrun hturn hstored
  refine (stored_turn_response hrun hturn hstored).mpr ?_
  rw [← recordedCalls_toolCallsMade, List.forall_mem_map]
  exact fun call hcall => (hown call hcall).isString

end Turn

/-! ## A turn with a decision that names no tool -/

def namelessReply : Str := "\x7b\"action\": \"call_tool\"\x7d"

/-- The LLM asks for a tool without a name in the sales loop, and then answers. -/
def namelessAnswers : Env (Node × Request FloatLiteral) (fun r => Answer r.2) := fun history r =>
  match r with
  | (.router, .complete _ _) => .ok "\x7b\"routes\": [\"sales\"]\x7d"
  | (_, .complete _ _) => .ok (if history.length = 1 then namelessReply else "No.")
  | (_, .callTool _ _) => .error ⟨.runtimeError, []⟩

def namelessTurn : TurnTrace FloatLiteral × Except Raised (List Node × GraphState FloatLiteral) :=
  exec namelessAnswers [] (@runTurn FloatLiteral _ asciiUnicode deskRunner (fun _ _ _ => true)
    ⟨"s-1", some 7⟩ [⟨.user, "Hi"⟩])

/-- The sales loop after the refused call, and its requests. -/
def namelessCalled : LoopState FloatLiteral :=
  recordError ⟨"small", deskSales, 800, 4000⟩ (strayLoop.append .assistant namelessReply) .null
    (.object []) (@notBound _ _ asciiUnicode deskSales .null)

def namelessTrace : Trace FloatLiteral :=
  [⟨.complete strayLoop.messages "small", .ok namelessReply⟩,
    ⟨.complete namelessCalled.messages "small", .ok "No."⟩]

def namelessResult : ToolLoopResult FloatLiteral :=
  { finalAnswer := .string "No.", toolCalls := namelessCalled.toolCalls }

theorem loads_nameless :
    loads (F := FloatLiteral) namelessReply = some (.object [("action", .string "call_tool")]) ∧
      Readable FloatLiteral namelessReply := by
  decide +kernel

theorem namelessLoop_runs : Runs (@salesAgentNode _ _ asciiUnicode deskRunner.settings deskSales
    (deskRouted ⟨"s-1", some 7⟩)) namelessTrace (.ok { salesResult := some namelessResult }) := by
  have hrefused : Runs (@SubAgent.callTool _ _ asciiUnicode deskSales .null (.object [])) []
      (.error (.code (@notBound _ _ asciiUnicode deskSales .null))) := .raise _
  exact refusedLoop_runs ⟨"s-1", some 7⟩ loads_nameless.2 loads_nameless.1 rfl rfl rfl hrefused
    (rfl : _ = namelessCalled) (by decide +kernel)

def namelessHistory : TurnTrace FloatLiteral :=
  ⟨(.router, .complete [⟨.system, routerSystemPrompt⟩, ⟨.user, "Hi"⟩]
    deskRunner.settings.modelClassifier), .ok "\x7b\"routes\": [\"sales\"]\x7d"⟩ ::
  namelessTrace.map (Event.tag .salesAgent)

/-- The turn from `merge` on. -/
def namelessRest : TurnTrace FloatLiteral × Except Raised (List Node × GraphState FloatLiteral) :=
  exec namelessAnswers namelessHistory ((@buildSupervisorGraph _ _ asciiUnicode deskRunner.settings
    deskSales deskAccount).run (fun _ _ _ => true) (recursionError deskRunner.recursionLimit) 22
      [.merge] ((deskRouted ⟨"s-1", some 7⟩).apply { salesResult := some namelessResult }))

theorem namelessTurn_eq : namelessTurn = (namelessHistory ++ namelessRest.1,
    namelessRest.2.map fun x => (.intake :: .router :: .salesAgent :: x.1, x.2)) := by
  refine deskTurn_eq rfl namelessLoop_runs rfl ⟨?_, ?_, trivial⟩ rfl
  · simp only [namelessAnswers, Event.tag, List.length_singleton, if_true]
  · simp only [namelessAnswers, Event.tag, List.length_append, List.length_singleton]
    rfl

/-- It ends with a text, and with a recorded call whose tool is `null`. -/
theorem namelessTurn_ends : namelessTurn.2.map (fun x => ((answerText x.2).isOk,
    (toolCallsMade x.2).map Json.typeName)) = .ok (true, [str "NoneType"]) := by
  rw [namelessTurn_eq]
  decide +kernel

theorem namelessTurn_result : ∃ (tr : TurnTrace FloatLiteral) (path : List Node)
    (fin : GraphState FloatLiteral) (answer : Str) (name : Json FloatLiteral),
    Runs (@runTurn FloatLiteral _ asciiUnicode deskRunner (fun _ _ _ => true) ⟨"s-1", some 7⟩
      [⟨.user, "Hi"⟩]) tr (.ok (path, fin)) ∧
    answerText fin = .ok answer ∧ toolCallsMade fin = [name] ∧ ¬ ∃ s, name = .string s := by
  have hrun : Runs (@runTurn FloatLiteral _ asciiUnicode deskRunner (fun _ _ _ => true)
    ⟨"s-1", some 7⟩ [⟨.user, "Hi"⟩]) namelessTurn.1 namelessTurn.2 := exec_runs _ _ _
  have hends := namelessTurn_ends
  generalize namelessTurn = turn at hrun hends
  obtain ⟨tr, out⟩ := turn
  cases out with
  | error e => cases hends
  | ok x =>
    obtain ⟨path, fin⟩ := x
    obtain ⟨htext, hnames⟩ := Prod.mk.inj (Except.ok.inj hends)
    obtain ⟨name, hcalls, hname⟩ := List.map_eq_singleton_iff.mp hnames
    cases hanswer : answerText fin with
    | error e => rw [hanswer] at htext; cases htext
    | ok answer =>
      refine ⟨tr, path, fin, answer, name, hrun, hanswer, hcalls, ?_⟩
      rintro ⟨s, rfl⟩
      have hstr : str "str" = str "NoneType" := hname
      exact absurd hstr (by decide)

/-- The messages of the turn can be stored, and no request that has stored them is answered. -/
theorem nameless_turn_unanswered : ∃ (tr : TurnTrace FloatLiteral) (path : List Node)
    (fin : GraphState FloatLiteral),
    Runs (@runTurn FloatLiteral _ asciiUnicode deskRunner (fun _ _ _ => true) ⟨"s-1", some 7⟩
      [⟨.user, "Hi"⟩]) tr (.ok (path, fin)) ∧
    ¬ Answered Int ⟨"s-1", some 7⟩ [⟨.user, "Hi"⟩] fin := by
  obtain ⟨tr, path, fin, answer, name, hrun, hanswer, hcalls, hname⟩ := namelessTurn_result
  refine ⟨tr, path, fin, hrun, fun hanswered => hname ?_⟩
  obtain ⟨ctr, out, hchat, hturn, hstored⟩ := stored_turn_runs id "Hi"
    (rfl : RequestIdentity.customerId ⟨"s-1", some 7⟩ = _) hanswer
  exact (stored_turn_response hchat hturn hstored).mp (hanswered _ _ _ _ _ _ _ hchat hturn hstored)
    name (hcalls ▸ List.mem_singleton_self _)

/-- A sub-agent of that turn was asked for a tool that is not its own. -/
theorem nameless_turn_refused : ∃ (salesAgent accountAgent : SubAgent FloatLiteral)
    (tr : TurnTrace FloatLiteral), ¬ (refusals salesAgent (Graph.traceOf .salesAgent tr) = [] ∧
      refusals accountAgent (Graph.traceOf .accountAgent tr) = []) := by
  let _ := asciiUnicode
  obtain ⟨tr, path, fin, answer, name, hrun, -, hcalls, hname⟩ := namelessTurn_result
  obtain ⟨salesAgent, accountAgent, hs, ha, -⟩ := turn_returns hrun
  refine ⟨salesAgent, accountAgent, tr, fun hnone => hname ?_⟩
  have hown := ((persisted_turn_answered_iff Int hs ha hrun).mpr hnone).2
  have hmem : name ∈ (recordedCalls fin).map Prod.snd := by
    rw [recordedCalls_toolCallsMade, hcalls]
    exact List.mem_singleton_self _
  obtain ⟨call, hcall, rfl⟩ := List.mem_map.mp hmem
  exact (hown call hcall).isString

end DealershipAgent
