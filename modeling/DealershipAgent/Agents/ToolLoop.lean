import Mathlib.Algebra.GroupWithZero.Nat
import DealershipAgent.Interact.Loop
import DealershipAgent.Agents.Compaction
import DealershipAgent.Agents.ToolBinding
import DealershipAgent.Py.Json.Limits

/-!
# The tool loop

`agents/tool_loop.py` and `agents/tokens.py`. An iteration asks for a completion, reads a decision from
it, and either ends the loop or adds a tool observation to the messages.

* `runToolLoop`: the loop.
* `IterationRun`: what an iteration can do, with the requests that it makes; every result about the
  loop goes over its cases.
-/

namespace DealershipAgent

open Py Json Interact

/-! ## Tokens -/

def estimateTokens (text : Str) : Nat := max 1 (text.length / 4)

def estimateMessagesTokens (messages : List Message) : Nat :=
  (messages.map fun message => estimateTokens message.content).sum

theorem estimateMessagesTokens_cons (message : Message) (messages : List Message) :
    estimateMessagesTokens (message :: messages) =
      estimateTokens message.content + estimateMessagesTokens messages := by
  rw [estimateMessagesTokens, List.map_cons, List.sum_cons]
  rfl

theorem estimateTokens_le {text : Str} {n : Nat} (hn : 0 < n) (h : text.length ≤ 4 * n) :
    estimateTokens text ≤ n := by
  unfold estimateTokens
  omega

/-! ## The loop -/

/-- `MAX_ITERATIONS` -/
def maxIterations : Nat := 5

/-- `LOOP_INSTRUCTIONS`, filled in. -/
def loopInstructions (toolDescriptions : Str) : Str :=
  text [
    "You have the following tools available:\n\n"] ++
  toolDescriptions ++
  text [
    "\n\n",
    "For each turn, reply with ONLY a single JSON object (no other text), in one of these two ",
    "shapes:\n\n",
    "  \x7b\"action\": \"call_tool\", \"tool\": \"<tool name>\", \"arguments\": \x7b...\x7d\x7d\n",
    "  \x7b\"action\": \"final\", \"answer\": \"<your answer to the customer>\"\x7d\n\n",
    "Call a tool when you need information you don't already have. If a tool call returns zero ",
    "results, try again with broader or different arguments (e.g. drop a filter) before giving up ",
    "- do not immediately answer \"no results\" after a single narrow search. If a tool call ",
    "fails, explain the limitation to the customer plainly rather than repeating the same failing ",
    "call. Only reply with \"final\" once you can give the customer a real answer grounded in a ",
    "tool result, or once you've made a genuine effort and should be honest that you couldn't ",
    "find a match.\n"]

theorem length_loopInstructions_le (toolDescriptions : Str) :
    (loopInstructions toolDescriptions).length ≤ toolDescriptions.length + 1300 := by
  unfold loopInstructions
  rw [List.length_append, List.length_append]
  refine Nat.le_trans (Nat.add_le_add (Nat.add_le_add_right (length_text_le (n := 100) ?_) _)
    (length_text_le (n := 100) ?_)) ?_
  · exact List.forall_mem_singleton.mpr (length_str_le _ rfl (by decide))
  · repeat' first
      | exact List.forall_mem_nil _
      | refine List.forall_mem_cons.mpr ⟨length_str_le _ rfl (by decide), ?_⟩
  · simp only [List.length_cons, List.length_nil]
    omega

/-- The note on a repeated call. -/
def memoizedNote : Str :=
  text [
    "You already called this exact tool with these exact arguments earlier in this conversation - ",
    "this is the same result, not a new search. Try different arguments or answer with what you ",
    "have."]

section Loop

variable {F : Type} [PyFloat F] [Unicode]

omit [Unicode] in
/-- `_tool_descriptions` -/
def toolDescriptions (agent : SubAgent F) : Str :=
  join "\n" (agent.toolSpecs.map fun spec => str "- " ++ spec.name ++ str ": " ++
    spec.description ++ str "\n  schema: " ++ dumps (.object spec.inputSchema))

/-- What a run of the loop does not change. -/
structure LoopConfig (F : Type) where
  model : Str
  agent : SubAgent F
  maxObservationChars : Int
  tokenBudget : Int

/-- The variables of the loop. -/
structure LoopState (F : Type) where
  messages : List Message
  toolCalls : List (ToolCall F) := []
  callCache : List (Str × Json F) := []

omit [Unicode] in
/-- `json.dumps({"tool": tool_name, "arguments": arguments}, sort_keys=True)` -/
def cacheKey (toolName arguments : Json F) : Str :=
  dumpsWith true (.object [("tool", toolName), ("arguments", arguments)])

omit [PyFloat F] [Unicode] in
/-- An entry after those there are. -/
def LoopState.record (st : LoopState F) (toolName arguments : Json F) (outcome : CallOutcome F) :
    LoopState F :=
  { st with toolCalls := st.toolCalls ++ [⟨toolName, arguments, outcome⟩] }

omit [PyFloat F] [Unicode] in
/-- `messages.append(..)` -/
def LoopState.append (st : LoopState F) (role : Role) (content : Str) : LoopState F :=
  { st with messages := st.messages ++ [⟨role, content⟩] }

omit [Unicode] in
/-- The message for the LLM on what a tool call gave. -/
def observe (st : LoopState F) (members : List (Str × Json F)) : LoopState F :=
  st.append .user (str "Tool observation: " ++ dumps (.object members))

/-- A call that was made before: the cached result, compacted outside of any `try`. -/
def repeatCall (cfg : LoopConfig F) (st : LoopState F) (toolName arguments result : Json F) :
    Except Exc (LoopState F) := do
  let st := st.record toolName arguments (.cached result)
  let compacted ← compactToolResult result cfg.maxObservationChars
  return observe st [("tool", toolName), ("result", .string compacted),
    ("note", .string memoizedNote)]

/-- `except Exception`: the error is recorded and shown to the LLM. -/
def recordError (cfg : LoopConfig F) (st : LoopState F) (toolName arguments : Json F) (e : Exc) :
    LoopState F :=
  let errorText := compactError e.text cfg.maxObservationChars
  observe (st.record toolName arguments (.error errorText))
    [("tool", toolName), ("error", .string errorText)]

/-- The result of a call. What the `try` has done stays when its last step raises. -/
def recordResult (cfg : LoopConfig F) (st : LoopState F) (toolName arguments result : Json F) :
    LoopState F :=
  let st := { st with callCache := st.callCache ++ [(cacheKey toolName arguments, result)] }
  let st := st.record toolName arguments (.result result)
  match compactToolResult result cfg.maxObservationChars with
  | .error e => recordError cfg st toolName arguments e
  | .ok compacted => observe st [("tool", toolName), ("result", .string compacted)]

/-- The LLM is told of the call by one message. -/
theorem recordResult_messages (cfg : LoopConfig F) (st : LoopState F)
    (toolName arguments result : Json F) : ∃ message,
      (recordResult cfg st toolName arguments result).messages = st.messages ++ [message] := by
  unfold recordResult
  simp only
  split
  · exact ⟨_, rfl⟩
  · exact ⟨_, rfl⟩

/-- A call that was not made before. -/
def newCall (cfg : LoopConfig F) (st : LoopState F) (toolName arguments : Json F) :
    Program F (LoopState F) := do
  match ← (cfg.agent.callTool toolName arguments).attempt with
  | .error e => return recordError cfg st toolName arguments e.exc
  | .ok result => return recordResult cfg st toolName arguments result

/-- The `call_tool` decision of the completion `raw`. -/
def callDecision (cfg : LoopConfig F) (st : LoopState F) (raw : Str)
    (decision : List (Str × Json F)) : Program F (LoopState F) :=
  let toolName := dictGet decision "tool"
  let arguments := (dictGet decision "arguments").orElse (.object [])
  let st := st.append .assistant raw
  match st.callCache.lookup (cacheKey toolName arguments) with
  | some result => code (repeatCall cfg st toolName arguments result)
  | none => newCall cfg st toolName arguments

/-- An iteration: the variables for the next one, or the result. -/
def iteration (cfg : LoopConfig F) (st : LoopState F) :
    Program F (LoopState F ⊕ ToolLoopResult F) := do
  if cfg.tokenBudget ≤ estimateMessagesTokens st.messages then
    return .inr { finalAnswer := .null, toolCalls := st.toolCalls, hitBudgetGuard := true }
  match ← (complete st.messages cfg.model).attempt with
  | .error _ =>
    return .inr { finalAnswer := .null, toolCalls := st.toolCalls, llmCallFailed := true }
  | .ok raw =>
    match ← code (loadsOrNone (F := F) raw) with
    | none => return .inr { finalAnswer := .string raw, toolCalls := st.toolCalls }
    | some decision =>
      let decision ← code decision.asDict
      let action := dictGet decision "action"
      if action.eqStr "final" then
        return .inr { finalAnswer := dictGetD decision "answer" (.string []),
                      toolCalls := st.toolCalls }
      if !action.eqStr "call_tool" then
        return .inr { finalAnswer := .string raw, toolCalls := st.toolCalls }
      .inl <$> callDecision cfg st raw decision

/-- The result after the last iteration. -/
def capResult (st : LoopState F) : ToolLoopResult F :=
  { finalAnswer := .null, toolCalls := st.toolCalls, hitCap := true }

def runToolLoop (settings : Settings) (model : Str) (agent : SubAgent F)
    (systemPrompt userQuery : Str) (maxIterations : Int := maxIterations)
    (maxObservationChars tokenBudget : Option Int := none) : Program F (ToolLoopResult F) :=
  let cfg : LoopConfig F :=
    { model := model, agent := agent,
      maxObservationChars := maxObservationChars.getD settings.loopObservationMaxChars,
      tokenBudget := tokenBudget.getD settings.loopTokenBudget }
  let instructions := loopInstructions (toolDescriptions agent)
  loop (iteration cfg) capResult maxIterations.toNat
    { messages := [⟨.system, systemPrompt ++ str "\n\n" ++ instructions⟩, ⟨.user, userQuery⟩] }

omit [Unicode] in
/-- The system message of a loop with few tools. -/
theorem estimateTokens_system_le {agent : SubAgent F} {systemPrompt : Str}
    (hprompt : systemPrompt.length ≤ 1500) (htools : (toolDescriptions agent).length ≤ 1000) :
    estimateTokens (systemPrompt ++ str "\n\n" ++ loopInstructions (toolDescriptions agent)) ≤
      1000 := by
  have hinstructions := length_loopInstructions_le (toolDescriptions agent)
  have hbreak : (str "\n\n").length ≤ 2 := length_str_le _ rfl (by decide)
  refine estimateTokens_le (by omega) ?_
  rw [List.length_append, List.length_append]
  omega

end Loop

/-! ## The runs of an iteration -/

section Runs

variable {F : Type} [PyFloat F] [Unicode] {cfg : LoopConfig F} {st : LoopState F} {tr : Trace F}

/-- The runs of a `call_tool` decision: the call was made before, or it is refused or fails, or it
gives a result. -/
inductive CallRun (cfg : LoopConfig F) (st : LoopState F) (toolName arguments : Json F) :
    Trace F → Except Raised (LoopState F) → Prop
  | repeated (result : Json F) :
      st.callCache.lookup (cacheKey toolName arguments) = some result →
      CallRun cfg st toolName arguments []
        ((repeatCall cfg st toolName arguments result).mapError Raised.code)
  | failed {tr : Trace F} (e : Raised) :
      st.callCache.lookup (cacheKey toolName arguments) = none →
      Runs (cfg.agent.callTool toolName arguments) tr (.error e) →
      CallRun cfg st toolName arguments tr (.ok (recordError cfg st toolName arguments e.exc))
  | result {tr : Trace F} (result : Json F) :
      st.callCache.lookup (cacheKey toolName arguments) = none →
      Runs (cfg.agent.callTool toolName arguments) tr (.ok result) →
      CallRun cfg st toolName arguments tr (.ok (recordResult cfg st toolName arguments result))

/-- The runs of an iteration. -/
inductive IterationRun (cfg : LoopConfig F) (st : LoopState F) :
    Trace F → Except Raised (LoopState F ⊕ ToolLoopResult F) → Prop
  | budget : cfg.tokenBudget ≤ estimateMessagesTokens st.messages → IterationRun cfg st []
      (.ok (.inr { finalAnswer := .null, toolCalls := st.toolCalls, hitBudgetGuard := true }))
  | llmFailed (e : Exc) : ¬ cfg.tokenBudget ≤ estimateMessagesTokens st.messages →
      IterationRun cfg st [⟨.complete st.messages cfg.model, .error e⟩]
        (.ok (.inr { finalAnswer := .null, toolCalls := st.toolCalls, llmCallFailed := true }))
  | unparseable (raw : Str) : ¬ cfg.tokenBudget ≤ estimateMessagesTokens st.messages →
      Readable F raw → loads (F := F) raw = none →
      IterationRun cfg st [⟨.complete st.messages cfg.model, .ok raw⟩]
        (.ok (.inr { finalAnswer := .string raw, toolCalls := st.toolCalls }))
  | overLimit (raw : Str) (e : Exc) : ¬ cfg.tokenBudget ≤ estimateMessagesTokens st.messages →
      limitError F raw = some e →
      IterationRun cfg st [⟨.complete st.messages cfg.model, .ok raw⟩] (.error (.code e))
  | notObject (raw : Str) (v : Json F) (e : Exc) :
      ¬ cfg.tokenBudget ≤ estimateMessagesTokens st.messages →
      Readable F raw → loads raw = some v → v.asDict = .error e →
      IterationRun cfg st [⟨.complete st.messages cfg.model, .ok raw⟩] (.error (.code e))
  | final (raw : Str) (decision : List (Str × Json F)) :
      ¬ cfg.tokenBudget ≤ estimateMessagesTokens st.messages →
      Readable F raw → loads raw = some (.object decision) →
      (dictGet decision "action").eqStr "final" = true →
      IterationRun cfg st [⟨.complete st.messages cfg.model, .ok raw⟩]
        (.ok (.inr { finalAnswer := dictGetD decision "answer" (.string []),
                     toolCalls := st.toolCalls }))
  | unknownAction (raw : Str) (decision : List (Str × Json F)) :
      ¬ cfg.tokenBudget ≤ estimateMessagesTokens st.messages →
      Readable F raw → loads raw = some (.object decision) →
      (dictGet decision "action").eqStr "final" = false →
      (dictGet decision "action").eqStr "call_tool" = false →
      IterationRun cfg st [⟨.complete st.messages cfg.model, .ok raw⟩]
        (.ok (.inr { finalAnswer := .string raw, toolCalls := st.toolCalls }))
  | callTool (raw : Str) (decision : List (Str × Json F)) {tr : Trace F}
      {out : Except Raised (LoopState F)} :
      ¬ cfg.tokenBudget ≤ estimateMessagesTokens st.messages →
      Readable F raw → loads raw = some (.object decision) →
      (dictGet decision "action").eqStr "final" = false →
      (dictGet decision "action").eqStr "call_tool" = true →
      CallRun cfg (st.append .assistant raw) (dictGet decision "tool")
        ((dictGet decision "arguments").orElse (.object [])) tr out →
      IterationRun cfg st (⟨.complete st.messages cfg.model, .ok raw⟩ :: tr) (out.map Sum.inl)

theorem runs_callDecision {raw : Str} {decision : List (Str × Json F)}
    {out : Except Raised (LoopState F)} (h : Runs (callDecision cfg st raw decision) tr out) :
    CallRun cfg (st.append .assistant raw) (dictGet decision "tool")
      ((dictGet decision "arguments").orElse (.object [])) tr out := by
  unfold callDecision at h
  simp only at h
  split at h
  · next result hl =>
    obtain ⟨rfl, rfl⟩ := runs_code.mp h
    exact .repeated result hl
  · next hl =>
    rcases runs_bind.mp h with ⟨o, tr₁, tr₂, rfl, h₁, h₂⟩ | ⟨e, h₁, rfl⟩
    · obtain ⟨o', hrun, ho⟩ := runs_attempt.mp h₁
      cases ho
      cases o with
      | error e =>
        obtain ⟨rfl, rfl⟩ := runs_ret.mp h₂
        rw [List.append_nil]
        exact .failed e hl hrun
      | ok result =>
        obtain ⟨rfl, rfl⟩ := runs_ret.mp h₂
        rw [List.append_nil]
        exact .result result hl hrun
    · obtain ⟨o', -, ho⟩ := runs_attempt.mp h₁
      cases ho

theorem runs_iteration {out : Except Raised (LoopState F ⊕ ToolLoopResult F)}
    (h : Runs (iteration cfg st) tr out) : IterationRun cfg st tr out := by
  unfold iteration at h
  split at h
  · next hb =>
    obtain ⟨rfl, rfl⟩ := runs_ret.mp h
    exact .budget hb
  · next hb =>
    rcases runs_bind.mp h with ⟨o, tr₁, tr₂, rfl, h₁, h₂⟩ | ⟨e, h₁, rfl⟩
    · obtain ⟨o', hrun, ho⟩ := runs_attempt.mp h₁
      cases ho
      obtain ⟨x, rfl, hx⟩ := runs_complete.mp hrun
      cases x with
      | error e =>
        subst hx
        obtain ⟨rfl, rfl⟩ := runs_ret.mp h₂
        exact .llmFailed e hb
      | ok raw =>
        subst hx
        rcases runs_bind.mp h₂ with ⟨parsed, tr₃, tr₄, rfl, h₃, h₄⟩ | ⟨e, h₃, rfl⟩
        · obtain ⟨rfl, hparsed⟩ := runs_code.mp h₃
          obtain ⟨hread, hl⟩ := loadsOrNone_eq_ok.mp (mapError_eq_ok.mp hparsed.symm)
          cases parsed with
          | none =>
            obtain ⟨rfl, rfl⟩ := runs_ret.mp h₄
            exact .unparseable raw hb hread hl
          | some v =>
            rcases runs_bind.mp h₄ with ⟨decision, tr₅, tr₆, rfl, h₅, h₆⟩ | ⟨e, h₅, rfl⟩
            · obtain ⟨rfl, hd⟩ := runs_code.mp h₅
              obtain rfl := asDict_eq_ok.mp (mapError_eq_ok.mp hd.symm)
              simp only at h₆
              split at h₆
              · next hfinal =>
                obtain ⟨rfl, rfl⟩ := runs_ret.mp h₆
                exact .final raw decision hb hread hl hfinal
              · next hfinal =>
                split at h₆
                · next hcall =>
                  obtain ⟨rfl, rfl⟩ := runs_ret.mp h₆
                  exact .unknownAction raw decision hb hread hl (by simpa using hfinal)
                    (by simpa using hcall)
                · next hcall =>
                  obtain ⟨o, hrun, rfl⟩ := runs_map.mp h₆
                  exact .callTool raw decision hb hread hl (by simpa using hfinal)
                    (by simpa using hcall) (runs_callDecision hrun)
            · obtain ⟨rfl, hd⟩ := runs_code.mp h₅
              cases ha : v.asDict with
              | error e' =>
                rw [ha] at hd
                cases hd
                exact .notObject raw v e' hb hread hl ha
              | ok kvs =>
                rw [ha] at hd
                cases hd
        · obtain ⟨rfl, hparsed⟩ := runs_code.mp h₃
          cases hlimit : loadsOrNone (F := F) raw with
          | error e' =>
            rw [hlimit] at hparsed
            cases hparsed
            exact .overLimit raw e' hb (loadsOrNone_eq_error.mp hlimit)
          | ok parsed =>
            rw [hlimit] at hparsed
            cases hparsed
    · obtain ⟨o', -, ho⟩ := runs_attempt.mp h₁
      cases ho

theorem CallRun.runs {raw : Str} {decision : List (Str × Json F)}
    {out : Except Raised (LoopState F)}
    (h : CallRun cfg (st.append .assistant raw) (dictGet decision "tool")
      ((dictGet decision "arguments").orElse (.object [])) tr out) :
    Runs (callDecision cfg st raw decision) tr out := by
  unfold callDecision
  simp only
  cases h with
  | repeated result hl =>
    rw [hl]
    exact runs_code.mpr ⟨rfl, rfl⟩
  | failed e hl hrun =>
    rw [hl]
    exact runs_bind_ok.mpr ⟨.error e, tr, [], (List.append_nil tr).symm,
      runs_attempt.mpr ⟨_, hrun, rfl⟩, .ret _⟩
  | result result hl hrun =>
    rw [hl]
    exact runs_bind_ok.mpr ⟨.ok result, tr, [], (List.append_nil tr).symm,
      runs_attempt.mpr ⟨_, hrun, rfl⟩, .ret _⟩

/-- The cases of `IterationRun` are runs of an iteration. -/
theorem IterationRun.runs {out : Except Raised (LoopState F ⊕ ToolLoopResult F)}
    (h : IterationRun cfg st tr out) : Runs (iteration cfg st) tr out := by
  unfold iteration
  cases h with
  | budget hb =>
    rw [if_pos hb]
    exact .ret _
  | llmFailed e hb =>
    rw [if_neg hb]
    exact runs_asked (.ret _)
  | unparseable raw hb hread hl =>
    have hparsed : loadsOrNone (F := F) raw = .ok none := by rw [hread.loadsOrNone, hl]
    rw [if_neg hb]
    refine runs_asked (runs_coded hparsed ?_)
    exact .ret _
  | overLimit raw e hb hlimit =>
    rw [if_neg hb]
    refine runs_asked ?_
    simp only [Except.mapError, loadsOrNone_eq_error.mpr hlimit]
    exact .raise _
  | notObject raw v e hb hread hl ha =>
    have hparsed : loadsOrNone raw = .ok (some v) := by rw [hread.loadsOrNone, hl]
    rw [if_neg hb]
    refine runs_asked (runs_coded hparsed ?_)
    simp only [ha]
    exact .raise _
  | final raw decision hb hread hl hfinal =>
    have hparsed : loadsOrNone raw = .ok (some (.object decision)) := by rw [hread.loadsOrNone, hl]
    rw [if_neg hb]
    refine runs_asked (runs_coded hparsed ?_)
    refine runs_coded rfl ?_
    rw [if_pos hfinal]
    exact .ret _
  | unknownAction raw decision hb hread hl hfinal hcall =>
    have hparsed : loadsOrNone raw = .ok (some (.object decision)) := by rw [hread.loadsOrNone, hl]
    rw [if_neg hb]
    refine runs_asked (runs_coded hparsed ?_)
    refine runs_coded rfl ?_
    rw [if_neg (by simp [hfinal]), if_pos (by simp [hcall])]
    exact .ret _
  | callTool raw decision hb hread hl hfinal hcall hrun =>
    have hparsed : loadsOrNone raw = .ok (some (.object decision)) := by rw [hread.loadsOrNone, hl]
    rw [if_neg hb]
    refine runs_asked (runs_coded hparsed ?_)
    refine runs_coded rfl ?_
    rw [if_neg (by simp [hfinal]), if_neg (by simp [hcall])]
    exact runs_map.mpr ⟨_, hrun.runs, rfl⟩

/-- A loop whose first completion is no JSON returns it. -/
theorem runToolLoop_text {settings : Settings} {model : Str} {agent : SubAgent F}
    {systemPrompt userQuery raw : Str} {messages : List Message}
    (hmessages : messages = [⟨.system, systemPrompt ++ str "\n\n" ++
      loopInstructions (toolDescriptions agent)⟩, ⟨.user, userQuery⟩])
    (hb : ¬ settings.loopTokenBudget ≤ estimateMessagesTokens messages)
    (hread : Readable F raw) (hl : loads (F := F) raw = none) :
    Runs (runToolLoop settings model agent systemPrompt userQuery)
      [⟨.complete messages model, .ok raw⟩] (.ok { finalAnswer := .string raw, toolCalls := [] }) := by
  have hone : IterationRun ⟨model, agent, settings.loopObservationMaxChars, settings.loopTokenBudget⟩
      { messages := messages } [⟨.complete messages model, .ok raw⟩]
      (.ok (.inr { finalAnswer := .string raw, toolCalls := [] })) := .unparseable raw hb hread hl
  subst hmessages
  exact hone.runs.loop_exit

end Runs

end DealershipAgent
