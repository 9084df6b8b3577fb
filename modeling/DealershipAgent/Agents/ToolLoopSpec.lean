import DealershipAgent.Agents.Degradation
import DealershipAgent.Agents.ToolLoop

/-!
# How the tool loop ends

* `tool_loop_returns_iff`: `runToolLoop` does not raise exactly when no completion is JSON of
  something else than an object, or goes over a limit of `json.loads`.
* `tool_loop_ends_once_iff`: a result of `runToolLoop` is an answer or has one flag exactly when no
  `final` decision brings an answer that is no string.

Both are invariants of `loop`, over the cases of `IterationRun`.
-/

namespace DealershipAgent

open Py Json Interact

section Events

variable {F : Type}

/-- The session answers a tool call with an exception, an error or a result of that tool. -/
def ToolReply : Event (Request F) Answer → Prop
  | ⟨.complete _ _, _⟩ => True
  | ⟨.callTool _ _, .error _⟩ => True
  | ⟨.callTool name _, .ok result⟩ => result.isError = true ∨ ToolResult name result.value

end Events

section Spec

variable {F : Type} [PyFloat F] [Unicode] {cfg : LoopConfig F} {st : LoopState F} {tr : Trace F}

/-- The text goes over no limit, and it is no JSON or an object. -/
def ReadsAsObject (F : Type) [PyFloat F] (raw : Str) : Prop :=
  Readable F raw ∧ ∀ v : Json F, loads raw = some v → ∃ kvs, v = .object kvs

/-- A `final` decision with an answer has a string there. -/
def AnswersText (F : Type) [PyFloat F] (raw : Str) : Prop :=
  ∀ decision : List (Str × Json F), loads raw = some (.object decision) →
    (dictGet decision "action").eqStr "final" = true →
    ∃ s, dictGetD decision "answer" (.string []) = .string s

omit [Unicode] in
theorem readsAsObject_of_none {raw : Str} (hread : Readable F raw) (h : loads (F := F) raw = none) :
    ReadsAsObject F raw := by
  refine ⟨hread, fun v hv => ?_⟩
  rw [h] at hv
  cases hv

omit [Unicode] in
theorem readsAsObject_object {raw : Str} {kvs : List (Str × Json F)} (hread : Readable F raw)
    (h : loads raw = some (.object kvs)) : ReadsAsObject F raw := by
  refine ⟨hread, fun v hv => ?_⟩
  rw [h] at hv
  exact ⟨kvs, (Option.some.inj hv).symm⟩

omit [Unicode] in
theorem answersText_of_not_final {raw : Str} {kvs : List (Str × Json F)}
    (h : loads raw = some (.object kvs)) (ha : (dictGet kvs "action").eqStr "final" = false) :
    AnswersText F raw := by
  intro decision hd hfinal
  rw [h] at hd
  cases hd
  rw [ha] at hfinal
  cases hfinal

/-! ## The runs of a tool call -/

/-- A tool call asks for no completion. -/
theorem callRun_onReply {P : Str → Prop} {toolName arguments : Json F}
    {out : Except Raised (LoopState F)} (h : CallRun cfg st toolName arguments tr out) :
    ∀ ev ∈ tr, OnReply P ev := by
  have hcall : ∀ {tr : Trace F} {o}, Runs (cfg.agent.callTool toolName arguments) tr o →
      ∀ ev ∈ tr, OnReply P ev := by
    intro tr o hrun ev hev
    rcases runs_callTool hrun with ⟨e, rfl, -⟩ | ⟨name, -, -, x, rfl, -⟩
    · cases hev
    · cases List.mem_singleton.mp hev
      trivial
  cases h with
  | repeated result hl => intro ev hev; cases hev
  | failed e hl hrun => exact hcall hrun
  | result result hl hrun => exact hcall hrun

/-- What a tool call returns is a result of one of the agent's tools, when the session answers so. -/
theorem callTool_toolResult {agent : SubAgent F} {toolName arguments result : Json F}
    (h : Runs (agent.callTool toolName arguments) tr (.ok result)) (ht : ∀ ev ∈ tr, ToolReply ev) :
    ∃ name ∈ agent.allowedTools, ToolResult name result := by
  rcases runs_callTool h with ⟨e, -, ho⟩ | ⟨name, -, hallowed, x, rfl, ⟨e, -, ho⟩ | ⟨r, rfl, ho⟩⟩
  · cases ho
  · cases ho
  · unfold CallToolResult.unwrap at ho
    split at ho
    · cases ho
    · next hok =>
      cases ho
      rcases ht _ (List.mem_singleton_self _) with herr | hres
      · exact absurd herr hok
      · exact ⟨name, hallowed, hres⟩

/-- What the tools have returned satisfies `P`, in the cache and in the recorded calls. -/
structure LoopState.Holds (P : Json F → Prop) (st : LoopState F) : Prop where
  cached : ∀ kv ∈ st.callCache, P kv.2
  recorded : ∀ call ∈ st.toolCalls, ∀ v, call.returned = some v → P v

/-- Results of the agent's tools satisfy `P`. -/
def SubAgent.Returns (agent : SubAgent F) (P : Json F → Prop) : Prop :=
  ∀ name ∈ agent.allowedTools, ∀ v, ToolResult name v → P v

variable {P : Json F → Prop}

omit [PyFloat F] [Unicode] in
theorem LoopState.Holds.record (hs : st.Holds P) {toolName arguments : Json F}
    {outcome : CallOutcome F}
    (ho : ∀ v, (⟨toolName, arguments, outcome⟩ : ToolCall F).returned = some v → P v) :
    (st.record toolName arguments outcome).Holds P where
  cached := hs.cached
  recorded call hcall := by
    rcases List.mem_append.mp hcall with hcall | hcall
    · exact hs.recorded call hcall
    · cases List.mem_singleton.mp hcall
      exact ho

omit [PyFloat F] [Unicode] in
theorem LoopState.Holds.append (hs : st.Holds P) (role : Role) (content : Str) :
    (st.append role content).Holds P :=
  ⟨hs.cached, hs.recorded⟩

omit [PyFloat F] [Unicode] in
theorem recordError_holds (hs : st.Holds P) (toolName arguments : Json F) (e : Exc) [PyFloat F] :
    (recordError cfg st toolName arguments e).Holds P :=
  (hs.record (fun v hv => by cases hv)).append _ _

/-- A decision to call a tool keeps `Holds`. -/
theorem callRun_holds (hP : cfg.agent.Returns P) {toolName arguments : Json F} {st' : LoopState F}
    (h : CallRun cfg st toolName arguments tr (.ok st')) (hs : st.Holds P)
    (ht : ∀ ev ∈ tr, ToolReply ev) : st'.Holds P := by
  generalize hout : (Except.ok st' : Except Raised _) = out at h
  cases h with
  | repeated result hl =>
    have hres : P result := by
      obtain ⟨l₁, l₂, hcache, -⟩ := List.lookup_eq_some_iff.mp hl
      exact hs.cached (cacheKey toolName arguments, result) (by rw [hcache]; simp)
    have hst := mapError_eq_ok.mp hout.symm
    unfold repeatCall at hst
    cases hc : compactToolResult result cfg.maxObservationChars with
    | error e => rw [hc] at hst; cases hst
    | ok s =>
      rw [hc] at hst
      cases hst
      exact (hs.record fun v hv => by cases hv; exact hres).append _ _
  | failed e hl hrun =>
    cases hout
    exact recordError_holds hs _ _ _
  | result result hl hrun =>
    obtain ⟨name, hname, hres⟩ := callTool_toolResult hrun ht
    cases hout
    have hcache : LoopState.Holds P
        { st with callCache := st.callCache ++ [(cacheKey toolName arguments, result)] } := by
      refine ⟨fun kv hkv => ?_, hs.recorded⟩
      rcases List.mem_append.mp hkv with hkv | hkv
      · exact hs.cached kv hkv
      · cases List.mem_singleton.mp hkv
        exact hP name hname result hres
    have hrecord : LoopState.Holds P (LoopState.record _ toolName arguments (.result result)) :=
      hcache.record fun v hv => by cases hv; exact hP name hname result hres
    unfold recordResult
    cases compactToolResult result cfg.maxObservationChars with
    | error e => exact recordError_holds hrecord _ _ _
    | ok s => exact hrecord.append _ _

/-- The result can be compacted. -/
def Compactable (v : Json F) : Prop := ∀ maxChars, ∃ s, compactToolResult v maxChars = .ok s

theorem returns_compactable (agent : SubAgent F) : agent.Returns Compactable :=
  fun _ _ _ hres => compactToolResult_of_toolResult hres

/-- A decision to call a tool does not raise when what is in the cache can be compacted. -/
theorem callRun_returns {toolName arguments : Json F} {out : Except Raised (LoopState F)}
    (h : CallRun cfg st toolName arguments tr out) (hs : st.Holds Compactable) :
    ∃ st', out = .ok st' := by
  cases h with
  | repeated result hl =>
    obtain ⟨l₁, l₂, hcache, -⟩ := List.lookup_eq_some_iff.mp hl
    obtain ⟨s, hc⟩ := hs.cached (cacheKey toolName arguments, result) (by rw [hcache]; simp)
      cfg.maxObservationChars
    rw [repeatCall, hc]
    exact ⟨_, rfl⟩
  | failed e hl hrun => exact ⟨_, rfl⟩
  | result result hl hrun => exact ⟨_, rfl⟩

/-- An iteration that goes on keeps `Holds`. -/
theorem iteration_next_holds (hP : cfg.agent.Returns P) {st' : LoopState F}
    (h : IterationRun cfg st tr (.ok (.inl st'))) (hs : st.Holds P)
    (ht : ∀ ev ∈ tr, ToolReply ev) : st'.Holds P := by
  generalize ho : (Except.ok (Sum.inl st') : Except Raised _) = out at h
  cases h with
  | @callTool raw decision tr o hb hread hl hf hc hcall =>
    cases o with
    | error e => cases ho
    | ok st'' =>
      cases ho
      exact callRun_holds hP hcall (hs.append _ _) fun ev hev => ht ev (List.mem_cons_of_mem _ hev)
  | _ => cases ho

/-- The result of an iteration has the calls that there were. -/
theorem iteration_exit_toolCalls {r : ToolLoopResult F}
    (h : IterationRun cfg st tr (.ok (.inr r))) : r.toolCalls = st.toolCalls := by
  generalize ho : (Except.ok (Sum.inr r) : Except Raised _) = out at h
  cases h with
  | @callTool raw decision tr o hb hread hl hf hc hcall => cases o <;> cases ho
  | overLimit raw e hb hlimit => cases ho
  | notObject raw v e hb hread hl hv => cases ho
  | _ => cases ho; rfl

/-- What the recorded calls of a loop have returned satisfies `P` when the agent's tools return only
such results. -/
theorem runToolLoop_holds {settings : Settings} {model : Str} {agent : SubAgent F}
    {systemPrompt userQuery : Str} {maxIterations : Int}
    {maxObservationChars tokenBudget : Option Int} {r : ToolLoopResult F}
    (hP : agent.Returns P)
    (h : Runs (runToolLoop settings model agent systemPrompt userQuery maxIterations
      maxObservationChars tokenBudget) tr (.ok r))
    (ht : ∀ ev ∈ tr, ToolReply ev) :
    ∀ call ∈ r.toolCalls, ∀ v, call.returned = some v → P v := by
  refine runs_loop (I := LoopState.Holds P) (Q := ToolReply)
    (P := fun _ out => ∀ r : ToolLoopResult F, out = .ok r →
      ∀ call ∈ r.toolCalls, ∀ v, call.returned = some v → P v)
    (fun st hs r hr => ?_) (fun st tr r hs _ hrun r' hr => ?_) (fun st tr e _ _ _ r hr => ?_)
    (fun st tr st' hs hq hrun => ⟨?_, fun tr' out hP' => hP'⟩)
    ⟨fun kv hkv => (by cases hkv), fun call hcall => (by cases hcall)⟩ ht h r rfl
  · cases hr
    exact hs.recorded
  · cases hr
    rw [iteration_exit_toolCalls (runs_iteration hrun)]
    exact hs.recorded
  · cases hr
  · exact iteration_next_holds hP (runs_iteration hrun) hs hq

/-! ## The loop returns -/

omit [PyFloat F] [Unicode] in
theorem onReply_single {P : Str → Prop} {messages : List Message} {model raw : Str} (h : P raw) :
    ∀ ev ∈ ([⟨.complete messages model, .ok raw⟩] : Trace F), OnReply P ev := by
  intro ev hev
  cases List.mem_singleton.mp hev
  exact h

/-- An iteration that ends the loop or goes on has read no JSON but objects, and gone over no limit. -/
theorem iteration_ok_readsAsObject {r : LoopState F ⊕ ToolLoopResult F}
    (h : IterationRun cfg st tr (.ok r)) : ∀ ev ∈ tr, OnReply (ReadsAsObject F) ev := by
  generalize ho : (Except.ok r : Except Raised _) = out at h
  cases h with
  | budget hb => intro ev hev; cases hev
  | llmFailed e hb => intro ev hev; cases List.mem_singleton.mp hev; trivial
  | unparseable raw hb hread hl => exact onReply_single (readsAsObject_of_none hread hl)
  | overLimit raw e hb hlimit => cases ho
  | notObject raw v e hb hread hl hv => cases ho
  | final raw decision hb hread hl hfinal => exact onReply_single (readsAsObject_object hread hl)
  | unknownAction raw decision hb hread hl hf hc => exact onReply_single (readsAsObject_object hread hl)
  | callTool raw decision hb hread hl hf hc hcall =>
    intro ev hev
    rcases List.mem_cons.mp hev with rfl | hev
    · exact readsAsObject_object hread hl
    · exact callRun_onReply hcall ev hev

/-- An iteration that raises has read JSON that is no object, or gone over a limit. -/
theorem iteration_error_reads {e : Raised} (h : IterationRun cfg st tr (.error e))
    (hs : st.Holds Compactable) : ¬ ∀ ev ∈ tr, OnReply (ReadsAsObject F) ev := by
  generalize ho : (Except.error e : Except Raised _) = out at h
  cases h with
  | overLimit raw e' hb hlimit =>
    intro hall
    exact not_readable.mpr ⟨e', hlimit⟩ (hall _ (List.mem_singleton_self _)).1
  | notObject raw v e' hb hread hl hv =>
    intro hall
    obtain ⟨kvs, rfl⟩ := (hall _ (List.mem_singleton_self _)).2 v hl
    cases hv
  | callTool raw decision hb hread hl hf hc hcall =>
    obtain ⟨st', rfl⟩ := callRun_returns hcall (hs.append _ _)
    cases ho
  | _ => cases ho

section RunToolLoop

variable {settings : Settings} {model : Str} {agent : SubAgent F} {systemPrompt userQuery : Str}
  {maxIterations : Int} {maxObservationChars tokenBudget : Option Int}

/-- A loop that returns has read no JSON but objects. -/
theorem runToolLoop_reads {r : ToolLoopResult F}
    (h : Runs (runToolLoop settings model agent systemPrompt userQuery maxIterations
      maxObservationChars tokenBudget) tr (.ok r)) :
    ∀ ev ∈ tr, OnReply (ReadsAsObject F) ev := by
  refine runs_loop (I := fun _ => True) (Q := fun _ => True)
    (P := fun tr out => (∃ r, out = .ok r) → ∀ ev ∈ tr, OnReply (ReadsAsObject F) ev)
    (fun st _ _ ev hev => ?_) (fun st tr r _ _ hrun _ => ?_) (fun st tr e _ _ _ ho => ?_)
    (fun st tr st' _ _ hrun => ⟨trivial, fun tr' out hP' ho => ?_⟩) trivial (fun _ _ => trivial) h
    ⟨r, rfl⟩
  · cases hev
  · exact iteration_ok_readsAsObject (runs_iteration hrun)
  · obtain ⟨r, hr⟩ := ho
    cases hr
  · exact List.forall_mem_append.mpr ⟨iteration_ok_readsAsObject (runs_iteration hrun), hP' ho⟩

/-- With well-behaved tools a loop that reads no JSON but objects returns. -/
theorem runToolLoop_returns {out : Except Raised (ToolLoopResult F)}
    (h : Runs (runToolLoop settings model agent systemPrompt userQuery maxIterations
      maxObservationChars tokenBudget) tr out)
    (ht : ∀ ev ∈ tr, ToolReply ev) (hr : ∀ ev ∈ tr, OnReply (ReadsAsObject F) ev) :
    ∃ r, out = .ok r := by
  refine runs_loop (I := LoopState.Holds Compactable) (Q := ToolReply)
    (P := fun tr out => (∀ ev ∈ tr, OnReply (ReadsAsObject F) ev) → ∃ r, out = .ok r)
    (fun st _ _ => ⟨_, rfl⟩) (fun st tr r _ _ _ _ => ⟨r, rfl⟩)
    (fun st tr e hs _ hrun hall => ?_) (fun st tr st' hs hq hrun => ⟨?_, fun tr' out hP' hall => ?_⟩)
    ⟨fun kv hkv => (by cases hkv), fun call hcall => (by cases hcall)⟩ ht h hr
  · exact absurd hall (iteration_error_reads (runs_iteration hrun) hs)
  · exact iteration_next_holds (returns_compactable _) (runs_iteration hrun) hs hq
  · exact hP' fun ev hev => hall ev (List.mem_append_right _ hev)

/-- With well-behaved tools the loop returns exactly when the LLM sent no JSON but objects, and no text
that goes over a limit. -/
theorem tool_loop_returns_iff {out : Except Raised (ToolLoopResult F)}
    (h : Runs (runToolLoop settings model agent systemPrompt userQuery maxIterations
      maxObservationChars tokenBudget) tr out)
    (ht : ∀ ev ∈ tr, ToolReply ev) :
    (∃ r, out = .ok r) ↔ ∀ ev ∈ tr, OnReply (ReadsAsObject F) ev := by
  constructor
  · rintro ⟨r, rfl⟩
    exact runToolLoop_reads h
  · exact runToolLoop_returns h ht

end RunToolLoop

/-! ## The loop ends in one way -/

omit [PyFloat F] [Unicode] in
def isString : Json F → Bool
  | .string _ => true
  | _ => false

omit [PyFloat F] [Unicode] in
/-- A result is an answer or has one flag, and no answer then; without an answer it is visible to
`anyResultNeedsEscalation`. -/
structure ToolLoopResult.EndsOnce (r : ToolLoopResult F) : Prop where
  one : [isString r.finalAnswer, r.hitCap, r.llmCallFailed, r.hitBudgetGuard].count true = 1
  noAnswer : r.hitCap = true ∨ r.llmCallFailed = true ∨ r.hitBudgetGuard = true →
    r.finalAnswer = .null
  visible : ∀ st : GraphState F, st.salesResult = some r ∨ st.accountResult = some r →
    isString r.finalAnswer = false → anyResultNeedsEscalation st = true

omit [PyFloat F] [Unicode] in
theorem anyResultNeedsEscalation_of_failed {st : GraphState F} {r : ToolLoopResult F}
    (h : st.salesResult = some r ∨ st.accountResult = some r) (hr : r.failed = true) :
    anyResultNeedsEscalation st = true := by
  rw [anyResultNeedsEscalation, List.any_eq_true]
  exact ⟨some r, by rcases h with h | h <;> simp [h], hr⟩

omit [PyFloat F] [Unicode] in
/-- A result with a text and no flag. -/
theorem endsOnce_answer (s : Str) (calls : List (ToolCall F)) :
    ToolLoopResult.EndsOnce { finalAnswer := .string s, toolCalls := calls } where
  one := rfl
  noAnswer h := by simp at h
  visible st _ hs := by cases hs

omit [PyFloat F] [Unicode] in
/-- A result with one flag and no answer. -/
theorem endsOnce_flag {r : ToolLoopResult F} (hr : r.finalAnswer = .null)
    (hf : [r.hitCap, r.llmCallFailed, r.hitBudgetGuard].count true = 1) : r.EndsOnce where
  one := by rw [hr]; exact hf
  noAnswer _ := hr
  visible st hst _ := by
    refine anyResultNeedsEscalation_of_failed hst ?_
    unfold ToolLoopResult.failed
    revert hf
    cases r.hitCap <;> cases r.llmCallFailed <;> cases r.hitBudgetGuard <;> decide

/-- An iteration that ends the loop does so in one way, unless its decision is `final` with an answer
that is no string. -/
theorem iteration_exit_endsOnce {r : ToolLoopResult F}
    (h : IterationRun cfg st tr (.ok (.inr r))) :
    r.EndsOnce ↔ ∀ ev ∈ tr, OnReply (AnswersText F) ev := by
  generalize ho : (Except.ok (Sum.inr r) : Except Raised _) = out at h
  cases h with
  | budget hb =>
    cases ho
    exact ⟨fun _ ev hev => (by cases hev), fun _ => endsOnce_flag rfl rfl⟩
  | llmFailed e hb =>
    cases ho
    refine ⟨fun _ ev hev => ?_, fun _ => endsOnce_flag rfl rfl⟩
    cases List.mem_singleton.mp hev
    trivial
  | unparseable raw hb hread hl =>
    cases ho
    refine ⟨fun _ => onReply_single fun decision hd => ?_, fun _ => endsOnce_answer raw _⟩
    rw [hl] at hd
    cases hd
  | overLimit raw e hb hlimit => cases ho
  | notObject raw v e hb hread hl hv => cases ho
  | final raw decision hb hread hl hfinal =>
    cases ho
    constructor
    · intro hr
      refine onReply_single fun decision' hd _ => ?_
      obtain rfl : decision = decision' := by rw [hl] at hd; cases hd; rfl
      -- without flags the one thing that holds is that the answer is a string
      have hone := hr.one
      cases ha : dictGetD decision "answer" (.string []) with
      | string s => exact ⟨s, rfl⟩
      | _ => rw [ha] at hone; cases hone
    · intro hall
      obtain ⟨s, hs⟩ := hall _ (List.mem_singleton_self _) decision hl hfinal
      rw [hs]
      exact endsOnce_answer s _
  | unknownAction raw decision hb hread hl hf hc =>
    cases ho
    exact ⟨fun _ => onReply_single (answersText_of_not_final hl hf), fun _ => endsOnce_answer raw _⟩
  | callTool raw decision hb hread hl hf hc hcall =>
    rename_i o
    cases o <;> cases ho

/-- An iteration that goes on has read no `final` decision. -/
theorem iteration_next_answersText {st' : LoopState F}
    (h : IterationRun cfg st tr (.ok (.inl st'))) : ∀ ev ∈ tr, OnReply (AnswersText F) ev := by
  generalize ho : (Except.ok (Sum.inl st') : Except Raised _) = out at h
  cases h with
  | callTool raw decision hb hread hl hf hc hcall =>
    intro ev hev
    rcases List.mem_cons.mp hev with rfl | hev
    · exact answersText_of_not_final hl hf
    · exact callRun_onReply hcall ev hev
  | _ => cases ho

/-- A loop that returns ends in one way exactly when no `final` decision of the LLM has an answer
that is no string. -/
theorem tool_loop_ends_once_iff {settings : Settings} {model : Str} {agent : SubAgent F}
    {systemPrompt userQuery : Str} {maxIterations : Int}
    {maxObservationChars tokenBudget : Option Int} {r : ToolLoopResult F}
    (h : Runs (runToolLoop settings model agent systemPrompt userQuery maxIterations
      maxObservationChars tokenBudget) tr (.ok r)) :
    r.EndsOnce ↔ ∀ ev ∈ tr, OnReply (AnswersText F) ev := by
  refine runs_loop (I := fun _ => True) (Q := fun _ => True)
    (P := fun tr out => ∀ r, out = .ok r → (r.EndsOnce ↔ ∀ ev ∈ tr, OnReply (AnswersText F) ev))
    (fun st _ r ho => ?_) (fun st tr r _ _ hrun r' ho => ?_) (fun st tr e _ _ _ r ho => ?_)
    (fun st tr st' _ _ hrun => ⟨trivial, fun tr' out hP r ho => ?_⟩) trivial (fun _ _ => trivial)
    h r rfl
  · cases ho
    exact ⟨fun _ ev hev => (by cases hev), fun _ => endsOnce_flag rfl rfl⟩
  · cases ho
    exact iteration_exit_endsOnce (runs_iteration hrun)
  · cases ho
  · rw [hP r ho, List.forall_mem_append]
    exact ⟨fun h' => ⟨iteration_next_answersText (runs_iteration hrun), h'⟩, fun h' => h'.2⟩

end Spec

/-! ## Runs on fixed replies -/

section Runs

/-- An LLM that gives these texts one after the other, and tools that find nothing. -/
def emptyShop (raws : List Str) : Env (Request FloatText) Answer := fun h r =>
  match r with
  | .complete _ _ => .ok (raws.getD h.length [])
  | .callTool name _ =>
    if name = "search_listings" then .ok { structuredContent := some [("result", .array [])] }
    else .error ⟨.runtimeError, "no such tool"⟩

/-- A sub-agent that can search listings. -/
def searchAgent : SubAgent FloatText where
  name := "sales_agent"
  allowedTools := [str "search_listings"]
  toolSpecs := [⟨"search_listings", [], []⟩]
  bound _ := Iff.rfl

/-- The first messages of its loop. -/
def searchMessages : List Message :=
  [⟨.system, str "You sell cars." ++ str "\n\n" ++
      loopInstructions (toolDescriptions searchAgent)⟩,
    ⟨.user, "Any SUV?"⟩]

/-- A budget that leaves room for observations. -/
def searchBudget : Int := estimateMessagesTokens searchMessages + 1000

/-- The loop of `searchAgent` on these replies. -/
def searchLoop (raws : List Str) :
    List (Event (Request FloatText) Answer) × Except Raised (ToolLoopResult FloatText) :=
  exec (emptyShop raws) [] (@runToolLoop FloatText _ asciiUnicode ⟨"small", "large", 800, 4000⟩
    "small" searchAgent "You sell cars." "Any SUV?" maxIterations none (some searchBudget))

theorem searchLoop_runs (raws : List Str) :
    Runs (@runToolLoop FloatText _ asciiUnicode ⟨"small", "large", 800, 4000⟩
      "small" searchAgent "You sell cars." "Any SUV?" maxIterations none (some searchBudget))
      (searchLoop raws).1 (searchLoop raws).2 :=
  exec_runs _ _ _

theorem searchLoop_toolReply (raws : List Str) : ∀ ev ∈ (searchLoop raws).1, ToolReply ev := by
  refine exec_forall (fun h r => ?_) _ _
  cases r with
  | complete messages model => trivial
  | callTool name arguments =>
    unfold emptyShop
    by_cases hn : name = "search_listings"
    · subst hn
      exact .inr (.searchListings [])
    · simp only [if_neg hn]
      trivial

theorem searchLoop_onReply {P : Str → Prop} {raws : List Str} (h : ∀ raw ∈ raws, P raw)
    (h' : P []) : ∀ ev ∈ (searchLoop raws).1, OnReply P ev := by
  refine exec_forall (fun hist r => ?_) _ _
  cases r with
  | callTool name arguments => exact trivial
  | complete messages model =>
    have hraw : P (raws.getD hist.length []) := by
      rw [List.getD_eq_getElem?_getD]
      cases hget : raws[hist.length]? with
      | none => exact h'
      | some raw => exact h raw (List.mem_of_getElem? hget)
    exact hraw

def searchReply : Str := "\x7b\"action\": \"call_tool\", \"tool\": \"search_listings\"\x7d"

def finalReply : Str := "\x7b\"action\": \"final\", \"answer\": \"None.\"\x7d"

def finalNull : Str := "\x7b\"action\": \"final\", \"answer\": null\x7d"

/-- What `json.loads` makes of the replies. -/
theorem loads_replies :
    loads (F := FloatText) searchReply =
      some (.object [("action", .string "call_tool"), ("tool", .string "search_listings")]) ∧
    loads (F := FloatText) finalReply =
      some (.object [("action", .string "final"), ("answer", .string "None.")]) ∧
    loads (F := FloatText) [] = none := by
  decide +kernel

theorem readable_replies : Readable FloatText searchReply ∧ Readable FloatText finalReply ∧
    Readable FloatText [] :=
  ⟨readable_of_length_le (by decide) (by decide),
    readable_of_length_le (by decide) (by decide),
    readable_of_length_le (by decide) (by decide)⟩

theorem searchLoop_returns : ∃ r, (searchLoop [searchReply, [], finalReply]).2 = .ok r := by
  let _ := asciiUnicode
  obtain ⟨hsearch, hfinal, hnone⟩ := loads_replies
  obtain ⟨hread, hread', hread''⟩ := readable_replies
  refine (tool_loop_returns_iff (searchLoop_runs _) (searchLoop_toolReply _)).mpr
    (searchLoop_onReply (fun raw hraw => ?_) (readsAsObject_of_none hread'' hnone))
  simp only [List.mem_cons, List.not_mem_nil, or_false] at hraw
  rcases hraw with rfl | rfl | rfl
  · exact readsAsObject_object hread hsearch
  · exact readsAsObject_of_none hread'' hnone
  · exact readsAsObject_object hread' hfinal

theorem searchLoop_eq_loop (raws : List Str) : searchLoop raws =
    exec (emptyShop raws) [] (@loop _ _ _ _ _ (@iteration FloatText _ asciiUnicode
      ⟨"small", searchAgent, 800, searchBudget⟩) capResult 5 { messages := searchMessages }) :=
  rfl

theorem searchMessages_under_budget :
    ¬ searchBudget ≤ estimateMessagesTokens searchMessages := by
  unfold searchBudget
  omega

theorem searchLoop_array : (searchLoop ["[]"]).2.map (·.finalAnswer) =
    .error (.code ⟨.attributeError, "'list' object has no attribute 'get'"⟩) := by
  rw [searchLoop_eq_loop]
  unfold loop iteration
  rw [if_neg searchMessages_under_budget]
  decide

/-- A reply of `[]` makes the loop raise. -/
theorem searchLoop_raises :
    (searchLoop ["[]"]).2.map (·.finalAnswer) =
      .error (.code ⟨.attributeError, "'list' object has no attribute 'get'"⟩) ∧
    ¬ ∀ raws : List Str, ∃ r, (searchLoop raws).2 = .ok r := by
  refine ⟨searchLoop_array, fun h => ?_⟩
  have hraise := searchLoop_array
  obtain ⟨r, hr⟩ := h ["[]"]
  rw [hr] at hraise
  cases hraise

theorem searchLoop_text :
    (searchLoop [finalReply]).2.map (·.finalAnswer) = .ok (.string "None.") := by
  rw [searchLoop_eq_loop]
  unfold loop iteration
  rw [if_neg searchMessages_under_budget]
  decide +kernel

theorem searchLoop_endsOnce : ∃ r, (searchLoop [finalReply]).2 = .ok r ∧ r.EndsOnce := by
  let _ := asciiUnicode
  obtain ⟨-, hfinal, hnone⟩ := loads_replies
  have htext := searchLoop_text
  cases hr : (searchLoop [finalReply]).2 with
  | error e => rw [hr] at htext; cases htext
  | ok r =>
    have hrun := searchLoop_runs [finalReply]
    rw [hr] at hrun
    refine ⟨r, rfl, (tool_loop_ends_once_iff hrun).mpr (searchLoop_onReply (fun raw hraw => ?_) ?_)⟩
    · obtain rfl := List.mem_singleton.mp hraw
      intro decision hd _
      rw [hfinal] at hd
      cases hd
      exact ⟨_, rfl⟩
    · intro decision hd
      rw [hnone] at hd
      cases hd

theorem searchLoop_null : (searchLoop [finalNull]).2.map
    (fun r => (r.finalAnswer, r.hitCap, r.llmCallFailed, r.hitBudgetGuard)) =
      .ok (.null, false, false, false) := by
  rw [searchLoop_eq_loop]
  unfold loop iteration
  rw [if_neg searchMessages_under_budget]
  decide +kernel

/-- A `null` answer ends the loop without a text and without a flag. -/
theorem searchLoop_silent :
    (searchLoop [finalNull]).2.map
        (fun r => (r.finalAnswer, r.hitCap, r.llmCallFailed, r.hitBudgetGuard)) =
      .ok (.null, false, false, false) ∧
    ¬ ∀ (raws : List Str) (r : ToolLoopResult FloatText),
      (searchLoop raws).2 = .ok r → r.EndsOnce := by
  refine ⟨searchLoop_null, fun h => ?_⟩
  have hsilent := searchLoop_null
  cases hr : (searchLoop [finalNull]).2 with
  | error e => rw [hr] at hsilent; cases hsilent
  | ok r =>
    rw [hr] at hsilent
    have hone := (h [finalNull] r hr).one
    simp only [Except.map, Except.ok.injEq, Prod.mk.injEq] at hsilent
    obtain ⟨ha, hc, hl, hb⟩ := hsilent
    rw [ha, hc, hl, hb] at hone
    cases hone

end Runs

end DealershipAgent
