import DealershipAgent.Agents.LeastPrivilege
import DealershipAgent.Llm.Normalize
import DealershipAgent.Py.Json.RoundTrip

/-!
# Repeated tool calls

The tool loop keeps the results of its calls (`call_cache` in `agents/tool_loop.py`) and answers a call
that it has made before with the earlier result.

* `cacheKey_inj`: two calls have the same key if and only if they are the same call.
* `callRun_memoized`: what one decision records, and when the tool is invoked for it.
* `runToolLoop_memoized`: the record of a whole run.
-/

namespace DealershipAgent

open Py Json Interact

section Memoization

variable {F : Type}

/-- The same tool with the same arguments, whatever the order of their members. -/
def ToolCall.SameCall (call call' : ToolCall F) : Prop :=
  sortKeys call.tool = sortKeys call'.tool ∧ sortKeys call.arguments = sortKeys call'.arguments

/-- `call.get("cached", False)`. -/
def ToolCall.isCached (call : ToolCall F) : Bool :=
  match call.outcome with
  | .cached _ => true
  | _ => false

/-- A call is answered from the earlier ones exactly when the same call has succeeded, with the result
that it had then. -/
structure AnsweredFrom (earlier : List (ToolCall F)) (call : ToolCall F) : Prop where
  cached_iff : call.isCached = true ↔ ∃ e ∈ earlier, e.SameCall call ∧ e.returned.isSome = true
  result : ∀ e ∈ earlier, e.SameCall call → ∀ v, e.returned = some v → call.outcome = .cached v

/-- The requests for tools. -/
def toolRequests (tr : Trace F) : Trace F :=
  tr.filter fun ev =>
    match ev.req with
    | .complete _ _ => false
    | .callTool _ _ => true

variable [PyFloat F]

/-- A completion comes from a provider, which has normalized it. -/
def Normalized (F : Type) [PyFloat F] [Unicode] (raw : Str) : Prop :=
  ∃ text, normalizeLlmResponse F text = .ok raw

/-- The decision to call a tool in a completion: the tool and the arguments. -/
def toolDecision : Event (Request F) Answer → Option (Json F × Json F)
  | ⟨.complete _ _, .ok raw⟩ =>
    match loads (F := F) raw with
    | some (.object decision) =>
      if (dictGet decision "action").eqStr "call_tool" then
        some (dictGet decision "tool", (dictGet decision "arguments").orElse (.object []))
      else none
    | _ => none
  | _ => none

variable [Unicode]

/-- The entry is what an invocation of the tool gave. -/
def Invoked (agent : SubAgent F) (maxObservationChars : Int) (call : ToolCall F) (tr : Trace F) : Prop :=
  ∃ out, Runs (agent.callTool call.tool call.arguments) tr out ∧
    ((∃ v, out = .ok v ∧ call.outcome = .result v) ∨
      ∃ e, out = .error e ∧ call.outcome = .error (compactError e.exc.text maxObservationChars))

/-- The entries for the decisions of a run, after some earlier ones. -/
structure Memoized (agent : SubAgent F) (maxObservationChars : Int) (earlier : List (ToolCall F))
    (tr : Trace F) (calls : List (ToolCall F)) : Prop where
  decisions : calls.map (fun call => (call.tool, call.arguments)) = tr.filterMap toolDecision
  answered : ∀ before call after, calls = before ++ call :: after →
    AnsweredFrom (earlier ++ before) call
  invoked : ∃ runs, List.Forall₂ (Invoked agent maxObservationChars)
    (calls.filter fun call => !call.isCached) runs ∧ toolRequests tr = runs.flatten

/-- A result that the tools give can be compacted. -/
def CompactReply (maxObservationChars : Int) : Event (Request F) Answer → Prop
  | ⟨.callTool name _, .ok result⟩ =>
    ∀ v, result.unwrap name = .ok v → ∃ s, compactToolResult v maxObservationChars = .ok s
  | _ => True

omit [Unicode] in
/-- A decision that is read of a completion has no surrogate pair in two code points (and, as all that is
read, no key twice). -/
def ProviderReply : Event (Request F) Answer → Prop
  | ⟨.complete _ _, .ok raw⟩ => ∀ decision : List (Str × Json F), loads raw = some (.object decision) →
      Regular (.object decision : Json F)
  | _ => True

/-! ## The key of a call -/

/-- What is read of a normalized completion: a provider's replies are as `ProviderReply` says. -/
theorem Normalized.regular [LawfulFloat F] {raw : Str} {decision : List (Str × Json F)}
    (h : Normalized F raw) (hl : loads raw = some (.object decision)) :
    Regular (.object decision : Json F) := by
  obtain ⟨text, htext⟩ := h
  obtain ⟨kvs, hraw⟩ : ∃ kvs : List (Str × Json F), raw = dumps (.object kvs) := by
    have hrewrite : rewriteParsed F (jsonPart text) (loads (jsonPart text)) = raw := by
      unfold normalizeLlmResponse at htext
      cases hparsed : loadsOrNone (F := F) (jsonPart text) with
      | error e =>
        rw [hparsed] at htext
        cases htext
      | ok parsed =>
        rw [hparsed] at htext
        rw [(loadsOrNone_eq_ok.mp hparsed).2]
        exact Except.ok.inj htext
    generalize jsonPart text = t at hrewrite
    cases ht : loads (F := F) t with
    | none =>
      rw [ht] at hrewrite
      change t = raw at hrewrite
      rw [← hrewrite, ht] at hl
      cases hl
    | some parsed =>
      rw [ht] at hrewrite
      simp only [rewriteParsed] at hrewrite
      split at hrewrite
      · exact ⟨_, hrewrite.symm⟩
      · next hobject =>
        rw [← hrewrite, ht] at hl
        cases hl
        exact absurd rfl (hobject decision)
  obtain ⟨w, t, w', he, -, hval, -⟩ := loads_iff.mp hl
  refine hval.regular fun c hc => ?_
  have hascii : Ascii raw := by
    rw [hraw]
    exact ascii_dumps _
  exact hascii c (by rw [he]; simp [hc])

omit [PyFloat F] [Unicode] in
theorem regular_dictGet {kvs : List (Str × Json F)} (h : Regular (.object kvs)) (key : Str) :
    Regular (dictGet kvs key) := by
  unfold dictGet dictGetD
  cases hl : kvs.lookup key with
  | none => exact trivial
  | some v =>
    obtain ⟨l₁, l₂, rfl, -⟩ := List.lookup_eq_some_iff.mp hl
    exact (regularMembers_iff.mp h.2 (key, v) (by simp)).2

omit [Unicode] in
theorem regular_orElse {v w : Json F} (hv : Regular v) (hw : Regular w) : Regular (v.orElse w) := by
  unfold orElse
  split
  · exact hv
  · exact hw

omit [Unicode] in
/-- Two calls have one key if and only if they are the same call. -/
theorem cacheKey_inj [LawfulFloat F] {toolName arguments toolName' arguments' : Json F}
    (ht : Regular toolName) (ha : Regular arguments) (ht' : Regular toolName')
    (ha' : Regular arguments') : cacheKey toolName arguments = cacheKey toolName' arguments' ↔
      sortKeys toolName = sortKeys toolName' ∧ sortKeys arguments = sortKeys arguments' := by
  rw [← dumpsWith_sorted_inj ht ht', ← dumpsWith_sorted_inj ha ha', cacheKey_eq, cacheKey_eq]
  constructor
  · intro h
    have hnot : ∀ v : Json F, HeadNot continuesNumber (keyEnd v) :=
      fun v => .cons (c := chr ',') (by decide) _
    obtain ⟨harguments, hend⟩ := (dumpsWith_text true arguments).cancel
      (dumpsWith_text true arguments') (hnot _) (hnot _) (List.append_cancel_left h)
    exact ⟨List.append_cancel_right (List.append_cancel_left hend), harguments⟩
  · rintro ⟨htool, harguments⟩
    rw [keyEnd, keyEnd, htool, harguments]

/-- An object with an action is written as a provider writes it. -/
theorem normalized_dumps [LawfulFloat F] {kvs : List (Str × Json F)}
    (h : Regular (.object kvs : Json F)) (haction : dictHas kvs "action" = true)
    (hread : Readable F (dumps (.object kvs))) : Normalized F (dumps (.object kvs)) := by
  refine ⟨dumps (.object kvs), ?_⟩
  have hval : Val (dumps (.object kvs)) (.object kvs) := dumps_val h
  have hsame := normalize_object (p := []) (q := []) (.inl hval.denotes) (by simp)
  rw [List.nil_append, List.append_nil, trimWs_val hval (.inl ⟨_, rfl⟩), hread, inferAction,
    if_pos haction] at hsame
  exact hsame

/-! ## The cache -/

/-- The cache holds the results of the calls that have succeeded, under their keys. -/
structure LoopState.CachesCalls (st : LoopState F) : Prop where
  regular : ∀ call ∈ st.toolCalls, Regular call.tool ∧ Regular call.arguments
  lookup_call : ∀ call ∈ st.toolCalls, ∀ v, call.returned = some v →
    st.callCache.lookup (cacheKey call.tool call.arguments) = some v
  lookup_some : ∀ key v, st.callCache.lookup key = some v →
    ∃ call ∈ st.toolCalls, cacheKey call.tool call.arguments = key ∧ call.returned = some v

variable {cfg : LoopConfig F} {st st' : LoopState F} {tr tr' : Trace F} {agent : SubAgent F}
  {toolName arguments : Json F}

omit [Unicode] in
/-- An entry after the others, when the cache has its result under its key. -/
theorem LoopState.CachesCalls.record (hs : st.CachesCalls) {call : ToolCall F}
    (ht : Regular call.tool) (ha : Regular call.arguments)
    (hcalls : st'.toolCalls = st.toolCalls ++ [call])
    (hold : ∀ key v, st.callCache.lookup key = some v → st'.callCache.lookup key = some v)
    (hnew : ∀ v, call.returned = some v →
      st'.callCache.lookup (cacheKey call.tool call.arguments) = some v)
    (hfrom : ∀ key v, st'.callCache.lookup key = some v → st.callCache.lookup key = some v ∨
      cacheKey call.tool call.arguments = key ∧ call.returned = some v) : st'.CachesCalls := by
  constructor
  · intro c hc
    rw [hcalls] at hc
    rcases List.mem_append.mp hc with hc | hc
    · exact hs.regular c hc
    · rw [List.mem_singleton.mp hc]
      exact ⟨ht, ha⟩
  · intro c hc v hv
    rw [hcalls] at hc
    rcases List.mem_append.mp hc with hc | hc
    · exact hold _ _ (hs.lookup_call c hc v hv)
    · rw [List.mem_singleton.mp hc] at hv ⊢
      exact hnew v hv
  · intro key v hv
    rw [hcalls]
    rcases hfrom key v hv with h | ⟨hkey, hreturned⟩
    · obtain ⟨c, hc, hkey, hreturned⟩ := hs.lookup_some key v h
      exact ⟨c, List.mem_append_left _ hc, hkey, hreturned⟩
    · exact ⟨call, List.mem_append_right _ (List.mem_singleton_self _), hkey, hreturned⟩

omit [Unicode] in
/-- A cached result is that of the same call, made before. -/
theorem answeredFrom_cached [LawfulFloat F] (hs : st.CachesCalls) (ht : Regular toolName)
    (ha : Regular arguments) {result : Json F}
    (hl : st.callCache.lookup (cacheKey toolName arguments) = some result) :
    AnsweredFrom st.toolCalls ⟨toolName, arguments, .cached result⟩ := by
  obtain ⟨c, hc, hkey, hreturned⟩ := hs.lookup_some _ _ hl
  obtain ⟨htc, hac⟩ := hs.regular c hc
  refine ⟨iff_of_true rfl ⟨c, hc, (cacheKey_inj htc hac ht ha).mp hkey, by rw [hreturned]; rfl⟩, ?_⟩
  intro e he hsame v hv
  obtain ⟨hte, hae⟩ := hs.regular e he
  have hlookup := hs.lookup_call e he v hv
  rw [(cacheKey_inj hte hae ht ha).mpr hsame, hl] at hlookup
  rw [Option.some.inj hlookup]

omit [Unicode] in
/-- A call whose key is not in the cache has not succeeded before. -/
theorem answeredFrom_new [LawfulFloat F] (hs : st.CachesCalls) (ht : Regular toolName)
    (ha : Regular arguments) (hl : st.callCache.lookup (cacheKey toolName arguments) = none)
    {outcome : CallOutcome F} (hnew : ToolCall.isCached ⟨toolName, arguments, outcome⟩ = false) :
    AnsweredFrom st.toolCalls ⟨toolName, arguments, outcome⟩ := by
  have hno : ∀ e ∈ st.toolCalls, e.SameCall ⟨toolName, arguments, outcome⟩ →
      ∀ v, e.returned ≠ some v := by
    intro e he hsame v hv
    obtain ⟨hte, hae⟩ := hs.regular e he
    have hlookup := hs.lookup_call e he v hv
    rw [(cacheKey_inj hte hae ht ha).mpr hsame, hl] at hlookup
    cases hlookup
  refine ⟨?_, fun e he hsame v hv => absurd hv (hno e he hsame v)⟩
  rw [hnew]
  refine iff_of_false (by simp) ?_
  rintro ⟨e, he, hsame, hsome⟩
  obtain ⟨v, hv⟩ := Option.isSome_iff_exists.mp hsome
  exact hno e he hsame v hv

/-! ## One decision -/

/-- An entry that is no cached one is what one invocation gave, which made the requests; for a cached
one there was no request. -/
def InvokedOnce (agent : SubAgent F) (maxObservationChars : Int) (call : ToolCall F) (tr : Trace F) :
    Prop :=
  if call.isCached then tr = [] else Invoked agent maxObservationChars call tr

theorem callRun_memoized [LawfulFloat F] {tr : Trace F}
    (h : CallRun cfg st toolName arguments tr (.ok st')) (hs : st.CachesCalls)
    (ht : Regular toolName) (ha : Regular arguments)
    (hcompact : ∀ ev ∈ tr, CompactReply cfg.maxObservationChars ev) :
    ∃ call : ToolCall F, st'.toolCalls = st.toolCalls ++ [call] ∧ call.tool = toolName ∧
      call.arguments = arguments ∧ AnsweredFrom st.toolCalls call ∧
      InvokedOnce cfg.agent cfg.maxObservationChars call tr ∧ st'.CachesCalls := by
  generalize hout : (Except.ok st' : Except Raised _) = out at h
  cases h with
  | repeated result hl =>
    have hst := mapError_eq_ok.mp hout.symm
    unfold repeatCall at hst
    cases hc : compactToolResult result cfg.maxObservationChars with
    | error e => rw [hc] at hst; cases hst
    | ok s =>
      rw [hc] at hst
      cases hst
      refine ⟨⟨toolName, arguments, .cached result⟩, rfl, rfl, rfl, answeredFrom_cached hs ht ha hl,
        rfl, hs.record ht ha rfl (fun _ _ => id) (fun v hv => ?_) fun _ _ => .inl⟩
      cases hv
      exact hl
  | failed e hl hrun =>
    cases hout
    exact ⟨⟨toolName, arguments, .error (compactError e.exc.text cfg.maxObservationChars)⟩, rfl, rfl,
      rfl, answeredFrom_new hs ht ha hl rfl, ⟨_, hrun, .inr ⟨e, rfl, rfl⟩⟩,
      hs.record ht ha rfl (fun _ _ => id) (fun v hv => by cases hv) fun _ _ => .inl⟩
  | result result hl hrun =>
    cases hout
    obtain ⟨s, hcompacted⟩ : ∃ s, compactToolResult result cfg.maxObservationChars = .ok s := by
      rcases runs_callTool hrun with ⟨e, -, ho⟩ | ⟨name, -, -, x, htr, ⟨e, -, ho⟩ | ⟨r, rfl, ho⟩⟩
      · cases ho
      · cases ho
      · exact hcompact ⟨.callTool name arguments, .ok r⟩ (by rw [htr]; simp) result
          (mapError_eq_ok.mp ho.symm)
    have hrecord : recordResult cfg st toolName arguments result =
        observe { st with
          callCache := st.callCache ++ [(cacheKey toolName arguments, result)]
          toolCalls := st.toolCalls ++ [⟨toolName, arguments, .result result⟩] }
          [("tool", toolName), ("result", .string s)] := by
      unfold recordResult
      rw [hcompacted]
      rfl
    rw [hrecord]
    refine ⟨⟨toolName, arguments, .result result⟩, rfl, rfl, rfl, answeredFrom_new hs ht ha hl rfl,
      ⟨_, hrun, .inl ⟨result, rfl, rfl⟩⟩, hs.record ht ha rfl (fun key v hv => ?_) (fun v hv => ?_)
        fun key v hv => ?_⟩
    · exact (lookup_concat ..).trans (by rw [hv]; rfl)
    · cases hv
      exact (lookup_concat ..).trans (by rw [hl, if_pos rfl]; rfl)
    · have hboth := (lookup_concat ..).symm.trans hv
      cases hold : st.callCache.lookup key with
      | some w =>
        rw [hold] at hboth
        exact .inl hboth
      | none =>
        rw [hold, Option.none_or] at hboth
        split at hboth
        · next hkey => exact .inr ⟨hkey.symm, hboth⟩
        · cases hboth

/-! ## A run -/

omit [Unicode] in
theorem toolDecision_of_ne {raw : Str} {messages : List Message} {model : Str}
    (h : ∀ decision : List (Str × Json F), loads raw = some (.object decision) →
      (dictGet decision "action").eqStr "call_tool" = false) :
    toolDecision (F := F) ⟨.complete messages model, .ok raw⟩ = none := by
  unfold toolDecision
  simp only
  split
  · next decision hl => rw [h decision hl, if_neg (by simp)]
  · rfl

/-- The requests that an invocation makes are for tools. -/
theorem callTool_requests {out : Except Raised (Json F)}
    (h : Runs (agent.callTool toolName arguments) tr out) :
    toolRequests tr = tr ∧ tr.filterMap toolDecision = [] := by
  rcases runs_callTool h with ⟨e, rfl, -⟩ | ⟨name, -, -, x, rfl, -⟩
  · exact ⟨rfl, rfl⟩
  · exact ⟨rfl, rfl⟩

theorem callRun_requests {out : Except Raised (LoopState F)}
    (h : CallRun cfg st toolName arguments tr out) :
    toolRequests tr = tr ∧ tr.filterMap toolDecision = [] := by
  cases h with
  | repeated result hl => exact ⟨rfl, rfl⟩
  | failed e hl hrun => exact callTool_requests hrun
  | result result hl hrun => exact callTool_requests hrun

/-- An iteration that goes on has made one decision. -/
theorem iteration_memoized [LawfulFloat F] (h : IterationRun cfg st tr (.ok (.inl st')))
    (hs : st.CachesCalls) (hreplies : ∀ ev ∈ tr, ProviderReply ev)
    (hcompact : ∀ ev ∈ tr, CompactReply cfg.maxObservationChars ev) :
    ∃ call : ToolCall F, st'.toolCalls = st.toolCalls ++ [call] ∧
      tr.filterMap toolDecision = [(call.tool, call.arguments)] ∧ AnsweredFrom st.toolCalls call ∧
      InvokedOnce cfg.agent cfg.maxObservationChars call (toolRequests tr) ∧ st'.CachesCalls := by
  generalize ho : (Except.ok (Sum.inl st') : Except Raised _) = out at h
  cases h with
  | @callTool raw decision t o hb hread hl hf hc hcall =>
    cases o with
    | error e => cases ho
    | ok st'' =>
      cases ho
      have hdecision := hreplies _ List.mem_cons_self decision hl
      obtain ⟨call, hcalls, htool, harguments, hanswered, hinvoked, hs'⟩ := callRun_memoized hcall
        ⟨hs.regular, hs.lookup_call, hs.lookup_some⟩ (regular_dictGet hdecision _)
        (regular_orElse (regular_dictGet hdecision _) ⟨List.nodup_nil, trivial⟩)
        fun ev hev => hcompact ev (List.mem_cons_of_mem _ hev)
      obtain ⟨hrequests, hdecisions⟩ := callRun_requests hcall
      refine ⟨call, hcalls, ?_, hanswered, ?_, hs'⟩
      · have hone : toolDecision ⟨.complete st.messages cfg.model, .ok raw⟩ =
            some (call.tool, call.arguments) := by
          simp only [toolDecision, hl, hc, if_true, htool, harguments]
        rw [List.filterMap_cons_some hone, hdecisions]
      · rw [show toolRequests (⟨.complete st.messages cfg.model, .ok raw⟩ :: t) = toolRequests t from
          rfl, hrequests]
        exact hinvoked
  | _ => cases ho

/-- An iteration that ends the loop has made no decision to call a tool. -/
theorem iteration_exit_requests {r : ToolLoopResult F}
    (h : IterationRun cfg st tr (.ok (.inr r))) :
    toolRequests tr = [] ∧ tr.filterMap toolDecision = [] := by
  generalize ho : (Except.ok (Sum.inr r) : Except Raised _) = out at h
  have hraw : ∀ {raw : Str}, (∀ decision : List (Str × Json F),
      loads raw = some (.object decision) → (dictGet decision "action").eqStr "call_tool" = false) →
      List.filterMap toolDecision
        [(⟨.complete st.messages cfg.model, .ok raw⟩ : Event (Request F) Answer)] = [] :=
    fun hno => by rw [List.filterMap_cons_none (toolDecision_of_ne hno), List.filterMap_nil]
  cases h with
  | budget hb => exact ⟨rfl, rfl⟩
  | llmFailed e hb => exact ⟨rfl, rfl⟩
  | unparseable raw hb hread hl => exact ⟨rfl, hraw fun decision hd => by rw [hl] at hd; cases hd⟩
  | overLimit raw e hb hlimit => cases ho
  | notObject raw v e hb hread hl hv => cases ho
  | final raw decision hb hread hl hfinal =>
    refine ⟨rfl, hraw fun decision' hd => ?_⟩
    rw [hl] at hd
    cases hd
    rw [Json.eqStr_eq_true.mp hfinal]
    rfl
  | unknownAction raw decision hb hread hl hf hc =>
    refine ⟨rfl, hraw fun decision' hd => ?_⟩
    rw [hl] at hd
    cases hd
    exact hc
  | @callTool raw decision t o hb hread hl hf hc hcall => cases o <;> cases ho

section Rules

variable {maxChars : Int} {earlier calls : List (ToolCall F)}

theorem Memoized.nil (hd : tr.filterMap toolDecision = []) (hr : toolRequests tr = []) :
    Memoized agent maxChars earlier tr [] where
  decisions := hd.symm
  answered before call after h := by simp at h
  invoked := ⟨[], .nil, hr⟩

/-- One more decision before the others. -/
theorem Memoized.cons {call : ToolCall F}
    (hd : tr.filterMap toolDecision = [(call.tool, call.arguments)])
    (ha : AnsweredFrom earlier call) (hi : InvokedOnce agent maxChars call (toolRequests tr))
    (h : Memoized agent maxChars (earlier ++ [call]) tr' calls) :
    Memoized agent maxChars earlier (tr ++ tr') (call :: calls) where
  decisions := by
    rw [List.filterMap_append, hd, List.map_cons, h.decisions]
    rfl
  answered before call' after hsplit := by
    cases before with
    | nil =>
      obtain ⟨rfl, -⟩ := List.cons_eq_cons.mp hsplit
      rwa [List.append_nil]
    | cons call'' before =>
      obtain ⟨rfl, hcalls⟩ := List.cons_eq_cons.mp hsplit
      have hrest := h.answered before call' after hcalls
      rwa [List.append_assoc] at hrest
  invoked := by
    obtain ⟨runs, hruns, hrequests⟩ := h.invoked
    have happend : toolRequests (tr ++ tr') = toolRequests tr ++ toolRequests tr' :=
      List.filter_append ..
    unfold InvokedOnce at hi
    by_cases hcached : call.isCached = true
    · rw [if_pos hcached] at hi
      refine ⟨runs, ?_, by rw [happend, hi, hrequests]; rfl⟩
      rwa [List.filter_cons_of_neg (by simp [hcached])]
    · rw [if_neg hcached] at hi
      refine ⟨toolRequests tr :: runs, ?_, by rw [happend, hrequests, List.flatten_cons]⟩
      rw [List.filter_cons_of_pos (by simpa using hcached)]
      exact .cons hi hruns

end Rules

/-- In every run of the loop that returns, the record has one entry for each decision to call a tool, in
their order. An entry is answered from the cache exactly when the same call has succeeded before; for
each other entry the tool was invoked once, and otherwise never. -/
theorem runToolLoop_memoized [LawfulFloat F] {settings : Settings} {model : Str}
    {systemPrompt userQuery : Str} {maxIterations : Int}
    {maxObservationChars tokenBudget : Option Int} {r : ToolLoopResult F}
    (hreplies : ∀ ev ∈ tr, ProviderReply ev)
    (hcompact : ∀ ev ∈ tr,
      CompactReply (maxObservationChars.getD settings.loopObservationMaxChars) ev)
    (h : Runs (runToolLoop settings model agent systemPrompt userQuery maxIterations
      maxObservationChars tokenBudget) tr (.ok r)) :
    Memoized agent (maxObservationChars.getD settings.loopObservationMaxChars) [] tr r.toolCalls := by
  have hloop : ∃ calls, r.toolCalls = [] ++ calls ∧ Memoized agent
      (maxObservationChars.getD settings.loopObservationMaxChars) [] tr calls := by
    refine runs_loop_from (I := LoopState.CachesCalls)
      (Q := fun ev => ProviderReply ev ∧
        CompactReply (maxObservationChars.getD settings.loopObservationMaxChars) ev)
      (P := fun st tr out => ∀ r : ToolLoopResult F, out = .ok r →
        ∃ calls, r.toolCalls = st.toolCalls ++ calls ∧ Memoized agent
          (maxObservationChars.getD settings.loopObservationMaxChars) st.toolCalls tr calls)
      (fun st _ r hr => ?_) (fun st tr r _ _ hrun r' hr => ?_) (fun st tr e _ _ _ r hr => ?_)
      (fun st tr st' hs hq hrun => ?_) ⟨?_, ?_, ?_⟩ (fun ev hev => ⟨hreplies ev hev, hcompact ev hev⟩)
      h r rfl
    · cases hr
      exact ⟨[], (List.append_nil _).symm, .nil rfl rfl⟩
    · cases hr
      obtain ⟨hrequests, hdecisions⟩ := iteration_exit_requests (runs_iteration hrun)
      exact ⟨[], by rw [iteration_exit_toolCalls (runs_iteration hrun), List.append_nil],
        .nil hdecisions hrequests⟩
    · cases hr
    · obtain ⟨call, hcalls, hd, ha, hi, hs'⟩ := iteration_memoized (runs_iteration hrun) hs
        (fun ev hev => (hq ev hev).1) fun ev hev => (hq ev hev).2
      refine ⟨hs', fun tr' out h' r hr => ?_⟩
      obtain ⟨calls, hr', hmemoized⟩ := h' r hr
      rw [hcalls] at hr' hmemoized
      exact ⟨call :: calls, by rw [hr', List.append_assoc]; rfl, .cons hd ha hi hmemoized⟩
    · exact fun call hcall => by cases hcall
    · exact fun call hcall => by cases hcall
    · exact fun key v hv => by cases hv
  obtain ⟨calls, hcalls, hmemoized⟩ := hloop
  rw [List.nil_append] at hcalls
  rwa [hcalls]

end Memoization

/-! ## A run with a repeated call -/

def searchDecision : List (Str × Json FloatLiteral) :=
  [("action", .string "call_tool"), ("tool", .string "search_listings"), ("arguments", .object [])]

def noneDecision : List (Str × Json FloatLiteral) :=
  [("action", .string "final"), ("answer", .string "None.")]

theorem readable_decisions : Readable FloatLiteral (dumps (.object searchDecision)) ∧
    Readable FloatLiteral (dumps (.object noneDecision)) :=
  ⟨readable_of_length_le (by decide) (by decide),
    readable_of_length_le (by decide) (by decide)⟩

theorem regular_decisions :
    Regular (.object searchDecision) ∧ Regular (.object noneDecision) :=
  ⟨⟨by decide, by decide, (by decide : NoSplitPair (str "call_tool")), by decide,
      (by decide : NoSplitPair (str "search_listings")), by decide, ⟨List.nodup_nil, trivial⟩, trivial⟩,
    ⟨by decide, by decide, (by decide : NoSplitPair (str "final")), by decide,
      (by decide : NoSplitPair (str "None.")), trivial⟩⟩

/-- The loop at its start, after the search has found nothing, and after it was asked for again. -/
def searchStart : LoopState FloatLiteral where
  messages := [⟨.system, str "You sell cars." ++ str "\n\n" ++
    loopInstructions (toolDescriptions deskSales)⟩, ⟨.user, "Any SUV?"⟩]

def searchedOnce : LoopState FloatLiteral :=
  @recordResult _ _ asciiUnicode ⟨"small", deskSales, 800, 0⟩
    (searchStart.append .assistant (dumps (.object searchDecision))) (.string "search_listings")
    (.object []) (.array [])

def searchedTwice : LoopState FloatLiteral :=
  observe ((searchedOnce.append .assistant (dumps (.object searchDecision))).record
    (.string "search_listings") (.object []) (.cached (.array [])))
    [("tool", .string "search_listings"), ("result", .string "[] (zero results)"),
      ("note", .string memoizedNote)]

def emptyResult : CallToolResult FloatLiteral where
  structuredContent := some [("result", .array [])]

/-- The requests of the loop, with their answers. -/
def repeatTrace : Trace FloatLiteral :=
  [⟨.complete searchStart.messages "small", .ok (dumps (.object searchDecision))⟩,
    ⟨.callTool "search_listings" (.object []), .ok emptyResult⟩,
    ⟨.complete searchedOnce.messages "small", .ok (dumps (.object searchDecision))⟩,
    ⟨.complete searchedTwice.messages "small", .ok (dumps (.object noneDecision))⟩]

theorem repeatTrace_runs {budget : Int}
    (hstart : ¬ budget ≤ estimateMessagesTokens searchStart.messages)
    (honce : ¬ budget ≤ estimateMessagesTokens searchedOnce.messages)
    (htwice : ¬ budget ≤ estimateMessagesTokens searchedTwice.messages) :
    Runs (@runToolLoop _ _ asciiUnicode deskRunner.settings "small" deskSales "You sell cars."
      "Any SUV?" maxIterations none (some budget)) repeatTrace
      (.ok { finalAnswer := .string "None.", toolCalls := searchedTwice.toolCalls }) := by
  let _ := asciiUnicode
  have hsearch := loads_dumps regular_decisions.1
  have hbound : str "search_listings" ∈ deskSales.allowedTools := by decide
  have hcached : searchedOnce.callCache.lookup
      (cacheKey (.string "search_listings") (.object [])) = some (.array []) :=
    List.lookup_cons_self
  have hfound : CallRun ⟨"small", deskSales, 800, budget⟩
      (searchStart.append .assistant (dumps (.object searchDecision)))
      (.string "search_listings") (.object [])
      [⟨.callTool "search_listings" (.object []), .ok emptyResult⟩] (.ok searchedOnce) :=
    .result (.array []) rfl (callTool_runs hbound rfl)
  have hagain : CallRun ⟨"small", deskSales, 800, budget⟩
      (searchedOnce.append .assistant (dumps (.object searchDecision)))
      (.string "search_listings") (.object []) [] (.ok searchedTwice) :=
    .repeated (.array []) hcached
  have hfirst : IterationRun ⟨"small", deskSales, 800, budget⟩ searchStart
      [⟨.complete searchStart.messages "small", .ok (dumps (.object searchDecision))⟩,
        ⟨.callTool "search_listings" (.object []), .ok emptyResult⟩] (.ok (.inl searchedOnce)) :=
    .callTool _ searchDecision hstart readable_decisions.1 hsearch rfl rfl hfound
  have hsecond : IterationRun ⟨"small", deskSales, 800, budget⟩ searchedOnce
      [⟨.complete searchedOnce.messages "small", .ok (dumps (.object searchDecision))⟩]
      (.ok (.inl searchedTwice)) :=
    .callTool _ searchDecision honce readable_decisions.1 hsearch rfl rfl hagain
  have hthird : IterationRun ⟨"small", deskSales, 800, budget⟩ searchedTwice
      [⟨.complete searchedTwice.messages "small", .ok (dumps (.object noneDecision))⟩]
      (.ok (.inr { finalAnswer := .string "None.", toolCalls := searchedTwice.toolCalls })) :=
    .final _ noneDecision htwice readable_decisions.2 (loads_dumps regular_decisions.2) rfl
  exact hfirst.runs.loop_next (hsecond.runs.loop_next hthird.runs.loop_exit)

/-- The second call is answered from the first, and the tool is invoked for the first only. -/
theorem repeatTrace_memoized :
    @Memoized _ _ asciiUnicode deskSales 800 [] repeatTrace searchedTwice.toolCalls ∧
      searchedTwice.toolCalls.map ToolCall.isCached = [false, true] := by
  let _ := asciiUnicode
  obtain ⟨hsearch, hnone⟩ := regular_decisions
  have hsum : ∀ a b c : Nat, ¬ (a + b + c + 1 : Int) ≤ a ∧ ¬ (a + b + c + 1 : Int) ≤ b ∧
      ¬ (a + b + c + 1 : Int) ≤ c := by
    omega
  obtain ⟨hstart, honce, htwice⟩ := hsum (estimateMessagesTokens searchStart.messages)
    (estimateMessagesTokens searchedOnce.messages) (estimateMessagesTokens searchedTwice.messages)
  refine ⟨runToolLoop_memoized (r := ⟨_, _, _, _, _⟩) (fun ev hev => ?_) (fun ev hev => ?_)
    (repeatTrace_runs hstart honce htwice), rfl⟩
  · simp only [repeatTrace, List.mem_cons, List.not_mem_nil, or_false] at hev
    rcases hev with rfl | rfl | rfl | rfl
    · exact fun decision hl => (normalized_dumps hsearch rfl readable_decisions.1).regular hl
    · trivial
    · exact fun decision hl => (normalized_dumps hsearch rfl readable_decisions.1).regular hl
    · exact fun decision hl => (normalized_dumps hnone rfl readable_decisions.2).regular hl
  · simp only [repeatTrace, List.mem_cons, List.not_mem_nil, or_false] at hev
    rcases hev with rfl | rfl | rfl | rfl
    · trivial
    · intro v hv
      cases hv
      exact ⟨_, rfl⟩
    · trivial
    · trivial

end DealershipAgent
