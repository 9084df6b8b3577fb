import DealershipAgent.Agents.ToolLoopSpec

/-!
# The history of a tool loop

* `Observed`: the messages after a decision to call a tool, with the bound on its observation.
* `iteration_observed`: what an iteration that goes on does to the messages.
* `loop_history_bounded`: in a run each list of messages sent is under the budget and the one before it
  with the completion and one observation added, and observations are bounded by the settings.
-/

namespace DealershipAgent

open Py Json Interact

section History

variable {F : Type} [PyFloat F]

/-- What bounds the message on a call of the tool, whatever the call gives. -/
def observationLimit (maxObservationChars : Int) (toolName : Json F) : Nat :=
  4000 + (dumps toolName).length + 12 * (maxObservationChars.toNat + 17)

/-- The messages after the completion `raw`, a decision to call a tool. -/
def Observed (F : Type) [PyFloat F] (maxObservationChars : Int) (messages : List Message) (raw : Str)
    (messages' : List Message) : Prop :=
  ∃ (decision : List (Str × Json F)) (observation : Str), loads raw = some (.object decision) ∧
    messages' = messages ++ [⟨.assistant, raw⟩, ⟨.user, observation⟩] ∧
    observation.length ≤ observationLimit maxObservationChars (dictGet decision "tool")

/-- The completions asked for, in their order. -/
def completionsOf (tr : Trace F) : Trace F :=
  tr.filter fun ev =>
    match ev.req with
    | .complete _ _ => true
    | .callTool _ _ => false

/-- The second completion is asked for after the observation on the first. -/
def AskedAfter (maxObservationChars : Int) : Event (Request F) Answer → Event (Request F) Answer → Prop
  | ⟨.complete messages _, .ok raw⟩, ⟨.complete messages' _, _⟩ =>
    Observed F maxObservationChars messages raw messages'
  | _, _ => False

/-- The completions of a loop that starts with these messages. -/
structure BoundedHistory (maxObservationChars tokenBudget : Int) (messages : List Message)
    (tr : Trace F) : Prop where
  first : ∀ ev, (completionsOf tr).head? = some ev → ∃ model x, ev = ⟨.complete messages model, x⟩
  budget : ∀ messages model x, ⟨.complete messages model, x⟩ ∈ tr →
    (estimateMessagesTokens messages : Int) < tokenBudget
  chain : (completionsOf tr).IsChain (AskedAfter maxObservationChars)

variable [Unicode] {cfg : LoopConfig F} {st : LoopState F} {tr : Trace F}

/-! ## Observations -/

omit [Unicode] in
/-- The members of an object that come after the tool's name, all strings, and what they add. -/
theorem length_dumps_tool_le (toolName : Json F) (texts : List (Str × Str)) :
    (dumps (.object ((str "tool", toolName) :: texts.map fun kv => (kv.1, .string kv.2)))).length ≤
      (dumps toolName).length + 12 + (texts.map fun kv => 12 * (kv.1.length + kv.2.length) + 8).sum := by
  have hmembers : ∀ texts : List (Str × Str),
      (((dumpMembers false (texts.map fun kv => (kv.1, (.string kv.2 : Json F)))).map
        fun kv => dumpString kv.1 ++ str ": " ++ kv.2).map fun t => t.length + (str ", ").length).sum ≤
      (texts.map fun kv => 12 * (kv.1.length + kv.2.length) + 8).sum := by
    intro texts
    induction texts with
    | nil => exact Nat.le_refl 0
    | cons kv texts ih =>
      have hkey := length_dumpString_le kv.1
      have hvalue := length_dumpString_le kv.2
      have hseps : (str ": ").length = 2 ∧ (str ", ").length = 2 := by decide
      simp only [List.map_cons, List.sum_cons, dumpMembers, dumpsWith, List.length_append] at ih ⊢
      omega
  have hjoin := length_join_le (str ", ") ((dumpMembers false ((str "tool", toolName) ::
    texts.map fun kv => (kv.1, (.string kv.2 : Json F)))).map
      fun kv => dumpString kv.1 ++ str ": " ++ kv.2)
  have hconst : (str "\x7b").length = 1 ∧ (str "\x7d").length = 1 ∧ (str ": ").length = 2 ∧
      (str ", ").length = 2 ∧ (dumpString "tool").length = 6 := by decide
  have hrest := hmembers texts
  simp only [dumpMembers, List.map_cons, List.sum_cons, List.length_append] at hjoin
  simp only [dumps, dumpsWith, List.length_append, Bool.false_eq_true, if_false, dumpMembers,
    List.map_cons]
  omega

omit [PyFloat F] [Unicode] in
theorem length_memoizedNote_le : memoizedNote.length ≤ 300 := by
  refine length_text_le (n := 100) ?_
  repeat' first
    | exact List.forall_mem_nil _
    | refine List.forall_mem_cons.mpr ⟨length_str_le _ rfl (by decide), ?_⟩

omit [Unicode] in
/-- The message on a call whose text is `s`, with or without the note. -/
theorem length_observation_le {toolName : Json F} {maxChars : Int} (key s : Str)
    (note : List (Str × Str)) (hkey : key.length ≤ 6) (hs : s.length ≤ maxChars.toNat + 17)
    (hnote : note = [] ∨ note = [(str "note", memoizedNote)]) :
    (str "Tool observation: " ++ dumps (.object ((str "tool", toolName) ::
      ((key, s) :: note).map fun kv => (kv.1, .string kv.2)))).length ≤
      observationLimit maxChars toolName := by
  have hdumps := length_dumps_tool_le toolName ((key, s) :: note)
  have hlabel : (str "Tool observation: ").length = 18 ∧ (str "note").length = 4 := by decide
  have hmemoized := length_memoizedNote_le
  unfold observationLimit
  rw [List.length_append]
  rcases hnote with rfl | rfl
  · simp only [List.map_cons, List.map_nil, List.sum_cons, List.sum_nil] at hdumps ⊢
    omega
  · simp only [List.map_cons, List.map_nil, List.sum_cons, List.sum_nil] at hdumps ⊢
    omega

/-- A decision to call a tool adds one message, a bounded observation. -/
theorem callRun_observed {toolName arguments : Json F} {st' : LoopState F}
    (h : CallRun cfg st toolName arguments tr (.ok st')) (hmax : 0 ≤ cfg.maxObservationChars) :
    ∃ observation, st'.messages = st.messages ++ [⟨.user, observation⟩] ∧
      observation.length ≤ observationLimit cfg.maxObservationChars toolName := by
  have herror : ∀ (st : LoopState F) (e : Exc), ∃ observation,
      (recordError cfg st toolName arguments e).messages = st.messages ++ [⟨.user, observation⟩] ∧
        observation.length ≤ observationLimit cfg.maxObservationChars toolName := fun st e =>
    ⟨_, rfl, length_observation_le "error" _ [] (by decide)
      ((length_truncate_le hmax).trans (Nat.add_le_add_left (by decide) _)) (.inl rfl)⟩
  generalize hout : (Except.ok st' : Except Raised _) = out at h
  cases h with
  | repeated result hl =>
    have hst := mapError_eq_ok.mp hout.symm
    unfold repeatCall at hst
    cases hc : compactToolResult result cfg.maxObservationChars with
    | error e => rw [hc] at hst; cases hst
    | ok s =>
      rw [hc] at hst
      cases hst
      exact ⟨_, rfl, length_observation_le "result" _ [(str "note", memoizedNote)]
        (by decide) (length_compactToolResult_le hmax hc) (.inr rfl)⟩
  | failed e hl hrun =>
    cases hout
    exact herror st e.exc
  | result result hl hrun =>
    cases hout
    unfold recordResult
    cases hc : compactToolResult result cfg.maxObservationChars with
    | error e => exact herror _ e
    | ok s =>
      exact ⟨_, rfl, length_observation_le "result" _ [] (by decide)
        (length_compactToolResult_le hmax hc) (.inl rfl)⟩

omit [PyFloat F] [Unicode] in
theorem completionsOf_append (tr tr' : Trace F) :
    completionsOf (tr ++ tr') = completionsOf tr ++ completionsOf tr' :=
  List.filter_append ..

/-- A tool call asks for no completion. -/
theorem callRun_completions {toolName arguments : Json F} {out : Except Raised (LoopState F)}
    (h : CallRun cfg st toolName arguments tr out) : completionsOf tr = [] := by
  have hcall : ∀ {tr : Trace F} {o}, Runs (cfg.agent.callTool toolName arguments) tr o →
      completionsOf tr = [] := by
    intro tr o hrun
    rcases runs_callTool hrun with ⟨e, rfl, -⟩ | ⟨name, -, -, x, rfl, -⟩
    · rfl
    · rfl
  cases h with
  | repeated result hl => rfl
  | failed e hl hrun => exact hcall hrun
  | result result hl hrun => exact hcall hrun

/-- An iteration that goes on has sent the messages, got a decision to call a tool and observed it. -/
theorem iteration_observed {st' : LoopState F} (h : IterationRun cfg st tr (.ok (.inl st')))
    (hmax : 0 ≤ cfg.maxObservationChars) :
    ∃ raw rest, tr = ⟨.complete st.messages cfg.model, .ok raw⟩ :: rest ∧ completionsOf rest = [] ∧
      Observed F cfg.maxObservationChars st.messages raw st'.messages := by
  generalize ho : (Except.ok (Sum.inl st') : Except Raised _) = out at h
  cases h with
  | @callTool raw decision rest o hb hread hl hf hc hcall =>
    cases o with
    | error e => cases ho
    | ok st'' =>
      cases ho
      obtain ⟨observation, hmessages, hlength⟩ := callRun_observed hcall hmax
      refine ⟨raw, rest, rfl, callRun_completions hcall, decision, observation, hl, ?_, hlength⟩
      rw [hmessages, LoopState.append, List.append_assoc]
      rfl
  | _ => cases ho

/-- The completions of an iteration: none when the budget is used up, else one, with the messages. -/
theorem iteration_completions {out : Except Raised (LoopState F ⊕ ToolLoopResult F)}
    (h : IterationRun cfg st tr out) :
    completionsOf tr = [] ∨ (estimateMessagesTokens st.messages : Int) < cfg.tokenBudget ∧
      ∃ x, completionsOf tr = [⟨.complete st.messages cfg.model, x⟩] := by
  cases h with
  | budget hb => exact .inl rfl
  | llmFailed e hb => exact .inr ⟨by omega, _, rfl⟩
  | unparseable raw hb hread hl => exact .inr ⟨by omega, _, rfl⟩
  | overLimit raw e hb hlimit => exact .inr ⟨by omega, _, rfl⟩
  | notObject raw v e hb hread hl ha => exact .inr ⟨by omega, _, rfl⟩
  | final raw decision hb hread hl hfinal => exact .inr ⟨by omega, _, rfl⟩
  | unknownAction raw decision hb hread hl hf hc => exact .inr ⟨by omega, _, rfl⟩
  | callTool raw decision hb hread hl hf hc hcall =>
    refine .inr ⟨by omega, .ok raw, ?_⟩
    rw [← callRun_completions hcall]
    rfl

/-! ## The history of a run -/

section Rules

variable {maxChars budget : Int} {messages messages' : List Message} {tr' : Trace F}

omit [PyFloat F] [Unicode] in
theorem mem_completionsOf {messages : List Message} {model : Str} {x : Except Exc Str} :
    ⟨.complete messages model, x⟩ ∈ completionsOf tr ↔ ⟨.complete messages model, x⟩ ∈ tr := by
  simp [completionsOf]

omit [Unicode] in
theorem BoundedHistory.none (h : completionsOf tr = []) : BoundedHistory maxChars budget messages tr where
  first ev hev := by rw [h] at hev; cases hev
  budget messages model x hm := by rw [← mem_completionsOf, h] at hm; cases hm
  chain := by rw [h]; exact .nil

omit [Unicode] in
theorem BoundedHistory.single {model : Str} {x : Except Exc Str}
    (h : completionsOf tr = [⟨.complete messages model, x⟩])
    (hb : (estimateMessagesTokens messages : Int) < budget) :
    BoundedHistory maxChars budget messages tr where
  first ev hev := by
    rw [h] at hev
    exact ⟨model, x, (Option.some.inj hev).symm⟩
  budget messages model x hm := by
    rw [← mem_completionsOf, h] at hm
    cases List.mem_singleton.mp hm
    exact hb
  chain := by rw [h]; exact .singleton _

omit [Unicode] in
/-- A completion that decides to call a tool goes before a history after its observation. -/
theorem BoundedHistory.cons {model raw : Str}
    (h : completionsOf tr = [⟨.complete messages model, .ok raw⟩])
    (hb : (estimateMessagesTokens messages : Int) < budget)
    (ho : Observed F maxChars messages raw messages')
    (h' : BoundedHistory maxChars budget messages' tr') :
    BoundedHistory maxChars budget messages (tr ++ tr') where
  first ev hev := by
    rw [completionsOf_append, h] at hev
    exact ⟨model, .ok raw, (Option.some.inj hev).symm⟩
  budget messages model x hm := by
    rw [← mem_completionsOf, completionsOf_append, h] at hm
    rcases List.mem_cons.mp hm with hm | hm
    · cases hm
      exact hb
    · exact h'.budget messages model x (mem_completionsOf.mp hm)
  chain := by
    rw [completionsOf_append, h]
    cases hrest : completionsOf tr' with
    | nil => exact .singleton _
    | cons ev rest =>
      obtain ⟨model', x, rfl⟩ := h'.first ev (by rw [hrest]; rfl)
      exact List.isChain_cons_cons.mpr ⟨ho, hrest ▸ h'.chain⟩

end Rules

/-- In every run of the loop each list of messages sent is under the budget; the first is the prompt and
the query, and each other one is the one before it with the completion and one observation. Every
iteration that goes on adds these two messages, and the observation is bounded by the settings and the
name of the tool, whatever the tool has given. -/
theorem loop_history_bounded {settings : Settings} {model : Str} {agent : SubAgent F}
    {systemPrompt userQuery : Str} {maxIterations : Int} {maxObservationChars tokenBudget : Option Int}
    (hmax : 0 ≤ maxObservationChars.getD settings.loopObservationMaxChars) :
    (∀ tr out, Runs (runToolLoop settings model agent systemPrompt userQuery maxIterations
        maxObservationChars tokenBudget) tr out →
      BoundedHistory (maxObservationChars.getD settings.loopObservationMaxChars)
        (tokenBudget.getD settings.loopTokenBudget)
        [⟨.system, systemPrompt ++ str "\n\n" ++ loopInstructions (toolDescriptions agent)⟩,
          ⟨.user, userQuery⟩] tr) ∧
    ∀ (cfg : LoopConfig F) (st st' : LoopState F) tr, 0 ≤ cfg.maxObservationChars →
      Runs (iteration cfg st) tr (.ok (.inl st')) →
      ∃ raw, ⟨.complete st.messages cfg.model, .ok raw⟩ ∈ tr ∧
        Observed F cfg.maxObservationChars st.messages raw st'.messages := by
  refine ⟨fun tr out h => ?_, fun cfg st st' tr hmax h => ?_⟩
  · refine runs_loop_from (I := fun _ => True) (Q := fun _ => True)
      (P := fun st tr _ => BoundedHistory _ _ st.messages tr) (fun st _ => .none rfl)
      (fun st tr r _ _ hrun => ?_) (fun st tr e _ _ hrun => ?_)
      (fun st tr st' _ _ hrun => ⟨trivial, fun tr' out h' => ?_⟩) trivial (fun _ _ => trivial) h
    · rcases iteration_completions (runs_iteration hrun) with h | ⟨hb, x, h⟩
      · exact .none h
      · exact .single h hb
    · rcases iteration_completions (runs_iteration hrun) with h | ⟨hb, x, h⟩
      · exact .none h
      · exact .single h hb
    · obtain ⟨raw, rest, rfl, hrest, hobserved⟩ := iteration_observed (runs_iteration hrun) hmax
      have hone : completionsOf (⟨.complete st.messages model, .ok raw⟩ :: rest : Trace F) =
          [⟨.complete st.messages model, .ok raw⟩] := by
        rw [← hrest]
        rfl
      rcases iteration_completions (runs_iteration hrun) with h | ⟨hb, -⟩
      · cases h
      · exact .cons hone hb hobserved h'
  · obtain ⟨raw, rest, rfl, -, hobserved⟩ := iteration_observed (runs_iteration h) hmax
    exact ⟨raw, List.mem_cons_self, hobserved⟩

end History

theorem searchLoop_history : BoundedHistory 800 searchBudget searchMessages
    (searchLoop [searchReply, [], finalReply]).1 :=
  (@loop_history_bounded FloatText _ asciiUnicode ⟨"small", "large", 800, 4000⟩ "small" searchAgent
    "You sell cars." "Any SUV?" maxIterations none (some searchBudget) (by decide)).1 _ _
    (searchLoop_runs _)

end DealershipAgent
