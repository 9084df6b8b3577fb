import DealershipAgent.Agents.Turn

/-!
# Turns of two customers

* `withIdentity`: a state with another identity in it. No node and no edge sees the difference as long
  as somebody is authenticated in both (`runs_run_withIdentity`).
* `prompts_identity_free`: two turns on the same messages, with two authenticated identities and with
  the LLM and the tools the same functions, send the same prompts and end the same.
-/

namespace DealershipAgent

open Py Json Interact

section IdentityFree

variable {F : Type}

/-- The state with the session `sessionId` and, if a customer is authenticated, `customerId`. -/
def GraphState.withIdentity (sessionId : Str) (customerId : Int) (st : GraphState F) :
    GraphState F :=
  { st with identity := ⟨sessionId, st.identity.customerId.map fun _ => customerId⟩ }

variable [PyFloat F] [Unicode] {settings : Settings} {salesAgent accountAgent : SubAgent F}
  {sessionId : Str} {customerId : Int}

/-- A node reads of the identity only whether a customer is authenticated. -/
theorem node_withIdentity (m : Node) (st : GraphState F) :
    (buildSupervisorGraph settings salesAgent accountAgent).node m
        (st.withIdentity sessionId customerId) =
      (buildSupervisorGraph settings salesAgent accountAgent).node m st := by
  cases m with
  | escalate =>
    change escalateNode accountAgent (st.withIdentity sessionId customerId) =
      escalateNode accountAgent st
    have hnone : (st.withIdentity sessionId customerId).identity.customerId = none ↔
        st.identity.customerId = none := Option.map_eq_none_iff
    have hrequest : escalationRequest (st.withIdentity sessionId customerId) =
        escalationRequest st := rfl
    unfold escalateNode
    rw [hrequest]
    by_cases hc : st.identity.customerId = none
    · simp only [hc, hnone.mpr hc, if_true]
    · simp only [hc, mt hnone.mp hc, if_false]
  | _ => rfl

/-- The edges do not read the identity. -/
theorem next_withIdentity (m : Node) (st : GraphState F) :
    (buildSupervisorGraph settings salesAgent accountAgent).next m
        (st.withIdentity sessionId customerId) =
      (buildSupervisorGraph settings salesAgent accountAgent).next m st := by
  cases m <;> rfl

/-- A turn of another authenticated customer differs in the identity of the last state only. -/
theorem runTurn_withIdentity (runner : Runner F) (sched : Nat → Nat → Nat → Bool) (s s' : Str)
    (c c' : Int) (messages : List Message) :
    runTurn runner sched ⟨s', some c'⟩ messages =
      (fun x => (x.1, x.2.withIdentity s' c')) <$>
        runTurn runner sched ⟨s, some c⟩ messages := by
  have hstart : initialState (F := F) ⟨s', some c'⟩ messages =
      (initialState ⟨s, some c⟩ messages).withIdentity s' c' := rfl
  unfold runTurn
  simp only [hstart, map_bind]
  refine bind_congr fun salesAgent => bind_congr fun accountAgent => ?_
  exact Graph.run_map node_withIdentity next_withIdentity fun st u => rfl

/-- In a function's environment a turn that returns does so under every schedule. -/
theorem runTurn_det {runner : Runner F} {sched sched' : Nat → Nat → Nat → Bool}
    {identity : RequestIdentity} {messages : List Message} {f : (r : Node × Request F) → Answer r.2}
    {tr tr' : TurnTrace F} {x : List Node × GraphState F}
    {out : Except Raised (List Node × GraphState F)}
    (h : Runs (runTurn runner sched identity messages) tr (.ok x))
    (h' : Runs (runTurn runner sched' identity messages) tr' out) (hc : Consistent f tr)
    (hc' : Consistent f tr') :
    out = .ok x ∧ ∀ node, Graph.eventsOf node tr = Graph.eventsOf node tr' := by
  obtain ⟨salesAgent, accountAgent, hs, ha, -⟩ := turn_returns h
  rw [runTurn_eq hs ha] at h h'
  exact Graph.run_det (List.nodup_singleton _) h h' hc hc'

/-- What a turn shows: the nodes visited, the response and whether it is degraded, and why. -/
def shown (x : List Node × GraphState F) : List Node × Json F × Bool × List Str :=
  (x.1, x.2.finalResponse, x.2.degraded, x.2.degradationReasons)

/-- The message lists that a node sends to the LLM, in order. -/
def promptsOf (node : Node) (tr : TurnTrace F) : List (List Message) :=
  (Graph.eventsOf node tr).filterMap fun ev =>
    match ev.req.2 with
    | .complete messages _ => some messages
    | .callTool _ _ => none

/-- A turn that returns is shown, and prompts, as the turn of any other authenticated customer under
any schedule. -/
theorem shown_of_returns {runner : Runner F} {sched sched' : Nat → Nat → Nat → Bool}
    {s s' : Str} {c c' : Int} {messages : List Message} {f : (r : Node × Request F) → Answer r.2}
    {tr tr' : TurnTrace F} {x : List Node × GraphState F}
    {out : Except Raised (List Node × GraphState F)}
    (h : Runs (runTurn runner sched ⟨s, some c⟩ messages) tr (.ok x))
    (h' : Runs (runTurn runner sched' ⟨s', some c'⟩ messages) tr' out) (hc : Consistent f tr)
    (hc' : Consistent f tr') :
    (∀ node, promptsOf node tr = promptsOf node tr') ∧ out.map shown = .ok (shown x) := by
  rw [runTurn_withIdentity runner sched' s s' c c' messages] at h'
  obtain ⟨o, hrun, rfl⟩ := runs_map.mp h'
  obtain ⟨rfl, hev⟩ := runTurn_det h hrun hc hc'
  refine ⟨fun node => ?_, rfl⟩
  unfold promptsOf
  rw [hev]

/-- Turns of two authenticated customers end alike. Under one schedule they make the same requests,
also when they raise. Under any two schedules, when one of them returns, every node sends the same
prompts and the response is the same. -/
theorem prompts_identity_free {runner : Runner F} {sched sched' : Nat → Nat → Nat → Bool}
    {identity identity' : RequestIdentity} {messages : List Message}
    {f : (r : Request F) → Answer r} {tr tr' : TurnTrace F}
    {out out' : Except Raised (List Node × GraphState F)}
    (hid : identity.customerId ≠ none) (hid' : identity'.customerId ≠ none)
    (h : Runs (runTurn runner sched identity messages) tr out)
    (h' : Runs (runTurn runner sched' identity' messages) tr' out')
    (hc : Consistent (fun r : Node × Request F => f r.2) tr)
    (hc' : Consistent (fun r : Node × Request F => f r.2) tr') :
    (sched = sched' → tr = tr' ∧ out.map shown = out'.map shown) ∧
    ((∃ x, out = .ok x ∨ out' = .ok x) → (∀ node, promptsOf node tr = promptsOf node tr') ∧
      out.map shown = out'.map shown) := by
  obtain ⟨s, _ | c⟩ := identity
  · exact absurd rfl hid
  obtain ⟨s', _ | c'⟩ := identity'
  · exact absurd rfl hid'
  refine ⟨fun hs => ?_, ?_⟩
  · subst hs
    rw [runTurn_withIdentity runner sched s s' c c' messages] at h'
    obtain ⟨o, hrun, rfl⟩ := runs_map.mp h'
    obtain ⟨rfl, rfl⟩ := h.det hrun hc hc'
    cases out <;> exact ⟨rfl, rfl⟩
  · rintro ⟨x, rfl | rfl⟩
    · obtain ⟨hprompts, hshown⟩ := shown_of_returns h h' hc hc'
      exact ⟨hprompts, hshown.symm⟩
    · obtain ⟨hprompts, hshown⟩ := shown_of_returns h' h hc' hc
      exact ⟨fun node => (hprompts node).symm, hshown⟩

end IdentityFree

/-! ## A turn on fixed answers -/

/-- The router, which sends two messages, is told to escalate; the tools work. -/
def deskAnswers : (r : Request FloatText) → Answer r
  | .complete messages _ => .ok (if messages.length = 2
      then "\x7b\"routes\": [\"escalate\"]\x7d" else "Please come to our desk.")
  | .callTool _ _ => .ok { structuredContent := some [("status", .string "open")] }

/-- A turn on the message "Help!". -/
def deskTurn (sched : Nat → Nat → Nat → Bool) (identity : RequestIdentity) :
    TurnTrace FloatText × Except Raised (List Node × GraphState FloatText) :=
  exec (Env.const fun r => deskAnswers r.2) [] (@runTurn FloatText _ asciiUnicode shopRunner sched
    identity [⟨.user, "Help!"⟩])

theorem deskTurn_path :
    (deskTurn (fun _ _ _ => true) ⟨"s-1", some 1⟩).2.map (fun x => x.1) =
      .ok [.intake, .router, .escalate, .synthesis, .verifyClaims] := by
  decide +kernel

theorem deskTurn_identity_free :
    (∀ node, promptsOf node (deskTurn (fun _ _ _ => true) ⟨"s-1", some 1⟩).1 =
      promptsOf node (deskTurn (fun _ _ _ => false) ⟨"s-2", some 2⟩).1) ∧
    (deskTurn (fun _ _ _ => true) ⟨"s-1", some 1⟩).2.map shown =
      (deskTurn (fun _ _ _ => false) ⟨"s-2", some 2⟩).2.map shown := by
  let _ := asciiUnicode
  have hpath := deskTurn_path
  refine (prompts_identity_free (f := deskAnswers) (by simp) (by simp) (exec_runs _ _ _)
    (exec_runs _ _ _) (exec_const_consistent _ _ _) (exec_const_consistent _ _ _)).2 ?_
  cases hout : (deskTurn (fun _ _ _ => true) ⟨"s-1", some 1⟩).2 with
  | error e => rw [hout] at hpath; cases hpath
  | ok x => exact ⟨x, .inl hout⟩

end DealershipAgent
