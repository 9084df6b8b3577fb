import DealershipAgent.Agents.FinalResponse
import DealershipAgent.Agents.ProviderFailure

/-!
# What the router makes of a reply

* `RouterAccepts`: the router returns an update of the declared shape.
* `router_accepts_iff`: it does so exactly when the reply goes over no limit of `json.loads`, and is no
  JSON or an object with routes that a set can hold and fields that are strings or null.
-/

namespace DealershipAgent

open Py Json Interact

section Router

variable {F : Type}

/-- The router returns: with routes that stand as `GraphState` declares them, and with a string or
`None` in each of the four fields that it forwards. -/
def RouterAccepts (out : Except Raised (StateUpdate F)) : Prop :=
  ∃ (u : StateUpdate F) (routes : List Route), out = .ok u ∧ u.routes = some routes ∧ routes ≠ [] ∧
    (.clarify ∈ routes → routes = [.clarify]) ∧ (.escalate ∈ routes → routes = [.escalate]) ∧
    ∀ field ∈ [u.orderRef, u.clarifyQuestion, u.escalateSummary, u.escalateReason],
      ∃ v, field = some v ∧ NullOrString v

/-- No list or object is among the elements of a list. -/
def HashableElements (v : Json F) : Prop := ∀ vs, v = .array vs → ∀ r ∈ vs, isUnhashable r = false

/-- The routes are refused, which makes them `["clarify"]`. -/
def RefusedRoutes (v : Json F) : Prop := readRoutes v = .ok none

variable [PyFloat F]

/-- The routes are ones that a set can hold, and the fields are strings or null; a falsy question is
replaced where the routes are refused. -/
structure DecisionReads (decision : List (Str × Json F)) : Prop where
  routes : HashableElements (dictGet decision "routes")
  orderRef : NullOrString (dictGet decision "order_ref")
  clarifyQuestion : NullOrString (dictGet decision "clarify_question") ∨
    (dictGet decision "clarify_question").truthy = false ∧ RefusedRoutes (dictGet decision "routes")
  escalateSummary : NullOrString (dictGet decision "escalate_summary")
  escalateReason : NullOrString (dictGet decision "escalate_reason")

/-- The reply goes over no limit, and is no JSON or an object that reads as a decision. -/
def RouterReads (F : Type) [PyFloat F] (raw : Str) : Prop :=
  Readable F raw ∧
    ∀ v : Json F, loads raw = some v → ∃ decision, v = .object decision ∧ DecisionReads decision

omit [PyFloat F] in
/-- The routes of a decision can be read exactly when a set can hold them. -/
theorem readRoutes_ok_iff {v : Json F} : (∃ r, readRoutes v = .ok r) ↔ HashableElements v := by
  unfold readRoutes
  split
  · refine ⟨fun _ vs hvs r hr => ?_, fun _ => ⟨_, rfl⟩⟩
    cases hvs
    cases hr
  · next vs _ =>
    cases hf : vs.find? isUnhashable with
    | some w =>
      simp only [reduceCtorEq, exists_const, false_iff]
      intro h
      have := h vs rfl w (List.mem_of_find?_eq_some hf)
      rw [List.find?_some hf] at this
      cases this
    | none =>
      refine ⟨fun _ ws hws r hr => ?_, fun _ => ?_⟩
      · cases hws
        simpa using List.find?_eq_none.mp hf r hr
      · cases vs.mapM validRoute with
        | none => exact ⟨_, rfl⟩
        | some routes => exact ⟨_, rfl⟩
  · next v hnil harr => exact ⟨fun _ vs hvs => absurd hvs (harr vs), fun _ => ⟨_, rfl⟩⟩

/-- An exclusive route among accepted routes is the only one. -/
theorem exclusiveRoutes_alone {routes : List Route} {r : Route} (hx : exclusiveRoutes routes = true)
    (hr : r = .clarify ∨ r = .escalate) (hmem : r ∈ routes) : routes = [r] := by
  have hlen : ¬ 1 < routes.length := by
    intro hl
    rcases hr with rfl | rfl <;> simp [exclusiveRoutes, hmem, hl] at hx
  cases routes with
  | nil => cases hmem
  | cons r' rs =>
    cases rs with
    | nil => rw [List.mem_singleton.mp hmem]
    | cons r'' rs => exact absurd (by simp) hlen

/-- A question in the place of a falsy one. -/
theorem nullOrString_orElse {v : Json F} {s : Str} :
    NullOrString (v.orElse (.string s)) ↔ NullOrString v ∨ v.truthy = false := by
  unfold orElse
  by_cases hv : v.truthy = true
  · rw [if_pos hv]
    simp [hv]
  · rw [if_neg hv]
    simp [NullOrString, hv]

variable [Unicode] {settings : Settings} {st : GraphState F} {decision : List (Str × Json F)}

/-- The update for a decision is accepted exactly when its fields are. -/
theorem routerUpdate_accepts_iff {routes : Option (List Route)} {content : Str}
    (hr : readRoutes (dictGet decision "routes") = .ok routes) :
    RouterAccepts (.ok (routerUpdate decision routes content)) ↔ DecisionReads decision := by
  have hroutes : routes.getD [.clarify] ≠ [] ∧ exclusiveRoutes (routes.getD [.clarify]) = true := by
    cases routes with
    | none => exact ⟨by simp, rfl⟩
    | some rs => exact readRoutes_some hr
  have hquestion : (∃ v, (routerUpdate decision routes content).clarifyQuestion = some v ∧
      NullOrString v) ↔ (NullOrString (dictGet decision "clarify_question") ∨
        (dictGet decision "clarify_question").truthy = false ∧
          RefusedRoutes (dictGet decision "routes")) := by
    unfold RefusedRoutes
    rw [hr]
    cases routes with
    | none =>
      simp only [routerUpdate, Option.some.injEq, exists_eq_left', nullOrString_orElse, and_true]
    | some rs => simp [routerUpdate]
  unfold RouterAccepts
  simp only [List.forall_mem_cons]
  constructor
  · rintro ⟨u, rs, hu, -, -, -, -, ⟨v, hv, hs⟩, hq, ⟨v', hv', hs'⟩, ⟨v'', hv'', hs''⟩, -⟩
    cases hu
    cases hv
    cases hv'
    cases hv''
    exact ⟨readRoutes_ok_iff.mp ⟨routes, hr⟩, hs, hquestion.mp hq, hs', hs''⟩
  · rintro ⟨-, hs, hq, hs', hs''⟩
    exact ⟨_, _, rfl, rfl, hroutes.1, exclusiveRoutes_alone hroutes.2 (.inl rfl),
      exclusiveRoutes_alone hroutes.2 (.inr rfl), ⟨_, rfl, hs⟩, hquestion.mpr hq, ⟨_, rfl, hs'⟩,
      ⟨_, rfl, hs''⟩, by simp⟩

/-! ## Every reply -/

omit [PyFloat F] [Unicode] in
theorem lastContent_of_ne_nil {messages : List Message} (h : messages ≠ []) :
    ∃ content, lastContent messages = .ok content := by
  unfold lastContent
  rw [List.getLast?_eq_some_getLast h]
  exact ⟨_, rfl⟩

/-- The router accepts the decision that it reads exactly when that has the declared shape. -/
theorem decision_accepts_iff {raw : Str} {messages : List Message} (hm : messages ≠ [])
    (hread : Readable F raw) (hd : (loads raw).getD (.object []) = .object decision) :
    RouterAccepts ((routerDecision (F := F) raw messages).mapError Raised.code) ↔
      DecisionReads decision := by
  obtain ⟨content, hc⟩ := lastContent_of_ne_nil hm
  by_cases hh : HashableElements (dictGet decision "routes")
  · obtain ⟨routes, hr⟩ := readRoutes_ok_iff.mpr hh
    have hu : routerDecision raw messages = .ok (routerUpdate decision routes content) :=
      routerDecision_eq_ok.mpr ⟨decision, routes, content, hread, hd, hr, hc, rfl⟩
    rw [hu]
    exact routerUpdate_accepts_iff hr
  · refine iff_of_false ?_ fun h => hh h.routes
    rintro ⟨u, routes, hu, -⟩
    obtain ⟨decision', r, content', -, hd', hr, -, -⟩ :=
      routerDecision_eq_ok.mp (mapError_eq_ok.mp hu)
    rw [hd] at hd'
    cases hd'
    exact hh (readRoutes_ok_iff.mp ⟨r, hr⟩)

omit [Unicode] in
/-- A text that is no JSON counts as the decision `{}`. -/
theorem decisionReads_nil : DecisionReads ([] : List (Str × Json F)) where
  routes := by
    intro vs hvs
    cases hvs
  orderRef := .inl rfl
  clarifyQuestion := .inl (.inl rfl)
  escalateSummary := .inl rfl
  escalateReason := .inl rfl

/-- Where the router asks for a completion, it accepts the text that it gets if and only if that goes over
no limit of `json.loads`, and is no JSON or an object whose routes hold no list and no object and whose
four forwarded fields are strings or null (or a falsy question, with routes that are refused). -/
theorem router_accepts_iff (raw : Str) (hst : st.routes ≠ [.clarify]) (hm : st.messages ≠ []) :
    RouterAccepts (exec (replies [raw]) [] (routerNode settings st)).2 ↔ RouterReads F raw := by
  have hrun : (exec (replies [raw]) [] (routerNode settings st)).2 =
      (routerDecision raw st.messages).mapError Raised.code := by
    unfold routerNode
    rw [if_neg hst]
    change (exec (replies [raw]) _ (code (routerDecision raw st.messages))).2 = _
    unfold code
    cases routerDecision (F := F) raw st.messages <;> rfl
  rw [hrun]
  unfold RouterReads
  by_cases hread : Readable F raw
  swap
  · refine iff_of_false ?_ fun h => hread h.1
    rintro ⟨u, routes, hu, -⟩
    obtain ⟨decision, r, content, hread', -⟩ := routerDecision_eq_ok.mp (mapError_eq_ok.mp hu)
    exact hread hread'
  simp only [hread, true_and]
  cases hl : loads (F := F) raw with
  | none =>
    have hd : (loads (F := F) raw).getD (.object []) = .object [] := by rw [hl]; rfl
    rw [decision_accepts_iff hm hread hd]
    exact iff_of_true decisionReads_nil fun v hv => by cases hv
  | some v =>
    by_cases hv : ∃ decision, v = .object decision
    · obtain ⟨decision, rfl⟩ := hv
      have hd : (loads (F := F) raw).getD (.object []) = .object decision := by rw [hl]; rfl
      simp only [decision_accepts_iff hm hread hd, Option.some.injEq, forall_eq', object.injEq,
        exists_eq_left']
    · refine iff_of_false ?_ fun h => ?_
      · rintro ⟨u, routes, hu, -⟩
        obtain ⟨decision, r, content, -, hd, -⟩ := routerDecision_eq_ok.mp (mapError_eq_ok.mp hu)
        rw [hl] at hd
        exact hv ⟨decision, hd⟩
      · obtain ⟨decision, hd, -⟩ := h v rfl
        exact hv ⟨decision, hd⟩

end Router

/-- The router on one message, when the LLM gives the text `raw`. -/
def hiRouter (raw : Str) : Except Raised (StateUpdate FloatText) :=
  (exec (replies [raw]) [] (@routerNode FloatText _ asciiUnicode shopRunner.settings
    (initialState ⟨"s-1", none⟩ [⟨.user, "Hi"⟩]))).2

def salesReply : Str := "\x7b\"routes\": [\"sales\"], \"order_ref\": \"ORD-7\"\x7d"

theorem salesReply_accepted : RouterAccepts (hiRouter salesReply) := by
  let _ := asciiUnicode
  have hl : loads salesReply = some (.object [(str "routes", .array [.string "sales"]),
      (str "order_ref", .string "ORD-7")] : Json FloatText) := by
    decide +kernel
  have hread : Readable FloatText salesReply := readable_of_length_le (by decide) (by decide)
  refine (router_accepts_iff salesReply (by simp [initialState]) (by simp [initialState])).mpr
    ⟨hread, fun v hv => ?_⟩
  rw [hl] at hv
  cases hv
  refine ⟨_, rfl, ?_, .inr ⟨_, rfl⟩, .inl (.inl rfl), .inl rfl, .inl rfl⟩
  intro vs hvs r hr
  cases hvs
  rw [List.mem_singleton.mp hr]
  rfl

/-- A list, a list among the routes, and a number as the order reference. -/
theorem hiRouter_refuses :
    (hiRouter "[]").map (·.orderRef) =
      .error (.code ⟨.attributeError, "'list' object has no attribute 'get'"⟩) ∧
    (hiRouter "\x7b\"routes\": [[]]\x7d").map (·.orderRef) =
      .error (.code ⟨.typeError, "unhashable type: 'list'"⟩) ∧
    (hiRouter "\x7b\"routes\": [\"account\"], \"order_ref\": 5\x7d").map (·.orderRef) =
      .ok (some (.int 5)) ∧
    ¬ ∀ raw, RouterAccepts (hiRouter raw) := by
  have hlist : (hiRouter "[]").map (·.orderRef) =
      .error (.code ⟨.attributeError, "'list' object has no attribute 'get'"⟩) := by
    decide
  refine ⟨hlist, by decide +kernel, by decide +kernel, fun h => ?_⟩
  obtain ⟨u, routes, hu, -⟩ := h "[]"
  rw [hu] at hlist
  cases hlist

end DealershipAgent
