import DealershipAgent.Agents.Turn

/-!
# Where the final response comes from

* `CheckedClean`: a check of the turn found the response clean against the turn's evidence.
* `final_response_verified_iff`: the response is a fixed text or checked, exactly when the router's
  completion does not make the turn ask the customer the LLM's own question.
-/

namespace DealershipAgent

open Py Json Interact

section FinalResponse

variable {F : Type} [PyFloat F] [Unicode] {settings : Settings}
  {salesAgent accountAgent : SubAgent F} {st₀ : GraphState F}

/-! ## Questions -/

omit [PyFloat F] [Unicode] in
/-- A text of the code. -/
def FixedText (v : Json F) : Prop :=
  v = .string emptyMessageQuestion ∨ v = .string defaultClarifyQuestion ∨
    v = .string safeFallbackText

omit [Unicode] in
/-- The completion is a decision to clarify, or one whose routes are refused, with a question. -/
def AsksOwnQuestion (raw : Str) (question : Json F) : Prop :=
  ∃ decision, loads raw = some (.object decision) ∧
    (readRoutes (dictGet decision "routes") = .ok none ∨
      readRoutes (dictGet decision "routes") = .ok (some [.clarify])) ∧
    question = dictGet decision "clarify_question" ∧ question.truthy = true

omit [PyFloat F] [Unicode] in
/-- The router has got the text `raw`. -/
def RouterReply (tr : TurnTrace F) (raw : Str) : Prop :=
  ∃ messages model, ⟨(.router, .complete messages model), .ok raw⟩ ∈ tr

omit [PyFloat F] [Unicode] in
/-- Routes that are accepted. -/
theorem readRoutes_some {v : Json F} {routes : List Route} (h : readRoutes v = .ok (some routes)) :
    routes ≠ [] ∧ exclusiveRoutes routes = true := by
  unfold readRoutes at h
  split at h
  · cases h
  · next vs hvs =>
    split at h
    · cases h
    · cases hm : vs.mapM validRoute with
      | none => simp only [hm] at h; cases h
      | some rs =>
        simp only [hm, Except.ok.injEq] at h
        by_cases hx : exclusiveRoutes rs = true
        · rw [if_pos hx] at h
          cases h
          refine ⟨fun hrs => ?_, hx⟩
          -- the list that was read has an element, and so have its routes
          cases vs with
          | nil => exact hvs rfl
          | cons v vs =>
            subst hrs
            rw [List.mapM_cons] at hm
            cases hv : validRoute v with
            | none => rw [hv] at hm; cases hm
            | some r =>
              cases hvs' : vs.mapM validRoute with
              | none => rw [hv, hvs'] at hm; cases hm
              | some rs => rw [hv, hvs'] at hm; cases hm
        · rw [if_neg hx] at h
          cases h
  · cases h

omit [PyFloat F] [Unicode] in
/-- The router leads to the clarify node alone for the routes `["clarify"]` alone. -/
theorem routesAfterRouter_clarify {st : GraphState F} (hne : st.routes ≠ [])
    (hx : exclusiveRoutes st.routes = true) (h : routesAfterRouter st = [.clarify]) :
    st.routes = [.clarify] := by
  unfold routesAfterRouter at h
  by_cases hc : Route.clarify ∈ st.routes
  · have hlen : ¬ 1 < st.routes.length := by
      intro hl
      simp [exclusiveRoutes, hc, hl] at hx
    obtain ⟨r, rs, hrs⟩ := List.exists_cons_of_ne_nil hne
    rw [hrs] at hc hlen ⊢
    obtain rfl : rs = [] := by
      rw [List.length_cons] at hlen
      exact List.length_eq_zero_iff.mp (by omega)
    rw [List.mem_singleton.mp hc]
  · rw [if_neg hc] at h
    by_cases he : Route.escalate ∈ st.routes
    · rw [if_pos he] at h
      cases h
    · rw [if_neg he] at h
      obtain ⟨r, rs, hrs⟩ := List.exists_cons_of_ne_nil hne
      rw [hrs] at hc he h
      -- the first route is that of a sub-agent
      cases r with
      | sales => by_cases ha : Route.account ∈ rs <;> simp [ha] at h
      | account => by_cases hs : Route.sales ∈ rs <;> simp [hs] at h
      | clarify => exact absurd List.mem_cons_self hc
      | escalate => exact absurd List.mem_cons_self he

omit [Unicode] in
theorem orElse_orElse (v w : Json F) : (v.orElse w).orElse w = v.orElse w := by
  unfold orElse
  by_cases hv : v.truthy = true
  · rw [if_pos hv, if_pos hv]
  · rw [if_neg hv]
    by_cases hw : w.truthy = true
    · rw [if_pos hw]
    · rw [if_neg hw]

/-- What the router decides on a completion that makes the turn ask. -/
theorem asksOwnQuestion_clarify {raw : Str} {question : Json F} {u : StateUpdate F}
    (hu : routerDecision raw st₀.messages = .ok u) (hq : AsksOwnQuestion raw question) :
    routesAfterRouter (st₀.apply u) = [.clarify] := by
  obtain ⟨decision, routes, content, -, hd, hr, -, rfl⟩ := routerDecision_eq_ok.mp hu
  obtain ⟨decision', hl, hroutes, -, -⟩ := hq
  rw [hl] at hd
  cases hd
  have hclarify : (st₀.apply (routerUpdate decision routes content)).routes = [.clarify] := by
    rcases hroutes with h | h <;> rw [h] at hr <;> cases hr <;> rfl
  rw [routesAfterRouter, hclarify]
  rfl

/-- The response after a decision to clarify is a fixed text unless it is the LLM's own question. -/
theorem clarify_response_iff {raw : Str} {u : StateUpdate F}
    (hu : routerDecision raw st₀.messages = .ok u)
    (ha : routesAfterRouter (st₀.apply u) = [.clarify]) :
    FixedText ((st₀.apply u).clarifyQuestion.orElse (.string defaultClarifyQuestion)) ↔
      ∀ question : Json F, AsksOwnQuestion raw question → FixedText question := by
  obtain ⟨decision, routes, content, -, hd, hr, -, rfl⟩ := routerDecision_eq_ok.mp hu
  have hresponse : (st₀.apply (routerUpdate decision routes content)).clarifyQuestion.orElse
      (.string defaultClarifyQuestion) =
        (dictGet decision "clarify_question").orElse (.string defaultClarifyQuestion) := by
    cases routes with
    | none => exact orElse_orElse _ _
    | some rs => rfl
  have hroutes : readRoutes (dictGet decision "routes") = .ok none ∨
      readRoutes (dictGet decision "routes") = .ok (some [.clarify]) := by
    cases routes with
    | none => exact .inl hr
    | some rs =>
      obtain ⟨hne, hx⟩ := readRoutes_some hr
      have hrs : rs = [.clarify] := routesAfterRouter_clarify hne hx ha
      exact .inr (hrs ▸ hr)
  rw [hresponse]
  unfold orElse
  by_cases ht : (dictGet decision "clarify_question").truthy = true
  · rw [if_pos ht]
    have hl : loads raw = some (.object decision) := by
      cases hl : loads (F := F) raw with
      | none => rw [hl] at hd; cases hd; cases ht
      | some v => rw [hl] at hd; cases hd; rfl
    constructor
    · rintro hfixed question ⟨decision', hl', -, rfl, -⟩
      rw [hl] at hl'
      cases hl'
      exact hfixed
    · exact fun h => h _ ⟨decision, hl, hroutes, rfl, ht⟩
  · rw [if_neg ht]
    refine ⟨fun _ question hq => ?_, fun _ => .inr (.inl rfl)⟩
    obtain ⟨decision', hl', -, rfl, ht'⟩ := hq
    rw [hl'] at hd
    cases hd
    exact absurd ht' ht

/-! ## Turns -/

/-- The turn went through `verify_claims`, and a check there found the response clean against the
evidence of the turn. -/
def CheckedClean (settings : Settings) (path : List Node) (fin : GraphState F)
    (tr : TurnTrace F) : Prop :=
  .verifyClaims ∈ path ∧ ∃ text evidence outcome tr₁ t tr₂,
    fin.finalResponse = .string text ∧ buildEvidenceSummary fin = .ok evidence ∧
    tr = tr₁ ++ t.map (Event.tag .verifyClaims) ++ tr₂ ∧
    Runs (checkDraft settings.modelClassifier text evidence) t (.ok outcome) ∧
    outcome.label = .clean

omit [PyFloat F] [Unicode] in
/-- Events of another node are no replies to the router. -/
theorem routerReply_append {tr : TurnTrace F} {t : Trace F} {m : Node} {raw : Str}
    (hm : m ≠ .router) (h : RouterReply (tr ++ t.map (Event.tag m)) raw) : RouterReply tr raw := by
  obtain ⟨messages, model, hev⟩ := h
  rcases List.mem_append.mp hev with hev | hev
  · exact ⟨messages, model, hev⟩
  · obtain ⟨ev, -, he⟩ := List.mem_map.mp hev
    exact absurd (congrArg (fun ev => ev.req.1) he) hm

/-- No completion makes the turn ask the LLM's own question. -/
def NoOwnQuestion (tr : TurnTrace F) : Prop :=
  ∀ raw, RouterReply tr raw → ∀ question : Json F, ¬ AsksOwnQuestion raw question

omit [Unicode] in
theorem NoOwnQuestion.append {tr : TurnTrace F} {t : Trace F} {m : Node} (hm : m ≠ .router)
    (h : NoOwnQuestion tr) : NoOwnQuestion (tr ++ t.map (Event.tag m)) :=
  fun raw hr => h raw (routerReply_append hm hr)

/-- The router's one request. -/
theorem routed_reply {u : StateUpdate F} {t : Trace F} {raw : Str}
    (h₀ : st₀.routes ≠ [.clarify]) (h : Runs (routerNode settings st₀) t (.ok u))
    (hr : RouterReply (t.map (Event.tag .router)) raw) : routerDecision raw st₀.messages = .ok u := by
  obtain ⟨raw', rfl, hu⟩ := runs_routerNode h₀ h
  obtain ⟨messages, model, hev⟩ := hr
  cases List.mem_singleton.mp hev
  exact hu

/-- A turn that goes on and does not clarify has no question of the LLM for the customer. -/
theorem TurnAt.noOwnQuestion {c : TurnConfig F} (h₀ : st₀.routes ≠ [.clarify])
    (h : TurnAt settings salesAgent accountAgent st₀ c)
    (ha : c.active ≠ [.clarify] ∧ c.active ≠ []) : NoOwnQuestion c.tr := by
  have hnil : NoOwnQuestion ([] : TurnTrace F) := by
    rintro raw ⟨messages, model, hev⟩
    cases hev
  induction h with
  | start => exact hnil
  | blank hb => exact absurd rfl ha.1
  | asked hb => exact hnil
  | routed hb hrun hactive =>
    subst hactive
    exact fun raw hr q hq => ha.1 (asksOwnQuestion_clarify (routed_reply h₀ hrun hr) hq)
  | clarified h ih => exact absurd rfl ha.2
  | verified h hrun ih => exact absurd rfl ha.2
  | sales h hrun ih => exact (ih (by simp)).append (by decide)
  | account h hrun ih => exact (ih (by simp)).append (by decide)
  | both h hrun hrun' hi ih =>
    rintro raw ⟨messages, model, hev⟩
    rcases List.mem_append.mp hev with hev | hev
    · exact ih (by simp) raw ⟨messages, model, hev⟩
    · rcases hi.mem_iff.mp hev with hev | hev <;> obtain ⟨ev, -, he⟩ := List.mem_map.mp hev <;>
        cases congrArg (fun ev => ev.req.1) he
  | merged h hn ih => exact ih (by simp)
  | escalated h hrun ih => exact (ih (by simp)).append (by decide)
  | drafted h hrun ih => exact (ih (by simp)).append (by decide)

omit [Unicode] in
/-- A draft is checked as it is, the empty one too. -/
theorem asText_draft {text : Str} {draft : Str}
    (h : asText ((Json.string text : Json F).orElse (.string [])) = .ok draft) : draft = text := by
  cases text with
  | nil => cases h; rfl
  | cons c cs => cases h; rfl

/-- After `verify_claims` the response is checked, or it is the fallback. -/
theorem verified_response {path : List Node} {st : GraphState F} {tr : TurnTrace F} {t : Trace F}
    {u : StateUpdate F} {draft : Str} (hdraft : st.finalResponse = .string draft)
    (h : Runs (verifyClaimsNode settings st) t (.ok u)) :
    FixedText (st.apply u).finalResponse ∨ CheckedClean settings (path ++ [.verifyClaims])
      (st.apply u) (tr ++ t.map (Event.tag .verifyClaims)) := by
  have hpath : Node.verifyClaims ∈ path ++ [.verifyClaims] := by simp
  obtain ⟨draft', evidence, outcome, hd, he, ⟨hc, rfl, hrun⟩ |
    ⟨-, t₁, t₂, text, regenerated, recheck, -, -, hrun, rfl, rfl⟩⟩ := runs_verifyClaimsNode h
  · rw [hdraft] at hd
    obtain rfl := asText_draft hd
    rw [apply_empty]
    exact .inr ⟨hpath, draft', evidence, outcome, tr, t, [], hdraft, he, by simp, hrun, hc⟩
  · unfold replacement
    by_cases hc : recheck.label = .clean
    · rw [if_pos hc]
      rw [List.append_cons t₁, List.map_append, ← List.append_assoc]
      exact .inr ⟨hpath, regenerated, evidence, recheck, _, t₂, [], rfl, he,
        (List.append_nil _).symm, hrun, hc⟩
    · rw [if_neg hc]
      exact .inl (.inr (.inr rfl))

/-- The response of a turn is a fixed text or was found clean, exactly when no completion of the
router makes the turn ask a question that is not a fixed text. -/
theorem final_response_verified_iff {runner : Runner F} {sched : Nat → Nat → Nat → Bool}
    {identity : RequestIdentity} {messages : List Message} {tr : TurnTrace F} {path : List Node}
    {fin : GraphState F} (h : Runs (runTurn runner sched identity messages) tr (.ok (path, fin))) :
    FixedText fin.finalResponse ∨ CheckedClean runner.settings path fin tr ↔
      ∀ raw, RouterReply tr raw → ∀ question : Json F, AsksOwnQuestion raw question →
        FixedText question := by
  obtain ⟨salesAgent, accountAgent, -, -, hat⟩ := turn_returns h
  have h₀ : (initialState (F := F) identity messages).routes ≠ [.clarify] := by simp [initialState]
  cases hat with
  | @routed u _ _ hb hrun ha =>
    rcases routesAfterRouter_cases ((initialState identity messages).apply u) with h | h | h | h | h <;>
      rw [h] at ha <;> cases ha
  | @clarified path st _ hat =>
    have hcheck : ¬ CheckedClean runner.settings (path ++ [.clarify])
        (st.apply (answerQuestion st)) tr := by
      rintro ⟨hmem, -⟩
      rcases hat.at_clarify with ⟨rfl, -⟩ | ⟨u, t, rfl, -⟩ <;> simp at hmem
    rw [or_iff_left hcheck]
    rcases hat.at_clarify with ⟨-, rfl, rfl⟩ | ⟨u, t, -, rfl, rfl, hrun, ha⟩
    · refine ⟨fun _ raw hr => ?_, fun _ => .inl rfl⟩
      obtain ⟨messages, model, hev⟩ := hr
      cases hev
    · obtain ⟨raw, rfl, hu⟩ := runs_routerNode h₀ hrun
      refine (clarify_response_iff hu ha).trans ⟨fun hall raw' hr => ?_, fun hall => ?_⟩
      · obtain ⟨messages', model, hev⟩ := hr
        cases List.mem_singleton.mp hev
        exact hall
      · exact hall raw ⟨_, _, List.mem_singleton_self _⟩
  | @verified path st tr u t hat hrun =>
    obtain ⟨draft, hdraft⟩ := hat.at_verifyClaims
    refine ⟨fun _ raw hr q hq => ?_, fun _ => verified_response hdraft hrun⟩
    have hno := hat.noOwnQuestion h₀ (by simp)
    exact absurd hq (hno raw (routerReply_append (by decide) hr) q)

end FinalResponse

/-! ## Turns on fixed replies -/

/-- The router escalates, and the draft is a text without a claim. -/
def escalateReplies : Node → Except Exc Str
  | .router => .ok "\x7b\"routes\": [\"escalate\"]\x7d"
  | _ => .ok "Please come to our desk."

/-- How the turn ends, and what `json.loads` makes of the reply of the router. -/
theorem shopTurn_escalate_ends :
    (shopTurn "Help!" escalateReplies).2.map (fun x => (x.1, x.2.degradationReasons)) =
      .ok ([.intake, .router, .escalate, .synthesis, .verifyClaims],
        [str "escalation_not_created"]) ∧
    loads (F := FloatText) "\x7b\"routes\": [\"escalate\"]\x7d" =
      some (.object [("routes", .array [.string "escalate"])]) := by
  decide +kernel

theorem shopTurn_escalate :
    (shopTurn "Help!" escalateReplies).2.map (fun x => x.1) =
      .ok [.intake, .router, .escalate, .synthesis, .verifyClaims] := by
  have hends := shopTurn_escalate_ends.1
  cases hout : (shopTurn "Help!" escalateReplies).2 with
  | error e => rw [hout] at hends; cases hends
  | ok x =>
    rw [hout] at hends
    exact congrArg (Except.map Prod.fst) hends

theorem shopTurn_escalate_verified :
    ∃ path fin, (shopTurn "Help!" escalateReplies).2 = .ok (path, fin) ∧
      (FixedText fin.finalResponse ∨ @CheckedClean FloatText _ asciiUnicode shopRunner.settings path
        fin (shopTurn "Help!" escalateReplies).1) := by
  let _ := asciiUnicode
  have hpath := shopTurn_escalate
  have hrun := shopTurn_runs "Help!" escalateReplies
  have hreply : ∀ ev ∈ (shopTurn "Help!" escalateReplies).1,
      OnReply (fun raw => escalateReplies ev.req.1 = .ok raw) ev.untag :=
    shopTurn_onReply (P := fun node raw => escalateReplies node = .ok raw) fun node raw h => h
  cases hout : (shopTurn "Help!" escalateReplies).2 with
  | error e => rw [hout] at hpath; cases hpath
  | ok x =>
    rw [hout] at hrun
    refine ⟨x.1, x.2, rfl, (final_response_verified_iff hrun).mpr fun raw hr question hq => ?_⟩
    obtain ⟨messages, model, hev⟩ := hr
    obtain rfl : _ = raw := Except.ok.inj (hreply _ hev)
    obtain ⟨decision, hl, hroutes, -, -⟩ := hq
    rw [shopTurn_escalate_ends.2] at hl
    cases hl
    rcases hroutes with h | h <;> exact absurd h (by decide +kernel)

/-- The router clarifies, with a claim for a question. -/
def cancelledReplies : Node → Except Exc Str := fun _ => .ok
  "\x7b\"routes\": [\"clarify\"], \"clarify_question\": \"I have cancelled your order.\"\x7d"

/-- The customer is told of a cancellation that no check has seen. -/
theorem shopTurn_cancelled :
    (shopTurn "Hm." cancelledReplies).2.map (fun x => (x.1, x.2.finalResponse)) =
      .ok ([.intake, .router, .clarify], .string "I have cancelled your order.") ∧
    @mentionsActionVocabulary asciiUnicode "I have cancelled your order." = true ∧
    ¬ ∀ (content : Str) (replies : Node → Except Exc Str) (path : List Node)
      (fin : GraphState FloatText), (shopTurn content replies).2 = .ok (path, fin) →
        FixedText fin.finalResponse ∨ @CheckedClean FloatText _ asciiUnicode shopRunner.settings path
          fin (shopTurn content replies).1 := by
  have hcancelled : (shopTurn "Hm." cancelledReplies).2.map (fun x => (x.1, x.2.finalResponse)) =
      .ok ([.intake, .router, .clarify], .string "I have cancelled your order.") := by
    decide +kernel
  refine ⟨hcancelled, by decide, fun h => ?_⟩
  cases hout : (shopTurn "Hm." cancelledReplies).2 with
  | error e => rw [hout] at hcancelled; cases hcancelled
  | ok x =>
    rw [hout] at hcancelled
    have hx := Except.ok.inj hcancelled
    have hpath : x.1 = [.intake, .router, .clarify] := congrArg Prod.fst hx
    have hresponse : x.2.finalResponse = .string "I have cancelled your order." :=
      congrArg Prod.snd hx
    rcases h "Hm." cancelledReplies x.1 x.2 hout with hfixed | ⟨hmem, -⟩
    · rw [hresponse] at hfixed
      rcases hfixed with h | h | h <;> exact absurd h (by decide +kernel)
    · rw [hpath] at hmem
      exact absurd hmem (by decide)

end DealershipAgent
