import DealershipAgent.Agents.ProviderFailure

/-!
# What verification yields

* `YieldsChecked`: `verifyClaimsNode` leaves a draft that its check found clean, or puts in its place a
  text found clean or the fixed one, with one more reason.
* `verify_claims_checked_iff`: it does so exactly when the evidence can be built, the draft is a text,
  and the claims that the check of the draft lists have a type and a quote.
-/

namespace DealershipAgent

open Py Json Interact

section Verification

variable {F : Type} [PyFloat F] [Unicode] {settings : Settings} {st : GraphState F} {tr : Trace F}
  {out : Except Raised (StateUpdate F)}

/-- The check of a text ends in `outcome`, on the events `t`. -/
def Checks (settings : Settings) (st : GraphState F) (text : Str) (t : Trace F)
    (outcome : VerificationOutcome F) : Prop :=
  ∃ evidence, buildEvidenceSummary st = .ok evidence ∧
    Runs (checkDraft settings.modelClassifier text evidence) t (.ok outcome)

/-- The node returns nothing for a draft that is clean; or else the regenerated text if that is clean,
or the fixed text, and with it `degraded` and one more reason. -/
def YieldsChecked (settings : Settings) (st : GraphState F) (tr : Trace F)
    (out : Except Raised (StateUpdate F)) : Prop :=
  ∃ draft outcome, asText (st.finalResponse.orElse (.string [])) = .ok draft ∧
    ((outcome.label = .clean ∧ Checks settings st draft tr outcome ∧ out = .ok {}) ∨
      (outcome.label ≠ .clean ∧ ∃ t messages regenerated t' recheck final reason,
        tr = t ++ ⟨.complete messages settings.modelSynthesis, .ok regenerated⟩ :: t' ∧
        Checks settings st draft t outcome ∧
        Checks settings st regenerated t' recheck ∧
        (recheck.label = .clean ∧ final = regenerated ∨
          recheck.label ≠ .clean ∧ final = safeFallbackText) ∧
        out = .ok { finalResponse := some (.string final), degraded := some true,
                    degradationReasons := some (st.degradationReasons ++ [reason]) }))

/-! ## When it returns -/

/-- The results that the evidence quotes can be gone over. -/
def PolicyResultsIterable (st : GraphState F) : Prop :=
  ∀ r, st.salesResult = some r → ∀ call ∈ r.toolCalls, call.tool.eqStr "search_policy_docs" = true →
    ∃ chunks, (call.resultOrNone.orElse (.array [])).iter = .ok chunks

/-- The draft, if there is any, is a text. -/
def DraftIsText (st : GraphState F) : Prop :=
  st.finalResponse.truthy = true → ∃ draft, st.finalResponse = .string draft

omit [PyFloat F] [Unicode] in
/-- The claim names what `format_violations` prints. -/
def NamesViolation (c : Json F) : Prop :=
  (∃ type, c.HasMember "type" type) ∧ ∃ quote, c.HasMember "quote" quote

omit [Unicode] in
/-- The completion returns a text, which is not too deep if it is for a stage, and lists no claim that is
not an object if it is for stage 2. -/
def CheckReply : Event (Request F) Answer → Prop
  | ⟨.complete messages _, .ok raw⟩ => (IsStage messages → ∀ e, ¬ TooDeep F raw e) ∧
      (messages.head? = some ⟨.system, stage2SystemPrompt⟩ →
        ∀ claims : List (Json F), Stage2Reads raw claims → ∀ c ∈ claims, ∃ kvs, c = .object kvs)
  | ⟨.complete _ _, .error _⟩ => False
  | ⟨.callTool _ _, _⟩ => True

omit [Unicode] in
theorem extractSnippets_ok_iff {calls : List (ToolCall F)} :
    (∃ snippets, extractRetrievedPolicySnippets calls = .ok snippets) ↔
      ∀ call ∈ calls, call.tool.eqStr "search_policy_docs" = true →
        ∃ chunks, (call.resultOrNone.orElse (.array [])).iter = .ok chunks := by
  induction calls with
  | nil => exact iff_of_true ⟨[], rfl⟩ (by simp)
  | cons call calls ih =>
    rw [extractRetrievedPolicySnippets, List.forall_mem_cons, ← ih]
    by_cases ht : call.tool.eqStr "search_policy_docs" = true
    · simp only [ht, if_true, forall_const]
      cases hi : (call.resultOrNone.orElse (.array [])).iter with
      | error e => simp [bind, Except.bind]
      | ok chunks =>
        cases hr : extractRetrievedPolicySnippets calls with
        | error e => simp [bind, Except.bind]
        | ok rest => simp [bind, Except.bind, pure, Except.pure]
    · simp [ht]

omit [Unicode] in
theorem buildEvidenceSummary_ok_iff :
    (∃ evidence, buildEvidenceSummary st = .ok evidence) ↔ PolicyResultsIterable st := by
  unfold buildEvidenceSummary PolicyResultsIterable
  cases hs : st.salesResult with
  | none => exact iff_of_true ⟨_, rfl⟩ (by simp)
  | some r =>
    simp only [Option.map_some, Option.getD_some, Option.some.injEq, forall_eq']
    rw [← extractSnippets_ok_iff]
    cases extractRetrievedPolicySnippets r.toolCalls with
    | error e => simp [bind, Except.bind]
    | ok snippets => simp [bind, Except.bind, pure, Except.pure]

omit [PyFloat F] [Unicode] in
theorem asText_eq_ok {v : Json F} {draft : Str} : asText v = .ok draft ↔ v = .string draft := by
  cases v <;> simp [asText]

omit [Unicode] in
theorem asText_ok_iff : (∃ draft, asText (st.finalResponse.orElse (.string [])) = .ok draft) ↔
    DraftIsText st := by
  simp only [asText_eq_ok]
  unfold orElse DraftIsText
  by_cases ht : st.finalResponse.truthy = true
  · rw [if_pos ht]
    exact ⟨fun h _ => h, fun h => h ht⟩
  · rw [if_neg ht]
    exact ⟨fun _ h => absurd h ht, fun _ => ⟨[], rfl⟩⟩

theorem violationLine_ok_iff {c : Json F} :
    (∃ line, violationLine c = .ok line) ↔ NamesViolation c := by
  unfold violationLine NamesViolation
  simp only [← subscript_eq_ok]
  cases c.subscript (str "type") with
  | error e => simp [bind, Except.bind]
  | ok type =>
    cases c.subscript (str "quote") with
    | error e => simp [bind, Except.bind]
    | ok quote => simp [bind, Except.bind, pure, Except.pure]

/-- The correction of claims that were listed can be written when they name what it prints. -/
theorem correction_ok_iff {outcome : VerificationOutcome F} (hu : outcome.unparseable = false) :
    (∃ text, correction outcome = .ok text) ↔ ∀ c ∈ outcome.claims, NamesViolation c := by
  simp only [← violationLine_ok_iff]
  rw [← mapM_isOk_iff]
  unfold correction formatViolations
  simp only [hu, Bool.false_eq_true, if_false]
  cases outcome.claims.mapM violationLine with
  | error e => simp [bind, Except.bind]
  | ok lines => simp [bind, Except.bind, pure, Except.pure]

omit [Unicode] in
/-- What is left of claims that are objects. -/
theorem judge_objects {claims : List (Json F)} (h : ∀ c ∈ claims, ∃ kvs, c = .object kvs) :
    ∃ outcome, judge claims = .ok outcome := by
  have hrest : ∃ rest, unsubstantiated claims = .ok rest := by
    induction claims with
    | nil => exact ⟨[], rfl⟩
    | cons c cs ih =>
      obtain ⟨⟨kvs, rfl⟩, hcs⟩ := List.forall_mem_cons.mp h
      obtain ⟨rest, hr⟩ := ih hcs
      rw [unsubstantiated, hr]
      exact ⟨_, rfl⟩
  obtain ⟨rest, hr⟩ := hrest
  rw [judge, hr]
  exact ⟨_, rfl⟩

/-- A check returns on such replies. -/
theorem checkDraft_returns {text : Str} {evidence : Json F} {out : Except Raised (VerificationOutcome F)}
    (h : Runs (checkDraft settings.modelClassifier text evidence) tr out)
    (hq : ∀ ev ∈ tr, CheckReply ev) : ∃ outcome, out = .ok outcome := by
  cases runs_checkDraft h with
  | stage1Failed e hm => exact absurd (hq _ List.mem_cons_self) id
  | stage2Failed raw e hm h₁ =>
    exact absurd (hq _ (List.mem_cons_of_mem _ List.mem_cons_self)) id
  | stage1TooDeep raw e hm hdeep =>
    exact absurd hdeep ((hq _ List.mem_cons_self).1 (.inl rfl) e)
  | stage2TooDeep raw raw' e hm h₁ hdeep =>
    exact absurd hdeep ((hq _ (List.mem_cons_of_mem _ List.mem_cons_self)).1 (.inr rfl) e)
  | judged raw raw' claims hm h₁ h₂ =>
    have hobjects := (hq _ (List.mem_cons_of_mem _ List.mem_cons_self)).2 rfl claims h₂
    obtain ⟨outcome, ho⟩ := judge_objects hobjects
    rw [ho]
    exact ⟨outcome, rfl⟩
  | _ => exact ⟨_, rfl⟩

/-- What the check of the draft has found. -/
def DraftOutcome (settings : Settings) (st : GraphState F) (tr : Trace F)
    (outcome : VerificationOutcome F) : Prop :=
  ∃ draft t rest, asText (st.finalResponse.orElse (.string [])) = .ok draft ∧ tr = t ++ rest ∧
    Checks settings st draft t outcome

/-- Where the node raises, something is wrong with the state, or the correction cannot be written. -/
theorem verifyClaimsNode_raises {e : Raised}
    (h : Runs (verifyClaimsNode settings st) tr (.error e)) (hq : ∀ ev ∈ tr, CheckReply ev)
    (hev : PolicyResultsIterable st) (hd : DraftIsText st) :
    ∃ outcome e, DraftOutcome settings st tr outcome ∧ outcome.label ≠ .clean ∧
      correction outcome = .error e := by
  generalize hout : (Except.error e : Except Raised (StateUpdate F)) = out at h
  cases verifyRun h with
  | noEvidence e he =>
    obtain ⟨evidence, hevidence⟩ := buildEvidenceSummary_ok_iff.mpr hev
    rw [he] at hevidence
    cases hevidence
  | noText e ht =>
    obtain ⟨draft, hdraft⟩ := asText_ok_iff.mpr hd
    rw [ht] at hdraft
    cases hdraft
  | unchecked e he hdraft hcheck =>
    obtain ⟨outcome, ho⟩ := checkDraft_returns hcheck hq
    cases ho
  | clean outcome he hdraft hcheck hc => cases hout
  | noCorrection outcome e he hdraft hcheck hc hcorr =>
    exact ⟨outcome, e, ⟨_, tr, [], hdraft, (List.append_nil tr).symm, _, he, hcheck⟩, hc, hcorr⟩
  | notRegenerated outcome text e he hdraft hcheck hc hcorr =>
    exact absurd (hq _ (List.mem_append_right _ List.mem_cons_self)) id
  | regenerated outcome text regenerated o he hdraft hcheck hc hcorr hrecheck =>
    obtain ⟨recheck, rfl⟩ := checkDraft_returns hrecheck fun ev hev =>
      hq ev (List.mem_append_right _ (List.mem_cons_of_mem _ hev))
    cases hout

end Verification

/-! ## Two corrections -/

/-- A state with the draft of `escalatedDraft`. -/
def escalatedState : GraphState FloatText :=
  { messages := [⟨.user, "Hi"⟩], identity := ⟨"s-1", none⟩, finalResponse := .string escalatedDraft }

/-- The verification of that draft, with these replies. -/
def verifyEscalated (raws : List Str) :
    Trace FloatText × Except Raised (StateUpdate FloatText) :=
  exec (replies raws) [] (@verifyClaimsNode FloatText _ asciiUnicode shopRunner.settings
    escalatedState)

theorem verifyEscalated_runs (raws : List Str) :
    Runs (@verifyClaimsNode FloatText _ asciiUnicode shopRunner.settings escalatedState)
      (verifyEscalated raws).1 (verifyEscalated raws).2 :=
  exec_runs _ _ _

/-- Replies that go over no limit and list objects only. -/
theorem verifyEscalated_replies {raws : List Str} (hread : ∀ raw ∈ [] :: raws, Readable FloatText raw)
    (h : ∀ raw ∈ [] :: raws, ∀ claims : List (Json FloatText), Stage2Lists raw claims →
      ∀ c ∈ claims, ∃ kvs, c = .object kvs) :
    ∀ ev ∈ (verifyEscalated raws).1, CheckReply ev := by
  refine exec_forall (fun hist r => ?_) _ _
  cases r with
  | callTool name arguments => trivial
  | complete messages model =>
    have hraw : raws.getD hist.length [] ∈ [] :: raws := by
      rw [List.getD_eq_getElem?_getD]
      cases hr : raws[hist.length]? with
      | none => exact List.mem_cons_self
      | some raw => exact List.mem_cons_of_mem _ (List.mem_of_getElem? hr)
    refine ⟨fun _ e hdeep => ?_, fun _ claims hlists => h _ hraw claims hlists.2⟩
    cases (hread _ hraw).symm.trans hdeep.1

/-- The first check is not answered in JSON, and the second draft claims nothing. -/
def correctedReplies : List Str := ["maybe", "Hello."]

/-- A claim without a type and a quote. -/
def bareClaim : Str := "\x7b\"claims\": [\x7b\"substantiated\": false\x7d]\x7d"

end DealershipAgent
