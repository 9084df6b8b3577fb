import DealershipAgent.Agents.TurnShape
import DealershipAgent.Agents.VerifiedText

/-!
# Which drafts are told of a degradation

* `respond`: a turn from its synthesis on, `turn_responds`: every turn that drafts a reply runs it.
* `Flagged`: the replies to the check of the draft ask for a second one.
* `drafts_informed_iff`: on a degraded state every request for a draft has the degradation note, if and
  only if there is no second draft, or the conversation has the note already.
-/

namespace DealershipAgent

open Py Json Interact

section Respond

variable {F : Type} [PyFloat F] [Unicode]

/-- A turn from its synthesis on. -/
def respond (settings : Settings) (st : GraphState F) : Program F (GraphState F) := do
  let u ← synthesisNode settings st
  let v ← verifyClaimsNode settings (st.apply u)
  return (st.apply u).apply v

/-- The request is one for a draft: it begins with the prompt of the synthesis. -/
def IsDraftRequest (messages : List Message) : Prop :=
  messages.head? = some ⟨.system, synthesisSystemPrompt⟩

/-- The messages tell the reasons of a degradation. -/
def Informed (reasons : List Str) (messages : List Message) : Prop :=
  ⟨.user, degradationNote reasons⟩ ∈ messages

/-- Every request for a draft tells the reasons. -/
def DraftsInformed (reasons : List Str) (tr : Trace F) : Prop :=
  ∀ messages model x, ⟨.complete messages model, x⟩ ∈ tr → IsDraftRequest messages →
    Informed reasons messages

/-- The answers of the completions. -/
def completionAnswers (tr : Trace F) : List (Except Exc Str) :=
  tr.filterMap fun ev =>
    match ev with
    | ⟨.complete _ _, x⟩ => some x
    | ⟨.callTool _ _, _⟩ => none

/-- What stage 2 lists is a violation that can be put into words. -/
def Unsupported (claims : List (Json F)) : Prop :=
  ∃ outcome text, judge claims = .ok outcome ∧ outcome.label ≠ .clean ∧ correction outcome = .ok text

/-- The replies to the check of a draft ask for another one. -/
def Flagged (F : Type) [PyFloat F] (draft : Str) (replies : List (Except Exc Str)) : Prop :=
  mentionsActionVocabulary draft = true ∧ ∃ raw rest, replies = .ok raw :: rest ∧
    ((∀ e, ¬ TooDeep F raw e) ∧ (∀ b, ¬ Stage1Reads F raw b) ∨
      Stage1Reads F raw true ∧ ∃ raw' rest', rest = .ok raw' :: rest' ∧
        ((∀ e, ¬ TooDeep F raw' e) ∧ (∀ claims : List (Json F), ¬ Stage2Reads raw' claims) ∨
          ∃ claims : List (Json F), Stage2Reads raw' claims ∧ Unsupported claims))

/-- The first reply is a draft, and those after it ask for another one. -/
def Redrafted (F : Type) [PyFloat F] (replies : List (Except Exc Str)) : Prop :=
  ∃ draft rest, replies = .ok draft :: rest ∧ Flagged F draft rest

variable {settings : Settings} {st : GraphState F} {tr : Trace F}

omit [PyFloat F] [Unicode] in
theorem completionAnswers_append (tr tr' : Trace F) :
    completionAnswers (tr ++ tr') = completionAnswers tr ++ completionAnswers tr' :=
  List.filterMap_append

/-! ## The check of a draft -/

/-- The events of a check are no requests for a draft. -/
theorem DraftRun.not_draft {model text : Str} {evidence : Json F}
    {out : Except Raised (VerificationOutcome F)} (h : DraftRun model text evidence tr out)
    {messages : List Message} {model' : Str} {x : Except Exc Str}
    (hm : ⟨.complete messages model', x⟩ ∈ tr) : ¬ IsDraftRequest messages := by
  have hprompts : stage1SystemPrompt ≠ synthesisSystemPrompt ∧
      stage2SystemPrompt ≠ synthesisSystemPrompt := by
    decide +kernel
  have hstage : messages = stage1Messages text ∨ messages = stage2Messages text evidence := by
    have hone : ∀ {x'}, ⟨.complete messages model', x⟩ ∈
        [(⟨.complete (stage1Messages text) model, x'⟩ : Event (Request F) Answer)] →
        messages = stage1Messages text := fun h => by
      cases List.mem_singleton.mp h
      rfl
    have htwo : ∀ {x' x''}, ⟨.complete messages model', x⟩ ∈
        [(⟨.complete (stage1Messages text) model, x'⟩ : Event (Request F) Answer),
          ⟨.complete (stage2Messages text evidence) model, x''⟩] →
        messages = stage1Messages text ∨ messages = stage2Messages text evidence := fun h => by
      rcases List.mem_cons.mp h with h | h
      · cases h
        exact .inl rfl
      · cases List.mem_singleton.mp h
        exact .inr rfl
    cases h with
    | skipped _ => cases hm
    | stage1Failed _ _ => exact .inl (hone hm)
    | stage1TooDeep _ _ _ _ => exact .inl (hone hm)
    | stage1Unparseable _ _ _ _ => exact .inl (hone hm)
    | noClaim _ _ _ => exact .inl (hone hm)
    | stage2Failed _ _ _ _ => exact htwo hm
    | stage2TooDeep _ _ _ _ _ _ => exact htwo hm
    | stage2Unparseable _ _ _ _ _ _ => exact htwo hm
    | judged _ _ _ _ _ _ => exact htwo hm
  intro hd
  rcases hstage with rfl | rfl
  · exact hprompts.1 (Message.mk.inj (Option.some.inj hd)).2
  · exact hprompts.2 (Message.mk.inj (Option.some.inj hd)).2

/-- The check of a draft ends in a violation that can be put into words, if and only if its replies
ask for another draft. -/
theorem DraftRun.flagged_iff {model text : Str} {evidence : Json F}
    {out : Except Raised (VerificationOutcome F)} (h : DraftRun model text evidence tr out)
    (rest : List (Except Exc Str)) :
    Flagged F text (completionAnswers tr ++ rest) ↔
      ∃ outcome t, out = .ok outcome ∧ outcome.label ≠ .clean ∧ correction outcome = .ok t := by
  cases h with
  | skipped hm =>
    refine iff_of_false (fun hf => ?_) ?_
    · rw [hf.1] at hm
      cases hm
    · rintro ⟨outcome, t, ho, hl, -⟩
      cases ho
      exact hl rfl
  | stage1Failed e hm =>
    refine iff_of_false ?_ ?_
    · rintro ⟨-, raw, rest', hr, -⟩
      cases hr
    · rintro ⟨outcome, t, ho, -⟩
      cases ho
  | stage1TooDeep raw e hm hdeep =>
    refine iff_of_false ?_ ?_
    · rintro ⟨-, raw', rest', hr, hcases⟩
      cases hr
      rcases hcases with ⟨hno, -⟩ | ⟨htrue, -⟩
      · exact hno e hdeep
      · exact htrue.not_tooDeep e hdeep
    · rintro ⟨outcome, t, ho, -⟩
      cases ho
  | stage1Unparseable raw hm hdeep hno =>
    exact iff_of_true ⟨hm, raw, rest, rfl, .inl ⟨hdeep, hno⟩⟩ ⟨_, _, rfl, by simp, rfl⟩
  | noClaim raw hm h₁ =>
    refine iff_of_false ?_ ?_
    · rintro ⟨-, raw', rest', hr, hcases⟩
      cases hr
      rcases hcases with ⟨-, hno⟩ | ⟨htrue, -⟩
      · exact hno _ h₁
      · cases h₁.2.unique htrue.2
    · rintro ⟨outcome, t, ho, hl, -⟩
      cases ho
      exact hl rfl
  | stage2Failed raw e hm h₁ =>
    refine iff_of_false ?_ ?_
    · rintro ⟨-, raw', rest', hr, hcases⟩
      cases hr
      rcases hcases with ⟨-, hno⟩ | ⟨-, raw'', rest'', hr, -⟩
      · exact hno _ h₁
      · cases hr
    · rintro ⟨outcome, t, ho, -⟩
      cases ho
  | stage2TooDeep raw raw' e hm h₁ hdeep =>
    refine iff_of_false ?_ ?_
    · rintro ⟨-, raw₁, rest', hr, hcases⟩
      cases hr
      rcases hcases with ⟨-, hno⟩ | ⟨-, raw₂, rest'', hr, ⟨hno, -⟩ | ⟨claims, hclaims, -⟩⟩
      · exact hno _ h₁
      · cases hr
        exact hno e hdeep
      · cases hr
        cases hclaims.1.symm.trans hdeep.1
    · rintro ⟨outcome, t, ho, -⟩
      cases ho
  | stage2Unparseable raw raw' hm h₁ hdeep hno =>
    exact iff_of_true ⟨hm, raw, _, rfl, .inr ⟨h₁, raw', _, rfl, .inl ⟨hdeep, hno⟩⟩⟩
      ⟨_, _, rfl, by simp, rfl⟩
  | judged raw raw' claims hm h₁ h₂ =>
    constructor
    · rintro ⟨-, raw₁, rest', hr, hcases⟩
      cases hr
      rcases hcases with
        ⟨-, hno⟩ | ⟨-, raw₂, rest'', hr, ⟨-, hno⟩ | ⟨claims', hclaims', o, t, ho, hl, ht⟩⟩
      · exact absurd h₁ (hno _)
      · cases hr
        exact absurd h₂ (hno _)
      · cases hr
        obtain rfl := h₂.2.unique hclaims'.2
        exact ⟨o, t, by rw [ho]; rfl, hl, ht⟩
    · rintro ⟨o, t, ho, hl, ht⟩
      refine ⟨hm, raw, _, rfl, .inr ⟨h₁, raw', _, rfl, .inr ⟨claims, h₂, o, t, ?_, hl, ht⟩⟩⟩
      cases hj : judge claims with
      | error e => rw [hj] at ho; cases ho
      | ok o' => rw [hj] at ho; cases ho; rfl

/-! ## The requests of a turn from its synthesis on -/

/-- A text that puts a violation into words is no degradation note. -/
theorem correction_ne_note {outcome : VerificationOutcome F} {t : Str} {reasons : List Str}
    (h : correction outcome = .ok t) : degradationNote reasons ≠ t := by
  obtain ⟨violations, rfl⟩ : ∃ violations, t = correctionInstruction violations := by
    unfold correction at h
    cases hu : outcome.unparseable with
    | true =>
      simp only [hu, if_true] at h
      exact ⟨_, (Except.ok.inj h).symm⟩
    | false =>
      simp only [hu, Bool.false_eq_true, if_false] at h
      cases hf : formatViolations outcome.claims with
      | error e => rw [hf] at h; cases h
      | ok violations =>
        rw [hf] at h
        exact ⟨violations, (Except.ok.inj h).symm⟩
  intro hnote
  -- they differ in the first character
  cases congrArg List.head? hnote

omit [Unicode] in
/-- The messages of a draft tell the reasons if its note does, or the conversation. -/
theorem informed_build {reasons : List Str} {note : Option Str} :
    Informed reasons (buildSynthesisMessages st note) ↔
      Informed reasons st.messages ∨ note = some (degradationNote reasons) := by
  have hresults : ∀ x : Str, degradationNote reasons ≠ str "Agent results: " ++ x := fun x hx => by
    cases congrArg List.head? hx
  unfold Informed buildSynthesisMessages
  cases note <;> simp [hresults, eq_comm]

/-- The requests of a check are no drafts. -/
theorem checkDraft_draftsInformed {model draft : Str} {evidence : Json F}
    {out : Except Raised (VerificationOutcome F)} {reasons : List Str}
    (h : Runs (checkDraft model draft evidence) tr out) : DraftsInformed reasons tr :=
  fun _ _ _ hm hd => absurd hd ((runs_checkDraft h).not_draft hm)

/-- Where the check of a draft leads to no correction, its replies do not ask for another draft. -/
theorem not_flagged {model draft : Str} {evidence : Json F}
    {out : Except Raised (VerificationOutcome F)} (h : Runs (checkDraft model draft evidence) tr out)
    (hno : ∀ outcome text, out = .ok outcome → outcome.label ≠ .clean →
      correction outcome ≠ .ok text) : ¬ Flagged F draft (completionAnswers tr) := by
  intro hf
  rw [← List.append_nil (completionAnswers tr)] at hf
  obtain ⟨outcome, text, ho, hl, ht⟩ := ((runs_checkDraft h).flagged_iff []).mp hf
  exact hno outcome text ho hl ht

/-- The second draft is requested with the note only if the conversation has it. -/
theorem redraft_informed_iff {model draft text : Str} {evidence : Json F}
    {outcome : VerificationOutcome F} {t t' : Trace F} {x : Except Exc Str} {reasons : List Str}
    (h : Runs (checkDraft model draft evidence) t (.ok outcome)) (hl : outcome.label ≠ .clean)
    (ht : correction outcome = .ok text) (ht' : DraftsInformed reasons t') :
    DraftsInformed reasons
        (t ++ ⟨.complete (redraftMessages st draft text) settings.modelSynthesis, x⟩ :: t') ↔
      Informed reasons st.messages ∨ ¬ Flagged F draft (completionAnswers
        (t ++ ⟨.complete (redraftMessages st draft text) settings.modelSynthesis, x⟩ :: t')) := by
  have hflag := (runs_checkDraft h).flagged_iff (completionAnswers
    (⟨.complete (redraftMessages st draft text) settings.modelSynthesis, x⟩ :: t'))
  have hasked : ∃ o t', Except.ok (ε := Raised) outcome = .ok o ∧ o.label ≠ .clean ∧
      correction o = .ok t' := ⟨outcome, text, rfl, hl, ht⟩
  have hredraft : Informed reasons (redraftMessages st draft text) ↔ Informed reasons st.messages := by
    have hb := @informed_build F _ st reasons none
    have hne := @correction_ne_note F _ _ outcome text reasons ht
    unfold redraftMessages
    unfold Informed at hb ⊢
    rw [List.mem_append, hb]
    simp [hne]
  rw [completionAnswers_append, hflag, or_iff_left (not_not_intro hasked), ← hredraft]
  constructor
  · intro hall
    exact hall _ _ x (List.mem_append_right t List.mem_cons_self) rfl
  · rintro hin messages model y hm hd
    rcases List.mem_append.mp hm with hm | hm
    · exact checkDraft_draftsInformed h _ _ _ hm hd
    rcases List.mem_cons.mp hm with hm | hm
    · cases hm
      exact hin
    · exact ht' _ _ _ hm hd

/-- The verification of a text has requested an informed draft or none, if and only if the
conversation is informed or the replies to the check do not ask for another draft. -/
theorem verifyClaimsNode_drafts {draft : Str} {out : Except Raised (StateUpdate F)}
    {reasons : List Str} (h : Runs (verifyClaimsNode settings st) tr out)
    (hdraft : st.finalResponse.orElse (.string []) = .string draft) :
    DraftsInformed reasons tr ↔
      Informed reasons st.messages ∨ ¬ Flagged F draft (completionAnswers tr) := by
  have hnil : DraftsInformed reasons ([] : Trace F) := fun _ _ _ hm => by cases hm
  have htext : ∀ {draft'}, asText (st.finalResponse.orElse (.string [])) = .ok draft' →
      draft' = draft := fun hd => by
    rw [hdraft] at hd
    exact (Except.ok.inj hd).symm
  cases verifyRun h with
  | noEvidence e he => exact iff_of_true hnil (.inr fun ⟨_, _, _, hr, _⟩ => by cases hr)
  | noText e hd =>
    rw [hdraft] at hd
    cases hd
  | unchecked e he hd hcheck =>
    obtain rfl := htext hd
    exact iff_of_true (checkDraft_draftsInformed hcheck)
      (.inr (not_flagged hcheck fun outcome text ho => by cases ho))
  | clean outcome he hd hcheck hc =>
    obtain rfl := htext hd
    refine iff_of_true (checkDraft_draftsInformed hcheck) (.inr (not_flagged hcheck ?_))
    intro o text ho hl
    cases ho
    exact absurd hc hl
  | noCorrection outcome e he hd hcheck hc hcorr =>
    obtain rfl := htext hd
    refine iff_of_true (checkDraft_draftsInformed hcheck) (.inr (not_flagged hcheck ?_))
    intro o text ho hl ht
    cases ho
    rw [hcorr] at ht
    cases ht
  | notRegenerated outcome text e he hd hcheck hc hcorr =>
    obtain rfl := htext hd
    exact redraft_informed_iff hcheck hc hcorr hnil
  | regenerated outcome text regenerated o he hd hcheck hc hcorr hrecheck =>
    obtain rfl := htext hd
    exact redraft_informed_iff hcheck hc hcorr (checkDraft_draftsInformed hrecheck)

/-- On a degraded state every request for a draft has the note with the reasons, if and only if the
conversation already has it, or the replies to the check of the draft do not ask for another one. -/
theorem drafts_informed_iff {out : Except Raised (GraphState F)} {degraded : Bool}
    {reasons : List Str} (h : Runs (respond settings st) tr out)
    (hd : computeDegradation st = .ok (degraded, reasons)) (hr : reasons ≠ []) :
    DraftsInformed reasons tr ↔
      Informed reasons st.messages ∨ ¬ Redrafted F (completionAnswers tr) := by
  obtain rfl : degraded = true := by
    have hnotes : ∀ {rs : List Str}, rs ≠ [] → (!rs.isEmpty) = true := by simp
    unfold computeDegradation at hd
    cases hn : escalationNotCreated st.escalateResult with
    | error e => rw [hn] at hd; cases hd
    | ok notCreated =>
      rw [hn] at hd
      obtain ⟨rfl, rfl⟩ := Prod.mk.inj (Except.ok.inj hd)
      exact hnotes hr
  have hnoted : Informed reasons (buildSynthesisMessages st (some (degradationNote reasons))) :=
    informed_build.mpr (.inr rfl)
  have hone : ∀ x model, DraftsInformed reasons [(⟨.complete (buildSynthesisMessages st
      (some (degradationNote reasons))) model, x⟩ : Event (Request F) Answer)] := by
    intro x model messages model' y hm _
    cases List.mem_singleton.mp hm
    exact hnoted
  rcases runs_bind.mp h with ⟨u, t, rest, rfl, h₁, h₂⟩ | ⟨e, h₁, -⟩
  · obtain ⟨degraded, reasons', draft, hd', rfl, rfl⟩ := runs_synthesisNode h₁
    rw [hd] at hd'
    obtain ⟨rfl, rfl⟩ := Prod.mk.inj (Except.ok.inj hd')
    obtain ⟨out', hverify⟩ : ∃ out', Runs (verifyClaimsNode settings (st.apply
        { finalResponse := some (.string draft), degraded := some true,
          degradationReasons := some reasons })) rest out' := by
      rcases runs_bind.mp h₂ with ⟨v, t₁, t₂, rfl, h₃, h₄⟩ | ⟨e, h₃, -⟩
      · obtain ⟨rfl, -⟩ := runs_ret.mp h₄
        exact ⟨_, by simpa using h₃⟩
      · exact ⟨_, h₃⟩
    have hdraft : (Json.string draft : Json F).orElse (.string []) = .string draft := by
      cases draft <;> rfl
    have hdrafts := @verifyClaimsNode_drafts F _ _ settings _ rest draft out' reasons hverify hdraft
    have hredrafted : Redrafted F (.ok draft :: completionAnswers rest) ↔
        Flagged F draft (completionAnswers rest) :=
      ⟨fun ⟨_, _, heq, hf⟩ => (by cases heq; exact hf), fun hf => ⟨_, _, rfl, hf⟩⟩
    refine Iff.trans ?_ (hdrafts.trans (or_congr_right (not_congr hredrafted.symm)))
    refine ⟨fun hall messages model x hm => hall messages model x (List.mem_cons_of_mem _ hm),
      fun hall messages model x hm hreq => ?_⟩
    rcases List.mem_cons.mp hm with hm | hm
    · exact hone _ _ messages model x (List.mem_singleton.mpr hm) hreq
    · exact hall messages model x hm hreq
  · -- the synthesis itself was not answered
    unfold synthesisNode at h₁
    rw [hd] at h₁
    change Runs (complete _ settings.modelSynthesis >>= _) tr _ at h₁
    rcases runs_bind.mp h₁ with ⟨draft, t₁, t₂, rfl, -, h₃⟩ | ⟨e', h₂, -⟩
    · cases h₃
    · obtain ⟨x, rfl, hx⟩ := runs_complete.mp h₂
      refine iff_of_true (hone x _) (.inr ?_)
      rintro ⟨draft, rest, heq, -⟩
      cases x with
      | ok raw => cases hx
      | error e => cases heq

/-- The runs of the two nodes are one of `respond`. -/
theorem runs_respond {u : StateUpdate F} {t t' : Trace F} {out : Except Raised (StateUpdate F)}
    (h : Runs (synthesisNode settings st) t (.ok u))
    (h' : Runs (verifyClaimsNode settings (st.apply u)) t' out) :
    Runs (respond settings st) (t ++ t') (out.map (st.apply u).apply) := by
  refine runs_bind.mpr (.inl ⟨u, t, t', rfl, h, runs_bind.mpr ?_⟩)
  cases out with
  | error e => exact .inr ⟨e, h', rfl⟩
  | ok v => exact .inl ⟨v, t', [], (List.append_nil _).symm, h', runs_ret.mpr ⟨rfl, rfl⟩⟩

/-- A turn that comes to a synthesis ends with a run of `respond`. -/
theorem turn_responds {runner : Runner F} {sched : Nat → Nat → Nat → Bool}
    {identity : RequestIdentity} {messages : List Message} {tr : TurnTrace F} {path : List Node}
    {fin : GraphState F} (h : Runs (runTurn runner sched identity messages) tr (.ok (path, fin)))
    (hp : .synthesis ∈ path) :
    ∃ st tr' t t', tr = tr' ++ t.map (Event.tag .synthesis) ++ t'.map (Event.tag .verifyClaims) ∧
      Runs (respond runner.settings st) (t ++ t') (.ok fin) := by
  obtain ⟨salesAgent, accountAgent, -, -, hat⟩ := turn_returns h
  rcases hat.at_end with (rfl | rfl) | ⟨path', st', tr', v, t', rfl, rfl, rfl, hverify, hat'⟩
  · simp at hp
  · simp at hp
  · obtain ⟨path'', st, tr'', u, t, rfl, rfl, rfl, hsynthesis, -⟩ := hat'.from_synthesis
    exact ⟨st, tr'', t, t', rfl, runs_respond hsynthesis hverify⟩

end Respond

/-! ## A draft that is left, and one that is replaced -/

/-- A state whose sales loop has hit its cap. -/
def cappedState : GraphState FloatText :=
  { messages := [⟨.user, "Hi"⟩], identity := ⟨"s-1", none⟩,
    salesResult := some { finalAnswer := .null, toolCalls := [], hitCap := true } }

def cappedReasons : List Str := ["sales_hit_iteration_cap"]

theorem cappedState_degraded :
    @computeDegradation FloatText _ asciiUnicode cappedState = .ok (true, cappedReasons) ∧
    ¬ Informed cappedReasons cappedState.messages := by
  refine ⟨by rfl, fun h => ?_⟩
  cases congrArg (fun m => m.content.head?) (List.mem_singleton.mp h)

theorem cappedState_informed : DraftsInformed cappedReasons
    (exec (replies ["Sorry."]) []
      (@respond FloatText _ asciiUnicode shopRunner.settings cappedState)).1 := by
  let _ := asciiUnicode
  refine (drafts_informed_iff (exec_runs _ _ _) cappedState_degraded.1 (List.cons_ne_nil _ _)).mpr
    (.inr ?_)
  rintro ⟨draft, rest, heq, hm, -⟩
  obtain rfl : str "Sorry." = draft := Except.ok.inj (List.cons.inj heq).1
  revert hm
  decide

/-- The update of its synthesis with that draft. -/
def escalatedUpdate : StateUpdate FloatText where
  finalResponse := some (.string escalatedDraft)
  degraded := some true
  degradationReasons := some cappedReasons

/-- On the draft of `escalatedDraft` the check is not answered in JSON. -/
theorem cappedState_uninformed : ∃ tr out,
    Runs (@respond FloatText _ asciiUnicode shopRunner.settings cappedState) tr out ∧
    @computeDegradation FloatText _ asciiUnicode cappedState = .ok (true, cappedReasons) ∧
    ¬ DraftsInformed cappedReasons tr := by
  let _ := asciiUnicode
  have hdraft : Runs (synthesisNode shopRunner.settings cappedState) [⟨.complete
      (buildSynthesisMessages cappedState (some (degradationNote cappedReasons))) "large",
      .ok escalatedDraft⟩] (.ok escalatedUpdate) :=
    exec_runs (replies [escalatedDraft]) [] _
  have hverify := exec_runs (replies correctedReplies) []
    (verifyClaimsNode shopRunner.settings (cappedState.apply escalatedUpdate))
  have hflagged : Flagged FloatText escalatedDraft (completionAnswers (exec (replies correctedReplies) []
      (verifyClaimsNode shopRunner.settings (cappedState.apply escalatedUpdate))).1) := by
    have hloads : loads (F := FloatText) "maybe" = none := by decide
    have hread : Readable FloatText "maybe" :=
      readable_of_length_le (by decide) (by decide)
    refine ⟨by decide, str "maybe", _, rfl, .inl ⟨fun e hdeep => ?_, fun b => ?_⟩⟩
    · cases hread.symm.trans hdeep.1
    · rintro ⟨-, v, hv, -⟩
      rw [hloads] at hv
      cases hv
  refine ⟨_, _, runs_respond hdraft hverify, cappedState_degraded.1, fun hall => ?_⟩
  refine ((verifyClaimsNode_drafts hverify rfl).mp fun messages model x hm =>
    hall messages model x (List.mem_append_right _ hm)).elim cappedState_degraded.2 fun h => h hflagged

end DealershipAgent
