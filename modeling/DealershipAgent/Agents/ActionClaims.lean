import DealershipAgent.Agents.State
import DealershipAgent.Py.Json.Dump
import DealershipAgent.Py.Json.Limits

/-!
# Action claims

`agents/action_claims.py`: the check of a draft reply, in three stages. Stage 0 looks for words, stages
1 and 2 ask the LLM.

* `checkDraft`: the entry point.
* `check_draft_fails_closed_iff`: it fails closed on every pair of replies but those where stage 2
  lists claims of which one is not of the shape that its prompt asks for, and those that go over a limit
  of `json.loads`.
-/

namespace DealershipAgent

open Py Json Interact

/-- `ACTION_VOCABULARY` -/
def actionVocabulary : List Str :=
  ["escalat", "hand off", "handoff", "handed off", "human agent", "human rep", "specialist",
    "follow up", "follow-up", "reach out", "get back to you", "in touch", "connect you",
    "someone from our team", "someone will", "support ticket", "ticket", "cancel", "refund",
    "reimburse", "book", "schedul", "process your", "processed", "created a", "opened a",
    "submitted", "flagged", "passed along", "passed this along", "forwarded", "updated your",
    "added a note", "team will", "manager"].map str

/-- `STAGE1_SYSTEM_PROMPT` -/
def stage1SystemPrompt : Str :=
  text [
    "You are checking a customer service draft reply for exactly one pattern: does it assert, ",
    "about THIS specific customer's request right now, that a state-changing action was already ",
    "completed or will definitely happen - a human handoff/escalation, an order cancellation, a ",
    "booking/scheduling, a refund, or some other record being created, changed, or removed?\n\n",
    "Answer NO (no claim detected) for all of these, even when they mention the same topics:\n",
    "  - Offers or questions: \"would you like me to...\", \"I can escalate this     if you ",
    "want\", \"should I have someone follow up?\"\n",
    "  - Conditional or hypothetical framing: \"if you return the vehicle, you     would ",
    "receive...\", \"once approved, a refund is issued\", \"if we can't     resolve this, it ",
    "would be escalated\"\n",
    "  - Third-person or general descriptions of dealership policy: \"our     policy is to ",
    "refund...\", \"we offer a buy-back guarantee\", \"our team     can process cancellations\" - ",
    "these describe what the dealership does     in general, not what happened for this customer ",
    "just now\n",
    "  - Describing an existing status or fact (e.g. reporting that an     order's status field ",
    "already says \"confirmed\" or \"cancelled\", or     summarizing a lookup result) - this ",
    "reports information, it does not     claim the assistant just performed an action\n",
    "  - Stating an inability, or an attempted-but-uncertain outcome (\"I tried     to escalate ",
    "this, but the system didn't confirm it went through\")\n\n",
    "Answer YES (claim detected) for a definite, present-tense-or-completed, first-person ",
    "statement about what has been done or will certainly be done for THIS customer right now - ",
    "including passive voice (\"your request has been escalated\", \"a ticket has been created\") ",
    "and definite future promises with no hedge or question (\"someone will follow up with you ",
    "soon\", \"I'm going to escalate this now\"). Check the WHOLE draft: if it opens with an ",
    "offer or an inability statement but then ALSO contains a separate, definite claim later on ",
    "(\"I can't cancel this directly, however I've escalated it and someone will be in touch ",
    "soon\"), answer YES - an offer elsewhere in the same draft does not cancel out a definite ",
    "claim.\n\n",
    "Reply with ONLY a single JSON object: \x7b\"action_claim_detected\": true|false\x7d\n"]

/-- `STAGE2_SYSTEM_PROMPT` -/
def stage2SystemPrompt : Str :=
  text [
    "A customer service draft reply has already been flagged as containing a first-person claim ",
    "that some state-changing action was completed or will definitely happen. Your only job now ",
    "is to decide whether that specific claim is SUBSTANTIATED by the evidence provided from this ",
    "turn.\n\n",
    "For each such claim, classify its type:\n",
    "  - human_handoff: a human agent will or has followed up, taken over, or     the ",
    "conversation was/will be transferred or escalated to a person.\n",
    "  - order_cancelled: an order was cancelled.\n",
    "  - booking_made: a test drive or other booking was made, confirmed, or     scheduled.\n",
    "  - refund_issued: a refund was issued or is being processed.\n",
    "  - other_state_change: any other claim that a record was created,     changed, or removed ",
    "on the customer's behalf.\n\n",
    "A claim is SUBSTANTIATED if EITHER:\n",
    "  - the evidence's tool-call results show a real, successful tool result     for THAT EXACT ",
    "action, matched by type - human_handoff is     substantiated ONLY by an escalation result ",
    "with status \"escalated\";     order_cancelled, booking_made, and refund_issued currently ",
    "have NO     tool in this system that could ever perform them, so those types are     NEVER ",
    "substantiated by any tool result, no matter what else     succeeded. A successful ",
    "search_listings, get_order_status, or     list_my_orders call substantiates nothing on its ",
    "own - it did not     hand anyone off, cancel anything, book anything, or refund anything.     ",
    "Do not treat \"some tool call succeeded this turn\" as evidence for an     unrelated claim ",
    "type. OR\n",
    "  - the claim is actually a general description of dealership policy     that matches the ",
    "retrieved policy text given as evidence, rather     than a claim that the action was ",
    "performed for this customer right     now - in that case it is grounded by the retrieval and ",
    "should be     marked substantiated.\n\n",
    "A failed or skipped tool call, an attempted-but-unconfirmed action, a successful tool call ",
    "of the WRONG type for this claim, or no matching tool result or retrieved text at all does ",
    "NOT substantiate a claim.\n\n",
    "Reply with ONLY a single JSON object:\n",
    "  \x7b\"claims\": [\x7b\"type\": \"<claim type>\", \"quote\": \"<exact phrase from the ",
    "draft>\", \"substantiated\": true|false\x7d]\x7d\n",
    "If, on reflection, there is no real action claim after all, reply \x7b\"claims\": []\x7d.\n"]

/-- `SAFE_FALLBACK_TEXT` -/
def safeFallbackText : Str :=
  text [
    "I'm not able to confirm that this specific action was completed. Please contact our team ",
    "directly so a person can help with this request."]

/-- `CORRECTION_INSTRUCTION_TEMPLATE`, filled in. -/
def correctionInstruction (violations : Str) : Str :=
  text [
    "Your previous draft made these claim(s) that are not supported by the actual tool results ",
    "from this turn:\n\n"] ++
  violations ++
  text [
    "\n\n",
    "Rewrite your reply WITHOUT making any of these claims. If you were unable to fully complete ",
    "part of the customer's request, say so honestly instead of claiming it was done. Do not ",
    "mention this correction instruction itself - just give the corrected reply.\n"]

inductive VerificationLabel where
  | violation
  | clean
deriving DecidableEq, Repr

structure VerificationOutcome (F : Type) where
  label : VerificationLabel
  claims : List (Json F) := []
  skippedPrecheck : Bool := false
  stage1Detected : Option Bool := none
  unparseable : Bool := false

section CheckDraft

variable {F : Type} [PyFloat F] [Unicode]

omit [PyFloat F] in
def mentionsActionVocabulary (text : Str) : Bool :=
  let lowered := Unicode.lower text
  actionVocabulary.any fun keyword => isIn keyword lowered

/-- The exceptions that both stages take for an unparseable reply. -/
def isParseError (e : Exc) : Bool :=
  e.kind = .jsonDecodeError || e.kind = .keyError || e.kind = .valueError || e.kind = .typeError

/-- `try`, where an unparseable reply is `None`. -/
def noneIfUnparseable {α : Type} (x : Except Exc α) : Program F (Option α) :=
  match x with
  | .ok a => return some a
  | .error e => if isParseError e then return none else code (.error e)

/-- `json.loads(raw)[key]` -/
def loadField (raw key : Str) : Except Exc (Json F) := do
  let parsed ← loadsOrRaise raw
  parsed.subscript key

/-- The stage 1 reply: the field must be a boolean. -/
def parseStage1 (raw : Str) : Except Exc Bool := do
  match ← loadField (F := F) raw "action_claim_detected" with
  | .bool b => return b
  | _ => .error ⟨.valueError, "action_claim_detected is not a bool"⟩

def stage1Messages (draftText : Str) : List Message :=
  [⟨.system, stage1SystemPrompt⟩, ⟨.user, str "Draft reply:\n" ++ draftText⟩]

def detectActionClaim (model draftText : Str) : Program F (Option Bool) := do
  let raw ← complete (stage1Messages draftText) model
  noneIfUnparseable (parseStage1 (F := F) raw)

/-- The stage 2 reply: the field must be a list. -/
def parseStage2 (raw : Str) : Except Exc (List (Json F)) := do
  match ← loadField raw "claims" with
  | .array claims => return claims
  | _ => .error ⟨.valueError, "claims is not a list"⟩

def stage2Messages (draftText : Str) (evidence : Json F) : List Message :=
  [⟨.system, stage2SystemPrompt⟩, ⟨.user, str "Draft reply:\n" ++ draftText ++
    str "\n\nAvailable tool evidence:\n" ++ dumps evidence⟩]

def verifyActionClaims (model draftText : Str) (evidence : Json F) :
    Program F (Option (List (Json F))) := do
  let raw ← complete (stage2Messages draftText evidence) model
  noneIfUnparseable (parseStage2 raw)

/-- `[c for c in claims if not c.get("substantiated")]` -/
def unsubstantiated : List (Json F) → Except Exc (List (Json F))
  | [] => .ok []
  | c :: cs => do
    let kvs ← c.asDict
    let rest ← unsubstantiated cs
    return if (dictGet kvs "substantiated").truthy then rest else c :: rest

/-- The outcome for the claims of stage 2. -/
def judge (claims : List (Json F)) : Except Exc (VerificationOutcome F) := do
  let claims ← unsubstantiated claims
  return { label := if claims.isEmpty then .clean else .violation, claims := claims,
           stage1Detected := some true }

def checkDraft (model draftText : Str) (evidence : Json F) : Program F (VerificationOutcome F) := do
  if !mentionsActionVocabulary draftText then
    return { label := .clean, skippedPrecheck := true }
  match ← detectActionClaim model draftText with
  | none => return { label := .violation, unparseable := true }
  | some false => return { label := .clean, stage1Detected := some false }
  | some true =>
    match ← verifyActionClaims model draftText evidence with
    | none => return { label := .violation, stage1Detected := some true, unparseable := true }
    | some claims => code (judge claims)

/-- A line of `format_violations`. -/
def violationLine (c : Json F) : Except Exc Str := do
  let type ← c.subscript "type"
  let quote ← c.subscript "quote"
  return str "- [" ++ type.pyStr ++ str "] \"" ++ quote.pyStr ++ str "\""

/-- `format_violations` -/
def formatViolations (claims : List (Json F)) : Except Exc Str := do
  let lines ← claims.mapM violationLine
  return join "\n" lines

end CheckDraft

/-! ## Evidence -/

section Evidence

variable {F : Type} [PyFloat F]

/-- The `content` of a retrieved chunk, if there is any. -/
def chunkContent : Json F → Option (Json F)
  | .object kvs =>
    let content := dictGet kvs "content"
    if content.truthy then some content else none
  | _ => none

/-- `_extract_retrieved_policy_snippets`, over the tool calls. -/
def extractRetrievedPolicySnippets : List (ToolCall F) → Except Exc (List (Json F))
  | [] => .ok []
  | call :: calls =>
    if call.tool.eqStr "search_policy_docs" then do
      let chunks ← (call.resultOrNone.orElse (.array [])).iter
      let rest ← extractRetrievedPolicySnippets calls
      return chunks.filterMap chunkContent ++ rest
    else extractRetrievedPolicySnippets calls

omit [PyFloat F] in
def toolSummary : Option (ToolLoopResult F) → Json F
  | none => .null
  | some result => .array (result.toolCalls.map fun call =>
      .object [("tool", call.tool), ("succeeded", .bool !call.hasError)])

def buildEvidenceSummary (st : GraphState F) : Except Exc (Json F) := do
  let snippets ← extractRetrievedPolicySnippets ((st.salesResult.map (·.toolCalls)).getD [])
  return .object [("sales_tool_calls", toolSummary st.salesResult),
    ("account_tool_calls", toolSummary st.accountResult),
    ("escalation_result", st.escalateResult),
    ("retrieved_policy_snippets", .array snippets)]

end Evidence

/-! ## Failing closed -/

section FailsClosed

variable {F : Type} [PyFloat F]

/-- An LLM that gives these texts one after the other. -/
def replies (raws : List Str) : Env (Request F) Answer := fun h r =>
  match r with
  | .complete _ _ => .ok (raws.getD h.length [])
  | .callTool _ _ => .error ⟨.runtimeError, []⟩

/-- The stage 1 reply is an object whose `action_claim_detected` is the boolean `b`. -/
def Stage1Says (F : Type) [PyFloat F] (raw : Str) (b : Bool) : Prop :=
  ∃ v : Json F, loads raw = some v ∧ v.HasMember "action_claim_detected" (.bool b)

/-- The stage 2 reply is an object whose `claims` is the list `claims`. -/
def Stage2Lists (raw : Str) (claims : List (Json F)) : Prop :=
  ∃ v, loads raw = some v ∧ v.HasMember "claims" (.array claims)

omit [PyFloat F] in
/-- The shape of an entry that the stage 2 prompt asks for (`ActionClaim`). -/
def ActionClaim (c : Json F) : Prop :=
  (∃ type, c.HasMember "type" (.string type)) ∧ (∃ quote, c.HasMember "quote" (.string quote)) ∧
    ∃ b, c.HasMember "substantiated" (.bool b)

/-- The stage 2 reply has the shape that its prompt asks for. -/
def Stage2Shape (F : Type) [PyFloat F] (raw : Str) : Prop :=
  ∃ claims : List (Json F), Stage2Lists raw claims ∧ ∀ c ∈ claims, ActionClaim c

/-- Stage 2 lists claims that are all substantiated. -/
def AllSubstantiated (F : Type) [PyFloat F] (raw : Str) : Prop :=
  ∃ claims : List (Json F), Stage2Lists raw claims ∧
    ∀ c ∈ claims, c.HasMember "substantiated" (.bool true)

/-- Stage 1 reads the boolean `b`. -/
def Stage1Reads (F : Type) [PyFloat F] (raw : Str) (b : Bool) : Prop :=
  Readable F raw ∧ Stage1Says F raw b

/-- Stage 2 reads the list `claims`. -/
def Stage2Reads (raw : Str) (claims : List (Json F)) : Prop :=
  Readable F raw ∧ Stage2Lists raw claims

/-- `json.loads` raises the `RecursionError` `e`. Both stages catch a `ValueError`, so of the two limits
only this one gets out of them. -/
def TooDeep (F : Type) [PyFloat F] (raw : Str) (e : Exc) : Prop :=
  limitError F raw = some e ∧ e.kind = .recursionError

/-- A stage of the check of a draft sends this. -/
def IsStage (messages : List Message) : Prop :=
  messages.head? = some ⟨.system, stage1SystemPrompt⟩ ∨
    messages.head? = some ⟨.system, stage2SystemPrompt⟩

variable [Unicode]

/-- What a check that fails closed makes of a draft and the two replies: it returns, its label is
`clean` exactly in the three cases, and `unparseable` says that a stage that ran (`tr` are its requests)
was not given the shape it asked for. -/
def FailsClosed (draftText raw₁ raw₂ : Str) (tr : Trace F)
    (out : Except Raised (VerificationOutcome F)) : Prop :=
  ∃ o, out = .ok o ∧
    (o.label = .clean ↔ mentionsActionVocabulary draftText = false ∨ Stage1Says F raw₁ false ∨
      (Stage1Says F raw₁ true ∧ AllSubstantiated F raw₂)) ∧
    (o.unparseable = true ↔ (0 < tr.length ∧ ∀ b, ¬ Stage1Says F raw₁ b) ∨
      (1 < tr.length ∧ ¬ Stage2Shape F raw₂))

/-- The replies that a check fails closed on: what a stage reads goes over no limit that it lets out or
that hides a reply of the right shape, and the entries that stage 2 reads have the shape that its prompt
asks for. -/
def ClosesOn (F : Type) [PyFloat F] (raw₁ raw₂ : Str) : Prop :=
  (∀ e, ¬ TooDeep F raw₁ e) ∧ (∀ b, Stage1Says F raw₁ b → Readable F raw₁) ∧
    (Stage1Says F raw₁ true →
      (∀ e, ¬ TooDeep F raw₂ e) ∧ (AllSubstantiated F raw₂ ∨ Stage2Shape F raw₂ → Readable F raw₂) ∧
      ∀ claims : List (Json F), Stage2Reads raw₂ claims → ∀ c ∈ claims, ActionClaim c)

/-- What the parsers read of a reply: the field, if the reply goes over no limit and is an object that
has it. -/
theorem loadField_cases (raw key : Str) :
    (∃ w : Json F, loadField raw key = .ok w ∧ Readable F raw ∧
      ∃ v, loads raw = some v ∧ v.HasMember key w) ∨
    (∃ e, loadField (F := F) raw key = .error e ∧ isParseError e = true ∧ (∀ e', ¬ TooDeep F raw e') ∧
      (Readable F raw → ∀ v w : Json F, loads raw = some v → ¬ v.HasMember key w)) ∨
    ∃ e, loadField (F := F) raw key = .error e ∧ TooDeep F raw e := by
  unfold loadField
  cases hl : loadsOrRaise (F := F) raw with
  | error e =>
    rcases loadsOrRaise_eq_error hl with hlimit | ⟨hread, hk, hn⟩
    · rcases limitError_isLimit hlimit with hk | hk
      · have hun : ¬ Readable F raw := not_readable.mpr ⟨e, hlimit⟩
        refine .inr (.inl ⟨e, rfl, by simp [isParseError, hk], fun e' h => ?_, fun h => absurd h hun⟩)
        obtain rfl := Option.some.inj (hlimit.symm.trans h.1)
        cases hk.symm.trans h.2
      · exact .inr (.inr ⟨e, rfl, hlimit, hk⟩)
    · refine .inr (.inl ⟨e, rfl, by simp [isParseError, hk], fun e' h => ?_, fun _ v w h _ => ?_⟩)
      · cases hread.symm.trans h.1
      · rw [hn] at h
        cases h
  | ok v =>
    obtain ⟨hread, hv⟩ := loadsOrRaise_eq_ok.mp hl
    cases hs : v.subscript key with
    | error e =>
      refine .inr (.inl ⟨e, hs, ?_, fun e' h => ?_, fun _ v' w h hm => ?_⟩)
      · rcases subscript_error_kind hs with hk | hk <;> simp [isParseError, hk]
      · cases hread.symm.trans h.1
      · obtain rfl := Option.some.inj (hv.symm.trans h)
        rw [subscript_eq_ok.mpr hm] at hs
        cases hs
    | ok w => exact .inl ⟨w, hs, hread, v, hv, subscript_eq_ok.mp hs⟩

omit [Unicode] in
/-- The field of a reply is unique. -/
theorem reply_member {raw key : Str} {v w : Json F} (hv : loads raw = some v)
    (hw : v.HasMember key w) (w' : Json F) :
    (∃ u, loads raw = some u ∧ u.HasMember key w') ↔ w = w' := by
  refine ⟨fun ⟨u, hu, hm⟩ => ?_, fun h => ⟨v, hv, h ▸ hw⟩⟩
  obtain rfl := Option.some.inj (hv.symm.trans hu)
  exact hw.unique hm

/-- `parseStage1` returns the boolean that it reads, and else raises what is caught, or that the reply is
too deep. -/
theorem parseStage1_cases (raw : Str) :
    (∃ b, parseStage1 (F := F) raw = .ok b ∧ Readable F raw ∧ ∀ b', Stage1Says F raw b' ↔ b = b') ∨
    (∃ e, parseStage1 (F := F) raw = .error e ∧ isParseError e = true ∧ (∀ e', ¬ TooDeep F raw e') ∧
      ∀ b, ¬ Stage1Reads F raw b) ∨
    ∃ e, parseStage1 (F := F) raw = .error e ∧ TooDeep F raw e := by
  unfold parseStage1
  rcases loadField_cases (F := F) raw "action_claim_detected" with
    ⟨w, hload, hread, v, hv, hw⟩ | ⟨e, hload, he, hdeep, hno⟩ | ⟨e, hload, hdeep⟩
  · have hsaid : ∀ b, Stage1Says F raw b ↔ w = .bool b := fun b => reply_member hv hw _
    have hdeep : ∀ e, ¬ TooDeep F raw e := fun e h => by cases hread.symm.trans h.1
    rw [hload]
    cases w with
    | bool b => exact .inl ⟨b, rfl, hread, fun b' => by rw [hsaid, Json.bool.injEq]⟩
    | _ => exact .inr (.inl ⟨_, rfl, rfl, hdeep, fun b h => by cases (hsaid b).mp h.2⟩)
  · rw [hload]
    exact .inr (.inl ⟨e, rfl, he, hdeep, fun b ⟨hread, v, hv, hm⟩ => hno hread v _ hv hm⟩)
  · rw [hload]
    exact .inr (.inr ⟨e, rfl, hdeep⟩)

/-- `parseStage2` returns the list that it reads, and else raises what is caught, or that the reply is too
deep. -/
theorem parseStage2_cases (raw : Str) :
    (∃ claims : List (Json F), parseStage2 raw = .ok claims ∧ Readable F raw ∧
      ∀ claims', Stage2Lists raw claims' ↔ claims = claims') ∨
    (∃ e, parseStage2 (F := F) raw = .error e ∧ isParseError e = true ∧ (∀ e', ¬ TooDeep F raw e') ∧
      ∀ claims : List (Json F), ¬ Stage2Reads raw claims) ∨
    ∃ e, parseStage2 (F := F) raw = .error e ∧ TooDeep F raw e := by
  unfold parseStage2
  rcases loadField_cases (F := F) raw "claims" with
    ⟨w, hload, hread, v, hv, hw⟩ | ⟨e, hload, he, hdeep, hno⟩ | ⟨e, hload, hdeep⟩
  · have hlists : ∀ claims, Stage2Lists raw claims ↔ w = .array claims :=
      fun claims => reply_member hv hw _
    have hdeep : ∀ e, ¬ TooDeep F raw e := fun e h => by cases hread.symm.trans h.1
    rw [hload]
    cases w with
    | array claims => exact .inl ⟨claims, rfl, hread, fun c => by rw [hlists, Json.array.injEq]⟩
    | _ => exact .inr (.inl ⟨_, rfl, rfl, hdeep, fun c h => by cases (hlists c).mp h.2⟩)
  · rw [hload]
    exact .inr (.inl ⟨e, rfl, he, hdeep, fun claims ⟨hread, v, hv, hm⟩ => hno hread v _ hv hm⟩)
  · rw [hload]
    exact .inr (.inr ⟨e, rfl, hdeep⟩)

omit [Unicode] in
/-- On entries of the right shape the filter returns, and leaves nothing exactly when all are
substantiated. -/
theorem unsubstantiated_of_shape {claims : List (Json F)} (h : ∀ c ∈ claims, ActionClaim c) :
    ∃ rest, unsubstantiated claims = .ok rest ∧
      (rest = [] ↔ ∀ c ∈ claims, c.HasMember "substantiated" (.bool true)) := by
  induction claims with
  | nil => exact ⟨[], rfl, by simp⟩
  | cons c cs ih =>
    obtain ⟨rest, hrest, hiff⟩ := ih fun d hd => h d (by simp [hd])
    obtain ⟨-, -, b, hb⟩ := h c (by simp)
    have hone : c.HasMember "substantiated" (.bool true) ↔ b = true :=
      ⟨fun hm => Json.bool.inj (hb.unique hm), fun hb' => hb' ▸ hb⟩
    obtain ⟨kvs, rfl, hlook⟩ := hb
    have hget : dictGet kvs "substantiated" = .bool b := by rw [dictGet, dictGetD, hlook]; rfl
    cases b with
    | true =>
      refine ⟨rest, ?_, ?_⟩
      · rw [unsubstantiated, hrest]
        simp [asDict, hget, truthy, bind, Except.bind, pure, Except.pure]
      · rw [hiff, List.forall_mem_cons, hone]
        simp
    | false =>
      refine ⟨.object kvs :: rest, ?_, ?_⟩
      · rw [unsubstantiated, hrest]
        simp [asDict, hget, truthy, bind, Except.bind, pure, Except.pure]
      · rw [List.forall_mem_cons, hone]
        simp

/-! ## The runs of a check -/

omit [PyFloat F] [Unicode] in
theorem runs_noneIfUnparseable_ok {α : Type} {a : α} {tr : Trace F} {out : Except Raised (Option α)}
    (h : Runs (noneIfUnparseable (.ok a)) tr out) : tr = [] ∧ out = .ok (some a) :=
  runs_ret.mp h

omit [PyFloat F] [Unicode] in
theorem runs_noneIfUnparseable_caught {α : Type} {e : Exc} {tr : Trace F}
    {out : Except Raised (Option α)} (h : Runs (noneIfUnparseable (.error e)) tr out)
    (he : isParseError e = true) : tr = [] ∧ out = .ok none := by
  rw [noneIfUnparseable, if_pos he] at h
  exact runs_ret.mp h

omit [Unicode] in
/-- A `RecursionError` is caught nowhere. -/
theorem runs_noneIfUnparseable_tooDeep {α : Type} {raw : Str} {e : Exc} {tr : Trace F}
    {out : Except Raised (Option α)} (h : Runs (noneIfUnparseable (.error e)) tr out)
    (he : TooDeep F raw e) : tr = [] ∧ out = .error (.code e) := by
  rw [noneIfUnparseable, if_neg (by simp [isParseError, he.2])] at h
  exact runs_code.mp h

/-- What a stage makes of its reply: it reads a value, it does not and lets none through, or the reply is
too deep. -/
inductive StageEnd {α : Type} (Reads : α → Prop) (raw : Str) : Except Raised (Option α) → Prop
  | read (a : α) : Reads a → StageEnd Reads raw (.ok (some a))
  | unparseable : (∀ e, ¬ TooDeep F raw e) → (∀ a, ¬ Reads a) → StageEnd Reads raw (.ok none)
  | tooDeep (e : Exc) : TooDeep F raw e → StageEnd Reads raw (.error (.code e))

/-- A run of stage 1: the request fails, or the reply is read. -/
theorem runs_detectActionClaim {model draftText : Str} {tr : Trace F}
    {out : Except Raised (Option Bool)} (h : Runs (detectActionClaim model draftText) tr out) :
    (∃ e, tr = [⟨.complete (stage1Messages draftText) model, .error e⟩] ∧
      out = .error (.provider e)) ∨
    ∃ raw, tr = [⟨.complete (stage1Messages draftText) model, .ok raw⟩] ∧
      StageEnd (F := F) (Stage1Reads F raw) raw out := by
  rcases runs_bind.mp h with ⟨raw, tr₁, tr₂, rfl, h₁, h₂⟩ | ⟨e, h₁, rfl⟩
  · obtain ⟨x, rfl, hx⟩ := runs_complete.mp h₁
    cases x with
    | error e => cases hx
    | ok raw' =>
      cases hx
      refine .inr ⟨raw, ?_⟩
      rcases parseStage1_cases (F := F) raw with
        ⟨b, hp, hread, hsaid⟩ | ⟨e, hp, he, hdeep, hno⟩ | ⟨e, hp, hdeep⟩
      · rw [hp] at h₂
        obtain ⟨rfl, rfl⟩ := runs_noneIfUnparseable_ok h₂
        exact ⟨rfl, .read b ⟨hread, (hsaid b).mpr rfl⟩⟩
      · rw [hp] at h₂
        obtain ⟨rfl, rfl⟩ := runs_noneIfUnparseable_caught h₂ he
        exact ⟨rfl, .unparseable hdeep hno⟩
      · rw [hp] at h₂
        obtain ⟨rfl, rfl⟩ := runs_noneIfUnparseable_tooDeep h₂ hdeep
        exact ⟨rfl, .tooDeep e hdeep⟩
  · obtain ⟨x, rfl, hx⟩ := runs_complete.mp h₁
    cases x with
    | error e => cases hx; exact .inl ⟨e, rfl, rfl⟩
    | ok raw => cases hx

/-- A run of stage 2: the request fails, or the reply is read. -/
theorem runs_verifyActionClaims {model draftText : Str} {evidence : Json F} {tr : Trace F}
    {out : Except Raised (Option (List (Json F)))}
    (h : Runs (verifyActionClaims model draftText evidence) tr out) :
    (∃ e, tr = [⟨.complete (stage2Messages draftText evidence) model, .error e⟩] ∧
      out = .error (.provider e)) ∨
    ∃ raw, tr = [⟨.complete (stage2Messages draftText evidence) model, .ok raw⟩] ∧
      StageEnd (F := F) (Stage2Reads raw) raw out := by
  rcases runs_bind.mp h with ⟨raw, tr₁, tr₂, rfl, h₁, h₂⟩ | ⟨e, h₁, rfl⟩
  · obtain ⟨x, rfl, hx⟩ := runs_complete.mp h₁
    cases x with
    | error e => cases hx
    | ok raw' =>
      cases hx
      refine .inr ⟨raw, ?_⟩
      rcases parseStage2_cases (F := F) raw with
        ⟨claims, hp, hread, hlists⟩ | ⟨e, hp, he, hdeep, hno⟩ | ⟨e, hp, hdeep⟩
      · rw [hp] at h₂
        obtain ⟨rfl, rfl⟩ := runs_noneIfUnparseable_ok h₂
        exact ⟨rfl, .read claims ⟨hread, (hlists claims).mpr rfl⟩⟩
      · rw [hp] at h₂
        obtain ⟨rfl, rfl⟩ := runs_noneIfUnparseable_caught h₂ he
        exact ⟨rfl, .unparseable hdeep hno⟩
      · rw [hp] at h₂
        obtain ⟨rfl, rfl⟩ := runs_noneIfUnparseable_tooDeep h₂ hdeep
        exact ⟨rfl, .tooDeep e hdeep⟩
  · obtain ⟨x, rfl, hx⟩ := runs_complete.mp h₁
    cases x with
    | error e => cases hx; exact .inl ⟨e, rfl, rfl⟩
    | ok raw => cases hx

/-- The runs of a check, by the stages that it reaches. -/
inductive DraftRun (model draftText : Str) (evidence : Json F) :
    Trace F → Except Raised (VerificationOutcome F) → Prop
  | skipped : mentionsActionVocabulary draftText = false →
      DraftRun model draftText evidence [] (.ok { label := .clean, skippedPrecheck := true })
  | stage1Failed (e : Exc) : mentionsActionVocabulary draftText = true →
      DraftRun model draftText evidence
        [⟨.complete (stage1Messages draftText) model, .error e⟩] (.error (.provider e))
  | stage1TooDeep (raw : Str) (e : Exc) : mentionsActionVocabulary draftText = true →
      TooDeep F raw e →
      DraftRun model draftText evidence
        [⟨.complete (stage1Messages draftText) model, .ok raw⟩] (.error (.code e))
  | stage1Unparseable (raw : Str) : mentionsActionVocabulary draftText = true →
      (∀ e, ¬ TooDeep F raw e) → (∀ b, ¬ Stage1Reads F raw b) →
      DraftRun model draftText evidence [⟨.complete (stage1Messages draftText) model, .ok raw⟩]
        (.ok { label := .violation, unparseable := true })
  | noClaim (raw : Str) : mentionsActionVocabulary draftText = true → Stage1Reads F raw false →
      DraftRun model draftText evidence [⟨.complete (stage1Messages draftText) model, .ok raw⟩]
        (.ok { label := .clean, stage1Detected := some false })
  | stage2Failed (raw : Str) (e : Exc) : mentionsActionVocabulary draftText = true →
      Stage1Reads F raw true →
      DraftRun model draftText evidence [⟨.complete (stage1Messages draftText) model, .ok raw⟩,
        ⟨.complete (stage2Messages draftText evidence) model, .error e⟩] (.error (.provider e))
  | stage2TooDeep (raw raw' : Str) (e : Exc) : mentionsActionVocabulary draftText = true →
      Stage1Reads F raw true → TooDeep F raw' e →
      DraftRun model draftText evidence [⟨.complete (stage1Messages draftText) model, .ok raw⟩,
        ⟨.complete (stage2Messages draftText evidence) model, .ok raw'⟩] (.error (.code e))
  | stage2Unparseable (raw raw' : Str) : mentionsActionVocabulary draftText = true →
      Stage1Reads F raw true → (∀ e, ¬ TooDeep F raw' e) →
      (∀ claims : List (Json F), ¬ Stage2Reads raw' claims) →
      DraftRun model draftText evidence [⟨.complete (stage1Messages draftText) model, .ok raw⟩,
        ⟨.complete (stage2Messages draftText evidence) model, .ok raw'⟩]
        (.ok { label := .violation, stage1Detected := some true, unparseable := true })
  | judged (raw raw' : Str) (claims : List (Json F)) : mentionsActionVocabulary draftText = true →
      Stage1Reads F raw true → Stage2Reads raw' claims →
      DraftRun model draftText evidence [⟨.complete (stage1Messages draftText) model, .ok raw⟩,
        ⟨.complete (stage2Messages draftText evidence) model, .ok raw'⟩]
        ((judge claims).mapError Raised.code)

theorem runs_checkDraft {model draftText : Str} {evidence : Json F} {tr : Trace F}
    {out : Except Raised (VerificationOutcome F)}
    (h : Runs (checkDraft model draftText evidence) tr out) :
    DraftRun model draftText evidence tr out := by
  unfold checkDraft at h
  cases hm : mentionsActionVocabulary draftText with
  | false =>
    rw [hm] at h
    obtain ⟨rfl, rfl⟩ := runs_ret.mp h
    exact .skipped hm
  | true =>
    rw [hm] at h
    rcases runs_bind.mp h with ⟨detected, tr₁, tr₂, rfl, h₁, h₂⟩ | ⟨e, h₁, rfl⟩
    · rcases runs_detectActionClaim h₁ with ⟨e, -, he⟩ | ⟨raw, rfl, hend⟩
      · cases he
      cases hend with
      | unparseable hdeep hno =>
        obtain ⟨rfl, rfl⟩ := runs_ret.mp h₂
        exact .stage1Unparseable raw hm hdeep hno
      | read b hb =>
        cases b with
        | false =>
          obtain ⟨rfl, rfl⟩ := runs_ret.mp h₂
          exact .noClaim raw hm hb
        | true =>
          rcases runs_bind.mp h₂ with ⟨claims, tr₃, tr₄, rfl, h₃, h₄⟩ | ⟨e, h₃, rfl⟩
          · rcases runs_verifyActionClaims h₃ with ⟨e, -, he⟩ | ⟨raw', rfl, hend⟩
            · cases he
            cases hend with
            | read claims hc =>
              obtain ⟨rfl, rfl⟩ := runs_code.mp h₄
              exact .judged raw raw' claims hm hb hc
            | unparseable hdeep hno =>
              obtain ⟨rfl, rfl⟩ := runs_ret.mp h₄
              exact .stage2Unparseable raw raw' hm hb hdeep hno
          · rcases runs_verifyActionClaims h₃ with ⟨e, rfl, he⟩ | ⟨raw', rfl, hend⟩
            · cases he
              exact .stage2Failed raw e hm hb
            cases hend with
            | tooDeep e hdeep => exact .stage2TooDeep raw raw' e hm hb hdeep
    · rcases runs_detectActionClaim h₁ with ⟨e, rfl, he⟩ | ⟨raw, rfl, hend⟩
      · cases he
        exact .stage1Failed e hm
      cases hend with
      | tooDeep e hdeep => exact .stage1TooDeep raw e hm hdeep

/-! ## When it fails closed -/

omit [Unicode] in
theorem Stage1Says.unique {raw : Str} {b b' : Bool} (h : Stage1Says F raw b)
    (h' : Stage1Says F raw b') : b = b' := by
  obtain ⟨v, hv, hm⟩ := h
  exact Json.bool.inj ((reply_member hv hm _).mp h')

omit [Unicode] in
theorem Stage2Lists.unique {raw : Str} {claims claims' : List (Json F)}
    (h : Stage2Lists raw claims) (h' : Stage2Lists raw claims') : claims = claims' := by
  obtain ⟨v, hv, hm⟩ := h
  exact Json.array.inj ((reply_member hv hm _).mp h')

omit [Unicode] in
theorem judge_parseable {claims : List (Json F)} {o : VerificationOutcome F}
    (h : (judge claims).mapError Raised.code = .ok o) : o.unparseable = false := by
  unfold judge at h
  cases hu : unsubstantiated claims with
  | error e => rw [hu] at h; cases h
  | ok rest => rw [hu] at h; cases h; rfl

omit [Unicode] in
theorem Stage1Reads.not_tooDeep {raw : Str} {b : Bool} (h : Stage1Reads F raw b) (e : Exc) :
    ¬ TooDeep F raw e := fun hdeep => by cases h.1.symm.trans hdeep.1

omit [Unicode] in
/-- A stage 1 that reads `false` asks for nothing more. -/
theorem closesOn_of_false {raw₁ raw₂ : Str} (h : Stage1Reads F raw₁ false) :
    ClosesOn F raw₁ raw₂ :=
  ⟨h.not_tooDeep, fun _ _ => h.1, fun ht => by cases ht.unique h.2⟩

omit [Unicode] in
/-- Where stage 1 reads `true`, everything is said of the reply to stage 2. -/
theorem closesOn_of_true {raw₁ raw₂ : Str} (h : Stage1Reads F raw₁ true) :
    ClosesOn F raw₁ raw₂ ↔ (∀ e, ¬ TooDeep F raw₂ e) ∧
      (AllSubstantiated F raw₂ ∨ Stage2Shape F raw₂ → Readable F raw₂) ∧
      ∀ claims : List (Json F), Stage2Reads raw₂ claims → ∀ c ∈ claims, ActionClaim c :=
  ⟨fun hc => hc.2.2 h.2, fun hc => ⟨h.not_tooDeep, fun _ _ => h.1, fun _ => hc⟩⟩

/-- Where stage 1 reads nothing and is not too deep, the check fails closed exactly when the text says
nothing: else the limit hides what it says. -/
theorem failsClosed_unread {draftText raw₁ raw₂ : Str} {event : Event (Request F) Answer}
    (hm : mentionsActionVocabulary draftText = true) (hdeep : ∀ e, ¬ TooDeep F raw₁ e)
    (hno : ∀ b, ¬ Stage1Reads F raw₁ b) :
    FailsClosed draftText raw₁ raw₂ [event] (.ok { label := .violation, unparseable := true }) ↔
      ClosesOn F raw₁ raw₂ := by
  have hsilent : ClosesOn F raw₁ raw₂ ↔ ∀ b, ¬ Stage1Says F raw₁ b :=
    ⟨fun ⟨_, hread, _⟩ b hb => hno b ⟨hread b hb, hb⟩,
      fun h => ⟨hdeep, fun b hb => absurd hb (h b), fun hb => absurd hb (h true)⟩⟩
  rw [hsilent]
  refine ⟨fun ⟨o, ho, _, hun⟩ => ?_, fun h => ⟨_, rfl, (by simp [hm, h]), (by simp [h])⟩⟩
  cases ho
  rcases hun.mp rfl with h | h
  · exact h.2
  · exact absurd h.1 (by simp)

/-- Where stage 2 reads nothing and is not too deep, the check fails closed exactly when no limit hides a
reply that has the shape or is all substantiated. -/
theorem failsClosed_unread_claims {draftText raw₁ raw₂ : Str} {tr : Trace F}
    (hm : mentionsActionVocabulary draftText = true) (h₁ : Stage1Reads F raw₁ true)
    (hlen : tr.length = 2) (hdeep : ∀ e, ¬ TooDeep F raw₂ e)
    (hno : ∀ claims : List (Json F), ¬ Stage2Reads raw₂ claims) :
    FailsClosed draftText raw₁ raw₂ tr
        (.ok { label := .violation, stage1Detected := some true, unparseable := true }) ↔
      ClosesOn F raw₁ raw₂ := by
  have hnf : ¬ Stage1Says F raw₁ false := fun h => by cases h.unique h₁.2
  have hlists : AllSubstantiated F raw₂ ∨ Stage2Shape F raw₂ → ¬ Readable F raw₂ := by
    rintro (⟨claims, h, -⟩ | ⟨claims, h, -⟩) hread
    · exact hno claims ⟨hread, h⟩
    · exact hno claims ⟨hread, h⟩
  have hhidden : ClosesOn F raw₁ raw₂ ↔ ¬ AllSubstantiated F raw₂ ∧ ¬ Stage2Shape F raw₂ := by
    rw [closesOn_of_true h₁, ← not_or]
    exact ⟨fun ⟨_, hread, _⟩ h => hlists h (hread h),
      fun h => ⟨hdeep, fun h' => absurd h' h, fun claims hc => absurd hc (hno claims)⟩⟩
  rw [hhidden]
  refine ⟨fun ⟨o, ho, hlab, hun⟩ => ?_, fun ⟨ha, hs⟩ => ⟨_, rfl, ?_, ?_⟩⟩
  · cases ho
    refine ⟨fun ha => (by cases hlab.mpr (.inr (.inr ⟨h₁.2, ha⟩))), ?_⟩
    rcases hun.mp rfl with h | h
    · exact absurd h₁.2 (h.2 true)
    · exact h.2
  · simp [hm, hnf, ha]
  · simp [hlen, hs]

/-- Where stage 2 reads its claims, the check fails closed exactly when they have the shape that was
asked for: otherwise it raises, or does not say that the reply was unparseable. -/
theorem failsClosed_judged {draftText raw₁ raw₂ : Str} {claims : List (Json F)} {tr : Trace F}
    (hm : mentionsActionVocabulary draftText = true) (h₁ : Stage1Reads F raw₁ true)
    (hlen : tr.length = 2) (h₂ : Stage2Reads raw₂ claims) :
    FailsClosed draftText raw₁ raw₂ tr ((judge claims).mapError Raised.code) ↔
      ClosesOn F raw₁ raw₂ := by
  have hnf : ¬ Stage1Says F raw₁ false := fun h => by cases h.unique h₁.2
  have hcloses : ClosesOn F raw₁ raw₂ ↔ ∀ c ∈ claims, ActionClaim c := by
    rw [closesOn_of_true h₁]
    exact ⟨fun h => h.2.2 claims h₂, fun h => ⟨fun e hdeep => (by cases h₂.1.symm.trans hdeep.1),
      fun _ => h₂.1, fun claims' h' => h₂.2.unique h'.2 ▸ h⟩⟩
  rw [hcloses]
  refine ⟨fun ⟨o, ho, _, hun⟩ => ?_, fun hshape => ?_⟩
  · by_contra hbad
    have hns : ¬ Stage2Shape F raw₂ := by
      intro ⟨claims', h', hall⟩
      rw [← h₂.2.unique h'] at hall
      exact hbad hall
    have := hun.mpr (.inr ⟨by omega, hns⟩)
    rw [judge_parseable ho] at this
    cases this
  · obtain ⟨rest, hrest, hiff⟩ := unsubstantiated_of_shape hshape
    have hall : AllSubstantiated F raw₂ ↔
        ∀ c ∈ claims, c.HasMember "substantiated" (.bool true) :=
      ⟨fun ⟨claims', h', h⟩ => h₂.2.unique h' ▸ h, fun h => ⟨claims, h₂.2, h⟩⟩
    refine ⟨{ label := if rest.isEmpty then .clean else .violation, claims := rest,
              stage1Detected := some true }, ?_, ?_, ?_⟩
    · rw [judge, hrest]
      rfl
    · rw [hall, ← hiff]
      cases rest <;> simp [hm, hnf, h₁.2]
    · have hs : Stage2Shape F raw₂ := ⟨claims, h₂.2, hshape⟩
      refine ⟨fun h => (by cases h), fun h => ?_⟩
      rcases h with ⟨_, h⟩ | ⟨_, h⟩
      · exact absurd h₁.2 (h true)
      · exact absurd hs h

end FailsClosed

/-- A draft that mentions an action. -/
def escalatedDraft : Str := "I have escalated this."

def claimDetected : Str := "\x7b\"action_claim_detected\": true\x7d"

/-- A claim that is not said to be substantiated with a boolean. -/
def claimWithText : Str := "\x7b\"claims\": [\x7b\"substantiated\": \"false\"\x7d]\x7d"

/-- A reply whose list holds no objects. -/
def claimIsText : Str := "\x7b\"claims\": [\"escalated\"]\x7d"

end DealershipAgent
