import DealershipAgent.Agents.Requests
import DealershipAgent.Tools.Server

/-!
# Escalations

* `Records`: whether the events of a turn have created an escalation record.
* `EscalationRun`: the runs of the escalate node.
* `escalation_degrades_iff`: the node says what has become of its escalation, or the turn is degraded,
  exactly when no customer is authenticated or the tool call has succeeded.
-/

namespace DealershipAgent

open Py Json Interact

/-! ## The records of a turn -/

section Records

variable {F : Type} [PyFloat F] [Unicode]

/-- The server has served the event and has created a record or not. A result is one of the server's,
for some identity; of a call that raises it is known only which tool can have created a record. -/
inductive Served (sa : Server.SqlAlchemy) (mcp : Server.FastMcp F) :
    Event (Request F) Answer → Bool → Prop
  | completion {messages : List Message} {model : Str} {x : Except Exc Str} :
      Served sa mcp ⟨.complete messages model, x⟩ false
  | result {identity : Option RequestIdentity} {name : Str} {arguments : Json F}
      {tr : Server.DbTrace F} {result : CallToolResult F} {created : Bool} :
      Runs (Server.callTool sa mcp identity name arguments) tr (.ok result) →
      Server.Creates tr created → Served sa mcp ⟨.callTool name arguments, .ok result⟩ created
  | raised {name : Str} {arguments : Json F} {e : Exc} {created : Bool} :
      (created = true → name = str "escalate_to_human") →
      Served sa mcp ⟨.callTool name arguments, .error e⟩ created

/-- The server has served the events, and in all has created a record or not. -/
def Records (sa : Server.SqlAlchemy) (mcp : Server.FastMcp F) (tr : Trace F) (created : Bool) : Prop :=
  ∃ flags, List.Forall₂ (Served sa mcp) tr flags ∧ created = flags.any id

variable {sa : Server.SqlAlchemy} {mcp : Server.FastMcp F} {tr : Trace F} {created : Bool}

theorem records_nil (h : Records sa mcp [] created) : created = false := by
  obtain ⟨flags, hflags, rfl⟩ := h
  cases hflags
  rfl

theorem records_singleton {ev : Event (Request F) Answer} (h : Records sa mcp [ev] created) :
    Served sa mcp ev created := by
  obtain ⟨flags, hflags, rfl⟩ := h
  cases hflags with
  | cons hev hrest =>
    cases hrest
    simpa using hev

/-- Other calls create no record. -/
theorem Served.eq_false {ev : Event (Request F) Answer} (h : Served sa mcp ev created)
    (hno : ∀ name arguments, ev.req = .callTool name arguments → name ≠ str "escalate_to_human") :
    created = false := by
  cases h with
  | completion => rfl
  | result hrun hc => exact (Server.callTool_creates hrun hc).1 (hno _ _ rfl)
  | raised hname =>
    by_contra hc
    exact hno _ _ rfl (hname (by simpa using hc))

/-- A call that succeeds has created a record, and says so. -/
theorem Served.escalated {arguments : Json F} {result : CallToolResult F}
    (h : Served sa mcp ⟨.callTool (str "escalate_to_human") arguments, .ok result⟩ created)
    (hok : result.isError = false) :
    created = true ∧ result.value.HasMember "status" (.string "escalated") := by
  cases h with
  | result hrun hc =>
    obtain ⟨hcreated, row, hstructured⟩ := (Server.callTool_creates hrun hc).2 rfl hok
    refine ⟨hcreated, ?_⟩
    have hvalue : result.value = .object [(str "id", row.id), (str "created_at", row.createdAt),
        (str "status", .string "escalated")] := by
      unfold CallToolResult.value
      rw [hstructured]
      rfl
    rw [hvalue]
    exact ⟨_, rfl, rfl⟩

end Records

/-! ## The escalate node -/

section Escalate

variable {F : Type} [PyFloat F] [Unicode] {accountAgent : SubAgent F} {st : GraphState F}
  {tr : Trace F} {out : Except Raised (StateUpdate F)} {sa : Server.SqlAlchemy}
  {mcp : Server.FastMcp F} {created : Bool}

omit [Unicode] in
def escalationArguments (st : GraphState F) : Json F :=
  .object [("summary", (escalationRequest st).1), ("reason", (escalationRequest st).2)]

omit [PyFloat F] [Unicode] in
/-- What the node makes of the answer to its call. -/
def escalationOutcome : Except Exc (CallToolResult F) → Except Raised (StateUpdate F)
  | .error e => .error (.tool e)
  | .ok result => ((result.unwrap (str "escalate_to_human")).mapError Raised.code).map fun v =>
      { escalateResult := some v }

/-- The runs of the escalate node: without a customer it asks nothing, else it makes one call. -/
inductive EscalationRun (st : GraphState F) : Trace F → Except Raised (StateUpdate F) → Prop
  | skipped : st.identity.customerId = none →
      EscalationRun st [] (.ok { escalateResult := some notCreated })
  | asked (x : Except Exc (CallToolResult F)) : st.identity.customerId ≠ none →
      EscalationRun st [⟨.callTool (str "escalate_to_human") (escalationArguments st), x⟩]
        (escalationOutcome x)

theorem escalationRun_iff (hagent : accountAgent.allowedTools = accountAgentTools) :
    Runs (escalateNode accountAgent st) tr out ↔ EscalationRun st tr out := by
  have hallowed : accountAgent.allowedTools.contains (str "escalate_to_human") = true := by
    rw [hagent]
    decide
  have hcall : accountAgent.callTool (.string "escalate_to_human") (escalationArguments st) =
      sessionCallTool (str "escalate_to_human") (escalationArguments st) >>= fun result =>
        code (result.unwrap (str "escalate_to_human")) := if_pos hallowed
  have hnode : escalateNode accountAgent st = if st.identity.customerId = none then
      .ret { escalateResult := some notCreated }
      else accountAgent.callTool (.string "escalate_to_human") (escalationArguments st) >>=
        fun result => .ret { escalateResult := some result } := rfl
  rw [hnode, hcall]
  by_cases hc : st.identity.customerId = none
  · rw [if_pos hc, runs_ret]
    constructor
    · rintro ⟨rfl, rfl⟩
      exact .skipped hc
    · intro h
      cases h with
      | skipped _ => exact ⟨rfl, rfl⟩
      | asked x hne => exact absurd hc hne
  · have hasked : ∀ x : Except Exc (CallToolResult F),
        Runs ((sessionCallTool (str "escalate_to_human") (escalationArguments st) >>= fun result =>
          code (result.unwrap (str "escalate_to_human"))) >>= fun v =>
            .ret { escalateResult := some v })
          [⟨.callTool (str "escalate_to_human") (escalationArguments st), x⟩]
          (escalationOutcome x) := by
      intro x
      refine runs_ask.mpr ⟨x, [], rfl, ?_⟩
      cases x with
      | error e => exact .raise _
      | ok result =>
        change Runs (code (result.unwrap (str "escalate_to_human")) >>= _) []
          (((result.unwrap (str "escalate_to_human")).mapError Raised.code).map _)
        cases result.unwrap (str "escalate_to_human") with
        | error e => exact .raise _
        | ok v => exact .ret _
    rw [if_neg hc]
    constructor
    · intro h
      obtain ⟨x, tr', rfl, h'⟩ := runs_ask.mp h
      obtain ⟨rfl, rfl⟩ : tr' = [] ∧ out = escalationOutcome x := by
        obtain ⟨htr, hout⟩ := h.det_start (hasked x) (show _ ++ [] = _ ++ tr' by simp)
        exact ⟨(List.cons.inj htr).2, hout⟩
      exact .asked x hc
    · intro h
      cases h with
      | skipped hnone => exact absurd hnone hc
      | asked x _ => exact hasked x

omit [PyFloat F] [Unicode] in
theorem escalationOutcome_ok {result : CallToolResult F} (hok : result.isError = false) :
    escalationOutcome (.ok result) = .ok { escalateResult := some result.value } := by
  simp [escalationOutcome, CallToolResult.unwrap, hok, Except.mapError, Except.map]

omit [PyFloat F] [Unicode] in
/-- An error result leaves the node as an exception. -/
theorem escalationOutcome_error {result : CallToolResult F} (herror : result.isError = true) :
    ∃ e, escalationOutcome (.ok result) = .error e := by
  simp [escalationOutcome, CallToolResult.unwrap, herror, Except.mapError, Except.map]

/-- The node has returned what has become of the escalation: "escalated" exactly when there is a record
of it, and a degraded turn when there is none. -/
def EscalatesOrDegrades (st : GraphState F) (out : Except Raised (StateUpdate F)) (created : Bool) :
    Prop :=
  ∃ u result, out = .ok u ∧ u.escalateResult = some result ∧
    (result.HasMember "status" (.string "escalated") ↔ created = true) ∧
    (created = false → ∃ reasons, computeDegradation (st.apply u) = .ok (true, reasons))

/-- Without a customer the turn is degraded. -/
theorem notCreated_degrades (st : GraphState F) :
    EscalatesOrDegrades st (.ok { escalateResult := some notCreated }) false := by
  refine ⟨_, notCreated, rfl, rfl, ?_, fun _ => ?_⟩
  · refine iff_of_false ?_ (by simp)
    rintro ⟨kvs, hkvs, hstatus⟩
    cases hkvs
    cases hstatus
  · have hno : escalationNotCreated (notCreated : Json F) = .ok true := rfl
    refine ⟨resultDegradationReasons "sales" st.salesResult ++
      resultDegradationReasons "account" st.accountResult ++ [str "escalation_not_created"], ?_⟩
    change (escalationNotCreated notCreated >>= _) = _
    rw [hno]
    simp [bind, Except.bind, pure, Except.pure, GraphState.apply]

omit [PyFloat F] [Unicode] in
/-- The tool call was answered with a result that is no error. -/
def CallSucceeds (tr : Trace F) : Prop :=
  ∃ arguments, ∃ result : CallToolResult F,
    tr = [⟨.callTool (str "escalate_to_human") arguments, .ok result⟩] ∧ result.isError = false

/-- The escalate node does what it should exactly when no customer is authenticated or the tool call
succeeds. -/
theorem escalation_degrades_iff {registered : List (RegisteredTool F)}
    (ha : buildAccountAgent registered = .ok accountAgent)
    (h : Runs (escalateNode accountAgent st) tr out) (hr : Records sa mcp tr created) :
    EscalatesOrDegrades st out created ↔ st.identity.customerId = none ∨ CallSucceeds tr := by
  cases (escalationRun_iff (buildSubAgent_allowedTools ha)).mp h with
  | skipped hc =>
    obtain rfl := records_nil hr
    exact iff_of_true (notCreated_degrades st) (.inl hc)
  | asked x hc =>
    have hserved := records_singleton hr
    rcases x with e | result
    · refine iff_of_false (fun ⟨u, result, hout, _⟩ => by cases hout) ?_
      rintro (hnone | ⟨arguments, result, htr, -⟩)
      · exact hc hnone
      · cases htr
    · cases hok : result.isError with
      | false =>
        obtain ⟨rfl, hstatus⟩ := hserved.escalated hok
        refine iff_of_true ⟨_, result.value, escalationOutcome_ok hok, rfl, ?_, ?_⟩
          (.inr ⟨_, result, rfl, hok⟩)
        · exact iff_of_true hstatus rfl
        · intro hfalse
          cases hfalse
      | true =>
        obtain ⟨e, he⟩ := escalationOutcome_error hok
        refine iff_of_false (fun ⟨u, result, hout, _⟩ => by rw [he] at hout; cases hout) ?_
        rintro (hnone | ⟨arguments, result', htr, hok'⟩)
        · exact hc hnone
        · cases htr
          rw [hok] at hok'
          cases hok'

end Escalate

/-! ## An escalation that the database rejects -/

section Desk

variable {F : Type} [PyFloat F] [Unicode]

def deskSqlAlchemy : Server.SqlAlchemy where
  lead sql driver := str "(psycopg.errors.StringDataRightTruncation) " ++ driver ++ str "\n[SQL: " ++
    sql ++ str "]\n"
  trail _ _ := []

omit [PyFloat F] [Unicode] in
/-- An argument that is a `str`. -/
def textArgument (arguments : Json F) (key : Str) : Except Exc Str :=
  match arguments with
  | .object kvs =>
    match dictGet kvs key with
    | .string s => .ok s
    | _ => .error ⟨.other "ToolError", key ++ str "\n  Input should be a valid string"⟩
  | _ => .error ⟨.other "ToolError", key ++ str "\n  Field required"⟩

def deskMcp (F : Type) [PyFloat F] : Server.FastMcp F where
  orderStatusArguments arguments := textArgument arguments "order_ref"
  listOrdersArguments _ := .ok (none, 20)
  escalateArguments arguments := do
    let summary ← textArgument arguments "summary"
    let reason ← textArgument arguments "reason"
    return (summary, reason)
  errorLead name := str "Error executing tool " ++ name ++ str ": "
  content structured := [some (dumps (.object structured))]
  publicTool _ _ := {}

/-- A database that rejects every insertion. -/
def rejectingDb (F : Type) : Env (Server.DbRequest) (Server.DbAnswer F) := fun _ r =>
  match r with
  | .connect => .ok ()
  | .execute .setConfig _ => .ok ()
  | .execute .selectOrder _ => .ok none
  | .execute .selectOrders _ => .ok []
  | .execute .insertEscalation _ => .error "value too long for type character varying(128)"
  | .commit => .ok ()
  | .rollback => .ok ()

omit [PyFloat F] [Unicode] in
/-- Nothing is created there. -/
theorem rejectingDb_creates {α : Type} (p : Server.DbProgram F α) :
    Server.Creates (exec (rejectingDb F) [] p).1 false := by
  refine ⟨fun h => (by cases h), fun h => (by cases h), fun ⟨ev, hev, hi⟩ _ => ?_⟩
  have hno : ∀ ev ∈ (exec (rejectingDb F) [] p).1, ¬ Server.Inserts ev := by
    refine exec_forall (fun h r => ?_) _ _
    cases r with
    | execute statement params => cases statement <;> exact id
    | _ => exact id
  exact absurd hi (hno ev hev)

/-- A database that keeps every insertion. -/
def acceptingDb (F : Type) : Env Server.DbRequest (Server.DbAnswer F) := fun _ r =>
  match r with
  | .connect => .ok ()
  | .execute .setConfig _ => .ok ()
  | .execute .selectOrder _ => .ok none
  | .execute .selectOrders _ => .ok []
  | .execute .insertEscalation _ => .ok (some ⟨.int 1, .string "2026-01-05 10:00:00"⟩)
  | .commit => .ok ()
  | .rollback => .ok ()

/-- A message to route, from this customer. -/
def deskState (F : Type) (customerId : Option Int) (reason : Str) : GraphState F :=
  { messages := [⟨.user, "Help"⟩], identity := ⟨"s-1", customerId⟩, escalateReason := .string reason }

/-- The call of `escalate_to_human` for a reason of 129 characters. -/
def longReasonCall : Server.DbTrace FloatText × Except Exc (CallToolResult FloatText) :=
  exec (rejectingDb FloatText) [] (@Server.callTool FloatText _ asciiUnicode deskSqlAlchemy
    (deskMcp FloatText) (some ⟨"s-1", some 7⟩) (str "escalate_to_human")
    (escalationArguments (deskState FloatText (some 7) (List.replicate 129 (chr 'x')))))

omit [Unicode] in
theorem longReasonCall_fails : longReasonCall.2.map (·.isError) = .ok true := by
  decide +kernel

/-- The call for a short one, at a database that keeps it. -/
def lostCall : Server.DbTrace FloatText × Except Exc (CallToolResult FloatText) :=
  exec (acceptingDb FloatText) [] (@Server.callTool FloatText _ asciiUnicode deskSqlAlchemy
    (deskMcp FloatText) (some ⟨"s-1", some 7⟩) (str "escalate_to_human")
    (escalationArguments (deskState FloatText (some 7) "Lost")))

omit [Unicode] in
theorem lostCall_succeeds : lostCall.2.map (·.isError) = .ok false := by
  decide +kernel

omit [PyFloat F] in
theorem deskTools_registered [PyFloat F] : ∃ accountAgent : SubAgent F, buildAccountAgent
    (accountAgentTools.map fun name => ⟨name, none, []⟩) = .ok accountAgent := by
  obtain ⟨accountAgent, h, -⟩ : ∃ accountAgent : SubAgent F, buildSubAgent "account_agent"
      accountAgentTools (accountAgentTools.map fun name => ⟨name, none, []⟩) = .ok accountAgent ∧
      accountAgent.name = "account_agent" ∧ accountAgent.allowedTools = accountAgentTools :=
    buildSubAgent_eq_ok.mpr fun name hname =>
      ⟨⟨name, none, []⟩, List.mem_map_of_mem hname, rfl⟩
  exact ⟨accountAgent, h⟩

end Desk

/-- The database rejects a reason of 129 characters, and the node raises. -/
theorem longReason_raises : ∃ (accountAgent : SubAgent FloatText) (tr : Trace FloatText) (e : Raised),
    @buildAccountAgent FloatText asciiUnicode _
      (accountAgentTools.map fun name => ⟨name, none, []⟩) = .ok accountAgent ∧
    @Runs (Request FloatText) Answer _ _ (@escalateNode FloatText _ asciiUnicode accountAgent
      (deskState FloatText (some 7) (List.replicate 129 (chr 'x')))) tr (.error e) ∧
    @Records FloatText _ asciiUnicode deskSqlAlchemy (deskMcp FloatText) tr false ∧
    ¬ @EscalatesOrDegrades FloatText _ asciiUnicode
      (deskState FloatText (some 7) (List.replicate 129 (chr 'x'))) (.error e) false := by
  let _ := asciiUnicode
  obtain ⟨accountAgent, ha⟩ := deskTools_registered (F := FloatText)
  have hfails := longReasonCall_fails
  have hcall : Runs _ longReasonCall.1 longReasonCall.2 := exec_runs _ _ _
  cases hresult : longReasonCall.2 with
  | error e => rw [hresult] at hfails; cases hfails
  | ok result =>
    rw [hresult] at hfails hcall
    obtain ⟨e, he⟩ := escalationOutcome_error (Except.ok.inj hfails)
    refine ⟨accountAgent, _, e, ha, he ▸ (escalationRun_iff (buildSubAgent_allowedTools ha)).mpr
      (.asked (.ok result) (by simp [deskState])), ⟨[false], ?_, rfl⟩, ?_⟩
    · exact .cons (.result hcall (rejectingDb_creates _)) .nil
    · rintro ⟨u, result, hout, -⟩
      cases hout

/-- An anonymous turn is degraded, and the turn of customer 7 has its record. -/
theorem desk_escalations : ∃ accountAgent : SubAgent FloatText,
    (∃ u : StateUpdate FloatText, @Runs (Request FloatText) Answer _ _
      (@escalateNode FloatText _ asciiUnicode accountAgent (deskState FloatText none "Lost")) [] (.ok u) ∧
      @EscalatesOrDegrades FloatText _ asciiUnicode (deskState FloatText none "Lost") (.ok u) false) ∧
    ∃ (tr : Trace FloatText) (out : Except Raised (StateUpdate FloatText)),
      @Runs (Request FloatText) Answer _ _ (@escalateNode FloatText _ asciiUnicode accountAgent
        (deskState FloatText (some 7) "Lost")) tr out ∧
      @Records FloatText _ asciiUnicode deskSqlAlchemy (deskMcp FloatText) tr true ∧
      @EscalatesOrDegrades FloatText _ asciiUnicode (deskState FloatText (some 7) "Lost") out true := by
  let _ := asciiUnicode
  obtain ⟨accountAgent, ha⟩ := deskTools_registered (F := FloatText)
  have hrun : Runs (escalateNode accountAgent (deskState FloatText none "Lost")) []
      (.ok { escalateResult := some notCreated }) :=
    (escalationRun_iff (buildSubAgent_allowedTools ha)).mpr (.skipped rfl)
  have hrecords : Records deskSqlAlchemy (deskMcp FloatText) [] false := ⟨[], .nil, rfl⟩
  refine ⟨accountAgent, ⟨_, hrun, (escalation_degrades_iff ha hrun hrecords).mpr (.inl rfl)⟩, ?_⟩
  have hsucceeds := lostCall_succeeds
  have hcall : Runs _ lostCall.1 lostCall.2 := exec_runs _ _ _
  obtain ⟨created, hcreated⟩ := Server.Creates.exists lostCall.1
  cases hresult : lostCall.2 with
  | error e => rw [hresult] at hsucceeds; cases hsucceeds
  | ok result =>
    rw [hresult] at hsucceeds hcall
    have hok : result.isError = false := Except.ok.inj hsucceeds
    have hcustomer : (deskState FloatText (some 7) "Lost").identity.customerId ≠ none := by
      simp [deskState]
    have hasked := (escalationRun_iff (buildSubAgent_allowedTools ha)).mpr (.asked (.ok result) hcustomer)
    have hserved : Served deskSqlAlchemy (deskMcp FloatText) ⟨.callTool (str "escalate_to_human")
        (escalationArguments (deskState FloatText (some 7) "Lost")), .ok result⟩ created :=
      .result hcall hcreated
    obtain ⟨rfl, -⟩ := hserved.escalated hok
    have hrecords : Records deskSqlAlchemy (deskMcp FloatText) _ true := ⟨[true], .cons hserved .nil, rfl⟩
    exact ⟨_, _, hasked, hrecords,
      (escalation_degrades_iff ha hasked hrecords).mpr (.inr ⟨_, result, rfl, hok⟩)⟩

end DealershipAgent
