import DealershipAgent.Agents.Escalation
import DealershipAgent.Agents.ToolLoop
import DealershipAgent.Interact.Eval

/-!
# The customer's id in the text of a tool call

* `Backend`: the server of a session with what its database answers, for whichever customer.
* `toldTo`: the messages and the recorded calls after a decision, in a session of a customer.
* `callTool_same`, `callTool_fails`: what of a call at the server depends on the customer.
* `tool_text_identity_free_iff`: what a loop is told does not depend on the customer when no statement
  with the customer's id among its parameters fails in sight, and only then.
-/

namespace DealershipAgent

open Py Json Interact

/-- What the database answers in a call. -/
structure DbReplies (F : Type) where
  connect : Except Exc Unit
  execute : (statement : Server.Statement) → Except Str (Server.Fetched F statement)
  commit : Except Exc Unit
  rollback : Except Exc Unit

def DbReplies.answer {F : Type} (db : DbReplies F) : (r : Server.DbRequest) → Server.DbAnswer F r
  | .connect => db.connect
  | .execute statement _ => db.execute statement
  | .commit => db.commit
  | .rollback => db.rollback

/-- A session's server. -/
structure Backend (F : Type) where
  sa : Server.SqlAlchemy
  mcp : Server.FastMcp F
  sessionId : Str
  db : DbReplies F

section Told

variable {F : Type} [PyFloat F] [Unicode]

def Backend.callTool (b : Backend F) (customerId : Int) (name : Str) (arguments : Json F) :
    Except Exc (CallToolResult F) :=
  eval b.db.answer (Server.callTool b.sa b.mcp (some ⟨b.sessionId, some customerId⟩) name arguments)

/-- The session of this customer. A tool call asks for no completion. -/
def Backend.answer (b : Backend F) (customerId : Int) : (r : Request F) → Answer r
  | .complete _ _ => .error ⟨.runtimeError, []⟩
  | .callTool name arguments => b.callTool customerId name arguments

/-- The messages and the recorded calls after the decision, in the session of this customer. -/
def toldTo (b : Backend F) (cfg : LoopConfig F) (st : LoopState F) (raw : Str)
    (decision : List (Str × Json F)) (customerId : Int) :
    Except Raised (List Message × List (ToolCall F)) :=
  (exec (Env.const (b.answer customerId)) [] (callDecision cfg st raw decision)).2.map fun st =>
    (st.messages, st.toolCalls)

/-! ## At the server -/

omit [PyFloat F] [Unicode] in
/-- The tool reads the arguments. -/
def ReadsArguments (mcp : Server.FastMcp F) (name : Str) (arguments : Json F) : Prop :=
  (name = str "get_order_status" ∧ ∃ orderRef, mcp.orderStatusArguments arguments = .ok orderRef) ∨
  (name = str "list_my_orders" ∧ ∃ x, mcp.listOrdersArguments arguments = .ok x) ∨
  (name = str "escalate_to_human" ∧ ∃ x, mcp.escalateArguments arguments = .ok x)

omit [PyFloat F] [Unicode] in
/-- A statement fails that has the customer's id among its parameters, and nothing hides that. -/
inductive FailsWithId (db : DbReplies F) (name : Str) : Server.Statement → Str → Prop
  | setConfig {driver : Str} : db.connect = .ok () → db.execute .setConfig = .error driver →
      db.rollback = .ok () → FailsWithId db name .setConfig driver
  | insertEscalation {driver : Str} : name = str "escalate_to_human" → db.connect = .ok () →
      db.execute .setConfig = .ok () → db.execute .insertEscalation = .error driver →
      db.rollback = .ok () → FailsWithId db name .insertEscalation driver

omit [PyFloat F] in
theorem eval_execute (db : DbReplies F) (sa : Server.SqlAlchemy)
    (statement : Server.Statement) (params : Server.Params) :
    eval db.answer (Server.execute sa statement params) =
      (db.execute statement).mapError (sa.statementError statement params) := by
  unfold Server.execute
  exact eval_lift _

omit [PyFloat F] [Unicode] in
/-- The end of a transaction. -/
def DbReplies.close {α : Type} (db : DbReplies F) : Except Exc α → Except Exc α
  | .ok a => db.commit.map fun _ => a
  | .error e => db.rollback.bind fun _ => .error e

omit [PyFloat F] in
/-- What a function on a scoped connection gives, by what the database answers. -/
theorem eval_scoped {α : Type} (b : Backend F) (c : Int)
    (body : Server.ScopedConnection → Server.DbProgram F α) :
    eval b.db.answer (Server.customerScopedConnection b.sa (some ⟨b.sessionId, some c⟩) body) =
      b.db.connect.bind fun _ => b.db.close <|
        ((b.db.execute .setConfig).mapError (b.sa.statementError .setConfig
          [("customer_id", .string (intRepr c))])).bind fun _ =>
            eval b.db.answer (body ⟨c, b.sessionId⟩) := by
  have hconnect : eval b.db.answer (Server.connect (F := F)) = b.db.connect := eval_lift _
  have hcommit : eval b.db.answer (Server.commit (F := F)) = b.db.commit := eval_lift _
  have hrollback : eval b.db.answer (Server.rollback (F := F)) = b.db.rollback := eval_lift _
  have hclose : ∀ out : Except Exc α, eval b.db.answer (match out with
      | .ok a => Server.commit >>= fun _ => Prog.ret a
      | .error e => Server.rollback >>= fun _ => (Prog.raise e : Server.DbProgram F α)) =
        b.db.close out := by
    intro out
    cases out with
    | ok a =>
      rw [eval_bind, hcommit]
      cases hc : b.db.commit <;> simp [DbReplies.close, hc, Except.bind, Except.map]
    | error e =>
      rw [eval_bind, hrollback]
      rfl
  unfold Server.customerScopedConnection Server.customerScope
  rw [eval_bind, eval_lift]
  change Except.bind (.ok c) _ = _
  rw [show ∀ g : Int → Except Exc α, Except.bind (.ok c) g = g c from fun g => rfl, eval_bind, hconnect]
  congr 1
  funext x
  rw [eval_bind, eval_attempt, eval_bind, eval_execute]
  exact hclose _

omit [PyFloat F] in
/-- A function on a scoped connection gives the same for two customers, when the setting of the id
does not fail in sight and the function itself gives the same. -/
theorem scoped_same {α : Type} {b : Backend F} (c c' : Int)
    {body : Server.ScopedConnection → Server.DbProgram F α} {name : Str}
    (hset : ∀ driver, ¬ FailsWithId b.db name .setConfig driver)
    (hbody : b.db.connect = .ok () → b.db.execute .setConfig = .ok () →
      b.db.close (eval b.db.answer (body ⟨c, b.sessionId⟩)) =
        b.db.close (eval b.db.answer (body ⟨c', b.sessionId⟩))) :
    eval b.db.answer (Server.customerScopedConnection b.sa (some ⟨b.sessionId, some c⟩) body) =
      eval b.db.answer (Server.customerScopedConnection b.sa (some ⟨b.sessionId, some c'⟩) body) := by
  rw [eval_scoped, eval_scoped]
  cases hconnect : b.db.connect with
  | error e => rfl
  | ok x =>
    cases hconfig : b.db.execute .setConfig with
    | ok y => exact hbody hconnect hconfig
    | error driver =>
      cases hrollback : b.db.rollback with
      | ok z => exact absurd (.setConfig hconnect hconfig hrollback) (hset driver)
      | error e => simp [DbReplies.close, Except.mapError, Except.bind, hrollback]

/-- The result of a tool, whatever the customer, is the same when the outcomes are. -/
theorem callTool_eq {b : Backend F} {name : Str} {arguments : Json F} {c : Int}
    {tool : Server.DbProgram F (List (Str × Json F))}
    (h : Server.runTool b.sa b.mcp (some ⟨b.sessionId, some c⟩) name arguments = some tool) :
    b.callTool c name arguments = .ok (Server.toolResult b.mcp name (eval b.db.answer tool)) := by
  unfold Backend.callTool Server.callTool
  rw [h]
  change eval _ (tool.attempt >>= _) = _
  rw [eval_bind, eval_attempt]
  rfl

/-- A tool that reads its arguments gives the same for two customers when what follows does. -/
theorem callTool_congr {β : Type} {b : Backend F} {name : Str} {arguments : Json F} {c c' : Int}
    {x : Except Exc β} {tool tool' : β → Server.DbProgram F (List (Str × Json F))}
    (h : Server.runTool b.sa b.mcp (some ⟨b.sessionId, some c⟩) name arguments =
      some (.lift x >>= tool))
    (h' : Server.runTool b.sa b.mcp (some ⟨b.sessionId, some c'⟩) name arguments =
      some (.lift x >>= tool'))
    (hsame : ∀ a, x = .ok a → eval b.db.answer (tool a) = eval b.db.answer (tool' a)) :
    b.callTool c name arguments = b.callTool c' name arguments := by
  rw [callTool_eq h, callTool_eq h', eval_bind, eval_bind, eval_lift]
  cases x with
  | error e => rfl
  | ok a => exact congrArg (fun out => Except.ok (Server.toolResult b.mcp name out)) (hsame a rfl)

/-- Without such a failure the result of a call does not depend on the customer. -/
theorem callTool_same {b : Backend F} {name : Str} {arguments : Json F}
    (h : ReadsArguments b.mcp name arguments → ∀ statement driver,
      ¬ FailsWithId b.db name statement driver) (c c' : Int) :
    b.callTool c name arguments = b.callTool c' name arguments := by
  by_cases ho : name = str "get_order_status"
  · refine callTool_congr (if_pos ho) (if_pos ho) fun orderRef hread => ?_
    have hset := h (.inl ⟨ho, orderRef, hread⟩) .setConfig
    simp only [Server.getOrderStatus, eval_bind]
    rw [scoped_same c c' hset fun _ _ => rfl]
  by_cases hl : name = str "list_my_orders"
  · refine callTool_congr ((if_neg ho).trans (if_pos hl)) ((if_neg ho).trans (if_pos hl))
      fun x hread => ?_
    have hset := h (.inr (.inl ⟨hl, x, hread⟩)) .setConfig
    obtain ⟨statusFilter, limit⟩ := x
    simp only [Server.listMyOrders, eval_bind]
    rw [scoped_same c c' hset fun _ _ => rfl]
  by_cases he : name = str "escalate_to_human"
  · refine callTool_congr ((if_neg ho).trans ((if_neg hl).trans (if_pos he)))
      ((if_neg ho).trans ((if_neg hl).trans (if_pos he))) fun x hread => ?_
    have hno := h (.inr (.inr ⟨he, x, hread⟩))
    obtain ⟨summary, reason⟩ := x
    simp only [Server.escalateToHuman, eval_bind]
    rw [scoped_same c c' (hno .setConfig) fun hconnect hconfig => ?_]
    rw [eval_execute b.db b.sa .insertEscalation, eval_execute b.db b.sa .insertEscalation]
    cases hinsert : b.db.execute .insertEscalation with
    | ok row => rfl
    | error driver =>
      cases hrollback : b.db.rollback with
      | ok z => exact absurd (.insertEscalation he hconnect hconfig hinsert hrollback) (hno _ driver)
      | error e => simp [DbReplies.close, Except.mapError, Except.bind, hrollback]
  · have hnone : ∀ identity, Server.runTool b.sa b.mcp identity name arguments = none := by
      intro identity
      rw [Server.runTool, if_neg ho, if_neg hl, if_neg he]
    unfold Backend.callTool Server.callTool
    rw [hnone, hnone]

/-! ## A call that fails with the id -/

omit [PyFloat F] [Unicode] in
/-- The customer's id as the parameter of a statement. -/
def idValue (statement : Server.Statement) (customerId : Int) : Server.SqlValue :=
  if statement = .setConfig then .string (intRepr customerId) else .int customerId

/-- The exception of such a failure, for this customer. -/
def idError (b : Backend F) (statement : Server.Statement) (rest : Server.Params) (driver : Str)
    (customerId : Int) : Exc :=
  b.sa.statementError statement ((str "customer_id", idValue statement customerId) :: rest) driver

omit [PyFloat F] in
theorem scoped_fails {α : Type} {b : Backend F} {name driver : Str}
    (h : FailsWithId b.db name .setConfig driver) (body : Server.ScopedConnection → Server.DbProgram F α)
    (c : Int) : eval b.db.answer
      (Server.customerScopedConnection b.sa (some ⟨b.sessionId, some c⟩) body) =
        .error (idError b .setConfig [] driver c) := by
  cases h with
  | setConfig hconnect hconfig hrollback =>
    rw [eval_scoped, hconnect, hconfig]
    simp [DbReplies.close, Except.mapError, Except.bind, hrollback, idError, idValue]

/-- A call that fails so has the exception's text as its result. -/
theorem callTool_fails {b : Backend F} {name driver : Str} {arguments : Json F}
    {statement : Server.Statement} (hread : ReadsArguments b.mcp name arguments)
    (h : FailsWithId b.db name statement driver) :
    ∃ rest, ∀ c, b.callTool c name arguments =
      .ok (Server.toolResult b.mcp name (.error (idError b statement rest driver c))) := by
  have h₁ : str "list_my_orders" ≠ str "get_order_status" := by decide
  have h₂ : str "escalate_to_human" ≠ str "get_order_status" := by decide
  have h₃ : str "escalate_to_human" ≠ str "list_my_orders" := by decide
  cases statement with
  | selectOrder => cases h
  | selectOrders => cases h
  | setConfig =>
    refine ⟨[], fun c => ?_⟩
    rcases hread with ⟨rfl, orderRef, hread⟩ | ⟨rfl, ⟨statusFilter, limit⟩, hread⟩ |
      ⟨rfl, ⟨summary, reason⟩, hread⟩
    · rw [callTool_eq (if_pos rfl), eval_bind, eval_lift, hread]
      simp only [Except.bind, Server.getOrderStatus, eval_bind, scoped_fails h]
    · rw [callTool_eq ((if_neg h₁).trans (if_pos rfl)), eval_bind, eval_lift, hread]
      simp only [Except.bind, Server.listMyOrders, eval_bind, scoped_fails h]
    · rw [callTool_eq ((if_neg h₂).trans ((if_neg h₃).trans (if_pos rfl))), eval_bind, eval_lift, hread]
      simp only [Except.bind, Server.escalateToHuman, eval_bind, scoped_fails h]
  | insertEscalation =>
    cases h with
    | insertEscalation hname hconnect hconfig hinsert hrollback =>
      subst hname
      rcases hread with ⟨hname, -⟩ | ⟨hname, -⟩ | ⟨-, ⟨summary, reason⟩, hread⟩
      · exact absurd hname h₂
      · exact absurd hname h₃
      · refine ⟨[(str "conversation_id", .string b.sessionId), (str "summary", .string summary),
          (str "reason", .string reason)], fun c => ?_⟩
        rw [callTool_eq ((if_neg h₂).trans ((if_neg h₃).trans (if_pos rfl))), eval_bind, eval_lift,
          hread]
        simp only [Except.bind, Server.escalateToHuman, eval_bind]
        rw [eval_scoped, hconnect, hconfig]
        simp only [Except.bind, Except.mapError]
        rw [eval_execute b.db b.sa .insertEscalation, hinsert]
        simp [DbReplies.close, Except.mapError, Except.bind, hrollback, idError, idValue]

/-! ## The text of the failure -/

omit [PyFloat F] [Unicode] in
/-- What stands around a parameter that is a text. -/
def quoteOf (statement : Server.Statement) : Str := if statement = .setConfig then str "'" else []

/-- The text of the failure up to the customer's id. -/
def textBeforeId (b : Backend F) (name : Str) (statement : Server.Statement) (driver : Str) : Str :=
  name ++ str " failed: " ++ (b.mcp.errorLead name ++ b.sa.lead statement.sql driver ++
    str "[parameters: \x7b'customer_id': " ++ quoteOf statement)

omit [PyFloat F] in
theorem pyRepr_idValue (statement : Server.Statement) (c : Int) : (idValue statement c).pyRepr =
    quoteOf statement ++ (intRepr c ++ quoteOf statement) := by
  unfold idValue quoteOf
  split
  · rw [Server.SqlValue.pyRepr, reprStr_intRepr]
    rfl
  · simp [Server.SqlValue.pyRepr]

omit [PyFloat F] in
/-- The customer's id as the text has it, after the quote. -/
def idText (statement : Server.Statement) (customerId : Int) : Str :=
  (Server.truncRepr (idValue statement customerId).pyRepr).drop (quoteOf statement).length

omit [PyFloat F] in
theorem truncRepr_idValue (statement : Server.Statement) (c : Int) :
    Server.truncRepr (idValue statement c).pyRepr = quoteOf statement ++ idText statement c := by
  unfold idText
  rw [pyRepr_idValue]
  unfold quoteOf Server.truncRepr
  split <;> split <;> rfl

omit [PyFloat F] in
/-- Two ids in the text. -/
theorem idText_digits (statement : Server.Statement) :
    idText statement 7 = chr '7' :: quoteOf statement ∧
      idText statement 8 = chr '8' :: quoteOf statement := by
  unfold idText
  rw [pyRepr_idValue, pyRepr_idValue]
  cases statement <;> exact ⟨rfl, rfl⟩

/-- The exception of `call_tool`. -/
def toolFailed (b : Backend F) (name : Str) (e : Exc) : Exc :=
  ⟨.runtimeError, name ++ str " failed: " ++ (b.mcp.errorLead name ++ e.text)⟩

omit [PyFloat F] in
theorem toolFailed_text (b : Backend F) (name : Str) (statement : Server.Statement)
    (rest : Server.Params) (driver : Str) : ∃ s, s ≠ [] ∧ ∀ c,
      (toolFailed b name (idError b statement rest driver c)).text =
        textBeforeId b name statement driver ++ (idText statement c ++ s) := by
  obtain ⟨s, hs⟩ := join_cons ", " (rest.map Server.reprParam)
  have hplain : (str "customer_id").all (fun c => decide (32 ≤ c.val ∧ c.val < 127 ∧
      c ≠ chr '\'' ∧ c ≠ chr '\\')) = true := by decide
  have hkey : Py.reprStr (str "customer_id") = str "'customer_id'" :=
    reprStr_plain fun c hc => of_decide_eq_true (List.all_eq_true.mp hplain c hc)
  refine ⟨s ++ str "\x7d" ++ str "]" ++ b.sa.trail statement.sql driver, by simp [str], fun c => ?_⟩
  simp only [toolFailed, idError, Server.SqlAlchemy.statementError, Server.reprParams, List.map_cons,
    hs, Server.reprParam, hkey, truncRepr_idValue, textBeforeId]
  simp [str]

/-! ## In the loop -/

theorem eval_callTool_congr {agent : SubAgent F} {toolName arguments : Json F}
    {f g : (r : Request F) → Answer r}
    (h : ∀ name, toolName = .string name → name ∈ agent.allowedTools →
      f (.callTool name arguments) = g (.callTool name arguments)) :
    eval f (agent.callTool toolName arguments) = eval g (agent.callTool toolName arguments) := by
  unfold SubAgent.callTool
  split
  · simp [code]
  · simp [code]
  · next name =>
    split
    · next hallowed =>
      have hask := h name rfl (List.contains_iff_mem.mp hallowed)
      simp [sessionCallTool, code, hask]
    · simp [code]
  · simp [code]

/-- What a decision tells of a tool call. -/
theorem toldTo_eq (b : Backend F) (cfg : LoopConfig F) (st : LoopState F) (raw : Str)
    (decision : List (Str × Json F)) (c : Int) : toldTo b cfg st raw decision c =
      (eval (b.answer c) (callDecision cfg st raw decision)).map fun st =>
        (st.messages, st.toolCalls) := by
  unfold toldTo
  rw [exec_const_eval]

theorem toldTo_same {b : Backend F} {cfg : LoopConfig F} {st : LoopState F} {raw : Str}
    {decision : List (Str × Json F)} {c c' : Int}
    (h : ∀ name, dictGet decision "tool" = .string name → name ∈ cfg.agent.allowedTools →
      st.callCache.lookup (cacheKey (dictGet decision "tool")
        ((dictGet decision "arguments").orElse (.object []))) = none →
      b.callTool c name ((dictGet decision "arguments").orElse (.object [])) =
        b.callTool c' name ((dictGet decision "arguments").orElse (.object []))) :
    toldTo b cfg st raw decision c = toldTo b cfg st raw decision c' := by
  rw [toldTo_eq, toldTo_eq]
  congr 1
  simp only [callDecision]
  split
  · simp [code]
  · next hnew =>
    have hcall : eval (b.answer c) (cfg.agent.callTool (dictGet decision "tool") _) =
        eval (b.answer c') (cfg.agent.callTool (dictGet decision "tool") _) := eval_callTool_congr
      fun name hname hallowed => h name hname hallowed hnew
    unfold newCall
    rw [eval_bind, eval_bind, eval_attempt, eval_attempt, hcall]
    simp only [Except.bind]
    split <;> rfl

/-- A call that fails is told with its exception's text. -/
theorem toldTo_fails {b : Backend F} {cfg : LoopConfig F} {st : LoopState F} (raw : Str)
    {decision : List (Str × Json F)} {c : Int} {name : Str} {arguments : Json F} {e : Exc}
    (harguments : (dictGet decision "arguments").orElse (.object []) = arguments)
    (hname : dictGet decision "tool" = .string name) (hallowed : name ∈ cfg.agent.allowedTools)
    (hnew : st.callCache.lookup (cacheKey (.string name) arguments) = none)
    (hcall : b.callTool c name arguments = .ok (Server.toolResult b.mcp name (.error e))) :
    toldTo b cfg st raw decision c =
      .ok ((recordError cfg (st.append .assistant raw) (.string name) arguments
        (toolFailed b name e)).messages,
        st.toolCalls ++ [⟨.string name, arguments,
          .error (truncate (toolFailed b name e).text cfg.maxObservationChars)⟩]) := by
  have hfail : eval (b.answer c) (cfg.agent.callTool (.string name) arguments) =
      .error (.code (toolFailed b name e)) := by
    simp only [SubAgent.callTool, List.contains_iff_mem.mpr hallowed, if_pos, eval_bind,
      sessionCallTool, eval_ask, eval_lift, code, Backend.answer, hcall]
    rfl
  rw [toldTo_eq]
  simp only [callDecision, harguments, hname, LoopState.append, hnew, newCall, eval_bind,
    eval_attempt, hfail]
  rfl

/-! ## Whether the id is told -/

omit [PyFloat F] [Unicode] in
theorem ReadsArguments.mem_accountAgentTools {mcp : Server.FastMcp F} {name : Str}
    {arguments : Json F} (h : ReadsArguments mcp name arguments) : name ∈ accountAgentTools := by
  rcases h with ⟨rfl, -⟩ | ⟨rfl, -⟩ | ⟨rfl, -⟩ <;> decide

/-- A new call with arguments that the tool reads fails in sight at a statement that has the
customer's id among its parameters, and the cut at the observation limit comes after the id starts. -/
def TellsId (b : Backend F) (cfg : LoopConfig F) (st : LoopState F)
    (decision : List (Str × Json F)) : Prop :=
  let arguments := (dictGet decision "arguments").orElse (.object [])
  ∃ name statement driver, dictGet decision "tool" = .string name ∧
    st.callCache.lookup (cacheKey (.string name) arguments) = none ∧
    ReadsArguments b.mcp name arguments ∧ FailsWithId b.db name statement driver ∧
    (0 ≤ cfg.maxObservationChars →
      (textBeforeId b name statement driver).length < cfg.maxObservationChars)

section

variable {b : Backend F} {cfg : LoopConfig F} {st : LoopState F} {raw : Str}
  {decision : List (Str × Json F)} {registered : List (RegisteredTool F)}

/-- What is told does not depend on the customer unless the id is told. -/
theorem toldTo_same_of_not_tellsId (h : ¬ TellsId b cfg st decision) (c c' : Int) :
    toldTo b cfg st raw decision c = toldTo b cfg st raw decision c' := by
  refine Classical.byContradiction fun hne => ?_
  refine hne (toldTo_same fun name hname hallowed hnew => callTool_same (fun hread => ?_) c c')
  intro statement driver hfails
  rw [hname] at hnew
  have hcut : 0 ≤ cfg.maxObservationChars ∧
      cfg.maxObservationChars ≤ (textBeforeId b name statement driver).length := by
    by_contra hlong
    exact h ⟨name, statement, driver, hname, hnew, hread, hfails, by omega⟩
  obtain ⟨rest, hcall⟩ := callTool_fails hread hfails
  obtain ⟨s, hs, htext⟩ := toolFailed_text b name statement rest driver
  have htruncate : truncate (toolFailed b name (idError b statement rest driver c)).text
      cfg.maxObservationChars = truncate (toolFailed b name (idError b statement rest driver c')).text
        cfg.maxObservationChars := by
    rw [htext, htext]
    exact truncate_cut hcut.1 hcut.2 (by simp [hs]) (by simp [hs])
  refine hne ?_
  rw [toldTo_fails raw rfl hname hallowed hnew (hcall c),
    toldTo_fails raw rfl hname hallowed hnew (hcall c')]
  simp only [recordError, compactError, htruncate]

/-- Two customers are told different texts, when the text shows how their ids start. -/
theorem toldTo_ne {arguments : Json F} {name driver : Str} {statement : Server.Statement}
    (ha : buildAccountAgent registered = .ok cfg.agent)
    (harguments : (dictGet decision "arguments").orElse (.object []) = arguments)
    (hname : dictGet decision "tool" = .string name)
    (hnew : st.callCache.lookup (cacheKey (.string name) arguments) = none)
    (hread : ReadsArguments b.mcp name arguments) (hfails : FailsWithId b.db name statement driver)
    (hcut : (textBeforeId b name statement driver).length < cfg.maxObservationChars)
    {c c' : Int} {a a' : CodePoint} {t t' : Str} (hne : a ≠ a') (hspace : isSpace a = false)
    (hspace' : isSpace a' = false) (hc : idText statement c = a :: t)
    (hc' : idText statement c' = a' :: t') :
    toldTo b cfg st raw decision c ≠ toldTo b cfg st raw decision c' := by
  have hallowed : name ∈ cfg.agent.allowedTools := by
    rw [buildSubAgent_allowedTools ha]
    exact hread.mem_accountAgentTools
  obtain ⟨rest, hcall⟩ := callTool_fails hread hfails
  obtain ⟨s, -, htext⟩ := toolFailed_text b name statement rest driver
  obtain ⟨u, hu⟩ : ∃ u, truncate (_ ++ a :: (t ++ s)) cfg.maxObservationChars = _ ++ a :: u :=
    truncate_keeps hspace hcut
  obtain ⟨u', hu'⟩ : ∃ u, truncate (_ ++ a' :: (t' ++ s)) cfg.maxObservationChars = _ ++ a' :: u :=
    truncate_keeps hspace' hcut
  rw [toldTo_fails raw harguments hname hallowed hnew (hcall c),
    toldTo_fails raw harguments hname hallowed hnew (hcall c'), htext, htext, hc, hc',
    List.cons_append, List.cons_append, hu, hu']
  intro hsame
  have hcalls := congrArg Prod.snd (Except.ok.inj hsame)
  have houtcome := congrArg ToolCall.outcome (List.cons.inj (List.append_cancel_left hcalls)).1
  exact hne (List.cons.inj (List.append_cancel_left (CallOutcome.error.inj houtcome))).1

omit [PyFloat F] [Unicode] in
/-- A value of `customers.id`, an `INTEGER`. -/
def IsInt4 (c : Int) : Prop := -2147483648 ≤ c ∧ c ≤ 2147483647

/-- The messages and the recorded calls after a tool call do not depend on the customer whose session
it is, if the call does not fail in sight at a statement with the customer's id among its parameters. It
is so exactly when it does not, unless the observations are cut from their end. -/
theorem tool_text_identity_free_iff (ha : buildAccountAgent registered = .ok cfg.agent) :
    (¬ TellsId b cfg st decision →
      ∀ c c', toldTo b cfg st raw decision c = toldTo b cfg st raw decision c') ∧
    (0 ≤ cfg.maxObservationChars →
      ((∀ c c', IsInt4 c → IsInt4 c' →
        toldTo b cfg st raw decision c = toldTo b cfg st raw decision c') ↔
          ¬ TellsId b cfg st decision)) := by
  refine ⟨toldTo_same_of_not_tellsId, fun hlimit => ⟨fun hsame htells => ?_, fun hnot c c' _ _ =>
    toldTo_same_of_not_tellsId hnot c c'⟩⟩
  obtain ⟨name, statement, driver, hname, hnew, hread, hfails, hcut⟩ := htells
  obtain ⟨hseven, height⟩ := idText_digits statement
  exact toldTo_ne ha rfl hname hnew hread hfails (hcut hlimit) (show chr '7' ≠ chr '8' by decide)
    (by decide) (by decide) hseven height (hsame 7 8 (by unfold IsInt4; omega) (by unfold IsInt4; omega))

end

end Told

/-! ## A reason that is too long -/

/-- The session at a database that rejects every insertion. -/
def rejectingDesk (F : Type) [PyFloat F] : Backend F where
  sa := deskSqlAlchemy
  mcp := deskMcp F
  sessionId := "s-1"
  db :=
    { connect := .ok ()
      execute := fun statement => match statement with
        | .setConfig => .ok ()
        | .selectOrder => .ok none
        | .selectOrders => .ok []
        | .insertEscalation => .error "value too long for type character varying(128)"
      commit := .ok ()
      rollback := .ok () }

def escalateDecision (F : Type) (reason : Str) : List (Str × Json F) :=
  [("action", .string "call_tool"), ("tool", .string "escalate_to_human"),
    ("arguments", .object [("summary", .string "Help"), ("reason", .string reason)])]

def deskSettings : Settings where
  modelClassifier := "desk"
  modelSynthesis := "desk"

/-- The loop of the account agent, with the defaults of the settings. -/
def deskLoop {F : Type} (agent : SubAgent F) : LoopConfig F where
  model := deskSettings.modelSynthesis
  agent := agent
  maxObservationChars := deskSettings.loopObservationMaxChars
  tokenBudget := deskSettings.loopTokenBudget

/-- The texts for the customers 7 and 8 differ after a reason of 129 characters. -/
theorem longReason_tells_id : ∃ agent : SubAgent FloatText,
    @buildAccountAgent FloatText asciiUnicode _
      (accountAgentTools.map fun name => ⟨name, none, []⟩) = .ok agent ∧
    @toldTo FloatText _ asciiUnicode (rejectingDesk FloatText) (deskLoop agent) ⟨[], [], []⟩ []
      (escalateDecision FloatText (List.replicate 129 (chr 'x'))) 7 ≠
    @toldTo FloatText _ asciiUnicode (rejectingDesk FloatText) (deskLoop agent) ⟨[], [], []⟩ []
      (escalateDecision FloatText (List.replicate 129 (chr 'x'))) 8 := by
  let _ := asciiUnicode
  obtain ⟨agent, ha⟩ := deskTools_registered (F := FloatText)
  refine ⟨agent, ha, toldTo_ne ha rfl rfl rfl (.inr (.inr ⟨rfl, _, rfl⟩))
    (.insertEscalation rfl rfl rfl rfl rfl) ?_ (show chr '7' ≠ chr '8' by decide) (by decide) (by decide)
    rfl rfl⟩
  exact (by decide +kernel : ((textBeforeId (rejectingDesk FloatText) (str "escalate_to_human")
    .insertEscalation (str "value too long for type character varying(128)")).length : Int) < 800)

/-- The texts for two customers are the same after a call that does not insert. -/
theorem orderStatus_tells_no_id : ∃ agent : SubAgent FloatText,
    @toldTo FloatText _ asciiUnicode (rejectingDesk FloatText) (deskLoop agent) ⟨[], [], []⟩ []
      [("tool", .string "get_order_status"), ("arguments", .object [("order_ref", .string "A-1")])] 7 =
    @toldTo FloatText _ asciiUnicode (rejectingDesk FloatText) (deskLoop agent) ⟨[], [], []⟩ []
      [("tool", .string "get_order_status"),
        ("arguments", .object [("order_ref", .string "A-1")])] 8 := by
  let _ := asciiUnicode
  obtain ⟨agent, ha⟩ := deskTools_registered (F := FloatText)
  refine ⟨agent, (tool_text_identity_free_iff ha).1 ?_ 7 8⟩
  rintro ⟨name, statement, driver, hname, -, -, hfails, -⟩
  cases hname
  cases hfails with
  | setConfig _ hconfig => cases hconfig
  | insertEscalation hname => exact absurd hname (by decide)

end DealershipAgent
