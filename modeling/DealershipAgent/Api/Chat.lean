import DealershipAgent.Agents.State
import DealershipAgent.Api.Conversations
import DealershipAgent.Api.RateLimit
import DealershipAgent.Interact.Shared

/-!
# `POST /chat`

The handler `chat` of `api/app.py`, and any number of its runs over one database.

* `chat`: the handler, a program that asks for its rate check, its conversation, its turn and the
  appending of the new messages.
* `ChatTrace`: where a run of the handler can be, with what it has asked so far.
* `ChatService`: what the database, the rate limiter and the turn answer.
* `conversation_history`: the histories after every run of any number of requests.
-/

namespace DealershipAgent

open Py Json Interact RowSecurity

/-! ## The handler -/

structure ChatRequest where
  message : Str
  conversationId : Option Str := none

/-- `ChatResponse`, without the latency. -/
structure ChatResponse where
  answer : Str
  degraded : Bool
  degradationReasons : List Str
  toolCallsMade : List Str
  conversationId : Str

inductive ApiRequest where
  /-- `limiter.check(key)` -/
  | checkRate (key : Str)
  | loadConversation (customerId : Int) (conversationRef : Str)
  | createConversation (customerId : Int)
  | runTurn (identity : RequestIdentity) (messages : List Message)
  | appendMessages (customerId conversationId : Int) (messages : List Message)

abbrev ApiAnswer (T F : Type) : ApiRequest → Type
  | .checkRate _ => RateLimitResult T
  | .loadConversation _ _ => Except (Fault Exc) (Option (Int × List Message))
  | .createConversation _ => Except (Fault Exc) (Int × Str)
  | .runTurn _ _ => Except Raised (GraphState F)
  | .appendMessages _ _ _ => Except (Fault Exc) Unit

/-- What leaves the handler instead of a response. -/
inductive ApiError where
  | http (status : Nat) (detail : Str) (headers : List (Str × Str) := [])
  | database (fault : Fault Exc)
  | turn (e : Raised)
  | code (e : Exc)

abbrev Handler (T F α : Type) : Type := Prog ApiRequest (ApiAnswer T F) ApiError α

section Handler

variable {T F : Type}

/-- Pydantic's check of a `str`. The text of its error is left out. -/
def validStr : Json F → Except Exc Str
  | .string s => .ok s
  | _ => .error ⟨.other "ValidationError", []⟩

/-- `_tool_calls_made` -/
def toolCallsMade (result : GraphState F) : List (Json F) :=
  (result.salesResult.toList ++ result.accountResult.toList).flatMap
      (fun loopResult => loopResult.toolCalls.map (·.tool)) ++
    match result.escalateResult with
    | .null => []
    | _ => [.string "escalate_to_human"]

/-- The text of `Message(role="assistant", content=answer)`. -/
def answerText [PyFloat F] (result : GraphState F) : Except Exc Str :=
  validStr (result.finalResponse.orElse (.string []))

def chatResponse (answer conversationRef : Str) (result : GraphState F) : Except Exc ChatResponse := do
  let names ← (toolCallsMade result).mapM validStr
  return { answer := answer, degraded := result.degraded,
           degradationReasons := result.degradationReasons, toolCallsMade := names,
           conversationId := conversationRef }

/-- `str(customer_id)` -/
def rateKey : Option Int → Str
  | some customerId => intRepr customerId
  | none => "None"

/-- The id and the reference of the conversation, and its prior messages. -/
def openConversation (customerId : Int) (request : ChatRequest) :
    Handler T F (Int × Str × List Message) :=
  match request.conversationId with
  | some conversationRef => .ask (.loadConversation customerId conversationRef)
      fun x : Except (Fault Exc) (Option (Int × List Message)) => .lift (match x with
        | .error fault => .error (.database fault)
        | .ok none => .error (.http 404 "Conversation not found")
        | .ok (some (conversationId, messages)) => .ok (conversationId, conversationRef, messages))
  | none => .ask (.createConversation customerId)
      fun x : Except (Fault Exc) (Int × Str) => .lift (match x with
        | .error fault => .error (.database fault)
        | .ok (conversationId, conversationRef) => .ok (conversationId, conversationRef, []))

/-- `chat`, where `wholeSeconds` is `int` on seconds. -/
def chat [PyFloat F] (wholeSeconds : T → Int) (identity : RequestIdentity) (request : ChatRequest) :
    Handler T F ChatResponse :=
  .ask (.checkRate (rateKey identity.customerId)) fun rateResult : RateLimitResult T =>
    if !rateResult.allowed then
      .raise (.http 429 "Rate limit exceeded"
        [("Retry-After", intRepr (wholeSeconds rateResult.retryAfterSeconds + 1))])
    else match identity.customerId with
      | none => .raise (.http 401 "Authenticated identity required")
      | some customerId => do
        let (conversationId, conversationRef, priorMessages) ← openConversation customerId request
        let userMessage : Message := ⟨.user, request.message⟩
        let result ← .ask (.runTurn identity (priorMessages ++ [userMessage]))
          fun x : Except Raised (GraphState F) => .lift (x.mapError ApiError.turn)
        let answer ← .lift ((answerText result).mapError ApiError.code)
        .ask (.appendMessages customerId conversationId [userMessage, ⟨.assistant, answer⟩])
          fun x : Except (Fault Exc) Unit => .lift (x.mapError ApiError.database)
        .lift ((chatResponse answer conversationRef result).mapError ApiError.code)

end Handler

/-! ## Where a run of the handler can be -/

section Trace

variable {T F : Type}

abbrev ApiEvent (T F : Type) : Type := Event ApiRequest (ApiAnswer T F)

/-- The event has given the request its conversation and the prior messages. -/
inductive Opened (customerId : Int) (request : ChatRequest) :
    ApiEvent T F → Int → Str → List Message → Prop
  | loaded {conversationRef : Str} {conversationId : Int} {messages : List Message} :
      request.conversationId = some conversationRef → Opened customerId request
        ⟨.loadConversation customerId conversationRef, .ok (some (conversationId, messages))⟩
        conversationId conversationRef messages
  | created {conversationRef : Str} {conversationId : Int} :
      request.conversationId = none → Opened customerId request
        ⟨.createConversation customerId, .ok (conversationId, conversationRef)⟩
        conversationId conversationRef []

/-- The event has given it none, and this is raised. -/
inductive NotOpened (customerId : Int) (request : ChatRequest) : ApiEvent T F → ApiError → Prop
  | notFound {conversationRef : Str} : request.conversationId = some conversationRef →
      NotOpened customerId request ⟨.loadConversation customerId conversationRef, .ok none⟩
        (.http 404 "Conversation not found")
  | loadFailed {conversationRef : Str} (fault : Fault Exc) :
      request.conversationId = some conversationRef →
      NotOpened customerId request ⟨.loadConversation customerId conversationRef, .error fault⟩
        (.database fault)
  | createFailed (fault : Fault Exc) : request.conversationId = none →
      NotOpened customerId request ⟨.createConversation customerId, .error fault⟩ (.database fault)

/-- The two messages of a request. -/
def exchange (request : ChatRequest) (answer : Str) : List Message :=
  [⟨.user, request.message⟩, ⟨.assistant, answer⟩]

/-- Where a run of the handler can be: what it has asked, and what is left of it. -/
inductive ChatTrace [PyFloat F] (identity : RequestIdentity) (request : ChatRequest) :
    List (ApiEvent T F) → Handler T F ChatResponse → Prop
  | start {k : RateLimitResult T → Handler T F ChatResponse} :
      ChatTrace identity request [] (.ask (.checkRate (rateKey identity.customerId)) k)
  | refused (rate : RateLimitResult T) (e : ApiError) :
      ChatTrace identity request [⟨.checkRate (rateKey identity.customerId), rate⟩] (.raise e)
  | loading (rate : RateLimitResult T) {c : Int} {ref : Str}
      {k : Except (Fault Exc) (Option (Int × List Message)) → Handler T F ChatResponse} :
      identity.customerId = some c → request.conversationId = some ref →
      ChatTrace identity request [⟨.checkRate (rateKey identity.customerId), rate⟩]
        (.ask (.loadConversation c ref) k)
  | creating (rate : RateLimitResult T) {c : Int}
      {k : Except (Fault Exc) (Int × Str) → Handler T F ChatResponse} :
      identity.customerId = some c → request.conversationId = none →
      ChatTrace identity request [⟨.checkRate (rateKey identity.customerId), rate⟩]
        (.ask (.createConversation c) k)
  | rejected (rate : RateLimitResult T) {c : Int} {ev : ApiEvent T F} {e : ApiError} :
      identity.customerId = some c → NotOpened c request ev e →
      ChatTrace identity request [⟨.checkRate (rateKey identity.customerId), rate⟩, ev] (.raise e)
  | running (rate : RateLimitResult T) {c conversationId : Int} {ref : Str} {prior : List Message}
      {ev : ApiEvent T F} {k : Except Raised (GraphState F) → Handler T F ChatResponse} :
      identity.customerId = some c → Opened c request ev conversationId ref prior →
      ChatTrace identity request [⟨.checkRate (rateKey identity.customerId), rate⟩, ev]
        (.ask (.runTurn identity (prior ++ [⟨.user, request.message⟩])) k)
  | failed (rate : RateLimitResult T) {c conversationId : Int} {ref : Str} {prior : List Message}
      {ev : ApiEvent T F} (x : Except Raised (GraphState F)) (e : ApiError) :
      identity.customerId = some c → Opened c request ev conversationId ref prior →
      ChatTrace identity request [⟨.checkRate (rateKey identity.customerId), rate⟩, ev,
        ⟨.runTurn identity (prior ++ [⟨.user, request.message⟩]), x⟩] (.raise e)
  | appending (rate : RateLimitResult T) {c conversationId : Int} {ref : Str} {prior : List Message}
      {ev : ApiEvent T F} {result : GraphState F} {answer : Str}
      {k : Except (Fault Exc) Unit → Handler T F ChatResponse} :
      identity.customerId = some c → Opened c request ev conversationId ref prior →
      answerText result = .ok answer →
      ChatTrace identity request [⟨.checkRate (rateKey identity.customerId), rate⟩, ev,
        ⟨.runTurn identity (prior ++ [⟨.user, request.message⟩]), .ok result⟩]
        (.ask (.appendMessages c conversationId (exchange request answer)) k)
  | ended (rate : RateLimitResult T) {c conversationId : Int} {ref : Str} {prior : List Message}
      {ev : ApiEvent T F} {result : GraphState F} {answer : Str} (x : Except (Fault Exc) Unit)
      {q : Handler T F ChatResponse} :
      identity.customerId = some c → Opened c request ev conversationId ref prior →
      answerText result = .ok answer →
      ((∃ response, q = .ret response) → x = .ok ()) → (∀ r k, q ≠ .ask r k) →
      ChatTrace identity request [⟨.checkRate (rateKey identity.customerId), rate⟩, ev,
        ⟨.runTurn identity (prior ++ [⟨.user, request.message⟩]), .ok result⟩,
        ⟨.appendMessages c conversationId (exchange request answer), x⟩] q

variable [PyFloat F] {wholeSeconds : T → Int} {identity : RequestIdentity} {request : ChatRequest}
  {tr : List (ApiEvent T F)} {q : Handler T F ChatResponse}

omit [PyFloat F] in
/-- How a request gets its conversation. -/
theorem leads_openConversation {c : Int} {f : Int × Str × List Message → Handler T F ChatResponse}
    (h : Leads (openConversation c request >>= f) tr q) :
    (tr = [] ∧ ((∃ ref, request.conversationId = some ref ∧ ∃ k, q = .ask (.loadConversation c ref) k) ∨
      (request.conversationId = none ∧ ∃ k, q = .ask (.createConversation c) k))) ∨
    (∃ ev e, tr = [ev] ∧ NotOpened c request ev e ∧ q = .raise e) ∨
    ∃ ev conversationId ref prior tr', tr = ev :: tr' ∧ Opened c request ev conversationId ref prior ∧
      Leads (f (conversationId, ref, prior)) tr' q := by
  unfold openConversation at h
  cases hr : request.conversationId with
  | some ref =>
    simp only [hr] at h
    rcases leads_ask_lift_bind h with ⟨rfl, k, rfl⟩ | ⟨x, e, rfl, hg, rfl⟩ | ⟨x, b, tr', rfl, hg, hrest⟩
    · exact .inl ⟨rfl, .inl ⟨ref, rfl, k, rfl⟩⟩
    · refine .inr (.inl ⟨_, e, rfl, ?_, rfl⟩)
      rcases x with fault | found
      · cases hg
        exact .loadFailed fault hr
      · cases found with
        | none =>
          cases hg
          exact .notFound hr
        | some found => cases hg
    · rcases x with fault | found
      · cases hg
      · cases found with
        | none => cases hg
        | some found =>
          cases hg
          exact .inr (.inr ⟨_, _, _, _, tr', rfl, .loaded hr, hrest⟩)
  | none =>
    simp only [hr] at h
    rcases leads_ask_lift_bind h with ⟨rfl, k, rfl⟩ | ⟨x, e, rfl, hg, rfl⟩ | ⟨x, b, tr', rfl, hg, hrest⟩
    · exact .inl ⟨rfl, .inr ⟨rfl, k, rfl⟩⟩
    · refine .inr (.inl ⟨_, e, rfl, ?_, rfl⟩)
      rcases x with fault | made
      · cases hg
        exact .createFailed fault hr
      · cases hg
    · rcases x with fault | made
      · cases hg
      · cases hg
        exact .inr (.inr ⟨_, _, _, _, tr', rfl, .created hr, hrest⟩)

/-- A run of the handler is at one of these places. -/
theorem leads_chat (h : Leads (chat wholeSeconds identity request) tr q) :
    ChatTrace identity request tr q := by
  unfold chat at h
  rcases leads_ask h with ⟨rfl, rfl⟩ | ⟨rate, tr', rfl, hrate⟩
  · exact .start
  · clear h
    by_cases hallowed : (!rate.allowed) = true
    · rw [if_pos hallowed] at hrate
      obtain ⟨rfl, rfl⟩ := leads_raise hrate
      exact .refused rate _
    · rw [if_neg hallowed] at hrate
      cases hc : identity.customerId with
      | none =>
        simp only [hc] at hrate
        obtain ⟨rfl, rfl⟩ := leads_raise hrate
        rw [← hc]
        exact .refused rate _
      | some c =>
        simp only [hc] at hrate
        rw [← hc]
        rcases leads_openConversation hrate with ⟨rfl, ⟨ref, href, k, rfl⟩ | ⟨href, k, rfl⟩⟩ |
          ⟨ev, e, rfl, hno, rfl⟩ | ⟨ev, conversationId, ref, prior, tr'', rfl, hopened, hturn⟩
        · exact .loading rate hc href
        · exact .creating rate hc href
        · exact .rejected rate hc hno
        · rcases leads_ask_lift_bind hturn with ⟨rfl, k, rfl⟩ | ⟨x, e, rfl, -, rfl⟩ |
            ⟨x, result, tr₃, rfl, hx, hresult⟩
          · exact .running rate hc hopened
          · exact .failed rate x e hc hopened
          · obtain rfl : x = .ok result := by
              cases x with
              | error e => cases hx
              | ok result' => cases hx; rfl
            rcases leads_lift_bind hresult with ⟨e, -, rfl, rfl⟩ | ⟨answer, hanswer, happend⟩
            · exact .failed rate _ e hc hopened
            · have htext : answerText result = .ok answer := by
                cases ha : answerText result with
                | error e => rw [ha] at hanswer; cases hanswer
                | ok answer' => rw [ha] at hanswer; cases hanswer; rfl
              rcases leads_ask_lift_bind happend with ⟨rfl, k, rfl⟩ | ⟨x, e, rfl, -, rfl⟩ |
                ⟨x, ⟨⟩, tr₄, rfl, hx', hresponse⟩
              · exact .appending rate hc hopened htext
              · exact .ended rate x hc hopened htext (fun ⟨response, hq⟩ => by cases hq)
                  fun r k hq => by cases hq
              · have hx : x = .ok () := by
                  cases x with
                  | error e => cases hx'
                  | ok u => rfl
                have hq : tr₄ = [] ∧ ∀ r k, q ≠ .ask r k := by
                  cases hc' : chatResponse answer ref result with
                  | error e =>
                    rw [hc'] at hresponse
                    obtain ⟨rfl, rfl⟩ := leads_raise hresponse
                    exact ⟨rfl, fun r k hq => by cases hq⟩
                  | ok response =>
                    rw [hc'] at hresponse
                    obtain ⟨rfl, rfl⟩ := leads_ret hresponse
                    exact ⟨rfl, fun r k hq => by cases hq⟩
                obtain ⟨rfl, hno⟩ := hq
                exact .ended rate x hc hopened htext (fun _ => hx) hno

/-! ### What it has asked -/

def ApiRequest.isAppend : ApiRequest → Bool
  | .appendMessages _ _ _ => true
  | _ => false

@[simp] theorem isAppend_checkRate (key : Str) : (ApiRequest.checkRate key).isAppend = false := rfl

@[simp] theorem isAppend_runTurn (identity : RequestIdentity) (messages : List Message) :
    (ApiRequest.runTurn identity messages).isAppend = false := rfl

variable {c conversationId : Int} {ref : Str} {prior messages : List Message} {ev : ApiEvent T F}
  {e : ApiError}

omit [PyFloat F] in
theorem Opened.isAppend (h : Opened c request ev conversationId ref prior) :
    ev.req.isAppend = false := by
  cases h <;> rfl

omit [PyFloat F] in
theorem NotOpened.isAppend (h : NotOpened c request ev e) : ev.req.isAppend = false := by
  cases h <;> rfl

omit [PyFloat F] in
theorem Opened.ne_runTurn (h : Opened c request ev conversationId ref prior)
    (x : Except Raised (GraphState F)) : ev ≠ ⟨.runTurn identity messages, x⟩ := by
  rintro rfl
  cases h

/-- Before it loads a conversation it has only passed the rate check. -/
theorem ChatTrace.loads
    {k : Except (Fault Exc) (Option (Int × List Message)) → Handler T F ChatResponse}
    (h : ChatTrace identity request tr (.ask (.loadConversation c ref) k)) :
    identity.customerId = some c ∧ request.conversationId = some ref ∧
      ∃ rate, tr = [⟨.checkRate (rateKey identity.customerId), rate⟩] := by
  generalize hq : (.ask (.loadConversation c ref) k : Handler T F ChatResponse) = q at h
  cases h with
  | loading rate hc href =>
    cases hq
    exact ⟨hc, href, rate, rfl⟩
  | ended _ _ _ _ _ _ hno => exact absurd hq.symm (hno _ _)
  | _ => cases hq

/-- Before it appends messages it has opened their conversation, and has appended none. -/
theorem ChatTrace.appends {k : Except (Fault Exc) Unit → Handler T F ChatResponse}
    (h : ChatTrace identity request tr (.ask (.appendMessages c conversationId messages) k)) :
    identity.customerId = some c ∧ (∀ ev ∈ tr, ev.req.isAppend = false) ∧
      ∃ ev ∈ tr, ∃ ref prior, Opened c request ev conversationId ref prior := by
  generalize hq : (.ask (.appendMessages c conversationId messages) k : Handler T F ChatResponse) = q
    at h
  cases h with
  | @appending rate c' conversationId' ref prior ev result answer k hc hopened htext =>
    cases hq
    exact ⟨hc, by simp [hopened.isAppend], ev, by simp, ref, prior, hopened⟩
  | ended _ _ _ _ _ _ hno => exact absurd hq.symm (hno _ _)
  | _ => cases hq

/-- A run that has appended messages: they are the request's exchange, and its turn has not failed. -/
theorem ChatTrace.appended {x : Except (Fault Exc) Unit} (h : ChatTrace identity request tr q)
    (hm : ⟨.appendMessages c conversationId messages, x⟩ ∈ tr) :
    (∃ prior result answer, ⟨.runTurn identity prior, .ok result⟩ ∈ tr ∧
      answerText result = .ok answer ∧ messages = exchange request answer) ∧
    ∀ identity' messages' e, ⟨.runTurn identity' messages', .error e⟩ ∉ tr := by
  have hno : ¬ ∀ ev ∈ tr, ev.req.isAppend = false := fun hall => by cases hall _ hm
  cases h with
  | ended rate y hc hopened htext hret hasks =>
    simp only [List.mem_cons, List.not_mem_nil, or_false] at hm
    rcases hm with hm | hm | hm | hm
    · cases hm
    · have := hopened.isAppend
      rw [← hm] at this
      cases this
    · cases hm
    · cases hm
      refine ⟨⟨_, _, _, List.mem_cons_of_mem _ (List.mem_cons_of_mem _ List.mem_cons_self), htext, rfl⟩,
        fun identity' messages' e hfailed => ?_⟩
      simp only [List.mem_cons, List.not_mem_nil, or_false] at hfailed
      rcases hfailed with hf | hf | hf | hf
      · cases hf
      · exact hopened.ne_runTurn _ hf.symm
      · cases hf
      · cases hf
  | rejected rate hc hnot => exact absurd (by simp [hnot.isAppend]) hno
  | running rate hc hopened => exact absurd (by simp [hopened.isAppend]) hno
  | failed rate y e hc hopened => exact absurd (by simp [hopened.isAppend]) hno
  | appending rate hc hopened htext =>
    exact absurd (by simp [hopened.isAppend]) hno
  | _ => exact absurd (by simp) hno

/-- A run with a response has appended its exchange. -/
theorem ChatTrace.returned {response : ChatResponse}
    (h : ChatTrace identity request tr (.ret response)) :
    ∃ c conversationId messages, ⟨.appendMessages c conversationId messages, .ok ()⟩ ∈ tr := by
  generalize hq : (.ret response : Handler T F ChatResponse) = q at h
  cases h with
  | ended rate y hc hopened htext hret hasks =>
    obtain rfl := hret ⟨response, hq.symm⟩
    exact ⟨_, _, _, List.mem_of_getLast? rfl⟩
  | _ => cases hq

end Trace

/-! ## The database, the rate limiter and the turns -/

/-- The conversations stay as they are. -/
structure SameConversations (store store' : ConversationStore) : Prop where
  conversations : store'.db.conversations = store.db.conversations
  messages : store'.db.conversationMessages = store.db.conversationMessages
  lastConversation : store'.lastConversation = store.lastConversation
  lastMessage : store'.lastMessage = store.lastMessage

/-- What a request is answered, and the store after it. The limiter and the turn may answer anything, and
a turn may change what is no conversation. With `faults` a connection may fail, and Postgres may have
more against a row than its constraints. -/
inductive ChatService {T F : Type} (pg : Postgres) (faults : Bool) :
    ConversationStore → ApiEvent T F → ConversationStore → Prop
  | checkRate {store : ConversationStore} {key : Str} (result : RateLimitResult T) :
      ChatService pg faults store ⟨.checkRate key, result⟩ store
  | loadConversation {store : ConversationStore} {c : Int} {ref : Str} :
      ChatService pg faults store
        ⟨.loadConversation c ref, loadConversationOnce pg c store.db ref⟩ store
  | createConversation {store : ConversationStore} {c : Int} (hex : Str) (now : Timestamp)
      {accepts : Row → Bool} : (faults = false → ∀ row, accepts row = true) →
      ChatService pg faults store
        ⟨.createConversation c, (createConversation pg store c hex now accepts).2⟩
        (createConversation pg store c hex now accepts).1
  | runTurn {store store' : ConversationStore} {identity : RequestIdentity}
      {messages : List Message} (x : Except Raised (GraphState F)) :
      SameConversations store store' →
      ChatService pg faults store ⟨.runTurn identity messages, x⟩ store'
  | appendMessages {store : ConversationStore} {c conversationId : Int} {messages : List Message}
      (now : Timestamp) {accepts : Row → Bool} : (faults = false → ∀ row, accepts row = true) →
      ChatService pg faults store
        ⟨.appendMessages c conversationId messages,
          (appendMessages pg store c conversationId messages now accepts).2⟩
        (appendMessages pg store c conversationId messages now accepts).1
  | loadFails {store : ConversationStore} {c : Int} {ref : Str} (e : Exc) : faults = true →
      ChatService pg faults store ⟨.loadConversation c ref, .error (.raised e)⟩ store
  | createFails {store : ConversationStore} {c : Int} (e : Exc) : faults = true →
      ChatService pg faults store ⟨.createConversation c, .error (.raised e)⟩ store
  | appendFails {store : ConversationStore} {c conversationId : Int} {messages : List Message}
      (e : Exc) : faults = true →
      ChatService pg faults store
        ⟨.appendMessages c conversationId messages, .error (.raised e)⟩ store

section Appends

variable {N T F : Type}

/-- Who has appended what to which conversation. -/
def appendOf : Event (N × ApiRequest) (fun r => ApiAnswer T F r.2) → Option (N × Int × List Message)
  | ⟨(n, .appendMessages _ conversationId messages), .ok _⟩ => some (n, conversationId, messages)
  | _ => none

/-- The messages that were appended, in that order. -/
def appends (h : List (Event (N × ApiRequest) fun r => ApiAnswer T F r.2)) :
    List (N × Int × List Message) := h.filterMap appendOf

/-- Those of a conversation, one after the other. -/
def appendedTo (conversationId : Int)
    (h : List (Event (N × ApiRequest) fun r => ApiAnswer T F r.2)) : List (Str × Str) :=
  ((appends h).filter fun a => a.2.1 = conversationId).flatMap fun a => a.2.2.map Message.columns

variable {h : List (Event (N × ApiRequest) fun r => ApiAnswer T F r.2)}

theorem appendedTo_append (conversationId : Int)
    (h' : List (Event (N × ApiRequest) fun r => ApiAnswer T F r.2)) :
    appendedTo conversationId (h ++ h') =
      appendedTo conversationId h ++ appendedTo conversationId h' := by
  simp only [appendedTo, appends, List.filterMap_append, List.filter_append, List.flatMap_append]

theorem mem_appends {n : N} {conversationId : Int} {messages : List Message} :
    (n, conversationId, messages) ∈ appends h ↔ ∃ c, (⟨.appendMessages c conversationId messages,
      .ok ()⟩ : ApiEvent T F).tag n ∈ h := by
  unfold appends
  rw [List.mem_filterMap]
  constructor
  · rintro ⟨ev, hev, hof⟩
    unfold appendOf at hof
    split at hof
    · cases hof
      exact ⟨_, hev⟩
    · cases hof
  · rintro ⟨c, hev⟩
    exact ⟨_, hev, rfl⟩

end Appends

section Step

variable {N T F : Type} {pg : Postgres} {faults : Bool} {store store' : ConversationStore}
  {ev : ApiEvent T F}

theorem service_loadConversation {c : Int} {ref : Str}
    {x : Except (Fault Exc) (Option (Int × List Message))}
    (h : ChatService pg faults store (⟨.loadConversation c ref, x⟩ : ApiEvent T F) store') :
    store' = store ∧ (x = loadConversationOnce pg c store.db ref ∨
      faults = true ∧ ∃ e, x = .error (.raised e)) := by
  generalize hev : (⟨.loadConversation c ref, x⟩ : ApiEvent T F) = ev at h
  cases h with
  | loadConversation => cases hev; exact ⟨rfl, .inl rfl⟩
  | loadFails e hf => cases hev; exact ⟨rfl, .inr ⟨hf, e, rfl⟩⟩
  | _ => cases hev

theorem service_createConversation {c : Int} {x : Except (Fault Exc) (Int × Str)}
    (h : ChatService pg faults store (⟨.createConversation c, x⟩ : ApiEvent T F) store') :
    (∃ hex now accepts, x = (createConversation pg store c hex now accepts).2 ∧
      store' = (createConversation pg store c hex now accepts).1) ∨
    store' = store ∧ ∃ e, x = .error (.raised e) := by
  generalize hev : (⟨.createConversation c, x⟩ : ApiEvent T F) = ev at h
  cases h with
  | createConversation hex now hf => cases hev; exact .inl ⟨hex, now, _, rfl, rfl⟩
  | createFails e hf => cases hev; exact .inr ⟨rfl, e, rfl⟩
  | _ => cases hev

theorem service_appendMessages {c conversationId : Int} {messages : List Message}
    {x : Except (Fault Exc) Unit}
    (h : ChatService pg faults store
      (⟨.appendMessages c conversationId messages, x⟩ : ApiEvent T F) store') :
    (∃ now accepts, (faults = false → ∀ row, accepts row = true) ∧
      x = (appendMessages pg store c conversationId messages now accepts).2) ∨
    faults = true ∧ ∃ e, x = .error (.raised e) := by
  generalize hev : (⟨.appendMessages c conversationId messages, x⟩ : ApiEvent T F) = ev at h
  cases h with
  | appendMessages now hf => cases hev; exact .inl ⟨now, _, hf, rfl⟩
  | appendFails e hf => cases hev; exact .inr ⟨hf, e, rfl⟩
  | _ => cases hev

/-- No conversation is lost. -/
theorem ChatService.conversations (h : ChatService pg faults store ev store') :
    ∀ row ∈ store.db.conversations, row ∈ store'.db.conversations := by
  intro row hrow
  cases h with
  | @createConversation c hex now accepts =>
    rcases createConversation_cases pg store c hex now accepts with ⟨e, -, hs⟩ | ⟨-, -, hs⟩
    · rw [hs]
      exact hrow
    · rw [hs]
      exact List.mem_append_left _ hrow
  | runTurn x hsame =>
    rw [hsame.conversations]
    exact hrow
  | @appendMessages c conversationId messages now accepts =>
    rcases appendMessages_cases pg store c conversationId now accepts messages with
      ⟨e, last, -, hs, -⟩ | ⟨-, hs⟩
    · rw [hs]
      exact hrow
    · rw [hs]
      exact hrow
  | _ => exact hrow

/-- Where the messages stay, the histories do. -/
theorem history_same (ho : InOrder store)
    (hmessages : store'.db.conversationMessages = store.db.conversationMessages)
    (hlast : store.lastMessage ≤ store'.lastMessage) :
    InOrder store' ∧ ∀ conversationId, history store'.db conversationId =
      history store.db conversationId := by
  refine ⟨⟨hmessages ▸ ho.sorted, fun r hr => ?_⟩, fun conversationId => ?_⟩
  · have := ho.last r (hmessages ▸ hr)
    omega
  · unfold history
    rw [hmessages]

/-- An event appends its messages to the history of its conversation, and changes no other. -/
theorem ChatService.appends (h : ChatService pg faults store ev store') (ho : InOrder store) (n : N) :
    InOrder store' ∧ ∀ conversationId, history store'.db conversationId =
      history store.db conversationId ++ appendedTo conversationId [ev.tag n] := by
  have hnone : ∀ {store'' : ConversationStore}, InOrder store'' ∧
      (∀ conversationId, history store''.db conversationId = history store.db conversationId) →
      appendOf (ev.tag n) = none → InOrder store'' ∧ ∀ conversationId,
        history store''.db conversationId =
          history store.db conversationId ++ appendedTo conversationId [ev.tag n] := by
    intro store'' hsame hno
    refine ⟨hsame.1, fun conversationId => ?_⟩
    rw [hsame.2]
    simp [appendedTo, DealershipAgent.appends, hno]
  cases h with
  | @createConversation c hex now accepts =>
    refine hnone ?_ rfl
    rcases createConversation_cases pg store c hex now accepts with ⟨e, -, hs⟩ | ⟨-, -, hs⟩
    · rw [hs]
      exact history_same ho rfl (Int.le_refl _)
    · rw [hs]
      exact history_same ho rfl (Int.le_refl _)
  | runTurn x hsame =>
    exact hnone (history_same ho hsame.messages (Int.le_of_eq hsame.lastMessage.symm)) rfl
  | @appendMessages c conversationId messages now accepts =>
    rcases appendMessages_cases pg store c conversationId now accepts messages with
      ⟨e, last, he, hs, hle⟩ | ⟨hok, hs⟩
    · rw [hs]
      refine hnone (history_same ho rfl hle) ?_
      rw [he]
      rfl
    · rw [hs]
      refine ⟨ho.append messages, fun conversationId' => ?_⟩
      rw [hok]
      refine (history_append ho messages conversationId').trans (congrArg _ ?_)
      by_cases hid : conversationId = conversationId'
      · simp [appendedTo, DealershipAgent.appends, appendOf, Event.tag, hid]
      · simp [appendedTo, DealershipAgent.appends, appendOf, Event.tag, hid]
  | appendFails e => exact hnone (history_same ho rfl (Int.le_refl _)) rfl
  | _ => exact hnone (history_same ho rfl (Int.le_refl _)) rfl

/-- A conversation that was opened is the customer's, and its prior messages are its history so far. -/
theorem ChatService.opened {c conversationId : Int} {request : ChatRequest} {ref : Str}
    {prior : List Message} (h : ChatService pg faults store ev store')
    (hopened : Opened c request ev conversationId ref prior) :
    FitsInteger c ∧ (prior.map Message.columns <+: history store'.db conversationId) ∧
      ∃ row ∈ store'.db.conversations, row.id = conversationId ∧ row.customerId = c ∧
        row.conversationRef = ref := by
  cases hopened with
  | @loaded ref conversationId messages href =>
    obtain ⟨rfl, hx | ⟨-, e, hx⟩⟩ := service_loadConversation h
    · obtain ⟨hc, hprior, hrow⟩ := loadConversationOnce_ok hx.symm
      rw [hprior]
      exact ⟨hc, List.prefix_refl _, hrow⟩
    · cases hx
  | @created ref conversationId hnone =>
    rcases service_createConversation h with ⟨hex, now, accepts, hx, rfl⟩ | ⟨-, e, hx⟩
    · rcases createConversation_cases pg store c hex now accepts with ⟨e, he, -⟩ | ⟨hc, hok, hs⟩
      · rw [he] at hx
        cases hx
      · rw [hok] at hx
        cases hx
        refine ⟨hc, List.nil_prefix,
          ⟨store.lastConversation + 1, str "conv-" ++ hex, c, now, now⟩, ?_, rfl, rfl, rfl⟩
        rw [hs]
        exact List.mem_append_right _ List.mem_cons_self
    · cases hx

end Step

/-! ## Runs -/

section Run

variable {N T F : Type} [DecidableEq N] [PyFloat F] {pg : Postgres} {faults : Bool}
  {wholeSeconds : T → Int} {requests : N → RequestIdentity × ChatRequest}
  {store₀ : ConversationStore} {h : List (Event (N × ApiRequest) fun r => ApiAnswer T F r.2)}
  {sys sys' : System N ConversationStore ApiRequest (ApiAnswer T F) ApiError ChatResponse}

/-- The requests before any of their steps. -/
def chats (wholeSeconds : T → Int) (requests : N → RequestIdentity × ChatRequest)
    (store : ConversationStore) :
    System N ConversationStore ApiRequest (ApiAnswer T F) ApiError ChatResponse where
  store := store
  client n := chat wholeSeconds (requests n).1 (requests n).2

/-- What the store has by what it has served. -/
structure Recorded (store₀ : ConversationStore)
    (h : List (Event (N × ApiRequest) fun r => ApiAnswer T F r.2)) (store : ConversationStore) :
    Prop where
  order : InOrder store
  history : ∀ conversationId, history store.db conversationId =
    history store₀.db conversationId ++ appendedTo conversationId h
  opened : ∀ {n : N} {c conversationId : Int} {request : ChatRequest} {ref : Str}
    {prior : List Message} {ev : ApiEvent T F}, Opened c request ev conversationId ref prior →
    ev.tag n ∈ h → FitsInteger c ∧
      (prior.map Message.columns <+: DealershipAgent.history store.db conversationId) ∧
      ∃ row ∈ store.db.conversations, row.id = conversationId ∧ row.customerId = c ∧
        row.conversationRef = ref

omit [DecidableEq N] [PyFloat F] in
/-- A request that is served keeps the records. -/
theorem Recorded.step {store store' : ConversationStore} {n : N} {r : ApiRequest} {x : ApiAnswer T F r}
    (hs : Recorded store₀ h store) (hserve : ChatService pg faults store ⟨r, x⟩ store') :
    Recorded store₀ (h ++ [⟨(n, r), x⟩]) store' := by
  obtain ⟨horder, hhistory⟩ := hserve.appends hs.order n
  refine ⟨horder, fun conversationId => ?_, fun {m c conversationId request ref prior ev} hopened hev => ?_⟩
  · rw [hhistory, hs.history, appendedTo_append, List.append_assoc]
    rfl
  · rcases List.mem_append.mp hev with hold | hnew
    · obtain ⟨hc, hprior, row, hrow, hid⟩ := hs.opened hopened hold
      refine ⟨hc, hprior.trans ?_, row, hserve.conversations row hrow, hid⟩
      rw [hhistory]
      exact List.prefix_append _ _
    · obtain ⟨r', x'⟩ := ev
      cases List.mem_singleton.mp hnew
      exact hserve.opened hopened

theorem chats_recorded (h₀ : InOrder store₀)
    (hr : SharedRun (ChatService pg faults) (chats wholeSeconds requests store₀) h sys) :
    Recorded store₀ h sys.store := by
  refine hr.invariant (I := Recorded store₀) ⟨h₀, fun conversationId => ?_, fun _ hev => by cases hev⟩
    fun h s n r x s' hs hserve => hs.step hserve
  exact (List.append_nil _).symm

/-- A request is where its own events lead. -/
theorem chats_trace (hr : SharedRun (ChatService pg faults) (chats wholeSeconds requests store₀) h sys)
    (n : N) : ChatTrace (requests n).1 (requests n).2 (Graph.traceOf n h) (sys.client n) :=
  leads_chat (hr.leads n)

/-- A request appends once. -/
theorem appends_nodup
    (hr : SharedRun (ChatService pg faults) (chats wholeSeconds requests store₀) h sys) :
    ((appends h).map Prod.fst).Nodup := by
  induction hr with
  | start => exact List.nodup_nil
  | @step h sys sys' ev hr hs ih =>
    unfold appends at ih ⊢
    rw [List.filterMap_append, List.map_append]
    cases hof : appendOf ev with
    | none => simpa [hof] using ih
    | some a =>
      obtain ⟨n, conversationId, messages⟩ := a
      have hev : (n, conversationId, messages) ∈ appends [ev] := by simp [appends, hof]
      obtain ⟨c, hev⟩ := mem_appends.mp hev
      obtain rfl := List.mem_singleton.mp hev
      have hnew : n ∉ (appends h).map Prod.fst := by
        intro hmem
        obtain ⟨⟨n, conversationId', messages'⟩, hold, rfl⟩ := List.mem_map.mp hmem
        obtain ⟨c', hold⟩ := mem_appends.mp hold
        cases hs with
        | mk hask hserve =>
          have htrace := chats_trace hr n
          rw [hask] at htrace
          have hno := htrace.appends.2.1 _ (Graph.mem_traceOf.mpr hold)
          cases hno
      simp only [List.filterMap_cons, hof, List.filterMap_nil, List.map_cons, List.map_nil]
      refine List.nodup_append.mpr ⟨ih, List.nodup_singleton n, ?_⟩
      intro m hm m' hm' hmm
      rw [List.mem_singleton.mp hm'] at hmm
      exact hnew (hmm ▸ hm)

/-- A request that comes to append. -/
theorem chats_appending (h₀ : InOrder store₀)
    (hr : SharedRun (ChatService pg faults) (chats wholeSeconds requests store₀) h sys)
    {n : N} {c conversationId : Int} {messages : List Message} {x : Except (Fault Exc) Unit}
    (hs : SharedStep (ChatService pg faults) sys
      ((⟨.appendMessages c conversationId messages, x⟩ : ApiEvent T F).tag n) sys') :
    (requests n).1.customerId = some c ∧
    (∃ ev : ApiEvent T F, ev.tag n ∈ h ∧ ∃ ref prior,
      Opened c (requests n).2 ev conversationId ref prior ∧
      (prior.map Message.columns <+: history sys.store.db conversationId) ∧
      ∃ row ∈ sys.store.db.conversations,
        row.id = conversationId ∧ row.customerId = c ∧ row.conversationRef = ref) ∧
    (x = .ok () → ∀ message ∈ messages, Storable message.content) ∧
    (faults = false → (∀ message ∈ messages, Storable message.content) → x = .ok ()) := by
  cases hs with
  | mk hask hserve =>
    have htrace := chats_trace hr n
    rw [hask] at htrace
    obtain ⟨hc, -, ev, hev, ref, prior, hopened⟩ := htrace.appends
    have hrecorded := chats_recorded h₀ hr
    obtain ⟨hfits, hprior, row, hrow, hid, hcustomer, href⟩ :=
      hrecorded.opened hopened (Graph.mem_traceOf.mp hev)
    refine ⟨hc, ⟨ev, Graph.mem_traceOf.mp hev, ref, prior, hopened, hprior, row, hrow, hid, hcustomer,
      href⟩, ?_⟩
    rcases service_appendMessages hserve with ⟨now, accepts, haccepts, rfl⟩ | ⟨hf, e, rfl⟩
    · refine ⟨appendMessages_storable, fun hf htexts => ?_⟩
      cases happend : (appendMessages pg sys.store c conversationId messages now accepts).2 with
      | ok u => rfl
      | error e =>
        obtain ⟨-, r, hr⟩ :=
          appendMessages_error hfits hrecorded.order hrow hid hcustomer htexts happend
        rw [haccepts hf r] at hr
        cases hr
    · refine ⟨fun hx => (by cases hx), fun hf' => ?_⟩
      rw [hf'] at hf
      cases hf

/-- A request for a conversation that its customer does not own. -/
theorem chats_refused
    (hr : SharedRun (ChatService pg faults) (chats wholeSeconds requests store₀) h sys)
    {n : N} {c : Int} {ref : Str} {x : Except (Fault Exc) (Option (Int × List Message))}
    (hs : SharedStep (ChatService pg faults) sys
      ((⟨.loadConversation c ref, x⟩ : ApiEvent T F).tag n) sys')
    (hno : ∀ row ∈ sys.store.db.conversations, row.conversationRef = ref → row.customerId ≠ c) :
    (requests n).1.customerId = some c ∧ (requests n).2.conversationId = some ref ∧
    (∃ rate, Graph.traceOf n h = [⟨.checkRate (rateKey (some c)), rate⟩]) ∧
    sys'.store = sys.store ∧
    (∃ e, sys'.client n = .raise e ∧ (x = .ok none → e = .http 404 "Conversation not found")) ∧
    (faults = false → FitsInteger c → Storable ref → x = .ok none) := by
  have hr' := hr.step hs
  cases hs with
  | mk hask hserve =>
    have htrace := chats_trace hr n
    rw [hask] at htrace
    obtain ⟨hc, href, rate, htr⟩ := htrace.loads
    obtain ⟨rfl, hx⟩ := service_loadConversation hserve
    have hnone : ∀ found, x ≠ .ok (some found) := by
      rintro found rfl
      rcases hx with hx | ⟨-, e, hx⟩
      · obtain ⟨-, -, row, hrow, -, hcustomer, href⟩ := loadConversationOnce_ok hx.symm
        exact hno row hrow href hcustomer
      · cases hx
    have htrace' : ChatTrace _ _ (Graph.traceOf n (h ++ [(⟨.loadConversation c ref, x⟩ :
        ApiEvent T F).tag n])) (Function.update sys.client n _ n) := chats_trace hr' n
    rw [Graph.traceOf_snoc, htr] at htrace'
    refine ⟨hc, href, ⟨rate, by rw [htr, hc]⟩, rfl, ?_, fun hf hfits hstorable => ?_⟩
    · generalize hq : Function.update sys.client n _ n = q at htrace'
      cases htrace' with
      | @rejected rate' c' ev e hc' hnot =>
        refine ⟨e, hq, ?_⟩
        rintro rfl
        cases hnot
        rfl
      | running rate' hc' hopened =>
        cases hopened
        exact absurd rfl (hnone _)
    · rcases hx with hx | ⟨hf', -⟩
      · exact hx.trans ((loadConversationOnce_notOwned hstorable hno).trans (if_pos hfits))
      · rw [hf] at hf'
        cases hf'

/-- What holds of the conversations after a run. -/
structure Conversed (pg : Postgres) (faults : Bool) (requests : N → RequestIdentity × ChatRequest)
    (store₀ : ConversationStore) (h : List (Event (N × ApiRequest) fun r => ApiAnswer T F r.2))
    (sys : System N ConversationStore ApiRequest (ApiAnswer T F) ApiError ChatResponse) : Prop where
  /-- A history has grown by the messages that were appended to it, in that order. -/
  histories : ∀ conversationId, history sys.store.db conversationId =
    history store₀.db conversationId ++ appendedTo conversationId h
  /-- Every request has appended at most once. -/
  once : ((appends h).map Prod.fst).Nodup
  /-- It has appended its message and the answer of its turn. -/
  exchanges : ∀ {n conversationId messages}, (n, conversationId, messages) ∈ appends h →
    ∃ prior result answer,
      (⟨.runTurn (requests n).1 prior, .ok result⟩ : ApiEvent T F).tag n ∈ h ∧
      answerText result = .ok answer ∧ messages = exchange (requests n).2 answer
  /-- A request that has its response has appended. -/
  answered : ∀ {n response}, sys.client n = .ret response →
    ∃ conversationId messages, (n, conversationId, messages) ∈ appends h
  /-- A request whose turn has failed has not. -/
  failed : ∀ {n identity prior e},
    (⟨.runTurn identity prior, .error e⟩ : ApiEvent T F).tag n ∈ h →
      ∀ conversationId messages, (n, conversationId, messages) ∉ appends h
  /-- A request that comes to append does so to a conversation of its customer, whose history has begun
  with the prior messages that the request has seen; and without faults it succeeds if and only if
  Postgres can hold the two texts. -/
  appending : ∀ {n c conversationId messages x sys'},
    SharedStep (ChatService pg faults) sys
      ((⟨.appendMessages c conversationId messages, x⟩ : ApiEvent T F).tag n) sys' →
    (requests n).1.customerId = some c ∧
    (∃ ev : ApiEvent T F, ev.tag n ∈ h ∧ ∃ ref prior,
      Opened c (requests n).2 ev conversationId ref prior ∧
      (prior.map Message.columns <+: history sys.store.db conversationId) ∧
      ∃ row ∈ sys.store.db.conversations,
        row.id = conversationId ∧ row.customerId = c ∧ row.conversationRef = ref) ∧
    (x = .ok () → ∀ message ∈ messages, Storable message.content) ∧
    (faults = false → (∀ message ∈ messages, Storable message.content) → x = .ok ())
  /-- A request for a conversation that its customer does not own is refused, and changes nothing. -/
  refused : ∀ {n c ref x sys'},
    SharedStep (ChatService pg faults) sys
      ((⟨.loadConversation c ref, x⟩ : ApiEvent T F).tag n) sys' →
    (∀ row ∈ sys.store.db.conversations, row.conversationRef = ref → row.customerId ≠ c) →
    (requests n).1.customerId = some c ∧ (requests n).2.conversationId = some ref ∧
    (∃ rate, Graph.traceOf n h = [⟨.checkRate (rateKey (some c)), rate⟩]) ∧
    sys'.store = sys.store ∧
    (∃ e, sys'.client n = .raise e ∧ (x = .ok none → e = .http 404 "Conversation not found")) ∧
    (faults = false → FitsInteger c → Storable ref → x = .ok none)

/-- After every run of any number of requests, in any order of their steps. -/
theorem conversation_history (h₀ : InOrder store₀)
    (hr : SharedRun (ChatService pg faults) (chats wholeSeconds requests store₀) h sys) :
    Conversed pg faults requests store₀ h sys where
  histories := (chats_recorded h₀ hr).history
  once := appends_nodup hr
  exchanges hmem := by
    obtain ⟨c, hev⟩ := mem_appends.mp hmem
    obtain ⟨⟨prior, result, answer, hturn, htext, rfl⟩, -⟩ :=
      (chats_trace hr _).appended (Graph.mem_traceOf.mpr hev)
    exact ⟨prior, result, answer, Graph.mem_traceOf.mp hturn, htext, rfl⟩
  answered {n response} hret := by
    have htrace := chats_trace hr n
    rw [hret] at htrace
    obtain ⟨c, conversationId, messages, hev⟩ := htrace.returned
    exact ⟨conversationId, messages, mem_appends.mpr ⟨c, Graph.mem_traceOf.mp hev⟩⟩
  failed hfailed conversationId messages hmem := by
    obtain ⟨c, hev⟩ := mem_appends.mp hmem
    obtain ⟨-, hno⟩ := (chats_trace hr _).appended (Graph.mem_traceOf.mpr hev)
    exact hno _ _ _ (Graph.mem_traceOf.mpr hfailed)
  appending := chats_appending h₀ hr
  refused := chats_refused hr

end Run

/-! ## Two requests on one conversation -/

def talk : Conversation := ⟨1, "conv-1", 7, 0, 0⟩

/-- Customer 7 has one conversation, without messages. -/
def talkStore : ConversationStore where
  db := { customers := [⟨7, "C-7", "c@example.com", "C", none, 0⟩], conversations := [talk] }
  lastConversation := 1

def talkRequests (n : Bool) : RequestIdentity × ChatRequest :=
  (⟨"s-1", some 7⟩, ⟨if n then "One" else "Two", some "conv-1"⟩)

def talkResult (n : Bool) (prior : List Message) : GraphState FloatText :=
  { messages := prior, identity := (talkRequests n).1,
    finalResponse := .string (if n then "First" else "Second") }

theorem talk_loads :
    loadConversationOnce asciiPostgres 7 talkStore.db "conv-1" = .ok (some (1, [])) := by
  have hempty : history talkStore.db 1 = [] := by simp [history, talkStore]
  have howned : (owned talkStore.db 7 "conv-1").head? = some talk := by decide
  rw [loadConversationOnce_eq (by decide), if_pos (by decide), howned]
  simp only [show talk.id = 1 from rfl, hempty]
  rfl

/-- Both load the conversation before either appends to it. -/
theorem talk_history : ∃ (h : List (Event (Bool × ApiRequest) fun r => ApiAnswer Int FloatText r.2))
    (sys : System Bool ConversationStore ApiRequest (ApiAnswer Int FloatText) ApiError ChatResponse),
    SharedRun (ChatService asciiPostgres false) (chats id talkRequests talkStore) h sys ∧
    history sys.store.db 1 = (exchange (talkRequests false).2 "Second" ++
      exchange (talkRequests true).2 "First").map Message.columns := by
  have horder : InOrder talkStore := ⟨.nil, fun r hr => by cases hr⟩
  have hload : ChatService asciiPostgres false talkStore (⟨.loadConversation 7 "conv-1",
      .ok (some (1, []))⟩ : ApiEvent Int FloatText) talkStore := talk_loads ▸ .loadConversation
  have hsame : SameConversations talkStore talkStore := ⟨rfl, rfl, rfl, rfl⟩
  have h₀ : SharedRun (ChatService (T := Int) (F := FloatText) asciiPostgres false)
      (chats id talkRequests talkStore) [] (chats id talkRequests talkStore) := .start
  have h₁ := h₀.ask (n := true) rfl (.checkRate ⟨true, 0⟩)
  have h₂ := h₁.ask (n := false) rfl (.checkRate ⟨true, 0⟩)
  have h₃ := h₂.ask (n := true) rfl hload
  have h₄ := h₃.ask (n := false) rfl hload
  have h₅ := h₄.ask (n := true) rfl (.runTurn (.ok (talkResult true [])) hsame)
  have h₆ := h₅.ask (n := false) rfl (.runTurn (.ok (talkResult false [])) hsame)
  have hall : false = false → ∀ row : Row, (fun _ => true : Row → Bool) row = true := fun _ _ => rfl
  have h₇ := h₆.ask (n := false) rfl (.appendMessages 0 hall)
  have h₈ := h₇.ask (n := true) rfl (.appendMessages 0 hall)
  refine ⟨_, _, h₈, ((conversation_history horder h₈).histories 1).trans ?_⟩
  have hempty : history talkStore.db 1 = [] := by simp [history, talkStore]
  rw [hempty]
  decide

/-- The messages of the requests that have come to append to a conversation, whatever became of it. -/
def reachedTo {N T F : Type} (conversationId : Int)
    (h : List (Event (N × ApiRequest) fun r => ApiAnswer T F r.2)) : List (Str × Str) :=
  h.flatMap fun ev =>
    match ev.req.2 with
    | .appendMessages _ id messages => if id = conversationId then messages.map Message.columns else []
    | _ => []

/-- A message that the schema of the request admits. -/
def nulRequest : RequestIdentity × ChatRequest := (⟨"s-1", some 7⟩, ⟨[codePoint 0], some "conv-1"⟩)

/-- Its request comes to append, and nothing is stored. -/
theorem nul_not_appended :
    ¬ ∀ (h : List (Event (Unit × ApiRequest) fun r => ApiAnswer Int FloatText r.2))
      (sys : System Unit ConversationStore ApiRequest (ApiAnswer Int FloatText) ApiError ChatResponse),
      SharedRun (ChatService asciiPostgres false) (chats id (fun _ => nulRequest) talkStore) h sys →
      history sys.store.db 1 = history talkStore.db 1 ++ reachedTo 1 h := by
  intro hall
  have hload : ChatService asciiPostgres false talkStore (⟨.loadConversation 7 "conv-1",
      .ok (some (1, []))⟩ : ApiEvent Int FloatText) talkStore := talk_loads ▸ .loadConversation
  have h₀ : SharedRun (ChatService (T := Int) (F := FloatText) asciiPostgres false)
      (chats id (fun _ : Unit => nulRequest) talkStore) [] (chats id (fun _ => nulRequest) talkStore) :=
    .start
  have h₁ := h₀.ask (n := ()) rfl (.checkRate ⟨true, 0⟩)
  have h₂ := h₁.ask (n := ()) rfl hload
  have h₃ := h₂.ask (n := ()) rfl (.runTurn (.ok (talkResult true [])) ⟨rfl, rfl, rfl, rfl⟩)
  have hall' : false = false → ∀ row : Row, (fun _ => true : Row → Bool) row = true := fun _ _ => rfl
  have h₄ := h₃.ask (n := ()) rfl (.appendMessages 0 hall')
  have hempty : history talkStore.db 1 = [] := by simp [history, talkStore]
  have hstored := hall _ _ h₄
  rw [(chats_recorded ⟨.nil, fun r hr => by cases hr⟩ h₄).history 1, hempty] at hstored
  revert hstored
  decide

end DealershipAgent
