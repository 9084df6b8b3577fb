import Mathlib.Data.Set.Function
import DealershipAgent.Api.Chat

/-!
# What the requests of a customer see of each other

Any number of requests over one database, as `Chat` has them.

* `Keyed`: the keys and references of the conversations, which every request keeps
  (`ChatService.keyed`).
* `chat_answered`: what a request with a response has asked.
* `response_seen`: a turn sees the whole exchange of every response that its request could have
  waited for.
* `prompt_provenance`: where the messages of a turn come from.
-/

namespace DealershipAgent

open Py Json Interact RowSecurity

theorem columns_injective : Function.Injective Message.columns := by
  rintro ⟨role, content⟩ ⟨role', content'⟩ h
  obtain ⟨hrole, rfl⟩ : role.value = role'.value ∧ content = content' := Prod.mk.inj h
  cases role <;> cases role' <;> first | rfl | cases hrole

/-! ## A request with a response -/

section Answered

variable {T F : Type} {wholeSeconds : T → Int} {identity : RequestIdentity} {request : ChatRequest}
  {tr : List (ApiEvent T F)} {response : ChatResponse}

theorem runs_openConversation_ok {c conversationId : Int} {ref : Str} {prior : List Message}
    (h : Runs (openConversation c request) tr (.ok (conversationId, ref, prior))) :
    ∃ ev, tr = [ev] ∧ Opened c request ev conversationId ref prior := by
  unfold openConversation at h
  cases hr : request.conversationId with
  | some conversationRef =>
    simp only [hr] at h
    obtain ⟨x, rfl, hx⟩ := runs_ask_lift.mp h
    refine ⟨_, rfl, ?_⟩
    match x, hx with
    | .error _, hx => cases hx
    | .ok none, hx => cases hx
    | .ok (some (_, _)), hx =>
      cases hx
      exact .loaded hr
  | none =>
    simp only [hr] at h
    obtain ⟨x, rfl, hx⟩ := runs_ask_lift.mp h
    refine ⟨_, rfl, ?_⟩
    match x, hx with
    | .error _, hx => cases hx
    | .ok (_, _), hx =>
      cases hx
      exact .created hr

variable [PyFloat F]

/-- A request with a response has asked for its turn and stored its exchange; the rest of the response
is read off the turn. -/
theorem chat_answered (h : Runs (chat wholeSeconds identity request) tr (.ok response)) :
    ∃ rate c conversationId prior ev result,
      tr = [⟨.checkRate (rateKey identity.customerId), rate⟩, ev,
        ⟨.runTurn identity (prior ++ [⟨.user, request.message⟩]), .ok result⟩,
        ⟨.appendMessages c conversationId (exchange request response.answer), .ok ()⟩] ∧
      identity.customerId = some c ∧
      Opened c request ev conversationId response.conversationId prior ∧
      answerText result = .ok response.answer ∧
      chatResponse response.answer response.conversationId result = .ok response := by
  unfold chat at h
  obtain ⟨rate, tr, rfl, hrate⟩ := runs_ask.mp h
  clear h
  by_cases hallowed : (!rate.allowed) = true
  · rw [if_pos hallowed] at hrate
    cases (runs_raise.mp hrate).2
  · rw [if_neg hallowed] at hrate
    cases hc : identity.customerId with
    | none =>
      simp only [hc] at hrate
      cases (runs_raise.mp hrate).2
    | some c =>
      simp only [hc] at hrate
      obtain ⟨⟨conversationId, ref, prior⟩, t, tr₁, rfl, hopen, hturn⟩ := runs_bind_ok.mp hrate
      obtain ⟨ev, rfl, hopened⟩ := runs_openConversation_ok hopen
      obtain ⟨result, t, tr₂, rfl, hresult, hafter⟩ := runs_bind_ok.mp hturn
      obtain ⟨x, rfl, hx⟩ := runs_ask_lift.mp hresult
      obtain rfl := mapError_eq_ok.mp hx.symm
      obtain ⟨answer, t, tr₃, rfl, hanswer, hstore⟩ := runs_bind_ok.mp hafter
      obtain ⟨rfl, htext⟩ := runs_lift.mp hanswer
      obtain ⟨u, t, tr₄, rfl, happend, hlast⟩ := runs_bind_ok.mp hstore
      obtain ⟨y, rfl, hy⟩ := runs_ask_lift.mp happend
      obtain rfl := mapError_eq_ok.mp hy.symm
      obtain ⟨rfl, hmade⟩ := runs_lift.mp hlast
      have hresponse := mapError_eq_ok.mp hmade.symm
      obtain ⟨rfl, rfl⟩ : response.answer = answer ∧ response.conversationId = ref := by
        unfold chatResponse at hresponse
        cases hnames : (toolCallsMade result).mapM validStr with
        | error e =>
          rw [hnames] at hresponse
          cases hresponse
        | ok names =>
          rw [hnames] at hresponse
          cases hresponse
          exact ⟨rfl, rfl⟩
      exact ⟨rate, c, conversationId, prior, ev, result, rfl, rfl, hopened,
        mapError_eq_ok.mp htext.symm, hresponse⟩

end Answered

/-! ## The keys of the conversations -/

/-- A function stays injective with one more value. -/
theorem injOn_snoc {α β : Type} {f : α → β} {xs : List α} {x : α} (h : Set.InjOn f {y | y ∈ xs})
    (hx : ∀ y ∈ xs, f y ≠ f x) : Set.InjOn f {y | y ∈ xs ++ [x]} := by
  intro y hy y' hy' hf
  rcases List.mem_append.mp hy with hold | hnew <;> rcases List.mem_append.mp hy' with hold' | hnew'
  · exact h hold hold' hf
  · obtain rfl := List.mem_singleton.mp hnew'
    exact absurd hf (hx y hold)
  · obtain rfl := List.mem_singleton.mp hnew
    exact absurd hf.symm (hx y' hold')
  · rw [List.mem_singleton.mp hnew, List.mem_singleton.mp hnew']

/-- No two conversations have an id or a reference in common, and every message has its
conversation. -/
structure Keyed (db : Database) : Prop where
  ids : Set.InjOn Conversation.id {r | r ∈ db.conversations}
  refs : Set.InjOn Conversation.conversationRef {r | r ∈ db.conversations}
  parents : ∀ message ∈ db.conversationMessages,
    ∃ r ∈ db.conversations, r.id = message.conversationId

theorem Keyed.of_same {db db' : Database} (h : Keyed db) (hc : db'.conversations = db.conversations)
    (hm : db'.conversationMessages = db.conversationMessages) : Keyed db' where
  ids := by rw [hc]; exact h.ids
  refs := by rw [hc]; exact h.refs
  parents := by rw [hc, hm]; exact h.parents

/-- A conversation that the constraints allow has an id and a reference of its own. -/
theorem Keyed.insert {db : Database} (h : Keyed db) {row : Conversation}
    (hallows : db.allows (.conversation row) = true) :
    Keyed (db.insert (.conversation row)) := by
  have hfresh : ∀ r ∈ db.conversations, r.id ≠ row.id ∧ r.conversationRef ≠ row.conversationRef := by
    intro r hr
    simp only [Database.allows, Bool.and_eq_true, Bool.not_eq_true', List.any_eq_false,
      Bool.or_eq_true, decide_eq_true_eq, not_or] at hallows
    exact hallows.1.1 r hr
  refine ⟨injOn_snoc h.ids fun r hr => (hfresh r hr).1, injOn_snoc h.refs fun r hr => (hfresh r hr).2,
    fun message hmessage => ?_⟩
  obtain ⟨r, hr, hid⟩ := h.parents message hmessage
  exact ⟨r, List.mem_append_left _ hr, hid⟩

section Service

variable {T F : Type} {pg : Postgres} {faults : Bool} {store store' : ConversationStore}
  {ev : ApiEvent T F}

theorem ChatService.keyed (h : ChatService pg faults store ev store') (hk : Keyed store.db) :
    Keyed store'.db := by
  cases h with
  | @createConversation c hex now accepts =>
    rcases createConversation_cases pg store c hex now accepts with ⟨e, -, hs⟩ | ⟨-, hok, hs⟩
    · rw [hs]
      exact hk
    · rw [hs]
      exact hk.insert (createConversation_allowed pg store c hex now accepts hok)
  | runTurn x hsame => exact hk.of_same hsame.conversations hsame.messages
  | @appendMessages c conversationId messages now accepts =>
    rcases appendMessages_cases pg store c conversationId now accepts messages with
      ⟨e, last, -, hs, -⟩ | ⟨hok, hs⟩
    · rw [hs]
      exact hk
    · rw [hs]
      refine ⟨hk.ids, hk.refs, fun message hmessage => ?_⟩
      rcases List.mem_append.mp hmessage with hold | hnew
      · exact hk.parents message hold
      · cases messages with
        | nil => cases hnew
        | cons first rest =>
          obtain ⟨row, hrow, hid, -⟩ := appendMessages_owned hok
          exact ⟨row, hrow, hid.trans (messageRows_id hnew).2.2.symm⟩
  | _ => exact hk

end Service

/-! ## Runs from any state -/

section Run

variable {N T F : Type} [DecidableEq N] {pg : Postgres} {faults : Bool}
  {h : List (Event (N × ApiRequest) fun r => ApiAnswer T F r.2)}
  {sys₀ sys : System N ConversationStore ApiRequest (ApiAnswer T F) ApiError ChatResponse}

theorem run_recorded (h₀ : InOrder sys₀.store) (hr : SharedRun (ChatService pg faults) sys₀ h sys) :
    Recorded sys₀.store h sys.store := by
  refine hr.invariant (I := Recorded sys₀.store)
    ⟨h₀, fun conversationId => ?_, fun _ hev => by cases hev⟩
    fun h s n r x s' hs hserve => hs.step hserve
  exact (List.append_nil _).symm

theorem run_keyed (h₀ : Keyed sys₀.store.db) (hr : SharedRun (ChatService pg faults) sys₀ h sys) :
    Keyed sys.store.db :=
  hr.invariant (I := fun _ store => Keyed store.db) h₀ fun _ _ _ _ _ _ hk hserve => hserve.keyed hk

theorem run_conversations (hr : SharedRun (ChatService pg faults) sys₀ h sys) :
    ∀ row ∈ sys₀.store.db.conversations, row ∈ sys.store.db.conversations :=
  hr.invariant (I := fun _ store => ∀ row ∈ sys₀.store.db.conversations, row ∈ store.db.conversations)
    (fun _ hrow => hrow) fun _ _ _ _ _ _ hk hserve row hrow => hserve.conversations row (hk row hrow)

/-- What is loaded in a run is a whole history since its start. -/
theorem run_loads (h₀ : InOrder sys₀.store) (hr : SharedRun (ChatService pg faults) sys₀ h sys)
    {n : N} {c conversationId : Int} {ref : Str} {messages : List Message}
    (hev : (⟨.loadConversation c ref, .ok (some (conversationId, messages))⟩ : ApiEvent T F).tag n ∈
      h) :
    history sys₀.store.db conversationId <+: messages.map Message.columns ∧
      ∃ row ∈ sys.store.db.conversations, row.id = conversationId ∧ row.customerId = c ∧
        row.conversationRef = ref := by
  obtain ⟨h₁, h₂, rfl⟩ := List.append_of_mem hev
  obtain ⟨sys₁, sys₂, hr₁, hs, hr₂⟩ := hr.split
  cases hs with
  | mk hask hserve =>
    obtain ⟨rfl, hx | ⟨-, e, hx⟩⟩ := service_loadConversation hserve
    · obtain ⟨-, hmessages, row, hrow, hid⟩ := loadConversationOnce_ok hx.symm
      refine ⟨?_, row, run_conversations hr₂ row hrow, hid⟩
      rw [hmessages, (run_recorded h₀ hr₁).history]
      exact List.prefix_append _ _
    · cases hx

end Run

/-! ## The turns of the requests -/

section Turns

variable {T F : Type} [PyFloat F] {identity : RequestIdentity} {request : ChatRequest}
  {tr : List (ApiEvent T F)} {q : Handler T F ChatResponse}

/-- A turn is the request's own: on the conversation that it has opened, with its message last. -/
theorem ChatTrace.turn {i : RequestIdentity} {messages : List Message}
    {x : Except Raised (GraphState F)} (h : ChatTrace identity request tr q)
    (hturn : ⟨.runTurn i messages, x⟩ ∈ tr) :
    i = identity ∧ ∃ c ev conversationId ref prior, identity.customerId = some c ∧ ev ∈ tr ∧
      Opened c request ev conversationId ref prior ∧
      messages = prior ++ [⟨.user, request.message⟩] := by
  have hopen : ∀ {c conversationId ref prior ev}, Opened c request ev conversationId ref prior →
      (⟨.runTurn i messages, x⟩ : ApiEvent T F) ≠ ev :=
    fun hopened hev => hopened.ne_runTurn x hev.symm
  cases h with
  | rejected rate hc hnot =>
    simp only [List.mem_cons, List.not_mem_nil, or_false] at hturn
    rcases hturn with hm | rfl
    · cases hm
    · cases hnot
  | running rate hc hopened =>
    simp only [List.mem_cons, List.not_mem_nil, or_false] at hturn
    rcases hturn with hm | hm
    · cases hm
    · exact absurd hm (hopen hopened)
  | failed rate y e hc hopened =>
    simp only [List.mem_cons, List.not_mem_nil, or_false] at hturn
    rcases hturn with hm | hm | hm
    · cases hm
    · exact absurd hm (hopen hopened)
    · cases hm
      exact ⟨rfl, _, _, _, _, _, hc, by simp, hopened, rfl⟩
  | appending rate hc hopened htext =>
    simp only [List.mem_cons, List.not_mem_nil, or_false] at hturn
    rcases hturn with hm | hm | hm
    · cases hm
    · exact absurd hm (hopen hopened)
    · cases hm
      exact ⟨rfl, _, _, _, _, _, hc, by simp, hopened, rfl⟩
  | ended rate y hc hopened htext hret hasks =>
    simp only [List.mem_cons, List.not_mem_nil, or_false] at hturn
    rcases hturn with hm | hm | hm | hm
    · cases hm
    · exact absurd hm (hopen hopened)
    · cases hm
      exact ⟨rfl, _, _, _, _, _, hc, by simp, hopened, rfl⟩
    · cases hm
  | start => cases hturn
  | _ => cases List.mem_singleton.mp hturn

end Turns

section Sessions

variable {N T F : Type} [DecidableEq N] [PyFloat F] {pg : Postgres} {faults : Bool}
  {wholeSeconds : T → Int} {requests : N → RequestIdentity × ChatRequest}
  {store₀ : ConversationStore} {h h₁ h₂ : List (Event (N × ApiRequest) fun r => ApiAnswer T F r.2)}
  {sys sys₁ : System N ConversationStore ApiRequest (ApiAnswer T F) ApiError ChatResponse} {n m : N}

omit [DecidableEq N] [PyFloat F] in
theorem appendedTo_within {conversationId : Int} {messages : List Message}
    (hmem : (n, conversationId, messages) ∈ appends h) :
    messages.map Message.columns <:+: appendedTo conversationId h := by
  have hmem : (n, conversationId, messages) ∈
      (appends h).filter fun a => a.2.1 = conversationId := by
    simpa using hmem
  obtain ⟨before, rest, hsplit⟩ := List.append_of_mem hmem
  unfold appendedTo
  rw [hsplit, List.flatMap_append, List.flatMap_cons, ← List.append_assoc]
  exact ⟨_, _, rfl⟩

/-- A response names a conversation of its customer, whose history has the whole exchange. -/
theorem response_recorded {response : ChatResponse} (h₀ : InOrder store₀)
    (hr : SharedRun (ChatService pg faults) (chats wholeSeconds requests store₀) h sys)
    (hret : sys.client m = .ret response) :
    ∃ row ∈ sys.store.db.conversations, (requests m).1.customerId = some row.customerId ∧
      row.conversationRef = response.conversationId ∧
      (exchange (requests m).2 response.answer).map Message.columns <:+:
        history sys.store.db row.id := by
  have hleads := hr.leads m
  rw [hret] at hleads
  obtain ⟨rate, c, conversationId, prior, ev, result, htr, hc, hopened, -⟩ :=
    chat_answered hleads.returned
  have hmem : ∀ ev' ∈ Graph.traceOf m h, ev'.tag m ∈ h := fun _ => Graph.mem_traceOf.mp
  rw [htr] at hmem
  have hrecorded := run_recorded h₀ hr
  obtain ⟨-, -, row, hrow, hid, hcustomer, href⟩ := hrecorded.opened hopened (hmem ev (by simp))
  refine ⟨row, hrow, hcustomer ▸ hc, href, ?_⟩
  rw [hid, hrecorded.history]
  have happend := mem_appends.mpr ⟨c, hmem _ (List.mem_of_getLast? rfl)⟩
  exact (appendedTo_within happend).trans (List.suffix_append _ _).isInfix

/-- Read your writes: a turn on the conversation of a response, loaded after that response, has the
whole history that the response was given with, its exchange included, and is of the same customer. -/
theorem response_seen {response : ChatResponse} {identity : RequestIdentity}
    {messages : List Message} {x : Except Raised (GraphState F)} (h₀ : InOrder store₀)
    (hkeyed : Keyed store₀.db)
    (hr₁ : SharedRun (ChatService pg faults) (chats wholeSeconds requests store₀) h₁ sys₁)
    (hr₂ : SharedRun (ChatService pg faults) sys₁ h₂ sys) (hret : sys₁.client m = .ret response)
    (href : (requests n).2.conversationId = some response.conversationId)
    (hunread : ∀ c ref y, (⟨.loadConversation c ref, y⟩ : ApiEvent T F).tag n ∉ h₁)
    (hturn : (⟨.runTurn identity messages, x⟩ : ApiEvent T F).tag n ∈ h₁ ++ h₂) :
    identity = (requests n).1 ∧ identity.customerId = (requests m).1.customerId ∧
    ∃ row ∈ sys₁.store.db.conversations, row.conversationRef = response.conversationId ∧
      (exchange (requests m).2 response.answer).map Message.columns <:+:
        history sys₁.store.db row.id ∧
      ∃ prior, messages = prior ++ [⟨.user, (requests n).2.message⟩] ∧
        history sys₁.store.db row.id <+: prior.map Message.columns := by
  obtain ⟨row, hrow, hcustomer, hrowRef, hexchange⟩ := response_recorded h₀ hr₁ hret
  obtain ⟨rfl, c, ev, conversationId, ref, prior, hc, hev, hopened, rfl⟩ :=
    (chats_trace (hr₁.append hr₂) n).turn (Graph.mem_traceOf.mpr hturn)
  have hev := Graph.mem_traceOf.mp hev
  cases hopened with
  | created hnone => rw [hnone] at href; cases href
  | loaded hloaded =>
    obtain rfl := Option.some.inj (hloaded.symm.trans href)
    have hload := (List.mem_append.mp hev).resolve_left (hunread _ _ _)
    obtain ⟨hpre, row', hrow', hid, hcustomer', href'⟩ :=
      run_loads (run_recorded h₀ hr₁).order hr₂ hload
    -- the reference is of one conversation only
    obtain rfl : row = row' := (run_keyed (run_keyed hkeyed hr₁) hr₂).refs
      (run_conversations hr₂ row hrow) hrow' (hrowRef.trans href'.symm)
    refine ⟨rfl, ?_, row, hrow, hrowRef, hexchange, prior, rfl, hid ▸ hpre⟩
    rw [hc, hcustomer, hcustomer']

/-- Where a message of a turn of the request `n` can come from, after the events `h`: it is the
request's own, or was in the database for its customer, or is of an exchange that a request of its
customer has stored. -/
inductive Source (requests : N → RequestIdentity × ChatRequest) (store₀ : ConversationStore)
    (h : List (Event (N × ApiRequest) fun r => ApiAnswer T F r.2)) (n : N) : Message → Prop
  | own : Source requests store₀ h n ⟨.user, (requests n).2.message⟩
  | stored {row : Conversation} {message : Message} : row ∈ store₀.db.conversations →
      (requests n).1.customerId = some row.customerId →
      message.columns ∈ history store₀.db row.id → Source requests store₀ h n message
  | exchanged {m : N} {conversationId : Int} {prior : List Message} {result : GraphState F}
      {answer : Str} {message : Message} : (requests m).1.customerId = (requests n).1.customerId →
      (⟨.runTurn (requests m).1 prior, .ok result⟩ : ApiEvent T F).tag m ∈ h →
      answerText result = .ok answer →
      (m, conversationId, exchange (requests m).2 answer) ∈ appends h →
      message ∈ exchange (requests m).2 answer → Source requests store₀ h n message

/-- The messages of a turn are of its customer: none can come from a request of another one, or from
what the database has of another one. -/
theorem prompt_provenance {identity : RequestIdentity} {messages : List Message}
    {x : Except Raised (GraphState F)} (h₀ : InOrder store₀) (hkeyed : Keyed store₀.db)
    (hr : SharedRun (ChatService pg faults) (chats wholeSeconds requests store₀)
      (h₁ ++ (⟨.runTurn identity messages, x⟩ : ApiEvent T F).tag n :: h₂) sys) :
    identity = (requests n).1 ∧ (∃ c, identity.customerId = some c) ∧
      ∀ message ∈ messages, Source requests store₀ h₁ n message := by
  obtain ⟨sys₁, sys₂, hr₁, hs, -⟩ := hr.split
  have hasked : (⟨.runTurn identity messages, x⟩ : ApiEvent T F) ∈ Graph.traceOf n (h₁ ++ [_]) :=
    Graph.mem_traceOf.mpr (List.mem_append_right h₁ List.mem_cons_self)
  obtain ⟨rfl, c, ev, conversationId, ref, prior, hc, hev, hopened, rfl⟩ :=
    (chats_trace (hr₁.step hs) n).turn hasked
  refine ⟨rfl, ⟨c, hc⟩, fun message hmessage => ?_⟩
  rcases List.mem_append.mp hmessage with hprior | hown
  · have hopenedBefore : ev ∈ Graph.traceOf n h₁ := by
      rw [Graph.traceOf_snoc] at hev
      exact (List.mem_append.mp hev).resolve_right fun hlast =>
        hopened.ne_runTurn x (List.mem_singleton.mp hlast)
    have hev := Graph.mem_traceOf.mp hopenedBefore
    have hrecorded := run_recorded h₀ hr₁
    obtain ⟨-, hpre, row, hrow, rfl, rfl, -⟩ := hrecorded.opened hopened hev
    have hmem := hpre.subset (List.mem_map_of_mem hprior)
    rw [hrecorded.history, List.mem_append] at hmem
    rcases hmem with hold | hnew
    · -- the conversation was there at first, since its messages were
      obtain ⟨stored, hstored, -⟩ := List.mem_map.mp hold
      have hstored := List.mem_filter.mp ((List.mergeSort_perm _ _).mem_iff.mp hstored)
      obtain ⟨row₀, hrow₀, hid⟩ := hkeyed.parents stored hstored.1
      have hid : row₀.id = row.id := hid.trans (of_decide_eq_true hstored.2)
      obtain rfl := (run_keyed hkeyed hr₁).ids (run_conversations hr₁ row₀ hrow₀) hrow hid
      exact .stored hrow₀ hc hold
    · obtain ⟨⟨m, conversationId, stored⟩, happend, hcolumns⟩ := List.mem_flatMap.mp hnew
      obtain ⟨happend, hid⟩ := List.mem_filter.mp happend
      obtain rfl := of_decide_eq_true hid
      obtain ⟨message', hmem, hsame⟩ := List.mem_map.mp hcolumns
      obtain rfl := columns_injective hsame
      obtain ⟨c', hev'⟩ := mem_appends.mp happend
      obtain ⟨⟨prior', result, answer, hturn, htext, rfl⟩, -⟩ :=
        (chats_trace hr₁ m).appended (Graph.mem_traceOf.mpr hev')
      refine .exchanged ?_ (Graph.mem_traceOf.mp hturn) htext happend hmem
      -- the conversation that it was appended to is the customer's
      obtain ⟨before, after, rfl⟩ := List.append_of_mem hev'
      obtain ⟨sys₃, sys₄, hr₃, hs₃, hr₄⟩ := hr₁.split
      obtain ⟨hc', ⟨-, -, -, -, -, -, row', hrow', hid', hcustomer', -⟩, -⟩ :=
        chats_appending h₀ hr₃ hs₃
      have hrow' := run_conversations hr₄ row' (run_conversations (.step .start hs₃) row' hrow')
      obtain rfl := (run_keyed hkeyed hr₁).ids hrow' hrow hid'
      rw [hc', hc, hcustomer']
  · rw [List.mem_singleton.mp hown]
    exact .own

end Sessions

/-! ## Two requests, one after the other -/

/-- The store when the first request has its response. -/
def talkAnswered : ConversationStore :=
  (appendMessages asciiPostgres talkStore 7 1 (exchange (talkRequests true).2 "First") 0
    fun _ => true).1

theorem talkAnswered_loads : loadConversationOnce asciiPostgres 7 talkAnswered.db "conv-1" =
    .ok (some (1, exchange (talkRequests true).2 "First")) := by
  have hsorted : talkAnswered.db.conversationMessages.Pairwise fun r r' => r.id < r'.id :=
    messageRows_sorted 0 (exchange (talkRequests true).2 "First")
  have howned : (owned talkAnswered.db 7 "conv-1").head? = some talk := by decide
  rw [loadConversationOnce_eq (by decide), if_pos (by decide), howned]
  simp only [show talk.id = 1 from rfl, history_eq hsorted]
  rfl

/-- One request has its response before the other one begins. -/
theorem talk_first : ∃ (h₁ : List (Event (Bool × ApiRequest) fun r => ApiAnswer Int FloatText r.2))
    (sys₁ : System Bool ConversationStore ApiRequest (ApiAnswer Int FloatText) ApiError ChatResponse),
    SharedRun (ChatService asciiPostgres false) (chats id talkRequests talkStore) h₁ sys₁ ∧
    sys₁.store = talkAnswered ∧ sys₁.client true = .ret ⟨"First", false, [], [], "conv-1"⟩ ∧
    sys₁.client false = chat id (talkRequests false).1 (talkRequests false).2 ∧
    ∀ c ref y, (⟨.loadConversation c ref, y⟩ : ApiEvent Int FloatText).tag false ∉ h₁ := by
  have hload : ChatService asciiPostgres false talkStore (⟨.loadConversation 7 "conv-1",
      .ok (some (1, []))⟩ : ApiEvent Int FloatText) talkStore := talk_loads ▸ .loadConversation
  have hall : false = false → ∀ row : Row, (fun _ => true : Row → Bool) row = true := fun _ _ => rfl
  have h₀ : SharedRun (ChatService (T := Int) (F := FloatText) asciiPostgres false)
      (chats id talkRequests talkStore) [] (chats id talkRequests talkStore) := .start
  have h₁ := h₀.ask (n := true) rfl (.checkRate ⟨true, 0⟩)
  have h₂ := h₁.ask (n := true) rfl hload
  have h₃ := h₂.ask (n := true) rfl (.runTurn (.ok (talkResult true [])) ⟨rfl, rfl, rfl, rfl⟩)
  exact ⟨_, _, h₃.ask (n := true) rfl (.appendMessages 0 hall), rfl, rfl, rfl, by simp [Event.tag]⟩

/-- The other one then loads their conversation. -/
theorem talk_second {sys₁ : System Bool ConversationStore ApiRequest (ApiAnswer Int FloatText) ApiError
    ChatResponse} (hstore : sys₁.store = talkAnswered)
    (hclient : sys₁.client false = chat id (talkRequests false).1 (talkRequests false).2) :
    ∃ h₂ sys, SharedRun (ChatService asciiPostgres false) sys₁ (h₂ ++
      [(⟨.runTurn (talkRequests false).1 (exchange (talkRequests true).2 "First" ++
        [⟨.user, (talkRequests false).2.message⟩]), .ok (talkResult false [])⟩ :
          ApiEvent Int FloatText).tag false]) sys := by
  obtain ⟨store, client⟩ := sys₁
  obtain rfl : store = talkAnswered := hstore
  have hload : ChatService asciiPostgres false talkAnswered (⟨.loadConversation 7 "conv-1",
      .ok (some (1, exchange (talkRequests true).2 "First"))⟩ : ApiEvent Int FloatText) talkAnswered :=
    talkAnswered_loads ▸ .loadConversation
  have h₀ : SharedRun (ChatService (T := Int) (F := FloatText) asciiPostgres false)
      ⟨talkAnswered, client⟩ [] ⟨talkAnswered, client⟩ := .start
  have h₁ := h₀.ask (n := false) hclient (.checkRate ⟨true, 0⟩)
  have h₂ := h₁.ask (n := false) rfl hload
  exact ⟨_, _, h₂.ask (n := false) rfl
    (.runTurn (.ok (talkResult false [])) ⟨rfl, rfl, rfl, rfl⟩)⟩

theorem talk_keyed : InOrder talkStore ∧ Keyed talkStore.db := by
  refine ⟨⟨.nil, fun r hr => by cases hr⟩, ⟨?_, ?_, fun message hmessage => by cases hmessage⟩⟩
  · intro r hr r' hr' _
    rw [List.mem_singleton.mp hr, List.mem_singleton.mp hr']
  · intro r hr r' hr' _
    rw [List.mem_singleton.mp hr, List.mem_singleton.mp hr']

/-- The turn of the second request has the exchange of the first one. -/
theorem talk_response_seen : ∃ (h : List (Event (Bool × ApiRequest) fun r => ApiAnswer Int FloatText r.2))
    (sys : System Bool ConversationStore ApiRequest (ApiAnswer Int FloatText) ApiError ChatResponse)
    (prior : List Message),
    SharedRun (ChatService asciiPostgres false) (chats id talkRequests talkStore) h sys ∧
    (⟨.runTurn (talkRequests false).1 (prior ++ [⟨.user, (talkRequests false).2.message⟩]),
      .ok (talkResult false [])⟩ : ApiEvent Int FloatText).tag false ∈ h ∧
    (exchange (talkRequests true).2 "First").map Message.columns <:+: prior.map Message.columns := by
  obtain ⟨h₁, sys₁, hr₁, hstore, hret, hclient, hunread⟩ := talk_first
  obtain ⟨h₂, sys, hr₂⟩ := talk_second hstore hclient
  obtain ⟨-, -, row, -, -, hexchange, prior, hprior, hpre⟩ :=
    response_seen talk_keyed.1 talk_keyed.2 hr₁ hr₂ hret rfl hunread
      (List.mem_append_right h₁ (List.mem_append_right h₂ List.mem_cons_self))
  refine ⟨_, sys, prior, hr₁.append hr₂, ?_, hexchange.trans hpre.isInfix⟩
  rw [← hprior]
  exact List.mem_append_right h₁ (List.mem_append_right h₂ List.mem_cons_self)

/-- Its messages are of customer 7. -/
theorem talk_prompt_provenance :
    ∃ h : List (Event (Bool × ApiRequest) fun r => ApiAnswer Int FloatText r.2),
    ∀ message ∈ exchange (talkRequests true).2 "First" ++ [⟨.user, (talkRequests false).2.message⟩],
      Source talkRequests talkStore h false message := by
  obtain ⟨h₁, sys₁, hr₁, hstore, -, hclient, -⟩ := talk_first
  obtain ⟨h₂, sys, hr₂⟩ := talk_second hstore hclient
  have hr := hr₁.append hr₂
  rw [← List.append_assoc] at hr
  exact ⟨_, (prompt_provenance talk_keyed.1 talk_keyed.2 hr).2.2⟩

end DealershipAgent
