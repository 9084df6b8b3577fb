import DealershipAgent.Api.Sessions

/-!
# Admission of the requests

Any number of requests, with the one rate limiter of the process between them and the database.

* `LimitedService`: what they are answered when the limiter goes by the clock. `LimitedService.chat`:
  it is a service of `Chat`, so that what holds of all runs there holds here.
* `limited_admits`: the limiter accounts for the requests that it has admitted in a run.
* `CheckedAt`: the same service, as long as the limiter's readings meet a condition.
* `served_bounded`: how many of the requests that are checked within one window length are ever served.
-/

namespace DealershipAgent

open Py Json Interact RowSecurity Quota

/-- It is a check of the limiter. -/
def ApiRequest.isCheck : ApiRequest → Bool
  | .checkRate _ => true
  | _ => false

section Service

variable {N T F : Type} [LinearOrder T] [Zero T] [Sub T]

/-- What `Settings` say of the limiter, and its window. -/
structure Limits (T : Type) where
  perKeyLimit : Int
  globalLimit : Int
  windowSeconds : T

/-- The database, the limiter once there is one, and the last reading of the clock. -/
structure ProcessState (T : Type) where
  conversations : ConversationStore
  limiter : Option (RateLimiter T) := none
  clock : T

/-- `get_rate_limiter`: the first request makes it, at the reading `made`. -/
def getRateLimiter (limits : Limits T) (made : T) (limiter : Option (RateLimiter T)) : RateLimiter T :=
  limiter.getD (.new limits.perKeyLimit limits.globalLimit limits.windowSeconds made)

/-- What a request is answered, and the state after it. -/
inductive LimitedService (pg : Postgres) (faults : Bool) (limits : Limits T) :
    ProcessState T → ApiEvent T F → ProcessState T → Prop
  | checkRate {state : ProcessState T} {key : Str} (made now : T) : state.clock ≤ made → made ≤ now →
      LimitedService pg faults limits state
        ⟨.checkRate key, ((getRateLimiter limits made state.limiter).check now key).1⟩
        { state with
          limiter := some ((getRateLimiter limits made state.limiter).check now key).2, clock := now }
  | database {state : ProcessState T} {ev : ApiEvent T F} {store : ConversationStore} :
      ev.req.isCheck = false → ChatService pg faults state.conversations ev store →
      LimitedService pg faults limits state ev { state with conversations := store }

/-- The requests are answered so, and each check reads the clock where `P` says. -/
def CheckedAt (pg : Postgres) (faults : Bool) (limits : Limits T) (P : T → Prop)
    (state : ProcessState T) (ev : ApiEvent T F) (state' : ProcessState T) : Prop :=
  LimitedService pg faults limits state ev state' ∧ (ev.req.isCheck = true → P state'.clock)

variable {pg : Postgres} {faults : Bool} {limits : Limits T} {state state' : ProcessState T}
  {ev : ApiEvent T F}

theorem LimitedService.chat (h : LimitedService pg faults limits state ev state') :
    ChatService pg faults state.conversations ev state'.conversations := by
  cases h with
  | checkRate made now hmade hnow => exact .checkRate _
  | database _ hserve => exact hserve

/-! ## Who was admitted -/

/-- The request that a check admits, and its key. -/
def admission : Event (N × ApiRequest) (fun r => ApiAnswer T F r.2) → Option (N × Str)
  | ⟨(n, .checkRate key), result⟩ => if RateLimitResult.allowed result then some (n, key) else none
  | _ => none

def admissions (h : List (Event (N × ApiRequest) fun r => ApiAnswer T F r.2)) : List (N × Str) :=
  h.filterMap admission

/-- The limiter accounts for the checks that it has allowed. -/
def Admits (limits : Limits T) (state : ProcessState T) (allowed : List (Check T)) : Prop :=
  match state.limiter with
  | none => allowed = []
  | some limiter => limiter.perKeyLimit = limits.perKeyLimit ∧
      limiter.globalLimit = limits.globalLimit ∧ limiter.windowSeconds = limits.windowSeconds ∧
      Accounted limiter state.clock allowed

variable {allowed : List (Check T)}

/-- The limiter of a check, with the limits of the settings. -/
theorem Admits.limiter [Clock T] (h : Admits limits state allowed) (hg : 0 ≤ limits.globalLimit) {made : T}
    (hmade : state.clock ≤ made) :
    ∃ last, last ≤ made ∧
      (getRateLimiter limits made state.limiter).perKeyLimit = limits.perKeyLimit ∧
      (getRateLimiter limits made state.limiter).globalLimit = limits.globalLimit ∧
      (getRateLimiter limits made state.limiter).windowSeconds = limits.windowSeconds ∧
      Accounted (getRateLimiter limits made state.limiter) last allowed := by
  unfold Admits at h
  unfold getRateLimiter
  cases hl : state.limiter with
  | none =>
    rw [hl] at h
    subst h
    exact ⟨made, le_refl _, rfl, rfl, rfl, new_accounted _ _ _ hg⟩
  | some limiter =>
    rw [hl] at h
    exact ⟨state.clock, hmade, h⟩

/-- What a request adds to the accounts. -/
theorem LimitedService.admits [Clock T] (h : LimitedService pg faults limits state ev state')
    (hk : 0 ≤ limits.perKeyLimit) (hg : 0 ≤ limits.globalLimit) (hw : 0 < limits.windowSeconds)
    (hadmits : Admits limits state allowed) (n : N) : ∃ more : List (Check T),
      Admits limits state' (allowed ++ more) ∧
      (∀ call ∈ more, ev.req.isCheck = true ∧ call.1 = state'.clock) ∧
      (admissions [ev.tag n]).map Prod.snd = more.map Prod.snd := by
  cases h with
  | @checkRate key made now hmade hnow =>
    obtain ⟨last, hlast, hk', hg', hw', haccounted⟩ := hadmits.limiter hg hmade
    obtain ⟨hk'', hg'', hw''⟩ := check_limits (getRateLimiter limits made state.limiter) now key
    refine ⟨_, ⟨hk''.trans hk', hg''.trans hg', hw''.trans hw', check_accounted haccounted
      (hk'.symm ▸ hk) (hg'.symm ▸ hg) (hw'.symm ▸ hw) (hlast.trans hnow)⟩, ?_, ?_⟩
    · intro call hcall
      split at hcall
      · obtain rfl := List.mem_singleton.mp hcall
        exact ⟨rfl, rfl⟩
      · cases hcall
    · by_cases hallowed :
        ((getRateLimiter limits made state.limiter).check now key).1.allowed = true <;>
        simp [admissions, admission, Event.tag, hallowed]
  | database hne hserve =>
    refine ⟨[], by rwa [List.append_nil], fun call hcall => ?_, ?_⟩
    · cases hcall
    obtain ⟨r, x⟩ := ev
    cases r with
    | checkRate key => cases hne
    | _ => rfl

omit [Zero T] in
/-- An interval of one window length has at most twice a limit of what was allowed. -/
theorem Admits.bounded {more : List (Check T)} (h : Admits limits state (allowed ++ more))
    (hk : 0 ≤ limits.perKeyLimit) (hg : 0 ≤ limits.globalLimit) {t : T}
    (hmore : ∀ call ∈ more, InInterval limits.windowSeconds t call.1) :
    (more.length : Int) ≤ 2 * limits.globalLimit ∧
      ∀ key, ((more.map Prod.snd).count key : Int) ≤ 2 * limits.perKeyLimit := by
  unfold Admits at h
  cases hl : state.limiter with
  | none =>
    rw [hl] at h
    obtain ⟨-, rfl⟩ := List.append_eq_nil_iff.mp h
    simp only [List.length_nil, List.map_nil, List.count_nil]
    exact ⟨by omega, fun key => by omega⟩
  | some limiter =>
    rw [hl] at h
    obtain ⟨hkey, hglobal, hwindow, haccounted⟩ := h
    rw [← hwindow] at hmore
    constructor
    · have hinterval := haccounted.global.interval t
      rw [List.map_append, List.countP_append, hglobal] at hinterval
      have hall : (more.map Prod.fst).countP (fun r => decide (InInterval limiter.windowSeconds t r)) =
          more.length := by
        rw [← show (more.map Prod.fst).length = more.length from List.length_map _,
          List.countP_eq_length]
        intro r hr
        obtain ⟨call, hcall, rfl⟩ := List.mem_map.mp hr
        simpa using hmore call hcall
      omega
    · intro key
      have hcount : (more.map Prod.snd).count key = (readingsOf key more).length := by
        rw [readingsOf, List.length_map, ← List.countP_eq_length_filter, List.count, List.countP_map]
        refine List.countP_congr fun call _ => ?_
        simp
      have hsplit : readingsOf key (allowed ++ more) =
          readingsOf key allowed ++ readingsOf key more := by
        simp [readingsOf]
      have hall : (readingsOf key more).countP
          (fun r => decide (InInterval limiter.windowSeconds t r)) = (readingsOf key more).length := by
        rw [List.countP_eq_length]
        intro r hr
        simpa using hmore _ (mem_readingsOf hr)
      cases hw : limiter.perKeyWindows key with
      | none =>
        have hnone := haccounted.absent key hw
        rw [hsplit] at hnone
        rw [hcount, (List.append_eq_nil_iff.mp hnone).2, List.length_nil]
        omega
      | some counter =>
        have hinterval := (haccounted.keyed key counter hw).1.interval t
        rw [hsplit, List.countP_append, hkey] at hinterval
        omega

end Service

/-! ## A request at the limiter -/

section Handler

variable {T F : Type} [PyFloat F] {wholeSeconds : T → Int} {identity : RequestIdentity}
  {request : ChatRequest} {tr : List (ApiEvent T F)} {q : Handler T F ChatResponse}

@[simp] theorem isCheck_runTurn (identity : RequestIdentity) (messages : List Message) :
    (ApiRequest.runTurn identity messages).isCheck = false := rfl

@[simp] theorem isCheck_appendMessages (c conversationId : Int) (messages : List Message) :
    (ApiRequest.appendMessages c conversationId messages).isCheck = false := rfl

variable {c conversationId : Int} {ref : Str} {prior : List Message} {ev : ApiEvent T F} {e : ApiError}

omit [PyFloat F] in
theorem Opened.isCheck (h : Opened c request ev conversationId ref prior) :
    ev.req.isCheck = false := by
  cases h <;> rfl

omit [PyFloat F] in
theorem NotOpened.isCheck (h : NotOpened c request ev e) : ev.req.isCheck = false := by
  cases h <;> rfl

/-- A request is checked once. -/
theorem ChatTrace.checked (h : ChatTrace identity request tr q) :
    ∀ ev ∈ tr.tail, ev.req.isCheck = false := by
  cases h with
  | rejected rate hc hno => simp [hno.isCheck]
  | running rate hc hopened => simp [hopened.isCheck]
  | failed rate x e hc hopened => simp [hopened.isCheck]
  | appending rate hc hopened htext => simp [hopened.isCheck]
  | ended rate x hc hopened htext hret hasks => simp [hopened.isCheck]
  | _ => simp

/-- A request that is served has been admitted by its only check. -/
theorem chat_admitted (h : Leads (chat wholeSeconds identity request) tr q) {key : Str}
    {result : RateLimitResult T} (hcheck : ⟨.checkRate key, result⟩ ∈ tr) (hev : ev ∈ tr)
    (hserved : ev.req.isCheck = false) :
    key = rateKey identity.customerId ∧ result.allowed = true := by
  have hchecked := (leads_chat h).checked
  unfold chat at h
  rcases leads_ask h with ⟨rfl, -⟩ | ⟨rate, tr', rfl, hrest⟩
  · cases hcheck
  · rcases List.mem_cons.mp hcheck with heq | hin
    · cases heq
      refine ⟨rfl, ?_⟩
      by_contra hno
      rw [if_pos (by simpa using hno)] at hrest
      obtain ⟨rfl, -⟩ := leads_raise hrest
      obtain rfl := List.mem_singleton.mp hev
      cases hserved
    · cases hchecked _ hin

end Handler

/-! ## Runs -/

section Runs

variable {N T F : Type} [DecidableEq N] [LinearOrder T] [Zero T] [Sub T] [Clock T] {pg : Postgres}
  {faults : Bool} {limits : Limits T}
  {h h₁ h₂ : List (Event (N × ApiRequest) fun r => ApiAnswer T F r.2)}
  {sys₀ sys sys₁ : System N (ProcessState T) ApiRequest (ApiAnswer T F) ApiError ChatResponse}

/-- What the requests of a run add to the accounts. -/
theorem limited_admits (hk : 0 ≤ limits.perKeyLimit) (hg : 0 ≤ limits.globalLimit)
    (hw : 0 < limits.windowSeconds) {allowed : List (Check T)} {P : T → Prop}
    (h₀ : Admits limits sys₀.store allowed)
    (hr : SharedRun (CheckedAt pg faults limits P) sys₀ h sys) : ∃ more : List (Check T),
      Admits limits sys.store (allowed ++ more) ∧ (∀ call ∈ more, P call.1) ∧
      (admissions h).map Prod.snd = more.map Prod.snd := by
  induction hr with
  | start => exact ⟨[], by rwa [List.append_nil], nofun, rfl⟩
  | @step h sys sys' ev _ hs ih =>
    obtain ⟨more, hadmits, htimes, hkeys⟩ := ih
    cases hs with
    | @mk n r k x store hask hserve =>
      obtain ⟨new, hadmits', htimes', hkeys'⟩ := hserve.1.admits hk hg hw hadmits n
      refine ⟨more ++ new, by rwa [← List.append_assoc], fun call hcall => ?_, ?_⟩
      · rcases List.mem_append.mp hcall with hold | hnew
        · exact htimes call hold
        · obtain ⟨hcheck, hreading⟩ := htimes' call hnew
          rw [hreading]
          exact hserve.2 hcheck
      · rw [admissions, List.filterMap_append, List.map_append, List.map_append, ← hkeys, ← hkeys']
        rfl

omit [Clock T] in
/-- At any readings. -/
theorem limited_checked (hr : SharedRun (LimitedService pg faults limits) sys₀ h sys) :
    SharedRun (CheckedAt pg faults limits fun _ => True) sys₀ h sys :=
  hr.mapStore (f := id) fun _ _ _ hserve => ⟨hserve, fun _ => trivial⟩

omit [Clock T] in
theorem checked_limited {P : T → Prop} (hr : SharedRun (CheckedAt pg faults limits P) sys₀ h sys) :
    SharedRun (LimitedService pg faults limits) sys₀ h sys :=
  hr.mapStore (f := id) fun _ _ _ hserve => hserve.1

omit [Clock T] in
/-- What the requests have done to the database, they could have done without the limiter's state. -/
theorem limited_chat (hr : SharedRun (LimitedService pg faults limits) sys₀ h sys) :
    SharedRun (ChatService pg faults) (sys₀.mapStore ProcessState.conversations) h
      (sys.mapStore ProcessState.conversations) :=
  hr.mapStore fun _ _ _ hserve => hserve.chat

variable [PyFloat F] {h₃ : List (Event (N × ApiRequest) fun r => ApiAnswer T F r.2)}
  {sys₂ : System N (ProcessState T) ApiRequest (ApiAnswer T F) ApiError ChatResponse}
  {wholeSeconds : T → Int} {requests : N → RequestIdentity × ChatRequest} {state₀ : ProcessState T}

omit [Clock T] in
/-- A request with a response was admitted, and its exchange is in the history of a conversation of its
customer. -/
theorem limited_response {n : N} {response : ChatResponse} (h₀ : InOrder state₀.conversations)
    (hr : SharedRun (LimitedService pg faults limits)
      ⟨state₀, fun n => chat wholeSeconds (requests n).1 (requests n).2⟩ h sys)
    (hret : sys.client n = .ret response) :
    (n, rateKey (requests n).1.customerId) ∈ admissions h ∧
    ∃ row ∈ sys.store.conversations.db.conversations,
      (requests n).1.customerId = some row.customerId ∧ row.conversationRef = response.conversationId ∧
      (exchange (requests n).2 response.answer).map Message.columns <:+:
        history sys.store.conversations.db row.id := by
  refine ⟨?_, response_recorded h₀ (limited_chat hr) hret⟩
  have hleads := hr.leads n
  rw [hret] at hleads
  obtain ⟨rate, c, conversationId, prior, ev, result, htrace, -⟩ := chat_answered hleads.returned
  have hcheck : (⟨.checkRate (rateKey (requests n).1.customerId), rate⟩ : ApiEvent T F) ∈
      Graph.traceOf n h := by rw [htrace]; exact List.mem_cons_self
  have hturn : (⟨.runTurn (requests n).1 (prior ++ [⟨.user, (requests n).2.message⟩]), .ok result⟩ :
      ApiEvent T F) ∈ Graph.traceOf n h := by rw [htrace]; simp
  obtain ⟨-, hok⟩ := chat_admitted hleads hcheck hturn rfl
  exact List.mem_filterMap.mpr ⟨_, Graph.mem_traceOf.mp hcheck, if_pos hok⟩

/-- Of the requests that are checked at readings within one window length, at most twice the global limit
are ever served, and of one customer's at most twice the limit of a key. -/
theorem served_bounded (hk : 0 ≤ limits.perKeyLimit) (hg : 0 ≤ limits.globalLimit)
    (hw : 0 < limits.windowSeconds) (hfresh : state₀.limiter = none)
    (hr₁ : SharedRun (LimitedService pg faults limits)
      ⟨state₀, fun n => chat wholeSeconds (requests n).1 (requests n).2⟩ h₁ sys₁)
    {t : T} (hr₂ : SharedRun (CheckedAt pg faults limits (InInterval limits.windowSeconds t)) sys₁ h₂ sys₂)
    (hr₃ : SharedRun (LimitedService pg faults limits) sys₂ h₃ sys) {ns : List N} (hns : ns.Nodup)
    (hchecked : ∀ n ∈ ns, ∃ key result,
      (⟨.checkRate key, result⟩ : ApiEvent T F).tag n ∈ h₂)
    (hserved : ∀ n ∈ ns, ∃ ev : ApiEvent T F, ev.tag n ∈ h₁ ++ h₂ ++ h₃ ∧
      ev.req.isCheck = false) :
    (ns.length : Int) ≤ 2 * limits.globalLimit ∧
      ∀ c, (∀ n ∈ ns, (requests n).1.customerId = c) → (ns.length : Int) ≤ 2 * limits.perKeyLimit := by
  have h₀ : Admits limits state₀ [] := by
    unfold Admits
    rw [hfresh]
  obtain ⟨allowed, hallowed, -, -⟩ := limited_admits hk hg hw h₀ (limited_checked hr₁)
  rw [List.nil_append] at hallowed
  obtain ⟨more, hmore, htimes, hkeys⟩ := limited_admits hk hg hw hallowed hr₂
  have hbounded := hmore.bounded hk hg htimes
  rw [← hkeys] at hbounded
  have hadmitted : ∀ n ∈ ns, (n, rateKey (requests n).1.customerId) ∈ admissions h₂ := by
    intro n hn
    obtain ⟨key, result, hcheck⟩ := hchecked n hn
    obtain ⟨ev, hev, hne⟩ := hserved n hn
    have hleads := ((hr₁.append (checked_limited hr₂)).append hr₃).leads n
    obtain ⟨rfl, hok⟩ := chat_admitted hleads (Graph.mem_traceOf.mpr
      (List.mem_append_left _ (List.mem_append_right _ hcheck))) (Graph.mem_traceOf.mpr hev) hne
    exact List.mem_filterMap.mpr ⟨_, hcheck, if_pos hok⟩
  have hsub : List.Subperm (ns.map fun n => (n, rateKey (requests n).1.customerId))
      (admissions h₂) := by
    have hinj : Function.Injective fun n => (n, rateKey (requests n).1.customerId) :=
      fun n n' heq => congrArg Prod.fst heq
    refine List.subperm_of_subset (hns.map hinj) fun a ha => ?_
    obtain ⟨n, hn, rfl⟩ := List.mem_map.mp ha
    exact hadmitted n hn
  have hlength : (admissions h₂).length = more.length := by
    have hmaps := congrArg List.length hkeys
    simpa using hmaps
  refine ⟨?_, fun c hc => ?_⟩
  · have hle := hsub.length_le
    rw [List.length_map, hlength] at hle
    have := hbounded.1
    omega
  · obtain ⟨admitted, hperm, hadmissions⟩ := hsub
    have hle := (hadmissions.map Prod.snd).count_le (rateKey c)
    have hkeyed : ∀ key ∈ admitted.map Prod.snd, rateKey c = key := by
      intro key hkey
      obtain ⟨a, ha, rfl⟩ := List.mem_map.mp hkey
      obtain ⟨n, hn, rfl⟩ := List.mem_map.mp (hperm.mem_iff.mp ha)
      simp [hc n hn]
    rw [List.count_eq_length.mpr hkeyed, List.length_map, hperm.length_eq, List.length_map] at hle
    have := hbounded.2 (rateKey c)
    omega

end Runs

/-! ## Two requests a minute -/

def minuteLimits : Limits Int := ⟨2, 2, 60⟩

/-- Four requests of one customer, at a process that was idle. -/
def minuteTalk : System (Fin 4) (ProcessState Int) ApiRequest (ApiAnswer Int FloatText) ApiError
    ChatResponse where
  store := ⟨talkStore, none, 0⟩
  client _ := chat id (talkRequests true).1 (talkRequests true).2

/-- The first request comes at 1000, the others at 1050, 1055 and 1060. The third one is rejected, the
fourth one is in a new window: two of these three are served. -/
theorem talk_served : ([1, 3] : List (Fin 4)).length ≤ 2 * minuteLimits.globalLimit ∧
    ∀ c, (∀ n ∈ ([1, 3] : List (Fin 4)), (talkRequests true).1.customerId = c) →
      (([1, 3] : List (Fin 4)).length : Int) ≤ 2 * minuteLimits.perKeyLimit := by
  have hload : ChatService asciiPostgres false talkStore (⟨.loadConversation 7 "conv-1",
      .ok (some (1, []))⟩ : ApiEvent Int FloatText) talkStore := talk_loads ▸ .loadConversation
  have hwithin : ∀ {h} {sys : System (Fin 4) (ProcessState Int) ApiRequest (ApiAnswer Int FloatText)
      ApiError ChatResponse}, SharedRun (LimitedService asciiPostgres false minuteLimits) minuteTalk h sys →
      SharedRun (CheckedAt asciiPostgres false minuteLimits
        (InInterval minuteLimits.windowSeconds 1050)) sys [] sys := fun _ => .start
  have hlater : ∀ {h} {sys sys' : System (Fin 4) (ProcessState Int) ApiRequest (ApiAnswer Int FloatText)
      ApiError ChatResponse}, SharedRun (CheckedAt asciiPostgres false minuteLimits
        (InInterval minuteLimits.windowSeconds 1050)) sys h sys' →
      SharedRun (LimitedService asciiPostgres false minuteLimits) sys' [] sys' := fun _ => .start
  have hidle : SharedRun (LimitedService asciiPostgres false minuteLimits) minuteTalk [] minuteTalk :=
    .start
  have hr₁ := hidle.ask (n := 0) rfl (.checkRate 1000 1000 (by decide) (by decide))
  have hr₂ := (hwithin hr₁).ask (n := 1) rfl
    ⟨.checkRate 1050 1050 (by decide) (by decide), fun _ => by decide⟩
  have hr₂ := hr₂.ask (n := 2) rfl
    ⟨.checkRate 1055 1055 (by decide) (by decide), fun _ => by decide⟩
  have hr₂ := hr₂.ask (n := 3) rfl
    ⟨.checkRate 1060 1060 (by decide) (by decide), fun _ => by decide⟩
  have hr₃ := (hlater hr₂).ask (n := 1) rfl (.database rfl hload)
  have hr₃ := hr₃.ask (n := 3) rfl (.database rfl hload)
  refine served_bounded (by decide) (by decide) (by decide) rfl hr₁ hr₂ hr₃ (by decide) ?_ ?_
  · intro n hn
    rcases List.mem_pair.mp hn with rfl | rfl
    · exact ⟨_, _, List.mem_cons_self⟩
    · exact ⟨_, _, List.mem_cons_of_mem _ (List.mem_cons_of_mem _ List.mem_cons_self)⟩
  · intro n hn
    refine ⟨⟨.loadConversation 7 "conv-1", .ok (some (1, []))⟩, List.mem_append_right _ ?_, rfl⟩
    rcases List.mem_pair.mp hn with rfl | rfl
    · exact List.mem_cons_self
    · exact List.mem_cons_of_mem _ List.mem_cons_self

end DealershipAgent
