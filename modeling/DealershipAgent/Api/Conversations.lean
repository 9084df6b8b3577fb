import Mathlib.Data.List.Sort
import DealershipAgent.Db.CustomerReads

/-!
# Conversation persistence

The functions of `api/conversations.py`, each alone on a connection of its own: `load_conversation` as
`CustomerReads` has it, `create_conversation` and `append_messages`.

* `history`: the messages of a conversation in the order of their ids.
* `loadConversationOnce_ok`, `createConversation_cases`, `appendMessages_cases`: what each function does.
* `appendMessages_error`: what an owner appends is refused only when a text cannot be stored or the
  database rejects a row.
-/

namespace DealershipAgent

open Py RowSecurity

/-- The database, and the last value of each sequence of ids. -/
structure ConversationStore where
  db : Database
  lastConversation : Int := 0
  lastMessage : Int := 0

/-- The role as the `str` that it is. -/
def Role.value : Role → Str
  | system => "system"
  | user => "user"
  | assistant => "assistant"

def Message.columns (message : Message) : Str × Str := (message.role.value, message.content)

/-- The messages of a conversation, by their ids. -/
def history (db : Database) (conversationId : Int) : List (Str × Str) :=
  ((db.conversationMessages.filter fun r => r.conversationId = conversationId).mergeSort
    fun r r' => r.id ≤ r'.id).map fun r => (r.role, r.content)

/-- The constraints of the two tables: keys, references and lengths. -/
def Database.allows (db : Database) : Row → Bool
  | .conversation r =>
    !(db.conversations.any fun o => o.id = r.id || o.conversationRef = r.conversationRef) &&
      (db.customers.any fun o => o.id = r.customerId) && r.conversationRef.length ≤ 64
  | .conversationMessage r =>
    !(db.conversationMessages.any fun o => o.id = r.id) &&
      (db.conversations.any fun o => o.id = r.conversationId) && r.role.length ≤ 16
  | _ => true

/-! ## The functions -/

section Functions

variable (pg : Postgres) (store : ConversationStore) (customerId : Int)

/-- `load_conversation`, alone. -/
def loadConversationOnce (db : Database) (conversationRef : Str) :
    Except (Fault Exc) (Option (Int × List Message)) :=
  (loadConversation pg ⟨(), fun _ => [], .unset⟩ (start none db) customerId conversationRef).2

/-- `create_conversation`, with the hex digits of the UUID, the time of the transaction and what else
Postgres may have against a row. -/
def createConversation (hex : Str) (now : Timestamp) (accepts : Row → Bool) :
    ConversationStore × Except (Fault Exc) (Int × Str) :=
  let conversationRef := str "conv-" ++ hex
  let conversationId := store.lastConversation + 1
  let row := Row.conversation ⟨conversationId, conversationRef, customerId, now, now⟩
  let (db, out) := alone (secured pg) (some (intRepr customerId)) none store.db Except.isOk fun w =>
    insert (secured pg) w () row (store.db.allows row && accepts row)
  ({ store with db := db, lastConversation := conversationId },
    out.map fun _ => (conversationId, conversationRef))

/-- The loop of `append_messages`, with the last id of the sequence. -/
def insertMessages (conversationId : Int) (now : Timestamp) (accepts : Row → Bool) :
    World Unit (Option Str) Database Row → Int → List Message →
      World Unit (Option Str) Database Row × Int × Except (Fault Exc) Unit
  | w, last, [] => (w, last, .ok ())
  | w, last, message :: messages =>
    match bindText message.content with
    | .error e => (w, last, .error (.raised e))
    | .ok content =>
      let row := Row.conversationMessage ⟨last + 1, conversationId, message.role.value, content, now⟩
      match insert (secured pg) w () row ((seen (secured pg) w ()).allows row && accepts row) with
      | (w', .ok ()) => insertMessages conversationId now accepts w' (last + 1) messages
      | (w', .error e) => (w', last + 1, .error e)

def appendMessages (conversationId : Int) (messages : List Message) (now : Timestamp)
    (accepts : Row → Bool) : ConversationStore × Except (Fault Exc) Unit :=
  let (db, last, out) := alone (secured pg) (some (intRepr customerId)) none store.db
    (fun x : Int × Except (Fault Exc) Unit => x.2.isOk) fun w =>
      insertMessages pg conversationId now accepts w store.lastMessage messages
  ({ store with db := db, lastMessage := last }, out)

end Functions

/-! ## `load_conversation` -/

section Load

variable {pg : Postgres} {db : Database} {c : Int} {ref : Str}

theorem rowMessage_ok {r : Str × Str} {message : Message} (h : rowMessage r = .ok message) :
    message.columns = r := by
  obtain ⟨role, content⟩ := r
  unfold rowMessage at h
  split at h
  · next hr => cases h; exact Prod.ext hr.symm rfl
  · split at h
    · next hr => cases h; exact Prod.ext hr.symm rfl
    · split at h
      · next hr => cases h; exact Prod.ext hr.symm rfl
      · cases h

theorem mapM_rowMessage {rows : List (Str × Str)} {messages : List Message}
    (h : rows.mapM rowMessage = .ok messages) : messages.map Message.columns = rows := by
  induction rows generalizing messages with
  | nil =>
    cases h
    rfl
  | cons r rows ih =>
    rw [List.mapM_cons] at h
    cases hr : rowMessage r with
    | error e => rw [hr] at h; cases h
    | ok message =>
      cases hrows : rows.mapM rowMessage with
      | error e => rw [hr, hrows] at h; cases h
      | ok rest =>
        rw [hr, hrows] at h
        cases h
        rw [List.map_cons, rowMessage_ok hr, ih hrows]

/-- The customer's part of the database has the whole history of each of its conversations. -/
theorem history_ownedBy {row : Conversation} (hrow : row ∈ db.conversations)
    (hc : row.customerId = c) : history (db.ownedBy c) row.id = history db row.id := by
  unfold history
  congr 2
  change (List.filter _ (List.filter _ _)) = _
  rw [List.filter_filter]
  refine List.filter_congr fun r _ => ?_
  by_cases hr : r.conversationId = row.id
  · have hown : Owns c db (.conversationMessage r) := ⟨row, hrow, hr.symm, hc⟩
    simp [hr, hown]
  · simp [hr]

/-- The rows that the two statements give, when nothing changes between them. -/
theorem answers_conversationRows (href : Storable ref) (d : Database) :
    answers (fun _ => (.ok d : Except Exc Database)) 0 (conversationRows ref) =
      .ok ((d.conversations.filter fun r => r.conversationRef = ref).head?.map fun row =>
        (row.id, history d row.id)) := by
  have hcall : ∀ {α : Type} (i : Nat) (f : Database → Reader Database Exc α),
      answers (fun _ => .ok d) i (Interact.Prog.call () >>= f) = answers (fun _ => .ok d) (i + 1) (f d) :=
    fun _ _ => rfl
  unfold conversationRows
  rw [bindText_eq href]
  change answers _ 0 (Interact.Prog.call () >>= _) = _
  rw [hcall]
  cases (d.conversations.filter fun r => r.conversationRef = ref).head? with
  | none => rfl
  | some row => rfl

/-- The customer's conversations with this reference. -/
def owned (db : Database) (c : Int) (ref : Str) : List Conversation :=
  (db.ownedBy c).conversations.filter fun r => r.conversationRef = ref

theorem mem_owned {row : Conversation} : row ∈ owned db c ref ↔
    row ∈ db.conversations ∧ row.customerId = c ∧ row.conversationRef = ref := by
  change row ∈ List.filter _ (List.filter _ _) ↔ _
  simp only [List.mem_filter, decide_eq_true_eq, and_assoc]
  rfl

/-- A reference that the driver refuses is not asked for. -/
theorem loadConversationOnce_error {e : Exc} (href : bindText ref = .error e) :
    loadConversationOnce pg c db ref = .error (.raised e) := by
  have hrows : (inScope pg (⟨(), fun _ => [], .unset⟩ : Checkout Unit) (start none db) c
      (conversationRows ref)).2 = .error (.raised e) := by
    unfold inScope
    rw [call_eq rfl]
    unfold conversationRows
    rw [href]
    rfl
  unfold loadConversationOnce loadConversation
  simp only [hrows]
  rfl

/-- What `load_conversation` gives. -/
theorem loadConversationOnce_eq (href : Storable ref) : loadConversationOnce pg c db ref =
    if FitsInteger c then
      match (owned db c ref).head? with
      | none => .ok none
      | some row =>
        match (history db row.id).mapM rowMessage with
        | .ok messages => .ok (some (row.id, messages))
        | .error e => .error (.raised e)
    else .error (.raised (pg.outOfRange c)) := by
  have hviews : (inScope pg (⟨(), fun _ => [], .unset⟩ : Checkout Unit) (start none db) c
      (conversationRows ref)).2 = answers (fun _ => (secured pg).visible (some (intRepr c)) db) 0
        (conversationRows ref) := by
    unfold inScope
    rw [call_eq rfl]
    congr 1
    funext i
    rw [show (fun i => (([] : List (Use Unit)).map Use.action)) = fun _ => [] from rfl, before_nil]
    rfl
  unfold loadConversationOnce loadConversation
  simp only [hviews, visible_scope]
  by_cases hc : FitsInteger c
  · simp only [if_pos hc, answers_conversationRows href]
    change Except.bind (.ok ((owned db c ref).head?.map _)) _ = _
    cases hhead : (owned db c ref).head? with
    | none => rfl
    | some row =>
      obtain ⟨hrow, hcustomer, -⟩ := mem_owned.mp (List.mem_of_head? hhead)
      rw [Option.map_some, history_ownedBy hrow hcustomer]
      rfl
  · simp only [if_neg hc]
    unfold conversationRows
    rw [bindText_eq href]
    rfl

/-- A conversation that is loaded is one of the customer's, with its whole history. -/
theorem loadConversationOnce_ok {conversationId : Int} {messages : List Message}
    (h : loadConversationOnce pg c db ref = .ok (some (conversationId, messages))) :
    FitsInteger c ∧ messages.map Message.columns = history db conversationId ∧
      ∃ row ∈ db.conversations, row.id = conversationId ∧ row.customerId = c ∧
        row.conversationRef = ref := by
  cases hbind : bindText ref with
  | error e =>
    rw [loadConversationOnce_error hbind] at h
    cases h
  | ok ref' =>
  rw [loadConversationOnce_eq (bindText_eq_ok.mp hbind).1] at h
  by_cases hc : FitsInteger c
  · rw [if_pos hc] at h
    cases hhead : (owned db c ref).head? with
    | none => rw [hhead] at h; cases h
    | some row =>
      obtain ⟨hrow, hcustomer, href⟩ := mem_owned.mp (List.mem_of_head? hhead)
      rw [hhead] at h
      cases hmap : (history db row.id).mapM rowMessage with
      | error e => simp only [hmap] at h; cases h
      | ok found =>
        simp only [hmap] at h
        cases h
        exact ⟨hc, mapM_rowMessage hmap, row, hrow, rfl, hcustomer, href⟩
  · rw [if_neg hc] at h
    cases h

/-- A conversation that the customer does not own is not found. -/
theorem loadConversationOnce_notOwned (href : Storable ref)
    (h : ∀ row ∈ db.conversations, row.conversationRef = ref → row.customerId ≠ c) :
    loadConversationOnce pg c db ref =
      if FitsInteger c then .ok none else .error (.raised (pg.outOfRange c)) := by
  have hnone : owned db c ref = [] := by
    rw [List.eq_nil_iff_forall_not_mem]
    intro row hrow
    obtain ⟨hmem, hcustomer, href⟩ := mem_owned.mp hrow
    exact h row hmem href hcustomer
  rw [loadConversationOnce_eq href, hnone]
  rfl

end Load

/-! ## `create_conversation` -/

section Create

variable (pg : Postgres) (store : ConversationStore) (c : Int) (hex : Str) (now : Timestamp)
  (accepts : Row → Bool)

/-- A conversation of the customer is created, or nothing changes but the sequence. -/
theorem createConversation_cases :
    (∃ e, (createConversation pg store c hex now accepts).2 = .error e ∧
      (createConversation pg store c hex now accepts).1 =
        { store with lastConversation := store.lastConversation + 1 }) ∨
    (FitsInteger c ∧ (createConversation pg store c hex now accepts).2 =
        .ok (store.lastConversation + 1, str "conv-" ++ hex) ∧
      (createConversation pg store c hex now accepts).1 =
        { store with
          db := store.db.insert (.conversation
            ⟨store.lastConversation + 1, str "conv-" ++ hex, c, now, now⟩)
          lastConversation := store.lastConversation + 1 }) := by
  unfold createConversation alone
  rcases insert_inserted (secured pg) (some (intRepr c)) store.db []
    (.conversation ⟨store.lastConversation + 1, str "conv-" ++ hex, c, now, now⟩)
    (store.db.allows (.conversation ⟨store.lastConversation + 1, str "conv-" ++ hex, c, now, now⟩) &&
      accepts (.conversation ⟨store.lastConversation + 1, str "conv-" ++ hex, c, now, now⟩)) with
    ⟨hadmits, -, hinsert⟩ | ⟨w, e, hinsert, hw, -⟩
  · refine .inr ⟨(admits_scope hadmits).1, ?_, ?_⟩
    · simp only [hinsert]
      rfl
    · simp only [hinsert]
      rfl
  · refine .inl ⟨e, ?_, ?_⟩
    · simp only [hinsert]
      rfl
    · simp only [hinsert]
      rw [show (Except.error e : Except (Fault Exc) Unit).isOk = false from rfl, finish_rollback, hw]

/-- A conversation that is created has passed the constraints. -/
theorem createConversation_allowed {x : Int × Str}
    (h : (createConversation pg store c hex now accepts).2 = .ok x) :
    store.db.allows (.conversation
      ⟨store.lastConversation + 1, str "conv-" ++ hex, c, now, now⟩) = true := by
  unfold createConversation alone at h
  rcases insert_inserted (secured pg) (some (intRepr c)) store.db []
    (.conversation ⟨store.lastConversation + 1, str "conv-" ++ hex, c, now, now⟩)
    (store.db.allows (.conversation ⟨store.lastConversation + 1, str "conv-" ++ hex, c, now, now⟩) &&
      accepts (.conversation ⟨store.lastConversation + 1, str "conv-" ++ hex, c, now, now⟩)) with
    ⟨-, haccepted, -⟩ | ⟨w, e, hinsert, -, -⟩
  · exact (Bool.and_eq_true_iff.mp haccepted).1
  · simp only [hinsert] at h
    cases h

end Create

/-! ## `append_messages` -/

section Append

variable {pg : Postgres} {store : ConversationStore} {c conversationId : Int} {now : Timestamp}
  {accepts : Row → Bool}

/-- The rows of messages, with the ids after `last`. -/
def messageRows (conversationId : Int) (now : Timestamp) : Int → List Message →
    List ConversationMessage
  | _, [] => []
  | last, message :: messages =>
    ⟨last + 1, conversationId, message.role.value, message.content, now⟩ ::
      messageRows conversationId now (last + 1) messages

theorem foldl_insert_messages (db : Database) (rows : List ConversationMessage) :
    (rows.map Row.conversationMessage).foldl Database.insert db =
      { db with conversationMessages := db.conversationMessages ++ rows } := by
  induction rows generalizing db with
  | nil => simp
  | cons row rows ih =>
    rw [List.map_cons, List.foldl_cons, ih]
    simp [Database.insert]

/-- The loop inserts all the messages, or a statement fails. -/
theorem insertMessages_cases (pg : Postgres) (db : Database) (c conversationId : Int)
    (now : Timestamp) (accepts : Row → Bool) (pending : List Row) (last : Int)
    (messages : List Message) :
    (∃ w last' e, insertMessages pg conversationId now accepts
        (inserted (some (intRepr c)) db pending) last messages = (w, last', .error e) ∧
      w.committed = db ∧ last ≤ last') ∨
    insertMessages pg conversationId now accepts (inserted (some (intRepr c)) db pending) last
      messages = (inserted (some (intRepr c)) db (pending ++
        (messageRows conversationId now last messages).map Row.conversationMessage),
        last + messages.length, .ok ()) := by
  induction messages generalizing pending last with
  | nil => exact .inr (by simp [insertMessages, messageRows])
  | cons message messages ih =>
    simp only [insertMessages]
    cases hbind : bindText message.content with
    | error e => exact .inl ⟨_, last, _, rfl, rfl, le_refl _⟩
    | ok content =>
    obtain ⟨-, rfl⟩ := bindText_eq_ok.mp hbind
    simp only
    rcases insert_inserted (secured pg) (some (intRepr c)) db pending _ _ with ⟨-, -, hinsert⟩ | ⟨w, e, hinsert, hw, -⟩
    · rw [hinsert]
      rcases ih (pending ++ [_]) (last + 1) with ⟨w, last', e, hrest, hw, hle⟩ | hrest
      · exact .inl ⟨w, last', e, hrest, hw, by omega⟩
      · refine .inr (hrest.trans ?_)
        rw [List.append_assoc, List.length_cons]
        congr 2
        push_cast
        omega
    · rw [hinsert]
      exact .inl ⟨w, last + 1, e, rfl, hw, by omega⟩

variable (pg store c conversationId now accepts) in
/-- Messages are appended all at once, or nothing changes but the sequence. -/
theorem appendMessages_cases (messages : List Message) :
    (∃ e last, (appendMessages pg store c conversationId messages now accepts).2 = .error e ∧
      (appendMessages pg store c conversationId messages now accepts).1 =
        { store with lastMessage := last } ∧ store.lastMessage ≤ last) ∨
    ((appendMessages pg store c conversationId messages now accepts).2 = .ok () ∧
      (appendMessages pg store c conversationId messages now accepts).1 =
        { store with
          db := { store.db with
            conversationMessages := store.db.conversationMessages ++
              messageRows conversationId now store.lastMessage messages }
          lastMessage := store.lastMessage + messages.length }) := by
  unfold appendMessages alone
  rcases insertMessages_cases pg store.db c conversationId now accepts [] store.lastMessage messages
    with ⟨w, last, e, h, hw, hle⟩ | h
  · refine .inl ⟨e, last, ?_, ?_, hle⟩
    · simp only [h]
    · simp only [h]
      rw [show (Except.error e : Except (Fault Exc) Unit).isOk = false from rfl, finish_rollback, hw]
  · refine .inr ⟨?_, ?_⟩
    · simp only [h]
    · simp only [h]
      rw [show (Except.ok () : Except (Fault Exc) Unit).isOk = true from rfl, finish_inserted,
        List.nil_append, ← foldl_insert_messages]
      rfl

/-- A message that is appended belongs to a conversation of the customer. -/
theorem appendMessages_owned {message : Message} {messages : List Message}
    (h : (appendMessages pg store c conversationId (message :: messages) now accepts).2 = .ok ()) :
    ∃ row ∈ store.db.conversations, row.id = conversationId ∧ row.customerId = c := by
  unfold appendMessages alone at h
  simp only [insertMessages] at h
  cases hbind : bindText message.content with
  | error e =>
    rw [hbind] at h
    cases h
  | ok content =>
  rw [hbind] at h
  simp only at h
  generalize hrow : Row.conversationMessage
    ⟨store.lastMessage + 1, conversationId, message.role.value, content, now⟩ = row at h
  rcases insert_inserted (secured pg) (some (intRepr c)) store.db [] row
    ((seen (secured pg) (inserted (some (intRepr c)) store.db []) ()).allows row && accepts row) with
    ⟨hadmits, -, -⟩ | ⟨w, e, hinsert, -, -⟩
  · subst hrow
    exact (admits_scope hadmits).2
  · rw [hinsert] at h
    cases h

/-- The loop has inserted texts that Postgres can hold. -/
theorem insertMessages_storable {db : Database} {pending : List Row} {messages : List Message}
    {w : World Unit (Option Str) Database Row} {last last' : Int}
    (h : insertMessages pg conversationId now accepts (inserted (some (intRepr c)) db pending) last
      messages = (w, last', .ok ())) : ∀ message ∈ messages, Storable message.content := by
  induction messages generalizing pending last with
  | nil => simp
  | cons message messages ih =>
    rw [insertMessages] at h
    cases hbind : bindText message.content with
    | error e =>
      rw [hbind] at h
      cases h
    | ok content =>
      rw [hbind] at h
      simp only at h
      rcases insert_inserted (secured pg) (some (intRepr c)) db pending _ _ with
        ⟨-, -, hinsert⟩ | ⟨w', e', hinsert, -, -⟩
      · rw [hinsert] at h
        exact List.forall_mem_cons.mpr ⟨(bindText_eq_ok.mp hbind).1, ih h⟩
      · rw [hinsert] at h
        cases h

theorem appendMessages_storable {messages : List Message}
    (h : (appendMessages pg store c conversationId messages now accepts).2 = .ok ()) :
    ∀ message ∈ messages, Storable message.content := by
  unfold appendMessages alone at h
  cases hloop : insertMessages pg conversationId now accepts
      (inserted (some (intRepr c)) store.db []) store.lastMessage messages with
  | mk w x =>
    obtain ⟨last', out⟩ := x
    simp only [hloop] at h
    subst h
    exact insertMessages_storable hloop

/-! ### The order of the messages -/

/-- The messages stand in the order of their ids, which are among those of the sequence so far. -/
structure InOrder (store : ConversationStore) : Prop where
  sorted : store.db.conversationMessages.Pairwise fun r r' => r.id < r'.id
  last : ∀ r ∈ store.db.conversationMessages, r.id ≤ store.lastMessage

theorem messageRows_id {last : Int} {messages : List Message} {r : ConversationMessage}
    (h : r ∈ messageRows conversationId now last messages) :
    last < r.id ∧ r.id ≤ last + messages.length ∧ r.conversationId = conversationId := by
  induction messages generalizing last with
  | nil => cases h
  | cons message messages ih =>
    rw [List.length_cons]
    rcases List.mem_cons.mp h with rfl | h
    · exact ⟨Int.lt_succ last, by push_cast; omega, rfl⟩
    · obtain ⟨hlo, hhi, hid⟩ := ih h
      exact ⟨by omega, by push_cast; omega, hid⟩

theorem messageRows_sorted (last : Int) (messages : List Message) :
    (messageRows conversationId now last messages).Pairwise fun r r' => r.id < r'.id := by
  induction messages generalizing last with
  | nil => exact .nil
  | cons message messages ih => exact .cons (fun r hr => (messageRows_id hr).1) (ih _)

theorem messageRows_columns (last : Int) (messages : List Message) :
    (messageRows conversationId now last messages).map (fun r => (r.role, r.content)) =
      messages.map Message.columns := by
  induction messages generalizing last with
  | nil => rfl
  | cons message messages ih => exact congrArg _ (ih _)

theorem InOrder.append (h : InOrder store) (messages : List Message) :
    InOrder { store with
      db := { store.db with
        conversationMessages := store.db.conversationMessages ++
          messageRows conversationId now store.lastMessage messages }
      lastMessage := store.lastMessage + messages.length } where
  sorted := List.pairwise_append.mpr ⟨h.sorted, messageRows_sorted _ _, fun r hr r' hr' =>
    Int.lt_of_le_of_lt (h.last r hr) (messageRows_id hr').1⟩
  last r hr := by
    rcases List.mem_append.mp hr with hr | hr
    · have := h.last r hr
      change _ ≤ _ + _
      omega
    · exact (messageRows_id hr).2.1

theorem history_eq {db : Database}
    (h : db.conversationMessages.Pairwise fun r r' => r.id < r'.id) (conversationId : Int) :
    history db conversationId = (db.conversationMessages.filter fun r =>
      r.conversationId = conversationId).map fun r => (r.role, r.content) := by
  have hsorted : (db.conversationMessages.filter fun r => r.conversationId = conversationId).Pairwise
      fun r r' => decide (r.id ≤ r'.id) = true :=
    (h.filter _).imp fun hlt => decide_eq_true (Int.le_of_lt hlt)
  unfold history
  rw [List.mergeSort_of_pairwise hsorted]

/-- Appended messages come at the end of their conversation's history, and of no other. -/
theorem history_append (h : InOrder store) (messages : List Message) (conversationId' : Int) :
    history { store.db with
      conversationMessages := store.db.conversationMessages ++
        messageRows conversationId now store.lastMessage messages } conversationId' =
    history store.db conversationId' ++
      if conversationId = conversationId' then messages.map Message.columns else [] := by
  rw [history_eq (h.append messages).sorted, history_eq h.sorted, List.filter_append,
    List.map_append]
  congr 1
  by_cases hid : conversationId = conversationId'
  · rw [if_pos hid, List.filter_eq_self.mpr, messageRows_columns]
    intro r hr
    exact decide_eq_true ((messageRows_id hr).2.2.trans hid)
  · rw [if_neg hid, List.filter_eq_nil_iff.mpr, List.map_nil]
    intro r hr
    simpa [(messageRows_id hr).2.2] using hid

/-! ### A refused message -/

theorem Role.value_length (role : Role) : role.value.length ≤ 16 := by
  cases role <;> decide

/-- The constraints hold of the next message of a conversation that there is. -/
theorem allows_message {db : Database} {row : Conversation} {last : Int} {message : Message}
    (hrow : row ∈ db.conversations) (hid : row.id = conversationId)
    (hlast : ∀ r ∈ db.conversationMessages, r.id ≤ last) :
    db.allows (.conversationMessage
      ⟨last + 1, conversationId, message.role.value, message.content, now⟩) = true := by
  have hkey : (db.conversationMessages.any fun o => o.id = last + 1) = false := by
    rw [List.any_eq_false]
    intro r hr
    have := hlast r hr
    simp
    omega
  have hparent : (db.conversations.any fun o => o.id = conversationId) = true :=
    List.any_eq_true.mpr ⟨row, hrow, decide_eq_true hid⟩
  simp [Database.allows, hkey, hparent, message.role.value_length]

/-- In its loop a message of an owner that Postgres can hold is refused only for what else it has against
the row. -/
theorem insertMessages_error {db : Database} {row : Conversation} (hc : FitsInteger c)
    (hrow : row ∈ db.conversations) (hid : row.id = conversationId) (hcustomer : row.customerId = c)
    {messages : List Message} (htexts : ∀ message ∈ messages, Storable message.content) {e : Fault Exc}
    {w : World Unit (Option Str) Database Row} {pending : List ConversationMessage} {last last' : Int}
    (hlast : ∀ r ∈ db.conversationMessages ++ pending, r.id ≤ last)
    (h : insertMessages pg conversationId now accepts
      (inserted (some (intRepr c)) db (pending.map Row.conversationMessage)) last messages =
        (w, last', .error e)) :
    e = .rejected ∧ ∃ r, accepts r = false := by
  induction messages generalizing pending last with
  | nil => cases h
  | cons message messages ih =>
    have hseen : seen (secured pg) (inserted (some (intRepr c)) db
        (pending.map Row.conversationMessage)) () =
        { db with conversationMessages := db.conversationMessages ++ pending } :=
      foldl_insert_messages db pending
    have hadmits : (secured pg).admits (some (intRepr c))
        ((pending.map Row.conversationMessage).foldl Database.insert db) (.conversationMessage
          ⟨last + 1, conversationId, message.role.value, message.content, now⟩) = .ok true := by
      rw [admits_eq, if_pos hc, foldl_insert_messages]
      exact congrArg Except.ok (decide_eq_true ⟨row, hrow, hid, hcustomer⟩)
    have hallows : ({ db with conversationMessages := db.conversationMessages ++ pending } :
        Database).allows (.conversationMessage
          ⟨last + 1, conversationId, message.role.value, message.content, now⟩) = true :=
      allows_message hrow hid hlast
    rw [insertMessages, bindText_eq (htexts _ List.mem_cons_self)] at h
    simp only [hseen, hallows, Bool.true_and] at h
    rcases insert_inserted (secured pg) (some (intRepr c)) db (pending.map Row.conversationMessage) _ _
      with ⟨-, -, hinsert⟩ | ⟨w', e', hinsert, -, hrefused⟩
    · rw [hinsert] at h
      have hlast' : ∀ r ∈ db.conversationMessages ++ (pending ++ [⟨last + 1, conversationId,
          message.role.value, message.content, now⟩]), r.id ≤ last + 1 := by
        intro r hr
        rw [← List.append_assoc] at hr
        rcases List.mem_append.mp hr with hr | hr
        · have := hlast r hr
          omega
        · obtain rfl := List.mem_singleton.mp hr
          exact Int.le_refl _
      exact ih (fun m hm => htexts m (List.mem_cons_of_mem _ hm)) hlast'
        (by rw [List.map_append]; exact h)
    · rw [hinsert] at h
      obtain ⟨haccepts, rfl⟩ := hrefused hadmits
      cases h
      exact ⟨rfl, _, haccepts⟩

/-- What an owner appends, of texts that Postgres can hold, is refused only for what else it has against
a row. -/
theorem appendMessages_error {row : Conversation} (hc : FitsInteger c) (horder : InOrder store)
    (hrow : row ∈ store.db.conversations) (hid : row.id = conversationId)
    (hcustomer : row.customerId = c) {messages : List Message}
    (htexts : ∀ message ∈ messages, Storable message.content) {e : Fault Exc}
    (h : (appendMessages pg store c conversationId messages now accepts).2 = .error e) :
    e = .rejected ∧ ∃ r, accepts r = false := by
  have hlast : ∀ r ∈ store.db.conversationMessages ++ [], r.id ≤ store.lastMessage := by
    rw [List.append_nil]
    exact horder.last
  unfold appendMessages alone at h
  cases hloop : insertMessages pg conversationId now accepts
      (inserted (some (intRepr c)) store.db []) store.lastMessage messages with
  | mk w x =>
    obtain ⟨last', out⟩ := x
    simp only [hloop] at h
    subst h
    exact insertMessages_error hc hrow hid hcustomer htexts hlast hloop

end Append

end DealershipAgent
