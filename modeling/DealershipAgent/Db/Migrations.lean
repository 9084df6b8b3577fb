import DealershipAgent.Db.Rls
import DealershipAgent.Sql.Schema

/-!
# The migrations

`db/migrations/versions`, and the runs of `alembic upgrade` and `alembic downgrade` over them.

* `migrations`: the revisions in their order, each with its statements.
* `Stage`: the schemas that there are; `runCommands_staged`: every run of commands ends in one.
* `migrations_isolate`: what the role sees in any of them is what `isolation` says.
* `migrations_reversible`: each revision is one command away, with the tables of that revision.
-/

namespace DealershipAgent

open Py Sql

/-! ## Revisions -/

inductive TableName where
  | customers
  | vehicles
  | escalations
  | orders
  | testDriveBookings
  | vehicleEmbeddings
  | orderStatusHistory
  | policyChunks
  | conversations
  | conversationMessages
deriving DecidableEq, Repr

inductive EnumName where
  | orderStatus
  | testDriveStatus
deriving DecidableEq, Repr

/-- `app_db_user` and `app_db_password` of the settings. The user is the same in all runs. -/
structure MigrationSettings where
  appDbUser : Str
  appDbPassword : Str

structure Migration where
  revision : Str
  /-- `_app_role_name`, where the migration has it. -/
  check : MigrationSettings → Except Exc Unit := fun _ => .ok ()
  upgrade : List (Statement TableName EnumName)
  downgrade : List (Statement TableName EnumName)

def initialSchema : Migration where
  revision := "cbd3d488305d"
  upgrade := [
    .createExtension "vector",
    .createTable {
      name := .customers
      columns := ["id", "external_ref", "email", "full_name", "phone", "created_at"].map str },
    .createIndex "ix_customers_external_ref" .customers ["external_ref"],
    .createTable {
      name := .vehicles
      columns := ["id", "external_ref", "year", "make", "model", "trim", "body_style",
        "fuel_type", "mileage", "price", "price_low", "price_high", "seller_state",
        "description_raw", "description_clean", "is_available", "created_at",
        "updated_at"].map str },
    .createIndex "ix_vehicles_external_ref" .vehicles ["external_ref"],
    .createIndex "ix_vehicles_make" .vehicles ["make"],
    .createIndex "ix_vehicles_model" .vehicles ["model"],
    .createTable {
      name := .escalations
      columns := ["id", "customer_id", "conversation_id", "summary", "reason", "created_at",
        "resolved_at"].map str
      foreignKeys := [("customer_id", .customers)] },
    .createIndex "ix_escalations_customer_id" .escalations ["customer_id"],
    .createType .orderStatus,
    .createTable {
      name := .orders
      columns := ["id", "order_ref", "customer_id", "vehicle_id", "status", "total_amount",
        "created_at", "expected_delivery_date", "actual_delivery_date"].map str
      foreignKeys := [("customer_id", .customers), ("vehicle_id", .vehicles)]
      enums := [.orderStatus] },
    .createIndex "ix_orders_customer_id" .orders ["customer_id"],
    .createIndex "ix_orders_order_ref" .orders ["order_ref"],
    .createIndex "ix_orders_vehicle_id" .orders ["vehicle_id"],
    .createType .testDriveStatus,
    .createTable {
      name := .testDriveBookings
      columns := ["id", "booking_ref", "customer_id", "vehicle_id", "scheduled_at",
        "status"].map str
      foreignKeys := [("customer_id", .customers), ("vehicle_id", .vehicles)]
      enums := [.testDriveStatus] },
    .createIndex "ix_test_drive_bookings_booking_ref" .testDriveBookings ["booking_ref"],
    .createIndex "ix_test_drive_bookings_customer_id" .testDriveBookings ["customer_id"],
    .createIndex "ix_test_drive_bookings_vehicle_id" .testDriveBookings ["vehicle_id"],
    .createTable {
      name := .vehicleEmbeddings
      columns := ["id", "vehicle_id", "embedding", "model_name", "created_at"].map str
      foreignKeys := [("vehicle_id", .vehicles)]
      extensionsUsed := ["vector"] },
    .createIndex "ix_vehicle_embeddings_embedding_hnsw" .vehicleEmbeddings ["embedding"],
    .createIndex "ix_vehicle_embeddings_vehicle_id" .vehicleEmbeddings ["vehicle_id"],
    .createTable {
      name := .orderStatusHistory
      columns := ["id", "order_id", "from_status", "to_status", "changed_at", "note"].map str
      foreignKeys := [("order_id", .orders)]
      enums := [.orderStatus] },
    .createIndex "ix_order_status_history_order_id" .orderStatusHistory ["order_id"]]
  downgrade := [
    .dropIndex "ix_order_status_history_order_id" .orderStatusHistory,
    .dropTable .orderStatusHistory,
    .dropIndex "ix_vehicle_embeddings_vehicle_id" .vehicleEmbeddings,
    .dropIndex "ix_vehicle_embeddings_embedding_hnsw" .vehicleEmbeddings,
    .dropTable .vehicleEmbeddings,
    .dropIndex "ix_test_drive_bookings_vehicle_id" .testDriveBookings,
    .dropIndex "ix_test_drive_bookings_customer_id" .testDriveBookings,
    .dropIndex "ix_test_drive_bookings_booking_ref" .testDriveBookings,
    .dropTable .testDriveBookings,
    .dropIndex "ix_orders_vehicle_id" .orders,
    .dropIndex "ix_orders_order_ref" .orders,
    .dropIndex "ix_orders_customer_id" .orders,
    .dropTable .orders,
    .dropIndex "ix_escalations_customer_id" .escalations,
    .dropTable .escalations,
    .dropIndex "ix_vehicles_model" .vehicles,
    .dropIndex "ix_vehicles_make" .vehicles,
    .dropIndex "ix_vehicles_external_ref" .vehicles,
    .dropTable .vehicles,
    .dropIndex "ix_customers_external_ref" .customers,
    .dropTable .customers,
    .dropType .orderStatus,
    .dropType .testDriveStatus]

/-- `APP_ROLE_TABLES` -/
def appRoleTables : List TableName :=
  [.customers, .orders, .orderStatusHistory, .testDriveBookings, .escalations]

/-- `SELECT, INSERT, UPDATE, DELETE` -/
def crud : List Privilege := [.select, .insert, .update, .delete]

/-- `ENABLE` and `FORCE`, for each of the tables. -/
def secure (tables : List TableName) : List (Statement TableName EnumName) :=
  tables.flatMap fun table => [.rowSecurity table true, .force table true]

/-- `NO FORCE` and `DISABLE`. -/
def unsecure (tables : List TableName) : List (Statement TableName EnumName) :=
  tables.flatMap fun table => [.force table false, .rowSecurity table false]

def enableRowLevelSecurity : Migration where
  revision := "05d78e206134"
  check settings :=
    if settings.appDbUser.isEmpty || settings.appDbPassword.isEmpty then
      .error ⟨.runtimeError, text [
        "APP_DB_USER / APP_DB_PASSWORD must be set to create the app role. ",
        "This role must never be granted BYPASSRLS."]⟩
    else .ok ()
  upgrade := [.createRole, .connect true, .usage true,
      .grant [.select] [.vehicles, .vehicleEmbeddings], .grant crud appRoleTables,
      .grantSequences [.usage, .select]] ++
    secure appRoleTables ++ [
      .createPolicy "orders_isolation" .orders (.column "customer_id"),
      .createPolicy "test_drive_bookings_isolation" .testDriveBookings (.column "customer_id"),
      .createPolicy "escalations_isolation" .escalations (.column "customer_id"),
      .createPolicy "customers_isolation" .customers (.column "id"),
      .createPolicy "order_status_history_isolation" .orderStatusHistory
        (.parent "order_id" .orders "customer_id")]
  downgrade := [
      .dropPolicy "order_status_history_isolation" .orderStatusHistory,
      .dropPolicy "customers_isolation" .customers,
      .dropPolicy "orders_isolation" .orders,
      .dropPolicy "test_drive_bookings_isolation" .testDriveBookings,
      .dropPolicy "escalations_isolation" .escalations] ++
    unsecure appRoleTables ++ [
      .revokeSequences, .revoke appRoleTables, .revoke [.vehicles, .vehicleEmbeddings],
      .usage false, .connect false, .dropRole]

def addIsPriceReliable : Migration where
  revision := "8af762e42426"
  upgrade := [.addColumn .vehicles "is_price_reliable"]
  downgrade := [.dropColumn .vehicles "is_price_reliable"]

/-- The check of the user alone. -/
def requireUser (message : Str) (settings : MigrationSettings) : Except Exc Unit :=
  if settings.appDbUser.isEmpty then .error ⟨.runtimeError, message⟩ else .ok ()

def addPolicyChunks : Migration where
  revision := "cb4ac97d0b71"
  check := requireUser "APP_DB_USER must be set to grant policy_chunks access."
  upgrade := [
    .createTable {
      name := .policyChunks
      columns := ["id", "doc_slug", "doc_title", "section_heading", "chunk_index", "content",
        "is_superseded", "embedding", "model_name", "created_at"].map str
      extensionsUsed := ["vector"] },
    .createIndex "ix_policy_chunks_doc_slug" .policyChunks ["doc_slug"],
    .createIndex "ix_policy_chunks_embedding_hnsw" .policyChunks ["embedding"],
    .grant [.select] [.policyChunks]]
  downgrade := [
    .revoke [.policyChunks],
    .dropIndex "ix_policy_chunks_embedding_hnsw" .policyChunks,
    .dropIndex "ix_policy_chunks_doc_slug" .policyChunks,
    .dropTable .policyChunks]

def addConversations : Migration where
  revision := "e90c8a3aff54"
  check := requireUser "APP_DB_USER must be set to grant conversation table access."
  upgrade := [
      .createTable {
        name := .conversations
        columns := ["id", "conversation_ref", "customer_id", "created_at", "updated_at"].map str
        foreignKeys := [("customer_id", .customers)] },
      .createIndex "ix_conversations_conversation_ref" .conversations ["conversation_ref"],
      .createIndex "ix_conversations_customer_id" .conversations ["customer_id"],
      .createTable {
        name := .conversationMessages
        columns := ["id", "conversation_id", "role", "content", "created_at"].map str
        foreignKeys := [("conversation_id", .conversations)] },
      .createIndex "ix_conversation_messages_conversation_id" .conversationMessages ["conversation_id"],
      .grant crud [.conversations], .grant crud [.conversationMessages],
      .grantSequences [.usage, .select]] ++
    secure [.conversations, .conversationMessages] ++ [
      .createPolicy "conversations_isolation" .conversations (.column "customer_id"),
      .createPolicy "conversation_messages_isolation" .conversationMessages
        (.parent "conversation_id" .conversations "customer_id")]
  downgrade := [
      .dropPolicy "conversation_messages_isolation" .conversationMessages,
      .dropPolicy "conversations_isolation" .conversations] ++
    unsecure [.conversations, .conversationMessages] ++ [
      .revoke [.conversationMessages], .revoke [.conversations],
      .dropIndex "ix_conversation_messages_conversation_id" .conversationMessages,
      .dropTable .conversationMessages,
      .dropIndex "ix_conversations_customer_id" .conversations,
      .dropIndex "ix_conversations_conversation_ref" .conversations,
      .dropTable .conversations]

/-- The revisions, each one on the one before it. -/
def migrations : List Migration :=
  [initialSchema, enableRowLevelSecurity, addIsPriceReliable, addPolicyChunks, addConversations]

/-! ## Commands -/

abbrev AppSchema : Type := Schema TableName EnumName

/-- A database, with the number of revisions that it has. -/
structure MigratedDatabase where
  revision : Nat := 0
  schema : AppSchema

inductive MigrationError where
  | raised (e : Exc)
  | refused (refusal : Refusal)
  /-- There is no such revision. -/
  | noRevision

def upgradeOnce (settings : MigrationSettings) (db : MigratedDatabase) :
    Except MigrationError MigratedDatabase :=
  match migrations[db.revision]? with
  | none => .error .noRevision
  | some migration => do
    let _ ← (migration.check settings).mapError MigrationError.raised
    let schema ← (execAll migration.upgrade db.schema).mapError MigrationError.refused
    return ⟨db.revision + 1, schema⟩

def downgradeOnce (settings : MigrationSettings) (db : MigratedDatabase) :
    Except MigrationError MigratedDatabase :=
  match (migrations.take db.revision).getLast? with
  | none => .error .noRevision
  | some migration => do
    let _ ← (migration.check settings).mapError MigrationError.raised
    let schema ← (execAll migration.downgrade db.schema).mapError MigrationError.refused
    return ⟨db.revision - 1, schema⟩

inductive MigrationCommand where
  /-- `alembic upgrade +n` -/
  | upgrade (n : Nat)
  /-- `alembic downgrade -n` -/
  | downgrade (n : Nat)

/-- `n` steps, one after the other. -/
def steps (step : MigratedDatabase → Except MigrationError MigratedDatabase) :
    Nat → MigratedDatabase → Except MigrationError MigratedDatabase
  | 0, db => .ok db
  | n + 1, db => step db >>= steps step n

/-- A command, in one transaction. -/
def MigrationCommand.exec (settings : MigrationSettings) :
    MigrationCommand → MigratedDatabase → Except MigrationError MigratedDatabase
  | upgrade n => steps (upgradeOnce settings) n
  | downgrade n => steps (downgradeOnce settings) n

/-- A command that fails changes nothing. -/
def runCommand (db : MigratedDatabase) (command : MigrationSettings × MigrationCommand) :
    MigratedDatabase :=
  match command.2.exec command.1 db with
  | .ok db' => db'
  | .error _ => db

def runCommands (db : MigratedDatabase) (commands : List (MigrationSettings × MigrationCommand)) :
    MigratedDatabase := commands.foldl runCommand db

/-! ## The policies of the tables -/

/-- The policy of a table with data of customers. -/
def policyOf : TableName → Option (Policy TableName)
  | .customers => some (.column "id")
  | .orders | .testDriveBookings | .escalations | .conversations => some (.column "customer_id")
  | .orderStatusHistory => some (.parent "order_id" .orders "customer_id")
  | .conversationMessages => some (.parent "conversation_id" .conversations "customer_id")
  | .vehicles | .vehicleEmbeddings | .policyChunks => none

/-- The table shows what the policy allows. -/
def Enforces (s : AppSchema) (name : TableName) (policy : Policy TableName) : Prop :=
  ∃ table ∈ s.find name, table.rowSecurity = true ∧ table.policies.map Prod.snd = [policy]

instance (s : AppSchema) (name : TableName) (policy : Policy TableName) :
    Decidable (Enforces s name policy) :=
  inferInstanceAs (Decidable (∃ table ∈ s.find name, _))

/-- The table and the column that the subquery of a policy reads. -/
def subquery : Policy TableName → Option (TableName × Str)
  | .column _ => none
  | .parent _ parent owner => some (parent, owner)

/-- A table without data of customers refers to such tables only, and the role can do nothing or only
read it. What the role can do with another one, it can do with the rows that the policy allows. -/
def IsSecure (s : AppSchema) (table : Table TableName EnumName) : Prop :=
  (policyOf table.name = none → (∀ key ∈ table.foreignKeys, policyOf key.2 = none) ∧
    (table.privileges = [] ∨ table.privileges = [.select])) ∧
  ∀ policy ∈ policyOf table.name, table.privileges = [] ∨
    table.rowSecurity = true ∧ table.forced = true ∧ Enforces s table.name policy ∧
      ∀ parent ∈ subquery policy, Enforces s parent.1 (.column parent.2)

instance (s : AppSchema) (table : Table TableName EnumName) : Decidable (IsSecure s table) :=
  inferInstanceAs (Decidable (_ ∧ _))

/-! ### Rows -/

def Row.tableName : Row → TableName
  | .customer _ => .customers
  | .order _ => .orders
  | .orderStatusHistory _ => .orderStatusHistory
  | .testDriveBooking _ => .testDriveBookings
  | .escalation _ => .escalations
  | .conversation _ => .conversations
  | .conversationMessage _ => .conversationMessages

/-- The keys of a row. -/
def Row.keys : Row → List (Str × Int)
  | .customer r => [("id", r.id)]
  | .order r => [("id", r.id), ("customer_id", r.customerId), ("vehicle_id", r.vehicleId)]
  | .orderStatusHistory r => [("id", r.id), ("order_id", r.orderId)]
  | .testDriveBooking r => [("id", r.id), ("customer_id", r.customerId), ("vehicle_id", r.vehicleId)]
  | .escalation r => [("id", r.id), ("customer_id", r.customerId)]
  | .conversation r => [("id", r.id), ("customer_id", r.customerId)]
  | .conversationMessage r => [("id", r.id), ("conversation_id", r.conversationId)]

def Row.key (r : Row) (column : Str) : Option Int := r.keys.lookup column

def Database.rowsOf (db : Database) : TableName → List Row
  | .customers => db.customers.map .customer
  | .orders => db.orders.map .order
  | .orderStatusHistory => db.orderStatusHistory.map .orderStatusHistory
  | .testDriveBookings => db.testDriveBookings.map .testDriveBooking
  | .escalations => db.escalations.map .escalation
  | .conversations => db.conversations.map .conversation
  | .conversationMessages => db.conversationMessages.map .conversationMessage
  | .vehicles | .vehicleEmbeddings | .policyChunks => []

/-- Whether the role sees a row under a value of `CUSTOMER_ID_SCOPE`. -/
def shows (s : AppSchema) (scope : Option Int) (db : Database) (r : Row) : Bool :=
  s.visible Row.tableName db.rowsOf Row.key scope 2 r

section Rows

variable {s : AppSchema} {scope : Option Int} {db : Database} {r : Row} {depth : Nat}

theorem inScope_key {column : Str} {c : Int} (h : r.key column = some c) :
    inScope Row.key scope r column = equalsScope scope c := by
  unfold inScope equalsScope
  rw [h]
  cases scope <;> simp

/-- A table that enforces a policy shows what it allows. -/
theorem visible_enforced {policy : Policy TableName} (h : Enforces s r.tableName policy) :
    s.visible Row.tableName db.rowsOf Row.key scope (depth + 1) r =
      policy.holds db.rowsOf Row.key scope
        (s.visible Row.tableName db.rowsOf Row.key scope depth) r := by
  obtain ⟨table, hfind, hsecurity, hpolicies⟩ := h
  obtain ⟨⟨name, policy'⟩, hone⟩ := List.length_eq_one_iff.mp
    ((List.length_map Prod.snd).symm.trans (congrArg List.length hpolicies))
  rw [hone] at hpolicies
  obtain rfl : policy' = policy := List.singleton_inj.mp hpolicies
  rw [Schema.visible, Option.mem_def.mp hfind]
  simp [hsecurity, hone]

theorem visible_column {column : Str} {c : Int} (h : Enforces s r.tableName (.column column))
    (hc : r.key column = some c) :
    s.visible Row.tableName db.rowsOf Row.key scope (depth + 1) r = equalsScope scope c :=
  (visible_enforced h).trans (inScope_key hc)

/-- A subquery on the parents, whose own rows are shown by their owner. -/
theorem holds_parent {P : Type} (mk : P → Row) {id customerId : P → Int} {parents : List P}
    {policy : P → Bool} {seen : Row → Bool} {key owner : Str} {parent : TableName} {k : Int}
    (hrows : db.rowsOf parent = parents.map mk) (hkey : r.key key = some k)
    (hid : ∀ p, (mk p).key "id" = some (id p)) (howner : ∀ p, (mk p).key owner = some (customerId p))
    (hseen : ∀ p, seen (mk p) = policy p) :
    (Policy.parent key parent owner).holds db.rowsOf Row.key scope seen r =
      throughParent scope policy id customerId parents k := by
  have hseen' : seen ∘ mk = policy := funext hseen
  have howner' : (fun p => inScope Row.key scope p owner) ∘ mk =
      fun p => equalsScope scope (customerId p) := funext fun p => inScope_key (howner p)
  simp only [Policy.holds, throughParent]
  rw [hkey, hrows, List.filter_map, List.filter_map, hseen', howner', List.any_map, Bool.eq_iff_iff,
    List.contains_iff_mem, List.mem_map]
  simp [hid, and_assoc]

/-- What a secured schema shows is what the policies of `isolation` allow. -/
theorem shows_isolation {policy : Policy TableName} (hpolicy : policyOf r.tableName = some policy)
    (h : Enforces s r.tableName policy)
    (hparent : ∀ parent ∈ subquery policy, Enforces s parent.1 (.column parent.2)) :
    shows s scope db r = isolation scope db r := by
  unfold shows
  rw [visible_enforced h]
  cases r with
  | orderStatusHistory r =>
    cases hpolicy
    exact holds_parent .order rfl rfl (fun _ => rfl) (fun _ => rfl) fun p =>
      visible_column (hparent _ rfl) rfl
  | conversationMessage r =>
    cases hpolicy
    exact holds_parent .conversation rfl rfl (fun _ => rfl) (fun _ => rfl) fun p =>
      visible_column (hparent _ rfl) rfl
  | _ =>
    cases hpolicy
    exact inScope_key rfl

end Rows

/-! ## Stages -/

/-- The schemas that there are. -/
inductive Stage where
  /-- No revision, before or after there was the extension, with a role that was there before or not. -/
  | base (extension role : Bool)
  | initial (role : Bool)
  | secured
  | priced
  /-- The role may use the sequence of `policy_chunks` when there were conversations before. -/
  | policies (sequence : Bool)
  | head
deriving DecidableEq

namespace Stage

def after (statements : List (Statement TableName EnumName)) (s : AppSchema) : AppSchema :=
  match execAll statements s with
  | .ok s' => s'
  | .error _ => s

def baseSchema (extension role : Bool) : AppSchema :=
  { extensions := if extension then ["vector"] else [], role := role }

def securedSchema : AppSchema :=
  after enableRowLevelSecurity.upgrade (after initialSchema.upgrade (baseSchema true false))

def policiesSchema : AppSchema :=
  after addPolicyChunks.upgrade (after addIsPriceReliable.upgrade securedSchema)

def headSchema : AppSchema := after addConversations.upgrade policiesSchema

def schema : Stage → AppSchema
  | base extension role => baseSchema extension role
  | initial role => after initialSchema.upgrade (baseSchema true role)
  | secured => securedSchema
  | priced => after addIsPriceReliable.upgrade securedSchema
  | policies false => policiesSchema
  | policies true => after addConversations.downgrade headSchema
  | head => headSchema

def revision : Stage → Nat
  | base _ _ => 0
  | initial _ => 1
  | secured => 2
  | priced => 3
  | policies _ => 4
  | head => 5

def up : Stage → Stage
  | base _ role => initial role
  | initial _ => secured
  | secured => priced
  | priced => policies false
  | policies _ => head
  | head => head

def down : Stage → Stage
  | base extension role => base extension role
  | initial role => base true role
  | secured => initial false
  | priced => secured
  | policies _ => priced
  | head => policies true

def database (stage : Stage) : MigratedDatabase := ⟨stage.revision, stage.schema⟩

def stages : List Stage :=
  [base true true, base true false, base false true, base false false, initial true, initial false,
    secured, priced, policies true, policies false, head]

theorem mem_stages (stage : Stage) : stage ∈ stages := by
  rcases stage with (⟨_ | _, _ | _⟩ | ⟨_ | _⟩ | _ | _ | ⟨_ | _⟩ | _) <;> decide

/-- The same tables, but for what the role may do with sequences, and the same types. -/
def SameTables (s s' : AppSchema) : Prop :=
  s.tables.map (fun table => { table with sequencePrivileges := [] }) =
      s'.tables.map (fun table => { table with sequencePrivileges := [] }) ∧
    s.enums = s'.enums

instance (s s' : AppSchema) : Decidable (SameTables s s') := inferInstanceAs (Decidable (_ ∧ _))

/-- What the statements of each revision make of each stage; each stage is secure, and has the tables of
its revision. All in one evaluation: the stages are built on each other. -/
theorem stages_checked : ∀ stage ∈ stages,
    (∀ migration ∈ migrations[stage.revision]?,
      execAll migration.upgrade stage.schema = .ok stage.up.schema) ∧
    (∀ migration ∈ (migrations.take stage.revision).getLast?,
      execAll migration.downgrade stage.schema = .ok stage.down.schema) ∧
    (∀ table ∈ stage.schema.tables, IsSecure stage.schema table) ∧
    ∀ stage' ∈ stages, stage.revision = stage'.revision → SameTables stage.schema stage'.schema := by
  decide +kernel

variable {stage : Stage} {settings : MigrationSettings} {db : MigratedDatabase}

theorem up_revision (h : stage.revision < 5) : stage.up.revision = stage.revision + 1 := by
  cases stage with
  | head => exact absurd h (by decide)
  | _ => rfl

theorem down_revision : stage.down.revision = stage.revision - 1 := by
  cases stage <;> rfl

theorem upgradeOnce_eq : upgradeOnce settings stage.database =
    match migrations[stage.revision]? with
    | none => .error .noRevision
    | some migration =>
      ((migration.check settings).mapError MigrationError.raised).map fun _ => stage.up.database := by
  show (match migrations[stage.revision]? with
    | none => _
    | some migration => _) = _
  cases hm : migrations[stage.revision]? with
  | none => rfl
  | some migration =>
    have hexec := (stages_checked stage (mem_stages stage)).1 migration hm
    have hlt : stage.revision < 5 := (List.getElem?_eq_some_iff.mp hm).1
    have hdb : stage.up.database = ⟨stage.revision + 1, stage.up.schema⟩ := by
      rw [database, up_revision hlt]
    rw [hdb]
    show ((migration.check settings).mapError _).bind (fun _ => ((execAll migration.upgrade
      stage.schema).mapError MigrationError.refused).bind _) = _
    rw [hexec]
    cases hcheck : migration.check settings <;> simp only [hcheck] <;> rfl

theorem downgradeOnce_eq : downgradeOnce settings stage.database =
    match (migrations.take stage.revision).getLast? with
    | none => .error .noRevision
    | some migration =>
      ((migration.check settings).mapError MigrationError.raised).map fun _ => stage.down.database := by
  show (match (migrations.take stage.revision).getLast? with
    | none => _
    | some migration => _) = _
  cases hm : (migrations.take stage.revision).getLast? with
  | none => rfl
  | some migration =>
    have hexec := (stages_checked stage (mem_stages stage)).2.1 migration hm
    have hdb : stage.down.database = ⟨stage.revision - 1, stage.down.schema⟩ := by
      rw [database, down_revision]
    rw [hdb]
    show ((migration.check settings).mapError _).bind (fun _ => ((execAll migration.downgrade
      stage.schema).mapError MigrationError.refused).bind _) = _
    rw [hexec]
    cases hcheck : migration.check settings <;> simp only [hcheck] <;> rfl

/-- A step from a stage ends in a stage. -/
theorem upgradeOnce_stage (h : upgradeOnce settings stage.database = .ok db) :
    db = stage.up.database := by
  rw [upgradeOnce_eq] at h
  split at h
  · cases h
  · rename_i migration _
    cases hcheck : migration.check settings <;> rw [hcheck] at h <;> cases h
    rfl

theorem downgradeOnce_stage (h : downgradeOnce settings stage.database = .ok db) :
    db = stage.down.database := by
  rw [downgradeOnce_eq] at h
  split at h
  · cases h
  · rename_i migration _
    cases hcheck : migration.check settings <;> rw [hcheck] at h <;> cases h
    rfl

end Stage

section Runs

variable {settings : MigrationSettings} {db db' : MigratedDatabase} {n : Nat}

/-- What each step keeps, all steps keep. -/
theorem steps_keep {step : MigratedDatabase → Except MigrationError MigratedDatabase}
    {p : MigratedDatabase → Prop} (hstep : ∀ db db', p db → step db = .ok db' → p db')
    (hdb : p db) (h : steps step n db = .ok db') : p db' := by
  induction n generalizing db with
  | zero =>
    cases h
    exact hdb
  | succ n ih =>
    cases hone : step db with
    | error e => simp [steps, hone, bind, Except.bind] at h
    | ok db₁ =>
      simp only [steps, hone, bind, Except.bind] at h
      exact ih (hstep db db₁ hdb hone) h

/-- A database of a stage. -/
def IsStaged (db : MigratedDatabase) : Prop := ∃ stage : Stage, db = stage.database

theorem exec_staged {command : MigrationCommand} (hdb : IsStaged db)
    (h : command.exec settings db = .ok db') : IsStaged db' := by
  cases command with
  | upgrade n =>
    refine steps_keep (fun db db' hdb h => ?_) hdb h
    obtain ⟨stage, rfl⟩ := hdb
    exact ⟨stage.up, Stage.upgradeOnce_stage h⟩
  | downgrade n =>
    refine steps_keep (fun db db' hdb h => ?_) hdb h
    obtain ⟨stage, rfl⟩ := hdb
    exact ⟨stage.down, Stage.downgradeOnce_stage h⟩

/-- Every run of commands ends in a stage. -/
theorem runCommands_staged (commands : List (MigrationSettings × MigrationCommand))
    (hdb : IsStaged db) : IsStaged (runCommands db commands) := by
  unfold runCommands
  induction commands generalizing db with
  | nil => exact hdb
  | cons command commands ih =>
    refine ih ?_
    unfold runCommand
    split
    · exact exec_staged hdb ‹_›
    · exact hdb

/-! ### Isolation -/

/-- In every database that a run of upgrades and downgrades leaves, the role can at most read a table
that has nothing to do with customers. With another table it can do nothing, or row security is forced
on it, and it sees the rows that `isolation` allows. -/
theorem migrations_isolate {extension role : Bool}
    {commands : List (MigrationSettings × MigrationCommand)} {s : AppSchema}
    (hs : s = (runCommands (Stage.base extension role).database commands).schema)
    {table : Table TableName EnumName} (htable : table ∈ s.tables) :
    (¬ s.RefersTo .customers table.name ∧ (table.privileges = [] ∨ table.privileges = [.select])) ∨
      table.privileges = [] ∨
      table.rowSecurity = true ∧ table.forced = true ∧
        ∀ (scope : Option Int) (data : Database) (row : Row), row.tableName = table.name →
          shows s scope data row = isolation scope data row := by
  obtain ⟨stage, hstage⟩ := runCommands_staged commands ⟨Stage.base extension role, rfl⟩
  obtain rfl : s = stage.schema := hs.trans (congrArg MigratedDatabase.schema hstage)
  have hsecure := (Stage.stages_checked stage (Stage.mem_stages stage)).2.2.1
  cases hpolicy : policyOf table.name with
  | none =>
    obtain ⟨_, hprivileges⟩ := (hsecure table htable).1 hpolicy
    refine .inl ⟨fun hrefers => ?_, hprivileges⟩
    have hclosed := hrefers.closed (p := fun name => policyOf name = none)
      (fun t ht hnone => ((hsecure t ht).1 hnone).1) hpolicy
    cases hclosed
  | some policy =>
    refine .inr (((hsecure table htable).2 policy hpolicy).imp id ?_)
    rintro ⟨hsecurity, hforced, henforces, hparent⟩
    refine ⟨hsecurity, hforced, fun scope data row hrow => ?_⟩
    rw [← hrow] at hpolicy henforces
    exact shows_isolation hpolicy henforces hparent

/-- A database at its head: the role may do everything with the orders that it sees. -/
theorem head_isolates :
    let s := (runCommands (Stage.base false false).database [(⟨"app", "secret"⟩, .upgrade 5)]).schema
    ∃ table ∈ s.tables, table.name = .orders ∧ table.privileges = crud ∧
      ((¬ s.RefersTo .customers table.name ∧
          (table.privileges = [] ∨ table.privileges = [.select])) ∨
        table.privileges = [] ∨
        table.rowSecurity = true ∧ table.forced = true ∧
          ∀ (scope : Option Int) (data : Database) (row : Row), row.tableName = table.name →
            shows s scope data row = isolation scope data row) := by
  intro s
  have hsome : ∃ table ∈ s.tables, table.name = .orders ∧ table.privileges = crud := by
    decide +kernel
  obtain ⟨table, htable, hname, hprivileges⟩ := hsome
  exact ⟨table, htable, hname, hprivileges, migrations_isolate rfl htable⟩

/-! ### Up and down -/

/-- `APP_DB_USER` and `APP_DB_PASSWORD` are set. -/
def MigrationSettings.IsSet (settings : MigrationSettings) : Prop :=
  settings.appDbUser ≠ [] ∧ settings.appDbPassword ≠ []

theorem check_isSet (hset : settings.IsSet) {migration : Migration}
    (hmigration : migration ∈ migrations) : migration.check settings = .ok () := by
  obtain ⟨huser, hpassword⟩ := hset
  simp only [migrations, List.mem_cons, List.not_mem_nil, or_false] at hmigration
  rcases hmigration with rfl | rfl | rfl | rfl | rfl
  · rfl
  · simp [enableRowLevelSecurity, huser, hpassword]
  · rfl
  · simp [addPolicyChunks, requireUser, huser]
  · simp [addConversations, requireUser, huser]

theorem upgrade_steps (hset : settings.IsSet) (stage : Stage) (h : stage.revision + n ≤ 5) :
    ∃ stage' : Stage, steps (upgradeOnce settings) n stage.database = .ok stage'.database ∧
      stage'.revision = stage.revision + n := by
  induction n generalizing stage with
  | zero => exact ⟨stage, rfl, rfl⟩
  | succ n ih =>
    have hlt : stage.revision < migrations.length := by
      show stage.revision < 5
      omega
    have hm := List.getElem?_eq_getElem hlt
    have hone : upgradeOnce settings stage.database = .ok stage.up.database := by
      rw [Stage.upgradeOnce_eq, hm]
      simp only [check_isSet hset (List.getElem_mem hlt)]
      rfl
    have hup := Stage.up_revision hlt
    obtain ⟨stage', hsteps, hrevision⟩ := ih stage.up (by omega)
    refine ⟨stage', ?_, by omega⟩
    simp only [steps, hone]
    exact hsteps

theorem downgrade_steps (hset : settings.IsSet) (stage : Stage) (h : n ≤ stage.revision) :
    ∃ stage' : Stage, steps (downgradeOnce settings) n stage.database = .ok stage'.database ∧
      stage'.revision = stage.revision - n := by
  induction n generalizing stage with
  | zero => exact ⟨stage, rfl, rfl⟩
  | succ n ih =>
    obtain ⟨migration, hm⟩ : ∃ migration, (migrations.take stage.revision).getLast? = some migration :=
      Option.isSome_iff_exists.mp (by
        rw [List.getLast?_isSome]
        simp [migrations]
        omega)
    have hmem : migration ∈ migrations := List.mem_of_mem_take (List.mem_of_getLast? hm)
    have hone : downgradeOnce settings stage.database = .ok stage.down.database := by
      rw [Stage.downgradeOnce_eq, hm]
      simp only [check_isSet hset hmem]
      rfl
    have hdown : stage.down.revision = stage.revision - 1 := Stage.down_revision
    obtain ⟨stage', hsteps, hrevision⟩ := ih stage.down (by omega)
    refine ⟨stage', ?_, by omega⟩
    simp only [steps, hone]
    exact hsteps

/-- From every database that a run leaves, each revision is one command away, and the tables there are
those of any other run that is at that revision. -/
theorem migrations_reversible (hset : settings.IsSet) {extension role : Bool}
    (commands : List (MigrationSettings × MigrationCommand)) (hn : n ≤ 5) :
    ∃ command db, MigrationCommand.exec settings command
        (runCommands (Stage.base extension role).database commands) = .ok db ∧ db.revision = n ∧
      ∀ (extension' role' : Bool) (commands' : List (MigrationSettings × MigrationCommand)),
        (runCommands (Stage.base extension' role').database commands').revision = n →
        Stage.SameTables db.schema
          (runCommands (Stage.base extension' role').database commands').schema := by
  obtain ⟨stage, hstage⟩ := runCommands_staged commands ⟨Stage.base extension role, rfl⟩
  rw [hstage]
  obtain ⟨command, stage', hexec, hrevision⟩ : ∃ command, ∃ stage' : Stage,
      MigrationCommand.exec settings command stage.database = .ok stage'.database ∧
        stage'.revision = n := by
    by_cases hle : stage.revision ≤ n
    · obtain ⟨stage', hsteps, hrevision⟩ :=
        upgrade_steps (n := n - stage.revision) hset stage (by omega)
      exact ⟨.upgrade (n - stage.revision), stage', hsteps, by omega⟩
    · obtain ⟨stage', hsteps, hrevision⟩ :=
        downgrade_steps (n := stage.revision - n) hset stage (by omega)
      exact ⟨.downgrade (stage.revision - n), stage', hsteps, by omega⟩
  refine ⟨command, stage'.database, hexec, hrevision, fun extension' role' commands' hat => ?_⟩
  obtain ⟨stage₂, hstage₂⟩ := runCommands_staged commands' ⟨Stage.base extension' role', rfl⟩
  rw [hstage₂] at hat ⊢
  exact (Stage.stages_checked stage' (Stage.mem_stages stage')).2.2.2 stage₂ (Stage.mem_stages stage₂)
    (hrevision.trans hat.symm)

/-- From its head, a database gets back to the initial schema. -/
theorem head_reversible : ∃ command db,
    MigrationCommand.exec ⟨"app", "secret"⟩ command
        (runCommands (Stage.base false false).database [(⟨"app", "secret"⟩, .upgrade 5)]) = .ok db ∧
      db.revision = 1 ∧
      ∀ (extension' role' : Bool) (commands' : List (MigrationSettings × MigrationCommand)),
        (runCommands (Stage.base extension' role').database commands').revision = 1 →
        Stage.SameTables db.schema
          (runCommands (Stage.base extension' role').database commands').schema :=
  migrations_reversible ⟨by decide, by decide⟩ _ (by decide)

end Runs

end DealershipAgent
