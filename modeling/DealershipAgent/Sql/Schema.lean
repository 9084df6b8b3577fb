import DealershipAgent.Py.Str

/-!
# Schemas

Tables with their columns, foreign keys, indexes and row security, what one role may do with them, and
the statements that change a schema. A statement is refused where the database refuses it.

* `Statement.exec`: what a statement does; `execAll`: several, in one transaction.
* `Schema.visible`: whether the role sees a row, by the policies of its table.
* `Schema.RefersTo`: which tables refer to a table, directly or through others; `RefersTo.closed`.
-/

namespace Sql

open Py

/-! ## Tables -/

inductive Privilege where
  | select
  | insert
  | update
  | delete
  | usage
deriving DecidableEq, Repr

/-- A policy under the value of a scope, the same for `USING` and `WITH CHECK`. -/
inductive Policy (T : Type) where
  /-- `name = scope` -/
  | column (name : Str)
  /-- `key IN (SELECT id FROM table WHERE owner = scope)` -/
  | parent (key : Str) (table : T) (owner : Str)
deriving DecidableEq

structure Table (T E : Type) where
  name : T
  columns : List Str
  /-- Each with the table that it refers to, by its `id`. -/
  foreignKeys : List (Str × T) := []
  /-- The types of its columns: enumerations, and types of extensions. -/
  enums : List E := []
  extensionsUsed : List Str := []
  indexes : List (Str × List Str) := []
  rowSecurity : Bool := false
  forced : Bool := false
  policies : List (Str × Policy T) := []
  /-- What the role may do. -/
  privileges : List Privilege := []
  /-- What the role may do with the sequence of its ids. -/
  sequencePrivileges : List Privilege := []
deriving DecidableEq

structure Schema (T E : Type) where
  tables : List (Table T E) := []
  enums : List E := []
  extensions : List Str := []
  /-- Whether there is the role. -/
  role : Bool := false
  connect : Bool := false
  usage : Bool := false
deriving DecidableEq

inductive Refusal where
  | undefined
  | duplicate
  | dependent
deriving DecidableEq, Repr

/-! ## Statements -/

inductive Statement (T E : Type) where
  /-- `CREATE EXTENSION IF NOT EXISTS` -/
  | createExtension (name : Str)
  | createType (enum : E)
  /-- `DROP TYPE IF EXISTS` -/
  | dropType (enum : E)
  | createTable (table : Table T E)
  | dropTable (name : T)
  | addColumn (table : T) (column : Str)
  | dropColumn (table : T) (column : Str)
  | createIndex (index : Str) (table : T) (columns : List Str)
  | dropIndex (index : Str) (table : T)
  /-- `IF NOT EXISTS (..) THEN CREATE ROLE` -/
  | createRole
  /-- `DROP ROLE IF EXISTS` -/
  | dropRole
  /-- `CONNECT` on the database is granted or revoked. -/
  | connect (on : Bool)
  /-- `USAGE` on the schema is granted or revoked. -/
  | usage (on : Bool)
  | grant (privileges : List Privilege) (tables : List T)
  /-- `REVOKE ALL PRIVILEGES` -/
  | revoke (tables : List T)
  /-- `GRANT .. ON ALL SEQUENCES` -/
  | grantSequences (privileges : List Privilege)
  | revokeSequences
  /-- `ENABLE` or `DISABLE ROW LEVEL SECURITY` -/
  | rowSecurity (table : T) (on : Bool)
  /-- `FORCE` or `NO FORCE ROW LEVEL SECURITY` -/
  | force (table : T) (on : Bool)
  | createPolicy (policy : Str) (table : T) (expression : Policy T)
  /-- `DROP POLICY IF EXISTS` -/
  | dropPolicy (policy : Str) (table : T)

section Exec

variable {T E : Type} [DecidableEq T] [DecidableEq E]

namespace Schema

def find (s : Schema T E) (name : T) : Option (Table T E) :=
  s.tables.find? fun table => table.name = name

/-- A table is replaced. -/
def alter (s : Schema T E) (name : T) (f : Table T E → Except Refusal (Table T E)) :
    Except Refusal (Schema T E) :=
  match s.find name with
  | none => .error .undefined
  | some table => do
    let table ← f table
    return { s with tables := s.tables.map fun t => if t.name = name then table else t }

/-- Another table refers to the table, by a foreign key or in a policy. -/
def isNeeded (s : Schema T E) (name : T) : Bool :=
  s.tables.any fun t => t.name ≠ name && ((t.foreignKeys.any fun key => key.2 = name) ||
    t.policies.any fun policy =>
      match policy.2 with
      | .column _ => false
      | .parent _ table _ => table = name)

/-- The policy is about columns that there are. -/
def canHold (s : Schema T E) (table : Table T E) : Policy T → Bool
  | .column column => column ∈ table.columns
  | .parent key parent column => key ∈ table.columns &&
    (s.find parent).any fun t => str "id" ∈ t.columns && column ∈ t.columns

/-- A policy uses the column. -/
def usesColumn (s : Schema T E) (name : T) (column : Str) : Bool :=
  s.tables.any fun t => t.policies.any fun policy =>
    match policy.2 with
    | .column column' => t.name = name && column' = column
    | .parent key table column' =>
      (t.name = name && key = column) || (table = name && (column' = column || str "id" = column))

/-- The role may do something. -/
def isGranted (s : Schema T E) : Bool :=
  s.connect || s.usage ||
    s.tables.any fun t => !t.privileges.isEmpty || !t.sequencePrivileges.isEmpty

end Schema

/-- Where there is the role. -/
def forRole (s : Schema T E) (x : Except Refusal (Schema T E)) : Except Refusal (Schema T E) :=
  if s.role then x else .error .undefined

def Statement.exec (s : Schema T E) : Statement T E → Except Refusal (Schema T E)
  | .createExtension name => .ok { s with extensions := s.extensions.insert name }
  | .createType enum =>
    if enum ∈ s.enums then .error .duplicate else .ok { s with enums := s.enums ++ [enum] }
  | .dropType enum =>
    if s.tables.any fun t => enum ∈ t.enums then .error .dependent
    else .ok { s with enums := s.enums.erase enum }
  | .createTable table =>
    if (s.find table.name).isSome then .error .duplicate
    else if (table.foreignKeys.all fun key => key.1 ∈ table.columns && (s.find key.2).isSome) &&
        (table.enums.all fun enum => enum ∈ s.enums) &&
        table.extensionsUsed.all fun name => name ∈ s.extensions then
      .ok { s with tables := s.tables ++ [table] }
    else .error .undefined
  | .dropTable name =>
    if (s.find name).isNone then .error .undefined
    else if s.isNeeded name then .error .dependent
    else .ok { s with tables := s.tables.filter fun t => t.name ≠ name }
  | .addColumn table column => s.alter table fun t =>
    if column ∈ t.columns then .error .duplicate
    else .ok { t with columns := t.columns ++ [column] }
  | .dropColumn table column => s.alter table fun t =>
    if column ∉ t.columns then .error .undefined
    else if s.usesColumn table column then .error .dependent
    else .ok { t with
      columns := t.columns.erase column
      foreignKeys := t.foreignKeys.filter fun key => key.1 ≠ column
      indexes := t.indexes.filter fun index => column ∉ index.2 }
  | .createIndex index table columns => s.alter table fun t =>
    if s.tables.any fun t => t.indexes.any fun i => i.1 = index then .error .duplicate
    else if columns.all (· ∈ t.columns) then .ok { t with indexes := t.indexes ++ [(index, columns)] }
    else .error .undefined
  | .dropIndex index table => s.alter table fun t =>
    if t.indexes.any fun i => i.1 = index then
      .ok { t with indexes := t.indexes.filter fun i => i.1 ≠ index }
    else .error .undefined
  | .createRole => .ok { s with role := true }
  | .dropRole =>
    if s.role && s.isGranted then .error .dependent else .ok { s with role := false }
  | .connect on => forRole s (.ok { s with connect := on })
  | .usage on => forRole s (.ok { s with usage := on })
  | .grant privileges tables => forRole s (tables.foldlM (fun s table => s.alter table fun t =>
      .ok { t with privileges := t.privileges.union privileges }) s)
  | .revoke tables => forRole s (tables.foldlM (fun s table => s.alter table fun t =>
      .ok { t with privileges := [] }) s)
  | .grantSequences privileges => forRole s (.ok { s with
      tables := s.tables.map fun t =>
        { t with sequencePrivileges := t.sequencePrivileges.union privileges } })
  | .revokeSequences => forRole s (.ok { s with
      tables := s.tables.map fun t => { t with sequencePrivileges := [] } })
  | .rowSecurity table on => s.alter table fun t => .ok { t with rowSecurity := on }
  | .force table on => s.alter table fun t => .ok { t with forced := on }
  | .createPolicy policy table expression => s.alter table fun t =>
    if t.policies.any fun p => p.1 = policy then .error .duplicate
    else if s.canHold t expression then
      .ok { t with policies := t.policies ++ [(policy, expression)] }
    else .error .undefined
  | .dropPolicy policy table => s.alter table fun t =>
    .ok { t with policies := t.policies.filter fun p => p.1 ≠ policy }

/-- All the statements, or none. -/
def execAll (statements : List (Statement T E)) (s : Schema T E) : Except Refusal (Schema T E) :=
  statements.foldlM Statement.exec s

end Exec

/-! ## Rows under the policies -/

section Visible

variable {T E R : Type} [DecidableEq T] (tableOf : R → T) (rows : T → List R)
  (value : R → Str → Option Int) (scope : Option Int)

/-- The column is the scope; a comparison with `NULL` is not true. -/
def inScope (r : R) (column : Str) : Bool :=
  (value r column).isSome && value r column = scope

/-- The policy is true of a row, where `seen` are the rows that its subquery sees. -/
def Policy.holds (seen : R → Bool) (r : R) : Policy T → Bool
  | .column name => inScope value scope r name
  | .parent key table owner =>
    (value r key).isSome && (((rows table).filter seen).filter fun p => inScope value scope p owner).any
      fun p => value p "id" = value r key

/-- The role sees the row. A table with row security shows what one of its policies allows; `depth`
bounds the policies inside of policies. -/
def Schema.visible (s : Schema T E) (depth : Nat) (r : R) : Bool :=
  match depth with
  | 0 => false
  | depth + 1 => (s.find (tableOf r)).any fun table => !table.rowSecurity ||
    table.policies.any fun policy => policy.2.holds rows value scope (visible s depth) r

end Visible

/-! ## Foreign keys -/

section Keys

variable {T E : Type} {s : Schema T E} {target t : T}

inductive Schema.RefersTo (s : Schema T E) (target : T) : T → Prop
  | self : s.RefersTo target target
  | key {table : Table T E} {column : Str} {parent : T} : table ∈ s.tables →
      (column, parent) ∈ table.foreignKeys → s.RefersTo target parent → s.RefersTo target table.name

/-- Tables that refer to each other only do not refer to any other one. -/
theorem Schema.RefersTo.closed {p : T → Prop} (h : s.RefersTo target t)
    (hclosed : ∀ table ∈ s.tables, p table.name → ∀ key ∈ table.foreignKeys, p key.2)
    (ht : p t) : p target := by
  induction h with
  | self => exact ht
  | key htable hkey _ ih => exact ih (hclosed _ htable ht _ hkey)

end Keys

end Sql
