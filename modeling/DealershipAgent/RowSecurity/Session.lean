import Mathlib.Logic.Function.Basic

/-!
# Connections under row security

A database whose rows are secured by a setting of the connection, as `SET LOCAL` gives it: a
transaction may set it, and at the end of the transaction it reads as some blank value again.

* `Secured`: what a statement sees of a database under a value of the setting, and which rows it may
  insert.
* `World`: the committed database and any number of connections. `select`, `insert`, `begin`, `enter`,
  `finish`: what a connection can do. `step`, `run`: the same as actions.
* `placeOf`: where a connection is, read off the actions alone: idle, in a transaction, or in one that
  was entered with a value of the setting.
* `run_at`: after every run the setting of every connection is the one of its place. No value leaks
  into a later transaction.
-/

namespace RowSecurity

/-- Row security of databases `D` with rows `R` by settings `S`. Deciding it may raise an `ε`. -/
structure Secured (S D R ε : Type) where
  /-- The database with one more row. -/
  insert : D → R → D
  /-- The part of the database that a statement sees. -/
  visible : S → D → Except ε D
  /-- A statement may insert the row. -/
  admits : S → D → R → Except ε Bool

/-- Why a statement fails. -/
inductive Fault (ε : Type) where
  /-- The connection is in a transaction already. -/
  | begun
  /-- An earlier statement of the transaction has failed. -/
  | aborted
  /-- The row is not one that the setting admits. -/
  | denied
  /-- The row breaks another constraint. -/
  | rejected
  | raised (e : ε)
deriving DecidableEq, Repr

/-- A transaction: the rows that it has inserted, and whether a statement has failed. -/
structure Tx (R : Type) where
  pending : List R := []
  aborted : Bool := false

structure Session (S R : Type) where
  setting : S
  tx : Option (Tx R) := none

/-- The transaction that a statement runs in; a statement begins one if there is none. -/
def Session.current {S R : Type} (s : Session S R) : Tx R := s.tx.getD {}

/-- The committed database, and the connections `K`. -/
structure World (K S D R : Type) where
  committed : D
  session : K → Session S R

/-- What a connection does. -/
inductive Action (K S R : Type) where
  /-- Begin a transaction. -/
  | begin (k : K)
  /-- Begin a transaction and set the setting for it. -/
  | enter (k : K) (s : S)
  | select (k : K)
  /-- Insert a row, which the constraints other than row security accept or not. -/
  | insert (k : K) (r : R) (accepted : Bool)
  /-- Commit or roll back, after which the setting reads as `after`. -/
  | finish (k : K) (commit : Bool) (after : S)

/-- The connection that acts. -/
def Action.on {K S R : Type} : Action K S R → K
  | begin k => k
  | enter k _ => k
  | select k => k
  | insert k _ _ => k
  | finish k _ _ => k

section Operations

variable {K S D R ε : Type} [DecidableEq K] (sec : Secured S D R ε)

/-- The world before anything: every connection is idle. -/
def start (blank : S) (d : D) : World K S D R := ⟨d, fun _ => { setting := blank }⟩

def World.put (w : World K S D R) (k : K) (s : Session S R) : World K S D R :=
  { w with session := Function.update w.session k s }

/-- What is in the database for the connection: what is committed and what it has inserted. -/
def seen (w : World K S D R) (k : K) : D :=
  (w.session k).current.pending.foldl sec.insert w.committed

def begin (w : World K S D R) (k : K) : Except (Fault ε) (World K S D R) :=
  match (w.session k).tx with
  | some _ => .error .begun
  | none => .ok (w.put k { w.session k with tx := some {} })

def setLocal (w : World K S D R) (k : K) (s : S) : World K S D R :=
  w.put k { w.session k with setting := s }

def enter (w : World K S D R) (k : K) (s : S) : Except (Fault ε) (World K S D R) :=
  (begin w k).map fun w' => setLocal w' k s

/-- The world with the transaction of `k` as `tx`. -/
def World.setTx (w : World K S D R) (k : K) (tx : Tx R) : World K S D R :=
  w.put k { w.session k with tx := some tx }

/-- A statement that reads: all that it can compute from is what it sees. -/
def select (w : World K S D R) (k : K) : World K S D R × Except (Fault ε) D :=
  let tx := (w.session k).current
  if tx.aborted then (w, .error .aborted)
  else match sec.visible (w.session k).setting (seen sec w k) with
    | .ok d => (w.setTx k tx, .ok d)
    | .error e => (w.setTx k { tx with aborted := true }, .error (.raised e))

def insert (w : World K S D R) (k : K) (r : R) (accepted : Bool) :
    World K S D R × Except (Fault ε) Unit :=
  let tx := (w.session k).current
  if tx.aborted then (w, .error .aborted)
  else match sec.admits (w.session k).setting (seen sec w k) r with
    | .ok true =>
      if accepted then (w.setTx k { tx with pending := tx.pending ++ [r] }, .ok ())
      else (w.setTx k { tx with aborted := true }, .error .rejected)
    | .ok false => (w.setTx k { tx with aborted := true }, .error .denied)
    | .error e => (w.setTx k { tx with aborted := true }, .error (.raised e))

/-- Commit or roll back. A transaction with a failed statement is rolled back. -/
def finish (w : World K S D R) (k : K) (commit : Bool) (after : S) : World K S D R :=
  match (w.session k).tx with
  | none => w
  | some tx =>
    { committed := if commit && !tx.aborted then tx.pending.foldl sec.insert w.committed
        else w.committed,
      session := Function.update w.session k { setting := after } }

/-- The world after an action; one that fails at once changes nothing. -/
def step (w : World K S D R) : Action K S R → World K S D R
  | .begin k => (begin (ε := ε) w k).toOption.getD w
  | .enter k s => (enter (ε := ε) w k s).toOption.getD w
  | .select k => (select sec w k).1
  | .insert k r accepted => (insert sec w k r accepted).1
  | .finish k commit after => finish sec w k commit after

def run (w : World K S D R) (actions : List (Action K S R)) : World K S D R :=
  actions.foldl (step sec) w

end Operations

/-! ## Where a connection is -/

/-- A connection is idle, in a transaction, or in a transaction entered with the value `s`. -/
inductive Place (S : Type) where
  | idle
  | plain
  | scope (s : S)
deriving DecidableEq, Repr

section Places

variable {K S D R ε : Type} [DecidableEq K] {sec : Secured S D R ε}

/-- The place of a connection after an action of its own. -/
def Place.afterOwn : Place S → Action K S R → Place S
  | .idle, .begin _ => .plain
  | .idle, .enter _ s => .scope s
  | .idle, .select _ => .plain
  | .idle, .insert _ _ _ => .plain
  | _, .finish _ _ _ => .idle
  | p, _ => p

/-- The place of the connection `k` after an action. -/
def Place.after (k : K) (p : Place S) (a : Action K S R) : Place S :=
  if a.on = k then p.afterOwn a else p

/-- The place of the connection `k` after some actions. -/
def placeOf (k : K) (actions : List (Action K S R)) : Place S :=
  actions.foldl (Place.after k) .idle

/-- The session is as its place has it, with blank settings outside of scopes. -/
def Session.At (blank : S → Prop) (s : Session S R) : Place S → Prop
  | .idle => s.tx = none ∧ blank s.setting
  | .plain => (∃ tx, s.tx = some tx) ∧ blank s.setting
  | .scope v => (∃ tx, s.tx = some tx) ∧ s.setting = v

@[simp] theorem put_session_self (w : World K S D R) (k : K) (s : Session S R) :
    (w.put k s).session k = s := Function.update_self ..

theorem put_session_ne (w : World K S D R) {k k' : K} (s : Session S R) (h : k' ≠ k) :
    (w.put k s).session k' = w.session k' := Function.update_of_ne h ..

theorem put_put_ne (w : World K S D R) {k k' : K} (s s' : Session S R) (h : k' ≠ k) :
    (w.put k s).put k' s' = (w.put k' s').put k s := by
  unfold World.put
  simp only [Function.update_comm h]

theorem put_session (w : World K S D R) (k : K) : w.put k (w.session k) = w := by
  unfold World.put
  rw [Function.update_eq_self]

/-- A failed transaction is one that has begun. -/
theorem setTx_of_aborted {w : World K S D R} {k : K}
    (h : (w.session k).current.aborted = true) : w.setTx k (w.session k).current = w := by
  unfold World.setTx Session.current
  cases htx : (w.session k).tx with
  | none =>
    rw [Session.current, htx] at h
    cases h
  | some tx =>
    rw [Option.getD_some, ← htx]
    exact put_session w k

variable (sec) in
/-- A statement changes the transaction of its connection. -/
theorem select_world (w : World K S D R) (k : K) :
    ∃ tx, (select sec w k).1 = w.setTx k tx := by
  unfold select
  by_cases ha : (w.session k).current.aborted = true
  · simp only [ha, if_true]
    exact ⟨(w.session k).current, (setTx_of_aborted ha).symm⟩
  · simp only [ha, Bool.false_eq_true, if_false]
    cases sec.visible (w.session k).setting (seen sec w k) with
    | ok d => exact ⟨_, rfl⟩
    | error e => exact ⟨_, rfl⟩

variable (sec) in
theorem insert_world (w : World K S D R) (k : K) (r : R) (accepted : Bool) :
    ∃ tx, (insert sec w k r accepted).1 = w.setTx k tx := by
  unfold insert
  by_cases ha : (w.session k).current.aborted = true
  · simp only [ha, if_true]
    exact ⟨(w.session k).current, (setTx_of_aborted ha).symm⟩
  · simp only [ha, Bool.false_eq_true, if_false]
    cases sec.admits (w.session k).setting (seen sec w k) r with
    | error e => exact ⟨_, rfl⟩
    | ok b =>
      cases b with
      | false => exact ⟨_, rfl⟩
      | true => cases accepted <;> exact ⟨_, rfl⟩

/-- What a statement has seen. -/
theorem select_ok {w : World K S D R} {k : K} {d : D} (h : (select sec w k).2 = .ok d) :
    sec.visible (w.session k).setting (seen sec w k) = .ok d := by
  unfold select at h
  by_cases ha : (w.session k).current.aborted = true
  · simp only [ha, if_true] at h
    cases h
  · simp only [ha, Bool.false_eq_true, if_false] at h
    cases hv : sec.visible (w.session k).setting (seen sec w k) with
    | ok d' =>
      rw [hv] at h
      cases h
      rfl
    | error e =>
      rw [hv] at h
      cases h

theorem select_eq {w : World K S D R} {k : K} (h : (w.session k).current.aborted = false) :
    (select sec w k).2 =
      (sec.visible (w.session k).setting (seen sec w k)).mapError Fault.raised := by
  unfold select
  simp only [h, Bool.false_eq_true, if_false]
  cases sec.visible (w.session k).setting (seen sec w k) <;> rfl

/-- A row that a statement has inserted was admitted, and the connection sees it. -/
theorem insert_ok {w : World K S D R} {k : K} {r : R} {accepted : Bool}
    (h : (insert sec w k r accepted).2 = .ok ()) :
    sec.admits (w.session k).setting (seen sec w k) r = .ok true ∧
      seen sec (insert sec w k r accepted).1 k = sec.insert (seen sec w k) r := by
  unfold insert at h ⊢
  by_cases ha : (w.session k).current.aborted = true
  · simp only [ha, if_true] at h
    cases h
  · simp only [ha, Bool.false_eq_true, if_false] at h ⊢
    rcases hv : sec.admits (w.session k).setting (seen sec w k) r with e | _ | _
    · rw [hv] at h
      cases h
    · rw [hv] at h
      cases h
    · rw [hv] at h
      cases accepted with
      | false => cases h
      | true =>
        refine ⟨rfl, ?_⟩
        change seen sec (w.setTx k _) k = _
        unfold seen World.setTx
        rw [put_session_self]
        exact List.foldl_append ..

/-- The actions of other connections neither see nor change a session. -/
theorem step_put {w : World K S D R} {k : K} {a : Action K S R} (s : Session S R) (h : a.on ≠ k) :
    step sec (w.put k s) a = (step sec w a).put k s := by
  have hs : (w.put k s).session a.on = w.session a.on := put_session_ne w s h
  have hseen : seen sec (w.put k s) a.on = seen sec w a.on := by
    unfold seen
    rw [hs]
    rfl
  cases a with
  | begin k' =>
    change (w.put k s).session k' = w.session k' at hs
    simp only [step, begin, hs]
    cases (w.session k').tx with
    | some tx => rfl
    | none => exact put_put_ne w _ _ h
  | enter k' v =>
    change (w.put k s).session k' = w.session k' at hs
    simp only [step, enter, begin, hs]
    cases (w.session k').tx with
    | some tx => rfl
    | none =>
      have hne : k' ≠ k := h
      change setLocal ((w.put k s).put k' _) k' v = (setLocal (w.put k' _) k' v).put k s
      unfold setLocal
      rw [put_put_ne w _ _ hne, put_put_ne _ _ _ hne, put_session_ne _ _ hne]
  | select k' =>
    change (w.put k s).session k' = w.session k' at hs
    change seen sec (w.put k s) k' = seen sec w k' at hseen
    simp only [step, select, hs, hseen]
    by_cases ha : (w.session k').current.aborted = true
    · simp only [ha, if_true]
    · simp only [ha, Bool.false_eq_true, if_false]
      cases sec.visible (w.session k').setting (seen sec w k') <;>
        simp only [World.setTx, hs] <;> exact put_put_ne w _ _ h
  | insert k' r accepted =>
    change (w.put k s).session k' = w.session k' at hs
    change seen sec (w.put k s) k' = seen sec w k' at hseen
    simp only [step, insert, hs, hseen]
    by_cases ha : (w.session k').current.aborted = true
    · simp only [ha, if_true]
    · simp only [ha, Bool.false_eq_true, if_false]
      rcases sec.admits (w.session k').setting (seen sec w k') r with e | _ | _ <;>
        cases accepted <;> simp only [World.setTx, hs] <;> exact put_put_ne w _ _ h
  | finish k' commit after =>
    change (w.put k s).session k' = w.session k' at hs
    simp only [step, finish, hs]
    cases (w.session k').tx with
    | none => rfl
    | some tx =>
      have hne : k' ≠ k := h
      unfold World.put
      simp only [Function.update_comm hne]

/-- The actions of other connections leave a session as it is. -/
theorem step_session_ne {w : World K S D R} {k : K} {a : Action K S R} (h : a.on ≠ k) :
    (step sec w a).session k = w.session k := by
  have hput : step sec (w.put k (w.session k)) a = (step sec w a).put k (w.session k) :=
    step_put (w.session k) h
  rw [put_session] at hput
  rw [hput, put_session_self]

/-- The setting reads as a blank value after the transactions that the action ends. -/
def Action.Blanks (blank : S → Prop) : Action K S R → Prop
  | finish _ _ after => blank after
  | _ => True

/-- A statement on an idle connection begins a transaction. -/
theorem setTx_at {blank : S → Prop} {w : World K S D R} {k : K} {p : Place S} {tx : Tx R}
    {a : Action K S R} (h : (w.session k).At blank p)
    (ha : a = .select k ∨ ∃ r accepted, a = .insert k r accepted) :
    ((w.setTx k tx).session k).At blank (p.afterOwn a) := by
  unfold World.setTx
  rw [put_session_self]
  rcases ha with rfl | ⟨r, accepted, rfl⟩ <;> cases p <;> exact ⟨⟨tx, rfl⟩, h.2⟩

/-- A connection in a transaction cannot begin one. -/
theorem begin_at {blank : S → Prop} {w : World K S D R} {k : K} {p : Place S}
    (h : (w.session k).At blank p) :
    (p = .idle ∧ begin (ε := ε) w k = .ok (w.put k { w.session k with tx := some {} })) ∨
      (p ≠ .idle ∧ begin (ε := ε) w k = .error .begun) := by
  unfold begin
  cases p with
  | idle => exact .inl ⟨rfl, by rw [h.1]⟩
  | plain =>
    obtain ⟨⟨tx, htx⟩, -⟩ := h
    exact .inr ⟨by simp, by rw [htx]⟩
  | scope v =>
    obtain ⟨⟨tx, htx⟩, -⟩ := h
    exact .inr ⟨by simp, by rw [htx]⟩

/-- An action keeps its own session as the place has it. -/
theorem step_own_at {blank : S → Prop} {w : World K S D R} {p : Place S} {a : Action K S R}
    (h : (w.session a.on).At blank p) (hb : a.Blanks blank) :
    ((step sec w a).session a.on).At blank (p.afterOwn a) := by
  cases a with
  | begin k =>
    change (w.session k).At blank p at h
    change ((step sec w (.begin k)).session k).At blank _
    rcases begin_at (ε := ε) h with ⟨rfl, hbegin⟩ | ⟨hp, hbegin⟩
    · rw [step, hbegin]
      change ((w.put k _).session k).At blank _
      rw [put_session_self]
      exact ⟨⟨{}, rfl⟩, h.2⟩
    · rw [step, hbegin]
      cases p with
      | idle => exact absurd rfl hp
      | plain => exact h
      | scope v => exact h
  | enter k v =>
    change (w.session k).At blank p at h
    change ((step sec w (.enter k v)).session k).At blank _
    rcases begin_at (ε := ε) h with ⟨rfl, hbegin⟩ | ⟨hp, hbegin⟩
    · rw [step, enter, hbegin]
      change (((w.put k _).put k _).session k).At blank _
      rw [put_session_self, put_session_self]
      exact ⟨⟨{}, rfl⟩, rfl⟩
    · rw [step, enter, hbegin]
      cases p with
      | idle => exact absurd rfl hp
      | plain => exact h
      | scope v => exact h
  | select k =>
    obtain ⟨tx, htx⟩ := select_world sec w k
    rw [step, htx]
    exact setTx_at h (.inl rfl)
  | insert k r accepted =>
    obtain ⟨tx, htx⟩ := insert_world sec w k r accepted
    rw [step, htx]
    exact setTx_at h (.inr ⟨r, accepted, rfl⟩)
  | finish k commit after =>
    change (w.session k).At blank p at h
    change ((finish sec w k commit after).session k).At blank _
    have hidle : p.afterOwn (.finish k commit after : Action K S R) = .idle := by cases p <;> rfl
    rw [hidle, finish]
    cases htx : (w.session k).tx with
    | some tx =>
      change (Function.update w.session k _ k).At blank _
      rw [Function.update_self]
      exact ⟨rfl, hb⟩
    | none =>
      cases p with
      | idle => exact h
      | plain =>
        obtain ⟨⟨tx, htx'⟩, -⟩ := h
        rw [htx] at htx'
        cases htx'
      | scope v =>
        obtain ⟨⟨tx, htx'⟩, -⟩ := h
        rw [htx] at htx'
        cases htx'

/-- A step keeps every session as its place has it. -/
theorem step_at {blank : S → Prop} {w : World K S D R} {k : K} {p : Place S} {a : Action K S R}
    (h : (w.session k).At blank p) (hb : a.Blanks blank) :
    ((step sec w a).session k).At blank (p.after k a) := by
  unfold Place.after
  by_cases hk : a.on = k
  · subst hk
    rw [if_pos rfl]
    exact step_own_at h hb
  · rw [if_neg hk, step_session_ne hk]
    exact h

/-- After every run every session is as its place has it. -/
theorem run_at {blank : S → Prop} {v : S} {d : D} {actions : List (Action K S R)} (hv : blank v)
    (hb : ∀ a ∈ actions, a.Blanks blank) (k : K) :
    ((run sec (start v d) actions).session k).At blank (placeOf k actions) := by
  have hrun : ∀ (actions : List (Action K S R)) (w : World K S D R) (p : Place S),
      (w.session k).At blank p → (∀ a ∈ actions, a.Blanks blank) →
        ((run sec w actions).session k).At blank (actions.foldl (Place.after k) p) := by
    intro actions
    induction actions with
    | nil => exact fun w p h _ => h
    | cons a actions ih =>
      intro w p h hb
      obtain ⟨ha, hrest⟩ := List.forall_mem_cons.mp hb
      exact ih (step sec w a) _ (step_at h ha) hrest
  exact hrun actions (start v d) .idle ⟨rfl, hv⟩ hb

end Places

end RowSecurity
