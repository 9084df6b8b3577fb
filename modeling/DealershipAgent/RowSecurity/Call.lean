import DealershipAgent.Interact.Prog
import DealershipAgent.RowSecurity.Session

/-!
# Calls on a scoped connection

A function that enters a scope on an idle connection, reads, and leaves, while other connections act
between its statements.

* `Reader`: such a function, a program that asks for what its next statement sees.
* `call`: its run. `call_eq`: its result is a function of what the committed databases show under its
  own setting (`answers`), one database for each statement.
* `alone`: a function that may insert too, on a connection that nobody else disturbs.
-/

namespace RowSecurity

open Interact

/-- A function that reads: a request is a statement, answered by what it sees. -/
abbrev Reader (D ε α : Type) : Type := Prog Unit (fun _ => D) (Fault ε) α

section Call

variable {K S D R ε α : Type} [DecidableEq K] (sec : Secured S D R ε)

/-- The other connections act. -/
def meanwhile (k : K) (w : World K S D R) (others : List (Action K S R)) : World K S D R :=
  run sec w (others.filter fun a => decide (a.on ≠ k))

/-- The statements of `p`, from the `i`-th on; before that one the others do `others i`. -/
def statements (k : K) (others : Nat → List (Action K S R)) :
    Nat → World K S D R → Reader D ε α → World K S D R × Except (Fault ε) α
  | _, w, .ret a => (w, .ok a)
  | _, w, .raise e => (w, .error e)
  | i, w, .ask _ f =>
    match select sec (meanwhile sec k w (others i)) k with
    | (w', .ok d) => statements k others (i + 1) w' (f d)
    | (w', .error e) => (w', .error e)

/-- `p` in a transaction with the setting `s`, which it rolls back if it raises. -/
def call (k : K) (s : S) (others : Nat → List (Action K S R)) (after : S) (w : World K S D R)
    (p : Reader D ε α) : World K S D R × Except (Fault ε) α :=
  match enter w k s with
  | .error e => (w, .error e)
  | .ok w' =>
    let (w'', out) := statements sec k others 0 w' p
    (finish sec w'' k out.isOk after, out)

/-- The world without the call's own actions, after `i` turns of the others. -/
def before (k : K) (others : Nat → List (Action K S R)) (w : World K S D R) : Nat → World K S D R
  | 0 => w
  | i + 1 => meanwhile sec k (before k others w i) (others i)

/-- The result of `p` from its `i`-th statement on, when the `j`-th statement sees `views j`. -/
def answers (views : Nat → Except ε D) : Nat → Reader D ε α → Except (Fault ε) α
  | _, .ret a => .ok a
  | _, .raise e => .error e
  | i, .ask _ f =>
    match views i with
    | .ok d => answers views (i + 1) (f d)
    | .error e => .error (.raised e)

variable {sec} {k : K} {s : S} {others : Nat → List (Action K S R)} {w : World K S D R}

theorem meanwhile_put (v : Session S R) (acts : List (Action K S R)) :
    meanwhile sec k (w.put k v) acts = (meanwhile sec k w acts).put k v := by
  unfold meanwhile
  have hne : ∀ a ∈ acts.filter (fun a => decide (a.on ≠ k)), a.on ≠ k := by
    intro a ha
    exact of_decide_eq_true (List.mem_filter.mp ha).2
  generalize acts.filter (fun a => decide (a.on ≠ k)) = l at hne
  induction l generalizing w with
  | nil => rfl
  | cons a l ih =>
    obtain ⟨ha, hl⟩ := List.forall_mem_cons.mp hne
    change run sec (step sec (w.put k v) a) l = (run sec (step sec w a) l).put k v
    rw [step_put v ha]
    exact ih hl

/-- The others neither see nor change the session of the call. -/
theorem before_put (v : Session S R) (i : Nat) :
    before sec k others (w.put k v) i = (before sec k others w i).put k v := by
  induction i with
  | zero => rfl
  | succ i ih => rw [before, ih, meanwhile_put, before]

theorem before_session (i : Nat) : (before sec k others w i).session k = w.session k := by
  have h : before sec k others (w.put k (w.session k)) i =
      (before sec k others w i).put k (w.session k) := before_put (w.session k) i
  rw [put_session] at h
  rw [h, put_session_self]

/-- The statements see the committed databases under the call's setting. -/
theorem statements_eq (hs : w.session k = ⟨s, some {}⟩) (p : Reader D ε α) (i : Nat) :
    (statements sec k others i (before sec k others w i) p).2 =
      answers (fun j => sec.visible s (before sec k others w (j + 1)).committed) i p := by
  induction p generalizing i with
  | ret a => rfl
  | raise e => rfl
  | ask r f ih =>
    have hw : (before sec k others w (i + 1)).session k = ⟨s, some {}⟩ :=
      (before_session (i + 1)).trans hs
    have hstay : (before sec k others w (i + 1)).setTx k {} = before sec k others w (i + 1) := by
      have hput := put_session (before sec k others w (i + 1)) k
      rw [hw] at hput
      unfold World.setTx
      rw [hw]
      exact hput
    rw [statements, answers]
    change (match select sec (before sec k others w (i + 1)) k with
      | (w', .ok d) => statements sec k others (i + 1) w' (f d)
      | (w', .error e) => (w', .error e)).2 = _
    have hseen : seen sec (before sec k others w (i + 1)) k =
        (before sec k others w (i + 1)).committed := by
      unfold seen
      rw [hw]
      rfl
    unfold select
    simp only [hw, Session.current, Option.getD_some, Bool.false_eq_true, if_false, hseen]
    cases sec.visible s (before sec k others w (i + 1)).committed with
    | error e => rfl
    | ok d =>
      simp only [hstay]
      exact ih d (i + 1)

/-- The result of a call on an idle connection. -/
theorem call_eq (h : (w.session k).tx = none) (after : S) (p : Reader D ε α) :
    (call sec k s others after w p).2 =
      answers (fun j => sec.visible s (before sec k others w (j + 1)).committed) 0 p := by
  have henter : enter (ε := ε) w k s = .ok (w.put k ⟨s, some {}⟩) := by
    unfold enter begin
    rw [h]
    change Except.ok (setLocal (w.put k _) k s) = _
    unfold setLocal
    rw [put_session_self]
    unfold World.put
    rw [Function.update_idem]
  unfold call
  rw [henter]
  have hentered : (w.put k ⟨s, some {}⟩).session k = ⟨s, some {}⟩ := put_session_self ..
  have hstatements : (statements sec k others 0 (w.put k ⟨s, some {}⟩) p).2 = _ :=
    statements_eq hentered p 0
  simp only [before_put] at hstatements
  exact hstatements

/-- When nobody else acts, nothing happens before a statement. -/
theorem before_nil (i : Nat) : before sec k (fun _ => []) w i = w := by
  induction i with
  | zero => rfl
  | succ i ih => rw [before, ih]; rfl

end Call

/-! ## Alone -/

section Alone

variable {S D R ε α : Type} (sec : Secured S D R ε)

/-- A transaction with the setting `s` that has inserted the rows `pending`. -/
def inserted (s : S) (d : D) (pending : List R) : World Unit S D R :=
  ⟨d, fun _ => ⟨s, some { pending := pending }⟩⟩

/-- `p` in a transaction with the setting `s`, alone with the database. -/
def alone (s blank : S) (d : D) (commits : α → Bool)
    (p : World Unit S D R → World Unit S D R × α) : D × α :=
  let (w, out) := p (inserted s d [])
  ((finish sec w () (commits out) blank).committed, out)

variable {sec} {s blank : S} {d : D} {pending : List R} {w : World Unit S D R}

/-- The transaction as `enter` begins it. -/
@[simp] theorem seen_inserted : seen sec (inserted s d pending) () = pending.foldl sec.insert d := rfl

/-- An insertion: the row is there, or the statement fails. -/
theorem insert_inserted (sec : Secured S D R ε) (s : S) (d : D) (pending : List R) (r : R)
    (accepted : Bool) :
    (sec.admits s (pending.foldl sec.insert d) r = .ok true ∧ accepted = true ∧
      insert sec (inserted s d pending) () r accepted = (inserted s d (pending ++ [r]), .ok ())) ∨
    ∃ w e, insert sec (inserted s d pending) () r accepted = (w, .error e) ∧ w.committed = d ∧
      (sec.admits s (pending.foldl sec.insert d) r = .ok true → accepted = false ∧ e = .rejected) := by
  have hput : ∀ tx : Tx R, (inserted s d pending).setTx () tx = ⟨d, fun _ => ⟨s, some tx⟩⟩ := by
    intro tx
    unfold World.setTx World.put inserted
    congr 1
  have hsession : (inserted s d pending).session () = ⟨s, some { pending := pending }⟩ := rfl
  unfold insert
  simp only [seen_inserted, hput, hsession, Session.current, Option.getD_some, Bool.false_eq_true,
    if_false]
  rcases sec.admits s (pending.foldl sec.insert d) r with e | _ | _
  · exact .inr ⟨_, _, rfl, rfl, fun h => by cases h⟩
  · exact .inr ⟨_, _, rfl, rfl, fun h => by cases h⟩
  · cases accepted with
    | false => exact .inr ⟨_, _, rfl, rfl, fun _ => ⟨rfl, rfl⟩⟩
    | true => exact .inl ⟨rfl, rfl, rfl⟩

theorem finish_inserted : (finish sec (inserted s d pending) () true blank).committed =
    pending.foldl sec.insert d := rfl

/-- A transaction that is rolled back. -/
theorem finish_rollback : (finish sec w () false blank).committed = w.committed := by
  unfold finish
  split
  · rfl
  · rfl

end Alone

end RowSecurity
