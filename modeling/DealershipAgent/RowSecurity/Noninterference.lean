import DealershipAgent.RowSecurity.Session

/-!
# What a connection can tell apart

A connection whose setting stays within a set of settings cannot tell databases apart that show the
same under each of them.

* `select_tx`, `insert_tx`, `enter_tx`: what a statement does to its connection's transaction.
* `SameUnder`: two databases show the same. `Inert`: a row whose insertion keeps this.
* `Alike`: two worlds are the same to a connection. `Alike.enter`, `Alike.select`, `Alike.insert` and
  `Alike.finish`: what the connection does gives the same in both, and leaves them alike.
-/

namespace RowSecurity

variable {K S D R ε : Type} [DecidableEq K] (sec : Secured S D R ε) (scope : S → Prop)

/-- The databases show the same under each of the settings. -/
def SameUnder (d d' : D) : Prop := ∀ s, scope s → sec.visible s d = sec.visible s d'

/-- Where databases show the same, they take the row or not alike, and show the same with it. -/
structure Inert (r : R) : Prop where
  visible : ∀ {d d'}, SameUnder sec scope d d' →
    SameUnder sec scope (sec.insert d r) (sec.insert d' r)
  admits : ∀ {d d' s}, scope s → SameUnder sec scope d d' → sec.admits s d r = sec.admits s d' r

/-- The worlds are the same to the connection `k`. -/
structure Alike (k : K) (w w' : World K S D R) : Prop where
  committed : SameUnder sec scope w.committed w'.committed
  session : w'.session k = w.session k
  setting : scope (w.session k).setting
  pending : ∀ r ∈ (w.session k).current.pending, Inert sec scope r

/-- A statement of `k` fails before it sees anything. -/
def World.fail (w : World K S D R) (k : K) : World K S D R :=
  w.setTx k { (w.session k).current with aborted := true }

variable {sec scope} {w w' : World K S D R} {k : K}

/-! ## What a statement does to its transaction -/

variable (sec w k) in
/-- A statement that reads inserts nothing. -/
theorem select_tx : ∃ aborted, (select sec w k).1 =
    w.setTx k { pending := (w.session k).current.pending, aborted := aborted } := by
  unfold select
  by_cases haborted : (w.session k).current.aborted = true
  · refine ⟨true, ?_⟩
    simp only [haborted, if_true]
    rw [← haborted]
    exact (setTx_of_aborted haborted).symm
  · simp only [if_neg haborted]
    cases sec.visible (w.session k).setting (seen sec w k) with
    | ok d => exact ⟨_, rfl⟩
    | error e => exact ⟨true, rfl⟩

variable (sec w k) in
/-- An insertion inserts its row, which was admitted and accepted, or it fails and inserts nothing. -/
theorem insert_tx (r : R) (accepted : Bool) :
    ((insert sec w k r accepted).2 = .ok () ∧ accepted = true ∧
      sec.admits (w.session k).setting (seen sec w k) r = .ok true ∧
      (w.session k).current.aborted = false ∧
      (insert sec w k r accepted).1 =
        w.setTx k { pending := (w.session k).current.pending ++ [r], aborted := false }) ∨
    (∃ fault, (insert sec w k r accepted).2 = .error fault) ∧ ∃ aborted,
      (insert sec w k r accepted).1 =
        w.setTx k { pending := (w.session k).current.pending, aborted := aborted } := by
  unfold insert
  by_cases haborted : (w.session k).current.aborted = true
  · refine .inr ⟨⟨.aborted, ?_⟩, true, ?_⟩
    · simp only [haborted, if_true]
    · simp only [haborted, if_true]
      rw [← haborted]
      exact (setTx_of_aborted haborted).symm
  · simp only [if_neg haborted]
    cases hadmits : sec.admits (w.session k).setting (seen sec w k) r with
    | error e => exact .inr ⟨⟨_, rfl⟩, true, rfl⟩
    | ok admitted =>
      cases admitted with
      | false => exact .inr ⟨⟨_, rfl⟩, true, rfl⟩
      | true =>
        cases accepted with
        | false => exact .inr ⟨⟨_, rfl⟩, true, rfl⟩
        | true =>
          refine .inl ⟨rfl, rfl, rfl, by simpa using haborted, ?_⟩
          simp only [if_true]
          rw [show (w.session k).current.aborted = false by simpa using haborted]

variable (w k) in
/-- A transaction begins where there is none. -/
theorem enter_tx (s : S) :
    ((w.session k).tx = none ∧ enter (ε := ε) w k s = .ok (w.put k ⟨s, some {}⟩)) ∨
      enter (ε := ε) w k s = .error .begun := by
  unfold enter begin
  cases htx : (w.session k).tx with
  | some tx => exact .inr rfl
  | none =>
    refine .inl ⟨rfl, ?_⟩
    simp [Except.map, setLocal, World.put]

/-! ## Alike worlds -/

theorem SameUnder.insertAll {d d' : D} (h : SameUnder sec scope d d') {rows : List R}
    (hrows : ∀ r ∈ rows, Inert sec scope r) :
    SameUnder sec scope (rows.foldl sec.insert d) (rows.foldl sec.insert d') := by
  induction rows generalizing d d' with
  | nil => exact h
  | cons r rows ih =>
    exact ih ((hrows r List.mem_cons_self).visible h) fun r' hr' => hrows r' (List.mem_cons_of_mem _ hr')

namespace Alike

omit [DecidableEq K] in
theorem seen (h : Alike sec scope k w w') :
    SameUnder sec scope (seen sec w k) (seen sec w' k) := by
  unfold RowSecurity.seen
  rw [h.session]
  exact h.committed.insertAll h.pending

theorem setTx (h : Alike sec scope k w w') {tx : Tx R} (htx : ∀ r ∈ tx.pending, Inert sec scope r) :
    Alike sec scope k (w.setTx k tx) (w'.setTx k tx) where
  committed := h.committed
  session := by simp [World.setTx, h.session]
  setting := by simpa [World.setTx] using h.setting
  pending := by simpa [World.setTx, Session.current] using htx

theorem fail (h : Alike sec scope k w w') : Alike sec scope k (w.fail k) (w'.fail k) := by
  unfold World.fail
  rw [h.session]
  exact h.setTx h.pending

theorem select (h : Alike sec scope k w w') :
    (select sec w k).2 = (RowSecurity.select sec w' k).2 ∧
      Alike sec scope k (RowSecurity.select sec w k).1 (RowSecurity.select sec w' k).1 := by
  unfold RowSecurity.select
  rw [h.session, ← h.seen _ h.setting]
  by_cases haborted : (w.session k).current.aborted = true
  · simp only [haborted, if_true]
    exact ⟨trivial, h⟩
  · simp only [if_neg haborted]
    cases sec.visible (w.session k).setting (RowSecurity.seen sec w k) with
    | ok d => exact ⟨rfl, h.setTx h.pending⟩
    | error e => exact ⟨rfl, h.setTx h.pending⟩

/-- An insertion, where the other constraints accept a row alike that is admitted. -/
theorem insert {r : R} {accepted accepted' : Bool} (h : Alike sec scope k w w')
    (hr : Inert sec scope r)
    (haccepted : sec.admits (w.session k).setting (RowSecurity.seen sec w k) r = .ok true →
      accepted = accepted') :
    (insert sec w k r accepted).2 = (RowSecurity.insert sec w' k r accepted').2 ∧
      Alike sec scope k (RowSecurity.insert sec w k r accepted).1
        (RowSecurity.insert sec w' k r accepted').1 := by
  unfold RowSecurity.insert
  rw [h.session, ← hr.admits h.setting h.seen]
  by_cases haborted : (w.session k).current.aborted = true
  · simp only [haborted, if_true]
    exact ⟨trivial, h⟩
  · simp only [if_neg haborted]
    cases hadmits : sec.admits (w.session k).setting (RowSecurity.seen sec w k) r with
    | error e => exact ⟨rfl, h.setTx h.pending⟩
    | ok admitted =>
      cases admitted with
      | false => exact ⟨rfl, h.setTx h.pending⟩
      | true =>
        obtain rfl := haccepted hadmits
        cases accepted with
        | false => exact ⟨rfl, h.setTx h.pending⟩
        | true =>
          refine ⟨rfl, h.setTx fun r' hr' => ?_⟩
          rcases List.mem_append.mp hr' with hold | hnew
          · exact h.pending r' hold
          · rw [List.mem_singleton.mp hnew]
            exact hr

/-- A transaction with one of the settings begins in both, or in neither. -/
theorem enter {s : S} (h : Alike sec scope k w w') (hs : scope s) :
    (∃ w₁ w₁', enter (ε := ε) w k s = .ok w₁ ∧ RowSecurity.enter (ε := ε) w' k s = .ok w₁' ∧
      Alike sec scope k w₁ w₁') ∨
    ∃ e : Fault ε, RowSecurity.enter w k s = .error e ∧ RowSecurity.enter w' k s = .error e := by
  unfold RowSecurity.enter begin
  rw [h.session]
  cases (w.session k).tx with
  | some tx => exact .inr ⟨.begun, rfl, rfl⟩
  | none =>
    refine .inl ⟨_, _, rfl, rfl, ?_, ?_, ?_, ?_⟩
    · exact h.committed
    · simp [setLocal]
    · simpa [setLocal] using hs
    · simp [setLocal, Session.current]

theorem finish {after : S} (h : Alike sec scope k w w') (hafter : scope after) (commit : Bool) :
    Alike sec scope k (finish sec w k commit after) (RowSecurity.finish sec w' k commit after) := by
  unfold RowSecurity.finish
  rw [h.session]
  cases htx : (w.session k).tx with
  | none => exact h
  | some tx =>
    have hpending : ∀ r ∈ tx.pending, Inert sec scope r := by
      have hp := h.pending
      rwa [Session.current, htx] at hp
    refine ⟨?_, ?_, ?_, ?_⟩
    · by_cases hcommit : (commit && !tx.aborted) = true
      · simp only [hcommit, if_true]
        exact h.committed.insertAll hpending
      · simp only [if_neg hcommit]
        exact h.committed
    · simp
    · simpa using hafter
    · simp [Session.current]

end Alike

end RowSecurity
