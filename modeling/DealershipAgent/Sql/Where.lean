import Mathlib.Data.List.Infix
import DealershipAgent.Py.Str

/-!
# Conditions of a query

A condition is true, false or unknown (`none`), as SQL has it: a comparison with `NULL` is unknown.

* `conj`: `AND`. `conj_eq_true`: a row passes when every condition is true.
* `LikeToken`, `likeTokens`, `likeMatch`: patterns of `LIKE`, with `%`, `_` and the escape `\`.
* `shortest`: a text that a pattern matches and that is no longer than any other one
  (`likeMatch_shortest`, `length_shortest_le`).
* `shortest_eq_iff`: it is the pattern itself exactly when the pattern has no special character.
-/

namespace Sql

open Py

/-! ## Three-valued logic -/

/-- `AND` -/
def and3 : Option Bool → Option Bool → Option Bool
  | some true, b => b
  | some false, _ => some false
  | none, some false => some false
  | none, _ => none

/-- `AND` of all conditions. -/
def conj (cs : List (Option Bool)) : Option Bool := cs.foldr and3 (some true)

theorem and3_eq_true {a b : Option Bool} : and3 a b = some true ↔ a = some true ∧ b = some true := by
  rcases a with _ | _ | _ <;> rcases b with _ | _ | _ <;> decide

theorem conj_eq_true {cs : List (Option Bool)} : conj cs = some true ↔ ∀ c ∈ cs, c = some true := by
  induction cs with
  | nil => simp [conj]
  | cons c cs ih =>
    rw [List.forall_mem_cons, ← ih, conj, List.foldr_cons, and3_eq_true]
    rfl

/-- A comparison of a column with a value. -/
def compare {α : Type} (column : Option α) (p : α → Bool) : Option Bool := column.map p

theorem compare_eq_true {α : Type} {column : Option α} {p : α → Bool} :
    compare column p = some true ↔ ∃ a, column = some a ∧ p a = true := by
  simp [compare]

/-! ## Patterns -/

inductive LikeToken where
  | lit (c : CodePoint)
  /-- `_` -/
  | one
  /-- `%` -/
  | any
deriving DecidableEq, Repr

/-- A character that is not escaped. -/
def likeToken (c : CodePoint) : LikeToken :=
  if c = chr '%' then .any else if c = chr '_' then .one else .lit c

/-- The tokens of a pattern, after an escape or not. -/
def likeTokensFrom : Bool → Str → Option (List LikeToken)
  | false, [] => some []
  | true, [] => none
  | true, c :: p => (likeTokensFrom false p).map (.lit c :: ·)
  | false, c :: p =>
    if c = chr '\\' then likeTokensFrom true p
    else (likeTokensFrom false p).map (likeToken c :: ·)

/-- The pattern as tokens. A pattern may not end in a lone escape. -/
def likeTokens (p : Str) : Option (List LikeToken) := likeTokensFrom false p

/-- The text matches, up to `fold` of its characters. -/
def likeMatch (fold : CodePoint → CodePoint) : List LikeToken → Str → Bool
  | [], s => s.isEmpty
  | .lit c :: ts, s =>
    match s with
    | [] => false
    | d :: s => fold c = fold d && likeMatch fold ts s
  | .one :: ts, s =>
    match s with
    | [] => false
    | _ :: s => likeMatch fold ts s
  | .any :: ts, s => s.tails.any (likeMatch fold ts)

/-- `column ILIKE pattern` -/
def ilike (fold : CodePoint → CodePoint) (column : Option Str) (pattern : List LikeToken) :
    Option Bool :=
  compare column (likeMatch fold pattern)

/-- No character of the pattern is special. -/
def Literal (p : Str) : Prop := ∀ c ∈ p, c ≠ chr '\\' ∧ c ≠ chr '%' ∧ c ≠ chr '_'

instance (p : Str) : Decidable (Literal p) := List.decidableBAll _ p

/-- A shortest text that matches. -/
def shortest : List LikeToken → Str
  | [] => []
  | .lit c :: ts => c :: shortest ts
  | .one :: ts => chr 'x' :: shortest ts
  | .any :: ts => shortest ts

variable {fold : CodePoint → CodePoint} {ts : List LikeToken} {s p : Str}

theorem likeMatch_shortest : likeMatch fold ts (shortest ts) = true := by
  induction ts with
  | nil => rfl
  | cons t ts ih =>
    cases t with
    | lit c => simpa [likeMatch, shortest] using ih
    | one => exact ih
    | any => exact List.any_eq_true.mpr ⟨shortest ts, (List.mem_tails _ _).mpr List.suffix_rfl, ih⟩

theorem length_shortest_le (h : likeMatch fold ts s = true) : (shortest ts).length ≤ s.length := by
  induction ts generalizing s with
  | nil => exact Nat.zero_le _
  | cons t ts ih =>
    cases t with
    | lit c =>
      cases s with
      | nil => cases h
      | cons d s =>
        have htail := ih (s := s) (by simp only [likeMatch, Bool.and_eq_true] at h; exact h.2)
        exact Nat.succ_le_succ htail
    | one =>
      cases s with
      | nil => cases h
      | cons d s => exact Nat.succ_le_succ (ih h)
    | any =>
      obtain ⟨rest, hrest, hmatch⟩ := List.any_eq_true.mp h
      exact (ih hmatch).trans ((List.mem_tails _ _).mp hrest).length_le

/-- A pattern without special characters stands for its characters. -/
theorem likeTokens_literal (h : Literal p) : likeTokens p = some (p.map .lit) := by
  unfold likeTokens
  induction p with
  | nil => rfl
  | cons c p ih =>
    obtain ⟨⟨hescape, hany, hone⟩, hp⟩ := List.forall_mem_cons.mp h
    rw [likeTokensFrom, if_neg hescape, ih hp, likeToken, if_neg hany, if_neg hone]
    rfl

/-- It matches the texts that are the same up to `fold`. -/
theorem likeMatch_literal : likeMatch fold (p.map .lit) s = true ↔ s.map fold = p.map fold := by
  induction p generalizing s with
  | nil => cases s <;> simp [likeMatch]
  | cons c p ih =>
    cases s with
    | nil => simp [likeMatch]
    | cons d s =>
      rw [List.map_cons, List.map_cons, List.map_cons, List.cons.injEq, ← ih, eq_comm (a := fold d)]
      simp [likeMatch]

/-- The special characters only make a match shorter. -/
theorem length_shortest_tokens {escaped : Bool} (h : likeTokensFrom escaped p = some ts) :
    (shortest ts).length ≤ p.length := by
  induction p generalizing escaped ts with
  | nil =>
    cases escaped with
    | true => cases h
    | false =>
      cases h
      exact Nat.le_refl 0
  | cons c p ih =>
    have hcons : ∀ {t} {ts' : List LikeToken}, likeTokensFrom false p = some ts' →
        (shortest (t :: ts')).length ≤ p.length + 1 := by
      intro t ts' hts'
      have := ih hts'
      cases t <;> simp only [shortest, List.length_cons] <;> omega
    rw [List.length_cons]
    cases escaped with
    | true =>
      obtain ⟨ts', hts', rfl⟩ := Option.map_eq_some_iff.mp h
      exact hcons hts'
    | false =>
      rw [likeTokensFrom] at h
      split_ifs at h
      · exact (ih h).trans (Nat.le_succ _)
      · obtain ⟨ts', hts', rfl⟩ := Option.map_eq_some_iff.mp h
        exact hcons hts'

/-- The shortest match of a pattern is the pattern itself, up to `fold`, exactly when the pattern has no
special character. -/
theorem shortest_eq_iff (hx : fold (chr 'x') ≠ fold (chr '_')) (h : likeTokens p = some ts) :
    (shortest ts).map fold = p.map fold ↔ Literal p := by
  refine ⟨fun heq => ?_, fun hl => ?_⟩
  · unfold likeTokens at h
    induction p generalizing ts with
    | nil => exact fun c hc => (by cases hc)
    | cons c p ih =>
      have hshorter : ∀ {escaped} {ts' : List LikeToken}, likeTokensFrom escaped p = some ts' →
          (shortest ts').map fold ≠ (c :: p).map fold := by
        intro escaped ts' hts' heq'
        have hle := length_shortest_tokens hts'
        have hlen := congrArg List.length heq'
        simp only [List.length_map, List.length_cons] at hlen
        omega
      rw [likeTokensFrom] at h
      split_ifs at h with hescape
      · -- an escape makes the match shorter than the pattern
        exact absurd heq (hshorter h)
      obtain ⟨ts', hts', rfl⟩ := Option.map_eq_some_iff.mp h
      unfold likeToken at heq
      split_ifs at heq with hany hone
      · -- and so does `%`
        exact absurd heq (@hshorter _ ts' hts')
      · rw [hone] at heq
        exact absurd (List.cons.inj heq).1 hx
      · exact List.forall_mem_cons.mpr ⟨⟨hescape, hany, hone⟩, ih hts' (List.cons.inj heq).2⟩
  · rw [likeTokens_literal hl] at h
    cases h
    have hself : shortest (p.map .lit) = p := by
      clear hl
      induction p with
      | nil => rfl
      | cons c p ih => exact congrArg (c :: ·) ih
    rw [hself]

end Sql
