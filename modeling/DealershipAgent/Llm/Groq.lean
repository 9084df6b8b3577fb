import Mathlib.Algebra.Order.BigOperators.Group.List
import Mathlib.Algebra.Order.Ring.Rat
import Mathlib.Tactic.NormNum
import Mathlib.Tactic.Positivity
import DealershipAgent.Llm.Normalize

/-!
# The Groq provider

`llm/groq_provider.py`, with delays as exact rationals.

* `completeGroq`: the `while True` loop of `GroqProvider.complete`, over the outcomes of the calls.
* `retry_loop_bounded_iff`: with fuel for `max_retries + 1` iterations it ends, with its calls, its sleeps
  and its result, which is faithful to the last call unless normalizing the reply raises.
-/

namespace DealershipAgent

open Py Json

structure RetrySettings where
  maxRetries : Int
  baseDelay : Rat
  maxDelay : Rat

/-- What a call of the API gives. -/
inductive ApiOutcome where
  /-- The content of the message, which may be `None`. -/
  | reply (content : Option Str)
  /-- One of `_RETRYABLE_EXCEPTIONS`. -/
  | retryable (e : Exc)
  | other (e : Exc)

def ApiOutcome.isRetryable : ApiOutcome → Bool
  | .retryable _ => true
  | _ => false

/-- `attempt`, and what the loop has done. -/
structure RetryState where
  attempt : Nat := 0
  calls : Nat := 0
  sleeps : List Rat := []

/-- `min(base_delay * (2 ** (attempt - 1)), max_delay)` -/
def retryDelay (cfg : RetrySettings) (attempt : Nat) : Rat :=
  min (cfg.baseDelay * 2 ^ (attempt - 1)) cfg.maxDelay

section Complete

variable (F : Type) [PyFloat F] [Unicode]

/-- What leaves the loop when it ends with this call. -/
def ApiOutcome.result : ApiOutcome → Except Exc Str
  | .reply content => normalizeLlmResponse (F := F) (content.getD [])
  | .retryable e => .error e
  | .other e => .error e

/-- An iteration: the variables for the next one, or the end of the loop. What the normalization of the
reply raises is none of `_RETRYABLE_EXCEPTIONS`. -/
def retryIteration (cfg : RetrySettings) (st : RetryState) (outcome : ApiOutcome) :
    RetryState ⊕ RetryState × Except Exc Str :=
  let st := { st with calls := st.calls + 1 }
  match outcome with
  | .reply content => .inr (st, normalizeLlmResponse (F := F) (content.getD []))
  | .other e => .inr (st, .error e)
  | .retryable e =>
    let st := { st with attempt := st.attempt + 1 }
    if cfg.maxRetries < st.attempt then .inr (st, .error e)
    else .inl { st with sleeps := st.sleeps ++ [retryDelay cfg st.attempt] }

/-- The loop, for `fuel` iterations. The outcome of the call after `n` others is `outcomes n`. -/
def retryLoop (cfg : RetrySettings) (outcomes : Nat → ApiOutcome) :
    Nat → RetryState → Option (RetryState × Except Exc Str)
  | 0, _ => none
  | fuel + 1, st =>
    match retryIteration F cfg st (outcomes st.calls) with
    | .inl st => retryLoop cfg outcomes fuel st
    | .inr out => some out

/-- `GroqProvider.complete` -/
def completeGroq (cfg : RetrySettings) (outcomes : Nat → ApiOutcome) (fuel : Nat) :
    Option (RetryState × Except Exc Str) :=
  retryLoop F cfg outcomes fuel {}

variable {F} {cfg : RetrySettings} {outcomes : Nat → ApiOutcome}

/-- The sleeps after `n` failed attempts. -/
def retrySleeps (cfg : RetrySettings) (n : Nat) : List Rat :=
  (List.range n).map fun k => min (cfg.baseDelay * 2 ^ k) cfg.maxDelay

omit [PyFloat F] [Unicode] in
theorem retrySleeps_succ (n : Nat) :
    retrySleeps cfg (n + 1) = retrySleeps cfg n ++ [retryDelay cfg (n + 1)] := by
  rw [retrySleeps, List.range_succ, List.map_append]
  rfl

omit [PyFloat F] [Unicode] in
theorem sum_retrySleeps_le (n : Nat) : (retrySleeps cfg n).sum ≤ n * cfg.maxDelay := by
  have hle := List.sum_le_card_nsmul (retrySleeps cfg n) cfg.maxDelay fun x hx => by
    obtain ⟨k, -, rfl⟩ := List.mem_map.mp hx
    exact min_le_right _ _
  rwa [retrySleeps, List.length_map, List.length_range, nsmul_eq_mul] at hle

/-- An iteration whose call is a retryable failure with attempts left goes on. -/
theorem retryIteration_next {a : Nat} (h : (outcomes a).isRetryable = true)
    (ha : (a : Int) < cfg.maxRetries) :
    retryIteration F cfg ⟨a, a, retrySleeps cfg a⟩ (outcomes a) =
      .inl ⟨a + 1, a + 1, retrySleeps cfg (a + 1)⟩ := by
  cases ho : outcomes a with
  | retryable e =>
    rw [retrySleeps_succ]
    exact if_neg (by push_cast; omega)
  | _ => rw [ho] at h; cases h

/-- An iteration with another outcome, or after the last attempt, ends the loop. -/
theorem retryIteration_end {a : Nat}
    (h : (outcomes a).isRetryable = false ∨ (a : Int) = cfg.maxRetries) :
    ∃ attempt, retryIteration F cfg ⟨a, a, retrySleeps cfg a⟩ (outcomes a) =
      .inr (⟨attempt, a + 1, retrySleeps cfg a⟩, (outcomes a).result F) := by
  cases ho : outcomes a with
  | reply content => exact ⟨a, rfl⟩
  | other e => exact ⟨a, rfl⟩
  | retryable e =>
    have ha : (a : Int) = cfg.maxRetries := by simpa [ho, ApiOutcome.isRetryable] using h
    exact ⟨a + 1, if_pos (by push_cast; omega)⟩

/-- The loop from the state after `a` retryable failures. -/
theorem retryLoop_from {d a : Nat} (hd : (a : Int) + d = cfg.maxRetries) :
    ∃ n attempt, a < n ∧ n ≤ a + d + 1 ∧ (∀ k, a ≤ k → k < n - 1 → (outcomes k).isRetryable = true) ∧
      ((outcomes (n - 1)).isRetryable = false ∨ n = a + d + 1) ∧
      ∀ fuel, n ≤ a + fuel → retryLoop F cfg outcomes fuel ⟨a, a, retrySleeps cfg a⟩ =
        some (⟨attempt, n, retrySleeps cfg (n - 1)⟩, (outcomes (n - 1)).result F) := by
  have hend : ∀ {a : Nat}, (outcomes a).isRetryable = false ∨ (a : Int) = cfg.maxRetries →
      ∃ attempt, ∀ fuel, a + 1 ≤ a + fuel → retryLoop F cfg outcomes fuel ⟨a, a, retrySleeps cfg a⟩ =
        some (⟨attempt, a + 1, retrySleeps cfg a⟩, (outcomes a).result F) := by
    intro a h
    obtain ⟨attempt, hlast⟩ := retryIteration_end (F := F) h
    refine ⟨attempt, fun fuel hfuel => ?_⟩
    obtain ⟨fuel, rfl⟩ := Nat.exists_eq_add_of_le' (show 1 ≤ fuel by omega)
    rw [retryLoop, hlast]
  induction d generalizing a with
  | zero =>
    obtain ⟨attempt, hlast⟩ := hend (.inr (by simpa using hd))
    exact ⟨a + 1, attempt, by omega, by omega, fun k _ _ => by omega, .inr rfl, hlast⟩
  | succ d ih =>
    by_cases h : (outcomes a).isRetryable = true
    · obtain ⟨n, attempt, hlt, hle, hbefore, hat, hrun⟩ := ih (a := a + 1) (by push_cast at hd ⊢; omega)
      refine ⟨n, attempt, by omega, by omega, fun k hk hkn => ?_, hat.imp_right (by omega),
        fun fuel hfuel => ?_⟩
      · rcases Nat.eq_or_lt_of_le hk with rfl | hk
        · exact h
        · exact hbefore k hk hkn
      · obtain ⟨fuel, rfl⟩ := Nat.exists_eq_add_of_le' (show 1 ≤ fuel by omega)
        rw [retryLoop, retryIteration_next h (by push_cast at hd; omega)]
        exact hrun fuel (by omega)
    · obtain ⟨attempt, hlast⟩ := hend (.inl (Bool.eq_false_iff.mpr h))
      exact ⟨a + 1, attempt, by omega, by omega, fun k _ _ => by omega,
        .inl (Bool.eq_false_iff.mpr h), hlast⟩

variable (F) in
/-- The normalized reply of the call, or exactly its exception. -/
def ApiOutcome.Kept (outcome : ApiOutcome) (result : Except Exc Str) : Prop :=
  match outcome with
  | .reply content => ∃ reply, normalizeLlmResponse F (content.getD []) = .ok reply ∧ result = .ok reply
  | .retryable e => result = .error e
  | .other e => result = .error e

/-- Normalizing raises exactly where the text that is read as JSON goes over a limit. -/
theorem normalize_ok_iff (raw : Str) :
    (∃ reply, normalizeLlmResponse F raw = .ok reply) ↔ Readable F (jsonPart raw) := by
  unfold normalizeLlmResponse loadsOrNone Readable
  cases limitError F (jsonPart raw) with
  | some e => simp [Except.map]
  | none => simp [Except.map]

/-- The result of a call is faithful to it, unless it is a reply that cannot be read. -/
theorem ApiOutcome.kept_iff (outcome : ApiOutcome) : outcome.Kept F (outcome.result F) ↔
    ∀ content, outcome = .reply content → Readable F (jsonPart (content.getD [])) := by
  cases outcome with
  | reply content =>
    have hread : (ApiOutcome.reply content).Kept F ((ApiOutcome.reply content).result F) ↔
        Readable F (jsonPart (content.getD [])) := by
      refine Iff.trans ?_ (normalize_ok_iff _)
      exact exists_congr fun reply => and_iff_left_of_imp fun h => h
    refine hread.trans ⟨?_, fun h => h content rfl⟩
    rintro h content' heq
    cases heq
    exact h
  | retryable e => exact iff_of_true rfl (by simp)
  | other e => exact iff_of_true rfl (by simp)

/-- The loop ends after `n` calls, at most `max_retries + 1`: the last of them is the first that is no
retryable failure, or they are all of them. It has slept `n - 1` times, the delays doubling up to the cap.
It returns the normalized reply or raises the exception of that call if and only if the call gives no
reply, or one that can be read. -/
theorem retry_loop_bounded_iff (cfg : RetrySettings) (outcomes : Nat → ApiOutcome)
    (hmax : 0 ≤ cfg.maxRetries) (hbase : 0 ≤ cfg.baseDelay) (hcap : 0 ≤ cfg.maxDelay) :
    ∃ (n : Nat) (fin : RetryState) (result : Except Exc Str), 1 ≤ n ∧ (n : Int) ≤ cfg.maxRetries + 1 ∧
      (∀ k < n - 1, (outcomes k).isRetryable = true) ∧
      ((outcomes (n - 1)).isRetryable = false ∨ (n : Int) = cfg.maxRetries + 1) ∧
      (∀ fuel, n ≤ fuel → completeGroq F cfg outcomes fuel = some (fin, result)) ∧
      fin.calls = n ∧
      fin.sleeps = (List.range (n - 1)).map (fun k => min (cfg.baseDelay * 2 ^ k) cfg.maxDelay) ∧
      (∀ delay ∈ fin.sleeps, 0 ≤ delay) ∧
      fin.sleeps.sum ≤ ((n - 1 : Nat) : Rat) * cfg.maxDelay ∧
      ((outcomes (n - 1)).Kept F result ↔
        ∀ content, outcomes (n - 1) = .reply content → Readable F (jsonPart (content.getD []))) := by
  obtain ⟨n, attempt, hlt, hle, hbefore, hat, hrun⟩ :=
    @retryLoop_from F _ _ cfg outcomes cfg.maxRetries.toNat 0 (by omega)
  refine ⟨n, ⟨attempt, n, retrySleeps cfg (n - 1)⟩, _, hlt, by omega, fun k hk => hbefore k k.zero_le hk,
    hat.imp_right (by omega), fun fuel hfuel => hrun fuel (by omega), rfl, rfl, fun delay hdelay => ?_,
    sum_retrySleeps_le _, ApiOutcome.kept_iff _⟩
  obtain ⟨k, -, rfl⟩ := List.mem_map.mp hdelay
  exact le_min (by positivity) hcap

end Complete

/-- A rate limit, and then a reply. -/
def limitedOnce (n : Nat) : ApiOutcome :=
  if n = 0 then .retryable ⟨.runtimeError, "429"⟩ else .reply (some "Yes.")

theorem retry_limitedOnce : ∃ (fin : RetryState) (reply : Str),
    @completeGroq FloatText _ asciiUnicode ⟨3, 1, 20⟩ limitedOnce 4 = some (fin, .ok reply) ∧
    fin.sleeps = [1] := by
  obtain ⟨n, fin, result, hone, hle, hbefore, hat, hrun, -, hsleeps, -, -, hkept⟩ :=
    @retry_loop_bounded_iff FloatText _ asciiUnicode ⟨3, 1, 20⟩ limitedOnce (by decide) (by norm_num)
      (by norm_num)
  have hfirst : n ≠ 1 := by
    rintro rfl
    rcases hat with h | h
    · cases h
    · cases h
  have hsecond : ¬ 1 < n - 1 := fun h => by cases hbefore 1 h
  obtain rfl : n = 2 := by omega
  have hread : ∀ content, limitedOnce (2 - 1) = .reply content →
      Readable FloatText (@jsonPart asciiUnicode (content.getD [])) := by
    intro content hcontent
    cases hcontent
    decide +kernel
  obtain ⟨reply, -, rfl⟩ := hkept.mpr hread
  refine ⟨fin, reply, hrun 4 (by decide), hsleeps.trans ?_⟩
  norm_num

/-- A call that gives an object with an integer that `int` does not read. -/
def longReply (_ : Nat) : ApiOutcome := .reply (some (longInteger nines))

/-- The loop raises what no call of it has raised. -/
theorem retry_raises : ∃ fin : RetryState,
    @completeGroq FloatText _ asciiUnicode ⟨3, 1, 20⟩ longReply 4 =
      some (fin, .error (tooManyDigits 4301)) ∧
    ¬ @ApiOutcome.Kept FloatText _ asciiUnicode (longReply 0) (.error (tooManyDigits 4301)) := by
  have hraise := @longInteger_unread asciiUnicode FloatText _ (by decide)
  have hend : @retryIteration FloatText _ asciiUnicode ⟨3, 1, 20⟩ {} (longReply 0) =
      .inr ({ calls := 1 }, @normalizeLlmResponse asciiUnicode FloatText _ (longInteger nines)) := rfl
  refine ⟨{ calls := 1 }, ?_, ?_⟩
  · unfold completeGroq retryLoop
    rw [hend, hraise]
  · rintro ⟨reply, -, hreply⟩
    cases hreply

end DealershipAgent
