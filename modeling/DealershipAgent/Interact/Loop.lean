import DealershipAgent.Interact.Prog

/-!
# Bounded loops

`loop body stop n s` runs `body` up to `n` times from the variables `s`; the body goes on with new
variables or ends the loop. `runs_loop_from` is the invariant rule: what one iteration preserves, a run
preserves.
-/

namespace Interact

open Prog

variable {Req : Type} {Ans : Req → Type} {ε σ α : Type}

/-- `for _ in range(n)` with a `return` in its body. `stop` is what comes after the loop. -/
def loop (body : σ → Prog Req Ans ε (σ ⊕ α)) (stop : σ → α) : Nat → σ → Prog Req Ans ε α
  | 0, s => ret (stop s)
  | n + 1, s => do
    match ← body s with
    | .inl s => loop body stop n s
    | .inr a => ret a

variable {body : σ → Prog Req Ans ε (σ ⊕ α)} {stop : σ → α} {n : Nat} {s : σ}
  {tr : List (Event Req Ans)}

/-- A loop whose first iteration ends it. -/
theorem Runs.loop_exit {a : α} (h : Runs (body s) tr (.ok (.inr a))) :
    Runs (loop body stop (n + 1) s) tr (.ok a) :=
  runs_bind_ok.mpr ⟨.inr a, tr, [], (List.append_nil tr).symm, h, .ret a⟩

/-- A loop whose first iteration goes on. -/
theorem Runs.loop_next {s' : σ} {tr' : List (Event Req Ans)} {out : Except ε α}
    (h : Runs (body s) tr (.ok (.inl s'))) (h' : Runs (loop body stop n s') tr' out) :
    Runs (loop body stop (n + 1) s) (tr ++ tr') out :=
  runs_bind.mpr (.inl ⟨.inl s', tr, tr', rfl, h, h'⟩)

/-- An invariant `I` of the variables gives a property `P` of runs from them, when the events are all
`Q`: `P` holds of the ends of the loop, and an iteration that goes on keeps `I` and takes `P` back over
itself. -/
theorem runs_loop_from {I : σ → Prop} {Q : Event Req Ans → Prop}
    {P : σ → List (Event Req Ans) → Except ε α → Prop}
    (hstop : ∀ s, I s → P s [] (.ok (stop s)))
    (hexit : ∀ s tr a, I s → (∀ ev ∈ tr, Q ev) → Runs (body s) tr (.ok (.inr a)) → P s tr (.ok a))
    (hraise : ∀ s tr e, I s → (∀ ev ∈ tr, Q ev) → Runs (body s) tr (.error e) → P s tr (.error e))
    (hstep : ∀ s tr s', I s → (∀ ev ∈ tr, Q ev) → Runs (body s) tr (.ok (.inl s')) →
      I s' ∧ ∀ tr' out, P s' tr' out → P s (tr ++ tr') out)
    {out : Except ε α} (hs : I s) (hq : ∀ ev ∈ tr, Q ev)
    (h : Runs (loop body stop n s) tr out) : P s tr out := by
  induction n generalizing s tr with
  | zero =>
    obtain ⟨rfl, rfl⟩ := runs_ret.mp h
    exact hstop s hs
  | succ n ih =>
    rcases runs_bind.mp h with ⟨x, tr₁, tr₂, rfl, h₁, h₂⟩ | ⟨e, h₁, rfl⟩
    · have hq₁ : ∀ ev ∈ tr₁, Q ev := fun ev hev => hq ev (List.mem_append_left _ hev)
      cases x with
      | inl s' =>
        obtain ⟨hs', hext⟩ := hstep s tr₁ s' hs hq₁ h₁
        exact hext _ _ (ih hs' (fun ev hev => hq ev (List.mem_append_right _ hev)) h₂)
      | inr a =>
        obtain ⟨rfl, rfl⟩ := runs_ret.mp h₂
        rw [List.append_nil]
        exact hexit s tr₁ a hs hq₁ h₁
    · exact hraise s tr e hs hq h₁

/-- The rule for a property of runs that does not speak of the variables. -/
theorem runs_loop {I : σ → Prop} {Q : Event Req Ans → Prop}
    {P : List (Event Req Ans) → Except ε α → Prop}
    (hstop : ∀ s, I s → P [] (.ok (stop s)))
    (hexit : ∀ s tr a, I s → (∀ ev ∈ tr, Q ev) → Runs (body s) tr (.ok (.inr a)) → P tr (.ok a))
    (hraise : ∀ s tr e, I s → (∀ ev ∈ tr, Q ev) → Runs (body s) tr (.error e) → P tr (.error e))
    (hstep : ∀ s tr s', I s → (∀ ev ∈ tr, Q ev) → Runs (body s) tr (.ok (.inl s')) →
      I s' ∧ ∀ tr' out, P tr' out → P (tr ++ tr') out)
    {out : Except ε α} (hs : I s) (hq : ∀ ev ∈ tr, Q ev)
    (h : Runs (loop body stop n s) tr out) : P tr out :=
  runs_loop_from (P := fun _ tr out => P tr out) hstop hexit hraise hstep hs hq h

end Interact
