import DealershipAgent.Interact.Prog

/-!
# Triples

`Triple Q E p P`: in an environment whose events all satisfy `Q`, the program `p` returns a value that
satisfies `P`, or raises an exception that `E` blames on one of the events. With `E` empty, `p` does
not raise.

The rules `Triple.ret`, `Triple.lift`, `Triple.ask` and `Triple.bind` follow the program.
-/

namespace Interact

open Prog

variable {Req : Type} {Ans : Req → Type} {ε α β : Type} {Q : Event Req Ans → Prop}
  {E : Event Req Ans → ε → Prop}

def Triple (Q : Event Req Ans → Prop) (E : Event Req Ans → ε → Prop) (p : Prog Req Ans ε α)
    (P : α → Prop) : Prop :=
  ∀ tr out, Runs p tr out → (∀ ev ∈ tr, Q ev) →
    (∃ a, out = .ok a ∧ P a) ∨ ∃ e, out = .error e ∧ ∃ ev ∈ tr, E ev e

/-- The exceptions that no event is blamed for. -/
def NoRaise (_ : Event Req Ans) (_ : ε) : Prop := False

namespace Triple

variable {P P' : α → Prop} {R : β → Prop} {p : Prog Req Ans ε α}

theorem ret {a : α} (h : P a) : Triple Q E (ret a) P := by
  intro tr out hrun _
  exact .inl ⟨a, (runs_ret.mp hrun).2, h⟩

theorem lift {x : Except ε α} {a : α} (hx : x = .ok a) (h : P a) : Triple Q E (lift x) P := by
  intro tr out hrun _
  exact .inl ⟨a, (runs_lift.mp hrun).2.trans hx, h⟩

/-- One rule for a request: what each answer leads to. -/
theorem ask {r : Req} {k : Ans r → Prog Req Ans ε α}
    (h : ∀ x, Q ⟨r, x⟩ → Triple Q E (k x) P) : Triple Q E (ask r k) P := by
  intro tr out hrun hq
  obtain ⟨x, tr', rfl, hrun'⟩ := runs_ask.mp hrun
  rcases h x (hq _ List.mem_cons_self) tr' out hrun' fun ev hev => hq ev (List.mem_cons_of_mem _ hev)
    with ha | ⟨e, ho, ev, hev, he⟩
  · exact .inl ha
  · exact .inr ⟨e, ho, ev, List.mem_cons_of_mem _ hev, he⟩

theorem bind {f : α → Prog Req Ans ε β} (hp : Triple Q E p P)
    (hf : ∀ a, P a → Triple Q E (f a) R) : Triple Q E (p >>= f) R := by
  intro tr out hrun hq
  rcases runs_bind.mp hrun with ⟨a, t₁, t₂, rfl, h₁, h₂⟩ | ⟨e, h₁, rfl⟩
  · rcases hp t₁ _ h₁ fun ev hev => hq ev (List.mem_append_left _ hev) with ⟨a', ho, ha⟩ | ⟨e, ho, -⟩
    · cases ho
      rcases hf a ha t₂ out h₂ fun ev hev => hq ev (List.mem_append_right _ hev)
        with hb | ⟨e, ho, ev, hev, he⟩
      · exact .inl hb
      · exact .inr ⟨e, ho, ev, List.mem_append_right _ hev, he⟩
    · cases ho
  · rcases hp tr _ h₁ hq with ⟨a', ho, -⟩ | ⟨e', ho, hev⟩
    · cases ho
    · cases ho
      exact .inr ⟨e, rfl, hev⟩

/-- A run that returns satisfies the postcondition. -/
theorem returns {tr : List (Event Req Ans)} {a : α} (h : Triple Q E p P)
    (hrun : Runs p tr (.ok a)) (hq : ∀ ev ∈ tr, Q ev) : P a := by
  rcases h tr _ hrun hq with ⟨a', ho, ha⟩ | ⟨e, ho, -⟩
  · cases ho
    exact ha
  · cases ho

/-- A run that raises has an event to blame. -/
theorem raises {tr : List (Event Req Ans)} {e : ε} (h : Triple Q E p P)
    (hrun : Runs p tr (.error e)) (hq : ∀ ev ∈ tr, Q ev) : ∃ ev ∈ tr, E ev e := by
  rcases h tr _ hrun hq with ⟨a, ho, -⟩ | ⟨e', ho, hev⟩
  · cases ho
  · cases ho
    exact hev

end Triple

end Interact
