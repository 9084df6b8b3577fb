import DealershipAgent.Interact.Count

/-!
# Programs in an environment with a state

`play env h s p`: the run of `p` when `env` answers its requests by the events so far and by a state,
which every answer may change.

* `play_runs`: it is a run of `p`, so that a property of all runs holds of it. `play_bind`,
  `play_attempt` and `play_lift` follow the program.
* `Serves drift serve p s out s'`: the server `serve`, which goes by its state only, takes `p` from `s`
  to `out` and `s'`; before each request the state may drift. `play_serves` connects it to `play`; the
  rules are those of `Runs`. `Reaches` is the same for a program that is on its way.
* `play_alike`: where two environments answer the requests of a program alike on related states, and
  keep the relation, it runs alike in both.
* `Keeps`: every run keeps a property of states. `Keeps.bind`, `Keeps.attempt_bind` and so on follow the
  program; with `AtMost.keeps` it is enough that the answers to its requests keep it. `play_history`
  is the rule for what speaks of the events too.
-/

namespace Interact

open Prog

variable {S S' Req : Type} {Ans : Req → Type} {ε α β : Type}

/-- It answers a request, by the events so far, and goes to its next state. -/
abbrev StateEnv (S Req : Type) (Ans : Req → Type) : Type :=
  List (Event Req Ans) → S → (r : Req) → Ans r × S

/-- A run: its events, its outcome and the state after it. -/
structure Played (S Req : Type) (Ans : Req → Type) (ε α : Type) where
  trace : List (Event Req Ans)
  out : Except ε α
  state : S

def play (env : StateEnv S Req Ans) :
    List (Event Req Ans) → S → Prog Req Ans ε α → Played S Req Ans ε α
  | _, s, ret a => ⟨[], .ok a, s⟩
  | _, s, raise e => ⟨[], .error e, s⟩
  | h, s, ask r k =>
    let (x, s') := env h s r
    let rest := play env (h ++ [⟨r, x⟩]) s' (k x)
    { rest with trace := ⟨r, x⟩ :: rest.trace }

section Play

variable {env : StateEnv S Req Ans} {h : List (Event Req Ans)} {s : S}

@[simp] theorem play_ret (a : α) :
    play env h s (ret a : Prog Req Ans ε α) = ⟨[], .ok a, s⟩ := rfl

@[simp] theorem play_raise (e : ε) :
    play env h s (raise e : Prog Req Ans ε α) = ⟨[], .error e, s⟩ := rfl

theorem play_ask (r : Req) (k : Ans r → Prog Req Ans ε α) :
    play env h s (ask r k) =
      let rest := play env (h ++ [⟨r, (env h s r).1⟩]) (env h s r).2 (k (env h s r).1)
      { rest with trace := ⟨r, (env h s r).1⟩ :: rest.trace } := rfl

@[simp] theorem play_lift (x : Except ε α) : play env h s (lift x : Prog Req Ans ε α) = ⟨[], x, s⟩ := by
  cases x <;> rfl

theorem play_runs (env : StateEnv S Req Ans) (h : List (Event Req Ans)) (s : S)
    (p : Prog Req Ans ε α) : Runs p (play env h s p).trace (play env h s p).out := by
  induction p generalizing h s with
  | ret a => exact .ret a
  | raise e => exact .raise e
  | ask r k ih => exact .ask _ (ih _ _ _)

theorem play_bind (p : Prog Req Ans ε α) (f : α → Prog Req Ans ε β) :
    play env h s (p >>= f) =
      let first := play env h s p
      match first.out with
      | .ok a =>
        let rest := play env (h ++ first.trace) first.state (f a)
        { rest with trace := first.trace ++ rest.trace }
      | .error e => ⟨first.trace, .error e, first.state⟩ := by
  induction p generalizing h s with
  | ret a => simp
  | raise e => rfl
  | ask r k ih =>
    rw [ask_bind, play_ask, play_ask, ih]
    cases hout : (play env (h ++ [⟨r, (env h s r).1⟩]) (env h s r).2 (k (env h s r).1)).out with
    | ok a => simp [hout]
    | error e => simp [hout]

theorem play_attempt (p : Prog Req Ans ε α) :
    play env h s p.attempt = { play env h s p with out := .ok (play env h s p).out } := by
  induction p generalizing h s with
  | ret a => rfl
  | raise e => rfl
  | ask r k ih =>
    unfold attempt
    rw [play_ask, play_ask, ih]

end Play

/-! ## Servers -/

/-- The server `serve` answers the requests of the program, from the state `s` on. Before each of them
the state may drift. -/
inductive Serves (drift : S → S → Prop) (serve : S → (r : Req) → Ans r × S) :
    Prog Req Ans ε α → S → Except ε α → S → Prop
  | ret (a : α) (s : S) : Serves drift serve (ret a) s (.ok a) s
  | raise (e : ε) (s : S) : Serves drift serve (raise e) s (.error e) s
  | ask {r : Req} {k : Ans r → Prog Req Ans ε α} {s s₀ s' : S} {out : Except ε α} : drift s s₀ →
      Serves drift serve (k (serve s₀ r).1) (serve s₀ r).2 out s' → Serves drift serve (ask r k) s out s'

section Serves

variable {drift : S → S → Prop} {serve : S → (r : Req) → Ans r × S} {s s' : S} {out : Except ε α}

theorem play_serves (hdrift : ∀ s, drift s s) (serve : S → (r : Req) → Ans r × S)
    (h : List (Event Req Ans)) (s : S) (p : Prog Req Ans ε α) :
    Serves drift serve p s (play (fun _ => serve) h s p).out (play (fun _ => serve) h s p).state := by
  induction p generalizing h s with
  | ret a => exact .ret a s
  | raise e => exact .raise e s
  | ask r k ih => exact .ask (hdrift s) (ih _ _ _)

theorem serves_ret {a : α} : Serves drift serve (ret a) s out s' ↔ out = .ok a ∧ s' = s := by
  constructor
  · rintro ⟨⟩
    exact ⟨rfl, rfl⟩
  · rintro ⟨rfl, rfl⟩
    exact .ret a _

theorem serves_raise {e : ε} :
    Serves drift serve (raise e : Prog Req Ans ε α) s out s' ↔ out = .error e ∧ s' = s := by
  constructor
  · rintro ⟨⟩
    exact ⟨rfl, rfl⟩
  · rintro ⟨rfl, rfl⟩
    exact .raise e _

theorem serves_lift {x : Except ε α} :
    Serves drift serve (lift x) s out s' ↔ out = x ∧ s' = s := by
  cases x with
  | ok a => exact serves_ret
  | error e => exact serves_raise

theorem serves_ask {r : Req} {k : Ans r → Prog Req Ans ε α} :
    Serves drift serve (ask r k) s out s' ↔
      ∃ s₀, drift s s₀ ∧ Serves drift serve (k (serve s₀ r).1) (serve s₀ r).2 out s' := by
  constructor
  · intro h
    cases h with
    | ask hdrift hrest => exact ⟨_, hdrift, hrest⟩
  · rintro ⟨s₀, hdrift, hrest⟩
    exact .ask hdrift hrest

theorem serves_ask_lift {r : Req} {g : Ans r → Except ε α} :
    Serves drift serve (ask r fun x => lift (g x)) s out s' ↔
      ∃ s₀, drift s s₀ ∧ out = g (serve s₀ r).1 ∧ s' = (serve s₀ r).2 := by
  simp only [serves_ask, serves_lift]

theorem serves_bind {p : Prog Req Ans ε α} {f : α → Prog Req Ans ε β} {out : Except ε β} :
    Serves drift serve (p >>= f) s out s' ↔
      (∃ a s₁, Serves drift serve p s (.ok a) s₁ ∧ Serves drift serve (f a) s₁ out s') ∨
        ∃ e, Serves drift serve p s (.error e) s' ∧ out = .error e := by
  induction p generalizing s with
  | ret a =>
    simp only [ret_bind, serves_ret, Except.ok.injEq, reduceCtorEq, false_and, exists_false, or_false]
    constructor
    · exact fun h => ⟨a, s, ⟨rfl, rfl⟩, h⟩
    · rintro ⟨_, _, ⟨rfl, rfl⟩, h⟩
      exact h
  | raise e =>
    rw [show (raise e >>= f : Prog Req Ans ε β) = raise e from rfl, serves_raise]
    constructor
    · rintro ⟨rfl, rfl⟩
      exact .inr ⟨e, .raise e _, rfl⟩
    · rintro (⟨a, s₁, ⟨⟩, -⟩ | ⟨e', ⟨⟩, rfl⟩)
      exact ⟨rfl, rfl⟩
  | ask r k ih =>
    rw [ask_bind, serves_ask]
    simp only [ih, serves_ask]
    constructor
    · rintro ⟨s₀, hdrift, ⟨a, s₁, hp, hf⟩ | ⟨e, hp, rfl⟩⟩
      · exact .inl ⟨a, s₁, ⟨s₀, hdrift, hp⟩, hf⟩
      · exact .inr ⟨e, ⟨s₀, hdrift, hp⟩, rfl⟩
    · rintro (⟨a, s₁, ⟨s₀, hdrift, hp⟩, hf⟩ | ⟨e, ⟨s₀, hdrift, hp⟩, rfl⟩)
      · exact ⟨s₀, hdrift, .inl ⟨a, s₁, hp, hf⟩⟩
      · exact ⟨s₀, hdrift, .inr ⟨e, hp, rfl⟩⟩

theorem serves_attempt {p : Prog Req Ans ε α} {out : Except ε (Except ε α)} :
    Serves drift serve p.attempt s out s' ↔ ∃ o, Serves drift serve p s o s' ∧ out = .ok o := by
  induction p generalizing s with
  | ret a =>
    rw [show (ret a : Prog Req Ans ε α).attempt = ret (.ok a) from rfl, serves_ret]
    constructor
    · rintro ⟨rfl, rfl⟩
      exact ⟨_, .ret a _, rfl⟩
    · rintro ⟨o, ⟨⟩, rfl⟩
      exact ⟨rfl, rfl⟩
  | raise e =>
    rw [show (raise e : Prog Req Ans ε α).attempt = ret (.error e) from rfl, serves_ret]
    constructor
    · rintro ⟨rfl, rfl⟩
      exact ⟨_, .raise e _, rfl⟩
    · rintro ⟨o, ⟨⟩, rfl⟩
      exact ⟨rfl, rfl⟩
  | ask r k ih =>
    rw [show (ask r k).attempt = ask r fun x => (k x).attempt from rfl, serves_ask]
    simp only [ih, serves_ask]
    constructor
    · rintro ⟨s₀, hdrift, o, hp, rfl⟩
      exact ⟨o, ⟨s₀, hdrift, hp⟩, rfl⟩
    · rintro ⟨o, ⟨s₀, hdrift, hp⟩, rfl⟩
      exact ⟨s₀, hdrift, o, hp, rfl⟩

/-- Served from the state `s` on, the program `p` has come to `q` and the state `s'`. -/
inductive Reaches (drift : S → S → Prop) (serve : S → (r : Req) → Ans r × S) (p : Prog Req Ans ε α)
    (s : S) : Prog Req Ans ε α → S → Prop
  | start : Reaches drift serve p s p s
  | step {r : Req} {k : Ans r → Prog Req Ans ε α} {s₁ s₀ : S} : Reaches drift serve p s (ask r k) s₁ →
      drift s₁ s₀ → Reaches drift serve p s (k (serve s₀ r).1) (serve s₀ r).2

/-- What is served of the rest of a program is served of the program. -/
theorem Reaches.serves {p q : Prog Req Ans ε α} {s₁ : S} (h : Reaches drift serve p s q s₁)
    (hq : Serves drift serve q s₁ out s') : Serves drift serve p s out s' := by
  induction h with
  | start => exact hq
  | step _ hdrift ih => exact ih (.ask hdrift hq)

end Serves

/-! ## What a run keeps -/

/-- Every run of the program keeps the property of states. -/
def Keeps (env : StateEnv S Req Ans) (I : S → Prop) (p : Prog Req Ans ε α) : Prop :=
  ∀ h s, I s → I (play env h s p).state

namespace Keeps

variable {env : StateEnv S Req Ans} {I : S → Prop} {p : Prog Req Ans ε α}

theorem ret (a : α) : Keeps env I (ret a : Prog Req Ans ε α) := fun _ _ hs => hs

theorem raise (e : ε) : Keeps env I (raise e : Prog Req Ans ε α) := fun _ _ hs => hs

theorem lift (x : Except ε α) : Keeps env I (lift x : Prog Req Ans ε α) := fun h s hs => by
  rw [play_lift]
  exact hs

theorem ask {r : Req} {k : Ans r → Prog Req Ans ε α} (hr : ∀ h s, I s → I (env h s r).2)
    (hk : ∀ x, Keeps env I (k x)) : Keeps env I (ask r k) :=
  fun h s hs => hk _ _ _ (hr h s hs)

theorem bind {f : α → Prog Req Ans ε β} (hp : Keeps env I p) (hf : ∀ a, Keeps env I (f a)) :
    Keeps env I (p >>= f) := by
  intro h s hs
  have hfirst := hp h s hs
  rw [play_bind]
  cases hout : (play env h s p).out with
  | ok a => simpa [hout] using hf a _ _ hfirst
  | error e => simpa [hout] using hfirst

theorem attempt (hp : Keeps env I p) : Keeps env I p.attempt := by
  intro h s hs
  rw [play_attempt]
  exact hp h s hs

/-- Whatever a program has done, what follows it sees to the property. -/
theorem attempt_bind {k : Except ε α → Prog Req Ans ε β}
    (hk : ∀ out h s, I (play env h s (k out)).state) : Keeps env I (p.attempt >>= k) := by
  intro h s hs
  rw [play_bind, play_attempt]
  exact hk _ _ _

end Keeps

/-- What every answer keeps of the events so far and the state, a run keeps. -/
theorem play_history {env : StateEnv S Req Ans} {J : List (Event Req Ans) → S → Prop}
    (hkeep : ∀ h s r, J h s → J (h ++ [⟨r, (env h s r).1⟩]) (env h s r).2) (p : Prog Req Ans ε α)
    {h : List (Event Req Ans)} {s : S} (hs : J h s) :
    J (h ++ (play env h s p).trace) (play env h s p).state := by
  induction p generalizing h s with
  | ret a => simpa using hs
  | raise e => simpa using hs
  | ask r k ih =>
    have hrest := ih (env h s r).1 (hkeep h s r hs)
    rw [List.append_assoc] at hrest
    exact hrest

section Rules

variable {P : Req → Bool} {p : Prog Req Ans ε α} {h : List (Event Req Ans)}

/-- No program makes a request that there is not. -/
theorem AtMost.never : AtMost (fun _ => false) 0 p := fun tr _ => by simp

/-- A program without such requests that asks one: the request, and what follows an answer. -/
theorem AtMost.asked {r : Req} {k : Ans r → Prog Req Ans ε α} (hp : AtMost P 0 (Prog.ask r k))
    (x : Ans r) : P r = false ∧ AtMost P 0 (k x) := by
  refine ⟨hp.none (.ask x (.start _)) ⟨r, x⟩ List.mem_cons_self, fun tr htr => ?_⟩
  have hcount := hp _ (.ask x htr)
  rw [List.countP_cons] at hcount
  omega

/-- What the answers to the requests of a program keep of the state, its runs keep. -/
theorem AtMost.keeps {env : StateEnv S Req Ans} {I : S → Prop} (hp : AtMost P 0 p)
    (hkeep : ∀ h s r, P r = false → I s → I (env h s r).2) : Keeps env I p := by
  induction p with
  | ret a => exact .ret a
  | raise e => exact .raise e
  | ask r k ih =>
    intro h s hs
    obtain ⟨hr, hk⟩ := hp.asked (env h s r).1
    exact ih _ hk _ _ (hkeep h s r hr hs)

/-- Two environments that answer the requests of a program alike, on states that stay related. -/
theorem play_alike {env : StateEnv S Req Ans} {env' : StateEnv S' Req Ans} {R : S → S' → Prop} {s : S}
    {s' : S'}
    (halike : ∀ h s s' r, P r = false → R s s' →
      (env h s r).1 = (env' h s' r).1 ∧ R (env h s r).2 (env' h s' r).2)
    (hp : AtMost P 0 p) (hs : R s s') :
    (play env h s p).trace = (play env' h s' p).trace ∧
      (play env h s p).out = (play env' h s' p).out ∧
      R (play env h s p).state (play env' h s' p).state := by
  induction p generalizing h s s' with
  | ret a => exact ⟨rfl, rfl, hs⟩
  | raise e => exact ⟨rfl, rfl, hs⟩
  | ask r k ih =>
    obtain ⟨hr, hk⟩ := hp.asked (env h s r).1
    obtain ⟨hans, hstate⟩ := halike h s s' r hr hs
    rw [play_ask, play_ask, ← hans]
    obtain ⟨htrace, hout, hrest⟩ := ih (env h s r).1 hk hstate
    exact ⟨congrArg _ htrace, hout, hrest⟩

end Rules

end Interact
