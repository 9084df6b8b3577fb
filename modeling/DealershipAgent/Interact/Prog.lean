import Mathlib.Tactic.Common

/-!
# Programs that ask their environment

`Prog Req Ans ε α` is a program that returns an `α`, raises an `ε`, or asks a request `r` and goes on
with the answer, an `Ans r`. It is an inductive tree, so every run ends.

* `Runs p tr out`: with the requests and answers of the trace `tr`, `p` ends in `out`. The rules
  `runs_ret`, `runs_raise`, `runs_ask`, `runs_bind`, `runs_attempt`, `runs_tag` follow the program.
* `exec env h p`: the run in an environment that may answer by all that went before. `exec_runs`
  makes a property of all runs one of every environment.
* `Consistent f tr`: the answers are those of the function `f`. Then there is one run only
  (`Runs.det`).
* `tag n p`: `p` with its requests marked by who asks.
-/

namespace Interact

/-- A program over requests `Req` with answers `Ans`, exceptions `ε` and results `α`. -/
inductive Prog (Req : Type) (Ans : Req → Type) (ε α : Type) : Type where
  | ret (a : α)
  | raise (e : ε)
  | ask (r : Req) (k : Ans r → Prog Req Ans ε α)

/-- A request and its answer. -/
structure Event (Req : Type) (Ans : Req → Type) where
  req : Req
  ans : Ans req

variable {Req : Type} {Ans : Req → Type} {ε α β : Type}

namespace Prog

def bind : Prog Req Ans ε α → (α → Prog Req Ans ε β) → Prog Req Ans ε β
  | ret a, f => f a
  | raise e, _ => raise e
  | ask r k, f => ask r fun x => bind (k x) f

instance : Monad (Prog Req Ans ε) where
  pure := ret
  bind := bind

/-- Ask one request. -/
def call (r : Req) : Prog Req Ans ε (Ans r) := ask r ret

/-- A computation without requests. -/
def lift : Except ε α → Prog Req Ans ε α
  | .ok a => ret a
  | .error e => raise e

/-- `try`: the exception becomes a result. -/
def attempt : Prog Req Ans ε α → Prog Req Ans ε (Except ε α)
  | ret a => ret (.ok a)
  | raise e => ret (.error e)
  | ask r k => ask r fun x => attempt (k x)

/-- `p` with the mark `n` on its requests. -/
def tag {N : Type} (n : N) :
    Prog Req Ans ε α → Prog (N × Req) (fun r => Ans r.2) ε α
  | ret a => ret a
  | raise e => raise e
  | ask r k => ask (n, r) fun x => tag n (k x)

@[simp] theorem pure_eq (a : α) : (pure a : Prog Req Ans ε α) = ret a := rfl

@[simp] theorem ret_bind (a : α) (f : α → Prog Req Ans ε β) : ret a >>= f = f a := rfl

@[simp] theorem ask_bind (r : Req) (k : Ans r → Prog Req Ans ε α) (f : α → Prog Req Ans ε β) :
    ask r k >>= f = ask r fun x => k x >>= f := rfl

theorem bind_ret (p : Prog Req Ans ε α) : p >>= ret = p := by
  induction p with
  | ret a => rfl
  | raise e => rfl
  | ask r k ih => exact congrArg (ask r) (funext ih)

theorem bind_assoc {γ : Type} (p : Prog Req Ans ε α) (f : α → Prog Req Ans ε β)
    (g : β → Prog Req Ans ε γ) : p >>= f >>= g = p >>= fun a => f a >>= g := by
  induction p with
  | ret a => rfl
  | raise e => rfl
  | ask r k ih => exact congrArg (ask r) (funext ih)

instance : LawfulMonad (Prog Req Ans ε) :=
  LawfulMonad.mk' _ (fun p => bind_ret p) (fun _ _ => rfl) (fun p f g => bind_assoc p f g)

theorem map_eq_bind (f : α → β) (p : Prog Req Ans ε α) : f <$> p = p >>= fun a => ret (f a) := rfl

end Prog

open Prog

/-! ## Runs -/

/-- With the answers of `tr`, the program asks the requests of `tr` and ends in the outcome. -/
inductive Runs : Prog Req Ans ε α → List (Event Req Ans) → Except ε α → Prop
  | ret (a : α) : Runs (ret a) [] (.ok a)
  | raise (e : ε) : Runs (raise e) [] (.error e)
  | ask {r : Req} {k : Ans r → Prog Req Ans ε α} {tr : List (Event Req Ans)} {out : Except ε α}
      (x : Ans r) : Runs (k x) tr out → Runs (ask r k) (⟨r, x⟩ :: tr) out

section Rules

variable {tr : List (Event Req Ans)} {out : Except ε α}

@[simp] theorem runs_ret {a : α} : Runs (ret a) tr out ↔ tr = [] ∧ out = .ok a := by
  constructor
  · intro h; cases h; exact ⟨rfl, rfl⟩
  · rintro ⟨rfl, rfl⟩; exact .ret a

@[simp] theorem runs_raise {e : ε} : Runs (raise e) tr out ↔ tr = [] ∧ out = .error e := by
  constructor
  · intro h; cases h; exact ⟨rfl, rfl⟩
  · rintro ⟨rfl, rfl⟩; exact .raise e

theorem runs_ask {r : Req} {k : Ans r → Prog Req Ans ε α} :
    Runs (ask r k) tr out ↔ ∃ x tr', tr = ⟨r, x⟩ :: tr' ∧ Runs (k x) tr' out := by
  constructor
  · intro h; cases h with
    | ask x h => exact ⟨x, _, rfl, h⟩
  · rintro ⟨x, tr', rfl, h⟩; exact .ask x h

@[simp] theorem runs_lift {x : Except ε α} :
    Runs (lift x : Prog Req Ans ε α) tr out ↔ tr = [] ∧ out = x := by
  cases x <;> simp [lift]

/-- A request whose answer is the outcome, up to `f`. -/
theorem runs_ask_lift {r : Req} {f : Ans r → Except ε α} :
    Runs (ask r fun x => lift (f x)) tr out ↔ ∃ x, tr = [⟨r, x⟩] ∧ out = f x := by
  rw [runs_ask]
  simp only [runs_lift]
  constructor
  · rintro ⟨x, _, rfl, rfl, rfl⟩
    exact ⟨x, rfl, rfl⟩
  · rintro ⟨x, rfl, rfl⟩
    exact ⟨x, [], rfl, rfl, rfl⟩

/-- A run of a sequence: the first part returns and the second runs on, or the first part
raises. -/
theorem runs_bind {p : Prog Req Ans ε α} {f : α → Prog Req Ans ε β} {out : Except ε β} :
    Runs (p >>= f) tr out ↔
      (∃ a tr₁ tr₂, tr = tr₁ ++ tr₂ ∧ Runs p tr₁ (.ok a) ∧ Runs (f a) tr₂ out) ∨
      (∃ e, Runs p tr (.error e) ∧ out = .error e) := by
  induction p generalizing tr with
  | ret a =>
    constructor
    · intro h; exact .inl ⟨a, [], tr, rfl, .ret a, h⟩
    · rintro (⟨a', tr₁, tr₂, rfl, h₁, h₂⟩ | ⟨e, h, -⟩)
      · obtain ⟨rfl, ha⟩ := runs_ret.mp h₁
        cases ha; exact h₂
      · cases h
  | raise e =>
    constructor
    · intro h
      obtain ⟨rfl, rfl⟩ := runs_raise.mp h
      exact .inr ⟨e, .raise e, rfl⟩
    · rintro (⟨a', tr₁, tr₂, rfl, h₁, -⟩ | ⟨e', h, rfl⟩)
      · cases h₁
      · cases h; exact .raise e
  | ask r k ih =>
    rw [ask_bind, runs_ask]
    constructor
    · rintro ⟨x, tr', rfl, h⟩
      rcases (ih x).mp h with ⟨a, tr₁, tr₂, rfl, h₁, h₂⟩ | ⟨e, h', rfl⟩
      · exact .inl ⟨a, ⟨r, x⟩ :: tr₁, tr₂, rfl, .ask x h₁, h₂⟩
      · exact .inr ⟨e, .ask x h', rfl⟩
    · rintro (⟨a, tr₁, tr₂, rfl, h₁, h₂⟩ | ⟨e, h, rfl⟩)
      · obtain ⟨x, tr', rfl, h₁'⟩ := runs_ask.mp h₁
        exact ⟨x, tr' ++ tr₂, rfl, (ih x).mpr (.inl ⟨a, tr', tr₂, rfl, h₁', h₂⟩)⟩
      · obtain ⟨x, tr', rfl, h'⟩ := runs_ask.mp h
        exact ⟨x, tr', rfl, (ih x).mpr (.inr ⟨e, h', rfl⟩)⟩

/-- The returning runs of a sequence. -/
theorem runs_bind_ok {p : Prog Req Ans ε α} {f : α → Prog Req Ans ε β} {b : β} :
    Runs (p >>= f) tr (.ok b) ↔
      ∃ a tr₁ tr₂, tr = tr₁ ++ tr₂ ∧ Runs p tr₁ (.ok a) ∧ Runs (f a) tr₂ (.ok b) := by
  rw [runs_bind]
  constructor
  · rintro (h | ⟨e, -, h⟩)
    · exact h
    · cases h
  · exact .inl

theorem runs_map {p : Prog Req Ans ε α} {f : α → β} {out : Except ε β} :
    Runs (f <$> p) tr out ↔ ∃ o, Runs p tr o ∧ out = o.map f := by
  rw [map_eq_bind, runs_bind]
  constructor
  · rintro (⟨a, tr₁, tr₂, rfl, h₁, h₂⟩ | ⟨e, h, rfl⟩)
    · obtain ⟨rfl, rfl⟩ := runs_ret.mp h₂
      exact ⟨.ok a, by simpa using h₁, rfl⟩
    · exact ⟨.error e, h, rfl⟩
  · rintro ⟨o, h, rfl⟩
    cases o with
    | ok a => exact .inl ⟨a, tr, [], by simp, h, .ret _⟩
    | error e => exact .inr ⟨e, h, rfl⟩

theorem runs_attempt {p : Prog Req Ans ε α} {out : Except ε (Except ε α)} :
    Runs (attempt p) tr out ↔ ∃ o, Runs p tr o ∧ out = .ok o := by
  induction p generalizing tr with
  | ret a => simp [attempt]
  | raise e => simp [attempt]
  | ask r k ih =>
    simp only [attempt, runs_ask, ih]
    constructor
    · rintro ⟨x, tr', rfl, o, h, rfl⟩
      exact ⟨o, ⟨x, tr', rfl, h⟩, rfl⟩
    · rintro ⟨o, ⟨x, tr', rfl, h⟩, rfl⟩
      exact ⟨x, tr', rfl, o, h, rfl⟩

/-- An event with the mark `n`. -/
def Event.tag {N : Type} (n : N) (ev : Event Req Ans) :
    Event (N × Req) (fun r => Ans r.2) := ⟨(n, ev.req), ev.ans⟩

theorem runs_tag {N : Type} {n : N} {p : Prog Req Ans ε α}
    {tr : List (Event (N × Req) fun r => Ans r.2)} {out : Except ε α} :
    Runs (tag n p) tr out ↔ ∃ tr', tr = tr'.map (Event.tag n) ∧ Runs p tr' out := by
  induction p generalizing tr with
  | ret a =>
    simp only [tag, runs_ret]
    constructor
    · rintro ⟨rfl, rfl⟩; exact ⟨[], rfl, rfl, rfl⟩
    · rintro ⟨tr', rfl, rfl, rfl⟩; exact ⟨rfl, rfl⟩
  | raise e =>
    simp only [tag, runs_raise]
    constructor
    · rintro ⟨rfl, rfl⟩; exact ⟨[], rfl, rfl, rfl⟩
    · rintro ⟨tr', rfl, rfl, rfl⟩; exact ⟨rfl, rfl⟩
  | ask r k ih =>
    simp only [tag, runs_ask, ih]
    constructor
    · rintro ⟨x, _, rfl, tr', rfl, h⟩
      exact ⟨⟨r, x⟩ :: tr', rfl, x, tr', rfl, h⟩
    · rintro ⟨_, rfl, x, tr', rfl, h⟩
      exact ⟨x, _, rfl, tr', rfl, h⟩

end Rules

/-! ## Environments -/

/-- An environment: it answers by the requests and answers so far and the new request. -/
abbrev Env (Req : Type) (Ans : Req → Type) : Type := List (Event Req Ans) → (r : Req) → Ans r

/-- The trace and the outcome of the run in `env`, after the events `h`. -/
def exec (env : Env Req Ans) :
    List (Event Req Ans) → Prog Req Ans ε α → List (Event Req Ans) × Except ε α
  | _, ret a => ([], .ok a)
  | _, raise e => ([], .error e)
  | h, ask r k =>
    let x := env h r
    let (tr, out) := exec env (h ++ [⟨r, x⟩]) (k x)
    (⟨r, x⟩ :: tr, out)

theorem exec_runs (env : Env Req Ans) (h : List (Event Req Ans)) (p : Prog Req Ans ε α) :
    Runs p (exec env h p).1 (exec env h p).2 := by
  induction p generalizing h with
  | ret a => exact .ret a
  | raise e => exact .raise e
  | ask r k ih => exact .ask (env h r) (ih _ _)

/-- The answers of the trace are those of `env`, after the events `h`. -/
def Answers (env : Env Req Ans) : List (Event Req Ans) → List (Event Req Ans) → Prop
  | _, [] => True
  | h, ev :: tr => ev.ans = env h ev.req ∧ Answers env (h ++ [ev]) tr

theorem exec_answers (env : Env Req Ans) (h : List (Event Req Ans)) (p : Prog Req Ans ε α) :
    Answers env h (exec env h p).1 := by
  induction p generalizing h with
  | ret a => trivial
  | raise e => trivial
  | ask r k ih => exact ⟨rfl, ih _ _⟩

theorem Answers.append {env : Env Req Ans} {h tr tr' : List (Event Req Ans)} :
    Answers env h (tr ++ tr') ↔ Answers env h tr ∧ Answers env (h ++ tr) tr' := by
  induction tr generalizing h with
  | nil => simp [Answers]
  | cons ev tr ih =>
    rw [List.cons_append, Answers, Answers, ih, List.append_assoc, List.singleton_append, and_assoc]

/-- A run on the answers of `env` is the run in `env`. -/
theorem Runs.exec_eq {env : Env Req Ans} {h tr : List (Event Req Ans)} {p : Prog Req Ans ε α}
    {out : Except ε α} (hrun : Runs p tr out) (ha : Answers env h tr) : exec env h p = (tr, out) := by
  induction hrun generalizing h with
  | ret a => rfl
  | raise e => rfl
  | @ask r k tr out x _ ih =>
    obtain ⟨hx, ha⟩ := ha
    obtain rfl : x = env h r := hx
    simp only [exec, ih ha]

theorem exec_map (env : Env Req Ans) (f : α → β) (h : List (Event Req Ans))
    (p : Prog Req Ans ε α) : exec env h (f <$> p) = ((exec env h p).1, (exec env h p).2.map f) :=
  Runs.exec_eq (runs_map.mpr ⟨_, exec_runs env h p, rfl⟩) (exec_answers env h p)

/-- The run of a sequence whose first part returns. -/
theorem exec_bind {env : Env Req Ans} {h tr : List (Event Req Ans)} {p : Prog Req Ans ε α} {a : α}
    {f : α → Prog Req Ans ε β} (hrun : Runs p tr (.ok a)) (ha : Answers env h tr) :
    exec env h (p >>= f) = (tr ++ (exec env (h ++ tr) (f a)).1, (exec env (h ++ tr) (f a)).2) :=
  Runs.exec_eq (runs_bind.mpr (.inl ⟨a, tr, _, rfl, hrun, exec_runs env (h ++ tr) (f a)⟩))
    (Answers.append.mpr ⟨ha, exec_answers env (h ++ tr) (f a)⟩)

/-- What holds of every answer that `env` gives holds of every event of a run. -/
theorem exec_forall {env : Env Req Ans} {Q : Event Req Ans → Prop}
    (hQ : ∀ h r, Q ⟨r, env h r⟩) (h : List (Event Req Ans)) (p : Prog Req Ans ε α) :
    ∀ ev ∈ (exec env h p).1, Q ev := by
  induction p generalizing h with
  | ret a => intro ev hev; cases hev
  | raise e => intro ev hev; cases hev
  | ask r k ih =>
    intro ev hev
    rcases List.mem_cons.mp hev with rfl | hev
    · exact hQ h r
    · exact ih _ _ ev hev

/-- The environment that answers by the function `f` of the request. -/
def Env.const (f : (r : Req) → Ans r) : Env Req Ans := fun _ r => f r

/-- The answers of the trace are those of `f`. -/
def Consistent (f : (r : Req) → Ans r) (tr : List (Event Req Ans)) : Prop :=
  ∀ ev ∈ tr, ev.ans = f ev.req

theorem exec_const_consistent (f : (r : Req) → Ans r) (h : List (Event Req Ans))
    (p : Prog Req Ans ε α) : Consistent f (exec (Env.const f) h p).1 :=
  exec_forall (fun _ _ => rfl) h p

theorem Consistent.answers {f : (r : Req) → Ans r} {h tr : List (Event Req Ans)}
    (hc : Consistent f tr) : Answers (Env.const f) h tr := by
  induction tr generalizing h with
  | nil => trivial
  | cons ev tr ih => exact ⟨hc ev (by simp), ih fun ev' hev' => hc ev' (by simp [hev'])⟩

/-- In a function's environment there is one run only. -/
theorem Runs.det {f : (r : Req) → Ans r} {p : Prog Req Ans ε α} {tr₁ tr₂ : List (Event Req Ans)}
    {o₁ o₂ : Except ε α} (h₁ : Runs p tr₁ o₁) (h₂ : Runs p tr₂ o₂) (c₁ : Consistent f tr₁)
    (c₂ : Consistent f tr₂) : tr₁ = tr₂ ∧ o₁ = o₂ := by
  induction h₁ generalizing tr₂ with
  | ret a => obtain ⟨rfl, rfl⟩ := runs_ret.mp h₂; exact ⟨rfl, rfl⟩
  | raise e => obtain ⟨rfl, rfl⟩ := runs_raise.mp h₂; exact ⟨rfl, rfl⟩
  | @ask r k tr out x h₁ ih =>
    obtain ⟨y, tr', rfl, h₂'⟩ := runs_ask.mp h₂
    have hx : x = f r := c₁ ⟨r, x⟩ (by simp)
    have hy : y = f r := c₂ ⟨r, y⟩ (by simp)
    subst hx hy
    obtain ⟨rfl, rfl⟩ := ih h₂' (fun ev hev => c₁ ev (by simp [hev]))
      (fun ev hev => c₂ ev (by simp [hev]))
    exact ⟨rfl, rfl⟩

/-- On the beginning of one list of events there is one run only. -/
theorem Runs.det_start {p : Prog Req Ans ε α} {tr₁ tr₂ rest₁ rest₂ : List (Event Req Ans)}
    {o₁ o₂ : Except ε α} (h₁ : Runs p tr₁ o₁) (h₂ : Runs p tr₂ o₂)
    (h : tr₁ ++ rest₁ = tr₂ ++ rest₂) : tr₁ = tr₂ ∧ o₁ = o₂ := by
  induction h₁ generalizing tr₂ with
  | ret a => obtain ⟨rfl, rfl⟩ := runs_ret.mp h₂; exact ⟨rfl, rfl⟩
  | raise e => obtain ⟨rfl, rfl⟩ := runs_raise.mp h₂; exact ⟨rfl, rfl⟩
  | @ask r k tr out x h₁ ih =>
    obtain ⟨y, tr', rfl, h₂'⟩ := runs_ask.mp h₂
    rw [List.cons_append, List.cons_append, List.cons.injEq] at h
    obtain ⟨hxy, htl⟩ := h
    cases hxy
    obtain ⟨rfl, rfl⟩ := ih h₂' htl
    exact ⟨rfl, rfl⟩

end Interact
