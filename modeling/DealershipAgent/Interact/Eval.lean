import DealershipAgent.Interact.Prog

/-!
# Programs in a function's environment

`eval f p` is the outcome of `p` when `f` answers its requests; `exec_const_eval` connects it to the
runs of `p`. It goes through the formers of programs by `eval_bind`, `eval_attempt` and so on.
-/

namespace Interact

open Prog

variable {Req : Type} {Ans : Req → Type} {ε α β : Type} {f : (r : Req) → Ans r}

def eval (f : (r : Req) → Ans r) : Prog Req Ans ε α → Except ε α
  | ret a => .ok a
  | raise e => .error e
  | ask r k => eval f (k (f r))

theorem exec_const_eval (h : List (Event Req Ans)) (p : Prog Req Ans ε α) :
    (exec (Env.const f) h p).2 = eval f p := by
  induction p generalizing h with
  | ret a => rfl
  | raise e => rfl
  | ask r k ih => exact ih (f r) _

@[simp] theorem eval_ret (a : α) : eval f (ret a : Prog Req Ans ε α) = .ok a := rfl

@[simp] theorem eval_raise (e : ε) : eval f (raise e : Prog Req Ans ε α) = .error e := rfl

@[simp] theorem eval_ask (r : Req) (k : Ans r → Prog Req Ans ε α) :
    eval f (ask r k) = eval f (k (f r)) := rfl

@[simp] theorem eval_lift (x : Except ε α) : eval f (lift x : Prog Req Ans ε α) = x := by
  cases x <;> rfl

@[simp] theorem eval_bind (p : Prog Req Ans ε α) (g : α → Prog Req Ans ε β) :
    eval f (p >>= g) = (eval f p).bind fun a => eval f (g a) := by
  induction p with
  | ret a => rfl
  | raise e => rfl
  | ask r k ih => exact ih (f r)

@[simp] theorem eval_map (p : Prog Req Ans ε α) (g : α → β) :
    eval f (g <$> p) = (eval f p).map g := by
  rw [map_eq_bind, eval_bind]
  cases eval f p <;> rfl

@[simp] theorem eval_attempt (p : Prog Req Ans ε α) : eval f p.attempt = .ok (eval f p) := by
  induction p with
  | ret a => rfl
  | raise e => rfl
  | ask r k ih => exact ih (f r)

end Interact
