import Mathlib.Algebra.GroupWithZero.Nat
import DealershipAgent.Interact.Loop
import DealershipAgent.Interact.Graph

/-!
# How many requests a program makes

* `Begins p tr`: a run of `p` begins with the events `tr`, whether or not it goes on.
* `AtMost P n p`: no run of `p` makes more than `n` requests that satisfy `P`; with `n = 0` it makes none
  (`AtMost.none`). The rules `AtMost.ret`, `AtMost.ask`, `AtMost.bind` and so on follow the program;
  `AtMost.loop` multiplies the bound of an iteration, `AtMost.par` adds the bounds of two programs side
  by side. `AtMost.loop_of` and `AtMost.run_of` are for loops and graphs that make no such request while
  an invariant holds.
-/

namespace Interact

open Prog

variable {Req : Type} {Ans : Req → Type} {ε σ α β : Type}

/-! ## Beginnings of runs -/

inductive Begins : Prog Req Ans ε α → List (Event Req Ans) → Prop
  | start (p : Prog Req Ans ε α) : Begins p []
  | ask {r : Req} {k : Ans r → Prog Req Ans ε α} {tr : List (Event Req Ans)} (x : Ans r) :
      Begins (k x) tr → Begins (ask r k) (⟨r, x⟩ :: tr)

section Begins

variable {tr : List (Event Req Ans)} {p : Prog Req Ans ε α}

theorem Runs.begins {out : Except ε α} (h : Runs p tr out) : Begins p tr := by
  induction h with
  | ret a => exact .start _
  | raise e => exact .start _
  | ask x _ ih => exact .ask x ih

theorem begins_ask {r : Req} {k : Ans r → Prog Req Ans ε α} (h : Begins (ask r k) tr) :
    tr = [] ∨ ∃ x tr', tr = ⟨r, x⟩ :: tr' ∧ Begins (k x) tr' := by
  cases h with
  | start => exact .inl rfl
  | ask x h => exact .inr ⟨x, _, rfl, h⟩

/-- The beginnings of a sequence. -/
theorem begins_bind {f : α → Prog Req Ans ε β} (h : Begins (p >>= f) tr) :
    Begins p tr ∨ ∃ a t₁ t₂, tr = t₁ ++ t₂ ∧ Runs p t₁ (.ok a) ∧ Begins (f a) t₂ := by
  induction p generalizing tr with
  | ret a => exact .inr ⟨a, [], tr, rfl, .ret a, h⟩
  | raise e =>
    cases h
    exact .inl (.start _)
  | ask r k ih =>
    rcases begins_ask h with rfl | ⟨x, tr', rfl, h'⟩
    · exact .inl (.start _)
    · rcases ih x h' with hp | ⟨a, t₁, t₂, rfl, h₁, h₂⟩
      · exact .inl (.ask x hp)
      · exact .inr ⟨a, ⟨r, x⟩ :: t₁, t₂, rfl, .ask x h₁, h₂⟩

theorem begins_attempt (h : Begins p.attempt tr) : Begins p tr := by
  induction p generalizing tr with
  | ret a => cases h; exact .start _
  | raise e => cases h; exact .start _
  | ask r k ih =>
    rcases begins_ask h with rfl | ⟨x, tr', rfl, h'⟩
    · exact .start _
    · exact .ask x (ih x h')

theorem begins_tag {N : Type} {n : N} {tr : List (Event (N × Req) fun r => Ans r.2)}
    (h : Begins (tag n p) tr) : ∃ tr', tr = tr'.map (Event.tag n) ∧ Begins p tr' := by
  induction p generalizing tr with
  | ret a => cases h; exact ⟨[], rfl, .start _⟩
  | raise e => cases h; exact ⟨[], rfl, .start _⟩
  | ask r k ih =>
    rcases begins_ask h with rfl | ⟨x, tr', rfl, h'⟩
    · exact ⟨[], rfl, .start _⟩
    · obtain ⟨t, rfl, ht⟩ := ih x h'
      exact ⟨⟨r, x⟩ :: t, rfl, .ask x ht⟩

/-- The events of a beginning of two programs side by side are those of a beginning of each. -/
def ParBegins (p : Prog Req Ans ε α) (q : Prog Req Ans ε β) (tr : List (Event Req Ans)) : Prop :=
  ∃ t₁ t₂, Interleave t₁ t₂ tr ∧ Begins p t₁ ∧ Begins q t₂

theorem ParBegins.start (p : Prog Req Ans ε α) (q : Prog Req Ans ε β) : ParBegins p q [] :=
  ⟨[], [], .nil, .start p, .start q⟩

theorem ParBegins.ask_left {r : Req} {k : Ans r → Prog Req Ans ε α} {q : Prog Req Ans ε β}
    {x : Ans r} (h : ParBegins (k x) q tr) : ParBegins (ask r k) q (⟨r, x⟩ :: tr) := by
  obtain ⟨t₁, t₂, hi, h₁, h₂⟩ := h
  exact ⟨_, t₂, .left _ hi, .ask x h₁, h₂⟩

theorem ParBegins.ask_right {r : Req} {k : Ans r → Prog Req Ans ε β} {x : Ans r}
    (h : ParBegins p (k x) tr) : ParBegins p (ask r k) (⟨r, x⟩ :: tr) := by
  obtain ⟨t₁, t₂, hi, h₁, h₂⟩ := h
  exact ⟨t₁, _, .right _ hi, h₁, .ask x h₂⟩

theorem begins_map {f : α → β} (h : Begins (f <$> p) tr) : Begins p tr := by
  rcases begins_bind h with h | ⟨a, t₁, t₂, rfl, h₁, h₂⟩
  · exact h
  · cases h₂
    rw [List.append_nil]
    exact h₁.begins

theorem begins_parRaise {sched : Nat → Bool} {e : ε} {n : Nat} {q : Prog Req Ans ε β}
    (h : Begins (parRaise (α := α) sched e n q) tr) : Begins q tr := by
  induction q generalizing n tr with
  | ret b => cases h; exact .start _
  | raise e' =>
    unfold parRaise at h
    split at h <;> cases h <;> exact .start _
  | ask r k ih =>
    unfold parRaise at h
    split at h
    · cases h; exact .start _
    · rcases begins_ask h with rfl | ⟨x, tr', rfl, h'⟩
      · exact .start _
      · exact .ask x (ih x h')

/-- The outer induction is on `p`, the inner one on `q`. -/
theorem begins_parFrom {sched : Nat → Bool} {n : Nat} {q : Prog Req Ans ε β}
    (h : Begins (parFrom sched p n q) tr) : ParBegins p q tr := by
  induction p generalizing n q tr with
  | ret a => exact ⟨[], tr, .right_only _, .start _, begins_map h⟩
  | raise e => exact ⟨[], tr, .right_only _, .start _, begins_parRaise h⟩
  | ask r k ih =>
    rw [parFrom] at h
    induction q generalizing n tr with
    | ret b => exact ⟨tr, [], .left_only _, begins_map h, .start _⟩
    | raise e =>
      rw [parAsk] at h
      split at h
      · rcases begins_ask h with rfl | ⟨x, tr', rfl, h'⟩
        · exact .start _ _
        · exact (ih x h').ask_left
      · cases h
        exact .start _ _
    | ask r' k' ih' =>
      rw [parAsk] at h
      split at h
      · rcases begins_ask h with rfl | ⟨x, tr', rfl, h'⟩
        · exact .start _ _
        · exact (ih x h').ask_left
      · rcases begins_ask h with rfl | ⟨y, tr', rfl, h'⟩
        · exact .start _ _
        · exact (ih' y h').ask_right

end Begins

/-! ## Bounds -/

/-- At most `n` of the requests satisfy `P`. -/
def AtMost (P : Req → Bool) (n : Nat) (p : Prog Req Ans ε α) : Prop :=
  ∀ tr, Begins p tr → tr.countP (fun ev => P ev.req) ≤ n

namespace AtMost

variable {P : Req → Bool} {n m : Nat} {p : Prog Req Ans ε α}

/-- No run makes such a request. -/
theorem none (h : AtMost P 0 p) {tr : List (Event Req Ans)} (hrun : Begins p tr) :
    ∀ ev ∈ tr, P ev.req = false := by
  have hc : tr.countP (fun ev => P ev.req) = 0 := Nat.le_zero.mp (h tr hrun)
  intro ev hev
  simpa using List.countP_eq_zero.mp hc ev hev

theorem ret (a : α) : AtMost P n (ret a : Prog Req Ans ε α) := by
  intro tr h
  cases h
  exact Nat.zero_le n

theorem raise (e : ε) : AtMost P n (raise e : Prog Req Ans ε α) := by
  intro tr h
  cases h
  exact Nat.zero_le n

theorem lift (x : Except ε α) : AtMost P n (lift x : Prog Req Ans ε α) := by
  cases x with
  | ok a => exact .ret a
  | error e => exact .raise e

/-- A request that does not count. -/
theorem skip {r : Req} {k : Ans r → Prog Req Ans ε α} (hr : P r = false)
    (hk : ∀ x, AtMost P n (k x)) : AtMost P n (ask r k) := by
  intro tr h
  rcases begins_ask h with rfl | ⟨x, tr', rfl, h'⟩
  · exact Nat.zero_le n
  · rw [List.countP_cons_of_neg (by simp [hr])]
    exact hk x tr' h'

/-- A request. -/
theorem ask {r : Req} {k : Ans r → Prog Req Ans ε α} (hk : ∀ x, AtMost P n (k x)) :
    AtMost P (n + 1) (ask r k) := by
  intro tr h
  rcases begins_ask h with rfl | ⟨x, tr', rfl, h'⟩
  · exact Nat.zero_le _
  · have := hk x tr' h'
    rw [List.countP_cons]
    split <;> omega

theorem bind {f : α → Prog Req Ans ε β} (hp : AtMost P n p) (hf : ∀ a, AtMost P m (f a)) :
    AtMost P (n + m) (p >>= f) := by
  intro tr h
  rcases begins_bind h with h | ⟨a, t₁, t₂, rfl, h₁, h₂⟩
  · exact Nat.le_trans (hp tr h) (Nat.le_add_right n m)
  · have hp' := hp t₁ h₁.begins
    have hf' := hf a t₂ h₂
    rw [List.countP_append]
    omega

/-- A continuation that makes no such request. -/
theorem bind_left {f : α → Prog Req Ans ε β} (hp : AtMost P n p) (hf : ∀ a, AtMost P 0 (f a)) :
    AtMost P n (p >>= f) :=
  hp.bind hf

/-- A program that makes no such request, and what follows it. -/
theorem bind_right {f : α → Prog Req Ans ε β} (hp : AtMost P 0 p) (hf : ∀ a, AtMost P n (f a)) :
    AtMost P n (p >>= f) := by
  have h := hp.bind hf
  rwa [Nat.zero_add] at h

/-- A program without such requests, and what follows the values that it returns. -/
theorem bind_runs {f : α → Prog Req Ans ε β} (hp : AtMost P 0 p)
    (hf : ∀ a tr, Runs p tr (.ok a) → AtMost P 0 (f a)) : AtMost P 0 (p >>= f) := by
  intro tr h
  rcases begins_bind h with h | ⟨a, t₁, t₂, rfl, h₁, h₂⟩
  · exact hp tr h
  · rw [List.countP_append]
    exact Nat.add_le_add (hp t₁ h₁.begins) (hf a t₁ h₁ t₂ h₂)

theorem map {f : α → β} (hp : AtMost P n p) : AtMost P n (f <$> p) :=
  hp.bind_left fun a => .ret (f a)

theorem attempt (hp : AtMost P n p) : AtMost P n p.attempt :=
  fun tr h => hp tr (begins_attempt h)

/-- A loop of `k` iterations. -/
theorem loop {body : σ → Prog Req Ans ε (σ ⊕ α)} {stop : σ → α} (h : ∀ s, AtMost P n (body s))
    (k : Nat) (s : σ) : AtMost P (k * n) (loop body stop k s) := by
  induction k generalizing s with
  | zero => exact .ret _
  | succ k ih =>
    rw [Nat.succ_mul, Nat.add_comm]
    refine (h s).bind fun x => ?_
    cases x with
    | inl s => exact ih s
    | inr a => exact .ret a

/-- A loop whose iterations make no such request while its variables satisfy an invariant. -/
theorem loop_of {I : σ → Prop} {body : σ → Prog Req Ans ε (σ ⊕ α)} {stop : σ → α}
    (h : ∀ s, I s → AtMost P 0 (body s))
    (hnext : ∀ s tr s', I s → Runs (body s) tr (.ok (.inl s')) → I s') (k : Nat) {s : σ} (hs : I s) :
    AtMost P 0 (Interact.loop body stop k s) := by
  induction k generalizing s with
  | zero => exact .ret _
  | succ k ih =>
    refine (h s hs).bind_runs fun x tr hrun => ?_
    cases x with
    | inl s' => exact ih (hnext s tr s' hs hrun)
    | inr a => exact .ret a

theorem par {sched : Nat → Bool} {q : Prog Req Ans ε β} (hp : AtMost P n p) (hq : AtMost P m q) :
    AtMost P (n + m) (par sched p q) := by
  intro tr h
  obtain ⟨t₁, t₂, hi, h₁, h₂⟩ := begins_parFrom h
  rw [hi.countP]
  have := hp t₁ h₁
  have := hq t₂ h₂
  omega

theorem parAll {sched : Nat → Nat → Bool} {ps : List (Prog Req Ans ε α)}
    (h : ∀ p ∈ ps, AtMost P 0 p) : AtMost P 0 (parAll sched ps) := by
  induction ps generalizing sched with
  | nil => exact .ret _
  | cons p ps ih =>
    exact ((h p List.mem_cons_self).par (ih fun q hq => h q (List.mem_cons_of_mem p hq))).map

theorem tag {N : Type} {P : N × Req → Bool} {k : N} (h : AtMost (fun r => P (k, r)) n p) :
    AtMost P n (tag k p) := by
  intro tr htr
  obtain ⟨tr', rfl, h'⟩ := begins_tag htr
  rw [List.countP_map]
  exact h tr' h'

/-- A graph whose nodes make no such request on states that satisfy what every update keeps. -/
theorem run_of {N St Upd : Type} [DecidableEq N] {g : Graph N St Upd Req Ans ε} {P : N × Req → Bool}
    {I : St → Prop} (hI : ∀ st u, I st → I (g.apply st u))
    (h : ∀ k st, I st → AtMost (fun r => P (k, r)) 0 (g.node k st)) (sched : Nat → Nat → Nat → Bool)
    (limitError : ε) (limit : Nat) (active : List N) {st : St} (hst : I st) :
    AtMost P 0 (g.run sched limitError limit active st) := by
  induction limit generalizing active st with
  | zero =>
    cases active with
    | nil => exact .ret _
    | cons k ks => exact .raise _
  | succ limit ih =>
    cases active with
    | nil => exact .ret _
    | cons k ks =>
      have hfold : ∀ us : List Upd, I (us.foldl g.apply st) := fun us =>
        List.foldlRecOn us g.apply hst fun st hst u _ => hI st u hst
      refine (AtMost.parAll ?_).bind_left fun us => (ih _ (hfold us)).bind_left fun x => .ret _
      intro p hp
      obtain ⟨k', -, rfl⟩ := List.mem_map.mp hp
      exact (h k' st hst).tag

/-- A graph whose nodes make no such request. -/
theorem run {N St Upd : Type} [DecidableEq N] {g : Graph N St Upd Req Ans ε} {P : N × Req → Bool}
    (h : ∀ k st, AtMost (fun r => P (k, r)) 0 (g.node k st)) (sched : Nat → Nat → Nat → Bool)
    (limitError : ε) (limit : Nat) (active : List N) (st : St) :
    AtMost P 0 (g.run sched limitError limit active st) :=
  run_of (I := fun _ => True) (fun _ _ _ => trivial) (fun k st _ => h k st) sched limitError limit active
    trivial

end AtMost

section Graph

variable {N St Upd : Type} [DecidableEq N] {g : Graph N St Upd Req Ans ε} {P : N × Req → Bool}
  {bound : N → Nat}

omit [DecidableEq N] in
/-- A superstep makes at most as many requests as its nodes. -/
theorem ParRuns.countP_le (h : ∀ k st, AtMost (fun r => P (k, r)) (bound k) (g.node k st))
    {active : List N} {st : St} {tr : List (Event (N × Req) fun r => Ans r.2)} {us : List Upd}
    (hp : ParRuns (g.programs active st) tr us) :
    tr.countP (fun ev => P ev.req) ≤ (active.map bound).sum := by
  induction active generalizing tr us with
  | nil =>
    cases hp
    exact Nat.le_refl 0
  | cons k ks ih =>
    cases hp with
    | cons hi hk hks =>
      rw [hi.countP, List.map_cons, List.sum_cons]
      exact Nat.add_le_add ((h k st).tag _ hk.begins) (ih hks)

/-- A run makes at most as many requests as the nodes that it visits. -/
theorem Graph.Reach.countP_le (h : ∀ k st, AtMost (fun r => P (k, r)) (bound k) (g.node k st))
    {active : List N} {st : St} {n : Nat} {c : Config N St Req Ans}
    (hr : Graph.Reach g ⟨active, [], st, []⟩ n c) :
    c.tr.countP (fun ev => P ev.req) ≤ (c.path.map bound).sum := by
  induction hr with
  | start => exact Nat.le_refl 0
  | step _ hs ih =>
    cases hs with
    | mk _ hp =>
      rw [List.countP_append, List.map_append, List.sum_append]
      exact Nat.add_le_add ih (hp.countP_le h)

end Graph

end Interact
