import DealershipAgent.Interact.Prog

/-!
# Programs side by side

`par sched p q` interleaves `p` and `q` request by request, as the schedule picks; an exception of one
ends both. `parAll` is the same for a list of programs.

* `runs_par_ok`: a returning run interleaves (`Interleave`) a returning run of each; `runs_par_error`:
  a raising run contains a raising run of one.
* `ParRuns`: the same for lists, in `runs_parAll_ok` and `runs_parAll_error`.
* `ParRuns.det`: in a function's environment the schedule does not matter for what the programs return.
-/

namespace Interact

open Prog

variable {Req : Type} {Ans : Req → Type} {ε α β : Type}

/-- `raise e` beside `q`: the schedule says when `e` is raised. -/
def parRaise (sched : Nat → Bool) (e : ε) : Nat → Prog Req Ans ε β → Prog Req Ans ε (α × β)
  | _, ret _ => raise e
  | n, raise e' => if sched n then raise e else raise e'
  | n, ask r k => if sched n then raise e else ask r fun x => parRaise sched e (n + 1) (k x)

/-- `ask r k` beside `q`; `left` goes on after an answer to `r`. -/
def parAsk (sched : Nat → Bool) (r : Req) (k : Ans r → Prog Req Ans ε α)
    (left : Ans r → Nat → Prog Req Ans ε β → Prog Req Ans ε (α × β)) :
    Nat → Prog Req Ans ε β → Prog Req Ans ε (α × β)
  | _, ret b => (fun a => (a, b)) <$> ask r k
  | n, raise e => if sched n then ask r fun x => left x (n + 1) (raise e) else raise e
  | n, ask r' k' =>
    if sched n then ask r fun x => left x (n + 1) (ask r' k')
    else ask r' fun y => parAsk sched r k left (n + 1) (k' y)

/-- `p` and `q` side by side, the next pick being the `n`-th of the schedule (`true`: `p`). -/
def parFrom (sched : Nat → Bool) :
    Prog Req Ans ε α → Nat → Prog Req Ans ε β → Prog Req Ans ε (α × β)
  | ret a, _, q => (fun b => (a, b)) <$> q
  | raise e, n, q => parRaise sched e n q
  | ask r k, n, q => parAsk sched r k (fun x => parFrom sched (k x)) n q

def par (sched : Nat → Bool) (p : Prog Req Ans ε α) (q : Prog Req Ans ε β) :
    Prog Req Ans ε (α × β) := parFrom sched p 0 q

/-- Any number of programs side by side, with a schedule for each against those after it. -/
def parAll : (Nat → Nat → Bool) → List (Prog Req Ans ε α) → Prog Req Ans ε (List α)
  | _, [] => ret []
  | sched, p :: ps =>
    (fun x => x.1 :: x.2) <$> par (sched 0) p (parAll (fun i => sched (i + 1)) ps)

/-! ## Interleavings -/

/-- `t` interleaves `l` and `r`. -/
inductive Interleave {α : Type} : List α → List α → List α → Prop
  | nil : Interleave [] [] []
  | left {l r t : List α} (a : α) : Interleave l r t → Interleave (a :: l) r (a :: t)
  | right {l r t : List α} (a : α) : Interleave l r t → Interleave l (a :: r) (a :: t)

namespace Interleave

variable {γ : Type} {l r t : List γ}

theorem left_only : ∀ l : List γ, Interleave l [] l
  | [] => .nil
  | a :: l => .left a (left_only l)

theorem right_only : ∀ r : List γ, Interleave [] r r
  | [] => .nil
  | a :: r => .right a (right_only r)

theorem sublist_left (h : Interleave l r t) : l.Sublist t := by
  induction h with
  | nil => exact .slnil
  | left a _ ih => exact ih.cons_cons a
  | right a _ ih => exact ih.cons a

theorem sublist_right (h : Interleave l r t) : r.Sublist t := by
  induction h with
  | nil => exact .slnil
  | left a _ ih => exact ih.cons a
  | right a _ ih => exact ih.cons_cons a

theorem mem_iff (h : Interleave l r t) {a : γ} : a ∈ t ↔ a ∈ l ∨ a ∈ r := by
  induction h with
  | nil => simp
  | left b _ ih => simp [ih, or_assoc]
  | right b _ ih => simp [ih, or_left_comm]

theorem right_nil (h : Interleave l [] t) : l = t := by
  generalize hr : ([] : List γ) = r at h
  induction h with
  | nil => rfl
  | left a _ ih => rw [ih hr]
  | right a _ _ => cases hr

theorem filter {P : γ → Bool} (h : Interleave l r t) :
    Interleave (l.filter P) (r.filter P) (t.filter P) := by
  induction h with
  | nil => exact .nil
  | left a _ ih =>
    by_cases ha : P a = true
    · rw [List.filter_cons_of_pos ha, List.filter_cons_of_pos ha]
      exact .left a ih
    · rw [List.filter_cons_of_neg ha, List.filter_cons_of_neg ha]
      exact ih
  | right a _ ih =>
    by_cases ha : P a = true
    · rw [List.filter_cons_of_pos ha, List.filter_cons_of_pos ha]
      exact .right a ih
    · rw [List.filter_cons_of_neg ha, List.filter_cons_of_neg ha]
      exact ih

theorem countP {P : γ → Bool} (h : Interleave l r t) : t.countP P = l.countP P + r.countP P := by
  induction h with
  | nil => rfl
  | left a _ ih => rw [List.countP_cons, List.countP_cons, ih, Nat.add_right_comm]
  | right a _ ih => rw [List.countP_cons, List.countP_cons, ih, Nat.add_assoc]

theorem symm (h : Interleave l r t) : Interleave r l t := by
  induction h with
  | nil => exact .nil
  | left a _ ih => exact .right a ih
  | right a _ ih => exact .left a ih

theorem left_nil (h : Interleave [] r t) : r = t := h.symm.right_nil

end Interleave

/-! ## Runs side by side -/

section Runs

variable {tr : List (Event Req Ans)} {sched : Nat → Bool}

/-- How a run of two programs side by side comes from runs of the two. -/
def ParOutcome (p : Prog Req Ans ε α) (q : Prog Req Ans ε β) (tr : List (Event Req Ans)) :
    Except ε (α × β) → Prop
  | .ok (a, b) => ∃ t₁ t₂, Interleave t₁ t₂ tr ∧ Runs p t₁ (.ok a) ∧ Runs q t₂ (.ok b)
  | .error e => ∃ t, t.Sublist tr ∧ (Runs p t (.error e) ∨ Runs q t (.error e))

theorem ParOutcome.ask_left {r : Req} {k : Ans r → Prog Req Ans ε α} {q : Prog Req Ans ε β}
    {x : Ans r} {out : Except ε (α × β)} (h : ParOutcome (k x) q tr out) :
    ParOutcome (ask r k) q (⟨r, x⟩ :: tr) out := by
  rcases out with e | ⟨a, b⟩
  · obtain ⟨t, hs, h | h⟩ := h
    · exact ⟨⟨r, x⟩ :: t, hs.cons_cons _, .inl (.ask x h)⟩
    · exact ⟨t, hs.cons _, .inr h⟩
  · obtain ⟨t₁, t₂, hi, h₁, h₂⟩ := h
    exact ⟨⟨r, x⟩ :: t₁, t₂, .left _ hi, .ask x h₁, h₂⟩

theorem ParOutcome.ask_right {r : Req} {k : Ans r → Prog Req Ans ε β} {p : Prog Req Ans ε α}
    {x : Ans r} {out : Except ε (α × β)} (h : ParOutcome p (k x) tr out) :
    ParOutcome p (ask r k) (⟨r, x⟩ :: tr) out := by
  rcases out with e | ⟨a, b⟩
  · obtain ⟨t, hs, h | h⟩ := h
    · exact ⟨t, hs.cons _, .inl h⟩
    · exact ⟨⟨r, x⟩ :: t, hs.cons_cons _, .inr (.ask x h)⟩
  · obtain ⟨t₁, t₂, hi, h₁, h₂⟩ := h
    exact ⟨t₁, ⟨r, x⟩ :: t₂, .right _ hi, h₁, .ask x h₂⟩

theorem ParOutcome.ret_left {a : α} {q : Prog Req Ans ε β} {out : Except ε (α × β)}
    (h : Runs ((fun b => (a, b)) <$> q) tr out) : ParOutcome (ret a) q tr out := by
  obtain ⟨o, ho, rfl⟩ := runs_map.mp h
  cases o with
  | error e => exact ⟨tr, .refl _, .inr ho⟩
  | ok b => exact ⟨[], tr, .right_only tr, .ret a, ho⟩

theorem ParOutcome.ret_right {p : Prog Req Ans ε α} {b : β} {out : Except ε (α × β)}
    (h : Runs ((fun a => (a, b)) <$> p) tr out) : ParOutcome p (ret b) tr out := by
  obtain ⟨o, ho, rfl⟩ := runs_map.mp h
  cases o with
  | error e => exact ⟨tr, .refl _, .inl ho⟩
  | ok a => exact ⟨tr, [], .left_only tr, ho, .ret b⟩

theorem runs_parRaise {e : ε} {n : Nat} {q : Prog Req Ans ε β} {out : Except ε (α × β)}
    (h : Runs (parRaise sched e n q) tr out) : ParOutcome (raise e) q tr out := by
  induction q generalizing n tr with
  | ret b =>
    obtain ⟨rfl, rfl⟩ := runs_raise.mp h
    exact ⟨[], .slnil, .inl (.raise e)⟩
  | raise e' =>
    rw [parRaise] at h
    split at h
    · obtain ⟨rfl, rfl⟩ := runs_raise.mp h
      exact ⟨[], .slnil, .inl (.raise e)⟩
    · obtain ⟨rfl, rfl⟩ := runs_raise.mp h
      exact ⟨[], .slnil, .inr (.raise e')⟩
  | ask r k ih =>
    rw [parRaise] at h
    split at h
    · obtain ⟨rfl, rfl⟩ := runs_raise.mp h
      exact ⟨[], .slnil, .inl (.raise e)⟩
    · obtain ⟨x, tr', rfl, h'⟩ := runs_ask.mp h
      exact (ih x h').ask_right

/-- The outer induction is on `p`, the inner one on `q`: each pick of the schedule takes one
request off one of them. -/
theorem runs_parFrom {p : Prog Req Ans ε α} {n : Nat} {q : Prog Req Ans ε β}
    {out : Except ε (α × β)} (h : Runs (parFrom sched p n q) tr out) : ParOutcome p q tr out := by
  induction p generalizing n q tr with
  | ret a => exact .ret_left h
  | raise e => exact runs_parRaise h
  | ask r k ih =>
    rw [parFrom] at h
    induction q generalizing n tr with
    | ret b => exact .ret_right h
    | raise e =>
      rw [parAsk] at h
      split at h
      · obtain ⟨x, tr', rfl, h'⟩ := runs_ask.mp h
        exact (ih x h').ask_left
      · obtain ⟨rfl, rfl⟩ := runs_raise.mp h
        exact ⟨[], .slnil, .inr (.raise e)⟩
    | ask r' k' ih' =>
      rw [parAsk] at h
      split at h
      · obtain ⟨x, tr', rfl, h'⟩ := runs_ask.mp h
        exact (ih x h').ask_left
      · obtain ⟨y, tr', rfl, h'⟩ := runs_ask.mp h
        exact (ih' y h').ask_right

theorem runs_par_ok {p : Prog Req Ans ε α} {q : Prog Req Ans ε β} {a : α} {b : β}
    (h : Runs (par sched p q) tr (.ok (a, b))) :
    ∃ t₁ t₂, Interleave t₁ t₂ tr ∧ Runs p t₁ (.ok a) ∧ Runs q t₂ (.ok b) :=
  runs_parFrom h

theorem runs_par_error {p : Prog Req Ans ε α} {q : Prog Req Ans ε β} {e : ε}
    (h : Runs (par sched p q) tr (.error e)) :
    ∃ t, t.Sublist tr ∧ (Runs p t (.error e) ∨ Runs q t (.error e)) :=
  runs_parFrom h

/-! ## Lists of programs -/

/-- Returning runs of all of `ps`, interleaved to `tr`. -/
inductive ParRuns : List (Prog Req Ans ε α) → List (Event Req Ans) → List α → Prop
  | nil : ParRuns [] [] []
  | cons {p : Prog Req Ans ε α} {ps : List (Prog Req Ans ε α)} {t t' tr : List (Event Req Ans)}
      {a : α} {as : List α} :
      Interleave t t' tr → Runs p t (.ok a) → ParRuns ps t' as → ParRuns (p :: ps) tr (a :: as)

variable {ps : List (Prog Req Ans ε α)} {as : List α}

theorem runs_parAll_ok {sched : Nat → Nat → Bool} (h : Runs (parAll sched ps) tr (.ok as)) :
    ParRuns ps tr as := by
  induction ps generalizing sched tr as with
  | nil =>
    obtain ⟨rfl, ha⟩ := runs_ret.mp h
    cases ha
    exact .nil
  | cons p ps ih =>
    obtain ⟨o, ho, he⟩ := runs_map.mp h
    rcases o with e | ⟨a, as'⟩
    · cases he
    · cases he
      obtain ⟨t, t', hi, h₁, h₂⟩ := runs_par_ok ho
      exact .cons hi h₁ (ih h₂)

theorem runs_parAll_error {sched : Nat → Nat → Bool} {e : ε}
    (h : Runs (parAll sched ps) tr (.error e)) :
    ∃ p ∈ ps, ∃ t, t.Sublist tr ∧ Runs p t (.error e) := by
  induction ps generalizing sched tr with
  | nil => cases h
  | cons p ps ih =>
    obtain ⟨o, ho, he⟩ := runs_map.mp h
    rcases o with e' | ⟨a, as'⟩
    · cases he
      obtain ⟨t, hs, hp | hps⟩ := runs_par_error ho
      · exact ⟨p, by simp, t, hs, hp⟩
      · obtain ⟨q, hq, t', hs', hrun⟩ := ih hps
        exact ⟨q, by simp [hq], t', hs'.trans hs, hrun⟩
    · cases he

/-! ## One program after the other -/

section Sequential

variable {sched : Nat → Bool} {p : Prog Req Ans ε α} {q : Prog Req Ans ε β}
  {t t' : List (Event Req Ans)} {a : α} {b : β}

/-- Beside a program without requests. -/
theorem Runs.par_ret (h : Runs p t (.ok a)) :
    Runs (par sched p (Prog.ret b)) t (.ok (a, b)) := by
  have hmap : Runs ((fun a => (a, b)) <$> p) t (.ok (a, b)) := runs_map.mpr ⟨_, h, rfl⟩
  cases p with
  | raise e => cases h
  | _ => exact hmap

/-- A schedule that picks the first program only. -/
theorem Runs.par_first (hs : ∀ n, sched n = true) (h : Runs p t (.ok a)) (h' : Runs q t' (.ok b)) :
    Runs (par sched p q) (t ++ t') (.ok (a, b)) := by
  suffices hfrom : ∀ n, Runs (parFrom sched p n q) (t ++ t') (.ok (a, b)) from hfrom 0
  generalize ho : (Except.ok a : Except ε α) = o at h
  induction h with
  | ret a' =>
    cases ho
    exact fun n => runs_map.mpr ⟨_, h', rfl⟩
  | raise e => cases ho
  | @ask r k t out x h ih =>
    subst ho
    intro n
    cases q with
    | ret b' =>
      obtain ⟨rfl, hb⟩ := runs_ret.mp h'
      cases hb
      rw [List.append_nil]
      exact runs_map.mpr ⟨_, .ask x h, rfl⟩
    | raise e => cases h'
    | ask r' k' =>
      rw [parFrom, parAsk, if_pos (hs n)]
      exact .ask x (ih rfl (n + 1))

/-- A schedule that picks the second program only. -/
theorem Runs.par_second (hs : ∀ n, sched n = false) (h : Runs p t (.ok a)) (h' : Runs q t' (.ok b)) :
    Runs (par sched p q) (t' ++ t) (.ok (a, b)) := by
  suffices hfrom : ∀ n, Runs (parFrom sched p n q) (t' ++ t) (.ok (a, b)) from hfrom 0
  generalize ho : (Except.ok b : Except ε β) = o at h'
  induction h' with
  | ret b' =>
    cases ho
    intro n
    have hmap : Runs ((fun a => (a, b)) <$> p) t (.ok (a, b)) := runs_map.mpr ⟨_, h, rfl⟩
    cases p with
    | raise e => cases h
    | _ => exact hmap
  | raise e => cases ho
  | @ask r k t' out x h' ih =>
    subst ho
    intro n
    cases p with
    | ret a' =>
      obtain ⟨rfl, ha⟩ := runs_ret.mp h
      cases ha
      rw [List.append_nil]
      exact runs_map.mpr ⟨_, .ask x h', rfl⟩
    | raise e => cases h
    | ask r' k' =>
      have hstep := ih rfl (n + 1)
      rw [parFrom] at hstep ⊢
      rw [parAsk, if_neg (by simp [hs n])]
      exact .ask x hstep

end Sequential

section SequentialAll

variable {sched : Nat → Nat → Bool} {p q : Prog Req Ans ε α} {t t' : List (Event Req Ans)}
  {a b : α}

theorem Runs.parAll_single (h : Runs p t (.ok a)) : Runs (parAll sched [p]) t (.ok [a]) :=
  runs_map.mpr ⟨.ok (a, []), h.par_ret, rfl⟩

theorem Runs.parAll_first (hs : ∀ n, sched 0 n = true) (h : Runs p t (.ok a))
    (h' : Runs q t' (.ok b)) : Runs (parAll sched [p, q]) (t ++ t') (.ok [a, b]) :=
  runs_map.mpr ⟨.ok (a, [b]), h.par_first hs h'.parAll_single, rfl⟩

theorem Runs.parAll_second (hs : ∀ n, sched 0 n = false) (h : Runs p t (.ok a))
    (h' : Runs q t' (.ok b)) : Runs (parAll sched [p, q]) (t' ++ t) (.ok [a, b]) :=
  runs_map.mpr ⟨.ok (a, [b]), h.par_second hs h'.parAll_single, rfl⟩

end SequentialAll

namespace ParRuns

/-- The run of one program. -/
theorem single {p : Prog Req Ans ε α} (h : ParRuns [p] tr as) :
    ∃ a, as = [a] ∧ Runs p tr (.ok a) := by
  cases h with
  | cons hi hp hps =>
    cases hps
    rw [← hi.right_nil]
    exact ⟨_, rfl, hp⟩

/-- The runs of two programs. -/
theorem pair {p q : Prog Req Ans ε α} (h : ParRuns [p, q] tr as) :
    ∃ a b t t', as = [a, b] ∧ Interleave t t' tr ∧ Runs p t (.ok a) ∧ Runs q t' (.ok b) := by
  cases h with
  | cons hi hp hps =>
    obtain ⟨b, rfl, hq⟩ := hps.single
    exact ⟨_, b, _, _, rfl, hi, hp, hq⟩

/-- Each of the programs has a run in the trace. -/
theorem mem (h : ParRuns ps tr as) {p : Prog Req Ans ε α} (hp : p ∈ ps) :
    ∃ a ∈ as, ∃ t, t.Sublist tr ∧ Runs p t (.ok a) := by
  induction h with
  | nil => cases hp
  | @cons q qs t t' tr a as hi hq hqs ih =>
    rcases List.mem_cons.mp hp with rfl | hp
    · exact ⟨a, by simp, t, hi.sublist_left, hq⟩
    · obtain ⟨b, hb, t'', hs, hrun⟩ := ih hp
      exact ⟨b, by simp [hb], t'', hs.trans hi.sublist_right, hrun⟩

variable {f : (r : Req) → Ans r} {tr' : List (Event Req Ans)}

/-- In a function's environment the results do not depend on the interleaving. -/
theorem det {as' : List α} (h : ParRuns ps tr as) (h' : ParRuns ps tr' as')
    (hc : Consistent f tr) (hc' : Consistent f tr') : as = as' := by
  induction h generalizing tr' as' with
  | nil => cases h'; rfl
  | cons hi hp _ ih =>
    cases h' with
    | cons hi' hp' hps' =>
      obtain ⟨-, ha⟩ := hp.det hp' (fun ev hev => hc ev (hi.sublist_left.subset hev))
        (fun ev hev => hc' ev (hi'.sublist_left.subset hev))
      cases ha
      rw [ih hps' (fun ev hev => hc ev (hi.sublist_right.subset hev))
        (fun ev hev => hc' ev (hi'.sublist_right.subset hev))]

/-- In a function's environment no interleaving raises when one returns. -/
theorem not_error {p : Prog Req Ans ε α} {e : ε} (h : ParRuns ps tr as) (hp : p ∈ ps)
    (he : Runs p tr' (.error e)) (hc : Consistent f tr) (hc' : Consistent f tr') : False := by
  obtain ⟨a, -, t, hs, hrun⟩ := h.mem hp
  cases (hrun.det he (fun ev hev => hc ev (hs.subset hev)) hc').2

end ParRuns

end Runs

end Interact
