import Mathlib.Algebra.Order.Group.Basic
import Mathlib.Data.List.Count
import Mathlib.Tactic.Linarith

/-!
# Fixed windows

A counter of what was admitted since its window opened. `Counter.roll` opens a new window when the
length of one has passed, `Counter.charge` counts one more.

* `Clock`: readings with a difference that is monotone, exact or rounded. `Rounds`: readings that stand
  for numbers, whose difference is the exact one, rounded; `Rounds.clock`: they are a clock.
* `Accounts`: what a counter says of the readings at which requests were admitted, with a rule for each
  operation (`Accounts.start`, `Accounts.roll`, `Accounts.charge`). Its field `interval` bounds every
  interval of one window length by twice the limit.
-/

namespace Quota

/-- Clock readings: their difference grows with the later and shrinks with the earlier one. -/
class Clock (T : Type) [LinearOrder T] [Zero T] [Sub T] : Prop where
  diff_self : ∀ a : T, a - a = 0
  diff_mono : ∀ {a b c d : T}, a ≤ b → c ≤ d → a - d ≤ b - c

instance {T : Type} [AddCommGroup T] [LinearOrder T] [IsOrderedAddMonoid T] : Clock T where
  diff_self := sub_self
  diff_mono := sub_le_sub

/-- The readings stand for numbers, as floats do, and a difference is the exact one, rounded: it grows
with the exact one, and is exact where it can be. -/
structure Rounds {T G : Type} [LinearOrder T] [Zero T] [Sub T] [AddCommGroup G] [LinearOrder G]
    (value : T → G) : Prop where
  zero : value 0 = 0
  le_iff : ∀ {a b}, value a ≤ value b ↔ a ≤ b
  mono : ∀ {a b c d}, value a - value b ≤ value c - value d → a - b ≤ c - d
  exact : ∀ {a b c}, value a - value b = value c → a - b = c

section Rounds

variable {T G : Type} [LinearOrder T] [Zero T] [Sub T] [AddCommGroup G] [LinearOrder G] {value : T → G}

/-- Any rounding that is monotone and leaves the readings as they are. -/
theorem Rounds.of_round {round : G → T} (hround : Monotone round)
    (hvalue : ∀ {a b}, value a ≤ value b ↔ a ≤ b) (hfix : ∀ a, round (value a) = a)
    (hzero : value 0 = 0) (hsub : ∀ a b, a - b = round (value a - value b)) : Rounds value where
  zero := hzero
  le_iff := hvalue
  mono h := by
    rw [hsub, hsub]
    exact hround h
  exact h := by rw [hsub, h, hfix]

theorem Rounds.of_group {T : Type} [AddCommGroup T] [LinearOrder T] : Rounds (id : T → T) :=
  .of_round monotone_id Iff.rfl (fun _ => rfl) rfl fun _ _ => rfl

/-- What is no more than the exact difference is no more than the rounded one. -/
theorem Rounds.le_sub (h : Rounds value) {a b c : T} (hle : value c ≤ value a - value b) :
    c ≤ a - b := by
  have hc : c - 0 = c := h.exact (by rw [h.zero, sub_zero])
  rw [← hc]
  exact h.mono (by rw [h.zero, sub_zero]; exact hle)

theorem Rounds.clock [IsOrderedAddMonoid G] (h : Rounds value) : Clock T where
  diff_self a := h.exact (by rw [sub_self, h.zero])
  diff_mono hab hcd := h.mono (sub_le_sub (h.le_iff.mpr hab) (h.le_iff.mpr hcd))

end Rounds

/-- A window that opened at `windowStart`, and how many it has admitted. -/
structure Counter (T : Type) where
  windowStart : T
  count : Int := 0
deriving DecidableEq, Repr

section Window

variable {T : Type} [LinearOrder T] [Sub T]

/-- A new window when the old one is over. -/
def Counter.roll (c : Counter T) (length now : T) : Counter T :=
  if length ≤ now - c.windowStart then { windowStart := now } else c

def Counter.charge (c : Counter T) : Counter T := { c with count := c.count + 1 }

omit [LinearOrder T] [Sub T] in
@[simp] theorem Counter.charge_count (c : Counter T) : c.charge.count = c.count + 1 := rfl

omit [LinearOrder T] [Sub T] in
@[simp] theorem Counter.charge_start (c : Counter T) : c.charge.windowStart = c.windowStart := rfl

/-- The reading lies in the interval of the length that `t` begins. -/
def InInterval (length t r : T) : Prop := t ≤ r ∧ r - t < length

instance (length t : T) : DecidablePred (InInterval length t) :=
  fun _ => inferInstanceAs (Decidable (_ ∧ _))

/-- The counter against the readings at which requests were admitted. -/
structure Accounts (length : T) (limit : Int) (c : Counter T) (admitted : List T) : Prop where
  counts : c.count = admitted.countP fun r => decide (c.windowStart ≤ r)
  limited : c.count ≤ limit
  /-- What the open window has admitted lies within its length. -/
  opened : ∀ r ∈ admitted, c.windowStart ≤ r → r - c.windowStart < length
  /-- What was admitted before the open window and less than a length from its start. -/
  before : ∀ t, c.windowStart - t < length →
    (admitted.countP fun r => decide (t ≤ r ∧ r < c.windowStart) : Int) ≤ limit
  interval : ∀ t, (admitted.countP fun r => decide (InInterval length t r) : Int) ≤ 2 * limit

end Window

section Rules

variable {T : Type} [LinearOrder T] [Sub T] {length now : T} {limit : Int} {c : Counter T}
  {admitted : List T}

/-- What passes one of two tests. -/
theorem countP_le_add {α : Type} {l : List α} {p q s : α → Bool}
    (h : ∀ a ∈ l, p a = true → q a = true ∨ s a = true) : l.countP p ≤ l.countP q + l.countP s := by
  induction l with
  | nil => simp
  | cons a l ih =>
    obtain ⟨ha, hl⟩ := List.forall_mem_cons.mp h
    have := ih hl
    rw [List.countP_cons, List.countP_cons, List.countP_cons]
    by_cases hp : p a = true
    · rcases ha hp with hq | hs
      · simp only [hp, hq, if_true]
        omega
      · simp only [hp, hs, if_true]
        omega
    · simp only [hp, Bool.false_eq_true, if_false]
      omega

/-- A counter counts no less than zero. -/
theorem Accounts.nonneg (h : Accounts length limit c admitted) : 0 ≤ c.count := by
  rw [h.counts]
  exact Int.natCast_nonneg _

theorem Accounts.start (hl : 0 ≤ limit) (t : T) :
    Accounts length limit { windowStart := t } [] where
  counts := rfl
  limited := hl
  opened := by simp
  before := fun _ _ => hl
  interval := fun _ => by simpa using hl

theorem Counter.roll_start_le (hn : c.windowStart ≤ now) :
    (c.roll length now).windowStart ≤ now := by
  unfold Counter.roll
  by_cases h : length ≤ now - c.windowStart
  · rw [if_pos h]
  · rw [if_neg h]
    exact hn

/-- A later part of what is admitted is no more than the count of the window. -/
theorem Accounts.later (h : Accounts length limit c admitted) {p : T → Bool}
    (hp : ∀ r ∈ admitted, p r = true → c.windowStart ≤ r) : (admitted.countP p : Int) ≤ limit := by
  have hle : admitted.countP p ≤ admitted.countP fun r => decide (c.windowStart ≤ r) :=
    List.countP_mono_left fun r hr hpr => decide_eq_true (hp r hr hpr)
  have hc := h.counts
  have hlim := h.limited
  omega

variable [Zero T] [Clock T]

/-- After a roll the window is open. -/
theorem Counter.roll_open (hpos : 0 < length) (c : Counter T) (now : T) :
    now - (c.roll length now).windowStart < length := by
  unfold Counter.roll
  by_cases h : length ≤ now - c.windowStart
  · rw [if_pos h, Clock.diff_self]
    exact hpos
  · rw [if_neg h]
    exact not_le.mp h

/-- Nothing that was admitted up to `now` lies in a window that opens then. -/
theorem Accounts.roll (h : Accounts length limit c admitted)
    (hl : 0 ≤ limit) (hn : c.windowStart ≤ now) (ha : ∀ r ∈ admitted, r ≤ now) :
    Accounts length limit (c.roll length now) admitted := by
  unfold Counter.roll
  by_cases hroll : length ≤ now - c.windowStart
  · rw [if_pos hroll]
    have hnone : ∀ r ∈ admitted, ¬ now ≤ r := by
      intro r hr hge
      obtain rfl := le_antisymm (ha r hr) hge
      exact absurd (h.opened r hr hn) (not_lt.mpr hroll)
    refine ⟨?_, hl, fun r hr hge => absurd hge (hnone r hr), fun t ht => ?_, h.interval⟩
    · simp only
      rw [List.countP_eq_zero.mpr (by simpa using hnone)]
      rfl
    · -- an interval that reaches the new window begins in the old one
      refine h.later fun r _ hr => ?_
      by_contra hlt
      have htr : t ≤ r := (of_decide_eq_true hr).1
      have : now - c.windowStart ≤ now - t :=
        Clock.diff_mono (le_refl now) (htr.trans (not_le.mp hlt).le)
      exact absurd ht (not_lt.mpr (hroll.trans this))
  · rw [if_neg hroll]
    exact h

/-- One more request in the open window, when there is room for it. -/
theorem Accounts.charge (h : Accounts length limit c admitted) (hlt : c.count < limit)
    (hopen : now - c.windowStart < length) (hn : c.windowStart ≤ now) :
    Accounts length limit c.charge (admitted ++ [now]) where
  counts := by
    rw [Counter.charge_count, Counter.charge_start, List.countP_append, List.countP_singleton, if_pos (decide_eq_true hn), h.counts]
    rfl
  limited := by
    rw [Counter.charge_count]
    omega
  opened := by
    intro r hr hge
    rcases List.mem_append.mp hr with hr | hr
    · exact h.opened r hr hge
    · rw [List.mem_singleton.mp hr]
      exact hopen
  before := by
    intro t ht
    have hout : ¬ (t ≤ now ∧ now < c.windowStart) := fun h => absurd hn (not_le.mpr h.2)
    simp only [Counter.charge_start, List.countP_append, List.countP_singleton, hout, decide_false,
      Bool.false_eq_true, if_false, Nat.add_zero]
    exact h.before t ht
  interval := by
    intro t
    rw [List.countP_append, List.countP_singleton]
    by_cases hin : InInterval length t now
    · have hbefore := h.before t (lt_of_le_of_lt (Clock.diff_mono hn (le_refl t)) hin.2)
      have hsplit : admitted.countP (fun r => decide (InInterval length t r)) ≤
          admitted.countP (fun r => decide (t ≤ r ∧ r < c.windowStart)) +
            admitted.countP fun r => decide (c.windowStart ≤ r) :=
        countP_le_add fun r _ hr => by
          by_cases hge : c.windowStart ≤ r
          · exact .inr (decide_eq_true hge)
          · exact .inl (decide_eq_true ⟨(of_decide_eq_true hr).1, not_le.mp hge⟩)
      have hc := h.counts
      simp only [hin, decide_true, if_true]
      omega
    · have hle := h.interval t
      simp only [hin, decide_false, Bool.false_eq_true, if_false, Nat.add_zero]
      exact hle

end Rules

/-- With exact differences it is the half-open interval. -/
theorem inInterval_iff_mem_Ico {T : Type} [AddCommGroup T] [LinearOrder T] [IsOrderedAddMonoid T]
    {length t r : T} : InInterval length t r ↔ r ∈ Set.Ico t (t + length) := by
  unfold InInterval
  rw [Set.mem_Ico, sub_lt_iff_lt_add']

end Quota
