import Mathlib.Data.Int.ConditionallyCompleteOrder
import Mathlib.Tactic.Abel
import DealershipAgent.Py.Str
import DealershipAgent.Quota.Window

/-!
# The rate limiter

`api/rate_limit.py`: a window of each key and one of all requests. `check` charges the global window
first and rolls it back when the key's window rejects.

* `Accounted`: what the counters say of the requests allowed so far. `check_accounted`: a check keeps
  it; `checks_accounted`: so does every sequence of checks.
* `rate_limiter_accounting`: in every reachable state the counters count the allowed requests, within
  their limits, and no interval of one window length allows more than twice a limit.
* `retry_after_sufficient`: when the retry time of a rejected check is enough, with differences that
  may be rounded.
-/

namespace DealershipAgent

open Py Quota

/-- `_WindowCounter` -/
abbrev WindowCounter (T : Type) : Type := Counter T

structure RateLimitResult (T : Type) where
  allowed : Bool
  retryAfterSeconds : T
deriving DecidableEq, Repr

/-- The limiter. Its lock makes a check one step. -/
structure RateLimiter (T : Type) where
  perKeyLimit : Int
  globalLimit : Int
  windowSeconds : T
  perKeyWindows : Str → Option (WindowCounter T) := fun _ => none
  globalWindow : WindowCounter T

section Check

variable {T : Type} [LinearOrder T] [Zero T] [Sub T]

/-- `RateLimiter(..)`, at the clock reading `now`. -/
def RateLimiter.new (perKeyLimit globalLimit : Int) (windowSeconds now : T) : RateLimiter T :=
  { perKeyLimit := perKeyLimit, globalLimit := globalLimit, windowSeconds := windowSeconds,
    globalWindow := { windowStart := now } }

/-- `_check_window`, with the counter that it leaves. -/
def checkWindow (windowSeconds : T) (counter : WindowCounter T) (limit : Int) (now : T) :
    RateLimitResult T × WindowCounter T :=
  let counter := counter.roll windowSeconds now
  if limit ≤ counter.count then
    let retryAfter := windowSeconds - (now - counter.windowStart)
    ({ allowed := false, retryAfterSeconds := max retryAfter 0 }, counter)
  else ({ allowed := true, retryAfterSeconds := 0 }, counter.charge)

/-- `self._per_key_windows.setdefault(key, _WindowCounter(window_start=now))` -/
def RateLimiter.counterOf (limiter : RateLimiter T) (key : Str) (now : T) : WindowCounter T :=
  (limiter.perKeyWindows key).getD { windowStart := now }

/-- The limiter with its global window and the counter of a key replaced. -/
def RateLimiter.put (limiter : RateLimiter T) (globalWindow : WindowCounter T) (key : Str)
    (counter : WindowCounter T) : RateLimiter T :=
  { limiter with
    perKeyWindows := Function.update limiter.perKeyWindows key (some counter)
    globalWindow := globalWindow }

/-- `check`, at the clock reading `now`. -/
def RateLimiter.check (limiter : RateLimiter T) (now : T) (key : Str) :
    RateLimitResult T × RateLimiter T :=
  let (globalResult, globalWindow) :=
    checkWindow limiter.windowSeconds limiter.globalWindow limiter.globalLimit now
  if !globalResult.allowed then (globalResult, { limiter with globalWindow := globalWindow })
  else
    let (perKeyResult, counter) :=
      checkWindow limiter.windowSeconds (limiter.counterOf key now) limiter.perKeyLimit now
    if !perKeyResult.allowed then
      -- the global window is not charged for what the key's limit rejects
      (perKeyResult,
        limiter.put { globalWindow with count := globalWindow.count - 1 } key counter)
    else ({ allowed := true, retryAfterSeconds := 0 }, limiter.put globalWindow key counter)

/-- A request: the clock reading and the key. -/
abbrev Check (T : Type) : Type := T × Str

/-- The limiter after the checks, and those that it has allowed. -/
def RateLimiter.checks : RateLimiter T → List (Check T) → RateLimiter T × List (Check T)
  | limiter, [] => (limiter, [])
  | limiter, (now, key) :: calls =>
    let (result, limiter) := limiter.check now key
    let (limiter, allowed) := limiter.checks calls
    (limiter, if result.allowed then (now, key) :: allowed else allowed)

end Check

/-- The readings at which the requests of a key were allowed. -/
def readingsOf {T : Type} (key : Str) (allowed : List (Check T)) : List T :=
  (allowed.filter fun call => decide (call.2 = key)).map Prod.fst

section Accounting

variable {T : Type} [LinearOrder T] [Zero T] [Sub T] {limiter : RateLimiter T} {now : T}
  {key : Str} {allowed : List (Check T)}

/-! ## What a check does -/

/-- A window rejects and is rolled only, or allows and is charged. -/
theorem checkWindow_cases (windowSeconds : T) (counter : WindowCounter T) (limit : Int) (now : T) :
    (∃ retryAfter, checkWindow windowSeconds counter limit now =
      (⟨false, retryAfter⟩, counter.roll windowSeconds now)) ∨
    (counter.roll windowSeconds now).count < limit ∧
      checkWindow windowSeconds counter limit now =
        (⟨true, 0⟩, (counter.roll windowSeconds now).charge) := by
  unfold checkWindow
  by_cases h : limit ≤ (counter.roll windowSeconds now).count
  · rw [if_pos h]
    exact .inl ⟨_, rfl⟩
  · rw [if_neg h]
    exact .inr ⟨not_le.mp h, rfl⟩

/-- A check is rejected by the global window, which it rolls; or by the key's window, when it rolls
both; or it is allowed and charges both. -/
theorem check_cases (limiter : RateLimiter T) (now : T) (key : Str) :
    (∃ retryAfter, limiter.check now key = (⟨false, retryAfter⟩,
      { limiter with globalWindow := limiter.globalWindow.roll limiter.windowSeconds now })) ∨
    (∃ retryAfter, limiter.check now key = (⟨false, retryAfter⟩,
      limiter.put (limiter.globalWindow.roll limiter.windowSeconds now) key
        ((limiter.counterOf key now).roll limiter.windowSeconds now))) ∨
    (limiter.globalWindow.roll limiter.windowSeconds now).count < limiter.globalLimit ∧
      ((limiter.counterOf key now).roll limiter.windowSeconds now).count < limiter.perKeyLimit ∧
      limiter.check now key = (⟨true, 0⟩,
        limiter.put (limiter.globalWindow.roll limiter.windowSeconds now).charge key
          ((limiter.counterOf key now).roll limiter.windowSeconds now).charge) := by
  unfold RateLimiter.check
  rcases checkWindow_cases limiter.windowSeconds limiter.globalWindow limiter.globalLimit now with
    ⟨retryAfter, hg⟩ | ⟨hgc, hg⟩
  · rw [hg]
    exact .inl ⟨retryAfter, rfl⟩
  · rw [hg]
    rcases checkWindow_cases limiter.windowSeconds (limiter.counterOf key now) limiter.perKeyLimit
      now with ⟨retryAfter, hk⟩ | ⟨hkc, hk⟩
    · have hback : (limiter.globalWindow.roll limiter.windowSeconds now).charge.count - 1 =
          (limiter.globalWindow.roll limiter.windowSeconds now).count := by
        rw [Counter.charge_count]
        omega
      simp only [hk, hback]
      exact .inr (.inl ⟨retryAfter, rfl⟩)
    · simp only [hk]
      exact .inr (.inr ⟨hgc, hkc, rfl⟩)

/-! ## Accounting -/

/-- The counters against the requests allowed so far, the last of them no later than `last`. -/
structure Accounted (limiter : RateLimiter T) (last : T) (allowed : List (Check T)) : Prop where
  global : Accounts limiter.windowSeconds limiter.globalLimit limiter.globalWindow
    (allowed.map Prod.fst)
  globalStart : limiter.globalWindow.windowStart ≤ last
  keyed : ∀ key counter, limiter.perKeyWindows key = some counter →
    Accounts limiter.windowSeconds limiter.perKeyLimit counter (readingsOf key allowed) ∧
      counter.windowStart ≤ last
  absent : ∀ key, limiter.perKeyWindows key = none → readingsOf key allowed = []
  past : ∀ call ∈ allowed, call.1 ≤ last

omit [LinearOrder T] [Zero T] [Sub T] in
theorem readingsOf_append (key : Str) (allowed : List (Check T)) (call : Check T) :
    readingsOf key (allowed ++ [call]) =
      readingsOf key allowed ++ if call.2 = key then [call.1] else [] := by
  unfold readingsOf
  by_cases h : call.2 = key <;> simp [h]

omit [LinearOrder T] [Zero T] [Sub T] in
theorem mem_readingsOf {r : T} (h : r ∈ readingsOf key allowed) : (r, key) ∈ allowed := by
  unfold readingsOf at h
  obtain ⟨⟨r', key'⟩, hc, rfl⟩ := List.mem_map.mp h
  obtain ⟨hc, hk⟩ := List.mem_filter.mp hc
  have hkey : key' = key := of_decide_eq_true hk
  rw [← hkey]
  exact hc

variable {last : T}

omit [Zero T] in
/-- The counter of a key, when it has one or a new one. -/
theorem Accounted.counterOf (h : Accounted limiter last allowed) (hk : 0 ≤ limiter.perKeyLimit)
    (hn : last ≤ now) (key : Str) :
    Accounts limiter.windowSeconds limiter.perKeyLimit (limiter.counterOf key now)
        (readingsOf key allowed) ∧ (limiter.counterOf key now).windowStart ≤ now := by
  unfold RateLimiter.counterOf
  cases hc : limiter.perKeyWindows key with
  | none =>
    rw [h.absent key hc]
    exact ⟨.start hk now, le_refl now⟩
  | some counter =>
    obtain ⟨hacc, hstart⟩ := h.keyed key counter hc
    exact ⟨hacc, hstart.trans hn⟩

omit [Zero T] in
/-- Time passes. -/
theorem Accounted.later (h : Accounted limiter last allowed) (hn : last ≤ now) :
    Accounted limiter now allowed where
  global := h.global
  globalStart := h.globalStart.trans hn
  keyed key counter hc := ⟨(h.keyed key counter hc).1, (h.keyed key counter hc).2.trans hn⟩
  absent := h.absent
  past call hc := (h.past call hc).trans hn

omit [Zero T] in
/-- New counters that account for the requests of all and of the key. -/
theorem Accounted.put {globalWindow counter : WindowCounter T} {more : List (Check T)}
    (h : Accounted limiter now allowed) (hmore : more = [] ∨ more = [(now, key)])
    (hg : Accounts limiter.windowSeconds limiter.globalLimit globalWindow
      ((allowed ++ more).map Prod.fst)) (hgs : globalWindow.windowStart ≤ now)
    (hk : Accounts limiter.windowSeconds limiter.perKeyLimit counter
      (readingsOf key (allowed ++ more))) (hks : counter.windowStart ≤ now) :
    Accounted (limiter.put globalWindow key counter) now (allowed ++ more) := by
  have hother : ∀ key', key' ≠ key → readingsOf key' (allowed ++ more) = readingsOf key' allowed := by
    intro key' hne
    rcases hmore with rfl | rfl
    · rw [List.append_nil]
    · rw [readingsOf_append, if_neg (Ne.symm hne), List.append_nil]
  refine ⟨hg, hgs, fun key' counter' hc => ?_, fun key' hc => ?_, fun call hc => ?_⟩
  · change Function.update limiter.perKeyWindows key (some counter) key' = some counter' at hc
    by_cases hkey : key' = key
    · subst hkey
      rw [Function.update_self] at hc
      cases hc
      exact ⟨hk, hks⟩
    · rw [Function.update_of_ne hkey] at hc
      rw [hother key' hkey]
      exact h.keyed key' counter' hc
  · change Function.update limiter.perKeyWindows key (some counter) key' = none at hc
    by_cases hkey : key' = key
    · subst hkey
      rw [Function.update_self] at hc
      cases hc
    · rw [Function.update_of_ne hkey] at hc
      rw [hother key' hkey]
      exact h.absent key' hc
  · rcases List.mem_append.mp hc with hc | hc
    · exact h.past call hc
    · rcases hmore with rfl | rfl
      · cases hc
      · rw [List.mem_singleton.mp hc]

/-- A check keeps the accounts, of one request more if it is allowed. -/
theorem check_accounted [Clock T] (h : Accounted limiter last allowed)
    (hk : 0 ≤ limiter.perKeyLimit) (hg : 0 ≤ limiter.globalLimit) (hw : 0 < limiter.windowSeconds)
    (hn : last ≤ now) :
    Accounted (limiter.check now key).2 now
      (allowed ++ if (limiter.check now key).1.allowed then [(now, key)] else []) := by
  have hnow := h.later hn
  have hpast : ∀ r ∈ allowed.map Prod.fst, r ≤ now := by
    intro r hr
    obtain ⟨call, hc, rfl⟩ := List.mem_map.mp hr
    exact hnow.past call hc
  have hglobal := hnow.global.roll hg hnow.globalStart hpast
  have hglobalStart : (limiter.globalWindow.roll limiter.windowSeconds now).windowStart ≤ now :=
    Counter.roll_start_le hnow.globalStart
  obtain ⟨hcounter, hcounterStart⟩ := hnow.counterOf hk (le_refl now) key
  have hkeyed := hcounter.roll hk hcounterStart fun r hr => hnow.past _ (mem_readingsOf hr)
  have hkeyedStart : ((limiter.counterOf key now).roll limiter.windowSeconds now).windowStart ≤ now :=
    Counter.roll_start_le hcounterStart
  rcases check_cases limiter now key with ⟨retryAfter, hc⟩ | ⟨retryAfter, hc⟩ | ⟨hgc, hkc, hc⟩
  · rw [hc]
    simp only [Bool.false_eq_true, if_false, List.append_nil]
    exact ⟨hglobal, hglobalStart, hnow.keyed, hnow.absent, hnow.past⟩
  · rw [hc]
    simp only [Bool.false_eq_true, if_false]
    refine hnow.put (.inl rfl) ?_ hglobalStart ?_ hkeyedStart
    · rw [List.append_nil]
      exact hglobal
    · rw [List.append_nil]
      exact hkeyed
  · rw [hc]
    simp only [if_true]
    refine hnow.put (.inr rfl) ?_ hglobalStart ?_ hkeyedStart
    · rw [List.map_append]
      exact hglobal.charge hgc (Counter.roll_open hw _ now) hglobalStart
    · rw [readingsOf_append, if_pos rfl]
      exact hkeyed.charge hkc (Counter.roll_open hw _ now) hkeyedStart

theorem check_limits (limiter : RateLimiter T) (now : T) (key : Str) :
    (limiter.check now key).2.perKeyLimit = limiter.perKeyLimit ∧
      (limiter.check now key).2.globalLimit = limiter.globalLimit ∧
      (limiter.check now key).2.windowSeconds = limiter.windowSeconds := by
  rcases check_cases limiter now key with ⟨retryAfter, hc⟩ | ⟨retryAfter, hc⟩ | ⟨-, -, hc⟩ <;>
    rw [hc] <;> exact ⟨rfl, rfl, rfl⟩

/-- A sequence of checks keeps the limits and the accounts. -/
theorem checks_accounted [Clock T] {calls : List (Check T)} (h : Accounted limiter last allowed)
    (hk : 0 ≤ limiter.perKeyLimit) (hg : 0 ≤ limiter.globalLimit) (hw : 0 < limiter.windowSeconds)
    (htime : (last :: calls.map Prod.fst).Pairwise (· ≤ ·)) :
    (limiter.checks calls).1.perKeyLimit = limiter.perKeyLimit ∧
      (limiter.checks calls).1.globalLimit = limiter.globalLimit ∧
      (limiter.checks calls).1.windowSeconds = limiter.windowSeconds ∧
      ∃ last' ∈ last :: calls.map Prod.fst,
        Accounted (limiter.checks calls).1 last' (allowed ++ (limiter.checks calls).2) := by
  induction calls generalizing limiter last allowed with
  | nil =>
    refine ⟨rfl, rfl, rfl, last, List.mem_cons_self, ?_⟩
    simpa [RateLimiter.checks] using h
  | cons call calls ih =>
    obtain ⟨now, key⟩ := call
    obtain ⟨hlast, htail⟩ := List.pairwise_cons.mp htime
    have hstep : Accounted (limiter.check now key).2 now _ :=
      check_accounted h hk hg hw (hlast now List.mem_cons_self)
    obtain ⟨hk', hg', hw'⟩ := check_limits limiter now key
    obtain ⟨hk'', hg'', hw'', last', hlast', hrest⟩ :=
      ih hstep (hk' ▸ hk) (hg' ▸ hg) (hw' ▸ hw) htail
    refine ⟨hk''.trans hk', hg''.trans hg', hw''.trans hw', last', List.mem_cons_of_mem _ hlast', ?_⟩
    rw [List.append_assoc] at hrest
    simp only [RateLimiter.checks]
    by_cases hallowed : (limiter.check now key).1.allowed = true
    · rw [if_pos hallowed] at hrest ⊢
      exact hrest
    · rw [if_neg hallowed] at hrest ⊢
      exact hrest

omit [Zero T] in
theorem new_accounted {globalLimit : Int} (perKeyLimit : Int) (windowSeconds start : T)
    (hg : 0 ≤ globalLimit) :
    Accounted (RateLimiter.new perKeyLimit globalLimit windowSeconds start) start [] where
  global := .start hg start
  globalStart := le_refl start
  keyed key counter hc := by cases hc
  absent _ _ := rfl
  past call hc := by cases hc

/-- In every state that a limiter reaches by checks at non-decreasing readings: the global counter
counts the requests allowed since the global window opened and each key's counter those of the key since
its own window opened, within zero and the limit; and every interval of one window length has at most
twice a limit of allowed requests. -/
theorem rate_limiter_accounting [Clock T] {perKeyLimit globalLimit : Int} {windowSeconds start : T}
    {calls : List (Check T)} (hk : 0 ≤ perKeyLimit) (hg : 0 ≤ globalLimit) (hw : 0 < windowSeconds)
    (htime : (start :: calls.map Prod.fst).Pairwise (· ≤ ·))
    (hrun : (RateLimiter.new perKeyLimit globalLimit windowSeconds start).checks calls =
      (limiter, allowed)) :
    (limiter.globalWindow.count =
        ((allowed.map Prod.fst).countP fun r => decide (limiter.globalWindow.windowStart ≤ r)) ∧
      0 ≤ limiter.globalWindow.count ∧ limiter.globalWindow.count ≤ globalLimit) ∧
    (∀ key counter, limiter.perKeyWindows key = some counter →
      counter.count =
          ((readingsOf key allowed).countP fun r => decide (counter.windowStart ≤ r)) ∧
        0 ≤ counter.count ∧ counter.count ≤ perKeyLimit) ∧
    (∀ key, limiter.perKeyWindows key = none → readingsOf key allowed = []) ∧
    ∀ t, ((allowed.map Prod.fst).countP fun r => decide (InInterval windowSeconds t r) : Int) ≤
        2 * globalLimit ∧
      ∀ key, ((readingsOf key allowed).countP fun r => decide (InInterval windowSeconds t r) : Int) ≤
        2 * perKeyLimit := by
  obtain ⟨hk', hg', hw', last, -, hacc⟩ :=
    checks_accounted (new_accounted perKeyLimit windowSeconds start hg) hk hg hw htime
  rw [List.nil_append, hrun] at hacc
  rw [hrun] at hk' hg' hw'
  simp only [RateLimiter.new] at hk' hg' hw'
  have hglobal := hacc.global
  rw [hg', hw'] at hglobal
  have hkeyed := hacc.keyed
  rw [hk', hw'] at hkeyed
  refine ⟨⟨hglobal.counts, hglobal.nonneg, hglobal.limited⟩, fun key counter hc => ?_, hacc.absent,
    fun t => ⟨hglobal.interval t, fun key => ?_⟩⟩
  · have h := (hkeyed key counter hc).1
    exact ⟨h.counts, h.nonneg, h.limited⟩
  · cases hc : limiter.perKeyWindows key with
    | none =>
      rw [hacc.absent key hc, List.countP_nil]
      omega
    | some counter => exact (hkeyed key counter hc).1.interval t

end Accounting

/-! ## How long to wait -/

section RetryAfter

variable {T : Type} [LinearOrder T] [Zero T] [Sub T] {limiter limiter' : RateLimiter T}
  {windowSeconds now retryAfter : T} {limit : Int} {counter : WindowCounter T} {key : Str}

/-- The window is open and has admitted all that it may. -/
def UsedUp (windowSeconds : T) (limit : Int) (counter : WindowCounter T) (now : T) : Prop :=
  now - counter.windowStart < windowSeconds ∧ limit ≤ counter.count

/-- The global window rejects, and the key's own window, opened after it, is used up too. -/
def HidesKeyWindow (limiter : RateLimiter T) (now : T) (key : Str) : Prop :=
  UsedUp limiter.windowSeconds limiter.globalLimit limiter.globalWindow now ∧
    ∃ counter, limiter.perKeyWindows key = some counter ∧ limiter.perKeyLimit ≤ counter.count ∧
      limiter.globalWindow.windowStart < counter.windowStart

omit [Zero T] in
/-- There is room in a window, rolled, exactly when it is not used up. -/
theorem roll_room_iff (hlimit : 0 < limit) :
    (counter.roll windowSeconds now).count < limit ↔ ¬ UsedUp windowSeconds limit counter now := by
  unfold Counter.roll UsedUp
  by_cases h : windowSeconds ≤ now - counter.windowStart
  · rw [if_pos h]
    exact iff_of_true hlimit fun hu => absurd hu.1 (not_lt.mpr h)
  · rw [if_neg h, not_and, not_le]
    exact ⟨fun hc _ => hc, fun hc => hc (not_le.mp h)⟩

/-- A window that is used up rejects until its end. -/
theorem checkWindow_usedUp (h : UsedUp windowSeconds limit counter now) :
    checkWindow windowSeconds counter limit now =
      (⟨false, max (windowSeconds - (now - counter.windowStart)) 0⟩, counter) := by
  have hroll : counter.roll windowSeconds now = counter := if_neg (not_le.mpr h.1)
  unfold checkWindow
  rw [hroll, if_pos h.2]

theorem checkWindow_room (hlimit : 0 < limit) (h : ¬ UsedUp windowSeconds limit counter now) :
    checkWindow windowSeconds counter limit now =
      (⟨true, 0⟩, (counter.roll windowSeconds now).charge) := by
  unfold checkWindow
  rw [if_neg (not_le.mpr ((roll_room_iff hlimit).mpr h))]

/-- A check allows exactly when neither window is used up. -/
theorem check_allowed_iff (hk : 0 < limiter.perKeyLimit) (hg : 0 < limiter.globalLimit) :
    (limiter.check now key).1.allowed = true ↔
      ¬ UsedUp limiter.windowSeconds limiter.globalLimit limiter.globalWindow now ∧
        ¬ UsedUp limiter.windowSeconds limiter.perKeyLimit (limiter.counterOf key now) now := by
  unfold RateLimiter.check
  by_cases hglobal : UsedUp limiter.windowSeconds limiter.globalLimit limiter.globalWindow now
  · rw [checkWindow_usedUp hglobal]
    exact iff_of_false (by simp) fun h => h.1 hglobal
  · rw [checkWindow_room hg hglobal]
    by_cases hkey : UsedUp limiter.windowSeconds limiter.perKeyLimit (limiter.counterOf key now) now
    · rw [checkWindow_usedUp hkey]
      exact iff_of_false (by simp) fun h => h.2 hkey
    · rw [checkWindow_room hk hkey]
      exact iff_of_true rfl ⟨hglobal, hkey⟩

omit [LinearOrder T] [Zero T] [Sub T] in
theorem put_counterOf (limiter : RateLimiter T) (globalWindow : WindowCounter T) (key : Str)
    (counter : WindowCounter T) (now : T) :
    (limiter.put globalWindow key counter).counterOf key now = counter := by
  simp [RateLimiter.put, RateLimiter.counterOf]

/-- A check that the global window rejects. -/
theorem check_global (hused : UsedUp limiter.windowSeconds limiter.globalLimit limiter.globalWindow now)
    (hcheck : limiter.check now key = (⟨false, retryAfter⟩, limiter')) :
    retryAfter = max (limiter.windowSeconds - (now - limiter.globalWindow.windowStart)) 0 ∧
      limiter' = limiter := by
  unfold RateLimiter.check at hcheck
  rw [checkWindow_usedUp hused] at hcheck
  obtain ⟨hresult, rfl⟩ := Prod.mk.inj hcheck
  exact ⟨(RateLimitResult.mk.inj hresult).2.symm, rfl⟩

/-- A check that the window of its key rejects leaves the global window its room. -/
theorem check_key (hk : 0 < limiter.perKeyLimit) (hg : 0 < limiter.globalLimit)
    (hroom : ¬ UsedUp limiter.windowSeconds limiter.globalLimit limiter.globalWindow now)
    (hcheck : limiter.check now key = (⟨false, retryAfter⟩, limiter')) :
    UsedUp limiter.windowSeconds limiter.perKeyLimit (limiter.counterOf key now) now ∧
      retryAfter = max (limiter.windowSeconds - (now - (limiter.counterOf key now).windowStart)) 0 ∧
      ∃ globalWindow : WindowCounter T, globalWindow.count < limiter.globalLimit ∧
        limiter' = limiter.put globalWindow key (limiter.counterOf key now) := by
  have hused : UsedUp limiter.windowSeconds limiter.perKeyLimit (limiter.counterOf key now) now := by
    by_contra hkey
    have hallowed := (check_allowed_iff hk hg).mpr ⟨hroom, hkey⟩
    rw [hcheck] at hallowed
    cases hallowed
  have hcount := (roll_room_iff hg).mpr hroom
  unfold RateLimiter.check at hcheck
  rw [checkWindow_room hg hroom, checkWindow_usedUp hused] at hcheck
  obtain ⟨hresult, rfl⟩ := Prod.mk.inj hcheck
  refine ⟨hused, (RateLimitResult.mk.inj hresult).2.symm, _, ?_, rfl⟩
  change (limiter.globalWindow.roll limiter.windowSeconds now).count + 1 - 1 < limiter.globalLimit
  omega

/-! ### Rounded readings -/

variable {G : Type} [AddCommGroup G] [LinearOrder G] {value : T → G}

/-- What is left of the window is not rounded down. -/
def Outlasts (value : T → G) (windowSeconds : T) (counter : WindowCounter T) (now : T) : Prop :=
  value counter.windowStart + value windowSeconds ≤
    value now + value (windowSeconds - (now - counter.windowStart))

/-- So it is of the window that rejects: the global one, or else the key's. -/
def RetryOutlasts (value : T → G) (limiter : RateLimiter T) (now : T) (key : Str) : Prop :=
  (UsedUp limiter.windowSeconds limiter.globalLimit limiter.globalWindow now →
    Outlasts value limiter.windowSeconds limiter.globalWindow now) ∧
  (¬ UsedUp limiter.windowSeconds limiter.globalLimit limiter.globalWindow now →
    Outlasts value limiter.windowSeconds (limiter.counterOf key now) now)

/-- A check at any reading from `now + retryAfter` on, exactly added, is allowed. -/
def RetrySuffices (value : T → G) (limiter : RateLimiter T) (now retryAfter : T) (key : Str) : Prop :=
  ∀ later, value now + value retryAfter ≤ value later → (limiter.check later key).1.allowed = true

/-- No difference is rounded, and the sums are readings too. -/
structure ExactReadings (value : T → G) : Prop where
  sub : ∀ a b, value (a - b) = value a - value b
  add : ∀ a b, ∃ c, value c = value a + value b

omit [LinearOrder T] [Zero T] in
theorem ExactReadings.outlasts (h : ExactReadings value) (windowSeconds : T)
    (counter : WindowCounter T) (now : T) : Outlasts value windowSeconds counter now := by
  unfold Outlasts
  rw [h.sub, h.sub]
  exact le_of_eq (by abel)

variable [IsOrderedAddMonoid G]

/-- The time to wait for the end of an open window. -/
theorem wait_bounds (hvalue : Rounds value) (hopen : now - counter.windowStart < windowSeconds)
    (hstart : counter.windowStart ≤ now) :
    max (windowSeconds - (now - counter.windowStart)) 0 = windowSeconds - (now - counter.windowStart) ∧
      0 ≤ windowSeconds - (now - counter.windowStart) ∧
      windowSeconds - (now - counter.windowStart) ≤ windowSeconds := by
  have := hvalue.clock
  have hpassed : 0 ≤ now - counter.windowStart := by
    rw [← Clock.diff_self counter.windowStart]
    exact Clock.diff_mono hstart (le_refl _)
  have hpos : 0 ≤ windowSeconds - (now - counter.windowStart) := by
    rw [← Clock.diff_self windowSeconds]
    exact Clock.diff_mono (le_refl _) hopen.le
  refine ⟨max_eq_left hpos, hpos, ?_⟩
  calc windowSeconds - (now - counter.windowStart)
      ≤ windowSeconds - 0 := Clock.diff_mono (le_refl _) hpassed
    _ = windowSeconds := hvalue.exact (by rw [hvalue.zero, sub_zero])

/-- After its end no window is used up. -/
theorem not_usedUp_after {later : T} (hvalue : Rounds value)
    (h : value counter.windowStart + value windowSeconds ≤ value later) :
    ¬ UsedUp windowSeconds limit counter later := by
  rintro ⟨hopen, -⟩
  exact absurd hopen (not_lt.mpr (hvalue.le_sub (le_sub_iff_add_le'.mpr h)))

/-- A check that the global window rejects. -/
theorem retry_after_global (hvalue : Rounds value) (hk : 0 < limiter.perKeyLimit)
    (hg : 0 < limiter.globalLimit) (hstart : limiter.globalWindow.windowStart ≤ now)
    (hused : UsedUp limiter.windowSeconds limiter.globalLimit limiter.globalWindow now)
    (hcheck : limiter.check now key = (⟨false, retryAfter⟩, limiter')) :
    (0 ≤ retryAfter ∧ retryAfter ≤ limiter.windowSeconds) ∧
    (Outlasts value limiter.windowSeconds limiter.globalWindow now → ¬ HidesKeyWindow limiter now key →
      RetrySuffices value limiter' now retryAfter key) ∧
    (ExactReadings value → RetrySuffices value limiter' now retryAfter key →
      ¬ HidesKeyWindow limiter now key) := by
  obtain ⟨hmax, hpos, hle⟩ := wait_bounds hvalue hused.1 hstart
  obtain ⟨rfl, rfl⟩ := check_global hused hcheck
  rw [hmax]
  refine ⟨⟨hpos, hle⟩, fun houtlasts hhides later hl => ?_, fun hexact hsuffices => ?_⟩
  · have hend := houtlasts.trans hl
    refine (check_allowed_iff hk hg).mpr ⟨not_usedUp_after hvalue hend, fun hkey => hhides ⟨hused, ?_⟩⟩
    unfold RateLimiter.counterOf at hkey
    cases hc : limiter'.perKeyWindows key with
    | none =>
      rw [hc] at hkey
      exact absurd hkey.2 (not_le.mpr hk)
    | some counter =>
      rw [hc] at hkey
      refine ⟨counter, rfl, hkey.2, ?_⟩
      by_contra hopened
      have hstarts := hvalue.le_iff.mpr (not_lt.mp hopened)
      exact not_usedUp_after hvalue ((add_le_add_left hstarts _).trans hend) hkey
  · rintro ⟨-, counter, hc, hcount, hopened⟩
    -- the reading at the end of the global window
    obtain ⟨later, hlater⟩ := hexact.add limiter'.globalWindow.windowStart limiter'.windowSeconds
    have hend : value now + value (limiter'.windowSeconds - (now - limiter'.globalWindow.windowStart)) =
        value later := by
      rw [hlater, hexact.sub, hexact.sub]
      abel
    refine ((check_allowed_iff hk hg).mp (hsuffices later hend.le)).2 ?_
    rw [RateLimiter.counterOf, hc]
    refine ⟨lt_of_not_ge fun hover => ?_, hcount⟩
    have hpassed := hvalue.le_iff.mpr hover
    rw [Option.getD_some, hexact.sub, hlater, le_sub_iff_add_le', add_le_add_iff_right] at hpassed
    exact absurd (hvalue.le_iff.mp hpassed) (not_le.mpr hopened)

/-- A check that the window of its key rejects. -/
theorem retry_after_key (hvalue : Rounds value) (hk : 0 < limiter.perKeyLimit)
    (hg : 0 < limiter.globalLimit) (hstart : (limiter.counterOf key now).windowStart ≤ now)
    (hroom : ¬ UsedUp limiter.windowSeconds limiter.globalLimit limiter.globalWindow now)
    (hcheck : limiter.check now key = (⟨false, retryAfter⟩, limiter')) :
    (0 ≤ retryAfter ∧ retryAfter ≤ limiter.windowSeconds) ∧
    (Outlasts value limiter.windowSeconds (limiter.counterOf key now) now →
      RetrySuffices value limiter' now retryAfter key) := by
  obtain ⟨hused, rfl, globalWindow, hcount, rfl⟩ := check_key hk hg hroom hcheck
  obtain ⟨hmax, hpos, hle⟩ := wait_bounds hvalue hused.1 hstart
  rw [hmax]
  refine ⟨⟨hpos, hle⟩, fun houtlasts later hl => (check_allowed_iff ?_ ?_).mpr
    ⟨fun hglobal => ?_, ?_⟩⟩
  · exact hk
  · exact hg
  · -- the global window still has the room that it had
    exact absurd hglobal.2 (not_le.mpr hcount)
  · rw [put_counterOf]
    exact not_usedUp_after hvalue (houtlasts.trans hl)

/-- In every state that is reached by checks at non-decreasing readings, when a check is rejected, its
retry time lies within a window length. A check of the key after it is allowed, if the global window has
not hidden a window of the key that is used up and opened later, and what is left of the window that
rejects is not rounded down. Where nothing is rounded, the first condition is necessary too. -/
theorem retry_after_sufficient {perKeyLimit globalLimit : Int} {start : T}
    {calls allowed : List (Check T)} (hvalue : Rounds value) (hk : 1 ≤ perKeyLimit)
    (hg : 1 ≤ globalLimit) (hw : 0 < windowSeconds)
    (htime : (start :: (calls.map Prod.fst ++ [now])).Pairwise (· ≤ ·))
    (hrun : (RateLimiter.new perKeyLimit globalLimit windowSeconds start).checks calls =
      (limiter, allowed))
    (hcheck : limiter.check now key = (⟨false, retryAfter⟩, limiter')) :
    (0 ≤ retryAfter ∧ retryAfter ≤ windowSeconds) ∧
    (RetryOutlasts value limiter now key → ¬ HidesKeyWindow limiter now key →
      RetrySuffices value limiter' now retryAfter key) ∧
    (ExactReadings value →
      (RetrySuffices value limiter' now retryAfter key ↔ ¬ HidesKeyWindow limiter now key)) := by
  have := hvalue.clock
  have hk₀ : 0 ≤ perKeyLimit := by omega
  have hg₀ : 0 ≤ globalLimit := by omega
  rw [← List.cons_append, List.pairwise_append] at htime
  obtain ⟨hk', hg', hw', last, hlast, hacc⟩ :=
    checks_accounted (new_accounted perKeyLimit windowSeconds start hg₀) hk₀ hg₀ hw htime.1
  have hnow : last ≤ now := htime.2.2 last hlast now (List.mem_singleton_self now)
  rw [hrun] at hk' hg' hw' hacc
  simp only [RateLimiter.new] at hk' hg' hw'
  subst hk' hg' hw'
  by_cases hused : UsedUp limiter.windowSeconds limiter.globalLimit limiter.globalWindow now
  · obtain ⟨hbounds, hsuffices, hnecessary⟩ :=
      retry_after_global hvalue hk hg (hacc.globalStart.trans hnow) hused hcheck
    exact ⟨hbounds, fun houtlasts => hsuffices (houtlasts.1 hused), fun hexact =>
      ⟨hnecessary hexact, hsuffices (hexact.outlasts _ _ _)⟩⟩
  · obtain ⟨hbounds, hsuffices⟩ :=
      retry_after_key hvalue hk hg (hacc.counterOf hk₀ hnow key).2 hused hcheck
    exact ⟨hbounds, fun houtlasts _ => hsuffices (houtlasts.2 hused), fun hexact =>
      iff_of_true (hsuffices (hexact.outlasts _ _ _)) fun hhides => hused hhides.1⟩

end RetryAfter

/-- Five requests of one key around the end of its first window. -/
def burst : List (Check Int) := [(0, "1"), (59, "1"), (60, "1"), (60, "1"), (60, "1")]

/-- With two a minute all but the last are allowed: three of them within one minute. -/
theorem burst_accounting :
    ((RateLimiter.new 2 10 60 0).checks burst).2 = burst.take 4 ∧
      ((readingsOf "1" ((RateLimiter.new 2 10 60 0).checks burst).2).countP fun r =>
        decide (r ∈ Set.Ico (59 : Int) (59 + 60)) : Int) ≤ 2 * 2 := by
  have hrun : (RateLimiter.new 2 10 60 (0 : Int)).checks burst = (_, _) := rfl
  have h := ((rate_limiter_accounting (by decide) (by decide) (by decide) (by decide) hrun).2.2.2
    59).2 "1"
  simp only [inInterval_iff_mem_Ico] at h
  exact ⟨by decide, h⟩

/-- The minute of the burst is used up, and the global window is not. -/
theorem burst_retry :
    (((RateLimiter.new 2 10 60 (0 : Int)).checks burst).1.check 100 "1").1 = ⟨false, 20⟩ ∧
      ((((RateLimiter.new 2 10 60 (0 : Int)).checks burst).1.check 100 "1").2.check 120
        "1").1.allowed = true := by
  have hcheck : ((RateLimiter.new 2 10 60 (0 : Int)).checks burst).1.check 100 "1" =
      (⟨false, 20⟩, _) := rfl
  have hexact : ExactReadings (id : Int → Int) := ⟨fun _ _ => rfl, fun a b => ⟨a + b, rfl⟩⟩
  obtain ⟨-, hsuffices, -⟩ := retry_after_sufficient .of_group (by decide) (by decide) (by decide) (by decide)
    rfl hcheck
  refine ⟨rfl, hsuffices ⟨fun _ => hexact.outlasts _ _ _, fun _ => hexact.outlasts _ _ _⟩
    (fun hhides => ?_) 120 (by decide)⟩
  have hglobal := hhides.1.2
  revert hglobal
  decide

/-- One request a minute for each key and two for all: the second key's window opens late. -/
def lateKey : List (Check Int) := [(0, "1"), (30, "2")]

/-- The global window's retry time is over at 60, the key's window is not. -/
theorem lateKey_rejected :
    (((RateLimiter.new 1 2 60 (0 : Int)).checks lateKey).1.check 40 "2").1 = ⟨false, 20⟩ ∧
      ((((RateLimiter.new 1 2 60 (0 : Int)).checks lateKey).1.check 40 "2").2.check (40 + 20)
        "2").1.allowed = false := by
  decide

end DealershipAgent
