import Mathlib.Logic.Function.Basic
import DealershipAgent.Interact.Graph

/-!
# Programs over a shared store

Any number of clients `N`, each with its own program and at its own pace. A store serves their requests
one at a time, and may choose among several answers.

* `Leads p tr q`: by the events `tr`, `p` comes to `q`. The rules `leads_ret`, `leads_raise`,
  `leads_ask`, `leads_lift_bind`, `leads_ask_lift_bind` follow the program.
* `SharedRun`: the runs of the clients over the store, in every order of their requests.
* `SharedRun.leads`: a client has gone by its own events, as if it were alone. `SharedRun.append`,
  `SharedRun.split`: runs are put together and taken apart.
* `SharedRun.always`: what holds at first and is kept by each step. `SharedRun.invariant` is for the
  store and the requests that it serves.
* `SharedRun.mapStore`: a store that simulates another one.
* `Cuts`: a program that raises where another one goes on. `SharedRun.uncut`: what programs do that are
  cut, the whole ones can do.
-/

namespace Interact

open Prog

variable {Req : Type} {Ans : Req → Type} {ε α β : Type}

/-! ## Where a program is -/

inductive Leads : Prog Req Ans ε α → List (Event Req Ans) → Prog Req Ans ε α → Prop
  | refl (p : Prog Req Ans ε α) : Leads p [] p
  | ask {r : Req} {k : Ans r → Prog Req Ans ε α} {tr : List (Event Req Ans)}
      {q : Prog Req Ans ε α} (x : Ans r) : Leads (k x) tr q → Leads (ask r k) (⟨r, x⟩ :: tr) q

section Leads

variable {tr : List (Event Req Ans)} {p q : Prog Req Ans ε α}

theorem leads_ret {a : α} (h : Leads (ret a) tr q) : tr = [] ∧ q = ret a := by
  cases h
  exact ⟨rfl, rfl⟩

theorem leads_raise {e : ε} (h : Leads (raise e) tr q) : tr = [] ∧ q = raise e := by
  cases h
  exact ⟨rfl, rfl⟩

theorem leads_ask {r : Req} {k : Ans r → Prog Req Ans ε α} (h : Leads (ask r k) tr q) :
    (tr = [] ∧ q = ask r k) ∨ ∃ x tr', tr = ⟨r, x⟩ :: tr' ∧ Leads (k x) tr' q := by
  cases h with
  | refl => exact .inl ⟨rfl, rfl⟩
  | ask x h => exact .inr ⟨x, _, rfl, h⟩

theorem leads_lift_bind {x : Except ε β} {f : β → Prog Req Ans ε α} (h : Leads (lift x >>= f) tr q) :
    (∃ e, x = .error e ∧ tr = [] ∧ q = raise e) ∨ ∃ b, x = .ok b ∧ Leads (f b) tr q := by
  cases x with
  | error e => exact .inl ⟨e, rfl, leads_raise h⟩
  | ok b => exact .inr ⟨b, rfl, h⟩

/-- A request, up to `g`, and what follows it. -/
theorem leads_ask_lift_bind {r : Req} {g : Ans r → Except ε β} {f : β → Prog Req Ans ε α}
    (h : Leads (ask r (fun x => lift (g x)) >>= f) tr q) :
    (tr = [] ∧ ∃ k, q = ask r k) ∨ (∃ x e, tr = [⟨r, x⟩] ∧ g x = .error e ∧ q = raise e) ∨
      ∃ x b tr', tr = ⟨r, x⟩ :: tr' ∧ g x = .ok b ∧ Leads (f b) tr' q := by
  rcases leads_ask h with ⟨rfl, rfl⟩ | ⟨x, tr', rfl, hrest⟩
  · exact .inl ⟨rfl, _, rfl⟩
  · rcases leads_lift_bind hrest with ⟨e, hg, rfl, rfl⟩ | ⟨b, hg, hrest⟩
    · exact .inr (.inl ⟨x, e, rfl, hg, rfl⟩)
    · exact .inr (.inr ⟨x, b, tr', rfl, hg, hrest⟩)

/-- One more request. -/
theorem Leads.snoc {r : Req} {k : Ans r → Prog Req Ans ε α} (h : Leads p tr (Prog.ask r k))
    (x : Ans r) :
    Leads p (tr ++ [⟨r, x⟩]) (k x) := by
  generalize hq : Prog.ask r k = q at h
  induction h with
  | refl p =>
    subst hq
    exact .ask x (.refl _)
  | ask y _ ih => exact .ask y (ih hq)

/-- A program that has come to its end has run. -/
theorem Leads.returned {a : α} (h : Leads p tr (ret a)) : Runs p tr (.ok a) := by
  generalize hq : ret a = q at h
  induction h with
  | refl p =>
    subst hq
    exact .ret a
  | ask x _ ih => exact .ask x (ih hq)

end Leads

/-! ## Clients over a store -/

/-- What the store does with a request: its answer, and the store after it. -/
abbrev Service (S Req : Type) (Ans : Req → Type) : Type := S → Event Req Ans → S → Prop

structure System (N S Req : Type) (Ans : Req → Type) (ε α : Type) where
  store : S
  client : N → Prog Req Ans ε α

section Runs

variable {N S : Type} [DecidableEq N] {service : Service S Req Ans}

/-- The store serves the request of a client. -/
inductive SharedStep (service : Service S Req Ans) :
    System N S Req Ans ε α → Event (N × Req) (fun r => Ans r.2) → System N S Req Ans ε α → Prop
  | mk {sys : System N S Req Ans ε α} {n : N} {r : Req} {k : Ans r → Prog Req Ans ε α} {x : Ans r}
      {store : S} : sys.client n = ask r k → service sys.store ⟨r, x⟩ store →
      SharedStep service sys ⟨(n, r), x⟩ ⟨store, Function.update sys.client n (k x)⟩

/-- The runs from a system, with the events so far. -/
inductive SharedRun (service : Service S Req Ans) (sys₀ : System N S Req Ans ε α) :
    List (Event (N × Req) fun r => Ans r.2) → System N S Req Ans ε α → Prop
  | start : SharedRun service sys₀ [] sys₀
  | step {h : List (Event (N × Req) fun r => Ans r.2)} {sys sys' : System N S Req Ans ε α}
      {ev : Event (N × Req) fun r => Ans r.2} : SharedRun service sys₀ h sys →
      SharedStep service sys ev sys' → SharedRun service sys₀ (h ++ [ev]) sys'

variable {sys₀ sys sys' : System N S Req Ans ε α} {h : List (Event (N × Req) fun r => Ans r.2)}
  {ev : Event (N × Req) fun r => Ans r.2}

/-- One more request of a client. -/
theorem SharedRun.ask {n : N} {r : Req} {k : Ans r → Prog Req Ans ε α} {x : Ans r} {store : S}
    (hr : SharedRun service sys₀ h sys) (hask : sys.client n = Prog.ask r k)
    (hserve : service sys.store ⟨r, x⟩ store) :
    SharedRun service sys₀ (h ++ [⟨(n, r), x⟩]) ⟨store, Function.update sys.client n (k x)⟩ :=
  .step hr (.mk hask hserve)

/-- A run that goes on. -/
theorem SharedRun.append {sys₁ : System N S Req Ans ε α}
    {h₁ h₂ : List (Event (N × Req) fun r => Ans r.2)} (hr₁ : SharedRun service sys₀ h₁ sys₁)
    (hr₂ : SharedRun service sys₁ h₂ sys) : SharedRun service sys₀ (h₁ ++ h₂) sys := by
  induction hr₂ with
  | start => simpa using hr₁
  | step _ hs ih =>
    rw [← List.append_assoc]
    exact ih.step hs

/-- A run up to one of its events, the step of that event, and the rest. -/
theorem SharedRun.split {h₁ h₂ : List (Event (N × Req) fun r => Ans r.2)}
    (hr : SharedRun service sys₀ (h₁ ++ ev :: h₂) sys) :
    ∃ sys₁ sys₂, SharedRun service sys₀ h₁ sys₁ ∧ SharedStep service sys₁ ev sys₂ ∧
      SharedRun service sys₂ h₂ sys := by
  generalize hh : h₁ ++ ev :: h₂ = h at hr
  induction hr generalizing h₂ with
  | start => simp at hh
  | @step h sys sys' ev' hr hs ih =>
    rcases List.eq_nil_or_concat h₂ with rfl | ⟨h₂, last, rfl⟩
    · obtain ⟨rfl, hev⟩ := List.append_inj' hh rfl
      obtain rfl := List.singleton_inj.mp hev
      exact ⟨sys, sys', hr, hs, .start⟩
    · rw [List.concat_eq_append, ← List.cons_append, ← List.append_assoc] at hh
      obtain ⟨hinit, hev⟩ := List.append_inj' hh rfl
      obtain rfl := List.singleton_inj.mp hev
      obtain ⟨sys₁, sys₂, hr₁, hs₁, hr₂⟩ := ih hinit
      rw [List.concat_eq_append]
      exact ⟨sys₁, sys₂, hr₁, hs₁, hr₂.step hs⟩

/-- A client has come where its own events lead. -/
theorem SharedRun.leads (hr : SharedRun service sys₀ h sys) (n : N) :
    Leads (sys₀.client n) (Graph.traceOf n h) (sys.client n) := by
  induction hr with
  | start => exact .refl _
  | step _ hs ih =>
    cases hs with
    | @mk m r k x store hask hserve =>
      have htrace : Graph.traceOf n ([⟨(m, r), x⟩] : List (Event (N × Req) fun r => Ans r.2)) =
          if m = n then [⟨r, x⟩] else [] := Graph.traceOf_tag n m [⟨r, x⟩]
      rw [Graph.traceOf_append, htrace]
      by_cases hm : m = n
      · subst hm
        rw [if_pos rfl]
        simp only [Function.update_self]
        rw [hask] at ih
        exact ih.snoc x
      · rw [if_neg hm, List.append_nil]
        simp only [Function.update_of_ne (Ne.symm hm)]
        exact ih

/-- What each step keeps. -/
theorem SharedRun.always {I : System N S Req Ans ε α → Prop} (hr : SharedRun service sys₀ h sys)
    (hstart : I sys₀) (hstep : ∀ sys ev sys', I sys → SharedStep service sys ev sys' → I sys') :
    I sys := by
  induction hr with
  | start => exact hstart
  | step _ hs ih => exact hstep _ _ _ ih hs

/-- An invariant of the store, by what it has served. -/
theorem SharedRun.invariant {I : List (Event (N × Req) fun r => Ans r.2) → S → Prop}
    (hr : SharedRun service sys₀ h sys) (hstart : I [] sys₀.store)
    (hstep : ∀ h s n r (x : Ans r) s', I h s → service s ⟨r, x⟩ s' → I (h ++ [⟨(n, r), x⟩]) s') :
    I h sys.store := by
  induction hr with
  | start => exact hstart
  | step _ hs ih =>
    cases hs with
    | mk _ hserve => exact hstep _ _ _ _ _ _ ih hserve

variable {S' : Type} {service' : Service S' Req Ans}

def System.mapStore (f : S → S') (sys : System N S Req Ans ε α) : System N S' Req Ans ε α :=
  ⟨f sys.store, sys.client⟩

/-- A store that simulates another one serves the same runs. -/
theorem SharedRun.mapStore {f : S → S'}
    (hserve : ∀ s ev s', service s ev s' → service' (f s) ev (f s'))
    (hr : SharedRun service sys₀ h sys) : SharedRun service' (sys₀.mapStore f) h (sys.mapStore f) := by
  induction hr with
  | start => exact .start
  | step _ hs ih =>
    cases hs with
    | mk hask hs => exact ih.step (.mk hask (hserve _ _ _ hs))

end Runs

/-! ## Programs that are cut -/

/-- The first program goes as the second one does, up to where it raises instead. -/
inductive Cuts : Prog Req Ans ε α → Prog Req Ans ε α → Prop
  | refl (p : Prog Req Ans ε α) : Cuts p p
  | raise (e : ε) (p : Prog Req Ans ε α) : Cuts (raise e) p
  | ask {r : Req} {k k' : Ans r → Prog Req Ans ε α} : (∀ x, Cuts (k x) (k' x)) →
      Cuts (ask r k) (ask r k')

theorem Cuts.asks {r : Req} {k : Ans r → Prog Req Ans ε α} {p : Prog Req Ans ε α}
    (h : Cuts (Prog.ask r k) p) : ∃ k', p = Prog.ask r k' ∧ ∀ x, Cuts (k x) (k' x) := by
  cases h with
  | refl => exact ⟨k, rfl, fun x => .refl _⟩
  | ask hk => exact ⟨_, rfl, hk⟩

/-- The program, which raises `e` where it would ask a request of the kind `P`. -/
def Prog.cutAt (P : Req → Bool) (e : ε) : Prog Req Ans ε α → Prog Req Ans ε α
  | ret a => ret a
  | raise e' => raise e'
  | ask r k => if P r then raise e else ask r fun x => cutAt P e (k x)

theorem cuts_cutAt (P : Req → Bool) (e : ε) (p : Prog Req Ans ε α) : Cuts (p.cutAt P e) p := by
  induction p with
  | ret a => exact .refl _
  | raise e' => exact .refl _
  | ask r k ih =>
    unfold cutAt
    split
    · exact .raise e _
    · exact .ask ih

theorem leads_cutAt {P : Req → Bool} {e : ε} {p q : Prog Req Ans ε α} {tr : List (Event Req Ans)}
    (h : Leads (p.cutAt P e) tr q) : ∀ ev ∈ tr, P ev.req = false := by
  induction p generalizing tr with
  | ret a =>
    obtain ⟨rfl, -⟩ := leads_ret h
    simp
  | raise e' =>
    obtain ⟨rfl, -⟩ := leads_raise h
    simp
  | ask r k ih =>
    unfold cutAt at h
    split at h
    · obtain ⟨rfl, -⟩ := leads_raise h
      simp
    · next hr =>
      rcases leads_ask h with ⟨rfl, -⟩ | ⟨x, tr', rfl, h'⟩
      · simp
      · exact List.forall_mem_cons.mpr ⟨by simpa using hr, ih x h'⟩

/-- What clients do that are cut, the whole ones can do. -/
theorem SharedRun.uncut {N S : Type} [DecidableEq N] {service : Service S Req Ans} {store₀ : S}
    {p q : N → Prog Req Ans ε α} {sys : System N S Req Ans ε α}
    {h : List (Event (N × Req) fun r => Ans r.2)} (hr : SharedRun service ⟨store₀, p⟩ h sys)
    (hcuts : ∀ n, Cuts (p n) (q n)) :
    ∃ sys' : System N S Req Ans ε α, SharedRun service ⟨store₀, q⟩ h sys' ∧ sys'.store = sys.store ∧
      ∀ n, Cuts (sys.client n) (sys'.client n) := by
  induction hr with
  | start => exact ⟨_, .start, rfl, hcuts⟩
  | step _ hs ih =>
    obtain ⟨sys', hr', hstore, hclient⟩ := ih
    cases hs with
    | @mk n r k x store hask hserve =>
      have hcutₙ := hclient n
      rw [hask] at hcutₙ
      obtain ⟨k', hask', hk⟩ := hcutₙ.asks
      refine ⟨_, hr'.ask hask' (hstore ▸ hserve), rfl, fun m => ?_⟩
      by_cases hm : m = n
      · subst hm
        simp only [Function.update_self]
        exact hk x
      · simp only [Function.update_of_ne hm]
        exact hclient m

end Interact
