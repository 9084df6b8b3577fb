import Mathlib.Logic.Nonempty
import DealershipAgent.Interact.Shared

/-!
# Clients behind a gate

Each client first asks a gate, which refuses it or says who it is, and then goes on as a program over a
store. The gate has a state of its own.

* `gated`: the program of such a client. `Gated`: the gate and the store as one service.
* `SharedRun.passes_once`: who a client is, does not change.
* `SharedRun.inside`: what the clients do behind the gate is a run of theirs over the store alone, and
  only those do anything that the gate has let in.
-/

namespace Interact

open Prog

variable {G Req : Type} {Ans : Req → Type} {ι ε α : Type}

/-- What the gate and the store answer. -/
abbrev GateAns (G : Type) {Req : Type} (Ans : Req → Type) (ε ι : Type) : G ⊕ Req → Type
  | .inl _ => Except ε ι
  | .inr r => Ans r

/-- A program over the store alone. -/
def Prog.inside : Prog Req Ans ε α → Prog (G ⊕ Req) (GateAns G Ans ε ι) ε α
  | ret a => ret a
  | raise e => raise e
  | ask r k => ask (.inr r) fun x => inside (k x)

def gated (g : G) (p : ι → Prog Req Ans ε α) : Prog (G ⊕ Req) (GateAns G Ans ε ι) ε α :=
  ask (.inl g) fun x : Except ε ι =>
    match x with
    | .error e => raise e
    | .ok i => (p i).inside

section Leads

variable {tr : List (Event (G ⊕ Req) (GateAns G Ans ε ι))} {q : Prog (G ⊕ Req) (GateAns G Ans ε ι) ε α}

theorem leads_inside {p : Prog Req Ans ε α} (h : Leads p.inside tr q) :
    ∀ ev ∈ tr, ∃ r, ev.req = .inr r := by
  induction p generalizing tr with
  | ret a =>
    obtain ⟨rfl, -⟩ := leads_ret h
    simp
  | raise e =>
    obtain ⟨rfl, -⟩ := leads_raise h
    simp
  | ask r k ih =>
    rcases leads_ask h with ⟨rfl, -⟩ | ⟨x, tr', rfl, h'⟩
    · simp
    · exact List.forall_mem_cons.mpr ⟨⟨r, rfl⟩, ih x h'⟩

/-- The gate is asked first, and once. -/
theorem leads_gated {g : G} {p : ι → Prog Req Ans ε α} (h : Leads (gated g p) tr q) :
    tr = [] ∨ ∃ (x : Except ε ι) (tr' : _), tr = ⟨.inl g, x⟩ :: tr' ∧ ∀ ev ∈ tr', ∃ r, ev.req = .inr r := by
  rcases leads_ask h with ⟨rfl, -⟩ | ⟨x, tr', rfl, h'⟩
  · exact .inl rfl
  · refine .inr ⟨x, tr', rfl, ?_⟩
    cases x with
    | error e =>
      obtain ⟨rfl, -⟩ := leads_raise h'
      simp
    | ok i => exact leads_inside h'

end Leads

/-! ## Runs -/

variable {N K S : Type} [DecidableEq N]

/-- A gate answers by its state, and changes it. -/
abbrev Gate (K G ε ι : Type) : Type := K → G → Except ε ι → K → Prop

/-- The gate and the store, each with its own state. -/
inductive Gated (gate : Gate K G ε ι) (service : Service S Req Ans) :
    Service (K × S) (G ⊕ Req) (GateAns G Ans ε ι)
  | gate {k k' : K} {s : S} {g : G} {x : Except ε ι} : gate k g x k' →
      Gated gate service (k, s) ⟨.inl g, x⟩ (k', s)
  | service {k : K} {s s' : S} {r : Req} {x : Ans r} : service s ⟨r, x⟩ s' →
      Gated gate service (k, s) ⟨.inr r, x⟩ (k, s')

/-- The event, if it is behind the gate. -/
def insideEvent : Event (N × (G ⊕ Req)) (fun r => GateAns G Ans ε ι r.2) →
    Option (Event (N × Req) fun r => Ans r.2)
  | ⟨(_, .inl _), _⟩ => none
  | ⟨(n, .inr r), x⟩ => some ⟨(n, r), x⟩

/-- What was done behind the gate. -/
def insideOf (h : List (Event (N × (G ⊕ Req)) fun r => GateAns G Ans ε ι r.2)) :
    List (Event (N × Req) fun r => Ans r.2) :=
  h.filterMap insideEvent

/-- The gate has let the client in, as `i`. -/
def Passed (g : N → G) (h : List (Event (N × (G ⊕ Req)) fun r => GateAns G Ans ε ι r.2)) (n : N)
    (i : ι) : Prop :=
  ⟨(n, .inl (g n)), .ok i⟩ ∈ h

section Runs

variable {gate : Gate K G ε ι} {service : Service S Req Ans} {g : N → G}
  {p : N → ι → Prog Req Ans ε α} {k₀ : K} {s₀ : S}
  {h : List (Event (N × (G ⊕ Req)) fun r => GateAns G Ans ε ι r.2)}
  {sys : System N (K × S) (G ⊕ Req) (GateAns G Ans ε ι) ε α}

omit [DecidableEq N] in
theorem mem_insideOf {n : N} {r : Req} {x : Ans r} :
    (⟨(n, r), x⟩ : Event (N × Req) fun r => Ans r.2) ∈ insideOf h ↔
      (⟨(n, .inr r), x⟩ : Event (N × (G ⊕ Req)) fun r => GateAns G Ans ε ι r.2) ∈ h := by
  unfold insideOf
  rw [List.mem_filterMap]
  constructor
  · rintro ⟨⟨⟨m, g | r'⟩, y⟩, hev, heq⟩
    · cases heq
    · cases heq
      exact hev
  · intro hev
    exact ⟨_, hev, rfl⟩

/-- A client is let in once. -/
theorem SharedRun.passes_once
    (hr : SharedRun (Gated gate service) ⟨(k₀, s₀), fun n => gated (g n) (p n)⟩ h sys) {n : N} {i j : ι}
    (hi : Passed g h n i) (hj : Passed g h n j) : i = j := by
  have hi : (⟨.inl (g n), .ok i⟩ : Event (G ⊕ Req) (GateAns G Ans ε ι)) ∈ Graph.traceOf n h :=
    Graph.mem_traceOf.mpr hi
  have hj : (⟨.inl (g n), .ok j⟩ : Event (G ⊕ Req) (GateAns G Ans ε ι)) ∈ Graph.traceOf n h :=
    Graph.mem_traceOf.mpr hj
  rcases leads_gated (hr.leads n) with hnil | ⟨x, tr', htr, hinside⟩
  · rw [hnil] at hi
    cases hi
  · rw [htr] at hi hj
    have hfirst : ∀ {y : Except ε ι}, (⟨.inl (g n), y⟩ : Event (G ⊕ Req) (GateAns G Ans ε ι)) ∈
        ⟨.inl (g n), x⟩ :: tr' → y = x := by
      intro y hy
      rcases List.mem_cons.mp hy with hy | hy
      · cases hy
        rfl
      · obtain ⟨r, hr⟩ := hinside _ hy
        cases hr
    exact Except.ok.inj ((hfirst hi).trans (hfirst hj).symm)

/-- Who the clients are, for those that were let in. -/
theorem SharedRun.identities [Nonempty ι]
    (hr : SharedRun (Gated gate service) ⟨(k₀, s₀), fun n => gated (g n) (p n)⟩ h sys) :
    ∃ identity : N → ι, ∀ n i, Passed g h n i → i = identity n := by
  have hone : ∀ n, ∃ j, ∀ i, Passed g h n i → i = j := by
    intro n
    by_cases hpassed : ∃ j, Passed g h n j
    · obtain ⟨j, hj⟩ := hpassed
      exact ⟨j, fun i hi => hr.passes_once hi hj⟩
    · exact ⟨Classical.arbitrary ι, fun i hi => absurd ⟨i, hi⟩ hpassed⟩
  exact ⟨fun n => (hone n).choose, fun n => (hone n).choose_spec⟩

/-- Where a client is, beside the same client without the gate. -/
inductive Place (g : G) (p : ι → Prog Req Ans ε α) (i : ι) (passed : Prop) :
    Prog (G ⊕ Req) (GateAns G Ans ε ι) ε α → Prog Req Ans ε α → Prop
  | before : Place g p i passed (gated g p) (p i)
  | refused (e : ε) : Place g p i passed (raise e) (p i)
  | inside (q : Prog Req Ans ε α) : passed → Place g p i passed q.inside q

omit [DecidableEq N] in
theorem Place.mono {g : G} {p : ι → Prog Req Ans ε α} {i : ι} {passed passed' : Prop}
    {q : Prog (G ⊕ Req) (GateAns G Ans ε ι) ε α} {q' : Prog Req Ans ε α} (h : Place g p i passed q q')
    (hpassed : passed → passed') : Place g p i passed' q q' := by
  cases h with
  | before => exact .before
  | refused e => exact .refused e
  | inside q' hp => exact .inside q' (hpassed hp)

omit [DecidableEq N] in
/-- A client that asks the gate has done nothing yet. -/
theorem Place.gates {g g' : G} {p : ι → Prog Req Ans ε α} {i : ι} {passed : Prop}
    {k : Except ε ι → Prog (G ⊕ Req) (GateAns G Ans ε ι) ε α} {q : Prog Req Ans ε α}
    (h : Place g p i passed (ask (.inl g') k) q) :
    g' = g ∧ q = p i ∧ (∀ e, k (.error e) = raise e) ∧ ∀ j, k (.ok j) = (p j).inside := by
  generalize hq : (ask (.inl g') k : Prog (G ⊕ Req) (GateAns G Ans ε ι) ε α) = q₀ at h
  cases h with
  | before =>
    cases hq
    exact ⟨rfl, rfl, fun e => rfl, fun j => rfl⟩
  | refused e => cases hq
  | inside q hp => cases q <;> cases hq

omit [DecidableEq N] in
/-- A client that asks the store has been let in. -/
theorem Place.asks {g : G} {p : ι → Prog Req Ans ε α} {i : ι} {passed : Prop} {r : Req}
    {k : Ans r → Prog (G ⊕ Req) (GateAns G Ans ε ι) ε α} {q : Prog Req Ans ε α}
    (h : Place g p i passed (ask (.inr r) k) q) :
    passed ∧ ∃ k' : Ans r → Prog Req Ans ε α, q = ask r k' ∧ k = fun x => (k' x).inside := by
  generalize hq : (ask (.inr r) k : Prog (G ⊕ Req) (GateAns G Ans ε ι) ε α) = q₀ at h
  cases h with
  | before => cases hq
  | refused e => cases hq
  | inside q hp =>
    cases q with
    | ret a => cases hq
    | raise e => cases hq
    | ask r' k' =>
      cases hq
      exact ⟨hp, k', rfl, rfl⟩

/-- What is done behind the gate is a run of the clients that were let in over the store alone, whose
state is the same. No other client has done anything there. -/
theorem SharedRun.inside {identity : N → ι}
    (hr : SharedRun (Gated gate service) ⟨(k₀, s₀), fun n => gated (g n) (p n)⟩ h sys)
    (hidentity : ∀ n i, Passed g h n i → i = identity n) :
    ∃ sys' : System N S Req Ans ε α,
      SharedRun service ⟨s₀, fun n => p n (identity n)⟩ (insideOf h) sys' ∧
      sys'.store = sys.store.2 ∧
      (∀ n, Place (g n) (p n) (identity n) (Passed g h n (identity n)) (sys.client n) (sys'.client n)) ∧
      ∀ n (ev : Event Req Ans), ev.tag n ∈ insideOf h → Passed g h n (identity n) := by
  induction hr with
  | start => exact ⟨_, .start, rfl, fun n => .before, fun n ev hev => by cases hev⟩
  | @step h sys sys₁ ev hr hs ih =>
    have hmono : ∀ {n i}, Passed g h n i → Passed g (h ++ [ev]) n i := List.mem_append_left _
    obtain ⟨sys', hr', hstore, hplace, hpassed⟩ := ih fun n i hi => hidentity n i (hmono hi)
    have hsnoc : insideOf (h ++ [ev]) = insideOf h ++ (insideEvent ev).toList := by
      unfold insideOf
      rw [List.filterMap_append]
      rfl
    rw [hsnoc]
    cases hs with
    | @mk n r k x store hask hserve =>
      have hplaceₙ := hplace n
      rw [hask] at hplaceₙ
      generalize hstate : sys.store = state at hserve
      cases hserve with
      | @gate k₁ k₂ s gₙ y hgate =>
        obtain ⟨rfl, hclient, hrefuse, hlet⟩ := hplaceₙ.gates
        have hnone : insideOf h ++ (insideEvent (⟨(n, .inl (g n)), y⟩ :
            Event (N × (G ⊕ Req)) fun r => GateAns G Ans ε ι r.2)).toList = insideOf h :=
          List.append_nil _
        rw [hnone]
        refine ⟨sys', hr', by rw [hstore, hstate], fun m => ?_, fun m ev hev => ?_⟩
        · by_cases hm : m = n
          · subst hm
            simp only [Function.update_self]
            rw [hclient]
            cases y with
            | error e => exact hrefuse e ▸ .refused e
            | ok i =>
              have hi : Passed g (h ++ [⟨(m, .inl (g m)), .ok i⟩]) m i :=
                List.mem_append_right h List.mem_cons_self
              obtain rfl := hidentity m i hi
              exact hlet _ ▸ .inside _ hi
          · simp only [Function.update_of_ne hm]
            exact (hplace m).mono hmono
        · exact hmono (hpassed m ev hev)
      | @service k₁ s s' r x hserve =>
        obtain ⟨hin, k', hclient, rfl⟩ := hplaceₙ.asks
        rw [hstate] at hstore
        refine ⟨_, hr'.ask hclient (hstore ▸ hserve), rfl, fun m => ?_, fun m ev hev => ?_⟩
        · by_cases hm : m = n
          · subst hm
            simp only [Function.update_self]
            exact .inside _ (hmono hin)
          · simp only [Function.update_of_ne hm]
            exact (hplace m).mono hmono
        · rcases List.mem_append.mp hev with hev | hev
          · exact hmono (hpassed m ev hev)
          · cases List.mem_singleton.mp hev
            exact hmono hin

end Runs

end Interact
