import Mathlib.Data.List.Dedup
import DealershipAgent.Interact.Par

/-!
# Graphs of programs

A graph has nodes, each a program of the state that returns an update, and conditional edges. A run
goes superstep by superstep: the active nodes run side by side on one state, their updates are
applied, and the nodes that their edges name are active next, each once. It ends when no node is
active, and raises when the limit of supersteps is reached first.

* `Reach`: the configurations that a run reaches. `runs_run_ok`, `runs_run_error`: a run ends in a
  reached configuration, or raises in one. An induction on `Reach` proves an invariant of all runs.
* `run_map`: what the nodes and the edges do not see of the state does not change a run.
* `run_det`: in a function's environment the schedule changes neither the result nor what each node
  asks.
-/

namespace Interact

open Prog

/-- Nodes `N` over states `St` with updates `Upd`. -/
structure Graph (N St Upd Req : Type) (Ans : Req → Type) (ε : Type) where
  /-- What a node does. -/
  node : N → St → Prog Req Ans ε Upd
  /-- The successors of a node, decided on the state with the node's own update. -/
  next : N → St → List N
  apply : St → Upd → St

/-- An event without its mark. -/
def Event.untag {N Req : Type} {Ans : Req → Type} (ev : Event (N × Req) fun r => Ans r.2) :
    Event Req Ans := ⟨ev.req.2, ev.ans⟩

/-- Where a run is: the active nodes, the nodes visited, the state and the events so far. -/
structure Config (N St Req : Type) (Ans : Req → Type) where
  active : List N
  path : List N
  st : St
  tr : List (Event (N × Req) fun r => Ans r.2)

namespace Graph

variable {N St Upd Req : Type} {Ans : Req → Type} {ε : Type} [DecidableEq N]

/-- The nodes that are active after `active`, on the updates `us`. -/
def successors (g : Graph N St Upd Req Ans ε) (active : List N) (st : St) (us : List Upd) :
    List N :=
  ((active.zip us).flatMap fun x => g.next x.1 (g.apply st x.2)).dedup

/-- The active nodes as programs. -/
def programs (g : Graph N St Upd Req Ans ε) (active : List N) (st : St) :
    List (Prog (N × Req) (fun r => Ans r.2) ε Upd) :=
  active.map fun m => tag m (g.node m st)

/-- The nodes visited, in order, and the last state, from the active nodes `active` with
`limit` supersteps left. -/
def run (g : Graph N St Upd Req Ans ε) (sched : Nat → Nat → Nat → Bool) (limitError : ε) :
    Nat → List N → St → Prog (N × Req) (fun r => Ans r.2) ε (List N × St)
  | _, [], st => ret ([], st)
  | 0, _ :: _, _ => raise limitError
  | limit + 1, nd :: nds, st => do
    let us ← parAll (sched limit) (g.programs (nd :: nds) st)
    let (path, fin) ← run g sched limitError limit (g.successors (nd :: nds) st us)
      (us.foldl g.apply st)
    return (nd :: nds ++ path, fin)

variable {g : Graph N St Upd Req Ans ε} {sched : Nat → Nat → Nat → Bool} {limitError : ε}
  {limit : Nat} {active : List N} {st : St} {tr : List (Event (N × Req) fun r => Ans r.2)}

/-- A run from active nodes: the first superstep raises, or the run goes on from its updates. -/
theorem runs_run_cons {nd : N} {nds : List N} {out : Except ε (List N × St)}
    (h : Runs (g.run sched limitError (limit + 1) (nd :: nds) st) tr out) :
    (∃ us t t' out', tr = t ++ t' ∧ ParRuns (g.programs (nd :: nds) st) t us ∧
      Runs (g.run sched limitError limit (g.successors (nd :: nds) st us) (us.foldl g.apply st))
        t' out' ∧ out = out'.map fun x => (nd :: nds ++ x.1, x.2)) ∨
    ∃ e, out = .error e ∧ ∃ p ∈ g.programs (nd :: nds) st, ∃ t, t.Sublist tr ∧
      Runs p t (.error e) := by
  rw [run] at h
  rcases runs_bind.mp h with ⟨us, t, t', rfl, h₁, h₂⟩ | ⟨e, h₁, rfl⟩
  · obtain ⟨out', ho, rfl⟩ := runs_map.mp h₂
    exact .inl ⟨us, t, t', out', rfl, runs_parAll_ok h₁, ho, rfl⟩
  · exact .inr ⟨e, rfl, runs_parAll_error h₁⟩

/-- The run from active nodes whose superstep returns. -/
theorem exec_run (limitError : ε) {env : Env (N × Req) fun r => Ans r.2}
    {hist t : List (Event (N × Req) fun r => Ans r.2)} {nd : N} {nds : List N} {us : List Upd}
    (h : Runs (parAll (sched limit) (g.programs (nd :: nds) st)) t (.ok us))
    (ha : Answers env hist t) :
    exec env hist (g.run sched limitError (limit + 1) (nd :: nds) st) =
      let rest := exec env (hist ++ t) (g.run sched limitError limit
        (g.successors (nd :: nds) st us) (us.foldl g.apply st))
      (t ++ rest.1, rest.2.map fun x => (nd :: nds ++ x.1, x.2)) := by
  rw [run, exec_bind h ha]
  exact congrArg (fun x => (t ++ x.1, x.2)) (exec_map env
    (fun x : List N × St => (nd :: nds ++ x.1, x.2)) (hist ++ t)
    (g.run sched limitError limit (g.successors (nd :: nds) st us) (us.foldl g.apply st)))

/-! ## Reached configurations -/

/-- One superstep that returns. -/
inductive Superstep (g : Graph N St Upd Req Ans ε) : Config N St Req Ans → Config N St Req Ans → Prop
  | mk {c : Config N St Req Ans} {us : List Upd} {tr : List (Event (N × Req) fun r => Ans r.2)} :
      c.active ≠ [] → ParRuns (g.programs c.active c.st) tr us →
      Superstep g c ⟨g.successors c.active c.st us, c.path ++ c.active, us.foldl g.apply c.st,
        c.tr ++ tr⟩

/-- `c` is reached from `c₀` in `n` supersteps. -/
inductive Reach (g : Graph N St Upd Req Ans ε) (c₀ : Config N St Req Ans) :
    Nat → Config N St Req Ans → Prop
  | start : Reach g c₀ 0 c₀
  | step {n : Nat} {c c' : Config N St Req Ans} :
      Reach g c₀ n c → Superstep g c c' → Reach g c₀ (n + 1) c'

variable {c₀ c : Config N St Req Ans} {n : Nat}

/-- A run that returns ends in a reached configuration without active nodes. -/
theorem runs_run_ok {path : List N} {fin : St} (hr : Reach g c₀ n c)
    (h : Runs (g.run sched limitError limit c.active c.st) tr (.ok (path, fin))) :
    ∃ n', Reach g c₀ n' ⟨[], c.path ++ path, fin, c.tr ++ tr⟩ := by
  obtain ⟨active, p, st, t⟩ := c
  induction limit generalizing active p st t tr path n with
  | zero =>
    cases active with
    | nil =>
      obtain ⟨rfl, ho⟩ := runs_ret.mp h
      cases ho
      exact ⟨n, by simpa using hr⟩
    | cons nd nds => cases h
  | succ limit ih =>
    cases active with
    | nil =>
      obtain ⟨rfl, ho⟩ := runs_ret.mp h
      cases ho
      exact ⟨n, by simpa using hr⟩
    | cons nd nds =>
      rcases runs_run_cons h with ⟨us, t₁, t₂, out', rfl, hp, hrun, ho⟩ | ⟨e, ho, -⟩
      · rcases out' with e | ⟨path', fin'⟩
        · cases ho
        · cases ho
          have hs := Reach.step hr (.mk (by simp) hp)
          obtain ⟨n', hn'⟩ := ih _ _ _ _ hs hrun
          exact ⟨n', by simpa only [List.append_assoc] using hn'⟩
      · cases ho

/-- A run that raises does so in a reached configuration: a node raises there, or the limit is
reached with nodes active. -/
theorem runs_run_error {e : ε} (hr : Reach g c₀ n c)
    (h : Runs (g.run sched limitError limit c.active c.st) tr (.error e)) :
    ∃ n' c', Reach g c₀ n' c' ∧ n' ≤ n + limit ∧
      ((n' = n + limit ∧ c'.active ≠ [] ∧ c'.tr = c.tr ++ tr) ∨
        ∃ tr', c.tr ++ tr = c'.tr ++ tr' ∧ ∃ m ∈ c'.active, ∃ t,
          (t.map (Event.tag m)).Sublist tr' ∧ Runs (g.node m c'.st) t (.error e)) := by
  obtain ⟨active, p, st, t⟩ := c
  induction limit generalizing active p st t tr n with
  | zero =>
    cases active with
    | nil => cases h
    | cons nd nds =>
      obtain ⟨rfl, -⟩ := runs_raise.mp h
      exact ⟨n, _, hr, Nat.le_refl _, .inl ⟨rfl, by simp, by simp⟩⟩
  | succ limit ih =>
    cases active with
    | nil => cases h
    | cons nd nds =>
      rcases runs_run_cons h with ⟨us, t₁, t₂, out', rfl, hp, hrun, ho⟩ | ⟨e', ho, p', hp', t', hs, hrun⟩
      · rcases out' with e' | x
        · cases ho
          have hstep := Reach.step hr (.mk (by simp) hp)
          obtain ⟨n', c', hr', hle, h'⟩ := ih _ _ _ _ hstep hrun
          refine ⟨n', c', hr', by omega, ?_⟩
          simp only [List.append_assoc, show n + 1 + limit = n + (limit + 1) by omega] at h'
          exact h'
        · cases ho
      · cases ho
        obtain ⟨m, hm, rfl⟩ := List.mem_map.mp hp'
        obtain ⟨t'', rfl, hrun'⟩ := runs_tag.mp hrun
        exact ⟨n, _, hr, by omega, .inr ⟨tr, rfl, m, hm, t'', hs, hrun'⟩⟩

/-- When every edge leads to a lower rank, the ranks bound the supersteps that are left. -/
theorem Reach.rank_le {rank : N → Nat} {k : Nat}
    (hrank : ∀ m st, ∀ m' ∈ g.next m st, rank m' < rank m) (h₀ : ∀ m ∈ c₀.active, rank m ≤ k)
    (h : Reach g c₀ n c) : ∀ m ∈ c.active, n + rank m ≤ k := by
  induction h with
  | start =>
    intro m hm
    rw [Nat.zero_add]
    exact h₀ m hm
  | step _ hs ih =>
    cases hs with
    | mk _ _ =>
      intro m' hm'
      obtain ⟨⟨m, u⟩, hx, hnext⟩ := List.mem_flatMap.mp (List.mem_dedup.mp hm')
      have hm := ih m (List.of_mem_zip hx).1
      have hlt := hrank m _ m' hnext
      omega

/-- A node that was visited was active in a configuration on the way. -/
theorem Reach.visited {m : N} (h : Reach g c₀ n c) (hm : m ∈ c.path) (h₀ : m ∉ c₀.path) :
    ∃ n' c' t, Reach g c₀ n' c' ∧ m ∈ c'.active ∧ c.tr = c'.tr ++ t := by
  induction h with
  | start => exact absurd hm h₀
  | @step n c' c'' hr hs ih =>
    cases hs with
    | @mk us t' hne hp =>
      rcases List.mem_append.mp hm with hm | hm
      · obtain ⟨n', c₁, t, hr', hm', ht⟩ := ih hm
        exact ⟨n', c₁, t ++ t', hr', hm', by rw [ht, List.append_assoc]⟩
      · exact ⟨_, _, t', hr, hm, rfl⟩

theorem Superstep.path {c c' : Config N St Req Ans} (h : Superstep g c c') :
    c.active ≠ [] ∧ c'.path = c.path ++ c.active := by
  cases h with
  | mk hne _ => exact ⟨hne, rfl⟩

/-- A superstep of one node. -/
theorem Superstep.single {m : N} {path : List N} (h : Superstep g ⟨[m], path, st, tr⟩ c) :
    ∃ u t, Runs (g.node m st) t (.ok u) ∧
      c = ⟨(g.next m (g.apply st u)).dedup, path ++ [m], g.apply st u,
        tr ++ t.map (Event.tag m)⟩ := by
  cases h with
  | mk _ hp =>
    obtain ⟨u, rfl, htag⟩ := hp.single
    obtain ⟨t, rfl, hrun⟩ := runs_tag.mp htag
    exact ⟨u, t, hrun, by simp [successors]⟩

/-- A superstep of two nodes. -/
theorem Superstep.pair {m m' : N} {path : List N} (h : Superstep g ⟨[m, m'], path, st, tr⟩ c) :
    ∃ u u' t t' t'', Runs (g.node m st) t (.ok u) ∧ Runs (g.node m' st) t' (.ok u') ∧
      Interleave (t.map (Event.tag m)) (t'.map (Event.tag m')) t'' ∧
      c = ⟨(g.next m (g.apply st u) ++ g.next m' (g.apply st u')).dedup, path ++ [m, m'],
        g.apply (g.apply st u) u', tr ++ t''⟩ := by
  cases h with
  | mk _ hp =>
    obtain ⟨u, u', _, _, rfl, hi, htag, htag'⟩ := hp.pair
    obtain ⟨t, rfl, hrun⟩ := runs_tag.mp htag
    obtain ⟨t', rfl, hrun'⟩ := runs_tag.mp htag'
    exact ⟨u, u', t, t', _, hrun, hrun', hi, by simp [successors]⟩

/-! ## What a run does not depend on -/

/-- A map of states that no node and no edge sees maps the last state only. -/
theorem run_map {f : St → St} (hnode : ∀ m st, g.node m (f st) = g.node m st)
    (hnext : ∀ m st, g.next m (f st) = g.next m st)
    (happly : ∀ st u, g.apply (f st) u = f (g.apply st u)) :
    g.run sched limitError limit active (f st) =
      (fun x => (x.1, f x.2)) <$> g.run sched limitError limit active st := by
  have hfold : ∀ (us : List Upd) st, us.foldl g.apply (f st) = f (us.foldl g.apply st) := by
    intro us
    induction us with
    | nil => intro st; rfl
    | cons u us ih => intro st; rw [List.foldl_cons, happly, ih, List.foldl_cons]
  induction limit generalizing active st with
  | zero => cases active <;> rfl
  | succ limit ih =>
    cases active with
    | nil => rfl
    | cons nd nds =>
      have hp : g.programs (nd :: nds) (f st) = g.programs (nd :: nds) st := by
        simp only [programs, hnode]
      have hs : ∀ us, g.successors (nd :: nds) (f st) us = g.successors (nd :: nds) st us := by
        intro us
        simp only [successors, happly, hnext]
      rw [run, run, hp]
      simp only [hs, hfold, ih, map_eq_bind, bind_assoc, ret_bind, pure_eq]

/-- The events of node `n`. -/
def eventsOf (n : N) (tr : List (Event (N × Req) fun r => Ans r.2)) :
    List (Event (N × Req) fun r => Ans r.2) := tr.filter fun ev => ev.req.1 = n

theorem eventsOf_append (n : N) (tr tr' : List (Event (N × Req) fun r => Ans r.2)) :
    eventsOf n (tr ++ tr') = eventsOf n tr ++ eventsOf n tr' := List.filter_append ..

theorem eventsOf_tag (n m : N) (tr : List (Event Req Ans)) :
    eventsOf n (tr.map (Event.tag m)) = if m = n then tr.map (Event.tag m) else [] := by
  unfold eventsOf
  by_cases h : m = n
  · rw [if_pos h, List.filter_eq_self]
    intro ev hev
    obtain ⟨ev', -, rfl⟩ := List.mem_map.mp hev
    exact decide_eq_true h
  · rw [if_neg h, List.filter_eq_nil_iff]
    intro ev hev
    obtain ⟨ev', -, rfl⟩ := List.mem_map.mp hev
    exact fun hd => h (of_decide_eq_true hd)

/-- The events of node `n`, without the mark. -/
def traceOf (n : N) (tr : List (Event (N × Req) fun r => Ans r.2)) : List (Event Req Ans) :=
  (eventsOf n tr).map Event.untag

theorem mem_traceOf {n : N} {tr : List (Event (N × Req) fun r => Ans r.2)} {ev : Event Req Ans} :
    ev ∈ traceOf n tr ↔ ev.tag n ∈ tr := by
  unfold traceOf eventsOf
  rw [List.mem_map]
  constructor
  · rintro ⟨ev', hev', rfl⟩
    obtain ⟨hmem, hn⟩ := List.mem_filter.mp hev'
    obtain ⟨⟨m, r⟩, x⟩ := ev'
    obtain rfl : m = n := by simpa using hn
    exact hmem
  · intro h
    exact ⟨ev.tag n, List.mem_filter.mpr ⟨h, by simp [Event.tag]⟩, rfl⟩

theorem traceOf_append (n : N) (tr tr' : List (Event (N × Req) fun r => Ans r.2)) :
    traceOf n (tr ++ tr') = traceOf n tr ++ traceOf n tr' := by
  unfold traceOf
  rw [eventsOf_append, List.map_append]

theorem traceOf_tag (n m : N) (tr : List (Event Req Ans)) :
    traceOf n (tr.map (Event.tag m)) = if m = n then tr else [] := by
  have huntag : (tr.map (Event.tag m)).map Event.untag = tr := by
    rw [List.map_map]
    exact List.map_id tr
  unfold traceOf
  rw [eventsOf_tag]
  by_cases h : m = n
  · rw [if_pos h, if_pos h, huntag]
  · rw [if_neg h, if_neg h, List.map_nil]

theorem traceOf_snoc (n : N) (tr : List (Event (N × Req) fun r => Ans r.2)) (ev : Event Req Ans) :
    traceOf n (tr ++ [ev.tag n]) = traceOf n tr ++ [ev] := by
  rw [traceOf_append]
  exact congrArg _ ((traceOf_tag n n [ev]).trans (if_pos rfl))

/-- The events of two nodes side by side are those of each. -/
theorem traceOf_interleave {n m : N} {t t' : List (Event Req Ans)}
    {tr : List (Event (N × Req) fun r => Ans r.2)} (hne : n ≠ m)
    (h : Interleave (t.map (Event.tag n)) (t'.map (Event.tag m)) tr) :
    traceOf n tr = t ∧ traceOf m tr = t' := by
  have hf : ∀ k, Interleave (eventsOf k (t.map (Event.tag n))) (eventsOf k (t'.map (Event.tag m)))
      (eventsOf k tr) := fun k => h.filter
  have hn := hf n
  have hm := hf m
  rw [eventsOf_tag m, if_neg hne] at hm
  rw [eventsOf_tag n m, if_neg hne.symm] at hn
  have htn := traceOf_tag n n t
  have htm := traceOf_tag m m t'
  rw [if_pos rfl] at htn htm
  unfold traceOf at htn htm ⊢
  rw [← hn.right_nil, ← hm.left_nil, htn, htm]
  exact ⟨rfl, rfl⟩

/-- Another node has no events beside them. -/
theorem traceOf_interleave_ne {n m k : N} {t t' : List (Event Req Ans)}
    {tr : List (Event (N × Req) fun r => Ans r.2)} (hn : n ≠ k) (hm : m ≠ k)
    (h : Interleave (t.map (Event.tag n)) (t'.map (Event.tag m)) tr) : traceOf k tr = [] := by
  have hf : Interleave (eventsOf k (t.map (Event.tag n))) (eventsOf k (t'.map (Event.tag m)))
      (eventsOf k tr) := h.filter
  rw [eventsOf_tag, if_neg hn, eventsOf_tag, if_neg hm] at hf
  unfold traceOf
  rw [← hf.left_nil, List.map_nil]

variable {f : (r : N × Req) → Ans r.2}

/-- A node that is not active asks nothing. -/
theorem eventsOf_not_active {us : List Upd} (h : ParRuns (g.programs active st) tr us) {n : N}
    (hn : n ∉ active) : eventsOf n tr = [] := by
  induction active generalizing tr us with
  | nil => cases h; rfl
  | cons m ms ih =>
    cases h with
    | cons hi hp hps =>
      obtain ⟨t, rfl, -⟩ := runs_tag.mp hp
      have hrest := ih hps (fun h => hn (List.mem_cons_of_mem m h))
      have hm : m ≠ n := fun h => hn (h ▸ List.mem_cons_self)
      have hf := hi.filter (P := fun ev => ev.req.1 = n)
      change Interleave (eventsOf n _) (eventsOf n _) (eventsOf n tr) at hf
      rw [eventsOf_tag, if_neg hm, hrest] at hf
      exact hf.left_nil.symm

/-- In a function's environment what each node asks does not depend on the interleaving. -/
theorem eventsOf_det {tr' : List (Event (N × Req) fun r => Ans r.2)} {us us' : List Upd}
    (hd : active.Nodup) (h : ParRuns (g.programs active st) tr us)
    (h' : ParRuns (g.programs active st) tr' us') (hc : Consistent f tr)
    (hc' : Consistent f tr') (n : N) : eventsOf n tr = eventsOf n tr' := by
  induction active generalizing tr tr' us us' with
  | nil => cases h; cases h'; rfl
  | cons m ms ih =>
    cases h with
    | cons hi hp hps =>
    cases h' with
    | cons hi' hp' hps' =>
    obtain ⟨hm, hms⟩ := List.nodup_cons.mp hd
    obtain ⟨rfl, -⟩ := hp.det hp' (fun ev hev => hc ev (hi.sublist_left.subset hev))
      (fun ev hev => hc' ev (hi'.sublist_left.subset hev))
    have hrest := ih hms hps hps' (fun ev hev => hc ev (hi.sublist_right.subset hev))
      (fun ev hev => hc' ev (hi'.sublist_right.subset hev))
    obtain ⟨t, rfl, -⟩ := runs_tag.mp hp
    have hf := hi.filter (P := fun ev => ev.req.1 = n)
    have hf' := hi'.filter (P := fun ev => ev.req.1 = n)
    change Interleave (eventsOf n _) (eventsOf n _) (eventsOf n tr) at hf
    change Interleave (eventsOf n _) (eventsOf n _) (eventsOf n tr') at hf'
    by_cases hn : m = n
    · subst hn
      rw [eventsOf_not_active hps hm] at hf
      rw [eventsOf_not_active hps' hm] at hf'
      rw [← hf.right_nil, ← hf'.right_nil]
    · rw [eventsOf_tag, if_neg hn] at hf hf'
      rw [← hf.left_nil, ← hf'.left_nil, hrest]

omit [DecidableEq N] in
theorem Consistent.append {tr' : List (Event (N × Req) fun r => Ans r.2)}
    (h : Consistent f (tr ++ tr')) : Consistent f tr ∧ Consistent f tr' :=
  List.forall_mem_append.mp h

/-- In a function's environment a run that returns fixes the result and what each node asks under
every schedule. -/
theorem run_det {sched' : Nat → Nat → Nat → Bool} {x : List N × St}
    {tr' : List (Event (N × Req) fun r => Ans r.2)} {out : Except ε (List N × St)}
    (hd : active.Nodup) (h : Runs (g.run sched limitError limit active st) tr (.ok x))
    (h' : Runs (g.run sched' limitError limit active st) tr' out)
    (hc : Consistent f tr) (hc' : Consistent f tr') :
    out = .ok x ∧ ∀ n, eventsOf n tr = eventsOf n tr' := by
  induction limit generalizing active st tr tr' x out with
  | zero =>
    cases active with
    | nil =>
      obtain ⟨rfl, hx⟩ := runs_ret.mp h
      obtain ⟨rfl, rfl⟩ := runs_ret.mp h'
      exact ⟨hx.symm, fun n => rfl⟩
    | cons nd nds => cases h
  | succ limit ih =>
    cases active with
    | nil =>
      obtain ⟨rfl, hx⟩ := runs_ret.mp h
      obtain ⟨rfl, rfl⟩ := runs_ret.mp h'
      exact ⟨hx.symm, fun n => rfl⟩
    | cons nd nds =>
      rcases runs_run_cons h with ⟨us, t₁, t₂, o, rfl, hp, hrun, ho⟩ | ⟨e, ho, -⟩
      · obtain ⟨hc₁, hc₂⟩ := Consistent.append hc
        rcases o with e | y
        · cases ho
        · cases ho
          rcases runs_run_cons h' with ⟨us', t₁', t₂', o', rfl, hp', hrun', rfl⟩ |
            ⟨e, rfl, p, hmem, t, hs, he⟩
          · obtain ⟨hc₁', hc₂'⟩ := Consistent.append hc'
            obtain rfl := hp.det hp' hc₁ hc₁'
            obtain ⟨rfl, hev⟩ := ih (List.nodup_dedup _) hrun hrun' hc₂ hc₂'
            refine ⟨rfl, fun n => ?_⟩
            rw [eventsOf_append, eventsOf_append, eventsOf_det hd hp hp' hc₁ hc₁' n, hev n]
          · exact (hp.not_error hmem he hc₁ fun ev hev => hc' ev (hs.subset hev)).elim
      · cases ho

end Graph

end Interact
