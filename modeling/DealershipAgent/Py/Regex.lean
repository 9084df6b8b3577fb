import DealershipAgent.Py.Str

/-!
# Regular expressions of `re`

A backtracking matcher: `run` gives every way in which an expression matches at a position, in the
order in which `re` tries them, so that the first one is the match.

* `mem_run_seq`, `mem_run_star`, ..: what a match of each operator is. `Adv t` says that the
  position has moved over the text `t`.
* `matchAt`: `pattern.match(s)`.

An iteration of `star` that consumes nothing is not taken; no pattern here repeats such a body.
-/

namespace Py

/-- The text after `p`, if it begins with `p`. -/
def dropPrefix : Str → Str → Option Str
  | [], s => some s
  | _ :: _, [] => none
  | p :: ps, c :: cs => if p = c then dropPrefix ps cs else none

theorem dropPrefix_append (p s : Str) : dropPrefix p (p ++ s) = some s := by
  induction p with
  | nil => rfl
  | cons c p ih => rw [List.cons_append, dropPrefix, if_pos rfl, ih]

theorem dropPrefix_eq_some {p s r : Str} (h : dropPrefix p s = some r) : s = p ++ r := by
  induction p generalizing s with
  | nil => cases h; rfl
  | cons c p ih =>
    cases s with
    | nil => cases h
    | cons d s =>
      rw [dropPrefix] at h
      split at h
      · next hd => rw [ih h, hd, List.cons_append]
      · cases h

namespace Re

/-- A pattern. `greedy` says which number of iterations is tried first. -/
inductive Regex where
  | eps
  | char (p : CodePoint → Bool)
  | seq (r s : Regex)
  | alt (r s : Regex)
  | star (greedy : Bool) (r : Regex)
  | group (n : Nat) (r : Regex)
  | backref (n : Nat)
  /-- `^` -/
  | start
  /-- `$`: the end, or a last line feed. -/
  | stop

/-- A position in a text, with the groups that have matched, the last one first. -/
structure Pos where
  /-- What lies before, backwards. -/
  before : Str
  after : Str
  groups : List (Nat × Str)

/-- `m.group(n)`. -/
def Pos.group (p : Pos) (n : Nat) : Option Str := p.groups.lookup n

def lit : Str → Regex
  | [] => .eps
  | c :: cs => .seq (.char (· == c)) (lit cs)

/-- `r?` -/
def opt (r : Regex) : Regex := .alt r .eps

/-- `r+` -/
def plus (r : Regex) : Regex := .seq r (.star true r)

/-- Iterations of a matcher, `fuel` of them at most. -/
def iterate (greedy : Bool) (step : Pos → List Pos) : Nat → Pos → List Pos
  | 0, p => [p]
  | fuel + 1, p =>
    let more := (step p).flatMap fun q =>
      if q.after.length < p.after.length then iterate greedy step fuel q else []
    if greedy then more ++ [p] else p :: more

/-- The ends of the matches that begin at a position, in the order of the search. -/
def run : Regex → Pos → List Pos
  | .eps, p => [p]
  | .char c, p =>
    match p.after with
    | [] => []
    | a :: as => if c a then [⟨a :: p.before, as, p.groups⟩] else []
  | .seq r s, p => (run r p).flatMap (run s)
  | .alt r s, p => run r p ++ run s p
  | .star greedy r, p => iterate greedy (run r) p.after.length p
  | .group n r, p => (run r p).map fun q =>
      ⟨q.before, q.after, (n, p.after.take (p.after.length - q.after.length)) :: q.groups⟩
  | .backref n, p =>
    match p.group n with
    | some t => match dropPrefix t p.after with
      | some rest => [⟨t.reverse ++ p.before, rest, p.groups⟩]
      | none => []
    | none => []
  | .start, p => if p.before = [] then [p] else []
  | .stop, p => if p.after = [] ∨ p.after = [chr '\n'] then [p] else []

section Run

variable (r s : Regex) (c : CodePoint → Bool) (greedy : Bool) (n : Nat) (p : Pos)

@[simp] theorem run_eps : run .eps p = [p] := rfl

@[simp] theorem run_char_nil (b : Str) (g : List (Nat × Str)) :
    run (.char c) ⟨b, [], g⟩ = [] := rfl

@[simp] theorem run_char_cons (b as : Str) (a : CodePoint) (g : List (Nat × Str)) :
    run (.char c) ⟨b, a :: as, g⟩ = if c a then [⟨a :: b, as, g⟩] else [] := rfl

@[simp] theorem run_seq : run (.seq r s) p = (run r p).flatMap (run s) := rfl

@[simp] theorem run_alt : run (.alt r s) p = run r p ++ run s p := rfl

@[simp] theorem run_star :
    run (.star greedy r) p = iterate greedy (run r) p.after.length p := rfl

@[simp] theorem run_group : run (.group n r) p = (run r p).map fun q =>
    ⟨q.before, q.after, (n, p.after.take (p.after.length - q.after.length)) :: q.groups⟩ := rfl

@[simp] theorem run_start : run .start p = if p.before = [] then [p] else [] := rfl

@[simp] theorem run_stop :
    run .stop p = if p.after = [] ∨ p.after = [chr '\n'] then [p] else [] := rfl

end Run

/-- `pattern.match(s)`: where the first match at the start of `s` ends. -/
def matchAt (r : Regex) (s : Str) : Option Pos := (run r ⟨[], s, []⟩).head?

/-! ## What a match is -/

/-- `q` is `p` moved over `t`, with the groups of `p`. -/
structure Adv (p : Pos) (t : Str) (q : Pos) : Prop where
  after : p.after = t ++ q.after
  before : q.before = t.reverse ++ p.before
  groups : q.groups = p.groups

variable {p q : Pos} {r s : Regex}

theorem Adv.eq (h : Adv p [] q) : q = p := by
  obtain ⟨ha, hb, hg⟩ := h
  cases p; cases q
  simp_all

theorem Adv.refl (p : Pos) : Adv p [] p := ⟨rfl, rfl, rfl⟩

theorem Adv.trans {m : Pos} {t u : Str} (h : Adv p t m) (h' : Adv m u q) : Adv p (t ++ u) q :=
  ⟨by rw [h.after, h'.after, List.append_assoc], by simp [h'.before, h.before],
    by rw [h'.groups, h.groups]⟩

theorem Adv.split {u v : Str} (h : Adv p (u ++ v) q) : ∃ m, Adv p u m ∧ Adv m v q := by
  obtain ⟨ha, hb, hg⟩ := h
  refine ⟨⟨u.reverse ++ p.before, v ++ q.after, p.groups⟩, ⟨?_, rfl, rfl⟩, ⟨rfl, ?_, hg⟩⟩
  · rw [ha, List.append_assoc]
  · rw [hb, List.reverse_append, List.append_assoc]

theorem Adv.length {t : Str} (h : Adv p t q) : p.after.length = t.length + q.after.length := by
  rw [h.after, List.length_append]

theorem mem_run_eps : q ∈ run .eps p ↔ q = p := by
  rw [run_eps, List.mem_singleton]

theorem mem_run_char {c : CodePoint → Bool} :
    q ∈ run (.char c) p ↔ ∃ a, c a = true ∧ Adv p [a] q := by
  obtain ⟨b, after, g⟩ := p
  cases after with
  | nil =>
    refine ⟨fun h => (by cases h), fun ⟨a, _, h⟩ => ?_⟩
    cases h.after
  | cons a as =>
    rw [run_char_cons]
    refine ⟨fun h => ?_, fun ⟨a', ha, h⟩ => ?_⟩
    · by_cases ha : c a = true
      · rw [if_pos ha, List.mem_singleton] at h
        exact ⟨a, ha, by rw [h]; exact ⟨rfl, rfl, rfl⟩⟩
      · rw [if_neg ha] at h
        cases h
    · obtain ⟨h₁, h₂, h₃⟩ := h
      injection h₁ with h₁ h₄
      subst h₁
      simp only [if_pos ha, List.mem_singleton]
      cases q
      simp_all

theorem mem_run_seq : q ∈ run (.seq r s) p ↔ ∃ m ∈ run r p, q ∈ run s m := by
  rw [run_seq, List.mem_flatMap]

theorem mem_run_alt : q ∈ run (.alt r s) p ↔ q ∈ run r p ∨ q ∈ run s p := by
  rw [run_alt, List.mem_append]

theorem mem_run_opt : q ∈ run (opt r) p ↔ q ∈ run r p ∨ q = p := by
  rw [opt, mem_run_alt, mem_run_eps]

theorem mem_run_lit {t : Str} : q ∈ run (lit t) p ↔ Adv p t q := by
  induction t generalizing p with
  | nil =>
    rw [lit, mem_run_eps]
    exact ⟨fun h => by rw [h]; exact .refl p, fun h => h.eq⟩
  | cons c t ih =>
    rw [lit, mem_run_seq]
    refine ⟨fun ⟨m, hm, hq⟩ => ?_, fun h => ?_⟩
    · obtain ⟨a, ha, hadv⟩ := mem_run_char.mp hm
      obtain rfl : a = c := by simpa using ha
      exact hadv.trans (ih.mp hq)
    · have hm : Adv p [c] ⟨c :: p.before, t ++ q.after, p.groups⟩ := ⟨h.after, rfl, rfl⟩
      exact ⟨_, mem_run_char.mpr ⟨c, by simp, hm⟩, ih.mpr ⟨rfl, by simpa using h.before, h.groups⟩⟩

/-- The iterations of a matcher that consumes the texts in `l`: it has consumed some of them, none of
them empty. -/
theorem mem_iterate_iff {greedy : Bool} {step : Pos → List Pos} {l : Str → Prop}
    (hstep : ∀ p q, q ∈ step p ↔ ∃ t, l t ∧ Adv p t q) {fuel : Nat} (hfuel : p.after.length ≤ fuel) :
    q ∈ iterate greedy step fuel p ↔
      ∃ L : List Str, (∀ t ∈ L, l t ∧ t ≠ []) ∧ Adv p L.flatten q := by
  induction fuel generalizing p with
  | zero =>
    have hnil : p.after = [] := List.length_eq_zero_iff.mp (Nat.le_zero.mp hfuel)
    rw [iterate, List.mem_singleton]
    constructor
    · rintro rfl
      exact ⟨[], by simp, .refl q⟩
    · rintro ⟨L, -, hadv⟩
      have hflat : L.flatten = [] := by
        have hafter := hadv.after
        rw [hnil] at hafter
        exact (List.nil_eq_append_iff.mp hafter).1
      rw [hflat] at hadv
      exact hadv.eq
  | succ fuel ih =>
    have hmem : q ∈ iterate greedy step (fuel + 1) p ↔
        q = p ∨ ∃ m ∈ step p, m.after.length < p.after.length ∧ q ∈ iterate greedy step fuel m := by
      rw [iterate]
      cases greedy
      · simp [List.mem_flatMap]
      · simp [List.mem_flatMap, or_comm]
    rw [hmem]
    constructor
    · rintro (rfl | ⟨m, hm, hlt, hq⟩)
      · exact ⟨[], by simp, .refl q⟩
      · obtain ⟨t, ht, hadv⟩ := (hstep p m).mp hm
        obtain ⟨L, hL, hrest⟩ := (ih (by omega)).mp hq
        have hne : t ≠ [] := by
          rintro rfl
          rw [hadv.eq] at hlt
          omega
        exact ⟨t :: L, List.forall_mem_cons.mpr ⟨⟨ht, hne⟩, hL⟩, hadv.trans hrest⟩
    · rintro ⟨L, hL, hadv⟩
      cases L with
      | nil => exact .inl hadv.eq
      | cons t L =>
        obtain ⟨⟨ht, hne⟩, hL⟩ := List.forall_mem_cons.mp hL
        obtain ⟨m, hm, hrest⟩ := hadv.split
        have hlen := hm.length
        have hpos := List.length_pos_iff.mpr hne
        exact .inr ⟨m, (hstep p m).mpr ⟨t, ht, hm⟩, by omega, (ih (by omega)).mpr ⟨L, hL, hrest⟩⟩

/-- A repeated class matches any run of its characters. -/
theorem mem_run_star {greedy : Bool} {c : CodePoint → Bool} :
    q ∈ run (.star greedy (.char c)) p ↔ ∃ t, (∀ a ∈ t, c a = true) ∧ Adv p t q := by
  have hstep : ∀ p q : Pos, q ∈ run (.char c) p ↔ ∃ t, (∃ a, c a = true ∧ t = [a]) ∧ Adv p t q := by
    intro p q
    rw [mem_run_char]
    constructor
    · rintro ⟨a, ha, hadv⟩
      exact ⟨[a], ⟨a, ha, rfl⟩, hadv⟩
    · rintro ⟨t, ⟨a, ha, rfl⟩, hadv⟩
      exact ⟨a, ha, hadv⟩
  rw [run_star, mem_iterate_iff hstep (Nat.le_refl _)]
  constructor
  · rintro ⟨L, hL, hadv⟩
    refine ⟨L.flatten, fun a ha => ?_, hadv⟩
    obtain ⟨t, ht, hat⟩ := List.mem_flatten.mp ha
    obtain ⟨⟨b, hb, rfl⟩, -⟩ := hL t ht
    rwa [List.mem_singleton.mp hat]
  · rintro ⟨t, ht, hadv⟩
    have hflat : (t.map fun a => [a]).flatten = t := List.flatMap_singleton' t
    refine ⟨t.map fun a => [a], fun u hu => ?_, by rwa [hflat]⟩
    obtain ⟨a, ha, rfl⟩ := List.mem_map.mp hu
    exact ⟨⟨a, ht a ha, rfl⟩, List.cons_ne_nil a []⟩

theorem mem_run_plus {c : CodePoint → Bool} :
    q ∈ run (plus (.char c)) p ↔ ∃ t, t ≠ [] ∧ (∀ a ∈ t, c a = true) ∧ Adv p t q := by
  rw [plus, mem_run_seq]
  refine ⟨fun ⟨m, hm, hq⟩ => ?_, fun ⟨t, hne, ht, h⟩ => ?_⟩
  · obtain ⟨a, ha, hm⟩ := mem_run_char.mp hm
    obtain ⟨t, ht, hq⟩ := mem_run_star.mp hq
    refine ⟨a :: t, by simp, fun b hb => ?_, hm.trans hq⟩
    rcases List.mem_cons.mp hb with rfl | hb
    · exact ha
    · exact ht b hb
  · obtain ⟨a, t, rfl⟩ := List.exists_cons_of_ne_nil hne
    have hm : Adv p [a] ⟨a :: p.before, t ++ q.after, p.groups⟩ := ⟨h.after, rfl, rfl⟩
    exact ⟨_, mem_run_char.mpr ⟨a, ht a (by simp), hm⟩, mem_run_star.mpr
      ⟨t, fun b hb => ht b (by simp [hb]), rfl, by simpa using h.before, h.groups⟩⟩

/-- A group remembers the text that its body has moved over. -/
theorem mem_run_group {n : Nat} : q ∈ run (.group n r) p ↔
    ∃ m ∈ run r p, q = ⟨m.before, m.after,
      (n, p.after.take (p.after.length - m.after.length)) :: m.groups⟩ := by
  rw [run_group, List.mem_map]
  simp only [eq_comm]

theorem Adv.take (h : Adv p t q) : p.after.take (p.after.length - q.after.length) = t := by
  rw [h.after]
  simp

theorem mem_run_backref {n : Nat} :
    q ∈ run (.backref n) p ↔ ∃ t, p.group n = some t ∧ Adv p t q := by
  rw [run]
  cases hg : p.group n with
  | none => simp
  | some t =>
    simp only [Option.some.injEq, exists_eq_left']
    cases hd : dropPrefix t p.after with
    | none =>
      refine ⟨fun h => (by cases h), fun h => ?_⟩
      rw [h.after, dropPrefix_append] at hd
      cases hd
    | some rest =>
      simp only [List.mem_singleton]
      refine ⟨fun h => ?_, fun h => ?_⟩
      · rw [h]; exact ⟨dropPrefix_eq_some hd, rfl, rfl⟩
      · rw [h.after, dropPrefix_append] at hd
        obtain rfl := Option.some.inj hd
        rw [← h.before, ← h.groups]

theorem mem_run_start : q ∈ run .start p ↔ q = p ∧ p.before = [] := by
  by_cases h : p.before = [] <;> simp [h]

theorem mem_run_stop :
    q ∈ run .stop p ↔ q = p ∧ (p.after = [] ∨ p.after = [chr '\n']) := by
  by_cases h : p.after = [] ∨ p.after = [chr '\n'] <;> simp [h]

theorem matchAt_mem {t : Str} (h : matchAt r t = some q) : q ∈ run r ⟨[], t, []⟩ :=
  List.mem_of_mem_head? h

end Re

end Py
