import Mathlib.Tactic.Common
import DealershipAgent.Py.Language
import DealershipAgent.Py.Sub

/-!
# What a search finds

For one pattern without groups that matches no empty text.

* `Pattern.Finds`: `pattern.search(s) is not None`. `hits_eq_zero_iff`: it is so exactly when
  `findall` returns anything.
* `pieces_searched`: a piece that is a hit is a match, and no match begins at one that is not.
* `plain_of_sub`: a text after the substitution that shares nothing with the replacement stood in
  the text before it, outside the matches.
-/

namespace Py

namespace Re

/-- What is between what lies before (backwards) and after it matches. -/
structure Pattern.Matches (pattern : Pattern) (before t after : Str) : Prop where
  start : pattern.start before (t ++ after) = true
  mem : t ∈ pattern.re.lang
  stop : pattern.stop (t.reverse ++ before) after = true

structure Pattern.Proper (pattern : Pattern) : Prop where
  simple : pattern.re.simple = true
  ne_nil : ∀ t ∈ pattern.re.lang, t ≠ []

/-- `pattern.search(s) is not None` -/
def Pattern.Finds (pattern : Pattern) (s : Str) : Prop :=
  ∃ before after, s = before ++ after ∧ pattern.ends ⟨before.reverse, after, []⟩ ≠ []

variable {pattern : Pattern}

theorem mem_ends (h : pattern.Proper) {p q : Pos} :
    q ∈ pattern.ends p ↔ ∃ t, pattern.Matches p.before t q.after ∧ Adv p t q := by
  unfold Pattern.ends
  constructor
  · intro hq
    by_cases hstart : pattern.start p.before p.after = true
    · rw [if_pos hstart, List.mem_filter, mem_run_iff h.simple] at hq
      obtain ⟨⟨t, ht, hadv⟩, hstop⟩ := hq
      refine ⟨t, ⟨?_, ht, ?_⟩, hadv⟩
      · rw [← hadv.after]
        exact hstart
      · rw [← hadv.before]
        exact hstop
    · rw [if_neg hstart] at hq
      cases hq
  · rintro ⟨t, ⟨hstart, ht, hstop⟩, hadv⟩
    rw [← hadv.after] at hstart
    rw [← hadv.before] at hstop
    rw [if_pos hstart, List.mem_filter, mem_run_iff h.simple]
    exact ⟨⟨t, ht, hadv⟩, hstop⟩

theorem Pattern.Matches.mem_ends {before t after : Str} (h : pattern.Proper)
    (hm : pattern.Matches before t after) :
    ⟨t.reverse ++ before, after, []⟩ ∈ pattern.ends ⟨before, t ++ after, []⟩ :=
  (Re.mem_ends h).mpr ⟨t, hm, rfl, rfl, rfl⟩

theorem finds_iff (h : pattern.Proper) {s : Str} :
    pattern.Finds s ↔ ∃ a t b, s = a ++ t ++ b ∧ pattern.Matches a.reverse t b := by
  constructor
  · rintro ⟨before, after, rfl, hne⟩
    obtain ⟨q, hq⟩ := List.exists_mem_of_ne_nil _ hne
    obtain ⟨t, hm, hadv⟩ := (mem_ends h).mp hq
    have hafter : after = t ++ q.after := hadv.after
    exact ⟨before, t, q.after, by rw [hafter, List.append_assoc], hm⟩
  · rintro ⟨a, t, b, rfl, hm⟩
    exact ⟨a, t ++ b, List.append_assoc .., List.ne_nil_of_mem (hm.mem_ends h)⟩

/-! ## The pieces -/

/-- The text of the pieces. -/
def pieceText (ps : List Piece) : Str := ps.flatMap Piece.text

@[simp] theorem pieceText_nil : pieceText [] = [] := rfl

@[simp] theorem pieceText_cons (p : Piece) (ps : List Piece) :
    pieceText (p :: ps) = p.text ++ pieceText ps := rfl

@[simp] theorem pieceText_append (ps qs : List Piece) :
    pieceText (ps ++ qs) = pieceText ps ++ pieceText qs := List.flatMap_append

@[simp] theorem pieceText_plain (s : Str) : pieceText (s.map .plain) = s := by
  induction s with
  | nil => rfl
  | cons c s ih => rw [List.map_cons, pieceText_cons, ih]; rfl

/-- A search from left to right, with this text before it, backwards. -/
def Searched (pattern : Pattern) : Str → List Piece → Prop
  | _, [] => True
  | before, .plain c :: ps =>
    (∀ t after, t ++ after = c :: pieceText ps → ¬ pattern.Matches before t after) ∧
      Searched pattern (c :: before) ps
  | before, .hit t :: ps =>
    pattern.Matches before t (pieceText ps) ∧ Searched pattern (t.reverse ++ before) ps

theorem Searched.of_append {before : Str} {ps qs : List Piece}
    (h : Searched pattern before (ps ++ qs)) :
    Searched pattern ((pieceText ps).reverse ++ before) qs := by
  induction ps generalizing before with
  | nil => exact h
  | cons p ps ih =>
    cases p with
    | plain c =>
      have htail := ih h.2
      simpa [Piece.text] using htail
    | hit t =>
      have htail := ih h.2
      simpa [Piece.text] using htail

theorem firstEnd_single (p : Pos) : firstEnd [pattern] p = (pattern.ends p).head? := by
  simp [firstEnd]

theorem piecesFrom_searched (h : pattern.Proper) {fuel : Nat} {before after : Str}
    (hfuel : after.length ≤ fuel) :
    pieceText (piecesFrom [pattern] fuel before after) = after ∧
      Searched pattern before (piecesFrom [pattern] fuel before after) := by
  induction fuel generalizing before after with
  | zero =>
    obtain rfl := List.length_eq_zero_iff.mp (Nat.le_zero.mp hfuel)
    exact ⟨rfl, trivial⟩
  | succ fuel ih =>
    cases after with
    | nil => exact ⟨rfl, trivial⟩
    | cons c cs =>
      rw [List.length_cons] at hfuel
      cases hend : firstEnd [pattern] ⟨before, c :: cs, []⟩ with
      | none =>
        obtain ⟨htext, hsearched⟩ := @ih (c :: before) cs (by omega)
        simp only [piecesFrom, hend]
        refine ⟨by rw [pieceText_cons, htext]; rfl, ?_, hsearched⟩
        rw [firstEnd_single, List.head?_eq_none_iff] at hend
        rw [htext]
        intro t rest heq hm
        have hmem := hm.mem_ends h
        rw [heq, hend] at hmem
        cases hmem
      | some q =>
        rw [firstEnd_single] at hend
        obtain ⟨t, hm, hadv⟩ := (mem_ends h).mp (List.mem_of_mem_head? hend)
        have hlen := hadv.length
        have hpos := List.length_pos_iff.mpr (h.ne_nil t hm.mem)
        simp only [List.length_cons] at hlen
        have hlt : q.after.length < (c :: cs).length := by
          rw [List.length_cons]
          omega
        have htake : (c :: cs).take ((c :: cs).length - q.after.length) = t := hadv.take
        obtain ⟨htext, hsearched⟩ := @ih q.before q.after (by omega)
        have hend' : firstEnd [pattern] ⟨before, c :: cs, []⟩ = some q := by
          rw [firstEnd_single, hend]
        simp only [piecesFrom, hend', if_pos hlt, htake]
        refine ⟨?_, ?_, ?_⟩
        · rw [pieceText_cons, htext]
          exact hadv.after.symm
        · rw [htext]
          exact hm
        · rw [← hadv.before]
          exact hsearched

/-- The pieces are the text, in which every match that the search reaches is one of them. -/
theorem pieces_searched (h : pattern.Proper) (s : Str) :
    pieceText (pieces [pattern] s) = s ∧ Searched pattern [] (pieces [pattern] s) :=
  piecesFrom_searched h le_rfl

theorem text_pieces (h : pattern.Proper) (s : Str) : pieceText (pieces [pattern] s) = s :=
  (pieces_searched h s).1

/-- No match begins at a character between the hits. -/
theorem not_matches_plain (h : pattern.Proper) {s d : Str} {ps qs : List Piece} (hd : d ≠ [])
    (hs : pieces [pattern] s = ps ++ d.map .plain ++ qs) {t after : Str}
    (heq : t ++ after = d ++ pieceText qs) : ¬ pattern.Matches (pieceText ps).reverse t after := by
  have hsearched := (pieces_searched h s).2
  rw [hs, List.append_assoc] at hsearched
  have hrest := hsearched.of_append
  rw [List.append_nil] at hrest
  obtain ⟨c, d, rfl⟩ := List.exists_cons_of_ne_nil hd
  refine hrest.1 t after ?_
  have htext := pieceText_append (d.map .plain) qs
  rw [pieceText_plain] at htext
  rw [heq, List.cons_append]
  exact congrArg (c :: ·) htext.symm

theorem matches_hit (h : pattern.Proper) {s t : Str} {ps qs : List Piece}
    (hs : pieces [pattern] s = ps ++ .hit t :: qs) :
    pattern.Matches (pieceText ps).reverse t (pieceText qs) := by
  have hsearched := (pieces_searched h s).2
  rw [hs] at hsearched
  have hrest := hsearched.of_append
  rw [List.append_nil] at hrest
  exact hrest.1

theorem pieces_of_hits_eq_zero (h : pattern.Proper) {s : Str} (hzero : hits [pattern] s = 0) :
    pieces [pattern] s = s.map .plain := by
  have hplain : ∀ ps : List Piece, ps.countP Piece.isHit = 0 → ps = (pieceText ps).map .plain := by
    intro ps
    induction ps with
    | nil => exact fun _ => rfl
    | cons p ps ih =>
      intro hcount
      cases p with
      | plain c =>
        rw [List.countP_cons_of_neg (by simp [Piece.isHit])] at hcount
        rw [pieceText_cons, Piece.text, List.singleton_append, List.map_cons, ← ih hcount]
      | hit t =>
        rw [List.countP_cons_of_pos (by rfl)] at hcount
        omega
  have := hplain _ hzero
  rwa [text_pieces h] at this

/-- `findall` is empty exactly when there is no match. -/
theorem hits_eq_zero_iff (h : pattern.Proper) {s : Str} :
    hits [pattern] s = 0 ↔ ¬ pattern.Finds s := by
  rw [finds_iff h]
  constructor
  · rintro hzero ⟨a, t, b, rfl, hm⟩
    have hs := pieces_of_hits_eq_zero h hzero
    rw [List.map_append, List.map_append] at hs
    have hat : t ++ b = t ++ pieceText (b.map .plain) := by rw [pieceText_plain]
    refine not_matches_plain h (h.ne_nil t hm.mem) hs hat ?_
    rw [pieceText_plain]
    exact hm
  · intro hnone
    rw [hits, List.countP_eq_zero]
    intro p hp hhit
    obtain ⟨ps, qs, hs⟩ := List.append_of_mem hp
    cases p with
    | plain c => cases hhit
    | hit t =>
      refine hnone ⟨_, t, _, ?_, matches_hit h hs⟩
      rw [← text_pieces h s, hs, pieceText_append, pieceText_cons, Piece.text, List.append_assoc]

/-! ## Substitution -/

/-- What a piece becomes. -/
def Piece.subst (new : Str) : Piece → Str
  | plain c => [c]
  | hit _ => new

/-- What pieces become. -/
def substText (new : Str) (ps : List Piece) : Str := ps.flatMap (Piece.subst new)

@[simp] theorem substText_nil (new : Str) : substText new [] = [] := rfl

@[simp] theorem substText_cons (new : Str) (p : Piece) (ps : List Piece) :
    substText new (p :: ps) = p.subst new ++ substText new ps := rfl

@[simp] theorem substText_append (new : Str) (ps qs : List Piece) :
    substText new (ps ++ qs) = substText new ps ++ substText new qs := List.flatMap_append

@[simp] theorem substText_plain (new s : Str) : substText new (s.map .plain) = s := by
  induction s with
  | nil => rfl
  | cons c s ih => rw [List.map_cons, substText_cons, ih]; rfl

theorem sub_eq (alts : List Pattern) (new s : Str) :
    sub alts new s = substText new (pieces alts s) := by
  have hpiece : (fun piece : Piece => if piece.isHit then new else piece.text) =
      Piece.subst new := by
    funext piece
    cases piece <;> rfl
  rw [sub, hpiece, substText]

theorem sub_of_hits_eq_zero (h : pattern.Proper) {new s : Str} (hzero : hits [pattern] s = 0) :
    sub [pattern] new s = s := by
  rw [sub_eq, pieces_of_hits_eq_zero h hzero, substText_plain]

/-- `d` has neither end of `new`, and some character that `new` has not. -/
structure Apart (new d : Str) : Prop where
  framed : ∃ l w r, new = l :: (w ++ [r]) ∧ l ∉ d ∧ r ∉ d
  foreign : ∃ c ∈ d, c ∉ new

theorem Apart.ne_nil {new d : Str} (h : Apart new d) : d ≠ [] := by
  obtain ⟨c, hc, -⟩ := h.foreign
  exact List.ne_nil_of_mem hc

/-- Where the substituted text begins with `d`, the pieces do. -/
theorem plain_prefix {new d b : Str} {l : CodePoint} {w : Str} (hnew : new = l :: w) (hl : l ∉ d)
    {ps : List Piece} (h : substText new ps = d ++ b) :
    ∃ qs, ps = d.map .plain ++ qs ∧ substText new qs = b := by
  induction d generalizing ps with
  | nil => exact ⟨ps, rfl, h⟩
  | cons c d ih =>
    obtain ⟨hc, hd⟩ := not_or.mp (mt List.mem_cons.mpr hl)
    cases ps with
    | nil => cases h
    | cons p ps =>
      cases p with
      | plain c' =>
        rw [substText_cons, Piece.subst, List.singleton_append, List.cons_append] at h
        injection h with hhead htail
        obtain ⟨qs, rfl, hqs⟩ := ih hd htail
        exact ⟨qs, by rw [hhead, List.map_cons, List.cons_append], hqs⟩
      | hit t =>
        rw [substText_cons, Piece.subst, hnew, List.cons_append, List.cons_append] at h
        injection h with hhead htail
        exact absurd hhead hc

/-- A text that shares nothing with the replacement stood between the hits. -/
theorem plain_of_subst {new a d b : Str} (hd : Apart new d) {ps : List Piece}
    (h : substText new ps = a ++ d ++ b) :
    ∃ ps₁ ps₂, ps = ps₁ ++ d.map .plain ++ ps₂ ∧ substText new ps₁ = a ∧ substText new ps₂ = b := by
  obtain ⟨l, w, r, hnew, hl, hr⟩ := hd.framed
  induction ps generalizing a with
  | nil =>
    have hnil := (List.append_eq_nil_iff.mp (List.append_eq_nil_iff.mp h.symm).1).2
    exact absurd hnil hd.ne_nil
  | cons p ps ih =>
    by_cases ha : a = []
    · rw [ha, List.nil_append] at h
      obtain ⟨qs, hps, hqs⟩ := plain_prefix hnew hl h
      exact ⟨[], qs, hps, ha.symm, hqs⟩
    rw [substText_cons, List.append_assoc] at h
    obtain ⟨k, ha', hrest⟩ | ⟨k, hpiece, hrest⟩ := List.append_eq_append_iff.mp h
    · -- the piece lies before `d`
      rw [← List.append_assoc] at hrest
      obtain ⟨ps₁, ps₂, rfl, h₁, h₂⟩ := ih hrest
      exact ⟨p :: ps₁, ps₂, rfl, by rw [substText_cons, h₁, ha'], h₂⟩
    · by_cases hk : k = []
      · rw [hk, List.nil_append] at hrest
        rw [hk, List.append_nil] at hpiece
        obtain ⟨qs, rfl, hqs⟩ := plain_prefix hnew hl hrest.symm
        exact ⟨[p], qs, rfl, by rw [substText_cons, hpiece, substText_nil, List.append_nil], hqs⟩
      · have hlen := congrArg List.length hpiece
        rw [List.length_append] at hlen
        have hpos := List.length_pos_iff.mpr ha
        have hpos' := List.length_pos_iff.mpr hk
        cases p with
        | plain c =>
          rw [Piece.subst, List.length_singleton] at hlen
          omega
        | hit t =>
          -- `d` would begin inside the replacement, and lie in it or reach over its end
          rw [Piece.subst] at hpiece
          obtain ⟨m, hm, -⟩ | ⟨m, hm, -⟩ := List.append_eq_append_iff.mp hrest
          · obtain ⟨c, hc, hnot⟩ := hd.foreign
            refine absurd ?_ hnot
            rw [hpiece, hm]
            simp [hc]
          · refine absurd ?_ hr
            have hlast : k.getLast hk = r := by
              have hends : new.getLast? = some r := by
                rw [hnew, ← List.cons_append, List.getLast?_concat]
              rw [hpiece, List.getLast?_append_of_ne_nil _ hk, List.getLast?_eq_some_getLast hk] at hends
              exact Option.some.inj hends
            rw [hm, ← hlast]
            exact List.mem_append_left _ (List.getLast_mem hk)

end Re

end Py
