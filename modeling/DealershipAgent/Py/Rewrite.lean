import DealershipAgent.Py.Pieces

/-!
# Texts with parts rewritten

`Rewrites P s t`: `t` is `s`, where some parts `g` that follow each other were rewritten to texts `r` with
`P g r`.

* `rewrites_replace`, `rewrites_sub`: `s.replace(old, new)` and `pattern.sub(new, s)` rewrite so.
* `Rewrites.contained`: what is in the new text was made of something in the old one, if a part becomes
  one character at most.
* `LeftOut`: parts that are left out. `Rewrites.trans_leftOut`: leaving out in two steps, where the
  second one leaves out nothing that the first one has put together.
* `replace_contained`: what is left of a text that was removed came together by the removal.
-/

namespace Py

/-- Some parts of the text are rewritten. -/
inductive Rewrites (P : Str → Str → Prop) : Str → Str → Prop
  | nil : Rewrites P [] []
  | keep (c : CodePoint) {s t : Str} : Rewrites P s t → Rewrites P (c :: s) (c :: t)
  | swap {g r s t : Str} : P g r → Rewrites P s t → Rewrites P (g ++ s) (r ++ t)

section Rewrites

variable {P : Str → Str → Prop} {s t u : Str}

theorem Rewrites.refl (P : Str → Str → Prop) (s : Str) : Rewrites P s s := by
  induction s with
  | nil => exact .nil
  | cons c s ih => exact .keep c ih

theorem Rewrites.append {s' t' : Str} (h : Rewrites P s t) (h' : Rewrites P s' t') :
    Rewrites P (s ++ s') (t ++ t') := by
  induction h with
  | nil => exact h'
  | keep c _ ih => exact .keep c ih
  | swap hp _ ih =>
    rw [List.append_assoc, List.append_assoc]
    exact .swap hp ih

/-- Each part becomes one character at most. -/
def Shrinks (P : Str → Str → Prop) : Prop := ∀ g r, P g r → g ≠ [] ∧ r.length ≤ 1

theorem Rewrites.length_le (hP : Shrinks P) (h : Rewrites P s t) : t.length ≤ s.length := by
  induction h with
  | nil => exact le_refl _
  | keep c _ ih => exact Nat.succ_le_succ ih
  | swap hp _ ih =>
    obtain ⟨hg, hr⟩ := hP _ _ hp
    have := List.length_pos_iff.mpr hg
    rw [List.length_append, List.length_append]
    omega

/-- The two halves of the new text were made of two halves of the old one. -/
theorem Rewrites.split (hP : Shrinks P) {a b : Str} (h : Rewrites P s (a ++ b)) :
    ∃ s₁ s₂, s = s₁ ++ s₂ ∧ Rewrites P s₁ a ∧ Rewrites P s₂ b := by
  generalize ht : a ++ b = t at h
  induction h generalizing a with
  | nil =>
    obtain ⟨rfl, rfl⟩ := List.append_eq_nil_iff.mp ht
    exact ⟨[], [], rfl, .nil, .nil⟩
  | @keep c s t h ih =>
    cases a with
    | nil =>
      obtain rfl : b = c :: t := ht
      exact ⟨[], c :: s, rfl, .nil, .keep c h⟩
    | cons d a =>
      obtain ⟨rfl, htail⟩ := List.cons_eq_cons.mp ht
      obtain ⟨s₁, s₂, rfl, h₁, h₂⟩ := ih htail
      exact ⟨d :: s₁, s₂, rfl, .keep d h₁, h₂⟩
  | @swap g r s t hp h ih =>
    cases a with
    | nil =>
      obtain rfl : b = r ++ t := ht
      exact ⟨[], g ++ s, rfl, .nil, .swap hp h⟩
    | cons d a =>
      match r, (hP g r hp).2 with
      | [], _ =>
        obtain ⟨s₁, s₂, rfl, h₁, h₂⟩ := ih ht
        exact ⟨g ++ s₁, s₂, (List.append_assoc ..).symm, .swap hp h₁, h₂⟩
      | [x], _ =>
        obtain ⟨rfl, htail⟩ := List.cons_eq_cons.mp ht
        obtain ⟨s₁, s₂, rfl, h₁, h₂⟩ := ih htail
        exact ⟨g ++ s₁, s₂, (List.append_assoc ..).symm, .swap hp h₁, h₂⟩

theorem Rewrites.begins (hP : Shrinks P) (h : Rewrites P s t) (hu : u <+: t) :
    ∃ w, w <+: s ∧ Rewrites P w u := by
  obtain ⟨b, rfl⟩ := hu
  obtain ⟨s₁, s₂, rfl, h₁, -⟩ := h.split hP
  exact ⟨s₁, List.prefix_append _ _, h₁⟩

/-- What is in the new text was made of something in the old one. -/
theorem Rewrites.contained (hP : Shrinks P) (h : Rewrites P s t) (hu : u <:+: t) :
    ∃ w, w <:+: s ∧ Rewrites P w u := by
  obtain ⟨a, b, rfl⟩ := hu
  obtain ⟨s₁, s₂, rfl, h₁, -⟩ := h.split hP
  obtain ⟨s₃, s₄, rfl, -, h₄⟩ := h₁.split hP
  exact ⟨s₄, ⟨s₃, s₂, rfl⟩, h₄⟩

/-- Nothing changes where every part that can be rewritten becomes itself. -/
theorem Rewrites.eq_of_same (h : Rewrites P s t) (hsame : ∀ g r, g <:+: s → P g r → r = g) : t = s := by
  induction h with
  | nil => rfl
  | @keep c s t _ ih =>
    rw [ih fun g r hg => hsame g r (hg.trans (List.suffix_cons c s).isInfix)]
  | @swap g r s t hp _ ih =>
    rw [ih fun g' r' hg => hsame g' r' (hg.trans (List.suffix_append g s).isInfix),
      hsame g r (List.prefix_append g s).isInfix hp]

/-- `pattern.sub(new, s)` -/
theorem rewrites_sub {pattern : Re.Pattern} (h : pattern.Proper) {new : Str}
    (hP : ∀ g ∈ pattern.re.lang, P g new) (s : Str) : Rewrites P s (Re.sub [pattern] new s) := by
  have hpieces : ∀ ps before, Re.Searched pattern before ps → Rewrites P (Re.pieceText ps)
      (ps.flatMap fun piece => if piece.isHit then new else piece.text) := by
    intro ps
    induction ps with
    | nil => exact fun _ _ => .nil
    | cons p ps ih =>
      intro before hs
      cases p with
      | plain c => exact .keep c (ih _ hs.2)
      | hit g => exact .swap (hP g hs.1.mem) (ih _ hs.2)
  obtain ⟨htext, hsearched⟩ := Re.pieces_searched h s
  have hrewrites := hpieces _ _ hsearched
  rw [htext] at hrewrites
  exact hrewrites

theorem rewrites_replaceFrom {old new : Str} (hP : P old new) (fuel : Nat) (s : Str) :
    Rewrites P s (replaceFrom old new fuel s) := by
  induction fuel generalizing s with
  | zero => exact .refl P s
  | succ fuel ih =>
    cases s with
    | nil => exact .nil
    | cons c cs =>
      unfold replaceFrom
      cases hd : dropPrefix old (c :: cs) with
      | none => exact .keep c (ih cs)
      | some rest =>
        rw [dropPrefix_eq_some hd]
        exact .swap hP (ih rest)

/-- `s.replace(old, new)` -/
theorem rewrites_replace {old new : Str} (hP : P old new) (s : Str) :
    Rewrites P s (replace old new s) := rewrites_replaceFrom hP s.length s

end Rewrites

/-! ## Parts that are left out -/

/-- The part is one of these, and is left out. -/
def LeftOut (parts : List Str) (g r : Str) : Prop := g ∈ parts ∧ r = []

section LeftOut

variable {parts : List Str} {s t u : Str}

theorem shrinks_leftOut (hne : ∀ g ∈ parts, g ≠ []) : Shrinks (LeftOut parts) := by
  rintro g r ⟨hg, rfl⟩
  exact ⟨hne g hg, Nat.zero_le 1⟩

/-- Either something was left out, or nothing. -/
theorem Rewrites.leftOut_cases (hne : ∀ g ∈ parts, g ≠ []) (h : Rewrites (LeftOut parts) s t) :
    t = s ∨ ∃ g ∈ parts, g <:+: s ∧ t.length + g.length ≤ s.length := by
  induction h with
  | nil => exact .inl rfl
  | @keep c s t _ ih =>
    rcases ih with rfl | ⟨g, hg, hin, hlen⟩
    · exact .inl rfl
    · refine .inr ⟨g, hg, hin.trans (List.suffix_cons c s).isInfix, ?_⟩
      rw [List.length_cons, List.length_cons]
      omega
  | @swap g r s t hp h _ =>
    obtain ⟨hg, rfl⟩ := hp
    have := h.length_le (shrinks_leftOut hne)
    refine .inr ⟨g, hg, (List.prefix_append g s).isInfix, ?_⟩
    rw [List.length_append, List.length_append, List.length_nil]
    omega

/-- Parts are left out in two steps. What the second one leaves out stands in the old text as it is. -/
theorem Rewrites.trans_leftOut (hne : ∀ g ∈ parts, g ≠ [])
    (hwhole : ∀ g ∈ parts, ∀ w, w <:+: s → Rewrites (LeftOut parts) w g → w = g)
    (h : Rewrites (LeftOut parts) s t) (h' : Rewrites (LeftOut parts) t u) :
    Rewrites (LeftOut parts) s u := by
  induction h' generalizing s with
  | nil => exact h
  | @keep c t u _ ih =>
    obtain ⟨s₁, s₂, rfl, h₁, h₂⟩ := Rewrites.split (shrinks_leftOut hne) (a := [c]) h
    exact h₁.append (ih (fun g hg w hw => hwhole g hg w (hw.trans (List.suffix_append s₁ s₂).isInfix)) h₂)
  | @swap g r t u hp _ ih =>
    obtain ⟨s₁, s₂, rfl, h₁, h₂⟩ := h.split (shrinks_leftOut hne)
    obtain rfl := hwhole g hp.1 s₁ (List.prefix_append s₁ s₂).isInfix h₁
    exact .swap hp (ih (fun g' hg w hw => hwhole g' hg w (hw.trans (List.suffix_append _ s₂).isInfix)) h₂)

/-- What is in a text of which it was removed was put together by that. -/
theorem replace_contained {old : Str} (hold : old ∈ parts) (hne : ∀ g ∈ parts, g ≠ [])
    (h : old <:+: replace old [] s) :
    ∃ w, w <:+: s ∧ Rewrites (LeftOut parts) w old ∧ w ≠ old := by
  have hshrinks := shrinks_leftOut hne
  have hpos : 0 < old.length := List.length_pos_iff.mpr (hne old hold)
  have hnil : ¬ old <:+: [] := fun h => hne old hold (List.infix_nil.mp h)
  have hfrom : ∀ fuel s, s.length ≤ fuel → old <:+: replaceFrom old [] fuel s →
      ∃ w, w <:+: s ∧ Rewrites (LeftOut parts) w old ∧ w ≠ old := by
    intro fuel
    induction fuel with
    | zero =>
      intro s hlen h
      obtain rfl := List.length_eq_zero_iff.mp (Nat.le_zero.mp hlen)
      exact absurd h hnil
    | succ fuel ih =>
      intro s hlen h
      cases s with
      | nil => exact absurd h hnil
      | cons c cs =>
        rw [List.length_cons] at hlen
        have hall : Rewrites (LeftOut parts) cs (replaceFrom old [] fuel cs) :=
          rewrites_replaceFrom ⟨hold, rfl⟩ fuel cs
        unfold replaceFrom at h
        cases hd : dropPrefix old (c :: cs) with
        | some rest =>
          rw [hd] at h
          have hs := dropPrefix_eq_some hd
          have hrest : rest.length ≤ fuel := by
            have := congrArg List.length hs
            rw [List.length_append, List.length_cons] at this
            omega
          obtain ⟨w, hw, hmade⟩ := ih rest hrest h
          exact ⟨w, hs ▸ hw.trans (List.suffix_append old rest).isInfix, hmade⟩
        | none =>
          rw [hd] at h
          rcases List.infix_cons_iff.mp h with hbegins | hin
          · -- it begins here, where it was not found before the removal
            obtain ⟨w, hw, hmade⟩ := (Rewrites.keep c hall).begins hshrinks hbegins
            refine ⟨w, hw.isInfix, hmade, ?_⟩
            rintro rfl
            obtain ⟨rest, hrest⟩ := hw
            rw [← hrest, dropPrefix_append] at hd
            cases hd
          · obtain ⟨w, hw, hmade⟩ := ih cs (by omega) hin
            exact ⟨w, hw.trans (List.suffix_cons c cs).isInfix, hmade⟩
  exact hfrom s.length s (le_refl _) h

end LeftOut

end Py
