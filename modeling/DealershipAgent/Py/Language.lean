import Mathlib.Computability.Language
import DealershipAgent.Py.Regex

/-!
# The language of an expression

* `mem_run_iff`: an expression without anchors and groups matches exactly the words of its `lang`,
  whatever surrounds them.
* `allows_of_mem_lang`: the characters that such a word can have.
-/

namespace Py

namespace Re

open Computability

/-- No anchors, groups or references to groups. -/
def Regex.simple : Regex → Bool
  | .eps | .char _ => true
  | .seq r s | .alt r s => r.simple && s.simple
  | .star _ r => r.simple
  | .group _ _ | .backref _ | .start | .stop => false

/-- The words that match. -/
def Regex.lang : Regex → Language CodePoint
  | .eps => 1
  | .char c => {t | ∃ a, c a = true ∧ t = [a]}
  | .seq r s => r.lang * s.lang
  | .alt r s => r.lang + s.lang
  | .star _ r => r.lang∗
  | .group _ _ | .backref _ | .start | .stop => 0

/-- The characters of its classes. -/
def Regex.allows : Regex → CodePoint → Bool
  | .char p, c => p c
  | .seq r s, c | .alt r s, c => r.allows c || s.allows c
  | .star _ r, c => r.allows c
  | .eps, _ | .group _ _, _ | .backref _, _ | .start, _ | .stop, _ => false

section Lang

variable {r s : Regex} {t : Str} {c : CodePoint → Bool}

theorem mem_lang_eps : t ∈ Regex.lang .eps ↔ t = [] := Iff.rfl

theorem mem_lang_char : t ∈ (Regex.char c).lang ↔ ∃ a, c a = true ∧ t = [a] := Iff.rfl

theorem mem_lang_seq : t ∈ (Regex.seq r s).lang ↔ ∃ u ∈ r.lang, ∃ v ∈ s.lang, u ++ v = t :=
  Language.mem_mul

theorem mem_lang_alt : t ∈ (Regex.alt r s).lang ↔ t ∈ r.lang ∨ t ∈ s.lang := Iff.rfl

theorem mem_lang_lit {u : Str} : t ∈ (lit u).lang ↔ t = u := by
  induction u generalizing t with
  | nil => exact mem_lang_eps
  | cons a u ih =>
    rw [lit, mem_lang_seq]
    constructor
    · rintro ⟨_, ⟨b, hb, rfl⟩, v, hv, rfl⟩
      rw [ih.mp hv, eq_of_beq hb, List.singleton_append]
    · rintro rfl
      exact ⟨[a], ⟨a, beq_self_eq_true a, rfl⟩, u, ih.mpr rfl, rfl⟩

theorem append_mem_lang_seq {u v : Str} (hu : u ∈ r.lang) (hv : v ∈ s.lang) :
    u ++ v ∈ (Regex.seq r s).lang := Language.append_mem_mul hu hv

theorem allows_of_mem_lang (ht : t ∈ r.lang) : ∀ c ∈ t, r.allows c = true := by
  induction r generalizing t with
  | eps =>
    obtain rfl := mem_lang_eps.mp ht
    intro c hc
    cases hc
  | char p =>
    obtain ⟨a, ha, rfl⟩ := mem_lang_char.mp ht
    intro c hc
    rw [List.mem_singleton.mp hc]
    exact ha
  | seq r s ihr ihs =>
    obtain ⟨u, hu, v, hv, rfl⟩ := mem_lang_seq.mp ht
    intro c hc
    rw [Regex.allows, Bool.or_eq_true]
    exact (List.mem_append.mp hc).imp (ihr hu c) (ihs hv c)
  | alt r s ihr ihs =>
    intro c hc
    rw [Regex.allows, Bool.or_eq_true]
    exact (mem_lang_alt.mp ht).imp (fun h => ihr h c hc) fun h => ihs h c hc
  | star greedy r ih =>
    obtain ⟨L, rfl, hL⟩ := Language.mem_kstar.mp ht
    intro c hc
    obtain ⟨u, hu, hcu⟩ := List.mem_flatten.mp hc
    exact ih (hL u hu) c hcu
  | group | backref | start | stop => cases ht

end Lang

section Run

variable {p q : Pos} {r : Regex} {t : Str}

/-- What an expression matches does not depend on what surrounds it. -/
theorem mem_run_iff (h : r.simple = true) : q ∈ run r p ↔ ∃ t ∈ r.lang, Adv p t q := by
  induction r generalizing p q with
  | eps =>
    rw [mem_run_eps]
    constructor
    · rintro rfl
      exact ⟨[], rfl, .refl q⟩
    · rintro ⟨t, ht, hadv⟩
      obtain rfl := mem_lang_eps.mp ht
      exact hadv.eq
  | char c =>
    rw [mem_run_char]
    constructor
    · rintro ⟨a, ha, hadv⟩
      exact ⟨[a], ⟨a, ha, rfl⟩, hadv⟩
    · rintro ⟨t, ⟨a, ha, rfl⟩, hadv⟩
      exact ⟨a, ha, hadv⟩
  | seq r s ihr ihs =>
    obtain ⟨hr, hs⟩ := Bool.and_eq_true_iff.mp h
    rw [mem_run_seq]
    constructor
    · rintro ⟨m, hm, hq⟩
      obtain ⟨u, hu, hadv⟩ := (ihr hr).mp hm
      obtain ⟨v, hv, hadv'⟩ := (ihs hs).mp hq
      exact ⟨u ++ v, append_mem_lang_seq hu hv, hadv.trans hadv'⟩
    · rintro ⟨t, ht, hadv⟩
      obtain ⟨u, hu, v, hv, rfl⟩ := mem_lang_seq.mp ht
      obtain ⟨m, hm, hq⟩ := hadv.split
      exact ⟨m, (ihr hr).mpr ⟨u, hu, hm⟩, (ihs hs).mpr ⟨v, hv, hq⟩⟩
  | alt r s ihr ihs =>
    obtain ⟨hr, hs⟩ := Bool.and_eq_true_iff.mp h
    rw [mem_run_alt, ihr hr, ihs hs]
    constructor
    · rintro (⟨t, ht, hadv⟩ | ⟨t, ht, hadv⟩)
      · exact ⟨t, .inl ht, hadv⟩
      · exact ⟨t, .inr ht, hadv⟩
    · rintro ⟨t, ht | ht, hadv⟩
      · exact .inl ⟨t, ht, hadv⟩
      · exact .inr ⟨t, ht, hadv⟩
  | star greedy r ih =>
    rw [run_star, mem_iterate_iff (fun p q => ih h) (Nat.le_refl _)]
    have hkstar := Language.kstar_def_nonempty r.lang
    constructor
    · rintro ⟨L, hL, hadv⟩
      exact ⟨L.flatten, Language.join_mem_kstar fun t ht => (hL t ht).1, hadv⟩
    · rintro ⟨t, ht, hadv⟩
      rw [Regex.lang, hkstar] at ht
      obtain ⟨L, rfl, hL⟩ := ht
      exact ⟨L, hL, hadv⟩
  | group | backref | start | stop => cases h

end Run

end Re

end Py
