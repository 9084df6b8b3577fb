import DealershipAgent.Py.Exc

/-!
# Texts on their way to Postgres

What psycopg makes of a `str` that is a parameter: it encodes it in UTF-8, and sends no NUL.
-/

namespace DealershipAgent

open Py

def isSurrogate (c : CodePoint) : Bool := 0xd800 ≤ c.val && c.val ≤ 0xdfff

/-- The driver raises before anything is sent. -/
def bindText (s : Str) : Except Exc Str :=
  if s.any isSurrogate then .error ⟨.other "UnicodeEncodeError", "surrogates not allowed"⟩
  else if codePoint 0 ∈ s then
    .error ⟨.other "DataError", "PostgreSQL text fields cannot contain NUL (0x00) bytes"⟩
  else .ok s

/-- The text is one that Postgres can hold. -/
def Storable (s : Str) : Prop := s.any isSurrogate = false ∧ codePoint 0 ∉ s

instance (s : Str) : Decidable (Storable s) := inferInstanceAs (Decidable (_ ∧ _))

theorem bindText_eq {s : Str} (h : Storable s) : bindText s = .ok s := by
  rw [bindText, if_neg (by simp [h.1]), if_neg h.2]

theorem bindText_eq_ok {s t : Str} : bindText s = .ok t ↔ Storable s ∧ t = s := by
  constructor
  · intro h
    unfold bindText at h
    split_ifs at h with hs hnul
    cases h
    exact ⟨⟨by simpa using hs, hnul⟩, rfl⟩
  · rintro ⟨h, rfl⟩
    exact bindText_eq h

end DealershipAgent
