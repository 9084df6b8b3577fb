import DealershipAgent.Py.Regex

/-!
# Search, substitution and splitting

* `Pattern`: an expression with assertions on the text around a match.
* `pieces`: a text as what the search from left to right finds in it, and the characters between.
* `sub`, `hits`, `split`: `pattern.sub`, `len(pattern.findall(s))` and `pattern.split` for patterns
  without groups that match no empty text.
* `replace`: `s.replace(old, new)`.
-/

namespace Py

namespace Re

/-- An expression, with an assertion (on the text before and after) where a match starts and one where
it stops. -/
structure Pattern where
  start : Str → Str → Bool := fun _ _ => true
  re : Regex
  stop : Str → Str → Bool := fun _ _ => true

/-- The ends of the matches at a position, in the order of the search. -/
def Pattern.ends (pattern : Pattern) (p : Pos) : List Pos :=
  if pattern.start p.before p.after then
    (run pattern.re p).filter fun q => pattern.stop q.before q.after
  else []

/-- Where the first match at a position ends, of patterns that are alternatives. -/
def firstEnd (alts : List Pattern) (p : Pos) : Option Pos :=
  (alts.flatMap fun pattern => pattern.ends p).head?

/-- A part of a text that was searched. -/
inductive Piece where
  | plain (c : CodePoint)
  | hit (t : Str)
deriving DecidableEq

def Piece.text : Piece → Str
  | plain c => [c]
  | hit t => t

def Piece.isHit : Piece → Bool
  | plain _ => false
  | hit _ => true

/-- The parts of the text after a position, at most `fuel` of them. -/
def piecesFrom (alts : List Pattern) : Nat → Str → Str → List Piece
  | 0, _, after => after.map .plain
  | _ + 1, _, [] => []
  | fuel + 1, before, c :: cs =>
    match firstEnd alts ⟨before, c :: cs, []⟩ with
    | none => .plain c :: piecesFrom alts fuel (c :: before) cs
    | some q =>
      if q.after.length < (c :: cs).length then
        .hit ((c :: cs).take ((c :: cs).length - q.after.length)) ::
          piecesFrom alts fuel q.before q.after
      else .plain c :: piecesFrom alts fuel (c :: before) cs

/-- The parts of a text. -/
def pieces (alts : List Pattern) (s : Str) : List Piece := piecesFrom alts s.length [] s

/-- `pattern.sub(new, s)` -/
def sub (alts : List Pattern) (new s : Str) : Str :=
  (pieces alts s).flatMap fun piece => if piece.isHit then new else piece.text

/-- `len(pattern.findall(s))` -/
def hits (alts : List Pattern) (s : Str) : Nat := (pieces alts s).countP Piece.isHit

/-- The texts between the matches, the first one after `current`. -/
def splitPieces : Str → List Piece → List Str
  | current, [] => [current]
  | current, .plain c :: rest => splitPieces (current ++ [c]) rest
  | current, .hit _ :: rest => current :: splitPieces [] rest

/-- `pattern.split(s)` -/
def split (alts : List Pattern) (s : Str) : List Str := splitPieces [] (pieces alts s)

end Re

/-- `s.replace(old, new)` from here on, for an `old` that is not empty. -/
def replaceFrom (old new : Str) : Nat → Str → Str
  | 0, s => s
  | _ + 1, [] => []
  | fuel + 1, c :: cs =>
    match dropPrefix old (c :: cs) with
    | some rest => new ++ replaceFrom old new fuel rest
    | none => c :: replaceFrom old new fuel cs

/-- `s.replace(old, new)` -/
def replace (old new s : Str) : Str := replaceFrom old new s.length s

end Py
