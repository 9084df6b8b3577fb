import DealershipAgent.Py.Sub

/-!
# Redaction of personal data

`redact_pii` of `data/scripts/clean_listings.py`.

* `PiiCategory`: the categories in their order, each with its pattern (`PII_PATTERNS`).
* `redactPii`: the patterns substituted one after the other, and the counts.
-/

namespace DealershipAgent

open Py Re

section Patterns

variable [Unicode]

/-- `\d` -/
def isDecimal (c : CodePoint) : Bool := (Unicode.decimal c).isSome

/-- `\b`, between what lies before and after. -/
def wordBoundary (before after : Str) : Bool := before.head?.any Unicode.isWord != after.head?.any Unicode.isWord

/-- The expressions one after the other. -/
def seqs (rs : List Regex) : Regex := rs.foldr .seq .eps

/-- `r{n}` -/
def times (n : Nat) (r : Regex) : Regex := seqs (List.replicate n r)

/-- `r{0,n}` -/
def upTo : Nat → Regex → Regex
  | 0, _ => .eps
  | n + 1, r => opt (.seq r (upTo n r))

/-- One of these characters. -/
def oneOf (chars : Str) (c : CodePoint) : Bool := c ∈ chars

/-- `[-.\s]` -/
def phoneSeparator : Regex := .char fun c => oneOf "-." c || isSpace c

/-- `PHONE_RE` -/
def phonePattern : Pattern where
  re := seqs [opt (seqs [opt (lit "+"), lit "1", opt phoneSeparator]), opt (lit "("),
    times 3 (.char isDecimal), opt (lit ")"), phoneSeparator, times 3 (.char isDecimal),
    phoneSeparator, times 4 (.char isDecimal)]
  stop := wordBoundary

/-- `[A-Za-z0-9]` -/
def isAlnum (c : CodePoint) : Bool := isAsciiLetter c || isDigit c

/-- `EMAIL_RE` -/
def emailPattern : Pattern where
  re := seqs [plus (.char fun c => isAlnum c || oneOf "_.+-" c), lit "@",
    plus (.char fun c => isAlnum c || oneOf "-" c), lit ".",
    plus (.char fun c => isAlnum c || oneOf ".-" c)]

/-- A letter, whatever its case. The long s is another `s`. -/
def anyCase (letter : Char) : Regex :=
  .char fun c => asciiLower c = chr letter || (letter = 's' && c = codePoint 0x17f)

/-- `URL_RE`, with `re.IGNORECASE` -/
def urlPattern : Pattern where
  re := seqs [.alt (seqs [anyCase 'h', anyCase 't', anyCase 't', anyCase 'p', opt (anyCase 's'), lit "://"])
      (seqs [anyCase 'w', anyCase 'w', anyCase 'w', lit "."]),
    plus (.char fun c => !(isSpace c || oneOf "<>\"')" c))]

/-- `[A-Z]` -/
def isCapital (c : CodePoint) : Bool := 65 ≤ c.val && c.val ≤ 90

/-- `[A-Z][a-zA-Z'.]*\s+` -/
def streetWord : Regex :=
  seqs [.char isCapital, .star true (.char fun c => isAsciiLetter c || oneOf "'." c),
    plus (.char isSpace)]

/-- The suffixes of `ADDRESS_RE`. -/
def streetSuffixes : List Str := ["St", "Ave", "Blvd", "Rd", "Dr", "Ln", "Ct", "Pl", "Pkwy", "Cir", "Ter"]

/-- The alternatives in their order; there is at least one. -/
def altLits : List Str → Regex
  | [] => .eps
  | [s] => lit s
  | s :: ss => .alt (lit s) (altLits ss)

/-- `ADDRESS_RE` -/
def addressPattern : Pattern where
  start := wordBoundary
  re := seqs [.char isDecimal, upTo 5 (.char isDecimal), plus (.char isSpace), streetWord,
    upTo 2 streetWord, altLits streetSuffixes, lit "."]

/-- The keys of `PII_PATTERNS`, in their order. -/
inductive PiiCategory where
  | phone
  | email
  | url
  | address
deriving DecidableEq, Repr

def PiiCategory.pattern : PiiCategory → Pattern
  | phone => phonePattern
  | email => emailPattern
  | url => urlPattern
  | address => addressPattern

/-- `f"[REDACTED_{category.upper()}]"` -/
def PiiCategory.marker : PiiCategory → Str
  | phone => "[REDACTED_PHONE]"
  | email => "[REDACTED_EMAIL]"
  | url => "[REDACTED_URL]"
  | address => "[REDACTED_ADDRESS]"

def piiCategories : List PiiCategory := [.phone, .email, .url, .address]

/-- One step of the loop, over the text and the counts. -/
def redactCategory (s : Str × List (PiiCategory × Nat)) (category : PiiCategory) :
    Str × List (PiiCategory × Nat) :=
  let count := hits [category.pattern] s.1
  (if count = 0 then s.1 else sub [category.pattern] category.marker s.1, s.2 ++ [(category, count)])

/-- `redact_pii` -/
def redactPii (text : Str) : Str × List (PiiCategory × Nat) :=
  piiCategories.foldl redactCategory (text, [])

end Patterns

end DealershipAgent
