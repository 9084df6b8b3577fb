import DealershipAgent.Py.Exc

/-!
# JSON values as Python holds them

`null` is `None`, an array a `list`, an object a `dict` in its order. A `dict` is a list of members
with distinct keys: `dictSet` overwrites in place, `dictOf` builds one from pairs as they come.
-/

namespace Py

/-- A value that `json.loads` can return. -/
inductive Json (F : Type) where
  | null
  | bool (b : Bool)
  | int (i : Int)
  | float (x : F)
  | string (s : Str)
  | array (xs : List (Json F))
  | object (kvs : List (Str × Json F))

variable {F : Type}

namespace Json

def typeName : Json F → Str
  | null => "NoneType"
  | bool _ => "bool"
  | int _ => "int"
  | float _ => "float"
  | string _ => "str"
  | array _ => "list"
  | object _ => "dict"

section Equality

variable [DecidableEq F]

mutual
/-- Structural equality, as a test. -/
def same : Json F → Json F → Bool
  | null, null => true
  | bool a, bool b => a = b
  | int a, int b => a = b
  | float a, float b => a = b
  | string a, string b => a = b
  | array xs, array ys => sameItems xs ys
  | object kvs, object ms => sameMembers kvs ms
  | _, _ => false

def sameItems : List (Json F) → List (Json F) → Bool
  | [], [] => true
  | x :: xs, y :: ys => same x y && sameItems xs ys
  | _, _ => false

def sameMembers : List (Str × Json F) → List (Str × Json F) → Bool
  | [], [] => true
  | (k, v) :: kvs, (l, w) :: ms => decide (k = l) && (same v w && sameMembers kvs ms)
  | _, _ => false
end

mutual
theorem same_iff : ∀ v w : Json F, same v w = true ↔ v = w
  | null, w => by cases w <;> simp [same]
  | bool a, w => by cases w <;> simp [same]
  | int a, w => by cases w <;> simp [same]
  | float a, w => by cases w <;> simp [same]
  | string a, w => by cases w <;> simp [same]
  | array xs, w => by cases w <;> simp [same, sameItems_iff xs]
  | object kvs, w => by cases w <;> simp [same, sameMembers_iff kvs]

theorem sameItems_iff : ∀ xs ys : List (Json F), sameItems xs ys = true ↔ xs = ys
  | [], ys => by cases ys <;> simp [sameItems]
  | x :: xs, ys => by cases ys <;> simp [sameItems, same_iff x, sameItems_iff xs]

theorem sameMembers_iff : ∀ kvs ms : List (Str × Json F), sameMembers kvs ms = true ↔ kvs = ms
  | [], ms => by cases ms <;> simp [sameMembers]
  | (k, v) :: kvs, ms => by
    cases ms <;> simp [sameMembers, same_iff v, sameMembers_iff kvs, Prod.ext_iff, and_assoc]
end

instance : DecidableEq (Json F) := fun v w => decidable_of_iff _ (same_iff v w)

end Equality

variable [PyFloat F]

/-- `bool(v)`. -/
def truthy : Json F → Bool
  | null => false
  | bool b => b
  | int i => i != 0
  | float x => !PyFloat.isZero x
  | string s => !s.isEmpty
  | array xs => !xs.isEmpty
  | object kvs => !kvs.isEmpty

/-- `v or w`. -/
def orElse (v w : Json F) : Json F := if v.truthy then v else w

section Text

variable [Unicode]

mutual
/-- `repr(v)`. -/
def pyRepr : Json F → Str
  | null => "None"
  | bool true => "True"
  | bool false => "False"
  | int i => intRepr i
  | float x => PyFloat.repr x
  | string s => reprStr s
  | array xs => str "[" ++ pyReprItems xs ++ str "]"
  | object kvs => str "\x7b" ++ pyReprMembers kvs ++ str "\x7d"

def pyReprItems : List (Json F) → Str
  | [] => []
  | [x] => pyRepr x
  | x :: y :: ys => pyRepr x ++ str ", " ++ pyReprItems (y :: ys)

def pyReprMembers : List (Str × Json F) → Str
  | [] => []
  | [(k, v)] => reprStr k ++ str ": " ++ pyRepr v
  | (k, v) :: m :: ms => reprStr k ++ str ": " ++ pyRepr v ++ str ", " ++ pyReprMembers (m :: ms)
end

/-- `str(v)`. -/
def pyStr : Json F → Str
  | string s => s
  | v => pyRepr v

end Text

end Json

/-! ## Dictionaries -/

/-- `d.get(key, default)`. -/
def dictGetD (kvs : List (Str × Json F)) (key : Str) (default : Json F) : Json F :=
  (kvs.lookup key).getD default

/-- `d.get(key)`: `None` for an absent key. -/
def dictGet (kvs : List (Str × Json F)) (key : Str) : Json F := dictGetD kvs key .null

/-- `key in d`. -/
def dictHas (kvs : List (Str × Json F)) (key : Str) : Bool := (kvs.lookup key).isSome

/-- `d[key] = v`. -/
def dictSet : List (Str × Json F) → Str → Json F → List (Str × Json F)
  | [], key, v => [(key, v)]
  | (k, w) :: kvs, key, v => if k = key then (k, v) :: kvs else (k, w) :: dictSet kvs key v

/-- `dict(pairs)`. -/
def dictOf (pairs : List (Str × Json F)) : List (Str × Json F) :=
  pairs.foldl (fun d kv => dictSet d kv.1 kv.2) []

/-! ## Operations that raise on the wrong type -/

namespace Json

/-- `v == s` for a `str` `s`. -/
def eqStr (v : Json F) (s : Str) : Bool :=
  match v with
  | string t => t == s
  | _ => false

/-- The elements that `for x in v` goes over. -/
def iter : Json F → Except Exc (List (Json F))
  | array xs => .ok xs
  | string s => .ok (s.map fun c => string [c])
  | object kvs => .ok (kvs.map fun kv => string kv.1)
  | v => .error ⟨.typeError, str "'" ++ v.typeName ++ str "' object is not iterable"⟩

/-- The members of `v`, for `v.get(..)`: only a `dict` has that attribute. -/
def asDict : Json F → Except Exc (List (Str × Json F))
  | object kvs => .ok kvs
  | v => .error ⟨.attributeError,
      str "'" ++ v.typeName ++ str "' object has no attribute 'get'"⟩

/-- `v[key]` for a `str` key. -/
def subscript [Unicode] (v : Json F) (key : Str) : Except Exc (Json F) :=
  match v with
  | object kvs =>
    match kvs.lookup key with
    | some w => .ok w
    | none => .error ⟨.keyError, reprStr key⟩
  | array _ => .error ⟨.typeError, "list indices must be integers or slices, not str"⟩
  | string _ => .error ⟨.typeError, "string indices must be integers, not 'str'"⟩
  | v => .error ⟨.typeError, str "'" ++ v.typeName ++ str "' object is not subscriptable"⟩

/-- `v` is a `dict` that holds `w` under `key`. -/
def HasMember (v : Json F) (key : Str) (w : Json F) : Prop :=
  ∃ kvs, v = object kvs ∧ kvs.lookup key = some w

theorem HasMember.unique {v w w' : Json F} {key : Str} (h : v.HasMember key w)
    (h' : v.HasMember key w') : w = w' := by
  obtain ⟨kvs, rfl, hw⟩ := h
  obtain ⟨kvs', hk, hw'⟩ := h'
  cases hk
  rw [hw] at hw'
  exact Option.some.inj hw'

theorem asDict_eq_ok {v : Json F} {kvs : List (Str × Json F)} :
    v.asDict = .ok kvs ↔ v = object kvs := by
  cases v <;> simp [asDict]

theorem eqStr_eq_true {v : Json F} {s : Str} : v.eqStr s = true ↔ v = string s := by
  cases v <;> simp [eqStr]

theorem subscript_eq_ok [Unicode] {v w : Json F} {key : Str} :
    v.subscript key = .ok w ↔ v.HasMember key w := by
  cases v with
  | object kvs =>
    rw [subscript]
    cases h : kvs.lookup key <;> simp [HasMember, h]
  | _ => simp [subscript, HasMember]

/-- A failed subscript is a missing key or a wrong type. -/
theorem subscript_error_kind [Unicode] {v : Json F} {key : Str} {e : Exc}
    (h : v.subscript key = .error e) : e.kind = .keyError ∨ e.kind = .typeError := by
  cases v with
  | object kvs =>
    rw [subscript] at h
    cases hl : kvs.lookup key with
    | none => rw [hl] at h; cases h; exact .inl rfl
    | some u => rw [hl] at h; cases h
  | _ => cases h; exact .inr rfl

end Json

end Py
