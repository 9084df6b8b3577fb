import DealershipAgent.Py.Fs

/-!
# The caller's identity across the process boundary

`tools/identity.py`, and the two ends of the environment that carries an identity into a tool
server: `open_mcp_session` (`agents/mcp_session.py`) builds the child's environment,
`_identity_from_env` (`tools/server.py`) reads it.

* `openMcpSessionEnv`, `stdioClientEnv`: the environment of the child. The `mcp` client lays it over
  a default environment of its own (`getDefaultEnvironment`), which forwards some variables of the
  parent and adds none (`Inherited`).
* `identity_survives_iff`: the child reads the identity it was started with if and only if the session
  id passes the environment, the customer id has no more digits than `str` writes, and the session is
  not anonymous under a parent whose own environment names a customer.
-/

namespace DealershipAgent

open Py

/-- Everything known about the caller for one request. -/
structure RequestIdentity where
  sessionId : Str
  customerId : Option Int := none
deriving DecidableEq, Repr

def sessionIdEnvVar : Str := "DEALERSHIP_MCP_SESSION_ID"

def customerIdEnvVar : Str := "DEALERSHIP_MCP_CUSTOMER_ID"

theorem customerIdEnvVar_ne : customerIdEnvVar ≠ sessionIdEnvVar := by decide

/-- The environment that `open_mcp_session` gives to the stdio client. -/
def openMcpSessionEnv (parent : Environ) (identity : RequestIdentity) : Except Exc EnvDict := do
  let env := EnvDict.set parent.dict sessionIdEnvVar identity.sessionId
  match identity.customerId with
  | some c => return EnvDict.set env customerIdEnvVar (← strOfInt c)
  | none => return env

/-- The environment that the client starts the child with: its default environment with `env` over
it. -/
def stdioClientEnv (getDefaultEnvironment : Environ → EnvDict) (parent : Environ) (env : EnvDict) :
    EnvDict :=
  env ++ (getDefaultEnvironment parent).filter fun kv => (env.lookup kv.1).isNone

/-- The default environment forwards variables of the parent and makes up none. -/
def Inherited (getDefaultEnvironment : Environ → EnvDict) : Prop :=
  ∀ parent, ∀ kv ∈ getDefaultEnvironment parent, parent.dict.lookup kv.1 = some kv.2

/-- The identity that the two variables give. An empty one is read as an absent one. -/
def readIdentity [Unicode] (session customer : Option Str) : Except Exc (Option RequestIdentity) :=
  match session with
  | some (s :: ss) =>
    match customer with
    | some (c :: cs) => do
      let customerId ← intOrRaise (c :: cs)
      return some { sessionId := s :: ss, customerId := some customerId }
    | _ => .ok (some { sessionId := s :: ss })
  | _ => .ok none

/-- `_identity_from_env` -/
def identityFromEnv [Unicode] (environ : Environ) : Except Exc (Option RequestIdentity) :=
  readIdentity (environ.dict.lookup sessionIdEnvVar) (environ.dict.lookup customerIdEnvVar)

/-- The identity that a tool server started for `identity` reads. -/
def identityInChild [Unicode] (getDefaultEnvironment : Environ → EnvDict) (parent : Environ)
    (identity : RequestIdentity) : Except Exc (Option RequestIdentity) := do
  let env ← openMcpSessionEnv parent identity
  let child ← spawnEnviron (stdioClientEnv getDefaultEnvironment parent env)
  identityFromEnv child

/-- `str` writes the customer id, if there is one. -/
def WritableId (identity : RequestIdentity) : Prop :=
  ∀ c, identity.customerId = some c → (natRepr c.natAbs).length ≤ intMaxStrDigits

section Lemmas

variable {getDefaultEnvironment : Environ → EnvDict} {parent : Environ}
  {identity : RequestIdentity} {env : EnvDict}

/-- What the variables of the child are before they are encoded. -/
theorem openMcpSessionEnv_eq_ok (h : openMcpSessionEnv parent identity = .ok env) :
    WritableId identity ∧ env.lookup sessionIdEnvVar = some identity.sessionId ∧
      env.lookup customerIdEnvVar =
        (identity.customerId.map intRepr).or (parent.dict.lookup customerIdEnvVar) ∧
      (∀ kv ∈ parent.dict, (env.lookup kv.1).isSome) ∧
      ∀ kv ∈ env, kv ∈ parent.dict ∨ kv = (sessionIdEnvVar, identity.sessionId) ∨
        ∃ c, kv = (customerIdEnvVar, intRepr c) := by
  have hset : ∀ (env : EnvDict) (n v : Str), (∀ kv ∈ parent.dict, (env.lookup kv.1).isSome) →
      ∀ kv ∈ parent.dict, ((env.set n v).lookup kv.1).isSome := by
    intro env n v hall kv hkv
    rw [EnvDict.lookup_set]
    split
    · rfl
    · exact hall kv hkv
  have hparent := hset parent.dict sessionIdEnvVar identity.sessionId
    fun kv hkv => Environ.lookup_isSome hkv
  unfold openMcpSessionEnv at h
  cases hc : identity.customerId with
  | none =>
    rw [hc] at h
    cases h
    refine ⟨fun c hc' => ?_, ?_, ?_, hparent, fun kv hkv => ?_⟩
    · cases hc.symm.trans hc'
    · rw [EnvDict.lookup_set, if_pos rfl]
    · rw [EnvDict.lookup_set, if_neg customerIdEnvVar_ne]
      rfl
    · rcases EnvDict.mem_set hkv with h | h
      · exact .inl h
      · exact .inr (.inl h)
  | some c =>
    rw [hc] at h
    obtain ⟨s, hs, henv⟩ := bind_eq_ok.mp h
    cases henv
    obtain ⟨hlen, rfl⟩ := strOfInt_eq_ok.mp hs
    refine ⟨fun c' hc' => ?_, ?_, ?_, hset _ _ _ hparent, fun kv hkv => ?_⟩
    · cases hc.symm.trans hc'
      exact hlen
    · rw [EnvDict.lookup_set, if_neg customerIdEnvVar_ne.symm, EnvDict.lookup_set, if_pos rfl]
    · rw [EnvDict.lookup_set, if_pos rfl]
      rfl
    · rcases EnvDict.mem_set hkv with h | h
      · rcases EnvDict.mem_set h with h | h
        · exact .inl h
        · exact .inr (.inl h)
      · exact .inr (.inr ⟨c, h⟩)

theorem openMcpSessionEnv_ok (h : WritableId identity) :
    ∃ env, openMcpSessionEnv parent identity = .ok env := by
  unfold openMcpSessionEnv
  cases hc : identity.customerId with
  | none => exact ⟨_, rfl⟩
  | some c => exact ⟨_, bind_eq_ok.mpr ⟨_, strOfInt_eq_ok.mpr ⟨h c hc, rfl⟩, rfl⟩⟩

theorem intRepr_ne_nil (i : Int) : intRepr i ≠ [] := by
  unfold intRepr
  split
  · simp
  · exact natRepr_ne_nil _

theorem passes_intRepr (i : Int) : Passes (intRepr i) := by
  refine passes_of_ascii (List.all_eq_true.mpr fun c hc => ?_)
  rcases intRepr_chars i c hc with rfl | hd
  · decide
  · have := isDigit_iff.mp hd
    simp
    omega

/-- Under what the client lays over its default environment there is nothing new. -/
theorem stdioClientEnv_eq (hd : Inherited getDefaultEnvironment)
    (hall : ∀ kv ∈ parent.dict, (env.lookup kv.1).isSome) :
    stdioClientEnv getDefaultEnvironment parent env = env := by
  have hnone : ((getDefaultEnvironment parent).filter fun kv => (env.lookup kv.1).isNone) = [] := by
    refine List.filter_eq_nil_iff.mpr fun kv hkv hnew => ?_
    have := hall _ (Environ.mem_of_lookup (hd parent kv hkv))
    rw [Option.isNone_iff_eq_none] at hnew
    rw [hnew] at this
    cases this
  rw [stdioClientEnv, hnone, List.append_nil]

theorem fsdecode_ne_nil {s : Str} {v : EnvValue} (hs : s ≠ []) (hv : envValue s = .ok v) :
    fsdecode v.bytes ≠ [] := by
  intro hnil
  obtain ⟨hall, hbytes⟩ := envValue_eq_ok.mp hv
  rw [fsdecode_eq_nil.mp hnil] at hbytes
  exact fsencode_ne_nil hall hs hbytes.symm

variable [Unicode] {served : Option RequestIdentity}

/-- What a child reads, when it starts. -/
theorem identityFromEnv_spawned {env : EnvDict} {child : Environ}
    (henv : openMcpSessionEnv parent identity = .ok env) (hspawn : spawnEnviron env = .ok child) :
    ∃ v, envValue identity.sessionId = .ok v ∧
      identityFromEnv child = readIdentity (some (fsdecode v.bytes))
        ((identity.customerId.map intRepr).or (parent.dict.lookup customerIdEnvVar)) := by
  obtain ⟨-, hsession, hcustomer, -, -⟩ := openMcpSessionEnv_eq_ok henv
  obtain ⟨v, hv, hread⟩ := spawnEnviron_lookup hspawn hsession
  refine ⟨v, hv, ?_⟩
  rw [identityFromEnv, hread]
  congr 1
  cases hlook : env.lookup customerIdEnvVar with
  | none => rw [spawnEnviron_lookup_none hspawn hlook, ← hcustomer, hlook]
  | some s =>
    obtain ⟨w, hw, hback⟩ := spawnEnviron_lookup hspawn hlook
    rw [hback, ← hcustomer, hlook, Option.some.injEq]
    cases hc : identity.customerId with
    | some c =>
      rw [hc, Option.map_some, Option.some_or, hlook] at hcustomer
      obtain ⟨w', hw', hpass⟩ := envValue_passes.mpr (passes_intRepr c)
      rw [Option.some.inj hcustomer] at hw ⊢
      rw [hw] at hw'
      exact Except.ok.inj hw' ▸ hpass
    | none =>
      rw [hc, Option.map_none, Option.none_or, hlook] at hcustomer
      obtain ⟨nv, -, hnv⟩ := List.mem_map.mp (Environ.mem_of_lookup hcustomer.symm)
      have hval : fsdecode nv.2.bytes = s := congrArg Prod.snd hnv
      rw [← hval, envValue_fsdecode] at hw
      rw [← Except.ok.inj hw, hval]

/-- What a child reads, when it starts and does not raise: the session id as the environment brings it,
and the number of its own customer or of the one that its parent's environment names. -/
theorem identityInChild_eq_ok (hd : Inherited getDefaultEnvironment) :
    identityInChild getDefaultEnvironment parent identity = .ok served ↔
      WritableId identity ∧ ∃ v, envValue identity.sessionId = .ok v ∧
        readIdentity (some (fsdecode v.bytes))
          ((identity.customerId.map intRepr).or (parent.dict.lookup customerIdEnvVar)) = .ok served := by
  constructor
  · intro h
    obtain ⟨env, henv, h⟩ := bind_eq_ok.mp h
    obtain ⟨child, hspawn, h⟩ := bind_eq_ok.mp h
    obtain ⟨hwrite, -, -, hall, -⟩ := openMcpSessionEnv_eq_ok henv
    rw [stdioClientEnv_eq hd hall] at hspawn
    obtain ⟨v, hv, hread⟩ := identityFromEnv_spawned henv hspawn
    exact ⟨hwrite, v, hv, hread ▸ h⟩
  · rintro ⟨hwrite, v, hv, h⟩
    obtain ⟨env, henv⟩ : ∃ env, openMcpSessionEnv parent identity = .ok env :=
      openMcpSessionEnv_ok hwrite
    obtain ⟨-, -, -, hall, hvalues⟩ := openMcpSessionEnv_eq_ok henv
    have hpass : ∀ kv ∈ env, ∃ w, envValue kv.2 = .ok w := by
      intro kv hkv
      rcases hvalues kv hkv with hp | rfl | ⟨c, rfl⟩
      · exact Environ.mem_dict hp
      · exact ⟨v, hv⟩
      · obtain ⟨w, hw, -⟩ := envValue_passes.mpr (passes_intRepr c)
        exact ⟨w, hw⟩
    obtain ⟨child, hspawn⟩ := spawnEnviron_of_values hpass
    obtain ⟨v', hv', hread⟩ := identityFromEnv_spawned henv hspawn
    rw [hv] at hv'
    cases hv'
    refine bind_eq_ok.mpr ⟨env, henv, bind_eq_ok.mpr ⟨child, ?_, hread.trans h⟩⟩
    rw [stdioClientEnv_eq hd hall]
    exact hspawn

theorem readIdentity_authenticated {s : Str} (hs : s ≠ []) {c : Int}
    (hc : (natRepr c.natAbs).length ≤ intMaxStrDigits) :
    readIdentity (some s) (some (intRepr c)) = .ok (some { sessionId := s, customerId := some c }) := by
  obtain ⟨d, ds, rfl⟩ := List.exists_cons_of_ne_nil hs
  have hint := intOrRaise_strOfInt (strOfInt_eq_ok.mpr ⟨hc, rfl⟩)
  obtain ⟨e, es, he⟩ := List.exists_cons_of_ne_nil (intRepr_ne_nil c)
  rw [he] at hint ⊢
  rw [readIdentity, hint]
  rfl

theorem readIdentity_sessionId {s : Str} {c : Option Str} (hs : s ≠ [])
    (h : readIdentity (some s) c = .ok (some identity)) : s = identity.sessionId := by
  obtain ⟨d, ds, rfl⟩ := List.exists_cons_of_ne_nil hs
  rcases c with _ | _ | ⟨e, es⟩
  · cases h
    rfl
  · cases h
    rfl
  · obtain ⟨i, -, h⟩ := bind_eq_ok.mp h
    cases h
    rfl

/-- A server that a customer's session starts reads that customer, and the session id as the environment
brings it. -/
theorem identityInChild_served (hd : Inherited getDefaultEnvironment) (hs : identity.sessionId ≠ [])
    {c : Int} (hc : identity.customerId = some c)
    (h : identityInChild getDefaultEnvironment parent identity = .ok served) :
    ∃ s, served = some { sessionId := s, customerId := some c } ∧
      (Passes identity.sessionId → s = identity.sessionId) := by
  obtain ⟨hwrite, v, hv, h⟩ := (identityInChild_eq_ok hd).mp h
  rw [hc, Option.map_some, Option.some_or,
    readIdentity_authenticated (fsdecode_ne_nil hs hv) (hwrite c hc)] at h
  refine ⟨_, (Except.ok.inj h).symm, fun hpass => ?_⟩
  obtain ⟨v', hv', hread⟩ := envValue_passes.mpr hpass
  rw [hv] at hv'
  exact Except.ok.inj hv' ▸ hread

/-- An authenticated identity whose texts pass the environment arrives. -/
theorem identityInChild_authenticated (hd : Inherited getDefaultEnvironment)
    (hs : identity.sessionId ≠ []) (hpass : Passes identity.sessionId) (hwrite : WritableId identity)
    {c : Int} (hc : identity.customerId = some c) :
    identityInChild getDefaultEnvironment parent identity = .ok (some identity) := by
  obtain ⟨v, hv, hback⟩ := envValue_passes.mpr hpass
  refine (identityInChild_eq_ok hd).mpr ⟨hwrite, v, hv, ?_⟩
  rw [hback, hc, Option.map_some, Option.some_or, readIdentity_authenticated hs (hwrite c hc), ← hc]

end Lemmas

/-- The tool server reads the identity that `open_mcp_session` was given if and only if the session id
passes the environment, `str` writes the customer id, and a customer is authenticated or the parent's
environment names no customer itself. -/
theorem identity_survives_iff [Unicode] (getDefaultEnvironment : Environ → EnvDict)
    (hd : Inherited getDefaultEnvironment) (parent : Environ) (identity : RequestIdentity)
    (hs : identity.sessionId ≠ []) :
    identityInChild getDefaultEnvironment parent identity = .ok (some identity) ↔
      Passes identity.sessionId ∧ WritableId identity ∧
        (identity.customerId ≠ none ∨ parent.dict.lookup customerIdEnvVar = none ∨
          parent.dict.lookup customerIdEnvVar = some []) := by
  rw [identityInChild_eq_ok hd]
  constructor
  · rintro ⟨hwrite, v, hv, h⟩
    have hback := readIdentity_sessionId (fsdecode_ne_nil hs hv) h
    refine ⟨envValue_passes.mp ⟨v, hv, hback⟩, hwrite, ?_⟩
    by_contra hno
    push Not at hno
    obtain ⟨hc, hnone, hempty⟩ := hno
    rw [hc, Option.map_none, Option.none_or, hback] at h
    obtain ⟨d, ds, hd⟩ := List.exists_cons_of_ne_nil hs
    -- The customer that the parent names makes the identity that is read another one.
    cases hp : parent.dict.lookup customerIdEnvVar with
    | none => exact hnone hp
    | some w =>
      cases w with
      | nil => exact hempty hp
      | cons e es =>
        rw [hp, hd] at h
        obtain ⟨i, -, h⟩ := bind_eq_ok.mp h
        cases (Option.some.inj (Except.ok.inj h)) ▸ hc
  · rintro ⟨hpass, hwrite, hcustomer⟩
    cases hc : identity.customerId with
    | some c =>
      have harrives : identityInChild getDefaultEnvironment parent identity = .ok (some identity) :=
        identityInChild_authenticated hd hs hpass hwrite hc
      rw [identityInChild_eq_ok hd, hc] at harrives
      exact harrives
    | none =>
      obtain ⟨v, hv, hback⟩ := envValue_passes.mpr hpass
      have hid : identity = { sessionId := identity.sessionId } := by
        cases identity
        cases hc
        rfl
      obtain ⟨d, ds, hd⟩ := List.exists_cons_of_ne_nil hs
      refine ⟨hwrite, v, hv, ?_⟩
      rw [hback, hid]
      rcases hcustomer with h | h | h
      · exact absurd hc h
      · rw [Option.map_none, Option.none_or, h, hd]
        rfl
      · rw [Option.map_none, Option.none_or, h, hd]
        rfl

/-- The default environment of the `mcp` client on POSIX: a few variables of the parent, exported
shell functions left out. -/
def posixDefaultEnvironment (parent : Environ) : EnvDict :=
  (["HOME", "LOGNAME", "PATH", "SHELL", "TERM", "USER"].map str).filterMap fun name =>
    match parent.dict.lookup name with
    | some v => if str "()" <+: v then none else some (name, v)
    | none => none

theorem posixDefaultEnvironment_inherited : Inherited posixDefaultEnvironment := by
  intro parent kv h
  obtain ⟨name, -, h⟩ := List.mem_filterMap.mp h
  split at h
  · next v hv =>
    split at h
    · cases h
    · cases h
      exact hv
  · cases h

/-- A parent process that was itself given a customer. -/
def parentOfCustomer7 : Environ := [(customerIdEnvVar, ⟨[0x37], by decide⟩)]

theorem identity_survives_anonymous_clean :
    @identityInChild asciiUnicode posixDefaultEnvironment [] { sessionId := "s-1" } =
      .ok (some { sessionId := "s-1" }) :=
  (@identity_survives_iff asciiUnicode posixDefaultEnvironment posixDefaultEnvironment_inherited
    [] { sessionId := "s-1" } (by decide)).mpr
      ⟨passes_of_ascii (by decide), fun _ h => (by cases h), .inr (.inl rfl)⟩

/-- An anonymous session under that parent is given the parent's customer. -/
theorem anonymous_session_reads_customer7 :
    @identityInChild asciiUnicode posixDefaultEnvironment parentOfCustomer7 { sessionId := "s-1" } =
        .ok (some { sessionId := "s-1", customerId := some 7 }) ∧
      @identityInChild asciiUnicode posixDefaultEnvironment parentOfCustomer7
        { sessionId := "s-1" } ≠ .ok (some { sessionId := "s-1" }) := by
  decide +kernel

/-- Escaped bytes that spell a sequence are read as its character. -/
example : @identityInChild asciiUnicode posixDefaultEnvironment []
    { sessionId := [codePoint 0xdcc3, codePoint 0xdca9] } =
      .ok (some { sessionId := [chr 'é'] }) := by
  decide +kernel

end DealershipAgent
