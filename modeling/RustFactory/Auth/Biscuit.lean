import RustFactory.Auth.Decision

/-!
# Auth: the Biscuit adapter

`mint` writes an identity, the permitted capabilities and a grant as the facts of a token, and
`BiscuitAuthorizationResolver.authorize` reads a decision back from them.  The library that signs
tokens and runs Datalog is a parameter, `BiscuitAuth`; `BiscuitAuth.Faithful` says what the adapter
relies on.
-/

namespace RustFactory.Auth

open Lib

def maxTokenPresentationBytes : ℕ := 65536

/-- Untrusted bearer credentials. -/
structure TokenPresentation where
  asStr : String
  valid : asStr ≠ "" ∧ byteLen asStr ≤ maxTokenPresentationBytes

def TokenPresentation.new (raw : String) : Except AuthError TokenPresentation :=
  if h : raw ≠ "" ∧ byteLen raw ≤ maxTokenPresentationBytes then .ok ⟨raw, h⟩
  else .error .invalidToken

/-- The decision that denies a request. -/
def denyDecision : AuthorizationDecisionV1 := .deny .denied

/-! ## Datalog -/

/-- The terms of the token language that the adapter uses. -/
inductive Term where
  | str (value : String)
  | integer (value : ℤ)
  | date (seconds : ℕ)
  | bytes (value : Bytes)
  | bool (value : Bool)
  deriving DecidableEq

/-- A fact of the token language. -/
structure Fact where
  name : String
  terms : List Term
  deriving DecidableEq

def fact (name : String) (terms : List Term) : Fact := ⟨name, terms⟩

def string (value : String) : Term := .str value

/-- A block, with its rules and checks as text. -/
structure Block where
  facts : List Fact
  rules : List String
  checks : List String

/-- Times are in milliseconds. -/
structure AuthorizerLimits where
  maxFacts : ℕ
  maxIterations : ℕ
  maxTime : ℕ

def maxTokenBytes : ℕ := 8192
def maxBlocks : ℕ := 16
def maxDatalogFacts : ℕ := 256
def maxDatalogRules : ℕ := 64
def maxDatalogChecks : ℕ := 64

/-- The most facts that an authorization may derive. -/
def runtimeMaxFacts : ℕ := 512

/-- The most rounds of an authorization. -/
def runtimeMaxIterations : ℕ := 100

/-- The longest time of an authorization. -/
def runtimeMaxTime : ℕ := 1000

/-- A token within the bound of the adapter. -/
def adapterTokenSizeIsAllowed (bytes : ℕ) : Bool := bytes ≤ maxTokenBytes

/-- The limits of every authorization. -/
def datalogLimits : AuthorizerLimits := ⟨runtimeMaxFacts, runtimeMaxIterations, runtimeMaxTime⟩

/-- What the adapter calls of `biscuit-auth`.  An authorizer is built at some time with the text of
one policy; running it and querying it change it. -/
structure BiscuitAuth where
  KeyPair : Type
  PublicKey : Type
  Biscuit : Type
  Authorizer : Type
  Error : Type
  publicKey : KeyPair → PublicKey
  validate : Fact → Except Error Unit
  build : KeyPair → List Fact → Except Error Biscuit
  toBase64 : Biscuit → Except Error String
  fromBase64 : String → PublicKey → Except Error Biscuit
  blockCount : Biscuit → ℕ
  /-- The authority block, decoded from the encoded container. -/
  authority : Biscuit → Except Error Block
  authorizer : AuthorizerLimits → ℕ → String → Biscuit → Except Error Authorizer
  dump : Authorizer → Block
  authorize : Authorizer → Except Error Unit × Authorizer
  query : Authorizer → String → Except Error (List String) × Authorizer

variable {lib : BiscuitAuth}

/-! ## Minting -/

/-- The facts of a token that is being made. -/
structure BiscuitBuilder where
  facts : List Fact

/-- The token with one more fact, if the library takes it. -/
def BiscuitBuilder.fact (lib : BiscuitAuth) (builder : BiscuitBuilder) (fact : Fact) :
    Except lib.Error BiscuitBuilder := do
  lib.validate fact
  .ok ⟨builder.facts ++ [fact]⟩

/-- The flags of a grant under their names in a token. -/
def GrantV1.flags (grant : GrantV1) : List (Bool × String) :=
  [(grant.memoryEnabled, "memory"), (grant.knowledgeEnabled, "knowledge"),
    (grant.sandboxExecutionAllowed, "sandbox"), (grant.communicationAllowed, "communication")]

/-- The token that gives a principal its capabilities and its grant. -/
def mint (lib : BiscuitAuth) (root : lib.KeyPair) (tenantId : TenantId) (principalId : PrincipalId)
    (capabilities : List CapabilityV1) (grant : GrantV1) : Except lib.Error String := do
  let builder ← BiscuitBuilder.fact lib ⟨[]⟩ (fact "tenant" [string tenantId.asStr])
  let builder ← builder.fact lib (fact "principal" [string principalId.asStr])
  let builder ← capabilities.foldlM (fun builder capability =>
    builder.fact lib (fact "capability" [string capability.asStr])) builder
  let builder ← grant.allowedToolIds.foldlM (fun builder toolId =>
    builder.fact lib (fact "allowed_tool" [string toolId])) builder
  let builder ← grant.flags.foldlM (fun builder flag =>
    if flag.1 then builder.fact lib (fact "grant" [string flag.2]) else .ok builder) builder
  let biscuit ← lib.build root builder.facts
  lib.toBase64 biscuit

/-! ## Authorizing -/

/-- The value of the only fact of that name. -/
def exactDirectStringFact (facts : List Fact) (name : String) : Option String :=
  let values := (facts.filter fun fact => fact.name == name).map fun fact =>
    match fact.terms with
    | [.str value] => some value
    | _ => none
  match values with
  | [] => none
  | first :: rest => first.bind fun value => if rest.isEmpty then some value else none

/-- Who the authority block of a token is for. -/
def directAuthorityIdentity (lib : BiscuitAuth) (biscuit : lib.Biscuit) :
    Option (TenantId × PrincipalId) := do
  let authority ← (lib.authority biscuit).toOption
  let tenantId ← (LogicalId.new .tenant (← exactDirectStringFact authority.facts "tenant")).toOption
  let principalId ←
    (LogicalId.new .principal (← exactDirectStringFact authority.facts "principal")).toOption
  some (tenantId, principalId)

/-- The policy that a token must satisfy for a capability. -/
def allowPolicy (wire : String) : String :=
  "allow if capability(\"" ++ wire ++ "\") trusting authority;"

def toolRule : String := "tool($x) <- allowed_tool($x) trusting authority"

def grantRule : String := "g($x) <- grant($x) trusting authority"

def stringColumn (lib : BiscuitAuth) (authorizer : lib.Authorizer) (rule : String) :
    Option (List String) × lib.Authorizer :=
  let (rows, authorizer) := lib.query authorizer rule
  (rows.toOption, authorizer)

/-- The strings that a query yields, in order and without repetitions. -/
def stringSet (lib : BiscuitAuth) (authorizer : lib.Authorizer) (rule : String) :
    Option (BTreeMap.BTreeSet String) × lib.Authorizer :=
  let (rows, authorizer) := lib.query authorizer rule
  (rows.toOption.map fun rows => .ofList rows, authorizer)

/-- The adapter: the key that tokens must be signed with. -/
structure BiscuitAuthorizationResolver (lib : BiscuitAuth) where
  rootPublicKey : lib.PublicKey

namespace BiscuitAuthorizationResolver

/-- The decision of a token for a request, or none. -/
def authorizeInner (resolver : BiscuitAuthorizationResolver lib) (sha256 : Sha256)
    (request : AuthorizationRequestV1) (token : TokenPresentation) (limits : AuthorizerLimits)
    (now : ℕ) : Option AuthorizationDecisionV1 :=
  if !adapterTokenSizeIsAllowed (byteLen token.asStr) then none
  else do
    let biscuit ← (lib.fromBase64 token.asStr resolver.rootPublicKey).toOption
    if maxBlocks < lib.blockCount biscuit then none
    else do
      let (tenantId, principalId) ← directAuthorityIdentity lib biscuit
      let authorizer ←
        (lib.authorizer limits now (allowPolicy request.capability.asStr) biscuit).toOption
      let loaded := lib.dump authorizer
      if maxDatalogFacts < loaded.facts.length ∨ maxDatalogRules < loaded.rules.length ∨
          maxDatalogChecks < loaded.checks.length then none
      else do
        let authorized := lib.authorize authorizer
        let _ ← authorized.1.toOption
        let tools := stringColumn lib authorized.2 toolRule
        let toolIds ← tools.1
        let grants ← (stringSet lib tools.2 grantRule).1
        let grant ← (GrantV1.new toolIds (grants.contains "memory") (grants.contains "knowledge")
          (grants.contains "sandbox") (grants.contains "communication")).toOption
        let context : AuthContextV1 := ⟨tenantId, principalId, request.requestId,
          request.correlationId⟩
        let decision ← (allowDecision sha256 request context grant).toOption
        if verifyDecision sha256 request decision then some decision else none

/-- The decision of a token for a request; a failure is a denial. -/
def authorize (resolver : BiscuitAuthorizationResolver lib) (sha256 : Sha256) (now : ℕ)
    (request : AuthorizationRequestV1) (token : TokenPresentation) : AuthorizationDecisionV1 :=
  (resolver.authorizeInner sha256 request token datalogLimits now).getD denyDecision

end BiscuitAuthorizationResolver

end RustFactory.Auth
