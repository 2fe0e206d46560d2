import ArionGateway.JwtAuthn
import ArionGateway.TextEncodings

/-!
# Permissions of tools

A tool may have a policy on the token of the request: any of its permissions may
match a field of the header or a claim, and the policy allows or denies on a
match. Without a token nothing matches.
-/
namespace ArionGateway.ToolPermissions
open ByteStrings TextEncodings JwtAuthn

inductive Algorithm where
  | hs256 | hs384 | hs512 | es256 | es384 | rs256 | rs384 | rs512 | ps256 | ps384 | ps512 | edDSA
  deriving DecidableEq

def Algorithm.display : Algorithm → Str
  | .hs256 => str "HS256"
  | .hs384 => str "HS384"
  | .hs512 => str "HS512"
  | .es256 => str "ES256"
  | .es384 => str "ES384"
  | .rs256 => str "RS256"
  | .rs384 => str "RS384"
  | .rs512 => str "RS512"
  | .ps256 => str "PS256"
  | .ps384 => str "PS384"
  | .ps512 => str "PS512"
  | .edDSA => str "EdDSA"

structure TokenHeader where
  alg : Algorithm
  typ : Option Str := none
  cty : Option Str := none
  kid : Option Str := none
  jku : Option Str := none
  x5u : Option Str := none

/-- A value of a custom claim; numbers that are no integers have their text. -/
inductive ClaimValue where
  | string (value : Str)
  | integer (value : ℤ)
  | decimal (text : Str)
  | bool (value : Bool)
  | null
  | array
  | object

/-- What the authentication of a request leaves for the filters after it. -/
structure Extensions where
  header : Option TokenHeader := none
  claims : Option (JwtClaims ClaimValue) := none

inductive JwtHeaderField where
  | algorithm | type | contentType | jsonKeyURL | jsonWebKey | keyID | x509URL
  | x509CertificateChain | x509CertificateSHA1Thumbprint | x509CertificateSHA256Thumbprint
  | critical | encryption | zip | url | nonce
  deriving DecidableEq

inductive JwtClaimField where
  | issuer | subject | audience | expiration | issuedAt | notBefore | jwtID
  | extra (name : Str)
  deriving DecidableEq

structure JwtHeaderMatcher where
  field : JwtHeaderField
  value : Str
  deriving DecidableEq

structure JwtPayloadMatcher where
  field : JwtClaimField
  value : Str
  deriving DecidableEq

def JwtHeaderMatcher.matches (self : JwtHeaderMatcher) (ext : Extensions) : Bool :=
  match ext.header with
  | none => false
  | some header =>
    match self.field with
    | .algorithm => header.alg.display == self.value
    | .type => header.typ == some self.value
    | .contentType => header.cty == some self.value
    | .keyID => header.kid == some self.value
    | .jsonKeyURL => header.jku == some self.value
    | .x509URL => header.x5u == some self.value
    -- the other fields are not in the header of the library
    | _ => false

def formatInteger (n : ℤ) : Str :=
  if n < 0 then 45::formatDecimal n.natAbs else formatDecimal n.natAbs

def ClaimValue.text : ClaimValue → Option Str
  | .string value => some value
  | .integer value => some (formatInteger value)
  | .decimal text => some text
  | .bool value => some (if value then str "true" else str "false")
  | .null => none
  | .array => none
  | .object => none

def JwtPayloadMatcher.matches (self : JwtPayloadMatcher) (ext : Extensions) : Bool :=
  match ext.claims with
  | none => false
  | some claims =>
    match self.field with
    | .issuer => claims.iss == some self.value
    | .subject => claims.sub == some self.value
    | .audience => claims.aud.any fun aud => aud.any (· == self.value)
    | .jwtID => claims.jti == some self.value
    | .expiration => claims.exp.map formatDecimal == some self.value
    | .issuedAt => claims.iat.map formatDecimal == some self.value
    | .notBefore => claims.nbf.map formatDecimal == some self.value
    | .extra name => (claims.extra.lookup name).bind ClaimValue.text == some self.value

inductive Permission where
  | jwtHeader (matcher : JwtHeaderMatcher)
  | jwtClaim (matcher : JwtPayloadMatcher)
  deriving DecidableEq

def Permission.isApplicable (ext : Extensions) : Permission → Bool
  | .jwtHeader matcher => matcher.matches ext
  | .jwtClaim matcher => matcher.matches ext

inductive Action where
  | allow
  | deny
  deriving DecidableEq

structure ToolRbac where
  action : Action := .allow
  permissions : List Permission := []
  deriving DecidableEq

def ToolRbac.isPermitted (self : ToolRbac) (ext : Extensions) : Bool :=
  let anyPermissionMatched := self.permissions.any (Permission.isApplicable ext)
  match self.action with
  | .allow => anyPermissionMatched
  | .deny => !anyPermissionMatched

/-- A configured permission, with the name of a field as it is written there. -/
inductive McpRbacPermission where
  | jwtHeader (field value : Str)
  | jwtClaim (field value : Str)
  deriving DecidableEq

structure McpToolRbac where
  action : Action
  permissions : List McpRbacPermission
  deriving DecidableEq

def McpRbacPermission.tryFrom : McpRbacPermission → Except String McpRbacPermission
  | .jwtHeader field value =>
    if field = [] ∨ value = [] then .error "JWT header field and value cannot be empty"
    else .ok (.jwtHeader field value)
  | .jwtClaim field value =>
    if field = [] ∨ value = [] then .error "JWT claim field and value cannot be empty"
    else .ok (.jwtClaim field value)

def McpToolRbac.tryFrom (action : Action) (permissions : List McpRbacPermission) :
    Except String McpToolRbac := do
  if permissions = [] then throw "Tool RBAC must have at least one permission"
  .ok { action, permissions := ← permissions.mapM McpRbacPermission.tryFrom }

/-- The names of the fields of a header, and how else a configuration may call them. -/
def headerNames : List (JwtHeaderField × Str × Str) :=
  [(.algorithm, str "alg", str "algorithm"), (.type, str "typ", str "type"),
    (.contentType, str "cty", str "content_type"), (.jsonKeyURL, str "jku", str "json_key_url"),
    (.jsonWebKey, str "jwk", str "json_web_key"), (.x509URL, str "x5u", str "x509_url"),
    (.x509CertificateChain, str "x5c", str "x509_certificate_chain"),
    (.x509CertificateSHA1Thumbprint, str "x5t", str "x509_certificate_sha1_thumbprint"),
    (.x509CertificateSHA256Thumbprint, str "x5t#S256", str "x509_certificate_sha256_thumbprint"),
    (.critical, str "crit", str "critical"), (.encryption, str "enc", str "encryption"),
    (.zip, str "zip", str "zip"), (.url, str "url", str "url"),
    (.nonce, str "nonce", str "nonce"), (.keyID, str "kid", str "key_id")]

def claimNames : List (JwtClaimField × Str × Str) :=
  [(.issuer, str "iss", str "issuer"), (.subject, str "sub", str "subject"),
    (.audience, str "aud", str "audience"), (.expiration, str "exp", str "expiration"),
    (.issuedAt, str "iat", str "issued_at"), (.notBefore, str "nbf", str "not_before"),
    (.jwtID, str "jti", str "jwt_id")]

def called {F : Type} (table : List (F × Str × Str)) (field : Str) : Option (F × Str × Str) :=
  table.find? fun entry => entry.2.1 = field || entry.2.2 = field

def claimField (field : Str) : JwtClaimField :=
  (called claimNames field).elim (.extra field) Prod.fst

/-- A permission at run time. Any other header field is taken for the key id. -/
def McpRbacPermission.runtime : McpRbacPermission → Permission
  | .jwtHeader field value => .jwtHeader ⟨(called headerNames field).elim .keyID Prod.fst, value⟩
  | .jwtClaim field value => .jwtClaim ⟨claimField field, value⟩

def convertConfigRbacToRuntime (configRbac : McpToolRbac) : ToolRbac :=
  { action := configRbac.action, permissions := configRbac.permissions.map McpRbacPermission.runtime }

/-- A token: the algorithm and the other fields of its header that are texts, and its claims. -/
structure Token where
  alg : Algorithm
  field : Str → Option Str
  claims : JwtClaims ClaimValue

def Token.extensions (self : Token) : Extensions where
  header := some {
    alg := self.alg, typ := self.field (str "typ"), cty := self.field (str "cty")
    kid := self.field (str "kid"), jku := self.field (str "jku"), x5u := self.field (str "x5u") }
  claims := some self.claims

def Token.header (self : Token) (name : Str) : Option Str :=
  if name = str "alg" then some self.alg.display else self.field name

/-- The texts of a claim: of each audience, and of a number or a truth value as JSON writes it. -/
def Token.claim (self : Token) : JwtClaimField → List Str
  | .issuer => self.claims.iss.toList
  | .subject => self.claims.sub.toList
  | .audience => self.claims.aud.getD []
  | .expiration => (self.claims.exp.map formatDecimal).toList
  | .issuedAt => (self.claims.iat.map formatDecimal).toList
  | .notBefore => (self.claims.nbf.map formatDecimal).toList
  | .jwtID => self.claims.jti.toList
  | .extra name => ((self.claims.extra.lookup name).bind ClaimValue.text).toList

/-- The permission names a field of the token that has the configured value. -/
def McpRbacPermission.Names (token : Token) : McpRbacPermission → Prop
  | .jwtHeader field value =>
    token.header ((called headerNames field).elim field (·.2.1)) = some value
  | .jwtClaim field value => value ∈ token.claim (claimField field)

/-- The matcher reads the field: a claim, or one of six fields of the header. -/
def McpRbacPermission.Read : McpRbacPermission → Prop
  | .jwtHeader field _ => ∃ entry, called headerNames field = some entry ∧
      entry.1 ∈ [.algorithm, .type, .contentType, .jsonKeyURL, .x509URL, .keyID]
  | .jwtClaim _ _ => True

variable {token : Token} {p : McpRbacPermission}

lemma applicable_iff_names (h : p.Read) :
    p.runtime.isApplicable token.extensions = true ↔ p.Names token := by
  cases p with
  | jwtHeader field value =>
    obtain ⟨entry,hc,hr⟩ := h
    simp only [McpRbacPermission.runtime,McpRbacPermission.Names,hc]
    have he := List.mem_of_find?_eq_some hc
    simp only [headerNames,List.mem_cons,List.not_mem_nil,or_false] at he
    rcases he with rfl | rfl | rfl | rfl | rfl | rfl | rfl | rfl | rfl | rfl | rfl | rfl | rfl |
        rfl | rfl <;>
      first
      | exact absurd hr (by decide)
      | exact beq_iff_eq.trans (by simp +decide [Token.header])
  | jwtClaim field value =>
    change JwtPayloadMatcher.matches ⟨claimField field,value⟩ token.extensions = true ↔
      value ∈ token.claim (claimField field)
    cases claimField field with
    | audience => cases h : token.claims.aud <;> simp [JwtPayloadMatcher.matches,Token.claim,
        Token.extensions,h]
    | _ => exact beq_iff_eq.trans Option.mem_toList.symm

lemma isPermitted_iff (config : McpToolRbac) (ext : Extensions) :
    (convertConfigRbacToRuntime config).isPermitted ext = true ↔
      (config.action = .allow ↔ ∃ p ∈ config.permissions, p.runtime.isApplicable ext = true) := by
  obtain ⟨action,ps⟩ := config
  cases action <;> simp [convertConfigRbacToRuntime,ToolRbac.isPermitted]

def thumbprintToken : Token where
  alg := .hs256
  field name := if name = str "x5t" then some (str "0a") else none
  claims := {}

end ArionGateway.ToolPermissions
