import ArionGateway.HttpHeaders

/-!
# JWT authentication

The filter selects a provider by its rules, takes a token out of a header, a
query parameter or a cookie, decodes it with a key of the provider, and passes
claims on in headers and extensions. Decoded tokens are kept for a second in a
cache of the worker thread, under the part of the token after its last dot.

Signatures, formats and URIs are those of other crates and stand as parameters.
The answer to a key set that is fetched while a request is handled is given with
the request.
-/
namespace ArionGateway.JwtAuthn
open ByteStrings HttpHeaders

structure Header where
  alg : Str
  kid : Option Str := none
  deriving DecidableEq

structure Validation where
  algorithm : Str
  leeway : ℕ := 60
  validateExp : Bool := true
  validateAud : Bool := true
  requiredSpecClaims : List Str := [str "exp"]
  issuer : Option (List Str) := none
  audience : Option (List Str) := none
  deriving DecidableEq

structure JwtClaims (Json : Type) where
  iss : Option Str := none
  sub : Option Str := none
  aud : Option (List Str) := none
  exp : Option ℕ := none
  iat : Option ℕ := none
  nbf : Option ℕ := none
  jti : Option Str := none
  extra : List (Str × Json) := []

/-- What the filter takes from other crates: the tokens of `jsonwebtoken` at a
time in milliseconds, the text of JSON values and of a debugged list, forms and
URIs. -/
structure JwtLibrary where
  DecodingKey : Type
  Json : Type
  decodeHeader : Str → Except Str Header
  decode : Str → DecodingKey → Validation → ℕ → Except Str (JwtClaims Json)
  algorithm : Str → Except Str Str
  jsonText : Json → Str
  debugList : List Str → Str
  parseForm : Str → List (Str × Str)
  serializeForm : List (Str × Str) → Str
  /-- The path and query of the URI with another path and query. -/
  rebuildUri : Str → Option Str → Str → Option (Str × Option Str)

variable (L : JwtLibrary)

structure ValidationKey where
  decodingKey : L.DecodingKey
  validation : Validation

abbrev KeyMap := List (Str × ValidationKey L)

inductive Asset (T : Type) where
  | permanent (value : T)
  | expiring (value : T) (expiration : ℕ)
  | pending

structure JwtClaimToHeader where
  headerName : Str
  claimName : Str
  deriving DecidableEq

structure JwtHeader where
  name : Str
  valuePrefix : Str
  deriving DecidableEq

/-- A provider; `remote` is the cache duration of a remote key set. -/
structure JwtProvider where
  issuer : Str := []
  audiences : List Str := []
  forward : Bool := false
  fromHeaders : List JwtHeader := []
  fromParams : List Str := []
  fromCookies : List Str := []
  payloadInMetadata : Option Str := none
  headerInMetadata : Option Str := none
  clockSkewSeconds : ℕ := 60
  clearRouteCache : Bool := false
  claimToHeaders : List JwtClaimToHeader := []
  remote : Option ℕ := none
  deriving DecidableEq

def buildValidation (alg : Str) (provider : JwtProvider) : Validation :=
  let validation : Validation := { algorithm := alg, leeway := provider.clockSkewSeconds }
  let validation :=
    if provider.issuer = [] then validation
    else
      { validation with
        requiredSpecClaims := validation.requiredSpecClaims++[str "iss"]
        issuer := some [provider.issuer] }
  if provider.audiences = [] then { validation with validateAud := false }
  else
    { validation with
      requiredSpecClaims := validation.requiredSpecClaims++[str "aud"]
      audience := some provider.audiences
      validateAud := true }

inductive JwkError where
  | missingKeyId
  | noAlgInJwk
  | jsonWebToken (error : Str)
  | noValidationKey
  | noProviderFound (name : Str)
  | fetchFailed (error : Str)
  deriving DecidableEq

def JwkError.display : JwkError → Str
  | .missingKeyId => str "MissingKeyId"
  | .noAlgInJwk => str "No alg in JWK"
  | .jsonWebToken error => str "JsonWebToken: " ++ error
  | .noValidationKey => str "No validation key found"
  | .noProviderFound name => str "No provider found: " ++ name
  | .fetchFailed error => error

structure Jwk where
  keyId : Option Str
  keyAlgorithm : Option Str
  decodingKey : Except Str L.DecodingKey

variable {L} (provider : JwtProvider)

def parseJwk (keys : KeyMap L) (jwk : Jwk L) : Except JwkError (KeyMap L) := do
  let kid ← jwk.keyId.elim (.error .missingKeyId) .ok
  let keyAlg ← jwk.keyAlgorithm.elim (.error .noAlgInJwk) .ok
  let alg ← (L.algorithm keyAlg).mapError .jsonWebToken
  let decodingKey ← jwk.decodingKey.mapError .jsonWebToken
  let validation := buildValidation alg provider
  .ok (keys.filter (fun entry => entry.1 ≠ kid)++[(kid, ⟨decodingKey,validation⟩)])

def parseJwks (jwks : List (Jwk L)) : Except JwkError (KeyMap L) :=
  jwks.foldlM (parseJwk provider) []

variable (answer : Except JwkError (List (Jwk L)))

def fetchRemoteJwks : Except JwkError (KeyMap L) :=
  answer.bind (parseJwks provider)

/-- The keys a provider starts with: none if its local set cannot be parsed. -/
def buildContext (localJwks : Except JwkError (List (Jwk L))) : Option (Asset (KeyMap L)) :=
  match provider.remote with
  | some _ => some .pending
  | none => (localJwks.bind (parseJwks provider)).toOption.map .permanent

inductive RequirementType where
  | requires (providerName : Option Str)
  | requirementName (name : Str)
  deriving DecidableEq

variable (L)

structure Request where
  method : Str := str "GET"
  authority : Str := []
  path : Str := str "/"
  query : Option Str := none
  headers : HeaderMap := []
  headerExtension : Option Header := none
  claimsExtension : Option (JwtClaims L.Json) := none

/-- A rule and the outcome of its route match on a request. -/
structure RequirementRule where
  routeMatch : Option (Request L → Bool)
  requirementType : Option RequirementType

structure JwtAuthentication where
  providers : List (Str × JwtProvider)
  rules : List (RequirementRule L)

structure JwtCachedEntry where
  header : Header
  claims : JwtClaims L.Json

/-- An entry of the cache and the time at which it was stored. `token` and `key`
are history: what the entry was decoded from and with. -/
structure Stored where
  entry : JwtCachedEntry L
  storedAt : ℕ
  token : Str
  key : ValidationKey L

variable {L}

inductive FilterDecision where
  | continue
  | reroute
  | unauthorized (message : Str)
  deriving DecidableEq

def FilterDecision.Admits (decision : FilterDecision) : Prop :=
  decision = .continue ∨ decision = .reroute

instance (decision : FilterDecision) : Decidable decision.Admits :=
  inferInstanceAs (Decidable (_ ∨ _))

inductive JwtExtract where
  | header (name token : Str)
  | queryParams (key token : Str)
  | cookie (token : Str)
  deriving DecidableEq

def JwtExtract.token : JwtExtract → Str
  | .header _ token => token
  | .queryParams _ token => token
  | .cookie token => token

def headerToken (request : Request L) (hdr : JwtHeader) : Option JwtExtract := do
  let value ← request.headers.get hdr.name
  let text ← toStr value
  let token ← stripStart hdr.valuePrefix text
  if trim token = [] then none else some (.header hdr.name (trim token))

def paramToken (params : List (Str × Str)) (name : Str) : Option JwtExtract :=
  (params.find? fun p => p.1 = name && p.2 ≠ []).map fun p => .queryParams p.1 p.2

def cookieToken (cookies : Str) (name : Str) : Option JwtExtract :=
  (cookies.splitOn semicolon).findSome? fun cookie => do
    let (key, value) ← splitOnce equalsSign (trim cookie)
    if key = name ∧ value ≠ [] then some (.cookie value) else none

def extractToken (request : Request L) : Option JwtExtract :=
  (provider.fromHeaders.findSome? (headerToken request)).or <| (request.query.bind fun query =>
      provider.fromParams.findSome? (paramToken (L.parseForm query))).or <|
    (request.headers.get (str "cookie")).bind fun value =>
      (toStr value).bind fun cookies => provider.fromCookies.findSome? (cookieToken cookies)

variable (config : JwtAuthentication L)

/-- `provider_lookup`: the first rule that matches and names a provider. -/
def providerLookup (request : Request L) : Option Str :=
  config.rules.findSome? fun rule =>
    if rule.routeMatch.elim true (fun matches' => matches' request) then
      match rule.requirementType with
      | some (.requires providerName) => providerName
      | _ => none
    else none

variable (claims : JwtClaims L.Json)

def claimText (name : Str) : Option Str :=
  let number := fun n : ℕ => str (toString n)
  if name = str "iss" then claims.iss
  else if name = str "sub" then claims.sub
  else if name = str "aud" then claims.aud.map L.debugList
  else if name = str "exp" then claims.exp.map number
  else if name = str "iat" then claims.iat.map number
  else if name = str "nbf" then claims.nbf.map number
  else if name = str "jti" then claims.jti
  else (claims.extra.lookup name).map L.jsonText

def writeClaim (headers : HeaderMap) (claimToHeader : JwtClaimToHeader) : HeaderMap :=
  match (claimText claims claimToHeader.claimName).bind fromStr with
  | some value => headers.insert claimToHeader.headerName value
  | none => headers

def writeClaimsToHeaders (headers : HeaderMap) : HeaderMap :=
  provider.claimToHeaders.foldl (writeClaim claims) headers

/-- The token is taken out of the request unless the provider forwards it. -/
def withoutToken (extract : JwtExtract) (request : Request L) : Request L :=
  if provider.forward then request
  else
    match extract with
    | .header name _ => { request with headers := request.headers.remove name }
    | .queryParams key _ =>
      match request.query with
      | none => request
      | some query =>
        let filtered := (L.parseForm query).filter fun p => p.1 ≠ key
        let target :=
          if filtered = [] then request.path
          else request.path++str "?" ++ L.serializeForm filtered
        match L.rebuildUri request.path request.query target with
        | some (path, query) => { request with path, query }
        | none => request
    | .cookie _ => request

/-- The request as it goes on after the token has been decoded. -/
def passOn (extract : JwtExtract) (entry : JwtCachedEntry L) (request : Request L) : Request L :=
  let request := withoutToken provider extract request
  { request with
    headers := writeClaimsToHeaders provider entry.claims request.headers
    headerExtension :=
      if provider.headerInMetadata.isSome then some entry.header else request.headerExtension
    claimsExtension :=
      if provider.payloadInMetadata.isSome then some entry.claims else request.claimsExtension }

def cacheKey (token : Str) : Str := ((rsplitOnce dot token).map Prod.snd).getD token

/-- The key sets of the providers of a filter. A provider whose configured keys
cannot be parsed has none. -/
abbrev Contexts (L : JwtLibrary) := Str → Option (Asset (KeyMap L))

abbrev JwtCache (L : JwtLibrary) := Str → Option (Stored L)

def timeToLive : ℕ := 1000

def JwtCache.live (cache : JwtCache L) (now : ℕ) (key : Str) : Option (Stored L) :=
  (cache key).filter fun stored => now < stored.storedAt+timeToLive

def refreshed (now : ℕ) : Option (KeyMap L × ℕ) :=
  match provider.remote, fetchRemoteJwks provider answer with
  | some duration, .ok new => some (new, now+duration)
  | _, _ => none

/-- `validation_key_lookup`, with the keys it leaves. -/
def validationKeyLookup (now : ℕ) (kid : Option Str) (keys : Asset (KeyMap L)) :
    Option (Asset (ValidationKey L)) × Asset (KeyMap L) :=
  match kid, keys with
  | some kid, .permanent map => ((map.lookup kid).map .permanent, keys)
  | some kid, .expiring map expiration =>
    ((map.lookup kid).map (.expiring · expiration), match refreshed provider answer now with
      | some (new, deadline) => if expiration < now then .expiring new deadline else keys
      | none => keys)
  | some kid, .pending =>
    match refreshed provider answer now with
    | some (new, deadline) =>
      ((new.lookup kid).map (.expiring · deadline), .expiring new deadline)
    | none => (some .pending, keys)
  | none, .permanent map => (map.head?.map fun e => .permanent e.2, keys)
  | none, .expiring map expiration => (map.head?.map fun e => .expiring e.2 expiration, keys)
  | none, .pending => (some .pending, keys)

def Asset.value? {T : Type} : Asset T → Option T
  | .permanent value => some value
  | .expiring value _ => some value
  | .pending => none

variable (contexts : Contexts L)

def selectedKey (answer : Except JwkError (List (Jwk L))) (now : ℕ) (name : Str) (header : Header) :
    Option (ValidationKey L) := do
  let keys ← contexts name
  let asset ← (validationKeyLookup provider answer now header.kid keys).1
  asset.value?

/-- `decode_jwt_token` after the cache has been looked up in vain. -/
def decodeUncached (answer : Except JwkError (List (Jwk L))) (now : ℕ) (token name : Str) :
    Except JwkError (Stored L) := do
  let header ← (L.decodeHeader token).mapError .jsonWebToken
  let provider ← (config.providers.lookup name).elim (.error (.noProviderFound name)) .ok
  let key ← (selectedKey provider contexts answer now name header).elim
    (.error .noValidationKey) .ok
  let claims ← (L.decode token key.decodingKey key.validation now).mapError .jsonWebToken
  .ok { entry := { header, claims }, storedAt := now, token, key }

def refreshedContexts
    (answer : Except JwkError (List (Jwk L))) (now : ℕ) (token name : Str) : Contexts L :=
  match L.decodeHeader token, config.providers.lookup name, contexts name with
  | .ok header, some provider, some keys =>
    Function.update contexts name
      (some (validationKeyLookup provider answer now header.kid keys).2)
  | _, _, _ => contexts

/-- What a request finds on its worker thread, and whether its lookup in the
cache is made now or was made, in vain, before a wait. -/
structure Situation (L : JwtLibrary) where
  contexts : Contexts L
  cache : JwtCache L
  now : ℕ
  answer : Except JwkError (List (Jwk L))
  lookup : Bool := true

def decodeJwtToken (s : Situation L) (token name : Str) :
    Except JwkError (JwtCachedEntry L) × Contexts L × JwtCache L :=
  match if s.lookup then s.cache.live s.now (cacheKey token) else none with
  | some stored => (.ok stored.entry, s.contexts, s.cache)
  | none =>
    let contexts := refreshedContexts config s.contexts s.answer s.now token name
    match decodeUncached config s.contexts s.answer s.now token name with
    | .ok stored =>
      (.ok stored.entry, contexts, Function.update s.cache (cacheKey token) (some stored))
    | .error e => (.error e, contexts, s.cache)

/-- `apply_request`: the decision and the request, and what is left on the worker
thread. -/
def applyRequest (s : Situation L) (request : Request L) :
    (FilterDecision × Request L) × Contexts L × JwtCache L :=
  match providerLookup config request with
  | none =>
    ((.unauthorized (str "no provider found for request"), request), s.contexts, s.cache)
  | some name =>
    match (config.providers.lookup name).bind fun provider => extractToken provider request with
    | none =>
      ((.unauthorized (str "no token found for provider " ++ name), request), s.contexts, s.cache)
    | some extract =>
      match decodeJwtToken config s extract.token name with
      | (.error e, contexts, cache) =>
        ((.unauthorized (str "failed to decode JWT token: " ++ e.display), request),
          contexts, cache)
      | (.ok entry, contexts, cache) =>
        match config.providers.lookup name with
        | none =>
          ((.unauthorized (str "no provider found: " ++ name), request), contexts, cache)
        | some provider =>
          ((if provider.clearRouteCache then .reroute else .continue,
            passOn provider extract entry request), contexts, cache)

abbrev Issued := List ((Str × ℕ) × JwtClaims Empty)

/-- The registered claims of a token meet the settings at a time. -/
def Validation.accepts {Json : Type} (validation : Validation) (claims : JwtClaims Json)
    (now : ℕ) : Bool :=
  (claims.exp.elim false fun exp => now / 1000 ≤ exp+validation.leeway) &&
    (validation.issuer.elim true fun issuers => claims.iss.elim false (issuers.contains ·)) &&
    (!validation.validateAud || validation.audience.elim true fun audiences =>
      claims.aud.elim false fun auds => auds.any (audiences.contains ·))

/-- A library in which exactly the issued tokens have valid signatures. -/
def libraryOf (issued : Issued) : JwtLibrary where
  DecodingKey := ℕ
  Json := Empty
  decodeHeader := fun token =>
    if token.count dot = 2 then .ok { alg := str "HS256", kid := some (str "k") }
    else .error (str "InvalidToken")
  decode := fun token key validation now =>
    match issued.lookup (token, key) with
    | some claims => if validation.accepts claims now then .ok claims else .error (str "InvalidToken")
    | none => .error (str "InvalidSignature")
  algorithm := .ok
  jsonText := Empty.elim
  debugList := fun audiences => audiences.flatten
  parseForm := fun _ => []
  serializeForm := fun _ => []
  rebuildUri := fun path query _ => some (path, query)

def subjectProvider : JwtProvider :=
  { fromHeaders := [⟨str "authorization",str "Bearer "⟩]
    claimToHeaders := [⟨str "x-jwt-sub",str "sub"⟩] }

def subjectConfig : JwtAuthentication L where
  providers := [(str "p", subjectProvider)]
  rules := [{ routeMatch := none, requirementType := some (.requires (some (str "p"))) }]

def subjectJwk (key : L.DecodingKey) : Jwk L :=
  { keyId := some (str "k"), keyAlgorithm := some (str "HS256"), decodingKey := .ok key }

def withToken (token : String) (headers : HeaderMap) : Request L :=
  { headers := (str "authorization", str "Bearer " ++ str token)::headers }

end ArionGateway.JwtAuthn
