import ArionGateway.UserAgentCookies
import ArionGateway.FallibleSteps

/-!
# The OAuth2 filter

After a login the filter gives the client a set of cookies, the tokens, the time of expiry and a
signature over them, and checks these on every later request. A login in progress is kept in two
cookies as well: a signed one with the state that the provider has to return and the place to go
back to, and an encrypted one with the code verifier. Signatures, encryption and URLs are those of
other crates and stand as parameters; the answer of the token endpoint, the clock and random bytes
are given with a request.
-/
namespace ArionGateway.OAuth2Filter
open ByteStrings HttpHeaders TextEncodings UserAgentCookies FallibleSteps
open Alphabet (contains standard urlSafe)

structure Url where
  scheme : Str
  host : Option Str
  username : Str := []
  password : Option Str := none
  fragment : Option Str := none
  deriving DecidableEq

def aeadNonceLen : ℕ := 12

abbrev Nonce := { nonce : Str // nonce.length = aeadNonceLen }

/-- What the filter takes from other crates. A signature has 32 bytes. A sealed
text has a tag of 16 bytes and opens to the text; opening fails for other bytes
and for bytes that are not text. -/
structure Library where
  hmac : Str → Str → Str
  length_hmac : ∀ secret message, (hmac secret message).length = 32
  sealText : Str → Nonce → Str → Option Str
  openText : Str → Str → Str → Option Str
  length_sealText : ∀ secret nonce text sealed, sealText secret nonce text = some sealed →
    sealed.length = text.length+16
  openText_sealText : ∀ secret nonce text sealed, sealText secret nonce text = some sealed →
    openText secret nonce.1 sealed = some text
  isUtf8 : Str → Bool
  parseUrl : Str → Option Url
  isPathAndQuery : Str → Bool
  /-- The URL for a client, an endpoint, a redirect URI, a state, a verifier and scopes. -/
  authorizationUrl : Str → Str → Str → Str → Str → List Str → Option Str

/-- A request; `https` says that its URI has this scheme. -/
structure Request where
  headers : HeaderMap := []
  authority : Option Str := none
  https : Bool := false
  pathAndQuery : Option Str := some (str "/")
  deriving DecidableEq

structure CookieNames where
  bearerToken : Str := str "BearerToken"
  oauthHmac : Str := str "OauthHMAC"
  oauthExpires : Str := str "OauthExpires"
  idToken : Str := str "IdToken"
  refreshToken : Str := str "RefreshToken"
  oauthNonce : Str := str "OauthNonce"
  codeVerifier : Str := str "OauthCodeVerifier"
  deriving DecidableEq

inductive CookieSameSite where
  | disabled
  | strict
  | lax
  | none
  deriving DecidableEq

structure CookieConfig where
  sameSite : CookieSameSite := .disabled
  path : Str := str "/"
  partitioned : Bool := false
  deriving DecidableEq

structure CookieConfigs where
  bearerToken : Option CookieConfig := none
  oauthHmac : Option CookieConfig := none
  oauthExpires : Option CookieConfig := none
  idToken : Option CookieConfig := none
  refreshToken : Option CookieConfig := none
  oauthNonce : Option CookieConfig := none
  codeVerifier : Option CookieConfig := none
  deriving DecidableEq

/-- The configuration, with its matchers as predicates and durations in seconds. -/
structure OAuth2Config where
  authorizationEndpoint : Str := []
  endSessionEndpoint : Option Str := none
  clientId : Str := []
  hmacSecret : Str := []
  cookieNames : CookieNames := {}
  cookieDomain : Option Str := none
  redirectUri : Request → Str := fun _ => []
  redirectPathMatcher : Str → Bool := fun _ => false
  signoutPath : Str → Bool := fun _ => false
  forwardBearerToken : Bool := false
  preserveAuthorizationHeader : Bool := false
  passThroughMatcher : List (Request → Bool) := []
  authScopes : List Str := [str "user"]
  useRefreshToken : Bool := true
  defaultExpiresIn : ℕ := 0
  denyRedirectMatcher : List (Request → Bool) := []
  defaultRefreshTokenExpiresIn : ℕ := 604800
  disableIdTokenSetCookie : Bool := false
  disableAccessTokenSetCookie : Bool := false
  disableRefreshTokenSetCookie : Bool := false
  cookieConfigs : CookieConfigs := {}
  csrfTokenExpiresIn : ℕ := 600
  codeVerifierTokenExpiresIn : ℕ := 600
  disableTokenEncryption : Bool := false

/-- The check on the two flags when a configuration is converted. -/
def OAuth2Config.convertFlags (config : OAuth2Config) : Except Str OAuth2Config :=
  if config.forwardBearerToken && config.preserveAuthorizationHeader then
    .error (str
      "forward_bearer_token and preserve_authorization_header cannot both be set to true")
  else .ok config

structure TokenEndpointResponse where
  accessToken : Str
  expiresIn : Option ℕ := none
  refreshToken : Option Str := none
  idToken : Option Str := none
  deriving DecidableEq

/-- What a request meets: the time in seconds, before and after an exchange of a
code, the answer to the exchange, and random bytes. -/
structure Env where
  now : ℕ
  exchangedAt : ℕ
  answer : Option TokenEndpointResponse := none
  flowBytes : Str := []
  csrfBytes : Str := []
  verifierBytes : Str := []
  accessNonce : Nonce
  idNonce : Nonce
  refreshNonce : Nonce
  verifierNonce : Nonce

structure Response where
  status : ℕ
  headers : HeaderMap := []
  deriving DecidableEq

inductive FilterDecision where
  | continue
  | directResponse (response : Response)
  deriving DecidableEq

def maxInteger : ℕ := 2^64

def newline : UInt8 := 10
def slash : UInt8 := 47
def backslash : UInt8 := 92
def questionMark : UInt8 := 63
def ampersand : UInt8 := 38
def percent : UInt8 := 37

def Request.query (request : Request) : Str :=
  ((request.pathAndQuery.bind (splitOnce questionMark)).map Prod.snd).getD []

def extractHost (request : Request) : Option Str :=
  ((request.headers.get (str "host")).bind toStr).or request.authority

def requestIsHttps (request : Request) : Bool :=
  request.https || request.headers.get (str "x-forwarded-proto") == some (str "https")

def addOauthResponseHeaders (headers : HeaderMap) : HeaderMap :=
  ((headers.insert (str "cache-control") (str "no-store")).insert (str "pragma")
    (str "no-cache")).insert (str "referrer-policy") (str "no-referrer")

def attributesBefore (config : Option CookieConfig) (domain : Option Str) (isSecure : Bool) :
    List Str :=
  [str "Path=" ++ config.elim (str "/") CookieConfig.path,str "HttpOnly"] ++
    (if isSecure then [str "Secure"] else []) ++
    ((domain.filter (· ≠ [])).map (str "Domain=" ++ ·)).toList

def attributesAfter (config : Option CookieConfig) : List Str :=
  match config with
  | some config =>
    (match config.sameSite with
      | .strict => [str "SameSite=Strict"]
      | .lax => [str "SameSite=Lax"]
      | .none => [str "SameSite=None"]
      | .disabled => []) ++ (if config.partitioned then [str "Partitioned"] else [])
  | none => [str "SameSite=Lax"]

def cookieAttributes (maxAge : Option ℕ) (config : Option CookieConfig) (domain : Option Str)
    (isSecure : Bool) : List Str :=
  attributesBefore config domain isSecure ++
    (maxAge.map fun age => str "Max-Age=" ++ formatDecimal age).toList++attributesAfter config

/-- `format_cookie`: nothing if the line is not a valid header. -/
def formatCookie (name value : Str) (maxAge : Option ℕ) (config : Option CookieConfig)
    (domain : Option Str) (isSecure : Bool) : Option Str :=
  fromStr (withAttributes (name++equalsSign::value)
    (cookieAttributes maxAge config domain isSecure))

def appendCookie (headers : HeaderMap) (name value : Str) (maxAge : Option ℕ)
    (config : Option CookieConfig) (domain : Option Str) (isSecure : Bool) : HeaderMap :=
  match formatCookie name value maxAge config domain isSecure with
  | some cookie => headers.append (str "set-cookie") cookie
  | none => headers

def appendExpiredCookie (headers : HeaderMap) (name : Str) (config : Option CookieConfig)
    (domain : Option Str) (isSecure : Bool) : HeaderMap :=
  appendCookie headers name [] (some 0) config domain isSecure

def flowCookieName (baseName flowId : Str) : Str := baseName++dot::flowId

def clearTransactionCookies (headers : HeaderMap) (config : OAuth2Config) (flowId : Str)
    (isHttps : Bool) : HeaderMap :=
  let names := config.cookieNames
  let domain := config.cookieDomain
  let headers := appendExpiredCookie headers (flowCookieName names.oauthNonce flowId)
    config.cookieConfigs.oauthNonce domain isHttps
  appendExpiredCookie headers (flowCookieName names.codeVerifier flowId)
    config.cookieConfigs.codeVerifier domain isHttps

def cookiePairs (headers : HeaderMap) : List (Str × Str) :=
  readCookies (headers.getAll (str "cookie"))

def extractCookie (headers : HeaderMap) (name : Str) : Option Str :=
  (cookiePairs headers).lookup name

structure SessionCookies where
  accessToken : Option Str := none
  hmac : Option Str := none
  expires : Option Str := none
  idToken : Option Str := none
  refreshToken : Option Str := none
  deriving DecidableEq

/-- One pair of `extract_session_cookies`; a later one replaces an earlier one. -/
def SessionCookies.add (names : CookieNames) (cookies : SessionCookies) (pair : Str × Str) :
    SessionCookies :=
  if pair.1 = names.bearerToken then { cookies with accessToken := some pair.2 }
  else if pair.1 = names.oauthHmac then { cookies with hmac := some pair.2 }
  else if pair.1 = names.oauthExpires then { cookies with expires := some pair.2 }
  else if pair.1 = names.idToken then { cookies with idToken := some pair.2 }
  else if pair.1 = names.refreshToken then { cookies with refreshToken := some pair.2 }
  else cookies

def extractSessionCookies (headers : HeaderMap) (names : CookieNames) : SessionCookies :=
  (cookiePairs headers).foldl (SessionCookies.add names) {}

def hmacDomain (cookieDomain : Option Str) (host : Str) : Str :=
  (cookieDomain.filter (· ≠ [])).getD host

/-- The fields of a session that are signed. A token that is absent is empty. -/
structure Session where
  domain : Str
  expires : Str
  accessToken : Str
  idToken : Str
  refreshToken : Str
  deriving DecidableEq

structure Transaction where
  flowId : Str
  nonce : Str
  issuedAt : ℕ
  target : Str
  redirectUri : Str
  deriving DecidableEq

def Session.bytes (s : Session) : Str :=
  s.domain++newline::(s.expires++newline::(s.accessToken++newline ::
    (s.idToken++newline::s.refreshToken)))

def transactionContext : Str := str "arion.oauth2.transaction.v1" ++ [0]

def transactionCookieVersion : Str := str "v1"

def Transaction.fields (t : Transaction) : List Str :=
  [transactionCookieVersion,t.flowId,t.nonce,formatDecimal t.issuedAt,
    urlSafe.encode t.target,urlSafe.encode t.redirectUri]

def Transaction.payload (t : Transaction) : Str := [dot].intercalate t.fields

def Transaction.bytes (t : Transaction) : Str := transactionContext++t.payload

def hexLower (bytes : Str) : Str :=
  bytes.flatMap fun b =>
    let symbol := fun n : ℕ => UInt8.ofNat (if n < 10 then 48+n else 87+n)
    [symbol (b.toNat / 16),symbol (b.toNat % 16)]

def splitCallbackState (state : Str) : Option (Str × Str) :=
  match splitOnce dot state with
  | none => none
  | some (flowId, nonce) =>
    if flowId ≠ [] ∧ nonce ≠ [] ∧ flowId.length ≤ 64 ∧ nonce.length ≤ 256 ∧
        flowId.all (contains .urlSafe) ∧ nonce.all (contains .urlSafe) then
      some (flowId, nonce)
    else none

structure OAuthTransaction where
  flowId : Str
  nonce : Str
  target : Str
  redirectUri : Str
  deriving DecidableEq

structure CallbackParameters where
  code : Option Str := none
  state : Option Str := none
  error : Option Str := none
  deriving DecidableEq

def hexValue (b : UInt8) : Option UInt8 :=
  if 48 ≤ b ∧ b ≤ 57 then some (b - 48)
  else if 97 ≤ b ∧ b ≤ 102 then some (b - 97+10)
  else if 65 ≤ b ∧ b ≤ 70 then some (b - 65+10)
  else none

def formBytes : Str → Option Str
  | [] => some []
  | [b] => if b = plus then some [32] else if b = percent then none else some [b]
  | [b,c] =>
    if b = percent then none
    else (formBytes [c]).map ((if b = plus then 32 else b)::·)
  | b::high::low::rest =>
    if b = percent then do
      let h ← hexValue high
      let l ← hexValue low
      let others ← formBytes rest
      some ((h <<< 4 ||| l)::others)
    else (formBytes (high::low::rest)).map ((if b = plus then 32 else b)::·)

/-- A parameter of the callback; a second one of the same name is refused. -/
def CallbackParameters.add (params : CallbackParameters) (name value : Str) :
    Option CallbackParameters :=
  if name = str "code" then
    if params.code.isSome then none else some { params with code := some value }
  else if name = str "state" then
    if params.state.isSome then none else some { params with state := some value }
  else if name = str "error" then
    if params.error.isSome then none else some { params with error := some value }
  else some params

variable (L : Library)

def strictFormDecode (value : Str) : Option Str := (formBytes value).filter L.isUtf8

def parseCallbackQuery (query : Str) : Option CallbackParameters :=
  (query.splitOn ampersand).foldlM (fun params pair =>
    if pair = [] then some params
    else do
      let (rawName, rawValue) ← splitOnce equalsSign pair
      let name ← strictFormDecode L rawName
      let value ← strictFormDecode L rawValue
      params.add name value) {}

def isLocalPath (target : Str) : Bool :=
  startsWith target [slash] && !startsWith target [slash,slash] && !target.contains backslash &&
    L.isPathAndQuery target

def localRedirectTarget (target : Option Str) : Str := (target.filter (isLocalPath L)).getD [slash]

def isValidRedirectUri (value : Str) : Bool := (L.parseUrl value).elim false fun url =>
    (url.scheme = str "http" || url.scheme = str "https") && url.host.isSome &&
      url.username = [] && url.password.isNone && url.fragment.isNone

def encryptedCookieStart : Str := str "gcm."

variable (secret : Str)

def encryptCookieValue (nonce : Nonce) (text : Str) : Option Str :=
  (L.sealText secret nonce text).map fun sealed =>
    encryptedCookieStart++urlSafe.encode (nonce.1++sealed)

def decryptCookieValue (value : Str) : Option Str := do
  let encoded ← stripStart encryptedCookieStart value
  let payload ← urlSafe.decode encoded
  if payload.length ≤ aeadNonceLen then none
  else L.openText secret (payload.take aeadNonceLen) (payload.drop aeadNonceLen)

def encodeTransactionCookie (t : Transaction) : Str :=
  t.payload++dot::urlSafe.encode (L.hmac secret t.bytes)

/-- The fields of a transaction cookie whose signature is right. -/
def verifyTransactionFields (now : ℕ) (stateFlowId stateNonce : Str) (maxAge : ℕ) :
    List Str → Option OAuthTransaction
  | [version,flowId,nonce,issuedAt,target,redirectUri] =>
    if version ≠ transactionCookieVersion ∨ flowId ≠ stateFlowId ∨ nonce ≠ stateNonce then none
    else do
      let issuedAt ← parseDecimal maxInteger issuedAt
      if issuedAt > now ∨ now - issuedAt > maxAge then none
      else do
        let target ← (urlSafe.decode target).filter L.isUtf8
        let redirectUri ← (urlSafe.decode redirectUri).filter L.isUtf8
        if localRedirectTarget L (some target) ≠ target ∨ ¬ isValidRedirectUri L redirectUri then
          none
        else some { flowId, nonce, target, redirectUri }
  | _ => none

def verifyTransactionCookie (now : ℕ) (state : Str) (cookie : Option Str)
    (maxAge : ℕ) : Option OAuthTransaction := do
  let (stateFlowId, stateNonce) ← splitCallbackState state
  let cookie ← cookie
  let (payload, signature) ← rsplitOnce dot cookie
  let signature ← urlSafe.decode signature
  if signature ≠ L.hmac secret (transactionContext++payload) then none
  else verifyTransactionFields L now stateFlowId stateNonce maxAge (payload.splitOn dot)

def isVerifierByte (b : UInt8) : Bool := isAlphanumeric b || b == 45 || b == dot || b == 95 || b == 126

def verifyCodeVerifier (now : ℕ) (payload : Str) (maxAge : ℕ) : Option Str := do
  let (issuedAt, verifier) ← splitOnce dot payload
  let issuedAt ← parseDecimal maxInteger issuedAt
  if issuedAt ≤ now ∧ now - issuedAt ≤ maxAge ∧ 43 ≤ verifier.length ∧ verifier.length ≤ 128 ∧
      verifier.all isVerifierByte then
    some verifier
  else none

/-- `verify_session_hmac`: the signature itself, or its digits in the older form. -/
def verifySessionHmac (session : Session) (signature : Str) : Bool :=
  match (standard.decode signature).filter (·.length ≤ 64) with
  | none => false
  | some decoded =>
    decoded == L.hmac secret session.bytes || decoded == hexLower (L.hmac secret session.bytes)

def computeSessionHmac (session : Session) : Str :=
  standard.encode (L.hmac secret session.bytes)

structure SessionTokens where
  accessToken : Option Str := none
  idToken : Option Str := none
  refreshToken : Option Str := none
  deriving DecidableEq

def SessionTokens.toList (tokens : SessionTokens) : List Str :=
  tokens.accessToken.toList++tokens.idToken.toList++tokens.refreshToken.toList

def SessionTokens.session (tokens : SessionTokens) (domain expires : Str) : Session where
  domain := domain
  expires := expires
  accessToken := tokens.accessToken.getD []
  idToken := tokens.idToken.getD []
  refreshToken := tokens.refreshToken.getD []

variable (config : OAuth2Config)

def decryptTokenCookie (value : Str) : Option Str :=
  if config.disableTokenEncryption then some value
  else decryptCookieValue L config.hmacSecret value

def encryptTokenCookie (nonce : Nonce) (text : Str) : Option Str :=
  if config.disableTokenEncryption then some text
  else encryptCookieValue L config.hmacSecret nonce text

def presentedTokens (headers : HeaderMap) : SessionTokens :=
  let cookies := extractSessionCookies headers config.cookieNames
  { accessToken := cookies.accessToken.bind (decryptTokenCookie L config)
    idToken := cookies.idToken.bind (decryptTokenCookie L config)
    refreshToken := cookies.refreshToken.bind (decryptTokenCookie L config) }

def presentedSession (host : Str) (headers : HeaderMap) : Option (Session × Str) := do
  let cookies := extractSessionCookies headers config.cookieNames
  let hmac ← cookies.hmac
  let expires ← cookies.expires
  some ((presentedTokens L config headers).session (hmacDomain config.cookieDomain host) expires, hmac)

def isAuthenticated (now : ℕ) (host : Str) (headers : HeaderMap) : Bool :=
  match presentedSession L config host headers with
  | none => false
  | some (session, hmac) =>
    match parseDecimal maxInteger session.expires with
    | none => false
    | some expiresAt => now < expiresAt && verifySessionHmac L config.hmacSecret session hmac

def bearerHeader (request : Request) (token : Str) : Option Str :=
  if !config.forwardBearerToken ||
      (config.preserveAuthorizationHeader && request.headers.containsKey (str "authorization")) then
    none
  else fromStr (str "Bearer " ++ token)

/-- The headers of a request with a session as they go on to the upstream. -/
def authorizedHeaders (request : Request) : HeaderMap :=
  match (presentedTokens L config request.headers).accessToken.bind (bearerHeader config request) with
  | some authorization => request.headers.insert (str "authorization") authorization
  | none => request.headers

def oauthResponse (status : ℕ) : Response where
  status := status
  headers := addOauthResponseHeaders []

def handleSignout (request : Request) : Response :=
  let isHttps := requestIsHttps request
  let domain := config.cookieDomain
  let names := config.cookieNames
  let configs := config.cookieConfigs
  let location := fromStr (config.endSessionEndpoint.getD [slash])
  let headers : HeaderMap := location.elim [] fun location => [(str "location", location)]
  let cookies := [(names.bearerToken, configs.bearerToken),(names.oauthHmac, configs.oauthHmac),
    (names.oauthExpires, configs.oauthExpires),(names.idToken, configs.idToken),
    (names.refreshToken, configs.refreshToken),(names.oauthNonce, configs.oauthNonce),
    (names.codeVerifier, configs.codeVerifier)]
  { status := 302
    headers := cookies.foldl (fun headers cookie =>
      appendExpiredCookie headers cookie.1 cookie.2 domain isHttps)
      (addOauthResponseHeaders headers) }

def formatRedirectUri (request : Request) : Option Str :=
  if isValidRedirectUri L (config.redirectUri request) then some (config.redirectUri request)
  else none

def randomUrlsafeToken (random : Str) : Str := urlSafe.encode random

def startedTransaction (env : Env) (request : Request) : Option Transaction :=
  (formatRedirectUri L config request).map fun redirectUri =>
    { flowId := randomUrlsafeToken env.flowBytes
      nonce := randomUrlsafeToken env.csrfBytes
      issuedAt := env.now
      target := localRedirectTarget L request.pathAndQuery
      redirectUri }

def verifierPayload (env : Env) : Str :=
  formatDecimal env.now++dot::randomUrlsafeToken env.verifierBytes

/-- The response that sends a client to the provider. -/
def startTransaction (env : Env) (isHttps : Bool) (t : Transaction) : Option Response := do
  let names := config.cookieNames
  let configs := config.cookieConfigs
  let verifierCookie ← encryptCookieValue L config.hmacSecret env.verifierNonce (verifierPayload env)
  let authUrl ← L.authorizationUrl config.clientId config.authorizationEndpoint t.redirectUri
    (t.flowId++dot::t.nonce) (randomUrlsafeToken env.verifierBytes) config.authScopes
  let nonceHeader ← formatCookie (flowCookieName names.oauthNonce t.flowId)
    (encodeTransactionCookie L config.hmacSecret t) (some config.csrfTokenExpiresIn)
    configs.oauthNonce config.cookieDomain isHttps
  let verifierHeader ← formatCookie (flowCookieName names.codeVerifier t.flowId) verifierCookie
    (some config.codeVerifierTokenExpiresIn) configs.codeVerifier config.cookieDomain isHttps
  let location ← fromStr authUrl
  some
    { status := 302
      headers := ((addOauthResponseHeaders [(str "location", location)]).append
        (str "set-cookie") nonceHeader).append (str "set-cookie") verifierHeader }

def handleUnauthenticated (env : Env) (request : Request) : Response :=
  match startedTransaction L config env request with
  | none => oauthResponse 400
  | some t => (startTransaction L config env (requestIsHttps request) t).getD (oauthResponse 500)

def callbackFailure (status : ℕ) (isHttps : Bool) (flowId : Str) : Response where
  status := status
  headers := clearTransactionCookies (addOauthResponseHeaders []) config flowId isHttps

/-- The state of a callback and the transaction it belongs to. -/
def checkState (env : Env) (query : Str) (headers : HeaderMap) :
    Except Response (CallbackParameters × Str × OAuthTransaction) := do
  let parameters ← (parseCallbackQuery L query).elim (.error (oauthResponse 400)) .ok
  let state ← parameters.state.elim (.error (oauthResponse 400)) .ok
  let (flowId, _) ← (splitCallbackState state).elim (.error (oauthResponse 400)) .ok
  let transaction ← (verifyTransactionCookie L config.hmacSecret env.now state
    (extractCookie headers (flowCookieName config.cookieNames.oauthNonce flowId))
    config.csrfTokenExpiresIn).elim (.error (oauthResponse 400)) .ok
  .ok (parameters, state, transaction)

def exchangeCallback (env : Env) (isHttps : Bool) (query : Str) (headers : HeaderMap) :
    Except Response (OAuthTransaction × TokenEndpointResponse) := do
  let (parameters, _, transaction) ← checkState L config env query headers
  let fail := fun status => callbackFailure config status isHttps transaction.flowId
  if parameters.error.isSome then .error (fail 401)
  else do
    let _code ← parameters.code.elim (.error (fail 400)) .ok
    let _verifier ← ((extractCookie headers
      (flowCookieName config.cookieNames.codeVerifier transaction.flowId)).bind fun value =>
        (decryptCookieValue L config.hmacSecret value).bind fun payload =>
          verifyCodeVerifier env.now payload config.codeVerifierTokenExpiresIn).elim
      (.error (fail 400)) .ok
    let tokens ← env.answer.elim (.error (fail 502)) .ok
    .ok (transaction, tokens)

variable {headers : HeaderMap} {query : Str} {env : Env}

variable {L config} in
lemma answer_of_exchangeCallback {i : Bool} {t : OAuthTransaction} {tokens : TokenEndpointResponse}
    (h : exchangeCallback L config env i query headers = .ok (t, tokens)) :
    env.answer = some tokens := by
  obtain ⟨⟨p,state,tr⟩,-,h⟩ := bind_eq_ok.mp h
  simp only at h
  split at h
  · simp at h
  · obtain ⟨c,-,h⟩ := bind_eq_ok.mp h
    obtain ⟨v,-,h⟩ := bind_eq_ok.mp h
    obtain ⟨t',ht,h⟩ := bind_eq_ok.mp h
    obtain ⟨rfl,rfl⟩ : tr = t ∧ t' = tokens := by simpa using h
    exact elim_error_eq_ok.mp ht

variable {L config} in
lemma checkState_eq_error {r : Response}
    (h : checkState L config env query headers = .error r) : r.status = 400 := by
  rcases bind_eq_error.mp h with h | ⟨p,-,h⟩
  · rw [← elim_error_inj h,oauthResponse]
  rcases bind_eq_error.mp h with h | ⟨s,-,h⟩
  · rw [← elim_error_inj h,oauthResponse]
  rcases bind_eq_error.mp h with h | ⟨⟨f,_⟩,-,h⟩
  · rw [← elim_error_inj h,oauthResponse]
  rcases bind_eq_error.mp h with h | ⟨tr,-,h⟩
  · rw [← elim_error_inj h,oauthResponse]
  · simp at h

variable {L config} in
lemma exchangeCallback_eq_error {i : Bool} {r : Response}
    (h : exchangeCallback L config env i query headers = .error r) : r.status ∈ [400,401,502] := by
  rcases bind_eq_error.mp h with h | ⟨⟨p,state,tr⟩,-,h⟩
  · simp [checkState_eq_error h]
  simp only at h
  split at h
  · obtain rfl := Except.error.inj h
    simp [callbackFailure]
  rcases bind_eq_error.mp h with h | ⟨c,-,h⟩
  · simp [← elim_error_inj h,callbackFailure]
  rcases bind_eq_error.mp h with h | ⟨v,-,h⟩
  · simp [← elim_error_inj h,callbackFailure]
  rcases bind_eq_error.mp h with h | ⟨t,-,h⟩
  · simp [← elim_error_inj h,callbackFailure]
  · simp at h

def sessionExpiresIn (tokens : TokenEndpointResponse) : ℕ :=
  tokens.expiresIn.getD (if config.defaultExpiresIn = 0 then 3600 else config.defaultExpiresIn)

def issuedTokens (tokens : TokenEndpointResponse) : SessionTokens where
  accessToken := if config.disableAccessTokenSetCookie then none else some tokens.accessToken
  idToken := if config.disableIdTokenSetCookie then none else tokens.idToken
  refreshToken :=
    if config.useRefreshToken && !config.disableRefreshTokenSetCookie then tokens.refreshToken
    else none

def issuedSession (env : Env) (host : Str) (tokens : TokenEndpointResponse) : Option Session :=
  let expiresAt := env.exchangedAt+sessionExpiresIn config tokens
  if expiresAt < maxInteger then
    some ((issuedTokens config tokens).session (hmacDomain config.cookieDomain host)
      (formatDecimal expiresAt))
  else none

structure NewCookie where
  name : Str
  value : Str
  maxAge : ℕ
  config : Option CookieConfig
  deriving DecidableEq

def tokenCookie (nonce : Nonce) (token : Option Str) (name : Str) (maxAge : ℕ)
    (cookieConfig : Option CookieConfig) : Option (List NewCookie) :=
  match token with
  | none => some []
  | some text =>
    (encryptTokenCookie L config nonce text).map fun value =>
      [{ name, value, maxAge, config := cookieConfig }]

def sessionCookies (env : Env) (tokens : TokenEndpointResponse) (session : Session) :
    Option (List NewCookie) := do
  let names := config.cookieNames
  let configs := config.cookieConfigs
  let issued := issuedTokens config tokens
  let expiresIn := sessionExpiresIn config tokens
  let access ← tokenCookie L config env.accessNonce issued.accessToken names.bearerToken expiresIn
    configs.bearerToken
  let id ← tokenCookie L config env.idNonce issued.idToken names.idToken expiresIn configs.idToken
  let refresh ← tokenCookie L config env.refreshNonce issued.refreshToken names.refreshToken
    config.defaultRefreshTokenExpiresIn configs.refreshToken
  some (access++[⟨names.oauthExpires,session.expires,expiresIn,configs.oauthExpires⟩,
      ⟨names.oauthHmac,computeSessionHmac L config.hmacSecret session,expiresIn,
        configs.oauthHmac⟩]++id++refresh)

def issueSession (env : Env) (isHttps : Bool) (host : Str) (transaction : OAuthTransaction)
    (tokens : TokenEndpointResponse) : Option Response := do
  let session ← issuedSession config env host tokens
  let cookies ← sessionCookies L config env tokens session
  let location ← fromStr transaction.target
  let headers := cookies.foldl (fun headers cookie =>
    appendCookie headers cookie.name cookie.value (some cookie.maxAge) cookie.config
      config.cookieDomain isHttps) (addOauthResponseHeaders [(str "location", location)])
  some
    { status := 302
      headers := clearTransactionCookies headers config transaction.flowId isHttps }

def handleCallback (env : Env) (isHttps : Bool) (query : Str) (headers : HeaderMap) (host : Str) :
    Response :=
  match exchangeCallback L config env isHttps query headers with
  | .error response => response
  | .ok (transaction, tokens) =>
    (issueSession L config env isHttps host transaction tokens).getD
      (callbackFailure config 500 isHttps transaction.flowId)

/-- The part of the filter that a request is for. -/
inductive Route where
  | passThrough
  | noHost
  | signout
  | callback (host : Str)
  | session (host : Str)
  deriving DecidableEq

def route (request : Request) : Route :=
  if config.passThroughMatcher.any (· request) then .passThrough
  else
    match extractHost request with
    | none => .noHost
    | some host =>
      if request.pathAndQuery.any config.signoutPath then .signout
      else if request.pathAndQuery.any config.redirectPathMatcher then .callback host
      else .session host

/-- `apply_request`: the decision, and the request as it goes on. -/
def applyRequest (env : Env) (request : Request) : FilterDecision × Request :=
  match route config request with
  | .passThrough => (.continue, request)
  | .noHost => (.directResponse { status := 400 }, request)
  | .signout => (.directResponse (handleSignout config request), request)
  | .callback host =>
    (.directResponse (handleCallback L config env (requestIsHttps request) request.query
      request.headers host), request)
  | .session host =>
    if isAuthenticated L config env.now host request.headers then
      (.continue, { request with headers := authorizedHeaders L config request })
    else if config.denyRedirectMatcher.any (· request) then
      (.directResponse { status := 401 }, request)
    else (.directResponse (handleUnauthenticated L config env request), request)

/-- The request is accepted for its session. -/
def SessionPath (now : ℕ) (request : Request) : Prop :=
  ∃ host, route config request = .session host ∧
    isAuthenticated L config now host request.headers = true

variable {config} in
lemma extractHost_of_route {r : Request} {host : Str}
    (h : route config r = .session host) : extractHost r = some host := by
  revert h
  fun_cases route config r <;> intro h <;> cases h
  assumption

variable {L config} in
lemma isAuthenticated_eq_true {now : ℕ} {host : Str}
    (h : isAuthenticated L config now host headers = true) :
    ∃ s signature expiresAt, presentedSession L config host headers = some (s, signature) ∧
      parseDecimal maxInteger s.expires = some expiresAt ∧ now < expiresAt ∧
      verifySessionHmac L config.hmacSecret s signature = true := by
  unfold isAuthenticated at h
  split at h
  · simp at h
  next s signature hs =>
    split at h
    · simp at h
    · next expiresAt he =>
        simp only [Bool.and_eq_true,decide_eq_true_eq] at h
        exact ⟨s,signature,expiresAt,hs,he,h.1,h.2⟩

/-- A library to run the filter with: a signature is the end of the secret and the
message, and a sealed text is followed by zeros. -/
def plainLibrary : Library where
  hmac := fun secret message => ((secret++message).reverse++List.replicate 32 0).take 32
  length_hmac := fun secret message => by
    rw [List.length_take,List.length_append,List.length_replicate]
    omega
  sealText := fun _ _ text => some (text++List.replicate 16 0)
  openText := fun _ _ sealed =>
    if List.replicate 16 0 <:+ sealed then some (sealed.take (sealed.length - 16)) else none
  length_sealText := fun _ _ text sealed h => by
    cases h
    simp
  openText_sealText := fun _ _ text sealed h => by
    cases h
    simp
  isUtf8 := fun _ => true
  parseUrl := fun text =>
    if startsWith text (str "https://") then some { scheme := str "https", host := some (text.drop 8) }
    else none
  isPathAndQuery := fun text => startsWith text [slash]
  authorizationUrl := fun _ endpoint _ state _ _ => some (endpoint++str "?state=" ++ state)

def zeroNonce : Nonce := ⟨List.replicate 12 0,rfl⟩

def envAt (now : ℕ) : Env where
  now := now
  exchangedAt := now
  accessNonce := zeroNonce
  idNonce := zeroNonce
  refreshNonce := zeroNonce
  verifierNonce := zeroNonce

def loginConfig : OAuth2Config where
  authorizationEndpoint := str "https://p"
  hmacSecret := str "k"
  redirectUri := fun _ => str "https://h/cb"
  redirectPathMatcher := fun path => startsWith path (str "/cb")

def loginEnv (now : ℕ) : Env :=
  { envAt now with
    answer := some { accessToken := str "t", refreshToken := some (str "r") }
    flowBytes := [1,2,3]
    csrfBytes := [4,5,6]
    verifierBytes := List.replicate 33 7 }

def returnedCookies (response : Response) (elapsed : ℕ) : Str :=
  cookieString (liveCookies (response.headers.getAll (str "set-cookie")) elapsed)

def startRequest : Request where
  headers := [(str "host", str "h")]
  pathAndQuery := some (str "/a")

def callbackRequest : Request where
  headers := [(str "host", str "h"),(str "cookie", returnedCookies
    (handleUnauthenticated plainLibrary loginConfig (loginEnv 10) startRequest) 10)]
  pathAndQuery := some (str "/cb?code=c&state=AQID.BAUG")

def loginResponse (config : OAuth2Config) : Response :=
  handleCallback plainLibrary config (loginEnv 20) false callbackRequest.query
    callbackRequest.headers (str "h")

def laterRequest (config : OAuth2Config) (elapsed : ℕ) : Request where
  headers := [(str "host", str "h"),(str "cookie", returnedCookies (loginResponse config) elapsed)]

end ArionGateway.OAuth2Filter
