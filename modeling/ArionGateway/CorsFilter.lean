import ArionGateway.FetchCors
import ArionGateway.StringMatchers

/-!
# Cross-origin requests

On the way to the upstream the filter looks at the origin and answers preflights; on the way back
it puts the headers on the response that let the origin read it. An origin should read a response,
or send a request after its preflight, only if a matcher accepts the origin and the method and
headers are allowed. The filter takes every matcher that accepts the text "*" for the wildcard,
and it marks the origin as allowed before it looks at the method and the headers of a preflight.
`sound_iff` says for which inputs this goes wrong.
-/
namespace ArionGateway.CorsFilter
open ByteStrings HttpHeaders TextEncodings FetchCors StringMatchers
open HeaderMap (getAll_append_of_ne getAll_insert_of_ne getAll_insert_self insert)

variable {ρ : Type} [RegexEngine ρ]

def originHeader : Str := str "origin"
def accessControlRequestMethod : Str := str "access-control-request-method"
def accessControlRequestHeaders : Str := str "access-control-request-headers"
def accessControlExposeHeaders : Str := str "access-control-expose-headers"
def accessControlMaxAge : Str := str "access-control-max-age"
def vary : Str := str "vary"
def mcpSessionId : Str := str "mcp-session-id"

structure CorsConfig (ρ : Type) where
  allowOrigins : List (StringMatcher ρ)
  allowMethods : List Token
  allowHeaders : List Str
  exposeHeaders : List Str
  allowCredentials : Bool
  maxAge : Option ℕ
  forwardNotMatchingPreflights : Bool := true

structure Request where
  method : Token
  headers : HeaderMap

def Request.isPreflight (req : Request) : Bool :=
  req.method.text == str "OPTIONS" && req.headers.containsKey accessControlRequestMethod

inductive FilterDecision where
  | continue
  | directResponse (response : Response)
  deriving DecidableEq

structure Cors (ρ : Type) where
  inner : CorsConfig ρ
  validatedOrigin : Option Str := none
  isWildcardResponse : Bool := false

namespace CorsConfig
variable (conf : CorsConfig ρ)

def determineAllowedOrigin (requestOrigin : Str) : Option (Str × Bool) :=
  if !conf.allowCredentials && conf.allowOrigins.any (·.matchesText (str "*")) then
    some (str "*", true)
  else if conf.allowOrigins.any
      (fun o => o.matchesText (str "*") || o.matchesText requestOrigin) then
    (fromStr requestOrigin).map (·, false)
  else none

omit [RegexEngine ρ]

def methodsWildcard : Bool := conf.allowMethods.any (·.text == str "*")

def headersWildcard : Bool := conf.allowHeaders.any (· == str "*")

def isAllowedHeader (requestedHeader : Str) : Bool :=
  requestedHeader == mcpSessionId ||
    conf.allowHeaders.any (toAsciiLowercase · == requestedHeader)

/-- The checks of a preflight; what is left of it is the method and the first line of
requested headers, if it is readable. -/
def checkPreflight (req : Request) : Option (Token × Option Str) := do
  let reqMethodHdr ← req.headers.get accessControlRequestMethod
  let reqMethod ← Token.ofBytes reqMethodHdr
  guard (conf.methodsWildcard || conf.allowMethods.contains reqMethod)
  let requestedHeaders := (req.headers.get accessControlRequestHeaders).bind toStr
  guard (conf.headersWildcard || requestedHeaders.all fun line =>
    ((line.splitOn comma).map fun s => toAsciiLowercase (trim s)).all fun requestedHeader =>
      requestedHeader.isEmpty || conf.isAllowedHeader requestedHeader)
  return (reqMethod, requestedHeaders)

def methodsStr (requestedMethod : Token) : Str :=
  if conf.methodsWildcard then
    if conf.allowCredentials then requestedMethod.text else str "*"
  else (str ", ").intercalate (conf.allowMethods.map Token.text)

def headersStr (requestedHeaders : Option Str) : Option Str :=
  match conf.headersWildcard, conf.allowCredentials, requestedHeaders with
  | true, false, _ => some (str "*")
  | _, _, some requested => some requested
  | _, _, none => none

end CorsConfig

/-- A header with a text, if the text can be written. -/
def insertText (headers : HeaderMap) (name text : Str) : HeaderMap :=
  (fromStr text).elim headers (headers.insert name)

def emptyResponse : FilterDecision := .directResponse { status := 204 }

namespace Cors
variable (cors : Cors ρ)

omit [RegexEngine ρ] in
def ofConfig (conf : CorsConfig ρ) : Cors ρ := { inner := conf }

def variesOnOrigin : Bool := !cors.isWildcardResponse || cors.inner.allowCredentials

def preflightHeaders (allowedOrigin : Str) (requestedMethod : Token)
    (requestedHeaders : Option Str) : HeaderMap :=
  let conf := cors.inner
  let headers := insert [] accessControlAllowOrigin allowedOrigin
  let headers := if conf.allowCredentials then
    headers.insert accessControlAllowCredentials (str "true") else headers
  let headers := insertText headers accessControlAllowMethods (conf.methodsStr requestedMethod)
  let headers := (conf.headersStr requestedHeaders).elim headers
    (insertText headers accessControlAllowHeaders)
  let headers := conf.maxAge.elim headers fun age =>
    insertText headers accessControlMaxAge (formatDecimal age)
  let headers := if conf.exposeHeaders.isEmpty then headers else
    insertText headers accessControlExposeHeaders ((str ", ").intercalate conf.exposeHeaders)
  let headers := if cors.variesOnOrigin then headers.append vary (str "Origin") else headers
  let headers := headers.append vary (str "Access-Control-Request-Method")
  headers.append vary (str "Access-Control-Request-Headers")

def generatePreflightResponse (requestedMethod : Token) (requestedHeaders : Option Str) :
    FilterDecision :=
  match cors.validatedOrigin with
  | none => .directResponse { status := 500 }
  | some allowedOrigin => .directResponse {
      status := 204
      headers := cors.preflightHeaders allowedOrigin requestedMethod requestedHeaders }

def applyRequest (req : Request) : FilterDecision × Cors ρ :=
  match (req.headers.get originHeader).bind toStr with
  | none => (.continue, cors)
  | some originStr =>
    match cors.inner.determineAllowedOrigin originStr with
    | some (value, isWildcard) =>
      let cors := { cors with validatedOrigin := some value, isWildcardResponse := isWildcard }
      if req.isPreflight then
        match cors.inner.checkPreflight req with
        | none => (.continue, cors)
        | some (reqMethod, requestedHeaders) =>
          (cors.generatePreflightResponse reqMethod requestedHeaders, cors)
      else (.continue, cors)
    | none =>
      if req.isPreflight && !cors.inner.forwardNotMatchingPreflights then (emptyResponse, cors)
      else (.continue, cors)

def responseHeaders (allowedOrigin : Str) (headers : HeaderMap) : HeaderMap :=
  let conf := cors.inner
  let headers := headers.insert accessControlAllowOrigin allowedOrigin
  let headers := if conf.allowCredentials then
    headers.insert accessControlAllowCredentials (str "true") else headers
  let headers := if cors.variesOnOrigin then headers.append vary (str "Origin") else headers
  -- the session id is exposed only if the response carries it
  let exposeHeaders :=
    if headers.containsKey mcpSessionId &&
        !conf.exposeHeaders.any (eqIgnoreAsciiCase · mcpSessionId) then
      conf.exposeHeaders++[mcpSessionId]
    else conf.exposeHeaders
  if exposeHeaders.isEmpty then headers else
    insertText headers accessControlExposeHeaders ((str ", ").intercalate exposeHeaders)

def applyResponse (response : Response) : Response :=
  match cors.validatedOrigin with
  | none => response
  | some allowedOrigin =>
    { response with headers := cors.responseHeaders allowedOrigin response.headers }

end Cors

/-- What the client gets: the filter's own answer, or the response that comes back for the
request with the filter's headers. -/
def exchange (conf : CorsConfig ρ) (req : Request) (upstream : Response) : Response :=
  match (Cors.ofConfig conf).applyRequest req with
  | (.directResponse response, _) => response
  | (.continue, cors) => cors.applyResponse upstream

variable {he : HeaderMap} {name other t : Str}

lemma getAll_insertText_of_ne (h : other ≠ name) :
    (insertText he name t).getAll other = he.getAll other := by
  unfold insertText
  cases fromStr t with
  | none => rfl
  | some value => exact getAll_insert_of_ne h

lemma getAll_insertText_self (h : fromStr t = some t) :
    (insertText he name t).getAll name = [t] := by
  simp [insertText,h]

lemma getAll_elim_of_ne {α : Type} (o : Option α) (f : α → Str) (h : other ≠ name) :
    (o.elim he fun a => insertText he name (f a)).getAll other = he.getAll other := by
  cases o with
  | none => rfl
  | some a => exact getAll_insertText_of_ne h

lemma getAll_elim_insertText (o : Option Str) (h : other ≠ name) :
    (o.elim he (insertText he name)).getAll other = he.getAll other := getAll_elim_of_ne o id h

lemma getAll_ite (c : Prop) [Decidable c] (first second : HeaderMap) :
    (if c then first else second).getAll name =
      if c then first.getAll name else second.getAll name := apply_ite ..

namespace Cors
variable (c : Cors ρ) (a : Str) {name : Str}

omit [RegexEngine ρ]

/-- The headers that `apply_response` writes. -/
def responseNames : List Str :=
  [accessControlAllowOrigin,accessControlAllowCredentials,vary,accessControlExposeHeaders]

variable (headers : HeaderMap)

lemma getAll_responseHeaders (h : name ∉ responseNames) :
    (c.responseHeaders a headers).getAll name = headers.getAll name := by
  simp only [responseNames,List.mem_cons,List.not_mem_nil,or_false,not_or] at h
  obtain ⟨ho,hc,hv,he⟩ := h
  simp [responseHeaders,getAll_ite,getAll_insertText_of_ne he,
    getAll_append_of_ne hv,getAll_insert_of_ne hc, getAll_insert_of_ne ho]

lemma getAll_responseHeaders_origin :
    (c.responseHeaders a headers).getAll accessControlAllowOrigin = [a] := by
  simp +decide only [responseHeaders,getAll_ite,getAll_insertText_of_ne,getAll_append_of_ne,
    getAll_insert_of_ne,getAll_insert_self,ite_self]

lemma getAll_responseHeaders_credentials :
    (c.responseHeaders a headers).getAll accessControlAllowCredentials =
      if c.inner.allowCredentials then [str "true"]
      else headers.getAll accessControlAllowCredentials := by
  simp +decide only [responseHeaders,getAll_ite,getAll_insertText_of_ne,getAll_append_of_ne,
    getAll_insert_self,getAll_insert_of_ne,ite_self]

lemma granted_applyResponse (f : Fetch) (upstream : Response) :
    f.granted (c.applyResponse upstream) = f.granted upstream := by
  unfold applyResponse
  cases c.validatedOrigin with
  | none => rfl
  | some a =>
    have hm : accessControlAllowMethods ∉ responseNames := by decide
    have hh : accessControlAllowHeaders ∉ responseNames := by decide
    apply granted_congr
    · rfl
    · exact c.getAll_responseHeaders a _ hm
    · exact c.getAll_responseHeaders a _ hh

variable (r : Token) (rh : Option Str)

lemma getAll_preflightHeaders_origin : (c.preflightHeaders a r rh).getAll
      accessControlAllowOrigin = [a] := by
  simp +decide only [preflightHeaders,getAll_append_of_ne,getAll_ite,getAll_insertText_of_ne,
    getAll_elim_of_ne,getAll_elim_insertText,getAll_insert_of_ne,getAll_insert_self,ite_self]

lemma getAll_preflightHeaders_methods (h : fromStr (c.inner.methodsStr r) =
      some (c.inner.methodsStr r)) : (c.preflightHeaders a r rh).getAll
      accessControlAllowMethods = [c.inner.methodsStr r] := by
  simp +decide only [preflightHeaders,getAll_append_of_ne,getAll_ite,getAll_insertText_of_ne,
    getAll_elim_of_ne,getAll_elim_insertText,getAll_insertText_self h,ite_self]

lemma getAll_preflightHeaders_headers
    (h : ∀ text ∈ c.inner.headersStr rh, fromStr text = some text) :
    (c.preflightHeaders a r rh).getAll
      accessControlAllowHeaders = (c.inner.headersStr rh).toList := by
  simp +decide only [preflightHeaders,getAll_append_of_ne,getAll_ite,getAll_insertText_of_ne,
    getAll_elim_of_ne,ite_self]
  cases ht : c.inner.headersStr rh with
  | none =>
    simp +decide only [Option.elim_none,getAll_insertText_of_ne,getAll_ite,getAll_insert_of_ne,
      ite_self,Option.toList_none]
  | some text => exact getAll_insertText_self (h text ht)

end Cors

end ArionGateway.CorsFilter
