import ArionGateway.OAuth2Filter

/-!
# The authorization header of a protected request

A request with a valid session goes on with the access token of the session in
its authorization header if the filter is configured to forward it, if the
session has such a token and if the token can stand in a header. Otherwise the
filter leaves the header as the client sent it, whatever
`preserve_authorization_header` says. No configuration that is converted sets
both flags, so the flag has no effect in any of them.
-/
namespace ArionGateway.OAuth2Authorization
open ByteStrings HttpHeaders OAuth2Filter

variable {L : Library} {config : OAuth2Config} {env env₁ env₂ : Env} {request r₁ r₂ : Request}

def authorization : Str := str "authorization"

lemma applyRequest_of_sessionPath (h : SessionPath L config env.now request) :
    applyRequest L config env request =
      (.continue, { request with headers := authorizedHeaders L config request }) := by
  obtain ⟨host,hr,ha⟩ := h
  simp [applyRequest,hr,ha]

def upstreamAuthorization (L : Library) (config : OAuth2Config) (env : Env) (request : Request) :
    List Str :=
  (applyRequest L config env request).2.headers.getAll authorization

def accessToken (L : Library) (config : OAuth2Config) (request : Request) : Option Str :=
  (presentedTokens L config request.headers).accessToken

def bearer (token : Str) : Str := str "Bearer " ++ token

def Forwards (L : Library) (config : OAuth2Config) (request : Request) : Prop :=
  config.forwardBearerToken = true ∧
    ∃ token, accessToken L config request = some token ∧ ∀ b ∈ bearer token, isValid b = true

section

variable (hp : config.preserveAuthorizationHeader = false)
include hp

lemma upstreamAuthorization_of_forwards (hs : SessionPath L config env.now request)
    (hf : Forwards L config request) : ∃ token, accessToken L config request = some token ∧
      upstreamAuthorization L config env request = [bearer token] := by
  obtain ⟨hfw,token,ht,hv⟩ := hf
  refine ⟨token,ht,?_⟩
  have hb : bearerHeader config request token = some (bearer token) := by
    have ha : (bearer token).all isValid = true := List.all_eq_true.mpr hv
    rw [bearer] at ha
    simp [bearerHeader,hp,hfw,fromStr,ha,bearer]
  rw [accessToken] at ht
  rw [upstreamAuthorization,applyRequest_of_sessionPath hs]
  simp only [authorizedHeaders,ht,Option.bind_some,hb]
  exact HeaderMap.getAll_insert_self

lemma upstreamAuthorization_of_not_forwards (hs : SessionPath L config env.now request)
    (hf : ¬ Forwards L config request) :
    upstreamAuthorization L config env request = request.headers.getAll authorization := by
  have hn : (accessToken L config request).bind (bearerHeader config request) = none := by
    rw [Option.bind_eq_none_iff]
    intro token ht
    cases hfw : config.forwardBearerToken with
    | false => simp [bearerHeader,hfw]
    | true =>
      have hal : ¬ (bearer token).all isValid = true :=
        fun ha => hf ⟨hfw,token,ht,List.all_eq_true.mp ha⟩
      rw [bearer] at hal
      simp [bearerHeader,fromStr,hal]
  rw [accessToken] at hn
  rw [upstreamAuthorization,applyRequest_of_sessionPath hs]
  simp only [authorizedHeaders,hn]

end

/-- Two requests that differ in their authorization headers only. -/
structure SameButAuthorization (r₁ r₂ : Request) : Prop where
  headers : r₁.headers.remove authorization = r₂.headers.remove authorization
  authority : r₁.authority = r₂.authority
  https : r₁.https = r₂.https
  pathAndQuery : r₁.pathAndQuery = r₂.pathAndQuery

lemma SameButAuthorization.accessToken (h : SameButAuthorization r₁ r₂) :
    accessToken L config r₁ = accessToken L config r₂ := by
  have hne : str "cookie" ≠ authorization := by decide
  have hc : r₁.headers.getAll (str "cookie") = r₂.headers.getAll (str "cookie") := by
    rw [← HeaderMap.getAll_remove_of_ne hne,h.headers,HeaderMap.getAll_remove_of_ne hne]
  simp only [OAuth2Authorization.accessToken,presentedTokens,extractSessionCookies,cookiePairs,hc]

lemma SameButAuthorization.forwards_iff (h : SameButAuthorization r₁ r₂) :
    Forwards L config r₁ ↔ Forwards L config r₂ := by
  simp only [Forwards,h.accessToken]

/-- Two requests with the same session that differ in their authorization headers
reach the upstream with the same one, absent or with the access token of the
session, if and only if the token is forwarded or they came with the same such
header. -/
theorem upstreamAuthorization_eq_iff (hp : config.preserveAuthorizationHeader = false)
    (hsame : SameButAuthorization r₁ r₂) (h₁ : SessionPath L config env₁.now r₁)
    (h₂ : SessionPath L config env₂.now r₂) :
    (upstreamAuthorization L config env₁ r₁ = upstreamAuthorization L config env₂ r₂ ∧
      (upstreamAuthorization L config env₁ r₁ = [] ∨ ∃ token, accessToken L config r₁ = some token ∧
          upstreamAuthorization L config env₁ r₁ = [bearer token])) ↔
    (config.forwardBearerToken = true ∧
      ∃ token, accessToken L config r₁ = some token ∧ ∀ b ∈ bearer token, isValid b = true) ∨
    (r₁.headers.getAll authorization = r₂.headers.getAll authorization ∧
      (r₁.headers.getAll authorization = [] ∨ ∃ token, accessToken L config r₁ = some token ∧
          r₁.headers.getAll authorization = [bearer token])) := by
  by_cases hf : Forwards L config r₁
  · obtain ⟨token,ht,hup⟩ := upstreamAuthorization_of_forwards hp h₁ hf
    obtain ⟨token',ht',hu⟩ := upstreamAuthorization_of_forwards hp h₂ (hsame.forwards_iff.mp hf)
    have heq : token = token' := Option.some.inj (ht.symm.trans (hsame.accessToken.trans ht'))
    constructor
    · exact fun _ => .inl hf
    · exact fun _ => ⟨by rw [hup,hu,heq],.inr ⟨token,ht,hup⟩⟩
  · have hf₂ : ¬ Forwards L config r₂ := fun h => hf (hsame.forwards_iff.mpr h)
    rw [upstreamAuthorization_of_not_forwards hp h₁ hf,
      upstreamAuthorization_of_not_forwards hp h₂ hf₂]
    constructor
    · exact fun h => .inr h
    · rintro (h | h)
      · exact absurd h hf
      · exact h

def protecting (forward : Bool) : OAuth2Config where
  hmacSecret := str "k"
  forwardBearerToken := forward
  disableTokenEncryption := true

def signedSession : Session where
  domain := str "h"
  expires := str "100"
  accessToken := str "t"
  idToken := []
  refreshToken := []

def withSession (headers : HeaderMap) : Request where
  headers := [(str "host", str "h"),
    (str "cookie", str "OauthHMAC=" ++ computeSessionHmac plainLibrary (str "k") signedSession),
    (str "cookie", str "OauthExpires=100; BearerToken=t")]++headers

/-- With the default flags the upstream of a protected route sees the header that
the client chose. -/
theorem client_authorization_reaches_upstream :
    (applyRequest plainLibrary (protecting false) (envAt 0)
      (withSession [(authorization, str "Basic admin")])).1 = .continue ∧
    upstreamAuthorization plainLibrary (protecting false) (envAt 0)
      (withSession [(authorization, str "Basic admin")]) = [str "Basic admin"] ∧
    upstreamAuthorization plainLibrary (protecting false) (envAt 0) (withSession []) = [] := by
  decide

theorem session_token_replaces_authorization :
    upstreamAuthorization plainLibrary (protecting true) (envAt 0)
      (withSession [(authorization, str "Basic admin")]) =
    upstreamAuthorization plainLibrary (protecting true) (envAt 0) (withSession []) := by
  have h : ∀ headers, (headers = [(authorization, str "Basic admin")] ∨ headers = []) →
      SessionPath plainLibrary (protecting true) (envAt 0).now (withSession headers) := by
    intro headers hh
    refine ⟨str "h",?_⟩
    rcases hh with rfl | rfl <;> decide
  refine (Iff.mpr (upstreamAuthorization_eq_iff rfl ?_ (h _ (.inl rfl)) (h _ (.inr rfl)))
    (.inl ⟨rfl,str "t",?_,?_⟩)).1
  · exact ⟨by decide,rfl,rfl,rfl⟩
  · decide
  · decide

end ArionGateway.OAuth2Authorization
