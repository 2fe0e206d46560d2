import ArionGateway.OAuth2Filter

/-!
# Signed sessions and transactions

Filters with one key sign two kinds of byte strings: sessions, as fields joined
by newlines, and transactions, as fields joined by dots after a fixed context.
The fields of either kind can be told apart again, and no session has the bytes
of a transaction. Hence whatever a filter accepts was signed for that purpose,
with exactly the fields that are read, as long as signatures and sealed texts
cannot be forged and no token that is issued has a newline.
-/
namespace ArionGateway.OAuth2Signatures
open ByteStrings HttpHeaders DelimitedText TextEncodings UserAgentCookies OAuth2Filter Option
  FallibleSteps List

structure Event where
  config : OAuth2Config
  env : Env
  request : Request

inductive Signed where
  | session (s : Session)
  | transaction (t : Transaction)
  deriving DecidableEq

def Signed.bytes : Signed → Str
  | .session s => s.bytes
  | .transaction t => t.bytes

variable (L : Library)

def exchangedTokens (e : Event) : Option (Str × TokenEndpointResponse) :=
  match route e.config e.request with
  | .callback host =>
    match exchangeCallback L e.config e.env (requestIsHttps e.request) e.request.query
        e.request.headers with
    | .ok (_, tokens) => some (host, tokens)
    | .error _ => none
  | _ => none

def signedSession (e : Event) : Option Session := do
  let (host, tokens) ← exchangedTokens L e
  let session ← issuedSession e.config e.env host tokens
  (sessionCookies L e.config e.env tokens session).map fun _ => session

def signedTransaction (e : Event) : Option Transaction :=
  match route e.config e.request with
  | .session host =>
    if isAuthenticated L e.config e.env.now host e.request.headers ∨
        e.config.denyRedirectMatcher.any (· e.request) then
      none
    else startedTransaction L e.config e.env e.request
  | _ => none

def signedBy (e : Event) : List Signed :=
  (signedSession L e).toList.map .session++(signedTransaction L e).toList.map .transaction

/-- The texts that are sealed when a request is handled: tokens and code verifiers. -/
def sealedBy (e : Event) : List Str :=
  (match exchangedTokens L e with
    | some (host, tokens) =>
      if e.config.disableTokenEncryption ∨ (issuedSession e.config e.env host tokens).isNone then []
      else (issuedTokens e.config tokens).toList
    | none => []) ++ (signedTransaction L e).toList.map fun _ => verifierPayload e.env

def signedWith (secret : Str) (earlier : List Event) : List Signed :=
  (earlier.filter fun e => e.config.hmacSecret = secret).flatMap (signedBy L)

def sealedWith (secret : Str) (earlier : List Event) : List Str :=
  (earlier.filter fun e => e.config.hmacSecret = secret).flatMap (sealedBy L)

def verifiedSession (e : Event) : Option Session := do
  let host ← extractHost e.request
  let (session, signature) ← presentedSession L e.config host e.request.headers
  if verifySessionHmac L e.config.hmacSecret session signature then some session else none

def verifiedPayload (secret cookie : Str) : Option Str := do
  let (payload, signature) ← rsplitOnce dot cookie
  if Alphabet.urlSafe.decode signature = some (L.hmac secret (transactionContext++payload)) then
    some payload
  else none

/-- The byte strings that the signatures in a request are right for. -/
def verifiedBytes (e : Event) : List Str := (verifiedSession L e).toList.map Session.bytes ++
    ((cookiePairs e.request.headers).filterMap fun pair =>
      verifiedPayload L e.config.hmacSecret pair.2).map (transactionContext++·)

/-- The texts that the token cookies of a request open to. -/
def openedTexts (e : Event) : List Str :=
  if e.config.disableTokenEncryption then []
  else (presentedTokens L e.config e.request.headers).toList

/-- Signatures are right only for what was signed before, and only what was
sealed before is opened. -/
structure Unforged (earlier : List Event) (e : Event) : Prop where
  signed : ∀ m ∈ verifiedBytes L e, m ∈ (signedWith L e.config.hmacSecret earlier).map Signed.bytes
  sealed : ∀ text ∈ openedTexts L e, text ∈ sealedWith L e.config.hmacSecret earlier

def TokensOneLine (tokens : TokenEndpointResponse) : Prop :=
  newline ∉ tokens.accessToken ∧ (∀ text ∈ tokens.idToken, newline ∉ text) ∧
    ∀ text ∈ tokens.refreshToken, newline ∉ text

variable {L} {c : OAuth2Config} {tokens : TokenEndpointResponse}

lemma issuedTokens_oneLine (h : TokensOneLine tokens) :
    ∀ text ∈ (issuedTokens c tokens).toList, newline ∉ text := by
  obtain ⟨ha,hid,hr⟩ := h
  intro text ht
  simp only [SessionTokens.toList,issuedTokens,mem_append,mem_toList] at ht
  rcases ht with (ht | ht) | ht
  · split at ht
    · simp at ht
    · cases ht
      exact ha
  · split at ht
    · simp at ht
    · exact hid text ht
  · split at ht
    · exact hr text ht
    · simp at ht

/-- The fields of a session after the domain are on one line each. -/
structure FieldsOneLine (s : Session) : Prop where
  expires : newline ∉ s.expires
  accessToken : newline ∉ s.accessToken
  idToken : newline ∉ s.idToken
  refreshToken : newline ∉ s.refreshToken

lemma newline_not_mem_getD {token : Option Str} (h : ∀ te ∈ token, newline ∉ te) :
    newline ∉ token.getD [] := by
  cases token with
  | none => simp
  | some te => exact h te rfl

lemma fieldsOneLine_session {tokens : SessionTokens} {domain expires : Str}
    (he : newline ∉ expires) (ht : ∀ te ∈ tokens.toList, newline ∉ te) :
    FieldsOneLine (tokens.session domain expires) where
  expires := he
  accessToken := newline_not_mem_getD fun te h => ht te (by simp_all [SessionTokens.toList])
  idToken := newline_not_mem_getD fun te h => ht te (by simp_all [SessionTokens.toList])
  refreshToken := newline_not_mem_getD fun te h => ht te (by simp_all [SessionTokens.toList])

lemma Session.eq_of_bytes_eq {s s' : Session} (h : s.bytes = s'.bytes) (hs : FieldsOneLine s)
    (hs' : FieldsOneLine s') : s = s' := by
  have hj : ∀ x : Session, x.bytes = (((x.domain++newline::x.expires) ++
      newline::x.accessToken)++newline::x.idToken)++newline::x.refreshToken := by
    simp [Session.bytes]
  rw [hj,hj] at h
  obtain ⟨h,hr⟩ := append_cons_inj h hs.refreshToken hs'.refreshToken
  obtain ⟨h,hid⟩ := append_cons_inj h hs.idToken hs'.idToken
  obtain ⟨h,ha⟩ := append_cons_inj h hs.accessToken hs'.accessToken
  obtain ⟨hd,he⟩ := append_cons_inj h hs.expires hs'.expires
  cases s
  simp_all

lemma newline_mem_bytes (s : Session) : newline ∈ s.bytes := by
  simp [Session.bytes]

/-- A transaction whose flow and nonce are random tokens. -/
structure Started (t : Transaction) : Prop where
  flowId : ∃ random, t.flowId = randomUrlsafeToken random
  nonce : ∃ random, t.nonce = randomUrlsafeToken random

variable {b : UInt8}

lemma ne_separators {p : UInt8 → Bool} (hd : p dot = false) (hn : p newline = false)
    (h : p b = true) : b ≠ dot ∧ b ≠ newline := by
  constructor
  · rintro rfl
    rw [hd] at h
    cases h
  · rintro rfl
    rw [hn] at h
    cases h

lemma digit_ne (h : isDigit b = true) : b ≠ dot ∧ b ≠ newline := ne_separators rfl rfl h

lemma encode_ne {bt : Str} (h : b ∈ Alphabet.urlSafe.encode bt) : b ≠ dot ∧ b ≠ newline :=
  ne_separators rfl rfl (Alphabet.contains_of_mem_encode _ h)

variable {t : Transaction}

lemma Started.fields_ne (h : Started t) : ∀ l ∈ t.fields, ∀ b ∈ l, b ≠ dot ∧ b ≠ newline := by
  obtain ⟨⟨f,hf⟩,⟨no,hn⟩⟩ := h
  intro l hl b hb
  simp only [Transaction.fields,mem_cons,not_mem_nil,or_false] at hl
  rcases hl with rfl | rfl | rfl | rfl | rfl | rfl
  · have hv : ∀ b ∈ transactionCookieVersion, b ≠ dot ∧ b ≠ newline := by decide
    exact hv b hb
  · exact encode_ne (hf ▸ hb)
  · exact encode_ne (hn ▸ hb)
  · exact digit_ne (isDigit_of_mem_formatDecimal hb)
  · exact encode_ne hb
  · exact encode_ne hb

lemma Started.splitOn_payload (h : Started t) : t.payload.splitOn dot = t.fields :=
  splitOn_intercalate dot (fun l hl hd => (h.fields_ne l hl dot hd).1 rfl) (by
    simp [Transaction.fields])

lemma Started.newline_not_mem_bytes (h : Started t) : newline ∉ t.bytes := by
  intro hm
  rcases mem_append.mp hm with hm | hm
  · exact nomatch hm
  · rcases mem_intercalate hm with hd | ⟨l,hl,hm⟩
    · exact nomatch hd
    · exact (h.fields_ne l hl newline hm).2 rfl

variable {e : Event}

lemma started_of_signedTransaction (h : signedTransaction L e = some t) : Started t := by
  unfold signedTransaction at h
  split at h
  · split at h
    · simp at h
    · obtain ⟨ru,-,rfl⟩ := map_eq_some_iff.mp h
      exact ⟨⟨_,rfl⟩,⟨_,rfl⟩⟩
  · simp at h

/-- The answers of token endpoints have tokens on one line each. -/
def Event.TokensOneLine (e : Event) : Prop :=
  ∀ tokens ∈ e.env.answer, OAuth2Signatures.TokensOneLine tokens

lemma answer_of_exchangedTokens {host : Str} (h : exchangedTokens L e = some (host, tokens)) :
    e.env.answer = some tokens := by
  unfold exchangedTokens at h
  split at h
  · split at h
    next t tokens' he =>
      obtain ⟨rfl,rfl⟩ : _ = host ∧ tokens' = tokens := by simpa using h
      exact answer_of_exchangeCallback he
    · simp at h
  · simp at h

lemma fieldsOneLine_of_signedSession {s : Session} (he : e.TokensOneLine)
    (h : signedSession L e = some s) : FieldsOneLine s := by
  obtain ⟨⟨ho,tokens⟩,hex,h⟩ := bind_eq_some_iff.mp h
  obtain ⟨se,hi,h⟩ := bind_eq_some_iff.mp h
  obtain ⟨-,-,rfl⟩ := map_eq_some_iff.mp h
  unfold issuedSession at hi
  simp only at hi
  split at hi
  · cases hi
    refine fieldsOneLine_session ?_ ?_
    · exact fun hm => (digit_ne (isDigit_of_mem_formatDecimal hm)).2 rfl
    · exact issuedTokens_oneLine (he tokens (answer_of_exchangedTokens hex))
  · simp at hi

lemma newline_not_mem_verifierPayload (env : Env) : newline ∉ verifierPayload env := by
  intro hm
  rcases mem_append.mp hm with hm | hm
  · exact (digit_ne (isDigit_of_mem_formatDecimal hm)).2 rfl
  · rcases mem_cons.mp hm with hm | hm
    · exact nomatch hm
    · exact (encode_ne hm).2 rfl

lemma newline_not_mem_of_sealedBy (he : e.TokensOneLine) {text : Str} (h : text ∈ sealedBy L e) :
    newline ∉ text := by
  rcases mem_append.mp h with h | h
  · split at h
    next host tokens hex =>
      split at h
      · simp at h
      · exact issuedTokens_oneLine (he tokens (answer_of_exchangedTokens hex)) text h
    · simp at h
  · obtain ⟨-,-,rfl⟩ := mem_map.mp h
    exact newline_not_mem_verifierPayload e.env

variable {he : HeaderMap}

lemma newline_not_mem_of_cookiePairs {p : Str × Str} (h : p ∈ cookiePairs he) : newline ∉ p.2 := by
  obtain ⟨l,hl,hp⟩ := mem_flatMap.mp h
  obtain ⟨v,-,hva⟩ := mem_filterMap.mp hl
  obtain ⟨rfl,hv⟩ := toStr_eq_some_iff.mp hva
  exact fun hm => absurd (hv newline (subset_of_mem_readPairs hp hm)) (by decide)

def SessionCookies.values (cookies : SessionCookies) : List Str :=
  cookies.accessToken.toList++cookies.hmac.toList++cookies.expires.toList ++
    cookies.idToken.toList++cookies.refreshToken.toList

variable {n : CookieNames} {cookies : SessionCookies}
open SessionCookies (values add)

lemma mem_values_add {p : Str × Str} {v : Str} (h : v ∈ values (cookies.add n p)) :
    v = p.2 ∨ v ∈ values cookies := by
  unfold add at h
  simp only [values] at h ⊢
  grind

lemma mem_values_foldl {pa : List (Str × Str)} {v : Str}
    (h : v ∈ values (pa.foldl (add n) cookies)) : (∃ pr ∈ pa, v = pr.2) ∨ v ∈ values cookies := by
  induction pa generalizing cookies with
  | nil => exact .inr h
  | cons pr pa ih =>
    rcases ih h with ⟨p,hp,hv⟩ | hv
    · exact .inl ⟨p,mem_cons_of_mem pr hp,hv⟩
    · rcases mem_values_add hv with hv | hv
      · exact .inl ⟨pr,mem_cons_self,hv⟩
      · exact .inr hv

lemma newline_not_mem_of_values {v : Str}
    (h : v ∈ values (extractSessionCookies he n)) : newline ∉ v := by
  rcases mem_values_foldl h with ⟨pr,hp,rfl⟩ | h
  · exact newline_not_mem_of_cookiePairs hp
  · simp [values] at h

variable {ea : List Event} {e : Event} {s : Session}

lemma mem_signedWith {se : Str} {x : Signed} :
    x ∈ signedWith L se ea ↔ ∃ e' ∈ ea, e'.config.hmacSecret = se ∧ x ∈ signedBy L e' := by
  simp [signedWith,and_assoc]

lemma transaction_mem_signedBy {t : Transaction} :
    .transaction t ∈ signedBy L e ↔ signedTransaction L e = some t := by
  simp [signedBy]

section

variable (ht : ∀ e' ∈ ea, e'.TokensOneLine) (h : Unforged L ea e)
include ht h

lemma presentedTokens_oneLine :
    ∀ text ∈ (presentedTokens L e.config e.request.headers).toList, newline ∉ text := by
  intro text hte
  by_cases hp : e.config.disableTokenEncryption = true
  · -- Without encryption the tokens are the values of the cookies.
    have hd : decryptTokenCookie L e.config = some := by
      funext value
      simp [decryptTokenCookie,hp]
    have hv : text ∈ values (extractSessionCookies e.request.headers e.config.cookieNames) := by
      simp only [SessionTokens.toList,presentedTokens,hd,bind_fun_some,values,mem_append] at hte ⊢
      tauto
    exact newline_not_mem_of_values hv
  · have ho := h.sealed text (by simpa [openedTexts,hp] using hte)
    obtain ⟨e',he',hse⟩ := mem_flatMap.mp ho
    exact newline_not_mem_of_sealedBy (ht e' (mem_filter.mp he').1) hse

lemma presentedSession_oneLine {host signature : Str}
    (hs : presentedSession L e.config host e.request.headers = some (s, signature)) :
    FieldsOneLine s := by
  obtain ⟨hmac,-,hs⟩ := bind_eq_some_iff.mp hs
  obtain ⟨ex,he,hs⟩ := bind_eq_some_iff.mp hs
  obtain ⟨rfl,rfl⟩ := Prod.mk.injEq .. ▸ some.inj hs
  have hv : ex ∈ values (extractSessionCookies e.request.headers e.config.cookieNames) := by
    simp [values,he]
  exact fieldsOneLine_session (newline_not_mem_of_values hv) (presentedTokens_oneLine ht h)

lemma signed_of_verifiedSession {host si : Str} (hh : extractHost e.request = some host)
    (hs : presentedSession L e.config host e.request.headers = some (s, si))
    (hv : verifySessionHmac L e.config.hmacSecret s si = true) :
    ∃ e' ∈ ea, e'.config.hmacSecret = e.config.hmacSecret ∧ signedSession L e' = some s := by
  have hve : verifiedSession L e = some s := by
    simp [verifiedSession,hh,hs,hv]
  obtain ⟨x,hx,hb⟩ := mem_map.mp (h.signed s.bytes (by simp [verifiedBytes,hve]))
  obtain ⟨e',he',hk,hx⟩ := mem_signedWith.mp hx
  cases x with
  | session s' =>
    have hsi : signedSession L e' = some s' := by simpa [signedBy] using hx
    have heq : s' = s := Session.eq_of_bytes_eq hb
      (fieldsOneLine_of_signedSession (ht e' he') hsi) (presentedSession_oneLine ht h hs)
    exact ⟨e',he',hk,heq ▸ hsi⟩
  | transaction t =>
    have hst := started_of_signedTransaction (transaction_mem_signedBy.mp hx)
    rw [Signed.bytes] at hb
    exact absurd (hb ▸ newline_mem_bytes s) hst.newline_not_mem_bytes

end

lemma signed_of_verifiedPayload (h : Unforged L ea e) {p : Str × Str} {payload : Str}
    (hpa : p ∈ cookiePairs e.request.headers)
    (hv : verifiedPayload L e.config.hmacSecret p.2 = some payload) :
    ∃ e' ∈ ea, e'.config.hmacSecret = e.config.hmacSecret ∧
      ∃ t, signedTransaction L e' = some t ∧ t.payload = payload := by
  have hm : transactionContext++payload ∈ verifiedBytes L e := by
    refine mem_append_right _ (mem_map.mpr ⟨payload,?_,rfl⟩)
    exact mem_filterMap.mpr ⟨p,hpa,hv⟩
  obtain ⟨x,hx,hb⟩ := mem_map.mp (h.signed _ hm)
  obtain ⟨e',he',hk,hx⟩ := mem_signedWith.mp hx
  cases x with
  | session s =>
    obtain ⟨⟨st,si⟩,hsp,hp⟩ := bind_eq_some_iff.mp hv
    obtain ⟨hc,-⟩ := rsplitOnce_eq_some_iff.mp hsp
    have hst : st = payload := by
      simp only at hp
      split at hp
      · exact some.inj hp
      · simp at hp
    have hl : newline ∉ payload := by
      intro hn
      refine newline_not_mem_of_cookiePairs hpa ?_
      rw [hc,hst]
      exact mem_append_left _ hn
    rw [Signed.bytes] at hb
    have hn := newline_mem_bytes s
    rw [hb,mem_append] at hn
    exact absurd hn (by tauto)
  | transaction t =>
    have hsi := transaction_mem_signedBy.mp hx
    exact ⟨e',he',hk,t,hsi,append_cancel_left hb⟩

/-- A target that is taken as it is stays on the same host. -/
structure IsLocal (target : Str) : Prop where
  slash : startsWith target [slash] = true
  not_double : startsWith target [OAuth2Filter.slash,OAuth2Filter.slash] = false
  backslash : backslash ∉ target

lemma isLocal_of_localRedirectTarget {target : Str}
    (h : localRedirectTarget L (some target) = target) : IsLocal target := by
  by_cases hl : isLocalPath L target = true
  · simp only [isLocalPath,Bool.and_eq_true,Bool.not_eq_true',contains_eq_mem,
      decide_eq_false_iff_not] at hl
    exact ⟨hl.1.1.1,hl.1.1.2,hl.1.2⟩
  · have hsl : [slash] = target := by simpa [localRedirectTarget,filter_some,hl] using h
    subst hsl
    exact ⟨by decide,by decide,by decide⟩

lemma verifyTransactionFields_fields {now m : ℕ} {f n : Str} {r : OAuthTransaction}
    (h : verifyTransactionFields L now f n m t.fields = some r) :
    r = ⟨t.flowId,t.nonce,t.target,t.redirectUri⟩ ∧ t.flowId = f ∧ t.nonce = n ∧
      t.issuedAt ≤ now ∧ now ≤ t.issuedAt+m ∧ IsLocal t.target := by
  simp only [Transaction.fields,verifyTransactionFields,parseDecimal_formatDecimal,
    Alphabet.decode_encode] at h
  split at h
  · simp at h
  next hf =>
    simp only [not_or,not_not] at hf
    obtain ⟨issuedAt,hi,h⟩ := bind_eq_some_iff.mp h
    obtain rfl : t.issuedAt = issuedAt := by
      split at hi
      · exact some.inj hi
      · simp at hi
    split at h
    · simp at h
    · next ht =>
        obtain ⟨ta,hta,h⟩ := bind_eq_some_iff.mp h
        obtain ⟨ru,hr,h⟩ := bind_eq_some_iff.mp h
        obtain rfl := some.inj (filter_eq_some_iff.mp hta).1
        obtain rfl := some.inj (filter_eq_some_iff.mp hr).1
        split at h
        · simp at h
        · next hl =>
            simp only [not_or,not_not,not_lt] at hl ht
            refine ⟨(some.inj h).symm,hf.2.1,hf.2.2,ht.1,by omega,?_⟩
            exact isLocal_of_localRedirectTarget hl.1

variable {state : Str} {t : OAuthTransaction}

lemma verifyTransactionCookie_eq_some {se : Str} {now m : ℕ} {c : Option Str}
    (h : verifyTransactionCookie L se now state c m = some t) :
    ∃ f nonce value payload, splitCallbackState state = some (f, nonce) ∧
      c = some value ∧ verifiedPayload L se value = some payload ∧
      verifyTransactionFields L now f nonce m (payload.splitOn dot) = some t := by
  obtain ⟨⟨f,nonce⟩,hst,h⟩ := bind_eq_some_iff.mp h
  obtain ⟨value,hva,h⟩ := bind_eq_some_iff.mp h
  obtain ⟨⟨payload,si⟩,hsp,h⟩ := bind_eq_some_iff.mp h
  obtain ⟨tag,ht,h⟩ := bind_eq_some_iff.mp h
  split at h
  · simp at h
  next heq =>
    have hv : verifiedPayload L se value = some payload := by
      simp [verifiedPayload,hsp,ht,heq]
    exact ⟨f,nonce,value,payload,hst,hva,hv,h⟩

lemma checkState_eq_ok {env : Env} {q : Str} {p : CallbackParameters}
    (h : checkState L c env q he = .ok (p, state, t)) :
    ∃ f nonce pr payload, splitCallbackState state = some (f, nonce) ∧
      pr ∈ cookiePairs he ∧ verifiedPayload L c.hmacSecret pr.2 = some payload ∧
      verifyTransactionFields L env.now f nonce c.csrfTokenExpiresIn
        (payload.splitOn dot) = some t := by
  obtain ⟨p',-,h⟩ := bind_eq_ok.mp h
  obtain ⟨s',-,h⟩ := bind_eq_ok.mp h
  obtain ⟨⟨fl,_⟩,-,h⟩ := bind_eq_ok.mp h
  obtain ⟨tr,hve,h⟩ := bind_eq_ok.mp h
  obtain ⟨rfl,rfl,rfl⟩ : p' = p ∧ s' = state ∧ tr = t := by
    simpa using h
  obtain ⟨f,nonce,value,payload,hst,hva,hv,hf⟩ :=
    verifyTransactionCookie_eq_some (elim_error_eq_ok.mp hve)
  obtain ⟨be,after,hp,-⟩ := lookup_eq_some_iff.mp hva
  refine ⟨f,nonce,(flowCookieName c.cookieNames.oauthNonce fl, value),payload,hst,?_,hv,hf⟩
  rw [hp]
  exact mem_append_right _ mem_cons_self

lemma eq_of_splitCallbackState {f nonce : Str}
    (h : splitCallbackState state = some (f, nonce)) : state = f++dot::nonce := by
  unfold splitCallbackState at h
  split at h
  · simp at h
  next flowId' nonce' hsp =>
    split at h
    · obtain ⟨rfl,rfl⟩ : flowId' = f ∧ nonce' = nonce := by simpa using h
      exact (splitOnce_eq_some hsp).1
    · simp at h

/-- A session that is accepted was signed by an earlier callback of a filter with
the same key, with the same fields, and has not expired. A transaction that is
accepted was signed with the fields that are read, for the state that is
returned, not too long ago and for a local target. No signed session has the
bytes of a signed transaction. -/
theorem accepted_was_signed {earlier : List Event} {e : Event}
    (ht : ∀ e' ∈ earlier, e'.TokensOneLine) (h : Unforged L earlier e) :
    (SessionPath L e.config e.env.now e.request →
      ∃ host signature s, extractHost e.request = some host ∧
        presentedSession L e.config host e.request.headers = some (s, signature) ∧
        (∃ e' ∈ earlier, e'.config.hmacSecret = e.config.hmacSecret ∧ signedSession L e' = some s) ∧
        ∃ expiresAt, parseDecimal maxInteger s.expires = some expiresAt ∧ e.env.now < expiresAt) ∧
    (∀ parameters state t,
      checkState L e.config e.env e.request.query e.request.headers = .ok (parameters, state, t) →
      ∃ issuedAt, (∃ e' ∈ earlier, e'.config.hmacSecret = e.config.hmacSecret ∧
          signedTransaction L e' = some ⟨t.flowId, t.nonce, issuedAt, t.target, t.redirectUri⟩) ∧
        state = t.flowId ++ dot :: t.nonce ∧ issuedAt ≤ e.env.now ∧
        e.env.now ≤ issuedAt + e.config.csrfTokenExpiresIn ∧ IsLocal t.target) ∧
    (∀ s t, .session s ∈ signedWith L e.config.hmacSecret earlier →
      .transaction t ∈ signedWith L e.config.hmacSecret earlier → s.bytes ≠ t.bytes) := by
  refine ⟨?_,?_,?_⟩
  · rintro ⟨host,hr,ha⟩
    obtain ⟨s,signature,expiresAt,hs,he,hfu,hve⟩ := isAuthenticated_eq_true ha
    have hh := extractHost_of_route hr
    exact ⟨host,signature,s,hh,hs,signed_of_verifiedSession ht h hh hs hve,expiresAt,he,hfu⟩
  · intro parameters state t hc
    obtain ⟨f,nonce,pair,payload,hsta,hp,hv,hf⟩ := checkState_eq_ok hc
    obtain ⟨e',he',hk,t',hsi,rfl⟩ := signed_of_verifiedPayload h hp hv
    rw [(started_of_signedTransaction hsi).splitOn_payload] at hf
    obtain ⟨rfl,rfl,rfl,hle,hag,hl⟩ := verifyTransactionFields_fields hf
    exact ⟨t'.issuedAt,⟨e',he',hk,hsi⟩,eq_of_splitCallbackState hsta,hle,hag,hl⟩
  · intro s t hs ht' hb
    obtain ⟨e',-,-,ht'⟩ := mem_signedWith.mp ht'
    have hst := started_of_signedTransaction (transaction_mem_signedBy.mp ht')
    exact hst.newline_not_mem_bytes (hb ▸ newline_mem_bytes s)

def loginStarted : Event := ⟨loginConfig,loginEnv 10,startRequest⟩
def loginFinished : Event := ⟨loginConfig,loginEnv 20,callbackRequest⟩
def loggedIn : Event := ⟨loginConfig,loginEnv 30,laterRequest loginConfig 10⟩

lemma login_tokensOneLine (now : ℕ) : ∀ tokens ∈ (loginEnv now).answer, TokensOneLine tokens := by
  intro tokens ht
  cases ht
  exact ⟨by decide,by decide,by decide⟩

/-- The whole login: the transaction of the callback was started by the first
request, and the session of the last one was signed by the callback. -/
theorem login_accepted_was_signed :
    (∃ parameters state t, checkState plainLibrary loginConfig loginFinished.env
        loginFinished.request.query loginFinished.request.headers = .ok (parameters, state, t) ∧
      ∃ issuedAt, state = t.flowId ++ dot :: t.nonce ∧ issuedAt ≤ 20 ∧ 20 ≤ issuedAt + 600) ∧
    SessionPath plainLibrary loginConfig 30 loggedIn.request ∧
    ∃ e' ∈ [loginStarted, loginFinished], ∃ s, signedSession plainLibrary e' = some s := by
  have hst : Unforged plainLibrary [loginStarted] loginFinished := by
    refine ⟨?_,?_⟩ <;> decide +kernel
  have hf : Unforged plainLibrary [loginStarted,loginFinished] loggedIn := by
    refine ⟨?_,?_⟩ <;> decide +kernel
  have hp : SessionPath plainLibrary loginConfig 30 loggedIn.request := by
    refine ⟨str "h",?_,?_⟩ <;> decide +kernel
  have hc : checkState plainLibrary loginConfig loginFinished.env
      loginFinished.request.query loginFinished.request.headers =
        .ok ({ code := some (str "c"), state := some (str "AQID.BAUG") }, str "AQID.BAUG",
          ⟨str "AQID",str "BAUG",str "/a",str "https://h/cb"⟩) := by decide +kernel
  have hl : ∀ e' ∈ [loginStarted,loginFinished], e'.TokensOneLine :=
    forall_mem_cons.mpr ⟨login_tokensOneLine 10,forall_mem_singleton.mpr (login_tokensOneLine 20)⟩
  refine ⟨?_,hp,?_⟩
  · obtain ⟨issuedAt,-,hsta,hle,ha,-⟩ :=
      (accepted_was_signed (fun e' he' => hl e' (mem_append_left _ he')) hst).2.1 _ _ _ hc
    exact ⟨_,_,_,hc,issuedAt,hsta,hle,ha⟩
  · obtain ⟨-,-,s,-,-,⟨e',he',-,hs⟩,-⟩ := (accepted_was_signed hl hf).1 hp
    exact ⟨e',he',s,hs⟩

end ArionGateway.OAuth2Signatures
