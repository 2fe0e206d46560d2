import ArionGateway.OAuth2Filter

/-!
# Sessions that come back

After a login the client holds the session in up to five cookies. A later
request with the cookies that are left is accepted exactly if the filter reads
the same tokens from them as it signed: every token that is not empty was
written, has not passed the age of its cookie, and comes back unchanged. The age
of the refresh token is configured apart from that of the session, so a session
can end before it expires. Tokens that are set unencrypted are written as they
are.
-/
namespace ArionGateway.OAuth2Sessions
open ByteStrings HttpHeaders TextEncodings UserAgentCookies OAuth2Filter List Alphabet HeaderMap
open Option (bind_eq_some_iff bind_some map_eq_some_iff mem_toList some)

inductive Token where
  | access
  | id
  | refresh
  deriving DecidableEq

inductive Kind where
  | token (t : Token)
  | hmac
  | expires
  deriving DecidableEq

def cookieName (names : CookieNames) : Kind → Str
  | .token .access => names.bearerToken
  | .hmac => names.oauthHmac
  | .expires => names.oauthExpires
  | .token .id => names.idToken
  | .token .refresh => names.refreshToken

def cookieConfig (configs : CookieConfigs) : Kind → Option CookieConfig
  | .token .access => configs.bearerToken
  | .hmac => configs.oauthHmac
  | .expires => configs.oauthExpires
  | .token .id => configs.idToken
  | .token .refresh => configs.refreshToken

def readCookie (cookies : SessionCookies) : Kind → Option Str
  | .token .access => cookies.accessToken
  | .hmac => cookies.hmac
  | .expires => cookies.expires
  | .token .id => cookies.idToken
  | .token .refresh => cookies.refreshToken

def tokenText (tokens : SessionTokens) : Token → Option Str
  | .access => tokens.accessToken
  | .id => tokens.idToken
  | .refresh => tokens.refreshToken

/-- The names of the session cookies can stand in cookies and are distinct. -/
structure ValidNames (names : CookieNames) : Prop where
  isName : ∀ k, IsName (cookieName names k)
  injective : Function.Injective (cookieName names)

variable {n : CookieNames} {p : List (Str × Str)} {c : SessionCookies} {k : Kind}

lemma readCookie_add (h : ValidNames n) (p : Str × Str) (k : Kind) : readCookie (c.add n p) k =
      if p.1 = cookieName n k then some p.2 else readCookie c k := by
  have hd : ([Kind.token .access,.hmac,.expires,.token .id,.token .refresh].map
      (cookieName n)).Nodup := List.Nodup.map h.injective (by decide)
  simp only [map_cons,cookieName] at hd
  unfold SessionCookies.add
  rcases k with (_ | _ | _) | _ | _ <;> simp only [readCookie,cookieName] <;> grind

lemma mem_of_readCookie (h : ValidNames n) {value : Str}
    (hr : readCookie (p.foldl (SessionCookies.add n) c) k = some value) :
    (cookieName n k, value) ∈ p ∨ readCookie c k = some value := by
  induction p generalizing c with
  | nil => exact .inr hr
  | cons pa p ih =>
    rcases ih hr with hm | hre
    · exact .inl (mem_cons_of_mem pa hm)
    · rw [readCookie_add h] at hre
      split at hre
      next hn =>
        have hp : pa = (cookieName n k, value) := Prod.ext hn (some.inj hre)
        exact .inl (hp ▸ mem_cons_self)
      · exact .inr hre

lemma isSome_readCookie (h : ValidNames n)
    (hp : (∃ value, (cookieName n k, value) ∈ p) ∨ (readCookie c k).isSome) :
    (readCookie (p.foldl (SessionCookies.add n) c) k).isSome := by
  induction p generalizing c with
  | nil => simpa using hp
  | cons pa p ih =>
    refine ih ?_
    rw [readCookie_add h]
    split
    · exact .inr rfl
    next hn =>
      rcases hp with ⟨value,hm⟩ | hr
      · rcases mem_cons.mp hm with rfl | hm
        · exact absurd rfl hn
        · exact .inl ⟨value,hm⟩
      · exact .inr hr

def ValidText (s : Str) : Prop := ∀ b ∈ s, isValid b = true

instance (s : Str) : Decidable (ValidText s) := inferInstanceAs (Decidable (∀ b ∈ s, _))

@[simp] lemma validText_append {s t : Str} : ValidText (s++t) ↔ ValidText s ∧ ValidText t :=
  forall_mem_append

lemma validText_cons {b : UInt8} {s : Str} : ValidText (b::s) ↔ isValid b = true ∧ ValidText s :=
  forall_mem_cons

lemma validText_of_visible {s : Str} (h : ∀ b ∈ s, isVisibleAscii b = true) : ValidText s :=
  fun b hb => isValid_of_isVisibleAscii (h b hb)

def PathWritable (config : Option CookieConfig) : Prop :=
  ValidText (config.elim (str "/") CookieConfig.path)

instance (config : Option CookieConfig) : Decidable (PathWritable config) :=
  inferInstanceAs (Decidable (ValidText _))

def DomainWritable (domain : Option Str) : Prop := ∀ text ∈ domain, ValidText text

/-- A cookie is written if all its parts can stand in a header. -/
structure Writable (value : Str) (config : Option CookieConfig) (domain : Option Str) : Prop where
  value : ValidText value
  path : PathWritable config
  domain : DomainWritable domain

variable (co : Option CookieConfig)

lemma forall_attributesAfter {P : Str → Prop} (h : ∀ text ∈ [str "SameSite=Strict",
      str "SameSite=Lax",str "SameSite=None",str "Partitioned"], P text) :
    ∀ text ∈ attributesAfter co, P text := by
  cases co with
  | none => simp [attributesAfter,h]
  | some co =>
    obtain ⟨s,path,pa⟩ := co
    cases s <;> cases pa <;> simp [attributesAfter,h]

lemma attributesAfter_noAge :
    ∀ text ∈ attributesAfter co, ((32::text).splitOn semicolon).filterMap maxAgeOf = [] :=
  forall_attributesAfter co (by decide)

lemma validText_attributesAfter : ∀ text ∈ attributesAfter co, ValidText text :=
  forall_attributesAfter co (by decide)

lemma validText_attributesBefore_iff (domain : Option Str) (i : Bool) :
    (∀ text ∈ attributesBefore co domain i, ValidText text) ↔
      PathWritable co ∧ DomainWritable domain := by
  have hp : ValidText (str "Path=") := by decide
  have ho : ValidText (str "HttpOnly") := by decide
  have hl : ValidText (str "Domain=") := by decide
  have hf : ∀ text ∈ (if i then [str "Secure"] else []), ValidText text := by
    cases i <;> decide
  have hd : (∀ text ∈ ((domain.filter (· ≠ [])).map (str "Domain=" ++ ·)).toList,
      ValidText text) ↔ DomainWritable domain := by
    cases domain with
    | none => simp [DomainWritable]
    | some text =>
      by_cases he : text = []
      · have hn : ValidText [] := by decide
        simp [DomainWritable,he,hn]
      · simp [DomainWritable,he,hl]
  rw [attributesBefore,forall_mem_append,forall_mem_append,hd]
  simp only [forall_mem_cons,validText_append,hp,ho]
  exact ⟨fun h => ⟨h.1.1.1.2,h.2⟩,fun h => ⟨⟨⟨⟨trivial,h.1⟩,trivial,by simp⟩,hf⟩,h.2⟩⟩

lemma validText_withAttributes_iff (p : Str) (a : List Str) :
    ValidText (withAttributes p a) ↔ ValidText p ∧ ∀ text ∈ a, ValidText text := by
  have hj : ∀ text, ValidText (semicolon::32::text) ↔ ValidText text := by
    have h₁ : isValid semicolon = true := by decide
    have h₂ : isValid 32 = true := by decide
    simp [validText_cons,h₁,h₂]
  rw [withAttributes,validText_append]
  refine and_congr_right fun _ => ?_
  rw [ValidText,forall_mem_flatMap]
  exact forall₂_congr fun text _ => hj text

variable {config : Option CookieConfig} {value : Str} {domain : Option Str} {name : Str}
  {i : Bool} {line : Str}

lemma formatCookie_eq_some_iff {n : ℕ} (hn : IsName name) :
    formatCookie name value (some n) config domain i = some line ↔
      Writable value config domain ∧ line = withAttributes (name++equalsSign::value)
        (cookieAttributes (some n) config domain i) := by
  have hp : ValidText (name++equalsSign::value) ↔ ValidText value := by
    have h₁ := validText_of_visible hn.visible
    have h₂ : isValid equalsSign = true := by decide
    simp [validText_cons,h₁,h₂]
  have hag : ValidText (str "Max-Age=" ++ formatDecimal n) := by
    have h₁ : ValidText (str "Max-Age=") := by decide
    exact validText_append.mpr ⟨h₁,validText_of_visible (isClean_formatDecimal n).visible⟩
  have ha : (∀ text ∈ cookieAttributes (some n) config domain i, ValidText text) ↔
      PathWritable config ∧ DomainWritable domain := by
    rw [cookieAttributes,forall_mem_append,forall_mem_append,validText_attributesBefore_iff]
    simp only [Option.map_some,Option.toList_some,forall_mem_singleton]
    exact ⟨fun h => h.1.1,fun h => ⟨⟨h,hag⟩,validText_attributesAfter config⟩⟩
  have hw : (withAttributes (name++equalsSign::value)
      (cookieAttributes (some n) config domain i)).all isValid = true ↔
      Writable value config domain := by
    rw [all_eq_true,← ValidText,validText_withAttributes_iff,hp,ha]
    exact ⟨fun h => ⟨h.1,h.2.1,h.2.2⟩,fun h => ⟨h.value,h.path,h.domain⟩⟩
  rw [formatCookie,fromStr]
  split
  next hal =>
    rw [hw] at hal
    simp [hal,eq_comm]
  next hal =>
    rw [hw] at hal
    simp [hal]

lemma parseSetCookie_formatCookie {n : ℕ} (hn : IsName name)
    (h : formatCookie name value (some n) config domain i = some line) :
    parseSetCookie line = some ⟨name,returnedValue value,some n⟩ := by
  obtain ⟨-,rfl⟩ := (formatCookie_eq_some_iff hn).mp h
  have hsp : cookieAttributes (some n) config domain i = attributesBefore config domain i ++
        (str "Max-Age=" ++ formatDecimal n)::attributesAfter config := by
    simp [cookieAttributes]
  rw [hsp,parseSetCookie_of_isName hn (attributesAfter_noAge config)]

variable {elapsed : ℕ}

lemma not_isLive_of_expired {c : Cookie}
    (h : formatCookie name [] (some 0) config domain i = some line)
    (hc : parseSetCookie line = some c) : c.isLive elapsed = false := by
  have hl : line = withAttributes (name++equalsSign::[]) (attributesBefore config domain i ++
      (str "Max-Age=" ++ formatDecimal 0)::attributesAfter config) := by
    rw [formatCookie,fromStr] at h
    split at h
    · simpa [cookieAttributes] using (some.inj h).symm
    · simp at h
  rw [hl,parseSetCookie_withAttributes (attributesAfter_noAge config)] at hc
  split at hc
  · simp at hc
  · split at hc
    · simp at hc
    · cases hc
      simp [Cookie.isLive]

lemma getAll_appendCookie (headers : HeaderMap) (n v : Str) (m : Option ℕ)
    (c : Option CookieConfig) (d : Option Str) (i : Bool) :
    (appendCookie headers n v m c d i).getAll (str "set-cookie") =
      headers.getAll (str "set-cookie")++(formatCookie n v m c d i).toList := by
  unfold appendCookie
  cases formatCookie n v m c d i with
  | none | some line => simp

lemma liveCookies_append (f s : List Str) (elapsed : ℕ) :
    liveCookies (f++s) elapsed = liveCookies f elapsed++liveCookies s elapsed := by
  simp [liveCookies]

lemma liveCookies_expired (n : Str) (c : Option CookieConfig) (d : Option Str) (i : Bool) (e : ℕ) :
    liveCookies (formatCookie n [] (some 0) c d i).toList e = [] := by
  cases h : formatCookie n [] (some 0) c d i with
  | none => rfl
  | some line =>
    cases hc : parseSetCookie line with
    | none => simp [liveCookies,hc]
    | some ck => simp [liveCookies,hc,not_isLive_of_expired h hc]

lemma liveCookies_clearTransactionCookies (headers : HeaderMap) (c : OAuth2Config)
    (f : Str) (i : Bool) (elapsed : ℕ) :
    liveCookies ((clearTransactionCookies headers c f i).getAll (str "set-cookie"))
        elapsed = liveCookies (headers.getAll (str "set-cookie")) elapsed := by
  simp [clearTransactionCookies,appendExpiredCookie,getAll_appendCookie,liveCookies_append,
    liveCookies_expired]

lemma getAll_foldl_appendCookie (c : List NewCookie) (headers : HeaderMap)
    (d : Option Str) (i : Bool) : (c.foldl (fun headers ck => appendCookie headers ck.name ck.value
        (some ck.maxAge) ck.config d i) headers).getAll (str "set-cookie") =
      headers.getAll (str "set-cookie")++c.flatMap fun ck =>
        (formatCookie ck.name ck.value (some ck.maxAge) ck.config d i).toList := by
  induction c generalizing headers with
  | nil => simp
  | cons ck c ih =>
    rw [foldl_cons,ih,getAll_appendCookie,flatMap_cons,append_assoc]

variable (L : Library) (config : OAuth2Config) (env : Env) (tokens : TokenEndpointResponse)

def maxAge : Kind → ℕ
  | .token .refresh => config.defaultRefreshTokenExpiresIn
  | _ => sessionExpiresIn config tokens

def nonceOf : Token → Nonce
  | .access => env.accessNonce
  | .id => env.idNonce
  | .refresh => env.refreshNonce

def setValue (session : Session) : Kind → Option Str
  | .hmac => some (computeSessionHmac L config.hmacSecret session)
  | .expires => some session.expires
  | .token t =>
    (tokenText (issuedTokens config tokens) t).bind (encryptTokenCookie L config (nonceOf env t))

def newCookie (k : Kind) (value : Str) : NewCookie where
  name := cookieName config.cookieNames k
  value := value
  maxAge := maxAge config tokens k
  config := cookieConfig config.cookieConfigs k

variable {L : Library} {config : OAuth2Config} {env : Env} {tokens : TokenEndpointResponse}
  {session : Session} {cookies : List NewCookie} {no : Nonce}

lemma tokenCookie_eq_some {t : Option Str} {age : ℕ} {c : Option CookieConfig}
    (h : tokenCookie L config no t name age c = some cookies) :
    cookies = (t.bind (encryptTokenCookie L config no)).toList.map
        (fun value => ⟨name,value,age,c⟩) ∧
      ∀ text ∈ t, (encryptTokenCookie L config no text).isSome := by
  cases t with
  | none =>
    cases h
    simp
  | some text =>
    obtain ⟨value,hv,rfl⟩ := map_eq_some_iff.mp h
    simp [hv]

lemma mem_sessionCookies (h : sessionCookies L config env tokens session = some cookies)
    (c : NewCookie) : c ∈ cookies ↔ ∃ k value, setValue L config env tokens session k = some value ∧
      c = newCookie config tokens k value := by
  obtain ⟨access,ha,h⟩ := bind_eq_some_iff.mp h
  obtain ⟨id,hid,h⟩ := bind_eq_some_iff.mp h
  obtain ⟨refresh,hr,h⟩ := bind_eq_some_iff.mp h
  cases h
  obtain ⟨rfl,-⟩ := tokenCookie_eq_some ha
  obtain ⟨rfl,-⟩ := tokenCookie_eq_some hid
  obtain ⟨rfl,-⟩ := tokenCookie_eq_some hr
  simp only [mem_append,mem_map,mem_toList,mem_cons,not_mem_nil,or_false]
  constructor
  · rintro (((⟨value,hv,rfl⟩ | (rfl | rfl)) | ⟨value,hv,rfl⟩) | ⟨value,hv,rfl⟩)
    · exact ⟨.token .access,value,hv,rfl⟩
    · exact ⟨.expires,session.expires,rfl,rfl⟩
    · exact ⟨.hmac,_,rfl,rfl⟩
    · exact ⟨.token .id,value,hv,rfl⟩
    · exact ⟨.token .refresh,value,hv,rfl⟩
  · rintro ⟨k,value,hv,rfl⟩
    cases k with
    | expires =>
      cases hv
      exact .inl (.inl (.inr (.inl rfl)))
    | hmac =>
      cases hv
      exact .inl (.inl (.inr (.inr rfl)))
    | token t =>
      cases t with
      | access => exact .inl (.inl (.inl ⟨value,hv,rfl⟩))
      | id => exact .inl (.inr ⟨value,hv,rfl⟩)
      | refresh => exact .inr ⟨value,hv,rfl⟩

variable {text : Str}

/-- A cookie was written and has not passed its age. -/
structure Kept (L : Library) (config : OAuth2Config) (env : Env) (tokens : TokenEndpointResponse)
    (session : Session) (elapsed : ℕ) (k : Kind) (value : Str) : Prop where
  set : setValue L config env tokens session k = some value
  writable : Writable value (cookieConfig config.cookieConfigs k) config.cookieDomain
  live : elapsed < maxAge config tokens k

def keptCookie (config : OAuth2Config) (tokens : TokenEndpointResponse) (k : Kind) (value : Str) :
    Cookie where
  name := cookieName config.cookieNames k
  value := returnedValue value
  maxAge := some (maxAge config tokens k)

variable {isHttps : Bool}

lemma mem_liveCookies (hn : ValidNames config.cookieNames)
    (hc : sessionCookies L config env tokens session = some cookies) (co : Cookie) :
    co ∈ liveCookies (cookies.flatMap fun c => (formatCookie c.name c.value (some c.maxAge)
        c.config config.cookieDomain isHttps).toList) elapsed ↔
      ∃ k value, Kept L config env tokens session elapsed k value ∧
        co = keptCookie config tokens k value := by
  simp only [liveCookies,mem_filter,mem_filterMap,mem_flatMap,mem_toList,mem_sessionCookies hc]
  constructor
  · rintro ⟨⟨line,⟨c,⟨k,value,hv,rfl⟩,hl⟩,hp⟩,hli⟩
    have hw := ((formatCookie_eq_some_iff (hn.isName k)).mp hl).1
    cases hp.symm.trans (parseSetCookie_formatCookie (hn.isName k) hl)
    exact ⟨k,value,⟨hv,hw,by simpa [Cookie.isLive,newCookie] using hli⟩,rfl⟩
  · rintro ⟨k,value,hk,rfl⟩
    have hl := (formatCookie_eq_some_iff (n := maxAge config tokens k) (i := isHttps)
      (hn.isName k)).mpr ⟨hk.writable,rfl⟩
    exact ⟨⟨_,⟨_,⟨k,value,hk.set,rfl⟩,hl⟩,parseSetCookie_formatCookie (hn.isName k) hl⟩,
      by simpa [Cookie.isLive,keptCookie] using hk.live⟩

variable {headers : HeaderMap}

lemma handleCallback_success {q host : Str}
    (h : (handleCallback L config env isHttps q headers host).status = 302)
    (ht : env.answer = some tokens) :
    ∃ session cookies, issuedSession config env host tokens = some session ∧
      sessionCookies L config env tokens session = some cookies ∧
      ∀ elapsed, liveCookies ((handleCallback L config env isHttps q headers host).headers.getAll
        (str "set-cookie")) elapsed =
          liveCookies (cookies.flatMap fun c => (formatCookie c.name c.value (some c.maxAge)
            c.config config.cookieDomain isHttps).toList) elapsed := by
  cases he : exchangeCallback L config env isHttps q headers with
  | error response =>
    have hst := exchangeCallback_eq_error he
    rw [handleCallback,he] at h
    simp [h] at hst
  | ok r =>
    obtain ⟨t,tokens'⟩ := r
    cases ht.symm.trans (answer_of_exchangeCallback he)
    cases hi : issueSession L config env isHttps host t tokens with
    | none => simp [handleCallback,he,hi,callbackFailure] at h
    | some response =>
      have hr : handleCallback L config env isHttps q headers host = response := by
        simp [handleCallback,he,hi]
      obtain ⟨session,hse,hi⟩ := bind_eq_some_iff.mp hi
      obtain ⟨cookies,hc,hi⟩ := bind_eq_some_iff.mp hi
      obtain ⟨lo,-,hi⟩ := bind_eq_some_iff.mp hi
      refine ⟨session,cookies,hse,hc,fun elapsed => ?_⟩
      rw [hr,← some.inj hi,liveCookies_clearTransactionCookies,getAll_foldl_appendCookie]
      rfl

/-- A login and the cookies that are left of it after a time. -/
structure Login (L : Library) (config : OAuth2Config) (env : Env) (tokens : TokenEndpointResponse)
    (session : Session) (host : Str) (elapsed : ℕ) (live : List Cookie) : Prop where
  names : ValidNames config.cookieNames
  issued : issuedSession config env host tokens = some session
  encrypted : ∀ t text, tokenText (issuedTokens config tokens) t = some text →
    (encryptTokenCookie L config (nonceOf env t) text).isSome
  sendable : ∀ c ∈ live, c.Sendable
  live_iff : ∀ c, c ∈ live ↔ ∃ k value, Kept L config env tokens session elapsed k value ∧
    c = keptCookie config tokens k value

lemma exists_login {q host : Str} (hn : ValidNames config.cookieNames)
    (h : (handleCallback L config env isHttps q headers host).status = 302)
    (hto : env.answer = some tokens) (e : ℕ) : ∃ session, Login L config env tokens session host e
      (liveCookies ((handleCallback L config env isHttps q headers host).headers.getAll
        (str "set-cookie")) e) := by
  obtain ⟨session,cookies,hi,hco,hl⟩ := handleCallback_success h hto
  refine ⟨session,hn,hi,?_,?_,?_⟩
  · intro t text ht
    obtain ⟨access,ha,hco⟩ := bind_eq_some_iff.mp hco
    obtain ⟨id,hid,hco⟩ := bind_eq_some_iff.mp hco
    obtain ⟨refresh,hr,-⟩ := bind_eq_some_iff.mp hco
    cases t with
    | access => exact (tokenCookie_eq_some ha).2 text ht
    | id => exact (tokenCookie_eq_some hid).2 text ht
    | refresh => exact (tokenCookie_eq_some hr).2 text ht
  · intro c hc
    obtain ⟨l,-,hl⟩ := mem_filterMap.mp (mem_filter.mp hc).1
    exact sendable_of_parseSetCookie hl
  · rw [hl]
    exact mem_liveCookies hn hco

section
variable {e : ℕ} {ho : Str} {he : HeaderMap} {l : List Cookie} {k : Kind}

variable (h : Login L config env tokens session ho e l)
include h

lemma Login.kept_of_readCookie (hcarry : Carries (he.getAll (str "cookie")) l) {t : Str}
    (hr : readCookie (extractSessionCookies he config.cookieNames) k = some t) :
    ∃ value, Kept L config env tokens session e k value ∧ t = returnedValue value ∧
      ∀ b ∈ t, isVisibleAscii b = true := by
  rcases mem_of_readCookie h.names hr with hm | hn
  · obtain ⟨c,hc,hp,hv⟩ := hcarry.mem_of_mem_readCookies h.sendable hm
    obtain ⟨k',value,hk,rfl⟩ := (h.live_iff c).mp hc
    obtain ⟨hna,rfl⟩ := Prod.mk.injEq .. ▸ hp
    obtain rfl := h.names.injective hna
    refine ⟨value,hk,rfl,fun b hb => hv b ?_⟩
    exact mem_append_right _ (mem_cons_of_mem _ hb)
  · rcases k with (_ | _ | _) | _ | _ <;> simp [readCookie] at hn

lemma Login.readCookie_of_kept (hcarry : Carries (he.getAll (str "cookie")) l)
    (hv : ∀ c ∈ l, c.Visible) {value : Str} (hk : Kept L config env tokens session e k value) :
    readCookie (extractSessionCookies he config.cookieNames) k = some (returnedValue value) := by
  have hm := hcarry.mem_readCookies h.sendable hv ((h.live_iff _).mpr ⟨k,value,hk,rfl⟩)
  have hso : (readCookie (extractSessionCookies he config.cookieNames) k).isSome :=
    isSome_readCookie h.names (.inl ⟨returnedValue value,hm⟩)
  obtain ⟨text,ht⟩ := Option.isSome_iff_exists.mp hso
  obtain ⟨v',hk',rfl,-⟩ := h.kept_of_readCookie hcarry ht
  obtain rfl := some.inj (hk.set.symm.trans hk'.set)
  exact ht

lemma Login.session_eq : env.exchangedAt+sessionExpiresIn config tokens < maxInteger ∧
      session = (issuedTokens config tokens).session (hmacDomain config.cookieDomain ho)
        (formatDecimal (env.exchangedAt+sessionExpiresIn config tokens)) := by
  have hi := h.issued
  unfold issuedSession at hi
  simp only at hi
  split at hi
  next hlt => exact ⟨hlt,(some.inj hi).symm⟩
  · simp at hi

end

lemma decryptTokenCookie_of_encrypt (h : encryptTokenCookie L config no text = some value) :
    decryptTokenCookie L config value = some text := by
  unfold encryptTokenCookie at h
  unfold decryptTokenCookie
  split at h
  next hp =>
    rw [if_pos hp,some.inj h]
  next hp =>
    rw [if_neg hp]
    obtain ⟨s,hse,rfl⟩ := map_eq_some_iff.mp h
    have hln := L.length_sealText _ _ _ _ hse
    have hst : stripStart encryptedCookieStart
        (encryptedCookieStart++urlSafe.encode (no.1++s)) = some (urlSafe.encode (no.1++s)) := by
      simp [stripStart,startsWith_iff]
    have hl : ¬ (no.1++s).length ≤ aeadNonceLen := by
      rw [length_append]
      omega
    simp only [decryptCookieValue,hst,Option.bind_eq_bind,bind_some,decode_encode,if_neg hl]
    rw [take_left' no.2,drop_left' no.2]
    exact L.openText_sealText _ _ _ _ hse

lemma isClean_of_encrypt (h : encryptTokenCookie L config no text = some value)
    (hc : config.disableTokenEncryption = true → IsClean text) : IsClean value := by
  unfold encryptTokenCookie at h
  split at h
  next hp => exact some.inj h ▸ hc hp
  · obtain ⟨s,-,rfl⟩ := map_eq_some_iff.mp h
    refine .of_isPlain fun b hb => ?_
    rcases mem_append.mp hb with hb | hb
    · have hst : ∀ b ∈ encryptedCookieStart, isPlain b = true := by decide
      exact hst b hb
    · exact isPlain_of_contains _ (contains_of_mem_encode _ hb)

lemma tokenText_presentedTokens (headers : HeaderMap) (t : Token) :
    tokenText (presentedTokens L config headers) t =
      (readCookie (extractSessionCookies headers config.cookieNames) (.token t)).bind
        (decryptTokenCookie L config) := by
  cases t <;> rfl

/-- Every cookie of a session that matters is written, kept and read as it was
set. -/
structure ComesBack (config : OAuth2Config) (tokens : TokenEndpointResponse) (elapsed : ℕ) :
    Prop where
  domain : DomainWritable config.cookieDomain
  expires : PathWritable config.cookieConfigs.oauthExpires
  hmac : PathWritable config.cookieConfigs.oauthHmac
  token : ∀ t text, tokenText (issuedTokens config tokens) t = some text → text ≠ [] →
    PathWritable (cookieConfig config.cookieConfigs (.token t)) ∧
      elapsed < maxAge config tokens (.token t) ∧
      (config.disableTokenEncryption = true → IsClean text)

lemma ComesBack.isClean (h : ComesBack config tokens elapsed)
    (hp : config.disableTokenEncryption = true) (t : Token) (text : Str)
    (ht : tokenText (issuedTokens config tokens) t = some text) : IsClean text := by
  by_cases he : text = []
  · exact he ▸ .of_isPlain nofun
  · exact (h.token t text ht he).2.2 hp

section
variable {elapsed : ℕ} {hos : Str} {hea : HeaderMap} {li : List Cookie} {value : Str}

section

variable (h : Login L config env tokens session hos elapsed li)
include h

lemma Login.isClean (hb : ComesBack config tokens elapsed) {k : Kind}
    (hse : setValue L config env tokens session k = some value) : IsClean value := by
  have he : session.expires = formatDecimal (env.exchangedAt+sessionExpiresIn config tokens) := by
    rw [h.session_eq.2]
    rfl
  cases k with
  | hmac => exact some.inj hse ▸ isClean_encode ..
  | expires => exact some.inj hse ▸ he ▸ isClean_formatDecimal _
  | token t =>
    obtain ⟨text,ht,hv⟩ := bind_eq_some_iff.mp hse
    exact isClean_of_encrypt hv fun hp => hb.isClean hp t text ht

lemma Login.visible (hb : ComesBack config tokens elapsed) : ∀ c ∈ li, c.Visible := by
  intro c hc
  obtain ⟨k,value,hk,rfl⟩ := (h.live_iff c).mp hc
  have hcl := h.isClean hb hk.set
  have he : isVisibleAscii equalsSign = true := by decide
  rw [Cookie.Visible,Cookie.pair,forall_mem_append,forall_mem_cons]
  refine ⟨(h.names.isName k).visible,he,?_⟩
  rw [keptCookie,hcl.returnedValue_eq]
  exact hcl.visible

lemma Login.readCookie_eq (hcarry : Carries (hea.getAll (str "cookie")) li)
    (hb : ComesBack config tokens elapsed) {k : Kind}
    (hse : setValue L config env tokens session k = some value)
    (hp : PathWritable (cookieConfig config.cookieConfigs k))
    (hl : elapsed < maxAge config tokens k) :
    readCookie (extractSessionCookies hea config.cookieNames) k = some value := by
  have hc := h.isClean hb hse
  have hk : Kept L config env tokens session elapsed k value :=
    ⟨hse,⟨validText_of_visible hc.visible,hp,hb.domain⟩,hl⟩
  rw [h.readCookie_of_kept hcarry (h.visible hb) hk,hc.returnedValue_eq]

end

section

variable (h : Login L config env tokens session hos elapsed li)
    (hc : Carries (hea.getAll (str "cookie")) li)
include h hc

lemma Login.tokenText_sublist (t : Token) :
    ((tokenText (presentedTokens L config hea) t).getD []).Sublist
      ((tokenText (issuedTokens config tokens) t).getD []) := by
  rw [tokenText_presentedTokens]
  cases hr : readCookie (extractSessionCookies hea config.cookieNames) (.token t) with
  | none => simp
  | some ck =>
    obtain ⟨value,hk,rfl,-⟩ := h.kept_of_readCookie hc hr
    obtain ⟨text,ht,hv⟩ := bind_eq_some_iff.mp hk.set
    rw [bind_some,ht]
    cases hd : decryptTokenCookie L config (returnedValue value) with
    | none => simp
    | some t' =>
      by_cases hpl : config.disableTokenEncryption = true
      · simp only [encryptTokenCookie,decryptTokenCookie,hpl,if_true,some.injEq] at hv hd
        rw [← hd,← hv]
        exact (DelimitedText.trim_sublist _).trans (takeWhile_sublist _)
      · have hc := isClean_of_encrypt hv fun hp => absurd hp hpl
        rw [hc.returnedValue_eq,decryptTokenCookie_of_encrypt hv] at hd
        rw [some.inj hd]

lemma Login.tokenText_eq (hb : ComesBack config tokens elapsed) (t : Token) :
    (tokenText (presentedTokens L config hea) t).getD [] =
      (tokenText (issuedTokens config tokens) t).getD [] := by
  have hsu := h.tokenText_sublist hc t
  by_cases he : (tokenText (issuedTokens config tokens) t).getD [] = []
  · rw [he] at hsu ⊢
    exact sublist_nil.mp hsu
  · cases ht : tokenText (issuedTokens config tokens) t with
    | none => simp [ht] at he
    | some text =>
      obtain ⟨value,hv⟩ := Option.isSome_iff_exists.mp (h.encrypted t text ht)
      have hse : setValue L config env tokens session (.token t) = some value := by
        simp [setValue,ht,hv]
      obtain ⟨hp,hl,-⟩ := hb.token t text ht (by simpa [ht] using he)
      rw [tokenText_presentedTokens,h.readCookie_eq hc hb hse hp hl]
      simp [decryptTokenCookie_of_encrypt hv]

end

lemma session_congr {f s : SessionTokens}
    (h : ∀ t, (tokenText f t).getD [] = (tokenText s t).getD []) (d expires : Str) :
    f.session d expires = s.session d expires := by
  have ha := h .access
  have hid := h .id
  have hr := h .refresh
  simp only [tokenText] at ha hid hr
  simp only [SessionTokens.session,ha,hid,hr]

lemma verifySessionHmac_iff {se : Str} {s : Session} :
    verifySessionHmac L se s (computeSessionHmac L se session) = true ↔
      L.hmac se session.bytes = L.hmac se s.bytes := by
  have hl := L.length_hmac se session.bytes
  have hf : (some (L.hmac se session.bytes)).filter (fun d => decide (d.length ≤ 64)) =
      some (L.hmac se session.bytes) := by
    simp [hl]
  have hh : L.hmac se session.bytes ≠ hexLower (L.hmac se s.bytes) := by
    intro heq
    have hlo : ∀ bt, (hexLower bt).length = 2*bt.length := by
      intro bt
      induction bt with
      | nil => rfl
      | cons b bt ih =>
        simp only [hexLower,flatMap_cons,length_append] at ih ⊢
        simp only [length_cons,length_nil]
        omega
    have := congrArg length heq
    rw [hlo,hl,L.length_hmac] at this
    omega
  simp [verifySessionHmac,computeSessionHmac,decode_encode,hf,hh]

variable (h : Login L config env tokens session hos elapsed li)
    (hca : Carries (hea.getAll (str "cookie")) li)
include h hca

lemma Login.isAuthenticated (hb : ComesBack config tokens elapsed)
    (hbe : elapsed < sessionExpiresIn config tokens) :
    isAuthenticated L config (env.exchangedAt+elapsed) hos hea = true := by
  obtain ⟨hlt,hse⟩ := h.session_eq
  have hh := h.readCookie_eq (k := .hmac) hca hb rfl hb.hmac hbe
  have he := h.readCookie_eq (k := .expires) hca hb rfl hb.expires hbe
  have hp : presentedSession L config hos hea =
      some (session, computeSessionHmac L config.hmacSecret session) := by
    have heq : (presentedTokens L config hea).session (hmacDomain config.cookieDomain hos)
        session.expires = session := by
      rw [session_congr (h.tokenText_eq hca hb)]
      rw [hse]
      rfl
    simp only [readCookie] at hh he
    simp [presentedSession,hh,he,heq]
  have hpa : parseDecimal maxInteger session.expires =
      some (env.exchangedAt+sessionExpiresIn config tokens) := by
    rw [hse]
    simp [SessionTokens.session,parseDecimal_formatDecimal,hlt]
  simp [OAuth2Filter.isAuthenticated,hp,hpa,hbe,verifySessionHmac_iff]

lemma Login.tokenText_eq_of_bytes (hb : session.bytes = ((presentedTokens L config hea).session
      (hmacDomain config.cookieDomain hos) session.expires).bytes) (t : Token) :
    (tokenText (presentedTokens L config hea) t).getD [] =
      (tokenText (issuedTokens config tokens) t).getD [] := by
  have hl := congrArg length hb
  rw [h.session_eq.2] at hl
  simp only [Session.bytes,SessionTokens.session,length_append,length_cons] at hl
  -- No token is longer than it was, so none is shorter.
  have ha := h.tokenText_sublist hca .access
  have hid := h.tokenText_sublist hca .id
  have hr := h.tokenText_sublist hca .refresh
  have h₁ := ha.length_le
  have h₂ := hid.length_le
  have h₃ := hr.length_le
  simp only [tokenText] at h₁ h₂ h₃
  cases t with
  | access => exact ha.eq_of_length_le (by simp only [tokenText]; omega)
  | id => exact hid.eq_of_length_le (by simp only [tokenText]; omega)
  | refresh => exact hr.eq_of_length_le (by simp only [tokenText]; omega)

lemma Login.token_of_tokenText_eq {t : Token} {text : Str}
    (heq : (tokenText (presentedTokens L config hea) t).getD [] =
      (tokenText (issuedTokens config tokens) t).getD [])
    (ht : tokenText (issuedTokens config tokens) t = some text) (he : text ≠ []) :
    PathWritable (cookieConfig config.cookieConfigs (.token t)) ∧
      elapsed < maxAge config tokens (.token t) ∧
      (config.disableTokenEncryption = true → IsClean text) := by
  rw [ht,tokenText_presentedTokens] at heq
  cases hre : readCookie (extractSessionCookies hea config.cookieNames) (.token t) with
  | none =>
    rw [hre] at heq
    exact absurd heq.symm he
  | some ck =>
    obtain ⟨value,hk,rfl,hv⟩ := h.kept_of_readCookie hca hre
    refine ⟨hk.writable.path,hk.live,fun hp => ?_⟩
    have hva : value = text := by
      have hse := hk.set
      simp only [setValue,ht,bind_some,encryptTokenCookie,hp] at hse
      exact (some.inj hse).symm
    have hr : returnedValue text = text := by
      simpa [hre,decryptTokenCookie,hp,hva] using heq
    rw [hva,hr] at hv
    have hc : text.takeWhile (· != HttpHeaders.semicolon) = text := by
      refine (takeWhile_sublist _).eq_of_length_le ?_
      have hl := (DelimitedText.trim_sublist (text.takeWhile (· != HttpHeaders.semicolon))).length_le
      rwa [← returnedValue,hr] at hl
    refine ⟨fun hm => ?_,?_,hv⟩
    · have := takeWhile_eq_self_iff.mp hc _ hm
      simp at this
    · rwa [returnedValue,hc] at hr

lemma Login.comesBack
    (hco : ∀ s signature, presentedSession L config hos hea = some (s, signature) →
      L.hmac config.hmacSecret session.bytes = L.hmac config.hmacSecret s.bytes →
        session.bytes = s.bytes) {now : ℕ}
    (ha : OAuth2Filter.isAuthenticated L config now hos hea = true) :
    ComesBack config tokens elapsed := by
  obtain ⟨s,signature,-,hs,-,-,hv⟩ := isAuthenticated_eq_true ha
  have hb := hco s signature hs
  obtain ⟨hmac,hh,hs⟩ := bind_eq_some_iff.mp hs
  obtain ⟨expires,he,hs⟩ := bind_eq_some_iff.mp hs
  obtain ⟨rfl,rfl⟩ := Prod.mk.injEq .. ▸ some.inj hs
  obtain ⟨value,hk,rfl,-⟩ := h.kept_of_readCookie (k := .hmac) hca hh
  obtain ⟨v',hk',rfl,-⟩ := h.kept_of_readCookie (k := .expires) hca he
  obtain rfl := some.inj hk.set
  obtain rfl := some.inj hk'.set
  have hcl : IsClean (computeSessionHmac L config.hmacSecret session) := isClean_encode ..
  have hc : IsClean session.expires := by
    rw [h.session_eq.2]
    exact isClean_formatDecimal _
  rw [hcl.returnedValue_eq,hc.returnedValue_eq,verifySessionHmac_iff] at hv
  rw [hc.returnedValue_eq] at hb
  have heq := h.tokenText_eq_of_bytes hca (hb hv)
  exact
    { domain := hk.writable.domain
      expires := hk'.writable.path
      hmac := hk.writable.path
      token := fun t text ht hem => h.token_of_tokenText_eq hca (heq t) ht hem }

end

/-- After a login, a request to the same host with the cookies that are left of
it, before the session expires, is accepted for its session if and only if it is
for a protected path and every cookie that matters comes back: the domain and the
paths of the cookies can be written, and each token that is not empty has not
passed the age of its cookie and, if it is not encrypted, is clean. -/
theorem session_accepted_iff {isHttps : Bool} {query host : Str} {headers : HeaderMap}
    {request : Request} {now : ℕ} (hnames : ValidNames config.cookieNames)
    (hlogin : (handleCallback L config env isHttps query headers host).status = 302)
    (htokens : env.answer = some tokens) (hhost : extractHost request = some host)
    (hlater : env.exchangedAt ≤ now)
    (hbefore : now < env.exchangedAt + sessionExpiresIn config tokens)
    (hcarry : Carries (request.headers.getAll (str "cookie"))
      (liveCookies ((handleCallback L config env isHttps query headers host).headers.getAll
        (str "set-cookie")) (now - env.exchangedAt)))
    (hcollision : ∀ session s signature, issuedSession config env host tokens = some session →
      presentedSession L config host request.headers = some (s, signature) →
      L.hmac config.hmacSecret session.bytes = L.hmac config.hmacSecret s.bytes →
        session.bytes = s.bytes) :
    SessionPath L config now request ↔
      route config request = .session host ∧ ComesBack config tokens (now - env.exchangedAt) := by
  obtain ⟨session,h⟩ := exists_login hnames hlogin htokens (now - env.exchangedAt)
  constructor
  · rintro ⟨host',hr,ha⟩
    cases hhost.symm.trans (extractHost_of_route hr)
    exact ⟨hr,h.comesBack hcarry (fun s signature => hcollision session s signature h.issued) ha⟩
  · rintro ⟨hr,hb⟩
    have ha := h.isAuthenticated hcarry hb (by omega)
    rw [Nat.add_sub_cancel' hlater] at ha
    exact ⟨host,hr,ha⟩

def shortRefresh : OAuth2Config := { loginConfig with defaultRefreshTokenExpiresIn := 60 }

lemma carries_laterRequest (c : OAuth2Config) (e : ℕ) :
    Carries ((laterRequest c e).headers.getAll (str "cookie"))
      (liveCookies ((loginResponse c).headers.getAll (str "set-cookie")) e) := by
  refine ⟨[liveCookies ((loginResponse c).headers.getAll (str "set-cookie")) e],by simp,?_⟩
  have hne : str "host" ≠ str "cookie" := by decide
  simp [laterRequest,getAll,hne,returnedCookies]

def loginTokens : TokenEndpointResponse :=
  { accessToken := str "t", refreshToken := some (str "r") }

/-- A session of an hour ends after a minute, when the refresh token is no longer
sent. -/
theorem session_lost_with_refresh_token :
    (loginResponse shortRefresh).status = 302 ∧ (loginEnv 20).answer = some loginTokens ∧
      Carries ((laterRequest shortRefresh 60).headers.getAll (str "cookie"))
        (liveCookies ((loginResponse shortRefresh).headers.getAll (str "set-cookie")) 60) ∧
      route shortRefresh (laterRequest shortRefresh 60) = .session (str "h") ∧
      80 < 20 + sessionExpiresIn shortRefresh loginTokens ∧
      ¬ SessionPath plainLibrary shortRefresh 80 (laterRequest shortRefresh 60) := by
  have hr : route shortRefresh (laterRequest shortRefresh 60) = .session (str "h") := by
    decide +kernel
  have hn : isAuthenticated plainLibrary shortRefresh 80 (str "h")
      (laterRequest shortRefresh 60).headers = false := by decide +kernel
  refine ⟨by decide +kernel,rfl,carries_laterRequest ..,hr,by decide,?_⟩
  rintro ⟨hs,hr',ha⟩
  obtain rfl := Route.session.inj (hr.symm.trans hr')
  rw [hn] at ha
  simp at ha

lemma validNames_default : ValidNames {} where
  isName := fun k => by
    rcases k with (_ | _ | _) | _ | _ <;> exact ⟨by decide,by decide,by decide,by decide,by decide⟩
  injective := fun i j h => by
    rcases i with (_ | _ | _) | _ | _ <;> rcases j with (_ | _ | _) | _ | _ <;>
      first | rfl | exact nomatch h

theorem session_accepted_within_minute :
    SessionPath plainLibrary shortRefresh 79 (laterRequest shortRefresh 59) := by
  have hl : (handleCallback plainLibrary shortRefresh (loginEnv 20) false callbackRequest.query
      callbackRequest.headers (str "h")).status = 302 := by decide +kernel
  have hp : presentedSession plainLibrary shortRefresh (str "h")
      (laterRequest shortRefresh 59).headers =
      (issuedSession shortRefresh (loginEnv 20) (str "h") loginTokens).map fun session =>
        (session, computeSessionHmac plainLibrary (str "k") session) := by
    decide +kernel
  have ht : (loginEnv 20).answer = some loginTokens := rfl
  refine (session_accepted_iff validNames_default hl ht (by decide +kernel) (by decide)
    (by decide) (by exact carries_laterRequest shortRefresh 59) ?_).mpr ⟨by decide +kernel,?_⟩
  · intro session s si hse hs _
    rw [hp,hse] at hs
    obtain ⟨rfl,-⟩ : session = s ∧ _ := by simpa using hs
    rfl
  · refine ⟨by simp [DomainWritable,shortRefresh,loginConfig],by decide,by decide,?_⟩
    intro t text _ _
    have hec : shortRefresh.disableTokenEncryption ≠ true := by decide
    cases t <;> exact ⟨by decide,by decide,fun hpl => absurd hpl hec⟩

end ArionGateway.OAuth2Sessions
