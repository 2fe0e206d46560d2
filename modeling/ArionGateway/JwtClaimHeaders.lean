import ArionGateway.JwtAuthn

/-!
# Claims in headers

A provider may have claims copied to headers for the upstream. A claim that the
token has, and that is a valid header value, replaces what the client sent. A
claim that is missing or has no valid text writes nothing, and a header of that
name passes through from the client.

Two requests with the same token end up with the same target headers exactly if
every target header in which they differ is written, or is the header the token
was taken from.
-/
namespace ArionGateway.JwtClaimHeaders
open ByteStrings HttpHeaders JwtAuthn

variable {L : JwtLibrary}

def claimValue (claims : JwtClaims L.Json) (name : Str) : Option Str :=
  (claimText claims name).bind fromStr

lemma writeClaim_eq (cl : JwtClaims L.Json) (headers : HeaderMap) (c : JwtClaimToHeader) :
    writeClaim cl headers c =
      (claimValue cl c.claimName).elim headers (headers.insert c.headerName) := by
  unfold writeClaim claimValue
  cases (claimText cl c.claimName).bind fromStr <;> rfl

def Writes (claims : JwtClaims L.Json) (h : Str) (c : JwtClaimToHeader) : Prop :=
  c.headerName = h ∧ (claimValue claims c.claimName).isSome

variable {h : Str} {claims : JwtClaims L.Json} {c : JwtClaimToHeader}

lemma getAll_writeClaim_of_writes (hw : Writes claims h c) (a b : HeaderMap) :
    (writeClaim claims a c).getAll h = (writeClaim claims b c).getAll h := by
  obtain ⟨rfl,hs⟩ := hw
  obtain ⟨value,hv⟩ := Option.isSome_iff_exists.mp hs
  simp [writeClaim_eq,hv]

lemma getAll_writeClaim_of_not_writes (hw : ¬ Writes claims h c) (headers : HeaderMap) :
    (writeClaim claims headers c).getAll h = headers.getAll h := by
  rw [writeClaim_eq]
  cases hv : claimValue claims c.claimName with
  | none => rfl
  | some value =>
    have hne : h ≠ c.headerName := fun he => hw ⟨he.symm,by simp [hv]⟩
    exact HeaderMap.getAll_insert_of_ne hne

lemma getAll_foldl_writeClaim_eq_iff (cl : JwtClaims L.Json) (h : Str)
    (cs : List JwtClaimToHeader) (a b : HeaderMap) :
    (cs.foldl (writeClaim cl) a).getAll h = (cs.foldl (writeClaim cl) b).getAll h ↔
      (∃ c ∈ cs, Writes cl h c) ∨ a.getAll h = b.getAll h := by
  induction cs generalizing a b with
  | nil => simp
  | cons c cs ih =>
    rw [List.foldl_cons,List.foldl_cons,ih]
    by_cases hw : Writes cl h c
    · simp [getAll_writeClaim_of_writes hw a b,hw]
    · simp [getAll_writeClaim_of_not_writes hw,hw]

/-- The header a token was taken from does not reach the upstream. -/
def Removed (provider : JwtProvider) (extract : JwtExtract) (h : Str) : Prop :=
  provider.forward = false ∧ ∃ token, extract = .header h token

variable {provider : JwtProvider} {extract : JwtExtract}

lemma getAll_withoutToken_of_removed (hr : Removed provider extract h) (r : Request L) :
    (withoutToken provider extract r).headers.getAll h = [] := by
  obtain ⟨hf,token,rfl⟩ := hr
  simp [withoutToken,hf]

lemma getAll_withoutToken_of_not_removed (hr : ¬ Removed provider extract h) (r : Request L) :
    (withoutToken provider extract r).headers.getAll h = r.headers.getAll h := by
  unfold withoutToken
  split
  · rfl
  next hf =>
    cases extract with
    | header name token =>
      have hne : h ≠ name := fun he => hr ⟨by simpa using hf,token,by rw [he]⟩
      exact HeaderMap.getAll_remove_of_ne hne
    | queryParams key token =>
      simp only
      split
      · rfl
      · split <;> rfl
    | cookie token => rfl

lemma getAll_passOn_eq_iff (p : JwtProvider) (e : JwtExtract)
    (en : JwtCachedEntry L) (h : Str) (r₁ r₂ : Request L) :
    (passOn p e en r₁).headers.getAll h = (passOn p e en r₂).headers.getAll h ↔
      (∃ c ∈ p.claimToHeaders, Writes en.claims h c) ∨ Removed p e h ∨
        r₁.headers.getAll h = r₂.headers.getAll h := by
  have hp := getAll_foldl_writeClaim_eq_iff en.claims h p.claimToHeaders
    (withoutToken p e r₁).headers (withoutToken p e r₂).headers
  by_cases hr : Removed p e h
  · rw [getAll_withoutToken_of_removed hr,getAll_withoutToken_of_removed hr] at hp
    simpa [passOn,writeClaimsToHeaders,hr] using hp
  · rw [getAll_withoutToken_of_not_removed hr,getAll_withoutToken_of_not_removed hr] at hp
    simpa [passOn,writeClaimsToHeaders,hr] using hp

/-- The filter selects a provider for a request, takes a token out of it and
decodes it. -/
structure Admitted (config : JwtAuthentication L) (s : Situation L) (request : Request L)
    (provider : JwtProvider) (extract : JwtExtract) (entry : JwtCachedEntry L) : Prop where
  selected : ∃ name, providerLookup config request = some name ∧
    config.providers.lookup name = some provider ∧
    (decodeJwtToken config s extract.token name).1 = .ok entry
  extracted : extractToken provider request = some extract

lemma Admitted.applyRequest {co : JwtAuthentication L} {s : Situation L} {r : Request L}
    {en : JwtCachedEntry L} (h : Admitted co s r provider extract en) :
    (applyRequest co s r).1 = (if provider.clearRouteCache then .reroute else .continue,
        passOn provider extract en r) := by
  obtain ⟨name,hn,hp,hde⟩ := h.selected
  unfold JwtAuthn.applyRequest
  simp only [hn,hp,Option.bind_some,h.extracted]
  cases hd : decodeJwtToken co s extract.token name with
  | mk result left =>
    rw [hd] at hde
    subst hde
    rfl

/-- The target headers of two requests with the same token are equal after the
filter if and only if every one in which they differ is written from the claims
or is the header the token was taken from. -/
theorem targetHeaders_eq_iff {config : JwtAuthentication L} {s₁ s₂ : Situation L}
    {r₁ r₂ : Request L} {provider : JwtProvider} {extract : JwtExtract} {entry : JwtCachedEntry L}
    (h₁ : Admitted config s₁ r₁ provider extract entry)
    (h₂ : Admitted config s₂ r₂ provider extract entry) :
    (∀ c ∈ provider.claimToHeaders, (applyRequest config s₁ r₁).1.2.headers.getAll c.headerName =
        (applyRequest config s₂ r₂).1.2.headers.getAll c.headerName) ↔
    ∀ c ∈ provider.claimToHeaders, r₁.headers.getAll c.headerName ≠ r₂.headers.getAll c.headerName →
        (∃ d ∈ provider.claimToHeaders, d.headerName = c.headerName ∧
          (claimValue entry.claims d.claimName).isSome) ∨
        (provider.forward = false ∧ ∃ token, extract = .header c.headerName token) := by
  rw [h₁.applyRequest,h₂.applyRequest]
  refine forall₂_congr fun c _ => ?_
  rw [getAll_passOn_eq_iff]
  by_cases heq : r₁.headers.getAll c.headerName = r₂.headers.getAll c.headerName
  · simp [heq]
  · simp [heq,Writes,Removed]

def library : JwtLibrary :=
  libraryOf [((str "h.p.s", 7), { sub := some (str "user"), exp := some 100 }),
    ((str "h.q.t", 7), { exp := some 100 })]

def config : JwtAuthentication library := subjectConfig

def situation : Situation library where
  contexts := fun _ => buildContext subjectProvider (.ok [subjectJwk (7 : ℕ)])
  cache := fun _ => none
  now := 0
  answer := .ok []

/-- With a token that has no subject the client chooses the header itself. -/
theorem subject_chosen_by_client :
    (applyRequest config situation (withToken "h.q.t" [(str "x-jwt-sub", str "admin")])).1.1 =
        .continue ∧ (applyRequest config situation (withToken "h.q.t" [])).1.1 = .continue ∧
      (applyRequest config situation
        (withToken "h.q.t" [(str "x-jwt-sub", str "admin")])).1.2.headers.getAll (str "x-jwt-sub") =
        [str "admin"] ∧
      (applyRequest config situation (withToken "h.q.t" [])).1.2.headers.getAll (str "x-jwt-sub") =
        [] := by
  decide

theorem subject_written_from_token :
    (applyRequest config situation
      (withToken "h.p.s" [(str "x-jwt-sub", str "admin")])).1.2.headers.getAll (str "x-jwt-sub") =
    (applyRequest config situation (withToken "h.p.s" [])).1.2.headers.getAll (str "x-jwt-sub") := by
  have ha : ∀ headers, Admitted config situation (withToken "h.p.s" headers) subjectProvider
      (.header (str "authorization") (str "h.p.s"))
      ⟨⟨str "HS256",some (str "k")⟩,{ sub := some (str "user"), exp := some 100 }⟩ :=
    fun _ => ⟨⟨str "p",rfl,rfl,rfl⟩,rfl⟩
  refine (targetHeaders_eq_iff (ha _) (ha _)).mpr ?_ ⟨str "x-jwt-sub",str "sub"⟩ List.mem_cons_self
  intro c hc _
  refine .inl ⟨c,hc,rfl,?_⟩
  obtain rfl := List.mem_singleton.mp hc
  rfl

end ArionGateway.JwtClaimHeaders
