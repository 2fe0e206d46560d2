import ArionGateway.Executions
import ArionGateway.FallibleSteps
import ArionGateway.JwtAuthn

/-!
# The cache of decoded tokens

A token is looked up under the part after its last dot, its signature, and a hit is taken as it
is: neither the token nor the provider it was stored for is compared. A token with another payload
and the signature of an admitted one is therefore admitted with the claims of the other. A request
whose hit was stored for its own token, and with the key its provider uses for that token, is
treated as with an empty cache at the time of storing, at most a second ago.
-/
namespace ArionGateway.JwtCache
open ByteStrings JwtAuthn Executions FallibleSteps List Option
open Function (update update_of_ne update_self)

variable {L : JwtLibrary} {answer : Except JwkError (List (Jwk L))} {config : JwtAuthentication L}
  {now : ℕ} {stored : Stored L} {t name : Str} {contexts : Contexts L}

lemma decodeUncached_eq_ok : decodeUncached config contexts answer now t name = .ok stored ↔
      stored.token = t ∧ stored.storedAt = now ∧ L.decodeHeader t = .ok stored.entry.header ∧
      (∃ provider, config.providers.lookup name = some provider ∧
        selectedKey provider contexts answer now name stored.entry.header = some stored.key) ∧
      L.decode t stored.key.decodingKey stored.key.validation now = .ok stored.entry.claims := by
  simp only [decodeUncached,bind_eq_ok,mapError_eq_ok,elim_error_eq_ok]
  constructor
  · rintro ⟨he,hh,provider,hp,key,hk,claims,hc,h⟩
    cases h
    exact ⟨rfl,rfl,hh,⟨provider,hp,hk⟩,hc⟩
  · rintro ⟨rfl,rfl,hh,⟨provider,hp,hk⟩,hc⟩
    exact ⟨_,hh,provider,hp,_,hk,_,hc,rfl⟩

lemma selectedKey_now (p : JwtProvider) (c : Contexts L)
    (a : Except JwkError (List (Jwk L))) (now n' : ℕ) (n : Str) (header : Header) :
    selectedKey p c a now n header = selectedKey p c a n' n header := by
  unfold selectedKey
  cases c n with
  | none => rfl
  | some keys =>
    cases header.kid with
    | none => cases keys <;> rfl
    | some kid =>
      cases keys with
      | permanent map | expiring map ex => rfl
      | pending =>
        simp only [validationKeyLookup,refreshed]
        cases p.remote with
        | none => rfl
        | some d =>
          cases fetchRemoteJwks p a with
          | error e => rfl
          | ok new =>
            cases hk : new.lookup kid <;> simp [hk,Asset.value?]

/-- The keys of a set are validated as their provider has it. -/
def ValidatedBy (provider : JwtProvider) (keys : KeyMap L) : Prop :=
  ∀ entry ∈ keys, ∃ alg, entry.2.validation = buildValidation alg provider

variable {provider : JwtProvider} {new keys : KeyMap L}

lemma parseJwk_validatedBy {jwk : Jwk L} (hk : ValidatedBy provider keys)
    (h : parseJwk provider keys jwk = .ok new) : ValidatedBy provider new := by
  simp only [parseJwk,bind_eq_ok] at h
  obtain ⟨kid,_,keyAlg,_,alg,_,decodingKey,_,hn⟩ := h
  cases hn
  intro e he
  rcases mem_append.mp he with ho | hn
  · exact hk e (mem_of_mem_filter ho)
  · obtain rfl := mem_singleton.mp hn
    exact ⟨alg,rfl⟩

variable {j : List (Jwk L)}

lemma foldlM_parseJwk_validatedBy (hk : ValidatedBy provider keys)
    (h : j.foldlM (parseJwk provider) keys = .ok new) : ValidatedBy provider new := by
  induction j generalizing keys with
  | nil =>
    cases h
    exact hk
  | cons jwk j ih =>
    rw [foldlM_cons,bind_eq_ok] at h
    obtain ⟨n,hn,hr⟩ := h
    exact ih (parseJwk_validatedBy hk hn) hr

lemma fetchRemoteJwks_validatedBy (h : fetchRemoteJwks provider answer = .ok new) :
    ValidatedBy provider new := by
  obtain ⟨j,_,hj⟩ := bind_eq_ok.mp h
  exact foldlM_parseJwk_validatedBy (fun _ h => by cases h) hj

lemma refreshed_validatedBy {new : KeyMap L × ℕ} (h : refreshed provider answer now = some new) :
    ValidatedBy provider new.1 := by
  unfold refreshed at h
  split at h
  next hf =>
    cases h
    exact fetchRemoteJwks_validatedBy hf
  · cases h

/-- The keys of every provider are validated as the provider has it. -/
def ContextsValidated (config : JwtAuthentication L) (contexts : Contexts L) : Prop :=
  ∀ name provider asset keys, config.providers.lookup name = some provider →
    contexts name = some asset → asset.value? = some keys → ValidatedBy provider keys

variable {key : ValidationKey L}

lemma mem_of_lookup {kid : Str} (h : keys.lookup kid = some key) : (kid, key) ∈ keys := by
  obtain ⟨b,after,rfl,_⟩ := lookup_eq_some_iff.mp h
  exact mem_append_right _ mem_cons_self

lemma validationKeyLookup_key {kid : Option Str} {k : Asset (KeyMap L)}
    {a : Asset (ValidationKey L)} (h : (validationKeyLookup provider answer now kid k).1 = some a)
    (hk : a.value? = some key) : ∃ map id, (id, key) ∈ map ∧
      (k.value? = some map ∨ ∃ d, refreshed provider answer now = some (map, d)) := by
  unfold validationKeyLookup at h
  split at h
  case h_1 | h_2 =>
    obtain ⟨f,hf,rfl⟩ := map_eq_some_iff.mp h
    cases hk
    exact ⟨_,_,mem_of_lookup hf,.inl rfl⟩
  case h_4 | h_5 =>
    obtain ⟨f,hf,rfl⟩ := map_eq_some_iff.mp h
    cases hk
    exact ⟨_,f.1,mem_of_head? hf,.inl rfl⟩
  · split at h
    next map d hr =>
      obtain ⟨f,hf,rfl⟩ := map_eq_some_iff.mp h
      cases hk
      exact ⟨map,_,mem_of_lookup hf,.inr ⟨d,hr⟩⟩
    · cases h
      cases hk
  · cases h
    cases hk

lemma selectedKey_validated (hc : ContextsValidated config contexts) {header : Header}
    (hp : config.providers.lookup name = some provider)
    (h : selectedKey provider contexts answer now name header = some key) :
    ∃ alg, key.validation = buildValidation alg provider := by
  obtain ⟨keys,hk,hre⟩ := bind_eq_some_iff.mp h
  obtain ⟨a,ha,hke⟩ := bind_eq_some_iff.mp hre
  obtain ⟨map,id,hm,hma | ⟨d,hr⟩⟩ := validationKeyLookup_key ha hke
  · exact hc name provider keys map hp hk hma _ hm
  · exact refreshed_validatedBy hr _ hm

/-- The events of a worker thread: time goes on, the cache drops an entry, the
keys of a provider are fetched by another task, a request is handled. -/
inductive Event (L : JwtLibrary) where
  | advance (ms : ℕ)
  | evict (key : Str)
  | refresh (filter : ℕ) (name : Str) (answer : Except JwkError (List (Jwk L)))
  | request (filter : ℕ) (request : Request L) (answer : Except JwkError (List (Jwk L)))
      (lookup : Bool)

structure Worker (L : JwtLibrary) where
  clock : ℕ
  cache : JwtCache L
  contexts : ℕ → Contexts L

def Worker.situation (w : Worker L) (filter : ℕ) (answer : Except JwkError (List (Jwk L)))
    (lookup : Bool) : Situation L :=
  { contexts := w.contexts filter, cache := w.cache, now := w.clock, answer, lookup }

open Worker

section

variable (filters : ℕ → JwtAuthentication L) {config : JwtAuthentication L} {contexts : Contexts L}

def Worker.initial (localJwks : ℕ → Str → Except JwkError (List (Jwk L))) : Worker L where
  clock := 0
  cache := fun _ => none
  contexts := fun filter name =>
    ((filters filter).providers.lookup name).bind fun provider =>
      buildContext provider (localJwks filter name)

def Worker.step (w : Worker L) : Event L → Worker L
  | .advance ms => { w with clock := w.clock+ms }
  | .evict key => { w with cache := update w.cache key none }
  | .refresh filter name answer =>
    match ((filters filter).providers.lookup name).bind fun provider =>
      refreshed provider answer w.clock with
    | some (new, deadline) =>
      { w with
        contexts := update w.contexts filter
          (update (w.contexts filter) name (some (.expiring new deadline))) }
    | none => w
  | .request filter request answer lookup =>
    let left := (applyRequest (filters filter) (w.situation filter answer lookup) request).2
    { w with contexts := update w.contexts filter left.1, cache := left.2 }

/-- An entry of the cache is what its own token decodes to with its own key. -/
structure Genuine (now : ℕ) (key : Str) (stored : Stored L) : Prop where
  key_eq : cacheKey stored.token = key
  header_eq : L.decodeHeader stored.token = .ok stored.entry.header
  claims_eq : L.decode stored.token stored.key.decodingKey stored.key.validation stored.storedAt =
    .ok stored.entry.claims
  storedAt_le : stored.storedAt ≤ now

structure Worker.Sound (w : Worker L) : Prop where
  cached : ∀ key stored, w.cache key = some stored → Genuine w.clock key stored
  validated : ∀ filter, ContextsValidated (filters filter) (w.contexts filter)

variable {filters}

lemma contextsValidated_update (hc : ContextsValidated config contexts) {n : Str}
    {a : Asset (KeyMap L)} (ha : ∀ provider keys, config.providers.lookup n = some provider →
      a.value? = some keys → ValidatedBy provider keys) :
    ContextsValidated config (update contexts n (some a)) := by
  intro o provider f keys hp hf hk
  by_cases h : o = n
  · subst h
    rw [update_self] at hf
    cases hf
    exact ha provider keys hp hk
  · rw [update_of_ne h] at hf
    exact hc o provider f keys hp hf hk

lemma contextsValidated_refreshed (hc : ContextsValidated config contexts)
    (a : Except JwkError (List (Jwk L))) (now : ℕ) (t n : Str) :
    ContextsValidated config (refreshedContexts config contexts a now t n) := by
  unfold refreshedContexts
  split
  next provider keys _ hp hk =>
    refine contextsValidated_update hc fun other map ho hm => ?_
    cases hp.symm.trans ho
    have h := hc n provider keys map hp hk
    unfold validationKeyLookup at hm
    split at hm
    · exact h hm
    · split at hm
      next hr =>
        split at hm
        · cases hm
          exact refreshed_validatedBy hr
        · exact h hm
      · exact h hm
    · split at hm
      next hr =>
        cases hm
        exact refreshed_validatedBy hr
      · exact h hm
    all_goals exact h hm
  · exact hc

lemma decodeJwtToken_left {s : Situation L} (t n : Str)
    (hc : ∀ key stored, s.cache key = some stored → Genuine s.now key stored)
    (hv : ContextsValidated config s.contexts) :
    (∀ key stored, (decodeJwtToken config s t n).2.2 key = some stored → Genuine s.now key stored) ∧
    ContextsValidated config (decodeJwtToken config s t n).2.1 := by
  unfold decodeJwtToken
  split
  · exact ⟨hc,hv⟩
  · have hco := contextsValidated_refreshed hv s.answer s.now t n
    cases hd : decodeUncached config s.contexts s.answer s.now t n with
    | error e => exact ⟨hc,hco⟩
    | ok new =>
      refine ⟨fun key stored hst => ?_,hco⟩
      obtain ⟨rfl,hn,hh,_,hcl⟩ := decodeUncached_eq_ok.mp hd
      by_cases hk : key = cacheKey new.token
      · subst hk
        simp only [update_self,some.injEq] at hst
        subst hst
        exact ⟨rfl,hh,hn ▸ hcl,hn.le⟩
      · simp only [update_of_ne hk] at hst
        exact hc key stored hst

lemma applyRequest_left {s : Situation L} (r : Request L)
    (hc : ∀ key stored, s.cache key = some stored → Genuine s.now key stored)
    (hv : ContextsValidated config s.contexts) :
    (∀ key stored, (applyRequest config s r).2.2 key = some stored → Genuine s.now key stored) ∧
    ContextsValidated config (applyRequest config s r).2.1 := by
  fun_cases applyRequest config s r with
  | case1 | case2 => exact ⟨hc,hv⟩
  | case3 name _ extract _ _ _ _ hd | case4 name _ extract _ _ _ _ hd
  | case5 name _ extract _ _ _ _ hd =>
    have hl := decodeJwtToken_left extract.token name hc hv
    rwa [hd] at hl

lemma Worker.sound_initial (l : ℕ → Str → Except JwkError (List (Jwk L))) :
    (initial filters l).Sound filters := by
  refine ⟨fun key stored h => (by cases h),?_⟩
  intro f name provider a keys hp ha hk
  simp only [initial,hp,bind_some,buildContext] at ha
  split at ha
  · cases ha
    cases hk
  · obtain ⟨map,hm,rfl⟩ := map_eq_some_iff.mp ha
    cases hk
    cases hpa : (l f name).bind (parseJwks provider) with
    | error e =>
      rw [hpa] at hm
      cases hm
    | ok fo =>
      rw [hpa] at hm
      cases hm
      exact fetchRemoteJwks_validatedBy hpa

lemma Worker.sound_step {w : Worker L} (h : w.Sound filters) (e : Event L) :
    (w.step filters e).Sound filters := by
  cases e with
  | advance ms =>
    refine ⟨fun key stored hs => ?_,h.validated⟩
    have hg := h.cached key stored hs
    exact ⟨hg.key_eq,hg.header_eq,hg.claims_eq,hg.storedAt_le.trans (Nat.le_add_right ..)⟩
  | evict d =>
    refine ⟨fun key stored hs => ?_,h.validated⟩
    by_cases hk : key = d
    · subst hk
      simp [step] at hs
    · simp only [step,update_of_ne hk] at hs
      exact h.cached key stored hs
  | refresh f name answer =>
    simp only [step]
    split
    next new deadline hr =>
      refine ⟨h.cached,fun o => ?_⟩
      by_cases ho : o = f
      · subst ho
        simp only [update_self]
        refine contextsValidated_update (h.validated o) fun provider keys hp hke => ?_
        rw [hp] at hr
        cases hke
        exact refreshed_validatedBy hr
      · simp only [update_of_ne ho]
        exact h.validated o
    · exact h
  | request f request answer l =>
    have hl := applyRequest_left (s := w.situation f answer l) request h.cached (h.validated f)
    refine ⟨hl.1,fun o => ?_⟩
    by_cases ho : o = f
    · subst ho
      simp only [step,update_self]
      exact hl.2
    · simp only [step,update_of_ne ho]
      exact h.validated o

lemma Worker.sound_of_run {l : ℕ → Str → Except JwkError (List (Jwk L))}
    {ev : List (Event L)} {w : Worker L}
    (h : Run (fun w e w' => w' = w.step filters e) (.initial filters l) ev w) :
    w.Sound filters := by
  refine h.invariant (Worker.Sound filters) (fun w e w' hw hst => ?_) (sound_initial l)
  subst hst
  exact sound_step hw e

/-- A hit in the cache was stored for the token of the request and with the key
that its provider uses for it. -/
def OwnHit (config : JwtAuthentication L) (s : Situation L) (request : Request L) : Prop :=
  ∀ name provider extract stored, providerLookup config request = some name →
    config.providers.lookup name = some provider → extractToken provider request = some extract →
    s.lookup = true → s.cache.live s.now (cacheKey extract.token) = some stored →
      stored.token = extract.token ∧
      selectedKey provider s.contexts s.answer s.now name stored.entry.header = some stored.key

end

def Situation.emptied (s : Situation L) (now : ℕ) : Situation L :=
  { s with cache := fun _ => none, now }

open Situation (emptied)

lemma decodeJwtToken_emptied (c : JwtAuthentication L) (s : Situation L) (now : ℕ) (t n : Str) :
    (decodeJwtToken c (emptied s now) t n).1 =
      (decodeUncached c s.contexts s.answer now t n).map Stored.entry := by
  have hm : (if (emptied s now).lookup then
      (emptied s now).cache.live now (cacheKey t) else none) = none := by
    split <;> rfl
  unfold decodeJwtToken
  rw [show (emptied s now).now = now from rfl,hm]
  simp only [emptied]
  cases decodeUncached c s.contexts s.answer now t n <;> rfl

variable {s : Situation L}

lemma decodeJwtToken_of_hit (hl : s.lookup = true)
    (hh : s.cache.live s.now (cacheKey t) = some stored) (hg : Genuine s.now (cacheKey t) stored)
    (hp : config.providers.lookup name = some provider) (ht : stored.token = t)
    (hk : selectedKey provider s.contexts s.answer s.now name stored.entry.header =
      some stored.key) : (decodeJwtToken config s t name).1 =
      (decodeJwtToken config (emptied s stored.storedAt) t name).1 := by
  have hd : decodeUncached config s.contexts s.answer stored.storedAt t name = .ok stored := by
    rw [decodeUncached_eq_ok]
    refine ⟨ht,rfl,ht ▸ hg.header_eq,⟨provider,hp,?_⟩,ht ▸ hg.claims_eq⟩
    rw [← hk]
    exact selectedKey_now ..
  rw [decodeJwtToken_emptied,hd,decodeJwtToken,hl,hh]
  rfl

variable {request : Request L}

/-- The decision and the request depend on the worker thread through the decoded
token only. -/
lemma applyRequest_congr {t : Situation L}
    (h : ∀ name provider e, providerLookup config request = some name →
      config.providers.lookup name = some provider → extractToken provider request = some e →
      (decodeJwtToken config s e.token name).1 = (decodeJwtToken config t e.token name).1) :
    (applyRequest config s request).1 = (applyRequest config t request).1 := by
  unfold applyRequest
  cases hn : providerLookup config request with
  | none => rfl
  | some name =>
    cases hp : config.providers.lookup name with
    | none => simp [hp]
    | some provider =>
      cases he : extractToken provider request with
      | none => simp [hp,he]
      | some e =>
        have hd := h name provider e hn hp he
        simp only [hp,bind_some,he]
        cases hs : decodeJwtToken config s e.token name with
        | mk r l =>
          cases ht : decodeJwtToken config t e.token name with
          | mk r' l' =>
            rw [hs,ht] at hd
            subst hd
            cases r <;> rfl

def Hits (config : JwtAuthentication L) (s : Situation L) (request : Request L) (name : Str)
    (provider : JwtProvider) (extract : JwtExtract) (stored : Stored L) : Prop :=
  providerLookup config request = some name ∧ config.providers.lookup name = some provider ∧
    extractToken provider request = some extract ∧ s.lookup = true ∧
    s.cache.live s.now (cacheKey extract.token) = some stored

lemma exists_emptied (hc : ∀ key stored, s.cache key = some stored → Genuine s.now key stored)
    (ho : OwnHit config s request) :
    ∃ τ, τ ≤ s.now ∧ s.now < τ+timeToLive ∧ (applyRequest config s request).1 =
        (applyRequest config (emptied s τ) request).1 := by
  by_cases hh : ∃ name provider extract stored, Hits config s request name provider extract stored
  · obtain ⟨name,provider,extract,stored,hn,hp,he,hl,hli⟩ := hh
    obtain ⟨ht,hk⟩ := ho name provider extract stored hn hp he hl hli
    obtain ⟨hst,hlt⟩ := filter_eq_some_iff.mp hli
    replace hlt := of_decide_eq_true hlt
    have hg := hc _ _ hst
    refine ⟨stored.storedAt,hg.storedAt_le,hlt,applyRequest_congr ?_⟩
    intro name' provider' extract' hn' hp' he'
    cases hn.symm.trans hn'
    cases hp.symm.trans hp'
    cases he.symm.trans he'
    exact decodeJwtToken_of_hit hl hli hg hp ht hk
  · refine ⟨s.now,le_refl _,Nat.lt_add_of_pos_right (by decide),applyRequest_congr ?_⟩
    intro name provider extract hn hp he
    have hm : (if s.lookup then s.cache.live s.now (cacheKey extract.token) else none) = none := by
      split_ifs with hl
      · cases hli : s.cache.live s.now (cacheKey extract.token) with
        | none => rfl
        | some stored => exact absurd ⟨name,provider,extract,stored,hn,hp,he,hl,hli⟩ hh
      · rfl
    rw [decodeJwtToken_emptied,decodeJwtToken,hm]
    cases decodeUncached config s.contexts s.answer s.now extract.token name <;> rfl

lemma applyRequest_emptied_admits (h : (applyRequest config (emptied s now) request).1.1.Admits) :
    ∃ name provider extract stored, providerLookup config request = some name ∧
      config.providers.lookup name = some provider ∧ extractToken provider request = some extract ∧
      decodeUncached config s.contexts s.answer now extract.token name = .ok stored ∧
      (applyRequest config (emptied s now) request).1.2 =
        passOn provider extract stored.entry request := by
  revert h
  fun_cases applyRequest config (emptied s now) request with
  | case5 name hn extract he entry contexts cache hd provider hp =>
    have hde := decodeJwtToken_emptied config s now extract.token name
    rw [hd] at hde
    rw [hp] at he
    cases hu : decodeUncached config s.contexts s.answer now extract.token name with
    | error e => simp [hu,Except.map] at hde
    | ok stored =>
      obtain rfl : entry = stored.entry := by simpa [hu,Except.map] using hde
      exact fun _ => ⟨name,provider,extract,stored,hn,hp,he,hu,rfl⟩
  | _ => simp [FilterDecision.Admits]

variable {filters : ℕ → JwtAuthentication L}

/-- A request with an own hit, or none, is treated as with an empty cache at a
time at most a second ago: an admitted token verifies with a key of the selected
provider and its settings, and what is passed on are its claims. -/
theorem admitted_as_without_cache {localJwks : ℕ → Str → Except JwkError (List (Jwk L))}
    {events : List (Event L)} {w : Worker L}
    (hrun : Run (fun w e w' => w' = w.step filters e) (.initial filters localJwks) events w)
    (filter : ℕ) (request : Request L) (answer : Except JwkError (List (Jwk L))) (lookup : Bool)
    (hown : OwnHit (filters filter) (w.situation filter answer lookup) request) :
    ∃ τ, τ ≤ w.clock ∧ w.clock < τ + timeToLive ∧
      (applyRequest (filters filter) (w.situation filter answer lookup) request).1 =
        (applyRequest (filters filter)
          (Situation.emptied (w.situation filter answer lookup) τ) request).1 ∧
      ((applyRequest (filters filter) (w.situation filter answer lookup) request).1.1.Admits →
        ∃ name provider extract key alg entry, providerLookup (filters filter) request = some name ∧
          (filters filter).providers.lookup name = some provider ∧
          extractToken provider request = some extract ∧
          selectedKey provider (w.contexts filter) answer w.clock name entry.header = some key ∧
          key.validation = buildValidation alg provider ∧
          L.decodeHeader extract.token = .ok entry.header ∧
          L.decode extract.token key.decodingKey key.validation τ = .ok entry.claims ∧
          (applyRequest (filters filter) (w.situation filter answer lookup) request).1.2 =
            passOn provider extract entry request) := by
  have hso := sound_of_run hrun
  obtain ⟨τ,hle,hlt,heq⟩ := exists_emptied hso.cached hown
  refine ⟨τ,hle,hlt,heq,fun ha => ?_⟩
  rw [heq] at ha ⊢
  obtain ⟨name,provider,extract,stored,hn,hp,he,hd,hpa⟩ := applyRequest_emptied_admits ha
  obtain ⟨_,_,hh,⟨provider',hp',hk⟩,hc⟩ := decodeUncached_eq_ok.mp hd
  cases hp.symm.trans hp'
  obtain ⟨alg,hal⟩ := selectedKey_validated (hso.validated filter) hp hk
  refine ⟨name,provider,extract,stored.key,alg,stored.entry,hn,hp,he,?_,hal,hh,hc,hpa⟩
  rw [← hk]
  exact selectedKey_now ..

def library : JwtLibrary :=
  libraryOf [((str "h.p.s", 7), { sub := some (str "user"), exp := some 100 })]

def admittedOnce : Worker library :=
  (Worker.initial (fun _ => subjectConfig) fun _ _ => .ok [subjectJwk (7 : ℕ)]).step
    (fun _ => subjectConfig) (.request 0 (withToken "h.p.s" []) (.ok []) true)

lemma run_admittedOnce : Run (fun w e w' => w' = step (fun _ => subjectConfig) w e)
      (.initial (fun _ => subjectConfig) fun _ _ => .ok [subjectJwk (7 : ℕ)])
      [.request 0 (withToken "h.p.s" []) (.ok []) true] admittedOnce := .cons rfl (.nil _)

/-- A token with another payload and the signature of the admitted one is
admitted as the other. Without the cache it never is. -/
theorem forged_token_admitted :
    (applyRequest subjectConfig (admittedOnce.situation 0 (.ok []) true)
      (withToken "h.x.s" [])).1.1 = .continue ∧
    (applyRequest subjectConfig (admittedOnce.situation 0 (.ok []) true)
      (withToken "h.x.s" [])).1.2.headers.getAll (str "x-jwt-sub") = [str "user"] ∧
    ∀ τ, (applyRequest subjectConfig
      (Situation.emptied (admittedOnce.situation 0 (.ok []) true) τ) (withToken "h.x.s" [])).1.1 =
        .unauthorized (str "failed to decode JWT token: JsonWebToken: InvalidSignature") := by
  refine ⟨by decide,by decide,fun τ => ?_⟩
  rfl

set_option maxRecDepth 8000 in
theorem same_token_admitted_again :
    ∃ τ, τ ≤ admittedOnce.clock ∧ admittedOnce.clock < τ + timeToLive ∧
      (applyRequest subjectConfig (admittedOnce.situation 0 (.ok []) true)
        (withToken "h.p.s" [])).1 = (applyRequest subjectConfig
        (Situation.emptied (admittedOnce.situation 0 (.ok []) true) τ) (withToken "h.p.s" [])).1 := by
  have ho : OwnHit subjectConfig (admittedOnce.situation 0 (.ok []) true)
      (withToken "h.p.s" []) := by
    intro name provider e stored hn hp he hl hli
    cases hn
    cases hp
    cases he
    cases hli
    exact ⟨rfl,rfl⟩
  obtain ⟨τ,hle,hlt,heq,_⟩ := admitted_as_without_cache run_admittedOnce 0
    (withToken "h.p.s" []) (.ok []) true ho
  exact ⟨τ,hle,hlt,heq⟩

end ArionGateway.JwtCache
