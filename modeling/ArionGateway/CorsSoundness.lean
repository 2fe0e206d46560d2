import ArionGateway.CorsFilter
import Mathlib.Algebra.Order.BigOperators.Group.List

/-!
# What the filter lets an origin do

The configuration as a policy, and the filter's own answers and the responses it
opens as a user agent reads them. The filter's own answers grant only methods
and headers of the policy; that the origin is one of the policy is not ensured,
since every matcher that accepts "*" lets all origins in. A preflight that fails
the filter's checks goes to the upstream, and its answer comes back with the
header that allows the origin: the upstream's lists, or their absence, then
decide what may be sent.
-/
namespace ArionGateway.CorsSoundness
open ByteStrings HttpHeaders FetchCors StringMatchers CorsFilter List Bool Cors Token

variable {ρ : Type} [RegexEngine ρ]

/-- A matcher accepts the origin, or all origins are allowed by the exact pattern "*". -/
def OriginAllowed (conf : CorsConfig ρ) (origin : Str) : Prop :=
  ∃ m ∈ conf.allowOrigins, m.matchesText origin = true ∨ m.pattern = .exact (str "*")

section
omit [RegexEngine ρ]
variable {conf : CorsConfig ρ}

def policy (conf : CorsConfig ρ) : Policy where
  method m := (∃ allowed ∈ conf.allowMethods, allowed.text = m) ∨ conf.methodsWildcard = true ∨
    isSafelistedMethod m = true
  name n := (∃ allowed ∈ conf.allowHeaders, eqIgnoreAsciiCase n allowed = true) ∨
    conf.headersWildcard = true ∨ eqIgnoreAsciiCase n mcpSessionId = true
  safelisted h := .inr (.inr h)
  anyMethod h m := by
    have hst : ¬ isSafelistedMethod wildcard = true := by decide
    rcases h with h | h | h
    · exact .inr (.inl (by simpa [CorsConfig.methodsWildcard,wildcard] using h))
    · exact .inr (.inl h)
    · exact absurd h hst
  anyName h n := by
    have hst : ¬ eqIgnoreAsciiCase wildcard mcpSessionId = true := by decide
    rcases h with ⟨allowed,hm,heq⟩ | h | h
    · have hs : CaseSensitive.equals ⟨false,str "*"⟩ allowed = true := heq
      rw [eq_star_of_equals hs] at hm
      exact .inr (.inl (by simpa [CorsConfig.headersWildcard] using hm))
    · exact .inr (.inl h)
    · exact absurd h hst
  ignoreCase hn h := by
    have hn := beq_iff_eq.mp hn
    simp only [eqIgnoreAsciiCase,hn]
    exact h

def longMethod (n : ℕ) : Token where
  text := List.replicate (n+5) 65
  valid := by
    have hb : isTokenByte 65 = true := by decide
    simp [isToken,List.replicate_succ,hb]

lemma not_isSafelistedMethod_longMethod (n : ℕ) :
    ¬ isSafelistedMethod (longMethod n).text = true := by
  have hl : ∀ m ∈ [str "GET",str "HEAD",str "POST"], m.length < 5 := by decide
  intro h
  have hm : (longMethod n).text ∈ [str "GET",str "HEAD",str "POST"] := by
    simpa [isSafelistedMethod] using h
  have hln := hl _ hm
  simp only [longMethod,length_replicate] at hln
  omega

lemma all_methods_iff :
    (∀ m : Token, (policy conf).method m.text) ↔ conf.methodsWildcard = true := by
  constructor
  · intro h
    let lengths := conf.allowMethods.map fun m => m.text.length
    rcases h (longMethod lengths.sum) with ⟨al,hm,heq⟩ | h | h
    · have hle : al.text.length ≤ lengths.sum := single_le_sum (fun _ _ => Nat.zero_le _) _
          (mem_map_of_mem (f := fun m : Token => m.text.length) hm)
      rw [heq] at hle
      simp only [longMethod,length_replicate] at hle
      omega
    · exact h
    · exact absurd h (not_isSafelistedMethod_longMethod _)
  · intro h m
    exact .inr (.inl h)

/-- The lists of an answer name only what is configured, and all methods are allowed if it
has no list of methods. -/
structure Lists (conf : CorsConfig ρ) (answer : Response) (methods names : List Str) : Prop where
  methods : ∀ m ∈ methods, (policy conf).method m
  names : ∀ n ∈ names, (policy conf).name n
  absent : answer.headers.containsKey accessControlAllowMethods = false →
    conf.methodsWildcard = true

lemma covers_iff {a : Response} {me names : List Str} :
    (policy conf).Covers a me names ↔ Lists conf a me names := by
  constructor
  · rintro ⟨hm,hn,ha⟩
    exact ⟨hm,hn,fun hk => all_methods_iff.mp (ha hk)⟩
  · rintro ⟨hm,hn,ha⟩
    exact ⟨hm,hn,fun hk => all_methods_iff.mpr (ha hk)⟩

/-! The filter's own answers. -/

variable {m : Token} {requested : Option Str}

def answerMethods (conf : CorsConfig ρ) (m : Token) : List Token :=
  if conf.methodsWildcard then if conf.allowCredentials then [m] else [⟨str "*",by decide⟩]
  else conf.allowMethods

lemma methodsStr_eq (c : CorsConfig ρ) (m : Token) :
    c.methodsStr m = (str ", ").intercalate ((answerMethods c m).map text) := by
  unfold CorsConfig.methodsStr answerMethods
  cases c.methodsWildcard with
  | false => rfl
  | true => cases c.allowCredentials <;> simp

lemma fromStr_methodsStr (c : CorsConfig ρ) (m : Token) :
    fromStr (c.methodsStr m) = some (c.methodsStr m) := by
  rw [methodsStr_eq]
  exact fromStr_tokens _

/-- What a passed check says about the preflight. -/
structure Passed (conf : CorsConfig ρ) (m : Token) (requested : Option Str) : Prop where
  method : conf.methodsWildcard = true ∨ m ∈ conf.allowMethods
  readable : ∀ line ∈ requested, fromStr line = some line
  names : conf.headersWildcard = true ∨
    ∀ line ∈ requested, ∀ n ∈ elements line, conf.isAllowedHeader (toAsciiLowercase n) = true

lemma of_guard {p : Prop} [Decidable p] {u : Unit} (h : (guard p : Option Unit) = some u) : p := by
  by_contra hp
  simp [hp] at h

lemma passed_of_checkPreflight {req : Request}
    (h : conf.checkPreflight req = some (m, requested)) : Passed conf m requested := by
  simp only [CorsConfig.checkPreflight,Option.bind_eq_bind,Option.bind_eq_some_iff] at h
  obtain ⟨line,-,method,-,_,hm,_,hna,rfl,rfl⟩ := h
  refine ⟨by simpa using of_guard hm,fun text ht => ?_,?_⟩
  · obtain ⟨value,-,hv⟩ := Option.bind_eq_some_iff.mp ht
    exact fromStr_of_toStr hv
  · rcases or_eq_true_iff.mp (of_guard hna) with hw | ha
    · exact .inl hw
    · refine .inr fun text ht n hn => ?_
      rw [ht] at ha
      obtain ⟨hme,hne⟩ := mem_filter.mp hn
      obtain ⟨piece,hp,rfl⟩ := mem_map.mp hme
      have hp := all_eq_true.mp ha _ (mem_map_of_mem hp)
      have hl : (toAsciiLowercase (trim piece)).isEmpty = false := by
        simpa [toAsciiLowercase] using hne
      simpa [hl] using hp

variable (c : Cors ρ) (a : Str)

def answerNames (conf : CorsConfig ρ) (requested : Option Str) : List Str :=
  (conf.headersStr requested).toList.flatMap elements

/-- The filter's answer repeats a line of requested headers that is no list of names. -/
def RepeatsBrokenList (conf : CorsConfig ρ) (requested : Option Str) : Prop :=
  ¬ (conf.headersWildcard = true ∧ conf.allowCredentials = false) ∧
    ∃ line ∈ requested, (elements line).all isToken = false

lemma all_answerNames_iff :
    (answerNames conf requested).all isToken = false ↔ RepeatsBrokenList conf requested := by
  have hst : (elements (str "*")).all isToken = true := by decide
  unfold answerNames RepeatsBrokenList CorsConfig.headersStr
  cases conf.headersWildcard <;> cases conf.allowCredentials <;> cases requested <;> simp [hst]

lemma headersStr_eq_some {text : Str} (h : conf.headersStr requested = some text) :
    conf.headersWildcard = true ∨ requested = some text := by
  unfold CorsConfig.headersStr at h
  split at h
  · exact .inl ‹_›
  · exact .inr (by simpa using h)
  · cases h

lemma fromStr_headersStr (h : Passed conf m requested) :
    ∀ text ∈ conf.headersStr requested, fromStr text = some text := by
  intro text ht
  unfold CorsConfig.headersStr at ht
  split at ht
  · obtain rfl : str "*" = text := by simpa using ht
    decide
  · obtain rfl : _ = text := by simpa using ht
    exact h.readable _ rfl
  · cases ht

lemma answerLists_preflight (h : Passed c.inner m requested) :
    answerLists { status := 204, headers := c.preflightHeaders a m requested } =
      if (answerNames c.inner requested).all isToken then
        some ((answerMethods c.inner m).map text, answerNames c.inner requested)
      else none := by
  have hme := c.getAll_preflightHeaders_methods a m requested (fromStr_methodsStr c.inner m)
  have hna := c.getAll_preflightHeaders_headers a m requested (fromStr_headersStr h)
  have ht : ((answerMethods c.inner m).map text).all isToken = true := by
    simp [valid]
  have hm : listValues (c.preflightHeaders a m requested)
      accessControlAllowMethods = some ((answerMethods c.inner m).map text) := by
    rw [listValues,hme,methodsStr_eq,flatMap_singleton,elements_tokens,if_pos ht]
  have hn : listValues (c.preflightHeaders a m requested)
      accessControlAllowHeaders = if (answerNames c.inner requested).all isToken then
        some (answerNames c.inner requested) else none := by
    rw [listValues,hna]
    rfl
  have hst : 200 ≤ 204 ∧ 204 ≤ 299 := by omega
  simp only [answerLists,hm,hn]
  by_cases ha : (answerNames c.inner requested).all isToken = true
  · rw [if_pos ha,if_pos ha]
    rfl
  · rw [if_neg ha,if_neg ha]
    rfl

lemma lists_preflight (h : Passed c.inner m requested) :
    Lists c.inner { status := 204, headers := c.preflightHeaders a m requested }
      ((answerMethods c.inner m).map text) (answerNames c.inner requested) where
  methods := by
    intro te hte
    obtain ⟨t,ht,rfl⟩ := mem_map.mp hte
    cases hw : c.inner.methodsWildcard with
    | true => exact .inr (.inl hw)
    | false =>
      have hme : t ∈ c.inner.allowMethods := by simpa [answerMethods,hw] using ht
      exact .inl ⟨t,hme,rfl⟩
  names := by
    intro n hn
    rcases h.names with hw | ha
    · exact .inr (.inl hw)
    · obtain ⟨l,hl,he⟩ := mem_flatMap.mp hn
      rcases headersStr_eq_some (Option.mem_toList.mp hl) with hw | hr
      · exact .inr (.inl hw)
      · rcases or_eq_true_iff.mp (ha l hr n he) with h | h
        · exact .inr (.inr (beq_iff_eq.mpr (beq_iff_eq.mp h)))
        · obtain ⟨al,hme,heq⟩ := any_eq_true.mp h
          exact .inl ⟨al,hme,beq_iff_eq.mpr (beq_iff_eq.mp heq).symm⟩
  absent := by
    intro hab
    have hm := c.getAll_preflightHeaders_methods a m requested (fromStr_methodsStr c.inner m)
    simp [HeaderMap.containsKey_eq,hm] at hab

end

section
variable (conf : CorsConfig ρ) (origin : Str) {requested : Option Str}

def admits : Bool :=
  origin.all isVisibleAscii &&
    conf.allowOrigins.any fun o => o.matchesText (str "*") || o.matchesText origin

def isWildcard : Bool :=
  !conf.allowCredentials && conf.allowOrigins.any (·.matchesText (str "*"))

def allowedValue : Str := if isWildcard conf then str "*" else origin

def validated : Cors ρ where
  inner := conf
  validatedOrigin := some (allowedValue conf origin)
  isWildcardResponse := isWildcard conf

@[simp] lemma validated_inner : (validated conf origin).inner = conf := rfl

variable {conf origin}

lemma determineAllowedOrigin_eq (h : ∀ b ∈ origin, isVisibleAscii b = true) :
    conf.determineAllowedOrigin origin =
      if admits conf origin then some (allowedValue conf origin, isWildcard conf) else none := by
  have ha : origin.all isVisibleAscii = true := all_eq_true.mpr h
  have hv : fromStr origin = some origin := fromStr_of_toStr (toStr_eq_some_iff.mpr ⟨rfl,h⟩)
  unfold CorsConfig.determineAllowedOrigin admits allowedValue isWildcard
  by_cases hst : conf.allowOrigins.any (·.matchesText (str "*")) = true
  · obtain ⟨o,ho,hm⟩ := any_eq_true.mp hst
    have han : conf.allowOrigins.any (fun o => o.matchesText (str "*") || o.matchesText origin)
        = true := any_eq_true.mpr ⟨o,ho,by simp [hm]⟩
    cases conf.allowCredentials <;> simp [hst,han,ha,hv]
  · simp [hst,ha,hv]

variable {req : Request} {upstream : Response}

lemma applyRequest_of_admits (hreq : req.headers.get originHeader = some origin)
    (h : admits conf origin = true) : (ofConfig conf).applyRequest req = if req.isPreflight then
        match conf.checkPreflight req with
        | none => (.continue, validated conf origin)
        | some (m, requested) =>
          (.directResponse {
            status := 204
            headers := (validated conf origin).preflightHeaders (allowedValue conf origin) m
              requested }, validated conf origin)
      else (.continue, validated conf origin) := by
  have hv : ∀ b ∈ origin, isVisibleAscii b = true :=
    all_eq_true.mp (and_eq_true_iff.mp h).1
  have hst : (req.headers.get originHeader).bind toStr = some origin := by
    rw [hreq]
    exact toStr_eq_some_iff.mpr ⟨rfl,hv⟩
  simp only [applyRequest,hst,ofConfig,determineAllowedOrigin_eq hv,h]
  rfl

lemma applyRequest_of_not_admits (hreq : req.headers.get originHeader = some origin)
    (h : admits conf origin = false) : (ofConfig conf).applyRequest req =
      if (req.isPreflight && !conf.forwardNotMatchingPreflights) && origin.all isVisibleAscii then
        (emptyResponse, ofConfig conf)
      else (.continue, ofConfig conf) := by
  rw [applyRequest,hreq,Option.bind_some]
  cases hst : toStr origin with
  | none =>
    have ha : origin.all isVisibleAscii = false := by
      refine eq_false_iff.mpr fun ha => ?_
      rw [toStr,if_pos ha] at hst
      cases hst
    simp [ha]
  | some t =>
    obtain ⟨rfl,hv⟩ := toStr_eq_some_iff.mp hst
    have ha : t.all isVisibleAscii = true := all_eq_true.mpr hv
    simp only [ofConfig,determineAllowedOrigin_eq hv,h,ha,Bool.and_true]
    rfl

def opened (conf : CorsConfig ρ) (origin : Str) (upstream : Response) : Response :=
  (validated conf origin).applyResponse upstream

section

variable (hr : req.headers.get originHeader = some origin)
include hr

lemma exchange_opened (h : admits conf origin = true)
    (hp : req.isPreflight = false ∨ conf.checkPreflight req = none) :
    exchange conf req upstream = opened conf origin upstream := by
  rw [exchange,applyRequest_of_admits hr h]
  rcases hp with hp | hp
  · rw [hp]
    rfl
  · rw [hp]
    cases req.isPreflight <;> rfl

lemma exchange_answered {m : Token} (h : admits conf origin = true)
    (hp : req.isPreflight = true) (hc : conf.checkPreflight req = some (m, requested)) :
    exchange conf req upstream = {
      status := 204
      headers := (validated conf origin).preflightHeaders (allowedValue conf origin) m
        requested } := by
  rw [exchange,applyRequest_of_admits hr h,hp,hc]
  rfl

lemma exchange_of_not_admits (h : admits conf origin = false) : exchange conf req upstream =
      if (req.isPreflight && !conf.forwardNotMatchingPreflights) && origin.all isVisibleAscii then
        { status := 204 }
      else upstream := by
  rw [exchange,applyRequest_of_not_admits hr h]
  cases (req.isPreflight && !conf.forwardNotMatchingPreflights) && origin.all isVisibleAscii with
  | true | false => rfl

end

lemma getAll_opened_origin : (opened conf origin upstream).headers.getAll accessControlAllowOrigin =
      [allowedValue conf origin] := (validated conf origin).getAll_responseHeaders_origin ..

lemma allowedValue_eq (c : CorsConfig ρ) (origin : Str) :
    allowedValue c origin = wildcard ∨ allowedValue c origin = origin := by
  unfold allowedValue
  cases isWildcard c with
  | true => exact .inl rfl
  | false => exact .inr rfl

lemma corsCheck_opened : corsCheck false origin (opened conf origin upstream).headers = true := by
  apply corsCheck_false_of_getAll
  rw [getAll_opened_origin]
  rcases allowedValue_eq conf origin with h | h
  · exact .inl (by rw [h])
  · exact .inr (by rw [h])

lemma corsCheck_opened_allowCredentials :
    corsCheck conf.allowCredentials origin (opened conf origin upstream).headers = true := by
  cases hc : conf.allowCredentials with
  | false => exact corsCheck_opened
  | true =>
    have hv : allowedValue conf origin = origin := by
      simp [allowedValue,isWildcard,hc]
    have ht : (opened conf origin upstream).headers.getAll accessControlAllowCredentials =
        [str "true"] := by
      refine ((validated conf origin).getAll_responseHeaders_credentials ..).trans ?_
      exact if_pos hc
    simp [corsCheck,combined_of_getAll getAll_opened_origin,combined_of_getAll ht,hv]

lemma allowCredentials_of_corsCheck (h : admits conf origin = true)
    (hno : ¬ OriginAllowed conf origin)
    (hr : corsCheck true origin (opened conf origin upstream).headers = true) :
    conf.allowCredentials = true := by
  by_contra hf
  have hc : conf.allowCredentials = false := by simpa using hf
  have hn : ∀ o ∈ conf.allowOrigins, o.matchesText origin = false := by
    intro o ho
    by_contra hm
    exact hno ⟨o,ho,.inl (by simpa using hm)⟩
  obtain ⟨o,ho,hm⟩ := any_eq_true.mp (and_eq_true_iff.mp h).2
  have hst : o.matchesText (str "*") = true := by simpa [hn o ho] using hm
  have hw : isWildcard conf = true := by
    rw [isWildcard,hc]
    exact any_eq_true.mpr ⟨o,ho,hst⟩
  have hor : str "*" = origin := by
    have hv : allowedValue conf origin = str "*" := by simp [allowedValue,hw]
    simp only [corsCheck,combined_of_getAll getAll_opened_origin,hv,Bool.not_true,
      Bool.false_and,Bool.false_eq_true,if_false,Bool.and_eq_true,beq_iff_eq] at hr
    exact hr.1
  rw [← hor] at hn
  rw [hn o ho] at hst
  cases hst

/-- What the filter promises for one exchange. -/
structure Sound (conf : CorsConfig ρ) (req : Request) (upstream : Response) (origin : Str) :
    Prop where
  /-- A preflight permits only what is configured. -/
  preflight : req.isPreflight = true → ∀ f : Fetch, f.origin = origin →
    f.permitted (exchange conf req upstream) = true →
    OriginAllowed conf origin ∧ (policy conf).Allows f
  /-- Only a configured origin can read a response that the upstream does not allow it to
  read. -/
  response : req.isPreflight = false → ∀ credentials : Bool,
    corsCheck credentials origin (exchange conf req upstream).headers = true →
    OriginAllowed conf origin ∨ corsCheck credentials origin upstream.headers = true

def forwards (conf : CorsConfig ρ) (req : Request) (origin : Str) : Bool :=
  if admits conf origin then (conf.checkPreflight req).isNone
  else conf.forwardNotMatchingPreflights || !origin.all isVisibleAscii

/-- The inputs for which the promise is kept. -/
structure HoldsFor (conf : CorsConfig ρ) (req : Request) (upstream : Response) (origin : Str) :
    Prop where
  response : req.isPreflight = false → admits conf origin = true →
    OriginAllowed conf origin ∨ corsCheck conf.allowCredentials origin upstream.headers = true
  answered : ∀ m requested, req.isPreflight = true → admits conf origin = true →
    conf.checkPreflight req = some (m, requested) →
    OriginAllowed conf origin ∨ RepeatsBrokenList conf requested
  forwarded : ∀ methods names, req.isPreflight = true → forwards conf req origin = true →
    answerLists upstream = some (methods, names) →
    (OriginAllowed conf origin ∧ Lists conf upstream methods names) ∨
      (admits conf origin = false ∧ corsCheck false origin upstream.headers = false)

/-- An answer that the origin can read without credentials permits only what is configured
exactly if it lists only that. The lists may be those of another answer, from which it came. -/
lemma permitted_iff_lists {a l : Response} (hr : corsCheck false origin a.headers = true)
    (hg : ∀ f : Fetch, f.granted a = f.granted l) :
    (∀ f, f.origin = origin → f.permitted a = true →
      OriginAllowed conf origin ∧ (policy conf).Allows f) ↔
    ∀ me names, answerLists l = some (me, names) →
      OriginAllowed conf origin ∧ Lists conf l me names := by
  constructor
  · intro h me names hl
    have ha : ∀ f : Fetch, f.origin = origin → f.credentials = false →
        f.granted l = true → OriginAllowed conf origin ∧ (policy conf).Allows f := by
      intro f hor hcr hf
      refine h f hor ?_
      simp [Fetch.permitted,hor,hcr,hr,hg,hf]
    have hor := (ha _ rfl rfl (granted_getMethod hl origin)).1
    have hco := Policy.covers_of_allows origin hl fun f ho hc hf => (ha f ho hc hf).2
    exact ⟨hor,covers_iff.mp hco⟩
  · intro h f _ hf
    have hf := hg f ▸ (and_eq_true_iff.mp hf).2
    cases hl : answerLists l with
    | none => simp [Fetch.granted,hl] at hf
    | some fo =>
      obtain ⟨hor,hco⟩ := h fo.1 fo.2 hl
      exact ⟨hor,(covers_iff.mpr hco).allows hl hf⟩

section

variable (hre : req.headers.get originHeader = some origin)
include hre

lemma response_iff (hp : req.isPreflight = false) :
    (∀ cr, corsCheck cr origin (exchange conf req upstream).headers = true →
      OriginAllowed conf origin ∨ corsCheck cr origin upstream.headers = true) ↔
    (admits conf origin = true → OriginAllowed conf origin ∨
      corsCheck conf.allowCredentials origin upstream.headers = true) := by
  cases hadm : admits conf origin with
  | false =>
    have he : exchange conf req upstream = upstream := by
      rw [exchange_of_not_admits hre hadm,hp]
      rfl
    rw [he]
    constructor
    · intro _ hf
      cases hf
    · intro _ cr hr
      exact .inr hr
  | true =>
    rw [exchange_opened hre hadm (.inl hp)]
    constructor
    · intro h _
      exact h _ corsCheck_opened_allowCredentials
    · intro h cr hr
      by_cases ha : OriginAllowed conf origin
      · exact .inl ha
      · have hu := (h rfl).resolve_left ha
        refine .inr ?_
        cases cr with
        | true =>
          rwa [allowCredentials_of_corsCheck hadm ha hr] at hu
        | false =>
          cases hc : conf.allowCredentials with
          | true => exact corsCheck_false_of_true (hc ▸ hu)
          | false => rwa [hc] at hu

lemma answered_iff {m : Token} (hadm : admits conf origin = true)
    (hpr : req.isPreflight = true) (hch : conf.checkPreflight req = some (m, requested)) :
    (∀ f : Fetch, f.origin = origin → f.permitted (exchange conf req upstream) = true →
      OriginAllowed conf origin ∧ (policy conf).Allows f) ↔
    OriginAllowed conf origin ∨ RepeatsBrokenList conf requested := by
  have hp : Passed (validated conf origin).inner m requested := passed_of_checkPreflight hch
  have hl := answerLists_preflight (validated conf origin) (allowedValue conf origin) hp
  have hc := lists_preflight (validated conf origin) (allowedValue conf origin) hp
  rw [validated_inner] at hl hc
  rw [exchange_answered hre hadm hpr hch,← all_answerNames_iff]
  have hr : corsCheck false origin
      ((validated conf origin).preflightHeaders (allowedValue conf origin) m requested) = true := by
    apply corsCheck_false_of_getAll
    rw [getAll_preflightHeaders_origin]
    rcases allowedValue_eq conf origin with h | h
    · exact .inl (by rw [h])
    · exact .inr (by rw [h])
  rw [permitted_iff_lists hr fun f => rfl,hl]
  cases (answerNames conf requested).all isToken with
  | false =>
    -- an answer with a broken list permits nothing
    exact ⟨fun _ => .inr rfl,fun _ me n hn => nomatch hn⟩
  | true =>
    constructor
    · intro h
      exact .inl (h _ _ rfl).1
    · rintro (ha | hf) me n hso
      · cases hso
        exact ⟨ha,hc⟩
      · cases hf

lemma forwarded_iff (hfo : forwards conf req origin = true) :
    (∀ f : Fetch, f.origin = origin → f.permitted (exchange conf req upstream) = true →
      OriginAllowed conf origin ∧ (policy conf).Allows f) ↔
    ∀ me n, answerLists upstream = some (me, n) →
      (OriginAllowed conf origin ∧ Lists conf upstream me n) ∨
        (admits conf origin = false ∧ corsCheck false origin upstream.headers = false) := by
  cases ha : admits conf origin with
  | true =>
    have hch : conf.checkPreflight req = none := by
      simpa [forwards,ha] using hfo
    rw [exchange_opened hre ha (.inr hch),permitted_iff_lists corsCheck_opened
      fun f => (validated conf origin).granted_applyResponse f upstream]
    simp
  | false =>
    have he : exchange conf req upstream = upstream := by
      have hp : conf.forwardNotMatchingPreflights = true ∨ origin.all isVisibleAscii = false := by
        simpa [forwards,ha] using hfo
      rw [exchange_of_not_admits hre ha]
      rcases hp with h | h <;> simp [h]
    rw [he]
    cases hr : corsCheck false origin upstream.headers with
    | true =>
      rw [permitted_iff_lists hr fun f => rfl]
      simp
    | false =>
      -- who cannot read without credentials cannot read with them
      refine ⟨fun _ _ _ _ => .inr ⟨rfl,rfl⟩,fun _ f ho hf => ?_⟩
      have hf := (and_eq_true_iff.mp hf).1
      rw [ho] at hf
      cases hc : f.credentials with
      | true => 
          rw [hc] at hf
          rw [corsCheck_false_of_true hf] at hr
          cases hr
      | false =>
        rw [hc,hr] at hf
        cases hf

end

/-- For which inputs the filter keeps to its configuration. -/
theorem exchange_sound_iff (hreq : req.headers.get originHeader = some origin) :
    Sound conf req upstream origin ↔ HoldsFor conf req upstream origin := by
  constructor
  · intro h
    refine ⟨fun hp => ?_,fun m requested hp ha hc => ?_,fun me n hp hfo hl => ?_⟩
    · exact (response_iff hreq hp).mp (h.response hp)
    · exact (answered_iff hreq ha hp hc).mp (h.preflight hp)
    · exact (forwarded_iff hreq hfo).mp (h.preflight hp) _ _ hl
  · intro h
    refine ⟨fun hp => ?_,fun hp => ?_⟩
    · cases hfo : forwards conf req origin with
      | true =>
        exact (forwarded_iff hreq hfo).mpr fun me n =>
          h.forwarded me n hp hfo
      | false =>
        cases ha : admits conf origin with
        | true =>
          cases hc : conf.checkPreflight req with
          | none => simp [forwards,ha,hc] at hfo
          | some p =>
            exact (answered_iff hreq ha hp hc).mpr (h.answered _ _ hp ha hc)
        | false =>
          -- the filter refuses the preflight
          have he : exchange conf req upstream = { status := 204 } := by
            rw [exchange_of_not_admits hreq ha,hp]
            have hr : conf.forwardNotMatchingPreflights = false ∧
                origin.all isVisibleAscii = true := by
              simpa [forwards,ha] using hfo
            rw [hr.1,hr.2]
            rfl
          intro f _ hf
          rw [he] at hf
          cases hf
    · exact (response_iff hreq hp).mpr (h.response hp)

end

instance : RegexEngine Empty where
  findAt r _ := nomatch r

def delete : Token := ⟨str "DELETE",by decide⟩

def options : Token := ⟨str "OPTIONS",by decide⟩

def configOf (pattern : StringMatcherPattern Empty) : CorsConfig Empty where
  allowOrigins := [{ pattern }]
  allowMethods := [getMethod]
  allowHeaders := []
  exposeHeaders := []
  allowCredentials := true
  maxAge := none

def shop : Str := str "https://shop"

def getRequest : Request := { method := getMethod, headers := [(originHeader, shop)] }

def preflightFor (method : Token) : Request where
  method := options
  headers := [(originHeader, shop),(accessControlRequestMethod, method.text)]

/-- A configured origin reads a response and has its preflight answered. -/
theorem configured_origin_sound :
    Sound (configOf (.exact shop)) getRequest { status := 200 } shop ∧
      Sound (configOf (.exact shop)) (preflightFor getMethod) { status := 200 } shop := by
  have ha : OriginAllowed (configOf (.exact shop)) shop := ⟨_,mem_cons_self,.inl (by decide)⟩
  constructor
  · refine (exchange_sound_iff rfl).mpr
      ⟨fun _ _ => .inl ha,fun _ _ _ _ _ => .inl ha,fun _ _ hp => ?_⟩
    cases hp
  · refine (exchange_sound_iff rfl).mpr
      ⟨fun _ _ => .inl ha,fun _ _ _ _ _ => .inl ha,fun _ _ _ hf => ?_⟩
    cases hf

/-- A prefix "*" lets every origin read every response, with credentials; and the answer of an
upstream that knows nothing of origins permits a method that the filter has refused. -/
theorem unconfigured_permitted :
    ¬ Sound (configOf (.prefixOf (str "*"))) getRequest { status := 200 } shop ∧
      ¬ Sound (configOf (.exact shop)) (preflightFor delete) { status := 200 } shop := by
  constructor
  · intro h
    have hr : corsCheck true shop
        (exchange (configOf (.prefixOf (str "*"))) getRequest { status := 200 }).headers = true := by
      decide
    have ho : ¬ OriginAllowed (configOf (.prefixOf (str "*"))) shop := by
      unfold OriginAllowed
      decide
    have hu : ¬ corsCheck true shop [] = true := by decide
    exact (h.response rfl true hr).elim ho hu
  · intro h
    let f : Fetch := { origin := shop, method := delete, useCorsPreflight := true }
    have hf : f.permitted
        (exchange (configOf (.exact shop)) (preflightFor delete) { status := 200 }) = true := by decide
    have hm : ¬ (policy (configOf (.exact shop))).method delete.text := by
      unfold policy
      decide
    exact hm (h.preflight rfl f rfl hf).2.1

end ArionGateway.CorsSoundness
