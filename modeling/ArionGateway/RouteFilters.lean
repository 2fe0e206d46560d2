import ArionGateway.FallibleSteps

/-!
# HTTP filter chains of routes

A route may override the HTTP filters of a connection manager by name; its chain is compiled from
the list by putting, at each position with an override, a filter made from the override alone. An
override that carries settings of another kind than the filter at its position replaces the filter
by one of that kind, and an override that carries neither settings nor the disabled flag leaves
nothing to run. How single filters are built and what they do is a parameter.
-/
namespace ArionGateway.RouteFilters
open FallibleSteps List

variable {C F Req Resp : Type}

/-- `HttpFilterType`, with settings of type `C`. -/
inductive HttpFilterType (C : Type) where
  | wasm (conf : C)
  | rbac (conf : C)
  | rateLimit (conf : C)
  | externalProcessor (conf : C)
  | jwtAuthentication (conf : C)
  | cors (conf : C)
  | corsPolicy (conf : C)
  | mcpGateway (conf : C)
  | userRateLimit (conf : C)
  | cedarPolicy (conf : C)
  | oauth2 (conf : C)
  deriving DecidableEq

structure HttpFilterConfig (C : Type) where
  name : String
  disabled : Bool
  filter : HttpFilterType C
  deriving DecidableEq

structure ExtProcPerRoute (C : Type) where
  disabled : Bool
  overrides : C
  deriving DecidableEq

inductive FilterConfigOverride (C : Type) where
  | localRateLimit (conf : C)
  | rbac (conf : Option C)
  | externalProcessor (perRoute : ExtProcPerRoute C)
  | corsPolicy (conf : C)
  deriving DecidableEq

structure FilterOverride (C : Type) where
  disabled : Bool
  filterSettings : Option (FilterConfigOverride C)
  deriving DecidableEq

def FilterOverride.ofSettings (value : FilterConfigOverride C) : FilterOverride C :=
  { disabled := false, filterSettings := some value }

structure Route (C : Type) where
  typedPerFilterConfig : String → Option (FilterOverride C)

inductive GenericError where
  | unsupportedVariant (variant : String)
  | unsupportedField (field : String)
  | message (msg : String)
  deriving DecidableEq

structure AnyMessage where
  typeUrl : String
  value : List UInt8
  deriving DecidableEq

/-- The generic wrapper of an override, `envoy.config.route.v3.FilterConfig`. -/
structure EnvoyFilterConfig where
  config : Option AnyMessage
  isOptional : Bool
  disabled : Bool
  deriving DecidableEq

/-- Decoding and converting the single messages. -/
structure OverrideDecoders (C : Type) where
  localRateLimit : List UInt8 → Except GenericError C
  rbacPerRoute : List UInt8 → Except GenericError (Option C)
  extProcPerRoute : List UInt8 → Except GenericError (ExtProcPerRoute C)
  corsPolicy : List UInt8 → Except GenericError C
  filterConfig : List UInt8 → Except GenericError EnvoyFilterConfig

def filterConfigUrl : String := "type.googleapis.com/envoy.config.route.v3.FilterConfig"

def FilterConfigOverride.tryFrom (decoders : OverrideDecoders C) (envoy : AnyMessage) :
    Except GenericError (FilterConfigOverride C) :=
  if envoy.typeUrl =
      "type.googleapis.com/envoy.extensions.filters.http.local_ratelimit.v3.LocalRateLimit" then
    .localRateLimit <$> decoders.localRateLimit envoy.value
  else if envoy.typeUrl =
      "type.googleapis.com/envoy.extensions.filters.http.rbac.v3.RBACPerRoute" then
    .rbac <$> decoders.rbacPerRoute envoy.value
  else if envoy.typeUrl =
      "type.googleapis.com/envoy.extensions.filters.http.ext_proc.v3.ExtProcPerRoute" then
    .externalProcessor <$> decoders.extProcPerRoute envoy.value
  else if envoy.typeUrl =
      "type.googleapis.com/envoy.extensions.filters.http.cors.v3.CorsPolicy" then
    .corsPolicy <$> decoders.corsPolicy envoy.value
  else .error (.unsupportedVariant envoy.typeUrl)

/-- `FilterOverride::try_from(Any)`: the wrapper, or settings without it. -/
def FilterOverride.tryFrom (decoders : OverrideDecoders C) (envoy : AnyMessage) :
    Except GenericError (FilterOverride C) :=
  if envoy.typeUrl = filterConfigUrl then do
    let wrapper ← decoders.filterConfig envoy.value
    if wrapper.isOptional then .error (.unsupportedField "is_optional")
    else
      match wrapper.config with
      | none => .ok { disabled := wrapper.disabled, filterSettings := none }
      | some config =>
        let settings ← FilterConfigOverride.tryFrom decoders config
        .ok { disabled := wrapper.disabled, filterSettings := some settings }
  else .ofSettings <$> FilterConfigOverride.tryFrom decoders envoy

inductive HttpFilterValue (F : Type) where
  | wasm (filter : F)
  | rateLimit (filter : F)
  | rbac (filter : F)
  | externalProcessor (filter : F)
  | jwtAuthentication (filter : F)
  | cors (filter : F)
  | mcpGateway (filter : F)
  | userRateLimit (filter : F)
  | cedarPolicy (filter : F)
  | oauth2 (filter : F)
  deriving DecidableEq

/-- How the single filters are built from their settings, and renewed for a
request. -/
structure Builders (C F : Type) where
  wasm : C → Except String F
  rateLimit : C → F
  rbac : C → F
  externalProcessor : C → Option (ExtProcPerRoute C) → F
  jwtAuthentication : C → F
  cors : C → F
  mcpGateway : C → Except String F
  userRateLimit : C → Except String F
  cedarPolicy : C → Except String F
  oauth2 : C → Except String F
  newFrom : F → F

structure HttpFilter (C F : Type) where
  name : String
  disabled : Bool
  filter : Option (HttpFilterValue F)
  filterConfig : Option (HttpFilterConfig C)

section
variable (b : Builders C F)

def HttpFilterValue.build : HttpFilterType C → Except String (HttpFilterValue F)
  | .wasm conf => .wasm <$> b.wasm conf
  | .rateLimit conf => .ok (.rateLimit (b.rateLimit conf))
  | .rbac conf => .ok (.rbac (b.rbac conf))
  | .externalProcessor conf => .ok (.externalProcessor (b.externalProcessor conf none))
  | .jwtAuthentication conf => .ok (.jwtAuthentication (b.jwtAuthentication conf))
  | .cors conf | .corsPolicy conf => .ok (.cors (b.cors conf))
  | .mcpGateway conf => .mcpGateway <$> b.mcpGateway conf
  | .userRateLimit conf => .userRateLimit <$> b.userRateLimit conf
  | .cedarPolicy conf => .cedarPolicy <$> b.cedarPolicy conf
  | .oauth2 conf => .oauth2 <$> b.oauth2 conf

/-- `HttpFilter::try_from`. Only external processors keep their configuration. -/
def HttpFilter.tryFrom (value : HttpFilterConfig C) : Except String (HttpFilter C F) := do
  let hcmConfig := match value.filter with
    | .externalProcessor _ => some value
    | _ => none
  let filter ← HttpFilterValue.build b value.filter
  .ok { name := value.name, disabled := value.disabled, filter := some filter
        filterConfig := hcmConfig }

def HttpFilterValue.newFrom : HttpFilterValue F → HttpFilterValue F
  | .rateLimit filter => .rateLimit filter
  | .rbac filter => .rbac filter
  | .externalProcessor filter => .externalProcessor filter
  | .jwtAuthentication filter => .jwtAuthentication (b.newFrom filter)
  | .mcpGateway filter => .mcpGateway (b.newFrom filter)
  | .cors filter => .cors filter
  | .userRateLimit filter => .userRateLimit filter
  | .cedarPolicy filter => .cedarPolicy filter
  | .wasm filter => .wasm (b.newFrom filter)
  | .oauth2 filter => .oauth2 (b.newFrom filter)

def HttpFilterValue.fromFilterOverride (value : FilterOverride C)
    (filterConfig : Option (HttpFilterConfig C)) : Option (HttpFilterValue F) :=
  match value.filterSettings with
  | none => none
  | some (.localRateLimit conf) => some (.rateLimit (b.rateLimit conf))
  | some (.rbac (some conf)) => some (.rbac (b.rbac conf))
  | some (.rbac none) => none
  | some (.externalProcessor perRoute) =>
    if perRoute.disabled then none
    else
      match filterConfig with
      | some { filter := .externalProcessor conf, .. } =>
        some (.externalProcessor (b.externalProcessor conf (some perRoute)))
      | _ => none
  | some (.corsPolicy conf) => some (.cors (b.cors conf))

def compileFilter (route : Route C) (hcmFilter : HttpFilter C F) : HttpFilter C F :=
  match route.typedPerFilterConfig hcmFilter.name with
  | some overrideConfig =>
    { name := hcmFilter.name
      disabled := overrideConfig.disabled
      filter := HttpFilterValue.fromFilterOverride b overrideConfig hcmFilter.filterConfig
      filterConfig := hcmFilter.filterConfig }
  | none => hcmFilter

def compileRouteHttpFilters (route : Route C) (hcmFilters : List (HttpFilter C F)) :
    List (HttpFilter C F) :=
  hcmFilters.map (compileFilter b route)

/-- The filter that a position gives a request to, if any. -/
def HttpFilter.active (self : HttpFilter C F) : Option (HttpFilterValue F) :=
  if self.disabled then none else self.filter

inductive FilterDecision (Resp : Type) where
  | continue
  | directResponse (response : Resp)
  | reroute
  deriving DecidableEq

abbrev Behaviour (F Req Resp : Type) :=
  HttpFilterValue F → Req → FilterDecision Resp × HttpFilterValue F × Req

/-- Where the loop over filters stands: the next position, the request, the
filters that will see the response, and, for each position so far, the route in
force and what was given the request. -/
structure Progress (C F Req : Type) where
  filterStartIdx : ℕ
  request : Req
  activeFilters : List (HttpFilterValue F)
  visited : List (Route C × Option (HttpFilterValue F))

variable (apply : Behaviour F Req Resp)

/-- The `for` loop over the rest of the chain of a route. -/
def runFilters (route : Route C) :
    List (HttpFilter C F) → Progress C F Req → FilterDecision Resp × Progress C F Req
  | [], p => (.continue, p)
  | filter::rest, p =>
    match filter.active with
    | none =>
      runFilters route rest { p with
        filterStartIdx := p.filterStartIdx+1
        visited := p.visited++[(route, none)] }
    | some value =>
      let (decision, value', request) := apply (value.newFrom b) p.request
      let p' : Progress C F Req :=
        { filterStartIdx := p.filterStartIdx+1
          request
          activeFilters := p.activeFilters
          visited := p.visited++[(route, some value)] }
      match decision with
      | .continue =>
        runFilters route rest { p' with activeFilters := p.activeFilters++[value'] }
      | .directResponse response => (.directResponse response, p')
      | .reroute => (.reroute, { p' with activeFilters := p.activeFilters++[value'] })

variable (hcmFilters : List (HttpFilter C F)) (matchRequestRoute : Req → Option (Route C))
  (notFound : Req → Resp)

/-- The loop of `to_response` around it. After a reroute it goes on in the chain
of the new route, at the next position. -/
def filterLoop : ℕ → Option (Route C) → Progress C F Req →
    Option (FilterDecision Resp × Option (Route C) × Progress C F Req)
  | 0, _, _ => none
  | _+1, none, p => some (.directResponse (notFound p.request), none, p)
  | fuel+1, some route, p =>
    match runFilters b apply route
      ((compileRouteHttpFilters b route hcmFilters).drop p.filterStartIdx) p with
    | (.reroute, p') => filterLoop fuel (matchRequestRoute p'.request) p'
    | (decision, p') => some (decision, some route, p')

def filterRequest (request : Req) :
    Option (FilterDecision Resp × Option (Route C) × Progress C F Req) :=
  filterLoop b apply hcmFilters matchRequestRoute notFound (hcmFilters.length+1)
    (matchRequestRoute request)
    { filterStartIdx := 0, request, activeFilters := [], visited := [] }

end

inductive Kind where
  | wasm
  | rateLimit
  | rbac
  | externalProcessor
  | jwtAuthentication
  | cors
  | mcpGateway
  | userRateLimit
  | cedarPolicy
  | oauth2
  deriving DecidableEq

def HttpFilterType.kind : HttpFilterType C → Kind
  | .wasm _ => .wasm
  | .rbac _ => .rbac
  | .rateLimit _ => .rateLimit
  | .externalProcessor _ => .externalProcessor
  | .jwtAuthentication _ => .jwtAuthentication
  | .cors _ | .corsPolicy _ => .cors
  | .mcpGateway _ => .mcpGateway
  | .userRateLimit _ => .userRateLimit
  | .cedarPolicy _ => .cedarPolicy
  | .oauth2 _ => .oauth2

def HttpFilterValue.kind : HttpFilterValue F → Kind
  | .wasm _ => .wasm
  | .rateLimit _ => .rateLimit
  | .rbac _ => .rbac
  | .externalProcessor _ => .externalProcessor
  | .jwtAuthentication _ => .jwtAuthentication
  | .cors _ => .cors
  | .mcpGateway _ => .mcpGateway
  | .userRateLimit _ => .userRateLimit
  | .cedarPolicy _ => .cedarPolicy
  | .oauth2 _ => .oauth2

def FilterConfigOverride.kind : FilterConfigOverride C → Kind
  | .localRateLimit _ => .rateLimit
  | .rbac _ => .rbac
  | .externalProcessor _ => .externalProcessor
  | .corsPolicy _ => .cors

/-- Settings that turn a filter off: no rules, or an external processor that is
disabled. -/
def FilterConfigOverride.Disables : FilterConfigOverride C → Prop
  | .rbac none => True
  | .externalProcessor perRoute => perRoute.disabled = true
  | _ => False

/-- An override turns its filter off, by its flag or by its settings. -/
def FilterOverride.Disables (self : FilterOverride C) : Prop :=
  self.disabled = true ∨ ∃ settings, self.filterSettings = some settings ∧ settings.Disables

/-- A position may be skipped: its override disables it, or without an override
the connection manager does. -/
def MaySkip (config : HttpFilterConfig C) : Option (FilterOverride C) → Prop
  | none => config.disabled = true
  | some o => o.Disables

/-- An override that disables its filter or has settings of its kind. -/
def Fits (config : HttpFilterConfig C) : Option (FilterOverride C) → Prop
  | none => True
  | some o => o.Disables ∨
      ∃ settings, o.filterSettings = some settings ∧ settings.kind = config.filter.kind

open HttpFilter

open HttpFilterValue

variable {b : Builders C F} {c : HttpFilterConfig C} {hcm : HttpFilter C F}

lemma kind_build {f : HttpFilterType C} {v : HttpFilterValue F}
    (h : build b f = .ok v) : v.kind = f.kind := by
  cases f with
  | rateLimit co | rbac co | externalProcessor co | jwtAuthentication co | cors co
  | corsPolicy co =>
    cases h
    rfl
  | wasm co | mcpGateway co | userRateLimit co | cedarPolicy co | oauth2 co =>
    obtain ⟨bu,-,rfl⟩ := map_eq_ok.mp h
    rfl

lemma tryFrom_spec (h : tryFrom b c = .ok hcm) :
    hcm.name = c.name ∧ hcm.disabled = c.disabled ∧
    (∃ v, hcm.filter = some v ∧ v.kind = c.filter.kind) ∧
    (hcm.filterConfig = some c ∧ c.filter.kind = .externalProcessor ∨
      hcm.filterConfig = none ∧ c.filter.kind ≠ .externalProcessor) := by
  obtain ⟨v,hv,hf⟩ := bind_eq_ok.mp h
  cases hf
  refine ⟨rfl,rfl,⟨v,rfl,kind_build hv⟩,?_⟩
  cases c.filter <;> simp [HttpFilterType.kind]

@[simp] lemma name_compileFilter (r : Route C) (h : HttpFilter C F) :
    (compileFilter b r h).name = h.name := by
  unfold compileFilter
  cases r.typedPerFilterConfig h.name <;> rfl

lemma fromFilterOverride_iff {o : FilterOverride C} (ho : ¬ o.Disables) (kind : Kind)
    {f : Option (HttpFilterConfig C)}
    (hc : f = some c ∧ c.filter.kind = .externalProcessor ∧ kind = .externalProcessor ∨
      f = none ∧ kind ≠ .externalProcessor) :
    (∃ v, fromFilterOverride b o f = some v ∧ v.kind = kind) ↔
      ∃ s, o.filterSettings = some s ∧ s.kind = kind := by
  obtain ⟨d,s⟩ := o
  cases s with
  | none => simp [HttpFilterValue.fromFilterOverride]
  | some s =>
    cases s with
    | localRateLimit co | corsPolicy co =>
      simp [HttpFilterValue.fromFilterOverride,HttpFilterValue.kind,FilterConfigOverride.kind]
    | rbac co =>
      cases co with
      | none => exact absurd (.inr ⟨_,rfl,trivial⟩) ho
      | some co =>
        simp [HttpFilterValue.fromFilterOverride,HttpFilterValue.kind,FilterConfigOverride.kind]
    | externalProcessor p =>
      have he : p.disabled = false := by
        by_contra hd
        exact ho (.inr ⟨_,rfl,(Bool.not_eq_false _).mp hd⟩)
      rcases hc with ⟨rfl,hk,rfl⟩ | ⟨rfl,hk⟩
      · obtain ⟨n,disabled',fi⟩ := c
        cases fi <;> simp [HttpFilterType.kind] at hk
        simp [fromFilterOverride,he,kind,FilterConfigOverride.kind]
      · simp [fromFilterOverride,FilterConfigOverride.kind,hk.symm]

lemma active_iff_fits (h : tryFrom b c = .ok hcm) (r : Route C) :
    (¬ MaySkip c (r.typedPerFilterConfig c.name) → ∃ v, (compileFilter b r hcm).active = some v ∧
          v.kind = c.filter.kind) ↔ Fits c (r.typedPerFilterConfig c.name) := by
  obtain ⟨hn,hd,⟨v,hv,hk⟩,hc⟩ := tryFrom_spec h
  rw [compileFilter,hn]
  cases ho : r.typedPerFilterConfig c.name with
  | none =>
    refine iff_of_true (fun hsk => ⟨v,?_,hk⟩) trivial
    rw [active,if_neg (by rw [hd]; exact hsk),hv]
  | some o =>
    by_cases hof : o.Disables
    · exact iff_of_true (fun hsk => absurd hof hsk) (.inl hof)
    · have hf : o.disabled = false := by
        by_contra hd
        exact hof (.inl (by simpa using hd))
      have hp := fromFilterOverride_iff (b := b) hof c.filter.kind
        (hc.imp_left fun he => ⟨he.1,he.2,he.2⟩)
      simp only [MaySkip,Fits,hof,not_false_eq_true,forall_const,false_or,hf]
      exact hp

variable {configs : List (HttpFilterConfig C)} {hcmFilters : List (HttpFilter C F)}

lemma exists_built_at (hb : configs.mapM (tryFrom b) = .ok hcmFilters) {i : ℕ}
    {c : HttpFilterConfig C} (hi : configs[i]? = some c) :
    ∃ hcmFilter, hcmFilters[i]? = some hcmFilter ∧ tryFrom b c = .ok hcmFilter := by
  have ha := mapM_eq_ok.mp hb
  clear hb
  induction ha generalizing i with
  | nil => cases hi
  | cons hf _ ih =>
    cases i with
    | zero =>
      cases hi
      exact ⟨_,rfl,hf⟩
    | succ i => exact ih hi

lemma names_of_built (hb : configs.mapM (tryFrom b) = .ok hcmFilters) :
    hcmFilters.map name = configs.map HttpFilterConfig.name := by
  have ha := mapM_eq_ok.mp hb
  clear hb
  induction ha with
  | nil => rfl
  | cons hf _ ih => rw [map_cons,map_cons,ih,(tryFrom_spec hf).1]

@[simp] lemma length_compileRouteHttpFilters (r : Route C) :
    (compileRouteHttpFilters b r hcmFilters).length = hcmFilters.length := length_map _

lemma names_compileRouteHttpFilters (r : Route C) :
    (compileRouteHttpFilters b r hcmFilters).map name = hcmFilters.map name := by
  rw [compileRouteHttpFilters,map_map]
  exact map_congr_left fun h _ => name_compileFilter r h

variable (b configs hcmFilters) in
/-- The chain of a route has the filters of the connection manager in their order.
Each position that no override and no flag turns off runs a filter of its kind if
and only if every override of the route fits the filter of its name. -/
theorem compiled_chain_kept_iff (hbuilt : configs.mapM (HttpFilter.tryFrom b) = .ok hcmFilters)
    (route : Route C) :
    (compileRouteHttpFilters b route hcmFilters).length = configs.length ∧
    (compileRouteHttpFilters b route hcmFilters).map HttpFilter.name =
      configs.map HttpFilterConfig.name ∧
    ((∀ (i : ℕ) (config : HttpFilterConfig C) (compiled : HttpFilter C F),
        configs[i]? = some config →
        (compileRouteHttpFilters b route hcmFilters)[i]? = some compiled →
        ¬ MaySkip config (route.typedPerFilterConfig config.name) →
          ∃ value, compiled.active = some value ∧ value.kind = config.filter.kind) ↔
      ∀ config ∈ configs, Fits config (route.typedPerFilterConfig config.name)) := by
  have hn := names_of_built hbuilt
  refine ⟨?_,by rw [names_compileRouteHttpFilters,hn],?_⟩
  · have hl := congrArg length hn
    rwa [length_map,length_map,← length_compileRouteHttpFilters (b := b) route] at hl
  · constructor
    · intro hk config hco
      obtain ⟨i,hi⟩ := getElem?_of_mem hco
      obtain ⟨h,hi',hf⟩ := exists_built_at hbuilt hi
      refine (active_iff_fits hf route).mp ?_
      refine hk i config _ hi ?_
      rw [compileRouteHttpFilters,getElem?_map,hi']
      rfl
    · intro hfi i config compiled hi hc
      obtain ⟨h,hi',hf⟩ := exists_built_at hbuilt hi
      rw [compileRouteHttpFilters,getElem?_map,hi'] at hc
      cases hc
      exact (active_iff_fits hf route).mpr (hfi config (mem_of_getElem? hi))

def textBuilders : Builders String String where
  wasm := .ok
  rateLimit := id
  rbac := id
  externalProcessor conf _ := conf
  jwtAuthentication := id
  cors := id
  mcpGateway := .ok
  userRateLimit := .ok
  cedarPolicy := .ok
  oauth2 := .ok
  newFrom := id

/-- An empty wrapper has no settings and no flag, as in the binary format of
messages. -/
def textDecoders : OverrideDecoders String where
  localRateLimit _ := .ok ""
  rbacPerRoute _ := .ok none
  extProcPerRoute _ := .ok ⟨false, ""⟩
  corsPolicy _ := .ok ""
  filterConfig _ := .ok { config := none, isOptional := false, disabled := false }

def jwtConfig : HttpFilterConfig String :=
  { name := "jwt", disabled := false, filter := .jwtAuthentication "providers" }

def jwtFilter : HttpFilter String String :=
  { name := "jwt", disabled := false, filter := some (.jwtAuthentication "providers")
    filterConfig := none }

def routeWith (o : FilterOverride String) : Route String :=
  { typedPerFilterConfig := fun name => if name = "jwt" then some o else none }

/-- A wrapper without settings and without the flag is accepted, and the
authentication filter of its name runs for no request of the route. A wrapper with
a rate limit puts the rate limit in its place. -/
theorem jwt_dropped_by_empty_wrapper :
    ∃ o, FilterOverride.tryFrom textDecoders ⟨filterConfigUrl, []⟩ = .ok o ∧
      ¬ MaySkip jwtConfig ((routeWith o).typedPerFilterConfig "jwt") ∧
      [jwtConfig].mapM (HttpFilter.tryFrom textBuilders) = .ok [jwtFilter] ∧
      (compileRouteHttpFilters textBuilders (routeWith o) [jwtFilter]).map HttpFilter.active =
        [none] ∧
      (compileRouteHttpFilters textBuilders (routeWith (.ofSettings (.localRateLimit "rate")))
        [jwtFilter]).map HttpFilter.active = [some (.rateLimit "rate")] := by
  refine ⟨{ disabled := false, filterSettings := none },rfl,?_,rfl,rfl,rfl⟩
  rintro (hf | ⟨s,hse,-⟩)
  · cases hf
  · cases hse

/-- An override with the flag fits: the only position is skipped as configured. -/
theorem jwt_chain_with_flag :
    [jwtConfig].mapM (HttpFilter.tryFrom textBuilders) = .ok [jwtFilter] ∧
    (compileRouteHttpFilters textBuilders (routeWith ⟨true, none⟩) [jwtFilter]).length = 1 ∧
    ∀ (i : ℕ) (config : HttpFilterConfig String) (compiled : HttpFilter String String),
      [jwtConfig][i]? = some config →
      (compileRouteHttpFilters textBuilders (routeWith ⟨true, none⟩) [jwtFilter])[i]? =
        some compiled →
      ¬ MaySkip config ((routeWith ⟨true, none⟩).typedPerFilterConfig config.name) →
        ∃ value, compiled.active = some value ∧ value.kind = config.filter.kind := by
  have h := compiled_chain_kept_iff textBuilders [jwtConfig] [jwtFilter] rfl (routeWith ⟨true,none⟩)
  refine ⟨rfl,h.1,h.2.2.mpr fun config hc => ?_⟩
  obtain rfl := mem_singleton.mp hc
  exact .inl (.inl rfl)

end ArionGateway.RouteFilters
