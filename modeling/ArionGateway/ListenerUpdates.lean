import ArionGateway.LastWrites
import ArionGateway.TlsConfigurators

/-!
# Updates of the filter chains of a listener

A secret is handed to the TLS configurator of every filter chain, and a configurator that cannot
be updated stays as it is. A route configuration goes to every HTTP connection manager that takes
its routes from RDS under its name. After any sequence of changes a configurator holds, under
every name, what the last valid update of the name brought, and a connection manager routes by the
last change of its name. Whether the ticket keys of an update can be drawn is given with it.
-/
namespace ArionGateway.ListenerUpdates
open FallibleSteps FirstMatch LastWrites TlsSecrets TlsContextBuilder TlsConfigurators List Option
open ServerConfigurator (configured contextBuilder_of_configured setServerCert)

variable {L : TlsLibrary} {Route : Type}

section

inductive RouteConfigurationChange (Route : Type) where
  | added (id : String) (route : Route)
  | removed (id : String)

def RouteConfigurationChange.id : RouteConfigurationChange Route → String
  | .added id _ => id
  | .removed id => id

def RouteConfigurationChange.route : RouteConfigurationChange Route → Option Route
  | .added _ route => some route
  | .removed _ => none

variable (L) in
structure TlsContextChange where
  secretId : String
  secret : TransportSecret L

inductive RouteSpecifier (Route : Type) where
  | rds (routeConfigName : String)
  | routeConfig (config : Route)

inductive MainFilterBuilder (Route : Type) where
  | http (routeSpecifier : RouteSpecifier Route)
  | tcp

/-- What handles the connections of a filter chain. -/
inductive ConnectionHandler (Route : Type) where
  | http (dynamicRouteName : Option String) (routingState : Option Route)
  | tcp

def ConnectionHandler.getRouteId : ConnectionHandler Route → Option String
  | .http dynamicRouteName _ => dynamicRouteName
  | .tcp => none

variable (L Route) in
structure FilterchainType where
  tlsConfigurator : Option (ServerConfigurator L)
  handler : ConnectionHandler Route

/-- A connection manager that takes its routes from RDS begins without any. -/
def MainFilterBuilder.build : MainFilterBuilder Route → ConnectionHandler Route
  | .http (.rds routeConfigName) => .http (some routeConfigName) none
  | .http (.routeConfig config) => .http none (some config)
  | .tcp => .tcp

variable (L Route) in
/-- `networkGlobalRateLimit` has the outcome of making the rate limiter, the only
part that may fail. -/
structure FilterchainBuilder where
  mainFilter : MainFilterBuilder Route
  networkGlobalRateLimit : Option (Except String Unit) := none
  tlsConfigurator : Option (ServerConfigurator L)

def FilterchainBuilder.build (self : FilterchainBuilder L Route) :
    Except String (FilterchainType L Route) := do
  self.networkGlobalRateLimit.getD (.ok ())
  return { tlsConfigurator := self.tlsConfigurator, handler := self.mainFilter.build }

/-- `update_route` or `remove_route` on a connection manager with the right name. -/
def ConnectionHandler.change (handler : ConnectionHandler Route)
    (change : RouteConfigurationChange Route) : ConnectionHandler Route :=
  match handler with
  | .http (some routeId) routingState =>
    if routeId = change.id then .http (some routeId) change.route
    else .http (some routeId) routingState
  | handler => handler

variable (filterChains : List (FilterchainType L Route)) (change : RouteConfigurationChange Route)

def processRouteUpdate : List (FilterchainType L Route) :=
  filterChains.map fun chain => { chain with handler := chain.handler.change change }

def applied : Bool :=
  filterChains.any fun chain => decide (chain.handler.getRouteId = some change.id)

/-- The configurator of a chain after a change of a secret. -/
def receive (configurator : ServerConfigurator L)
    (arrival : TlsContextChange L × Except String L.Ticketer) : ServerConfigurator L :=
  match configurator.update arrival.1.secretId arrival.1.secret arrival.2 with
  | .ok configurator => configurator
  | .error _ => configurator

/-- `tickets` gives the outcome of drawing ticket keys for each of the chains. -/
def processSecretUpdate (change : TlsContextChange L) (tickets : ℕ → Except String L.Ticketer) :
    List (FilterchainType L Route) :=
  filterChains.mapIdx fun j chain =>
    { chain with tlsConfigurator := chain.tlsConfigurator.map (receive · (change, tickets j)) }

end

open ConnectionHandler

variable (id : String)

def routeAfter (initial : Option Route)
    (changes : List (RouteConfigurationChange Route)) : Option Route :=
  (changes.reverse.find? fun change => decide (change.id = id)).elim initial
    RouteConfigurationChange.route

lemma routeAfter_cons (i : Option Route)
    (c : RouteConfigurationChange Route) (changes : List (RouteConfigurationChange Route)) :
    routeAfter id i (c::changes) = routeAfter id (if c.id = id then c.route else i) changes := by
  rw [routeAfter,routeAfter,reverse_cons,find?_append]
  cases changes.reverse.find? fun c => decide (c.id = id) with
  | some l => rfl
  | none => by_cases h : c.id = id <;> simp [h]

lemma foldl_change_http (i : Option Route) (c : List (RouteConfigurationChange Route)) :
    c.foldl change (.http (some id) i) = .http (some id) (routeAfter id i c) := by
  induction c generalizing i with
  | nil => rfl
  | cons ch c ih =>
    rw [foldl_cons,routeAfter_cons,change]
    split_ifs with h h' h'
    · exact ih _
    · exact absurd h.symm h'
    · exact absurd h'.symm h
    · exact ih _

variable {handler : ConnectionHandler Route}

lemma foldl_change_of_none (h : handler.getRouteId = none)
    (c : List (RouteConfigurationChange Route)) :
    c.foldl change handler = handler := by
  have hc : ∀ ch, handler.change ch = handler := by
    intro ch
    match handler with
    | .http none _ => rfl
    | .tcp => rfl
  induction c with
  | nil => rfl
  | cons ch c ih => rw [foldl_cons,hc,ih]

lemma exists_of_foldl_change {id : String} {r : Option Route}
    {changes : List (RouteConfigurationChange Route)}
    (h : changes.foldl change handler = .http (some id) r) :
    ∃ i, handler = .http (some id) i ∧ r = routeAfter id i changes := by
  match handler with
  | .http (some name) i =>
    rw [foldl_change_http] at h
    cases h
    exact ⟨i,rfl,rfl⟩
  | .http none i =>
    rw [foldl_change_of_none rfl] at h
    cases h
  | .tcp =>
    rw [foldl_change_of_none rfl] at h
    cases h

open TlsContextChange

section

def certificateOf (configurator : ServerConfigurator L) (id : String) : Option (ServerCert L) :=
  (configurator.contextBuilder.serverIdsAndCertificates.find? fun holder =>
    decide (holder.name = id)).map SecretHolder.serverCert

def storeOf (configurator : ServerConfigurator L) (id : String) : Option L.RootCertStore :=
  if configurator.contextBuilder.validationContextSecretId = some id then
    configurator.contextBuilder.certificateStore
  else none

variable (change : TlsContextChange L)

def TlsContextChange.certificate (id : String) : Option (ServerCert L) :=
  if change.secretId = id then
    match change.secret with
    | .certificate certificate => some certificate.toServerCert
    | .validationContext _ => none
  else none

def TlsContextChange.store (id : String) : Option L.RootCertStore :=
  if change.secretId = id then
    match change.secret with
    | .certificate _ => none
    | .validationContext certStore => some certStore.store
  else none

/-- The changes by which a configurator can be updated, among those it receives. -/
def validUpdates (configurator : ServerConfigurator L) :
    List (TlsContextChange L × Except String L.Ticketer) → List (TlsContextChange L)
  | [] => []
  | arrival::arrivals =>
    match configurator.update arrival.1.secretId arrival.1.secret arrival.2 with
    | .ok configurator => arrival.1::validUpdates configurator arrivals
    | .error _ => validUpdates configurator arrivals

/-- A configurator has the rustls configuration of its own builder state. -/
def Built (configurator : ServerConfigurator L) : Prop :=
  configurator.contextBuilder.build = .ok configurator.config

variable {configurator : ServerConfigurator L} {t : Except String L.Ticketer}
  {updated : ServerConfigurator L} {c : TlsContextChange L}

section

variable (h : configurator.update c.secretId c.secret t = .ok updated)
include h

lemma update_eq_ok : (∃ certificate holders, c.secret = .certificate certificate ∧
      setServerCert c.secretId certificate.toServerCert
        configurator.contextBuilder.serverIdsAndCertificates = some (holders, ()) ∧
      configured { configurator.contextBuilder with
        serverIdsAndCertificates := holders
        validationContextSecretId := configurator.contextBuilder.certificateStore.bind fun _ =>
          configurator.contextBuilder.validationContextSecretId } = .ok updated) ∨
    (∃ certStore, c.secret = .validationContext certStore ∧
      configurator.contextBuilder.validationContextSecretId = some c.secretId ∧
      configured { configurator.contextBuilder with
        certificateStore := some certStore.store } = .ok updated) := by
  obtain ⟨secretId,secret⟩ := c
  cases secret with
  | certificate certificate =>
    obtain ⟨holders,fresh,hse,rfl⟩ := ServerConfigurator.setServerCert_of_update h
    rw [ServerConfigurator.update_certificate_of_some hse] at h
    exact .inl ⟨certificate,holders,rfl,hse,h⟩
  | validationContext certStore =>
    obtain ⟨hid,fresh,rfl⟩ := ServerConfigurator.validationContextSecretId_of_update h
    rw [ServerConfigurator.update_validationContext_of_eq hid] at h
    exact .inr ⟨certStore,rfl,hid,h⟩

lemma certificateOf_update (id : String) :
    certificateOf updated id = (c.certificate id).or (certificateOf configurator id) := by
  rcases update_eq_ok h with ⟨ce,holders,hse,hst,hc⟩ | ⟨cs,hse,-,hc⟩
  · rw [certificateOf,contextBuilder_of_configured hc]
    simp only [certificate,hse]
    obtain ⟨be,holder,holder',after,heq,hbe,hh,rfl⟩ := visitFirst_eq_some hst
    obtain ⟨hn,hh⟩ := ite_none_right_eq_some.mp hh
    cases hh
    rw [certificateOf,heq]
    by_cases hid : c.secretId = id
    · -- no holder before the changed one has the name
      have hno : be.find? (fun holder => decide (holder.name = id)) = none := by
        simp_all
      simp [hno,hn,hid]
    · simp [hn,hid]
  · rw [certificateOf,contextBuilder_of_configured hc]
    simp only [certificate,hse,ite_self]
    rfl

lemma storeOf_update (id : String) :
    storeOf updated id = (c.store id).or (storeOf configurator id) := by
  rcases update_eq_ok h with ⟨ce,holders,hse,-,hc⟩ | ⟨cs,hse,hid,hc⟩
  · rw [storeOf,contextBuilder_of_configured hc,storeOf]
    simp only [store,hse,ite_self]
    cases configurator.contextBuilder.certificateStore with
    | none => simp
    | some s => rfl
  · rw [storeOf,contextBuilder_of_configured hc,storeOf]
    simp only [store,hse,hid]
    by_cases h : c.secretId = id
    · simp [h]
    · simp [h]

end

lemma built_of_configured {s : WantsToBuildServer L}
    (h : configured s = .ok configurator) : Built configurator := by
  obtain ⟨co,hco,hc⟩ := bind_eq_ok.mp h
  cases hc
  exact hco

lemma built_update (h : configurator.update c.secretId c.secret t = .ok updated) :
    Built updated := by
  rcases update_eq_ok h with ⟨_,_,-,-,hc⟩ | ⟨_,-,-,hc⟩
  · exact built_of_configured hc
  · exact built_of_configured hc

/-- What a configurator has made of the changes it has received. -/
structure Reflects (initial configurator : ServerConfigurator L)
    (arrivals : List (TlsContextChange L × Except String L.Ticketer)) : Prop where
  certificates : ∀ id, certificateOf configurator id =
    (last (·.certificate id) (validUpdates initial arrivals)).or (certificateOf initial id)
  stores : ∀ id, storeOf configurator id =
    (last (·.store id) (validUpdates initial arrivals)).or (storeOf initial id)
  built : Built initial → Built configurator

lemma reflects_foldl_receive (i : ServerConfigurator L)
    (arrivals : List (TlsContextChange L × Except String L.Ticketer)) :
    Reflects i (arrivals.foldl receive i) arrivals := by
  induction arrivals generalizing i with
  | nil => exact ⟨fun _ => rfl,fun _ => rfl,id⟩
  | cons a arrivals ih =>
    have hr := ih (receive i a)
    rw [receive] at hr
    rw [foldl_cons,receive]
    cases h : i.update a.1.secretId a.1.secret a.2 with
    | error e =>
      simp only [h] at hr ⊢
      have hv : validUpdates i (a::arrivals) =
          validUpdates i arrivals := by simp only [validUpdates,h]
      exact ⟨by simpa only [hv] using hr.certificates,by simpa only [hv] using hr.stores,hr.built⟩
    | ok updated =>
      simp only [h] at hr ⊢
      have hv : validUpdates i (a::arrivals) =
          a.1::validUpdates updated arrivals := by simp only [validUpdates,h]
      refine ⟨fun id => ?_,fun id => ?_,fun _ => hr.built (built_update h)⟩
      · rw [hv,last_cons,Option.or_assoc,← certificateOf_update h,hr.certificates]
      · rw [hv,last_cons,Option.or_assoc,← storeOf_update h,hr.stores]

end

/-- The filter chains of a listener after changes of routes and of secrets, each
of these with the ticket keys drawn for it. -/
def chainsAfter (built : List (FilterchainType L Route))
    (routes : List (RouteConfigurationChange Route))
    (received : List (TlsContextChange L × (ℕ → Except String L.Ticketer))) :
    List (FilterchainType L Route) :=
  built.mapIdx fun j chain =>
    { tlsConfigurator := chain.tlsConfigurator.map fun initial =>
        (received.map fun arrival => (arrival.1, arrival.2 j)).foldl receive initial
      handler := routes.foldl ConnectionHandler.change chain.handler }

variable {built : List (FilterchainType L Route)}
  {r : List (RouteConfigurationChange Route)}
  {received : List (TlsContextChange L × (ℕ → Except String L.Ticketer))}

lemma chainsAfter_nil : chainsAfter built [] [] = built := by
  refine ext_getElem? fun j => ?_
  rw [chainsAfter,getElem?_mapIdx]
  cases built[j]? with
  | none => rfl
  | some ch => simp

lemma processRouteUpdate_chainsAfter (c : RouteConfigurationChange Route) :
    processRouteUpdate (chainsAfter built r received) c = chainsAfter built (r++[c]) received := by
  refine ext_getElem? fun j => ?_
  simp [processRouteUpdate,chainsAfter,Function.comp_def]

lemma processSecretUpdate_chainsAfter (c : TlsContextChange L) (t : ℕ → Except String L.Ticketer) :
    processSecretUpdate (chainsAfter built r received) c t =
      chainsAfter built r (received++[(c, t)]) := by
  simp [processSecretUpdate,chainsAfter,Function.comp_def]

end ArionGateway.ListenerUpdates
