import ArionGateway.HttpHeaders
import ArionGateway.PriorityBalancer
import ArionGateway.TransportSockets

/-!
# Channels of clusters

The load assignment of a cluster with its balancer, and the three types of clusters: static ones,
dynamic ones whose load assignment comes and goes, and those that make an endpoint for each
original destination and cache it. For each the functions that hand out channels and the one that
takes a new secret.

Maps from authorities are functions; that the cache of original destinations forgets an entry is a
step of its own. The hash of a request is part of its routing context.
-/
namespace ArionGateway.ClusterChannels
open ByteStrings FallibleSteps HttpHeaders PriorityBalancer PriorityLoads
open HealthRotation (Balancer HealthStatus HealthyBalancer)
open TlsSecrets TlsConfigurators TransportSockets

variable (L : TlsLibrary) (C : ChannelLibrary) {socket : UpstreamTransportSocketConfigurator L}
  {endpoints : List (LbEndpoint L C)} {serverName : Option C.ServerName}
  {configs : List (HealthRotation.LbEndpoint C.Authority)} {http2 : Bool}

/-- A locality as the configuration has it, which rejects empty ones. -/
structure PartialLocalityLbEndpoints where
  endpoints : List (HealthRotation.LbEndpoint C.Authority)
  priority : ℕ
  endpoints_ne_nil : endpoints ≠ []

structure LocalityLbEndpoints extends PriorityBalancer.LocalityLbEndpoints (LbEndpoint L C) where
  transportSocket : UpstreamTransportSocketConfigurator L
  http2 : Bool

structure OverrideEndpoint where
  endpoint : LbEndpoint L C
  healthy : Bool

abbrev OverrideMap := C.Authority → Option (OverrideEndpoint L C)

inductive BalancerType (B : Type)
  | standard (balancer : DefaultBalancer B (LbEndpoint L C))
  | overrideHost (fallback : BalancerType B) (endpoints : OverrideMap L C)

structure ClusterLoadAssignment (B : Type) where
  transportSocket : UpstreamTransportSocketConfigurator L
  balancer : BalancerType L C B
  endpoints : List (LocalityLbEndpoints L C)

inductive HttpChannels
  | single (channel : HttpChannel L C)
  | multiWithFailover (channel : HttpChannel L C) (failoverChannels : List (HttpChannel L C))

inductive RoutingContext
  | none
  | header (headerValue : Str)
  | dynamicDest (dynamicDest : String)
  | authority (authority : C.Authority)
  | hash (hash : Option ℕ)
  | overrideHost (header : Str) (fallbackHash : Option ℕ)

/-- The policy of a cluster; which standard balancer it uses is the choice of `B`. -/
inductive LbPolicy
  | standard
  | overrideHost

variable {L C}

def buildEndpoints (endpoints : List (HealthRotation.LbEndpoint C.Authority)) (http2 : Bool)
    (transportSocket : UpstreamTransportSocketConfigurator L) (serverName : Option C.ServerName) :
    Except String (List (LbEndpoint L C)) :=
  endpoints.mapM fun e => LbEndpoint.build e http2 transportSocket serverName

lemma buildEndpoints_eq_ok (h : buildEndpoints configs http2 socket serverName = .ok endpoints) :
    endpoints.map LbEndpoint.config = configs ∧ ∀ e ∈ endpoints, e.BuiltFrom socket := by
  have ha := mapM_eq_ok.mp h
  clear h
  induction ha with
  | nil => exact ⟨rfl,by simp⟩
  | @cons config e configs endpoints hb _ ih =>
    obtain ⟨channel,hch,he⟩ := bind_eq_ok.mp hb
    have hc : e.config = config := by
      cases he
      rfl
    refine ⟨by rw [List.map_cons,hc,ih.1],?_⟩
    intro f hf
    rcases List.mem_cons.mp hf with rfl | hf
    · cases he
      exact ⟨HttpChannel.tlsConfig_of_build hch,rfl⟩
    · exact ih.2 f hf

lemma buildEndpoints_ne_nil (hne : configs ≠ [])
    (h : buildEndpoints configs http2 socket serverName = .ok endpoints) : endpoints ≠ [] := by
  rw [← (buildEndpoints_eq_ok h).1] at hne
  simpa using hne

lemma counts_of_map_config {others : List (LbEndpoint L C)}
    (h : endpoints.map LbEndpoint.config = others.map LbEndpoint.config) :
    endpoints.length = others.length ∧ healthyCount endpoints = healthyCount others := by
  have hc : ∀ l : List (LbEndpoint L C), healthyCount l =
      (l.map LbEndpoint.config).countP fun c => decide (c.healthStatus = .healthy) := by
    intro l
    rw [List.countP_map]
    rfl
  refine ⟨by simpa using congrArg List.length h,?_⟩
  rw [hc,hc,h]

def LocalityLbEndpoints.build (partials : PartialLocalityLbEndpoints C) (http2 : Bool)
    (transportSocket : UpstreamTransportSocketConfigurator L) (serverName : Option C.ServerName) :
    Except String (LocalityLbEndpoints L C) :=
  let serverName := transportSocket.tlsConfigurator.bind fun _ => serverName
  match h : buildEndpoints partials.endpoints http2 transportSocket serverName with
  | .error e => .error e
  | .ok endpoints =>
    if hc : endpoints.length < 2^32 ∧ healthyCount endpoints ≤ (2^32 - 1) / 100 then
      .ok
        { endpoints
          priority := partials.priority
          endpoints_ne_nil := buildEndpoints_ne_nil partials.endpoints_ne_nil h
          total_lt := hc.1
          healthy_le := hc.2
          transportSocket
          http2 }
    else .error "Too many endpoints"

def LocalityLbEndpoints.rebuild (self : LocalityLbEndpoints L C) :
    Except String (LocalityLbEndpoints L C) :=
  match h : buildEndpoints (self.endpoints.map LbEndpoint.config) self.http2 self.transportSocket
      none with
  | .error e => .error e
  | .ok endpoints =>
    have hc := counts_of_map_config (buildEndpoints_eq_ok h).1
    .ok
      { self with
        endpoints
        endpoints_ne_nil :=
          buildEndpoints_ne_nil (mt List.map_eq_nil_iff.mp self.endpoints_ne_nil) h
        total_lt := hc.1 ▸ self.total_lt
        healthy_le := hc.2 ▸ self.healthy_le }

lemma LocalityLbEndpoints.builtFrom_of_rebuild {s l : LocalityLbEndpoints L C}
    (h : s.rebuild = .ok l) : ∀ e ∈ l.endpoints, e.BuiltFrom s.transportSocket := by
  unfold rebuild at h
  split at h
  · cases h
  · rename_i endpoints hb
    cases h
    exact (buildEndpoints_eq_ok hb).2

def allEndpoints (localities : List (LocalityLbEndpoints L C)) : List (LbEndpoint L C) :=
  localities.flatMap fun locality => locality.endpoints

/-- `OverrideHostLoadBalancer::build`: an entry for every endpoint; an authority that was known
before keeps its health. -/
def OverrideMap.build (endpoints : List (LocalityLbEndpoints L C))
    (previous : Option (OverrideMap L C)) : OverrideMap L C :=
  (allEndpoints endpoints).foldl
    (fun map endpoint =>
      let key := endpoint.config.authority
      let known : Option Bool := (previous.bind fun map => map key).map OverrideEndpoint.healthy
      let healthy := known.getD (decide (endpoint.config.healthStatus = .healthy))
      Function.update map key (some { endpoint, healthy }))
    fun _ => none

def OverrideMap.select (map : OverrideMap L C) (value : Str) : List (LbEndpoint L C) :=
  (value.splitOn 44).filterMap fun raw =>
    let trimmed := trim raw
    if trimmed.isEmpty then none
    else do
      let authority ← C.parseAuthority trimmed
      let entry ← map authority
      if entry.healthy then some entry.endpoint else none

def OverrideMap.setHealth (map : OverrideMap L C) (authority : C.Authority)
    (health : HealthStatus) : OverrideMap L C := fun key =>
  if key = authority then
    (map key).map fun entry => { entry with healthy := decide (health = .healthy) }
  else map key

variable {B : Type} [Balancer B (LbEndpoint L C)]

namespace BalancerType

/-- A failed update is only logged. -/
def updateHealth (endpoint : LbEndpoint L C) (health : HealthStatus) :
    BalancerType L C B → BalancerType L C B
  | .standard balancer => .standard (balancer.call (.updateHealth endpoint health))
  | .overrideHost fallback endpoints =>
    .overrideHost (fallback.updateHealth endpoint health)
      (endpoints.setHealth endpoint.config.authority health)

def nextItem (hash : Option ℕ) : BalancerType L C B → Option (LbEndpoint L C) × BalancerType L C B
  | .standard balancer =>
    let (endpoint, balancer) := balancer.nextItem hash
    (endpoint, .standard balancer)
  | .overrideHost fallback endpoints =>
    let (endpoint, fallback) := fallback.nextItem hash
    (endpoint, .overrideHost fallback endpoints)

/-- Only the map of an override-host balancer is made anew. -/
def rebuild (endpoints : List (LocalityLbEndpoints L C)) : BalancerType L C B → BalancerType L C B
  | .overrideHost fallback previous =>
    .overrideHost fallback (OverrideMap.build endpoints (some previous))
  | .standard balancer => .standard balancer

end BalancerType

variable {α : Type} (channel : LbEndpoint L C → Except String α)

def nextChannel (hash : Option ℕ)
    (balancer : BalancerType L C B) : Except String α × BalancerType L C B :=
  let (endpoint, balancer) := balancer.nextItem hash
  (endpoint.elim (.error "No active endpoint") channel, balancer)

lemma nextChannel_fst (hash : Option ℕ) (b : BalancerType L C B) : (nextChannel channel hash b).1 =
      (b.nextItem hash).1.elim (.error "No active endpoint") channel := rfl

def singleChannel (endpoint : LbEndpoint L C) : Except String (HttpChannels L C) :=
  .ok (.single endpoint.httpChannel)

def selectOverride (fallback : BalancerType L C B) (endpoints : OverrideMap L C)
    (headerValue : Str) (fallbackHash : Option ℕ) :
    Except String (HttpChannels L C) × BalancerType L C B :=
  match (toStr headerValue).elim [] endpoints.select with
  | primary::rest =>
    (.ok (.multiWithFailover primary.httpChannel (rest.map LbEndpoint.httpChannel)),
      .overrideHost fallback endpoints)
  | [] =>
    let (channels, fallback) := nextChannel singleChannel fallbackHash fallback
    (channels, .overrideHost fallback endpoints)

namespace ClusterLoadAssignment

def build (order : HashOrder (ℕ × PriorityInfo (HealthyBalancer B (LbEndpoint L C))))
    (lbPolicy : LbPolicy) (cla : List (PartialLocalityLbEndpoints C)) (http2 : Bool)
    (transportSocket : UpstreamTransportSocketConfigurator L) (serverName : Option C.ServerName) :
    Except String (ClusterLoadAssignment L C B) := do
  let serverName := transportSocket.tlsConfigurator.bind fun _ => serverName
  let endpoints ← cla.mapM fun e => LocalityLbEndpoints.build e http2 transportSocket serverName
  let standard := BalancerType.standard
    (.fromSlice order (endpoints.map LocalityLbEndpoints.toLocalityLbEndpoints))
  let balancer :=
    match lbPolicy with
    | .standard => standard
    | .overrideHost => .overrideHost standard (OverrideMap.build endpoints none)
  return { transportSocket, balancer, endpoints }

variable (self : ClusterLoadAssignment L C B)

def getHttpChannel (context : RoutingContext C) :
    Except String (HttpChannels L C) × ClusterLoadAssignment L C B :=
  let (channels, balancer) :=
    match context, self.balancer with
    | .overrideHost header fallbackHash, .overrideHost fallback endpoints =>
      selectOverride fallback endpoints header fallbackHash
    | .overrideHost _ fallbackHash, balancer => nextChannel singleChannel fallbackHash balancer
    | .hash hash, balancer => nextChannel singleChannel hash balancer
    | _, balancer => nextChannel singleChannel none balancer
  (channels, { self with balancer })

def getTcpChannel : Except String (TcpChannelConnector L C) × ClusterLoadAssignment L C B :=
  let (channel, balancer) := nextChannel (fun e => .ok e.tcpChannel) none self.balancer
  (channel, { self with balancer })

def getGrpcChannel : Except String (GrpcService L C) × ClusterLoadAssignment L C B :=
  let (channel, balancer) := nextChannel LbEndpoint.grpcService none self.balancer
  (channel, { self with balancer })

def updateEndpointHealth (authority : C.Authority)
    (health : HealthStatus) : ClusterLoadAssignment L C B :=
  { self with
    balancer := ((allEndpoints self.endpoints).filter
      fun endpoint => C.sameAuthority endpoint.config.authority authority).foldl
        (fun balancer endpoint => balancer.updateHealth endpoint health) self.balancer }

def rebuild : Except String (ClusterLoadAssignment L C B) := do
  let endpoints ← self.endpoints.mapM fun e =>
    LocalityLbEndpoints.rebuild { e with transportSocket := self.transportSocket }
  return { self with balancer := self.balancer.rebuild endpoints, endpoints }

end ClusterLoadAssignment

variable (L C) in
structure StaticCluster (B : Type) where
  transportSocket : UpstreamTransportSocketConfigurator L
  loadAssignment : ClusterLoadAssignment L C B

variable (L C) in
structure DynamicCluster (B : Type) where
  name : String
  loadBalancingPolicy : LbPolicy
  http2 : Bool
  loadAssignment : Option (ClusterLoadAssignment L C B)
  transportSocket : UpstreamTransportSocketConfigurator L

variable (L C) in
structure HttpChannelConfig where
  tlsConfigurator : Option (ClientConfigurator L)
  serverName : Option C.ServerName
  http2 : Bool

variable (L C) in
structure Endpoint where
  httpChannel : HttpChannel L C
  tcpChannel : TcpChannelConnector L C

variable (L C) in
structure OriginalDstCluster where
  name : String
  /-- Part of the data that clones of a cluster share, so that it never changes. -/
  transportSocket : UpstreamTransportSocketConfigurator L
  upstreamPortOverride : Option ℕ
  endpoints : C.Authority → Option (Endpoint L C)
  httpConfig : HttpChannelConfig L C

namespace StaticCluster

def build (order : HashOrder (ℕ × PriorityInfo (HealthyBalancer B (LbEndpoint L C))))
    (lbPolicy : LbPolicy) (cla : List (PartialLocalityLbEndpoints C)) (http2 : Bool)
    (transportSocket : UpstreamTransportSocketConfigurator L) (serverName : Option C.ServerName) :
    Except String (StaticCluster L C B) := do
  let loadAssignment ← ClusterLoadAssignment.build order lbPolicy cla http2 transportSocket
    serverName
  return { transportSocket, loadAssignment }

/-- The socket is updated also when the rebuild fails. -/
def changeTlsContext (self : StaticCluster L C B) (secretId : String)
    (secret : TransportSecret L) : Except String Bool × StaticCluster L C B :=
  match self.transportSocket.updateSecret secretId secret with
  | .error e => (.error e, self)
  | .ok (false, transportSocket) => (.ok false, { self with transportSocket })
  | .ok (true, transportSocket) =>
    match { self.loadAssignment with transportSocket }.rebuild with
    | .error e => (.error e, { self with transportSocket })
    | .ok loadAssignment => (.ok true, { transportSocket, loadAssignment })

end StaticCluster

namespace DynamicCluster

def build (name : String) (loadBalancingPolicy : LbPolicy) (http2 : Bool)
    (transportSocket : UpstreamTransportSocketConfigurator L) : DynamicCluster L C B :=
  { name, loadBalancingPolicy, http2, loadAssignment := none, transportSocket }

/-- The load assignment is taken out before its rebuild and lost when that fails. -/
def changeTlsContext (self : DynamicCluster L C B) (secretId : String)
    (secret : TransportSecret L) : Except String Bool × DynamicCluster L C B :=
  match self.transportSocket.updateSecret secretId secret with
  | .error e => (.error e, self)
  | .ok (false, transportSocket) => (.ok false, { self with transportSocket })
  | .ok (true, transportSocket) =>
    match self.loadAssignment with
    | none => (.ok true, { self with transportSocket })
    | some loadAssignment =>
      match { loadAssignment with transportSocket }.rebuild with
      | .error e => (.error e, { self with transportSocket, loadAssignment := none })
      | .ok loadAssignment =>
        (.ok true, { self with transportSocket, loadAssignment := some loadAssignment })

def withLoadAssignment (self : DynamicCluster L C B)
    (lookup : ClusterLoadAssignment L C B → Except String α × ClusterLoadAssignment L C B) :
    Except String α × DynamicCluster L C B :=
  match self.loadAssignment with
  | some cla =>
    let (channel, cla) := lookup cla
    (channel, { self with loadAssignment := some cla })
  | none => (.error s!"{self.name} No channels available", self)

def changeLoadAssignment (self : DynamicCluster L C B)
    (order : HashOrder (ℕ × PriorityInfo (HealthyBalancer B (LbEndpoint L C))))
    (cla : List (PartialLocalityLbEndpoints C)) : Except String (DynamicCluster L C B) := do
  let cla ← ClusterLoadAssignment.build order self.loadBalancingPolicy cla self.http2
    self.transportSocket none
  return { self with loadAssignment := some cla }

end DynamicCluster

namespace Endpoint

def tryNew (authority : C.Authority) (httpConfig : HttpChannelConfig L C)
    (transportSocket : UpstreamTransportSocketConfigurator L) : Except String (Endpoint L C) := do
  let httpChannel ← HttpChannel.build authority httpConfig.tlsConfigurator httpConfig.serverName
    httpConfig.http2
  return { httpChannel, tcpChannel := { authority, transportSocket } }

def grpcService (self : Endpoint L C) : Except String (GrpcService L C) :=
  GrpcService.tryNew self.httpChannel self.httpChannel.upstreamAuthority

end Endpoint

namespace OriginalDstCluster

def build (name : String) (upstreamPortOverride : Option ℕ) (http2 : Bool)
    (transportSocket : UpstreamTransportSocketConfigurator L) (serverName : Option C.ServerName) :
    OriginalDstCluster L C :=
  { name
    transportSocket
    upstreamPortOverride
    endpoints := fun _ => none
    httpConfig := { tlsConfigurator := transportSocket.tlsConfigurator, serverName, http2 } }

variable (self : OriginalDstCluster L C)

def changeTlsContext (secretId : String)
    (secret : TransportSecret L) : Except String Bool × OriginalDstCluster L C :=
  match updateConfigurator self.httpConfig.tlsConfigurator secretId secret with
  | .error e => (.error e, self)
  | .ok (updated, tlsConfigurator) =>
    (.ok updated, { self with httpConfig := { self.httpConfig with tlsConfigurator } })

def applyPortOverride (authority : C.Authority) : Except String C.Authority :=
  match self.upstreamPortOverride with
  | some port => C.withPort authority port
  | none => .ok authority

/-- The common shape of `get_http_connection_by_authority` and its two siblings: a channel of the
cached endpoint, or else of a new one, which is cached if it has the channel. -/
def getByAuthority (channel : Endpoint L C → Except String α)
    (self : OriginalDstCluster L C) (authority : C.Authority) :
    Except String α × OriginalDstCluster L C :=
  match self.applyPortOverride authority with
  | .error e => (.error e, self)
  | .ok address =>
    match self.endpoints address with
    | some endpoint => (channel endpoint, self)
    | none =>
      match Endpoint.tryNew address self.httpConfig self.transportSocket with
      | .error e => (.error e, self)
      | .ok endpoint =>
        match channel endpoint with
        | .error e => (.error e, self)
        | .ok c => (.ok c,
            { self with endpoints := Function.update self.endpoints address (some endpoint) })

def getHttpConnectionByAuthority (self : OriginalDstCluster L C) (authority : C.Authority) :
    Except String (HttpChannels L C) × OriginalDstCluster L C :=
  self.getByAuthority (fun e => .ok (.single e.httpChannel)) authority

def getTcpConnectionByAuthority (self : OriginalDstCluster L C) (authority : C.Authority) :
    Except String (TcpChannelConnector L C) × OriginalDstCluster L C :=
  self.getByAuthority (fun e => .ok e.tcpChannel) authority

def getGrpcConnectionByAuthority (self : OriginalDstCluster L C) (authority : C.Authority) :
    Except String (GrpcService L C) × OriginalDstCluster L C :=
  self.getByAuthority Endpoint.grpcService authority

def getHttpConnection (context : RoutingContext C) :
    Except String (HttpChannels L C) × OriginalDstCluster L C :=
  match context with
  | .authority authority => self.getHttpConnectionByAuthority authority
  | .header headerValue =>
    match C.parseAuthority headerValue with
    | some authority => self.getHttpConnectionByAuthority authority
    | none =>
      (.error s!"Invalid authority in header for ORIGINAL_DST cluster {self.name}", self)
  | .dynamicDest dynamicDest =>
    match C.parseAuthority (str dynamicDest) with
    | some authority => self.getHttpConnectionByAuthority authority
    | none =>
      (.error (s!"Invalid Authority in dynamic_dest metadata ({dynamicDest}) for " ++
        s!"ORIGINAL_DST cluster {self.name}"), self)
  | _ =>
    (.error s!"ORIGINAL_DST cluster {self.name} requires authority or header routing context", self)

/-- TCP and gRPC connections are looked up by an authority alone. -/
def byAuthority (self : OriginalDstCluster L C) (context : RoutingContext C)
    (lookup : C.Authority → Except String α × OriginalDstCluster L C) :
    Except String α × OriginalDstCluster L C :=
  match context with
  | .authority authority => lookup authority
  | _ => (.error s!"ORIGINAL_DST cluster {self.name} requires authority routing context", self)

def getTcpConnection (self : OriginalDstCluster L C) (context : RoutingContext C) :
    Except String (TcpChannelConnector L C) × OriginalDstCluster L C :=
  self.byAuthority context self.getTcpConnectionByAuthority

def getGrpcConnection (self : OriginalDstCluster L C) (context : RoutingContext C) :
    Except String (GrpcService L C) × OriginalDstCluster L C :=
  self.byAuthority context self.getGrpcConnectionByAuthority

def forget (address : C.Authority) : OriginalDstCluster L C :=
  { self with endpoints := Function.update self.endpoints address none }

end OriginalDstCluster

variable (L C) in
inductive ClusterType (B : Type)
  | static (cluster : StaticCluster L C B)
  | dynamic (cluster : DynamicCluster L C B)
  | onDemand (cluster : OriginalDstCluster L C)

namespace ClusterType

def changeTlsContext (self : ClusterType L C B) (secretId : String) (secret : TransportSecret L) :
    Except String Bool × ClusterType L C B :=
  match self with
  | .static cluster => (cluster.changeTlsContext secretId secret).map id .static
  | .dynamic cluster => (cluster.changeTlsContext secretId secret).map id .dynamic
  | .onDemand cluster => (cluster.changeTlsContext secretId secret).map id .onDemand

def updateHealth (self : ClusterType L C B) (authority : C.Authority) (health : HealthStatus) :
    ClusterType L C B :=
  match self with
  | .static cluster => .static { cluster with
      loadAssignment := cluster.loadAssignment.updateEndpointHealth authority health }
  | .dynamic cluster => .dynamic { cluster with
      loadAssignment := cluster.loadAssignment.map fun cla =>
        cla.updateEndpointHealth authority health }
  | .onDemand cluster => .onDemand cluster

/-- The common shape of the three lookups: in the load assignment, or by the original
destination. -/
def getConnection (self : ClusterType L C B)
    (assigned : ClusterLoadAssignment L C B → Except String α × ClusterLoadAssignment L C B)
    (onDemand : OriginalDstCluster L C → Except String α × OriginalDstCluster L C) :
    Except String α × ClusterType L C B :=
  match self with
  | .static cluster =>
    let (channel, loadAssignment) := assigned cluster.loadAssignment
    (channel, .static { cluster with loadAssignment })
  | .dynamic cluster => (cluster.withLoadAssignment assigned).map id .dynamic
  | .onDemand cluster => (onDemand cluster).map id .onDemand

def getHttpConnection (self : ClusterType L C B) (context : RoutingContext C) :
    Except String (HttpChannels L C) × ClusterType L C B :=
  self.getConnection (·.getHttpChannel context) (·.getHttpConnection context)

def getTcpConnection (self : ClusterType L C B) (context : RoutingContext C) :
    Except String (TcpChannelConnector L C) × ClusterType L C B :=
  self.getConnection (·.getTcpChannel) (·.getTcpConnection context)

def getGrpcConnection (self : ClusterType L C B) (context : RoutingContext C) :
    Except String (GrpcService L C) × ClusterType L C B :=
  self.getConnection (·.getGrpcChannel) (·.getGrpcConnection context)

end ClusterType

end ArionGateway.ClusterChannels
