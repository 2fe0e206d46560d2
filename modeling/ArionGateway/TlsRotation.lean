import ArionGateway.ClusterChannels
import ArionGateway.SecretUpdates

/-!
# Rotation of the secrets of a cluster

After `change_tls_context` has returned `Ok(true)`, every connection that a cluster gives out
should use the updated transport socket. A change rebuilds the endpoints of the load assignment,
but of the balancer only the map of an override-host one, and it leaves the cache of original
destinations and the socket of their TCP channels as they are. So a connection is up to date
exactly when it comes from such a map, or when what it comes from was built from a socket that is
in force.
-/
namespace ArionGateway.TlsRotation
open Option
open ByteStrings ClusterChannels Executions FallibleSteps HttpHeaders List ClusterLoadAssignment
open PriorityBalancer PriorityLoads
open HealthRotation (Balancer LawfulBalancer HealthStatus HealthyBalancer)
open TlsSecrets TlsContextBuilder TlsConfigurators TransportSockets
open UpstreamTransportSocketConfigurator (tlsConfigurator updateSecret tlsConfig)

variable {L : TlsLibrary} {C : ChannelLibrary} {B : Type}

abbrev Socket (L : TlsLibrary) := UpstreamTransportSocketConfigurator L

section
/-- The endpoints that a request can name have a property. -/
def Mapped (p : LbEndpoint L C → Prop) : BalancerType L C B → Prop
  | .standard _ => True
  | .overrideHost _ endpoints => ∀ key entry, endpoints key = some entry → p entry.endpoint

def named (cla : ClusterLoadAssignment L C B) (context : RoutingContext C) :
    List (LbEndpoint L C) :=
  match context, cla.balancer with
  | .overrideHost header _, .overrideHost _ endpoints =>
    (toStr header).elim [] endpoints.select
  | _, _ => []

variable {p : LbEndpoint L C → Prop} {endpoints : List (LocalityLbEndpoints L C)}

lemma build_mem {pr : Option (OverrideMap L C)} {key : C.Authority}
    {en : OverrideEndpoint L C} (h : OverrideMap.build endpoints pr key = some en) :
    en.endpoint ∈ allEndpoints endpoints := by
  unfold OverrideMap.build at h
  generalize allEndpoints endpoints = all at h ⊢
  induction all using reverseRecOn with
  | nil => cases h
  | append_singleton es e ih =>
    rw [foldl_append,foldl_cons,foldl_nil,Function.update_apply] at h
    split_ifs at h with hk
    · cases h
      simp
    · exact mem_append_left _ (ih h)

lemma mapped_rebuild (h : ∀ e ∈ allEndpoints endpoints, p e) (b : BalancerType L C B) :
    Mapped p (b.rebuild endpoints) := by
  cases b with
  | standard b => trivial
  | overrideHost f pr => exact fun key en he => h _ (build_mem he)

lemma mem_named {cla : ClusterLoadAssignment L C B} {c : RoutingContext C}
    {e : LbEndpoint L C} (h : Mapped p cla.balancer) (he : e ∈ named cla c) : p e := by
  unfold named at he
  split at he
  · rename_i header fallbackHash fallback endpoints hb
    rw [hb] at h
    generalize toStr header = v at he
    cases v with
    | none => cases he
    | some v =>
      obtain ⟨raw,-,hr⟩ := mem_filterMap.mp he
      dsimp only at hr
      split at hr
      · cases hr
      · obtain ⟨authority,-,hr⟩ := bind_eq_some_iff.mp hr
        obtain ⟨en,het,hr⟩ := bind_eq_some_iff.mp hr
        split at hr
        · cases hr
          exact h authority en het
        · cases hr
  · cases he

variable [Balancer B (LbEndpoint L C)] {balancer : BalancerType L C B}

lemma mapped_updateHealth (e : LbEndpoint L C) (health : HealthStatus) (h : Mapped p balancer) :
    Mapped p (balancer.updateHealth e health) := by
  cases balancer with
  | standard balancer => trivial
  | overrideHost f endpoints =>
    intro key en he
    rw [OverrideMap.setHealth] at he
    split_ifs at he with hk
    · obtain ⟨old,ho,rfl⟩ := map_eq_some_iff.mp he
      exact h key old ho
    · exact h key en he

lemma mapped_nextItem (hash : Option ℕ) (h : Mapped p balancer) :
    Mapped p (balancer.nextItem hash).2 := by
  cases balancer with
  | standard balancer => trivial
  | overrideHost f endpoints => exact h

lemma getHttpChannel_cases (cla : ClusterLoadAssignment L C B) (c : RoutingContext C) :
    (∃ primary rest, named cla c = primary::rest ∧ cla.getHttpChannel c =
        (.ok (.multiWithFailover primary.httpChannel (rest.map LbEndpoint.httpChannel)), cla)) ∨
    (named cla c = [] ∧ ∃ hash,
      (cla.getHttpChannel c).1 = (nextChannel singleChannel hash cla.balancer).1 ∧
      (cla.getHttpChannel c).2 = { cla with balancer := (cla.balancer.nextItem hash).2 }) := by
  obtain ⟨transportSocket,balancer,endpoints⟩ := cla
  cases c with
  | overrideHost header fallbackHash =>
    cases balancer with
    | standard balancer => exact .inr ⟨rfl,fallbackHash,rfl,rfl⟩
    | overrideHost fallback map =>
      unfold named getHttpChannel selectOverride
      dsimp only
      cases (toStr header).elim [] map.select with
      | nil => exact .inr ⟨rfl,fallbackHash,rfl,rfl⟩
      | cons primary rest => exact .inl ⟨primary,rest,rfl,rfl⟩
  | hash hash => exact .inr ⟨rfl,hash,rfl,rfl⟩
  | none | header value | dynamicDest value | authority authority =>
    exact .inr ⟨rfl,none,rfl,rfl⟩

variable [LawfulBalancer B (LbEndpoint L C)]

/-- The endpoints that are balanced have a property. -/
def Balanced (p : LbEndpoint L C → Prop) : BalancerType L C B → Prop
  | .standard balancer => balancer.Inv ∧ balancer.Every p
  | .overrideHost fallback _ => Balanced p fallback

lemma balanced_updateHealth (e : LbEndpoint L C) (health : HealthStatus) (h : Balanced p balancer) :
    Balanced p (balancer.updateHealth e health) := by
  induction balancer with
  | standard balancer => exact ⟨call_inv h.1 _,every_call h.2 _⟩
  | overrideHost f endpoints ih => exact ih h

lemma balanced_nextItem (hash : Option ℕ) (h : Balanced p balancer) :
    Balanced p (balancer.nextItem hash).2 := by
  induction balancer with
  | standard balancer => exact ⟨nextItem_inv h.1 hash,every_call h.2 (.nextItem hash)⟩
  | overrideHost f endpoints ih => exact ih h

lemma Balanced.of_nextItem {hash : Option ℕ} (h : Balanced p balancer) {e : LbEndpoint L C}
    (he : (balancer.nextItem hash).1 = some e) : p e := by
  induction balancer with
  | standard balancer => exact h.2.of_nextItem h.1 he
  | overrideHost f endpoints ih => exact ih h he

lemma balanced_rebuild (e : List (LocalityLbEndpoints L C)) (h : Balanced p balancer) :
    Balanced p (balancer.rebuild e) := by
  cases balancer with
  | standard balancer | overrideHost f pr => exact h

lemma Balanced.of_nextChannel {α : Type} {ch : LbEndpoint L C → Except String α}
    {hash : Option ℕ} (h : Balanced p balancer) {c : α}
    (hc : (nextChannel ch hash balancer).1 = .ok c) : ∃ e, p e ∧ ch e = .ok c := by
  rw [nextChannel_fst] at hc
  cases hn : (balancer.nextItem hash).1 with
  | none =>
    rw [hn] at hc
    cases hc
  | some e =>
    rw [hn] at hc
    exact ⟨e,h.of_nextItem hn,hc⟩

/-- The load assignment was built from `origin`; what a request can name was built since. -/
structure Holds (origin : Socket L) (inForce : List (Socket L))
    (cla : ClusterLoadAssignment L C B) : Prop where
  balanced : Balanced (LbEndpoint.BuiltFrom origin) cla.balancer
  mapped : Mapped (fun e => ∃ socket ∈ inForce, e.BuiltFrom socket) cla.balancer

variable {o socket : Socket L} {i i' : List (Socket L)}
  {cla cla' : ClusterLoadAssignment L C B}

lemma Holds.mono (h : Holds o i cla) (hsu : i ⊆ i') : Holds o i' cla := by
  refine ⟨h.balanced,?_⟩
  have hm := h.mapped
  cases hb : cla.balancer with
  | standard balancer => trivial
  | overrideHost f endpoints =>
    rw [hb] at hm
    intro key en he
    obtain ⟨socket,hso,hbu⟩ := hm key en he
    exact ⟨socket,hsu hso,hbu⟩

lemma Holds.updateEndpointHealth (h : Holds o i cla) (a : C.Authority)
    (health : HealthStatus) : Holds o i (cla.updateEndpointHealth a health) := by
  obtain ⟨t,balancer,endpoints⟩ := cla
  unfold updateEndpointHealth
  generalize (allEndpoints endpoints).filter _ = ch
  induction ch generalizing balancer with
  | nil => exact h
  | cons e ch ih =>
    exact ih _ ⟨balanced_updateHealth e health h.balanced,mapped_updateHealth e health h.mapped⟩

lemma holds_build {o : HashOrder (ℕ × PriorityInfo (HealthyBalancer B (LbEndpoint L C)))}
    {l : LbPolicy} {pa : List (PartialLocalityLbEndpoints C)} {ht : Bool} {sn : Option C.ServerName}
    (h : build o l pa ht socket sn = .ok cla)
    (hso : socket ∈ i) : Holds socket i cla := by
  obtain ⟨endpoints,hed,hc⟩ := bind_eq_ok.mp h
  cases hc
  have hb : ∀ lo ∈ endpoints, ∀ e ∈ lo.endpoints, e.BuiltFrom socket := by
    intro lo hl
    obtain ⟨_,hbu⟩ := exists_of_mapM_eq_ok hed hl
    unfold LocalityLbEndpoints.build at hbu
    dsimp only at hbu
    split at hbu
    · cases hbu
    next hb =>
      split at hbu
      · cases hbu
        exact (buildEndpoints_eq_ok hb).2
      · cases hbu
  have hst : Balanced (LbEndpoint.BuiltFrom socket) (BalancerType.standard
      (B := B) (.fromSlice o (endpoints.map LocalityLbEndpoints.toLocalityLbEndpoints))) := by
    refine ⟨fromSlice_inv o _,every_fromSlice o ?_⟩
    intro lo hl
    obtain ⟨b,hm,rfl⟩ := mem_map.mp hl
    exact hb b hm
  cases l with
  | standard => exact ⟨hst,trivial⟩
  | overrideHost =>
    refine ⟨hst,fun key en het => ?_⟩
    obtain ⟨lo,hl,he⟩ := mem_flatMap.mp (build_mem het)
    exact ⟨socket,hso,hb lo hl _ he⟩

lemma holds_rebuild (hcl : Holds o i cla)
    (h : { cla with transportSocket := socket }.rebuild = .ok cla') : Holds o [socket] cla' := by
  obtain ⟨endpoints,hed,hc⟩ := bind_eq_ok.mp h
  cases hc
  refine ⟨balanced_rebuild endpoints hcl.balanced,mapped_rebuild ?_ cla.balancer⟩
  intro e he
  obtain ⟨lo,hl,he⟩ := mem_flatMap.mp he
  obtain ⟨_,hr⟩ := exists_of_mapM_eq_ok hed hl
  exact ⟨socket,mem_singleton_self _,LocalityLbEndpoints.builtFrom_of_rebuild hr e he⟩

lemma Holds.nextItem (h : Holds o i cla) (hash : Option ℕ) :
    Holds o i { cla with balancer := (cla.balancer.nextItem hash).2 } :=
  ⟨balanced_nextItem hash h.balanced,mapped_nextItem hash h.mapped⟩

lemma Holds.getHttpChannel (h : Holds o i cla) (c : RoutingContext C) :
    Holds o i (cla.getHttpChannel c).2 := by
  rcases getHttpChannel_cases cla c with ⟨_,_,-,heq⟩ | ⟨-,hash,-,heq⟩
  · rw [heq]
    exact h
  · rw [heq]
    exact h.nextItem hash

def destination : RoutingContext C → Option C.Authority
  | .authority authority => some authority
  | .header headerValue => C.parseAuthority headerValue
  | .dynamicDest dynamicDest => C.parseAuthority (str dynamicDest)
  | _ => none

/-- The context names `address`, by which the cache is asked. -/
def Addresses (cluster : OriginalDstCluster L C) (context : RoutingContext C)
    (address : C.Authority) : Prop :=
  ∃ authority, destination context = some authority ∧
    cluster.applyPortOverride authority = .ok address

variable {α : Type} {channel : Endpoint L C → Except String α} {cluster : OriginalDstCluster L C}
  {authority : C.Authority}

lemma getByAuthority_cases {c : α} (h : (cluster.getByAuthority channel authority).1 = .ok c) :
    ∃ a e, cluster.applyPortOverride authority = .ok a ∧ channel e = .ok c ∧
      (cluster.endpoints a = some e ∨ cluster.endpoints a = none ∧
          Endpoint.tryNew a cluster.httpConfig cluster.transportSocket = .ok e) := by
  revert h
  fun_cases cluster.getByAuthority channel authority with
  | case1 | case3 | case4 => nofun
  | case2 a ha e hc => exact fun h => ⟨a,e,ha,h,.inl hc⟩
  | case5 a ha hc e hn c' hch => exact fun h => ⟨a,e,ha,hch.trans h,.inr ⟨hc,hn⟩⟩

/-- At most an address that had no entry has got a new endpoint. -/
inductive Extends (cluster : OriginalDstCluster L C) : OriginalDstCluster L C → Prop
  | same : Extends cluster cluster
  | cached {address : C.Authority} {endpoint : Endpoint L C}
      (hnone : cluster.endpoints address = none)
      (hnew : Endpoint.tryNew address cluster.httpConfig cluster.transportSocket = .ok endpoint) :
      Extends cluster
        { cluster with endpoints := Function.update cluster.endpoints address (some endpoint) }

lemma builtFrom_of_tryNew {hc : HttpChannelConfig L C} {socket : Socket L}
    {e : Endpoint L C} (h : Endpoint.tryNew authority hc socket = .ok e) :
    e.httpChannel.tlsConfig = hc.tlsConfigurator.map TlsConfigurator.config ∧
      e.tcpChannel.transportSocket = socket := by
  obtain ⟨ht,hh,he⟩ := bind_eq_ok.mp h
  cases he
  exact ⟨HttpChannel.tlsConfig_of_build hh,rfl⟩

/-- A lookup of a connection asks for the destination of its context, or fails. -/
def LooksUp (cluster : OriginalDstCluster L C) (context : RoutingContext C)
    (channel : Endpoint L C → Except String α)
    (result : Except String α × OriginalDstCluster L C) : Prop :=
  (∃ e, result = (.error e, cluster)) ∨ ∃ authority, destination context = some authority ∧
      result = cluster.getByAuthority channel authority

variable (c : OriginalDstCluster L C) (co : RoutingContext C)

lemma looksUp_getHttpConnection : LooksUp c co (fun e => .ok (.single e.httpChannel))
    (c.getHttpConnection co) := by
  cases co with
  | authority authority => exact .inr ⟨authority,rfl,rfl⟩
  | header value | dynamicDest value =>
    unfold OriginalDstCluster.getHttpConnection
    dsimp only
    split
    · rename_i authority ha
      exact .inr ⟨authority,ha,rfl⟩
    · exact .inl ⟨_,rfl⟩
  | none | hash hash | overrideHost header fallbackHash => exact .inl ⟨_,rfl⟩

lemma looksUp_byAuthority (ch : Endpoint L C → Except String α) : LooksUp c co ch
      (c.byAuthority co (c.getByAuthority ch)) := by
  cases co with
  | authority authority => exact .inr ⟨authority,rfl,rfl⟩
  | header headerValue | dynamicDest dynamicDest | none | hash hash
  | overrideHost header fallbackHash => exact .inl ⟨_,rfl⟩

lemma LooksUp.extends {c : RoutingContext C} {r : Except String α × OriginalDstCluster L C}
    (h : LooksUp cluster c channel r) : Extends cluster r.2 := by
  rcases h with ⟨e,rfl⟩ | ⟨authority,-,rfl⟩
  · exact .same
  · fun_cases cluster.getByAuthority channel authority with
    | case5 => exact .cached ‹_› ‹_›
    | _ => exact .same

/-- The socket that a secret makes; an error leaves it as it was. -/
def withSecret (socket : Socket L) (secretId : String) (secret : TransportSecret L) : Socket L :=
  match socket.updateSecret secretId secret with
  | .ok (_, socket) => socket
  | .error _ => socket

/-- The sockets in force after a change with a result. -/
def since (result : Except String Bool) (socket : Socket L) (inForce : List (Socket L)) :
    List (Socket L) :=
  match result with
  | .ok true => [socket]
  | _ => socket::inForce

lemma mem_since (r : Except String Bool) (so : Socket L) (inForce : List (Socket L)) :
    so ∈ since r so inForce := by
  unfold since
  split
  · exact mem_singleton_self _
  · exact mem_cons_self

lemma updateConfigurator_tlsConfigurator (so : Socket L) (si : String) (se : TransportSecret L) :
    updateConfigurator so.tlsConfigurator si se =
      (so.updateSecret si se).map fun r => (r.1, r.2.tlsConfigurator) := by
  cases so with
  | tls t =>
    simp only [tlsConfigurator,updateConfigurator,updateSecret]
    split
    · cases t.update si se with
      | error e | ok u => rfl
    · rfl
  | proxyProtocol pc =>
    simp only [tlsConfigurator,updateSecret,ProxyProtocolConfigurator.updateSecret]
    cases updateConfigurator pc.innerTlsConfigurator si se with
    | error e | ok r => rfl
  | none => rfl

variable (L C B) in
structure Observed where
  cluster : ClusterType L C B
  /-- The socket that the secrets so far make. -/
  socket : Socket L
  /-- The sockets since the last change that returned `Ok(true)`. -/
  inForce : List (Socket L)
  /-- The socket that the load assignment, or else the cluster, was built from. -/
  builtFrom : Socket L
  /-- The socket when the cached endpoint of an original destination was made. -/
  origins : C.Authority → Socket L

variable (L C B) in
inductive Op
  | getHttpConnection (context : RoutingContext C)
  | getTcpConnection (context : RoutingContext C)
  | getGrpcConnection (context : RoutingContext C)
  | changeTlsContext (secretId : String) (secret : TransportSecret L)
  | updateHealth (authority : C.Authority) (health : HealthStatus)
  | changeLoadAssignment
      (order : HashOrder (ℕ × PriorityInfo (HealthyBalancer B (LbEndpoint L C))))
      (cla : List (PartialLocalityLbEndpoints C))
  | removeLoadAssignment
  | forget (address : C.Authority)

def isCached (cluster : ClusterType L C B) (address : C.Authority) : Bool :=
  match cluster with
  | .onDemand cluster => (cluster.endpoints address).isSome
  | _ => false

namespace Observed

def start (cluster : ClusterType L C B) (socket : Socket L) : Observed L C B :=
  { cluster, socket, inForce := [socket], builtFrom := socket, origins := fun _ => socket }

/-- An endpoint that is not cached can only be made from the socket now. -/
def stamp (s : Observed L C B) : Observed L C B :=
  { s with origins := fun address =>
      if isCached s.cluster address then s.origins address else s.socket }

def after (s : Observed L C B) (op : Op L C B) : Observed L C B :=
  let s := s.stamp
  match op with
  | .getHttpConnection context => { s with cluster := (s.cluster.getHttpConnection context).2 }
  | .getTcpConnection context => { s with cluster := (s.cluster.getTcpConnection context).2 }
  | .getGrpcConnection context => { s with cluster := (s.cluster.getGrpcConnection context).2 }
  | .changeTlsContext secretId secret =>
    let (result, cluster) := s.cluster.changeTlsContext secretId secret
    let socket := withSecret s.socket secretId secret
    { s with cluster, socket, inForce := since result socket s.inForce }
  | .updateHealth authority health =>
    { s with cluster := s.cluster.updateHealth authority health }
  | .changeLoadAssignment order cla =>
    match s.cluster with
    | .dynamic cluster =>
      match cluster.changeLoadAssignment order cla with
      | .ok cluster => { s with cluster := .dynamic cluster, builtFrom := s.socket }
      | .error _ => s
    | _ => s
  | .removeLoadAssignment =>
    match s.cluster with
    | .dynamic cluster => { s with cluster := .dynamic { cluster with loadAssignment := none } }
    | _ => s
  | .forget address =>
    match s.cluster with
    | .onDemand cluster => { s with cluster := .onDemand (cluster.forget address) }
    | _ => s

inductive Built : Observed L C B → Prop
  | static {order lbPolicy cla http2 socket serverName cluster}
      (h : StaticCluster.build order lbPolicy cla http2 socket serverName = .ok cluster) :
      Built (start (.static cluster) socket)
  | dynamic (name loadBalancingPolicy http2 socket) :
      Built (start (.dynamic (.build name loadBalancingPolicy http2 socket)) socket)
  | onDemand (name upstreamPortOverride http2 socket serverName) :
      Built (start (.onDemand (.build name upstreamPortOverride http2 socket serverName)) socket)

end Observed

/-- Cached endpoints have the HTTP channels of their origins, and TCP channels that follow no
change. -/
structure Caches (socket builtFrom : Socket L) (origins : C.Authority → Socket L)
    (cluster : OriginalDstCluster L C) : Prop where
  configurator : cluster.httpConfig.tlsConfigurator = socket.tlsConfigurator
  transportSocket : cluster.transportSocket = builtFrom
  cached : ∀ address endpoint, cluster.endpoints address = some endpoint →
    endpoint.httpChannel.tlsConfig = (origins address).tlsConfig ∧
      endpoint.tcpChannel.transportSocket = builtFrom

variable {og : C.Authority → Socket L}

lemma Caches.of_extends {so b : Socket L} {cluster' : OriginalDstCluster L C}
    (h : Caches so b og cluster) (hor : ∀ a, cluster.endpoints a = none → og a = so)
    (hex : Extends cluster cluster') : Caches so b og cluster' := by
  cases hex with
  | same => exact h
  | @cached a e hn hnw =>
    obtain ⟨hh,ht⟩ := builtFrom_of_tryNew hnw
    refine ⟨h.configurator,h.transportSocket,fun ot entry he => ?_⟩
    by_cases ho : ot = a
    · subst ho
      obtain rfl : e = entry := by simpa using he
      rw [hor ot hn,hh,h.configurator]
      exact ⟨rfl,ht.trans h.transportSocket⟩
    · exact h.cached ot entry (by simpa [ho] using he)

lemma Caches.forget {so b : Socket L} (h : Caches so b og cluster)
    (a : C.Authority) : Caches so b og (cluster.forget a) := by
  refine ⟨h.configurator,h.transportSocket,fun ot en he => ?_⟩
  by_cases ho : ot = a
  · subst ho
    simp [OriginalDstCluster.forget] at he
  · exact h.cached ot en (by simpa [OriginalDstCluster.forget,ho] using he)

def Follows (s : Observed L C B) : ClusterType L C B → Prop
  | .static cluster => cluster.transportSocket = s.socket ∧
      Holds s.builtFrom s.inForce cluster.loadAssignment
  | .dynamic cluster => cluster.transportSocket = s.socket ∧
      ∀ cla, cluster.loadAssignment = some cla → Holds s.builtFrom s.inForce cla
  | .onDemand cluster => Caches s.socket s.builtFrom s.origins cluster

structure Inv (s : Observed L C B) : Prop where
  current : s.socket ∈ s.inForce
  follows : Follows s s.cluster

variable {s : Observed L C B}

lemma inv_of_built (h : s.Built) : Inv s := by
  refine ⟨?_,?_⟩
  · cases h with
    | static h | dynamic | onDemand => exact mem_singleton_self _
  · cases h with
    | static h =>
      obtain ⟨cla,hcl,hc⟩ := bind_eq_ok.mp h
      cases hc
      exact ⟨rfl,holds_build hcl (mem_singleton_self _)⟩
    | dynamic => exact ⟨rfl,fun cla hcl => by cases hcl⟩
    | onDemand =>
      exact ⟨rfl,rfl,fun _ _ h => (nomatch h)⟩

lemma inv_stamp (h : Inv s) : Inv s.stamp := by
  refine ⟨h.current,?_⟩
  obtain ⟨cluster,socket,inForce,builtFrom,og⟩ := s
  have hf := h.follows
  cases cluster with
  | static cluster | dynamic cluster => exact hf
  | onDemand cluster =>
    refine ⟨hf.configurator,hf.transportSocket,fun a e hc => ?_⟩
    simp only [Observed.stamp,isCached,hc]
    exact hf.cached a e hc

lemma inv_getConnection (h : Inv s) {α : Type}
    {assigned : ClusterLoadAssignment L C B → Except String α × ClusterLoadAssignment L C B}
    {onDemand : OriginalDstCluster L C → Except String α × OriginalDstCluster L C}
    (ha : ∀ cla, Holds s.builtFrom s.inForce cla → Holds s.builtFrom s.inForce (assigned cla).2)
    (he : ∀ cluster, Extends cluster (onDemand cluster).2) :
    Inv { s.stamp with cluster := (s.cluster.getConnection assigned onDemand).2 } := by
  refine ⟨h.current,?_⟩
  have hf := (inv_stamp h).follows
  obtain ⟨cluster,socket,inForce,builtFrom,og⟩ := s
  cases cluster with
  | static cluster => exact ⟨hf.1,ha _ hf.2⟩
  | dynamic cluster =>
    obtain ⟨n,loadBalancingPolicy,http2,loadAssignment,t⟩ := cluster
    cases loadAssignment with
    | none => exact hf
    | some cla =>
      refine ⟨hf.1,fun cla' hc => ?_⟩
      cases hc
      exact ha cla (hf.2 cla rfl)
  | onDemand cluster =>
    refine Caches.of_extends hf (fun a hn => ?_) (he cluster)
    simp [Observed.stamp,isCached,hn]

variable {ori : Socket L} {inForce : List (Socket L)} (si : String)
  (se : TransportSecret L)

lemma static_changeTlsContext (c : StaticCluster L C B) (h : Holds ori inForce c.loadAssignment) :
    let socket := withSecret c.transportSocket si se
    let r := c.changeTlsContext si se
    r.2.transportSocket = socket ∧ Holds ori (since r.1 socket inForce) r.2.loadAssignment := by
  unfold withSecret StaticCluster.changeTlsContext
  cases c.transportSocket.updateSecret si se with
  | error e => exact ⟨rfl,h.mono (subset_cons_self ..)⟩
  | ok r =>
    obtain ⟨u,socket⟩ := r
    cases u with
    | false => exact ⟨rfl,h.mono (subset_cons_self ..)⟩
    | true =>
      dsimp only
      cases hr : { c.loadAssignment with transportSocket := socket }.rebuild with
      | error e => exact ⟨rfl,h.mono (subset_cons_self ..)⟩
      | ok cla => exact ⟨rfl,holds_rebuild h hr⟩

/-- A dynamic cluster has no load assignment then, or has rebuilt it, or has kept it and not
returned `Ok(true)`. -/
lemma dynamic_changeTlsContext (c : DynamicCluster L C B)
    (h : ∀ cla, c.loadAssignment = some cla → Holds ori inForce cla) :
    let socket := withSecret c.transportSocket si se
    let r := c.changeTlsContext si se
    r.2.transportSocket = socket ∧
      ∀ cla, r.2.loadAssignment = some cla → Holds ori (since r.1 socket inForce) cla := by
  obtain ⟨n,loadBalancingPolicy,http2,loadAssignment,transportSocket⟩ := c
  unfold withSecret DynamicCluster.changeTlsContext
  cases transportSocket.updateSecret si se with
  | error e => exact ⟨rfl,fun cla hc => (h cla hc).mono (subset_cons_self ..)⟩
  | ok r =>
    obtain ⟨u,socket⟩ := r
    cases u with
    | false => exact ⟨rfl,fun cla hc => (h cla hc).mono (subset_cons_self ..)⟩
    | true =>
      cases loadAssignment with
      | none => exact ⟨rfl,nofun⟩
      | some cla =>
        dsimp only
        cases hr : { cla with transportSocket := socket }.rebuild with
        | error e => exact ⟨rfl,nofun⟩
        | ok cla' =>
          refine ⟨rfl,fun ot ho => ?_⟩
          cases ho
          exact holds_rebuild (h cla rfl) hr

lemma inv_changeTlsContext (h : Inv s) : Inv (s.after (.changeTlsContext si se)) := by
  have hf := (inv_stamp h).follows
  obtain ⟨cluster,socket,inForce,builtFrom,og⟩ := s
  refine ⟨mem_since ..,?_⟩
  cases cluster with
  | static cluster =>
    obtain ⟨hso,hh⟩ := hf
    obtain rfl : cluster.transportSocket = socket := hso
    exact static_changeTlsContext si se cluster hh
  | dynamic cluster =>
    obtain ⟨hso,hh⟩ := hf
    obtain rfl : cluster.transportSocket = socket := hso
    exact dynamic_changeTlsContext si se cluster hh
  | onDemand cluster =>
    obtain ⟨hc,ht,hca⟩ := hf
    change cluster.httpConfig.tlsConfigurator = socket.tlsConfigurator at hc
    change Caches (withSecret socket si se) builtFrom _ (cluster.changeTlsContext si se).2
    unfold OriginalDstCluster.changeTlsContext withSecret
    rw [hc,updateConfigurator_tlsConfigurator]
    cases socket.updateSecret si se with
    | error e => exact ⟨hc,ht,hca⟩
    | ok r => exact ⟨rfl,ht,hca⟩

lemma inv_after (h : Inv s) (op : Op L C B) : Inv (s.after op) := by
  have hf := (inv_stamp h).follows
  obtain ⟨cluster,socket,inForce,builtFrom,og⟩ := s
  cases op with
  | getHttpConnection context =>
    exact inv_getConnection h (fun _ hcl => hcl.getHttpChannel context)
      fun cluster => (looksUp_getHttpConnection cluster context).extends
  | getTcpConnection context | getGrpcConnection context =>
    exact inv_getConnection h (fun _ hcl => hcl.nextItem none)
      fun cluster => (looksUp_byAuthority cluster context _).extends
  | changeTlsContext sc sr => exact inv_changeTlsContext sc sr h
  | updateHealth authority he =>
    refine ⟨h.current,?_⟩
    cases cluster with
    | static cluster => exact ⟨hf.1,hf.2.updateEndpointHealth authority he⟩
    | dynamic cluster =>
      refine ⟨hf.1,fun cla hcl => ?_⟩
      obtain ⟨old,hol,rfl⟩ := map_eq_some_iff.mp hcl
      exact (hf.2 old hol).updateEndpointHealth authority he
    | onDemand cluster => exact hf
  | changeLoadAssignment od cla =>
    cases cluster with
    | static cluster | onDemand cluster => exact ⟨h.current,hf⟩
    | dynamic cluster =>
      obtain ⟨hso,hh⟩ := hf
      unfold Observed.after
      dsimp only [Observed.stamp]
      split
      · rename_i cluster' hch
        obtain ⟨b,hb,hc⟩ := bind_eq_ok.mp hch
        cases hc
        refine ⟨h.current,hso,fun ot ho => ?_⟩
        cases ho
        rw [hso] at hb
        exact holds_build hb h.current
      · exact ⟨h.current,hso,hh⟩
  | removeLoadAssignment =>
    cases cluster with
    | static cluster | onDemand cluster => exact ⟨h.current,hf⟩
    | dynamic cluster => exact ⟨h.current,hf.1,fun cla hcl => (nomatch hcl)⟩
  | forget a =>
    cases cluster with
    | static cluster | dynamic cluster => exact ⟨h.current,hf⟩
    | onDemand cluster => exact ⟨h.current,Caches.forget hf a⟩

lemma inv_of_run {st : Observed L C B} {ops : List (Op L C B)} (hb : st.Built)
    (hr : Run (fun s op t => s.after op = t) st ops s) : Inv s := by
  refine hr.invariant Inv ?_ (inv_of_built hb)
  intro s op t hs hst
  exact hst ▸ inv_after hs op

end

section

def HttpChannels.all : HttpChannels L C → List (HttpChannel L C)
  | .single channel => [channel]
  | .multiWithFailover channel failoverChannels => channel::failoverChannels

def loadAssignment : ClusterType L C B → Option (ClusterLoadAssignment L C B)
  | .static cluster => some cluster.loadAssignment
  | .dynamic cluster => cluster.loadAssignment
  | .onDemand _ => none

namespace Observed

def tlsConfigs (s : Observed L C B) : List (Option (ClientConfig L)) :=
  s.inForce.map UpstreamTransportSocketConfigurator.tlsConfig

/-- The header of the request names endpoints of an override-host balancer. -/
def NamesEndpoints (s : Observed L C B) (context : RoutingContext C) : Prop :=
  ∃ cla, loadAssignment s.cluster = some cla ∧ named cla context ≠ []

/-- The load assignment was built from a configuration in force, or else the cached endpoint of
the destination was. -/
def TlsCurrent (s : Observed L C B) (context : RoutingContext C) : Prop :=
  match s.cluster with
  | .onDemand cluster => ∀ address, Addresses cluster context address →
      (cluster.endpoints address).isSome → (s.origins address).tlsConfig ∈ s.tlsConfigs
  | _ => s.builtFrom.tlsConfig ∈ s.tlsConfigs

end Observed

variable {context : RoutingContext C} {cla : ClusterLoadAssignment L C B} {s : Observed L C B}

lemma Caches.of_looksUp {cl : OriginalDstCluster L C}
    (h : Caches s.socket s.builtFrom s.origins cl) (hs : s.cluster = .onDemand cl)
    (hcu : s.socket ∈ s.inForce) {α : Type} {ch : Endpoint L C → Except String α} {c : α}
    {r : Except String α × OriginalDstCluster L C}
    (hl : LooksUp cl context ch r) (hok : r.1 = .ok c) :
    ∃ endpoint, ch endpoint = .ok c ∧ endpoint.tcpChannel.transportSocket = s.builtFrom ∧
      (endpoint.httpChannel.tlsConfig ∈ s.tlsConfigs ↔ s.TlsCurrent context) := by
  rcases hl with ⟨e,rfl⟩ | ⟨authority,hd,rfl⟩
  · cases hok
  obtain ⟨address,endpoint,har,hch,hc⟩ := getByAuthority_cases hok
  have ha : ∀ ot, Addresses cl context ot ↔ ot = address := by
    intro ot
    simp only [Addresses,hd,some.injEq,exists_eq_left',har,Except.ok.injEq]
    exact eq_comm
  have hi : s.TlsCurrent context ↔
      ((cl.endpoints address).isSome → (s.origins address).tlsConfig ∈ s.tlsConfigs) := by
    unfold Observed.TlsCurrent
    rw [hs]
    simp [ha]
  refine ⟨endpoint,hch,?_⟩
  rw [hi]
  rcases hc with hc | ⟨hn,hnw⟩
  · obtain ⟨hh,ht⟩ := h.cached address endpoint hc
    simp [hh,ht,hc]
  · obtain ⟨hh,ht⟩ := builtFrom_of_tryNew hnw
    refine ⟨ht.trans h.transportSocket,iff_of_true ?_ (by simp [hn])⟩
    rw [hh,h.configurator]
    exact mem_map_of_mem hcu

lemma tlsCurrent_iff (hc : loadAssignment s.cluster = some cla) :
    s.TlsCurrent context ↔ s.builtFrom.tlsConfig ∈ s.tlsConfigs := by
  unfold Observed.TlsCurrent
  cases hs : s.cluster with
  | static cluster | dynamic cluster => rfl
  | onDemand cluster =>
    rw [hs] at hc
    cases hc

variable [Balancer B (LbEndpoint L C)] [LawfulBalancer B (LbEndpoint L C)]
  {inForce : List (Socket L)} {origin : Socket L} {channels : HttpChannels L C}

lemma Holds.http_iff (h : Holds origin inForce cla)
    (hok : (cla.getHttpChannel context).1 = .ok channels) :
    (∀ channel ∈ HttpChannels.all channels, channel.tlsConfig ∈ inForce.map tlsConfig) ↔
      named cla context ≠ [] ∨ origin.tlsConfig ∈ inForce.map tlsConfig := by
  rcases getHttpChannel_cases cla context with ⟨pr,rest,hn,heq⟩ | ⟨hn,hash,heq,-⟩
  · rw [heq] at hok
    cases hok
    refine iff_of_true (fun channel hc => ?_) (.inl (by simp [hn]))
    have hm : channel ∈ (named cla context).map LbEndpoint.httpChannel := by
      rw [hn]
      exact hc
    obtain ⟨e,he,rfl⟩ := mem_map.mp hm
    obtain ⟨socket,hso,hb⟩ := mem_named h.mapped he
    rw [hb.http]
    exact mem_map_of_mem hso
  · rw [heq] at hok
    obtain ⟨e,hb,hc⟩ := h.balanced.of_nextChannel hok
    cases hc
    simp [HttpChannels.all,hb.http,hn]

variable {channel : TcpChannelConnector L C}

lemma Holds.tcp_eq (h : Holds origin inForce cla) (hok : cla.getTcpChannel.1 = .ok channel) :
    channel.transportSocket = origin := by
  obtain ⟨e,hb,hc⟩ := h.balanced.of_nextChannel hok
  cases hc
  exact hb.tcp

variable {service : GrpcService L C}

lemma Holds.grpc_eq (h : Holds origin inForce cla) (hok : cla.getGrpcChannel.1 = .ok service) :
    service.inner.tlsConfig = origin.tlsConfig := by
  obtain ⟨e,hb,hse⟩ := h.balanced.of_nextChannel hok
  rw [GrpcService.inner_of_tryNew hse]
  exact hb.http

lemma getConnection_cases (h : Inv s) {α : Type} {c : α}
    {assigned : ClusterLoadAssignment L C B → Except String α × ClusterLoadAssignment L C B}
    {onDemand : OriginalDstCluster L C → Except String α × OriginalDstCluster L C}
    (hc : (s.cluster.getConnection assigned onDemand).1 = .ok c) :
    (∃ cla, loadAssignment s.cluster = some cla ∧ Holds s.builtFrom s.inForce cla ∧
      (assigned cla).1 = .ok c) ∨ ∃ cluster, s.cluster = .onDemand cluster ∧
      Caches s.socket s.builtFrom s.origins cluster ∧ (onDemand cluster).1 = .ok c := by
  obtain ⟨cluster,socket,inForce,builtFrom,org⟩ := s
  have hf := h.follows
  cases cluster with
  | static cluster => exact .inl ⟨_,rfl,hf.2,hc⟩
  | dynamic cluster =>
    obtain ⟨n,loadBalancingPolicy,http2,loadAssignment,t⟩ := cluster
    cases loadAssignment with
    | none => cases hc
    | some cla => exact .inl ⟨cla,rfl,hf.2 cla rfl,hc⟩
  | onDemand cluster => exact .inr ⟨cluster,rfl,hf,hc⟩

lemma http_current_iff (h : Inv s) (hok : (s.cluster.getHttpConnection context).1 = .ok channels) :
    (∀ channel ∈ HttpChannels.all channels, channel.tlsConfig ∈ s.tlsConfigs) ↔
      s.NamesEndpoints context ∨ s.TlsCurrent context := by
  rcases getConnection_cases h hok with ⟨cla,hcl,hh,hok⟩ | ⟨cluster,hs,hca,hok⟩
  · have hn : s.NamesEndpoints context ↔ named cla context ≠ [] := by
      simp [Observed.NamesEndpoints,hcl]
    rw [hn,tlsCurrent_iff hcl]
    exact hh.http_iff hok
  · have hn : ¬ s.NamesEndpoints context := by
      simp [Observed.NamesEndpoints,hs,loadAssignment]
    obtain ⟨e,hc,-,hi⟩ :=
      hca.of_looksUp hs h.current (looksUp_getHttpConnection cluster context) hok
    cases hc
    simp [HttpChannels.all,hi,hn]

lemma tcp_current_iff (h : Inv s) (hok : (s.cluster.getTcpConnection context).1 = .ok channel) :
    channel.transportSocket ∈ s.inForce ↔ s.builtFrom ∈ s.inForce := by
  rcases getConnection_cases h hok with ⟨cla,-,hh,hok⟩ | ⟨cluster,hs,hca,hok⟩
  · rw [hh.tcp_eq hok]
  · obtain ⟨e,hc,ht,-⟩ := hca.of_looksUp hs h.current (looksUp_byAuthority cluster context _) hok
    cases hc
    rw [ht]

lemma grpc_current_iff (h : Inv s) (hok : (s.cluster.getGrpcConnection context).1 = .ok service) :
    service.inner.tlsConfig ∈ s.tlsConfigs ↔ s.TlsCurrent context := by
  rcases getConnection_cases h hok with ⟨cla,hcl,hh,hok⟩ | ⟨cluster,hs,hc,hok⟩
  · rw [hh.grpc_eq hok,tlsCurrent_iff hcl]
  · obtain ⟨e,hse,-,hi⟩ := hc.of_looksUp hs h.current (looksUp_byAuthority cluster context _) hok
    rw [GrpcService.inner_of_tryNew hse]
    exact hi

/-- In every state of every run, the connections that a cluster gives out follow the last change
that returned `Ok(true)` exactly in these cases: HTTP channels when the request names endpoints
of an override-host balancer, or when the load assignment or the cached endpoint they come from
has a TLS configuration in force; gRPC services in the latter case; TCP channels when the load
assignment, or the cluster that caches original destinations, was built from a socket in
force. -/
theorem connections_current_iff {start s : Observed L C B} {ops : List (Op L C B)}
    (hbuilt : start.Built) (hrun : Run (fun s op t => s.after op = t) start ops s)
    (context : RoutingContext C) :
    (∀ channels, (s.cluster.getHttpConnection context).1 = .ok channels →
      ((∀ channel ∈ HttpChannels.all channels, channel.tlsConfig ∈ s.tlsConfigs) ↔
        s.NamesEndpoints context ∨ s.TlsCurrent context)) ∧
    (∀ channel, (s.cluster.getTcpConnection context).1 = .ok channel →
      (channel.transportSocket ∈ s.inForce ↔ s.builtFrom ∈ s.inForce)) ∧
    ∀ service, (s.cluster.getGrpcConnection context).1 = .ok service →
      (service.inner.tlsConfig ∈ s.tlsConfigs ↔ s.TlsCurrent context) := by
  have hi := inv_of_run hbuilt hrun
  exact ⟨fun _ hok => http_current_iff hi hok,fun _ hok => tcp_current_iff hi hok,
    fun _ hok => grpc_current_iff hi hok⟩

end

open RoundRobin SecretUpdates

abbrev numberedChannels : ChannelLibrary where
  Authority := ℕ
  ServerName := ℕ
  decEq := inferInstance
  sameAuthority a b := a == b
  parseAuthority _ := none
  withPort authority _ := .ok authority
  serverName := .ok
  client _ _ _ := .ok ()

abbrev clientOf (file : ℕ) : ClientConfigurator numberedLibrary :=
  { contextBuilder :=
      { supportedVersions := anyVersion.supportedVersion
        validationContextSecretId := none
        certificateStore := [7]
        certificateSecretId := some "leaf"
        trustChainVerification := .verifyTrustChain
        clientCertificate := some (leafSecret file).toClientCert
        sni := "backend" }
    config :=
      { versions := anyVersion.supportedVersion
        verifier := .webPki [7]
        clientAuth := some { cert := [file], key := file } } }

abbrev RoundRobinBalancer :=
  WeightedRoundRobinBalancer (LbEndpoint numberedLibrary numberedChannels)

lemma one_lt_weight_bound : 1 < 2^32 := by decide

def backend : PartialLocalityLbEndpoints numberedChannels :=
  { endpoints :=
      [{ authority := (80 : ℕ), weight := 1, healthStatus := .healthy, weight_pos := Nat.one_pos
         weight_lt := one_lt_weight_bound }]
    priority := 0
    endpoints_ne_nil := List.cons_ne_nil _ _ }

/-- A static cluster goes on with the certificate it was built with. -/
theorem renewed_certificate_not_used :
    ∃ cluster cluster' : StaticCluster numberedLibrary numberedChannels RoundRobinBalancer,
      StaticCluster.build (.inserted _) .standard [backend] false (.tls (clientOf 1)) none =
        .ok cluster ∧
      (ClusterType.static cluster).changeTlsContext "leaf" (.certificate (leafSecret 2)) =
        (.ok true, .static cluster') ∧
      cluster'.transportSocket = .tls (clientOf 2) ∧
      (∃ channel, ((ClusterType.static cluster').getHttpConnection .none).1 =
          .ok (.single channel) ∧ channel.tlsConfig = some (clientOf 1).config) ∧
      (∃ channel, ((ClusterType.static cluster').getTcpConnection .none).1 = .ok channel ∧
        channel.transportSocket = .tls (clientOf 1)) ∧
      (clientOf 1).config ≠ (clientOf 2).config := by
  obtain ⟨cluster,hb⟩ :
      ∃ cluster : StaticCluster numberedLibrary numberedChannels RoundRobinBalancer,
        StaticCluster.build (.inserted _) .standard [backend] false (.tls (clientOf 1)) none =
          .ok cluster := ⟨_,rfl⟩
  have ha : (cluster.loadAssignment.balancer.nextItem none).1.isSome := by
    cases hb
    decide +kernel
  obtain ⟨e,he⟩ := isSome_iff_exists.mp ha
  have hbu : e.BuiltFrom (.tls (clientOf 1)) :=
    (inv_of_built (.static hb)).follows.2.balanced.of_nextItem he
  obtain ⟨cluster',hc,hs,hba⟩ : ∃ cluster', (ClusterType.static cluster).changeTlsContext "leaf"
        (.certificate (leafSecret 2)) = (.ok true, .static cluster') ∧
      cluster'.transportSocket = .tls (clientOf 2) ∧
      cluster'.loadAssignment.balancer = cluster.loadAssignment.balancer := by
    cases hb
    exact ⟨_,rfl,rfl,rfl⟩
  rw [← hba] at he
  refine ⟨cluster,cluster',hb,hc,hs,⟨e.httpChannel,?_,hbu.http⟩,⟨e.tcpChannel,?_,hbu.tcp⟩,by simp⟩
  · change (nextChannel singleChannel none _).1 = _
    rw [nextChannel_fst,he]
    rfl
  · change (nextChannel (fun e => .ok e.tcpChannel) none _).1 = _
    rw [nextChannel_fst,he]
    rfl

abbrev destinations : Observed numberedLibrary numberedChannels RoundRobinBalancer :=
  .start (.onDemand (.build "backends" none false (.tls (clientOf 1)) none)) (.tls (clientOf 1))

abbrev renewed : Observed numberedLibrary numberedChannels RoundRobinBalancer :=
  destinations.after (.changeTlsContext "leaf" (.certificate (leafSecret 2)))

/-- A destination without a cached endpoint gets the new certificate. -/
theorem renewed_certificate_for_new_destination :
    renewed.inForce = [.tls (clientOf 2)] ∧
      ∃ channels, (renewed.cluster.getHttpConnection (.authority (80 : ℕ))).1 = .ok channels ∧
        ∀ channel ∈ HttpChannels.all channels, channel.tlsConfig ∈ renewed.tlsConfigs := by
  have hb : destinations.Built := .onDemand "backends" none false (.tls (clientOf 1)) none
  have hr : Run (fun s op t => Observed.after s op = t) destinations
      [.changeTlsContext "leaf" (.certificate (leafSecret 2))] renewed := .cons rfl (.nil _)
  exact ⟨rfl,_,rfl,((connections_current_iff hb hr (.authority (80 : ℕ))).1 _ rfl).mpr (.inr nofun)⟩

end ArionGateway.TlsRotation
