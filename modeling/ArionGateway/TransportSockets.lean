import ArionGateway.ByteStrings
import ArionGateway.HealthRotation
import ArionGateway.TlsConfigurators

/-!
# Transport sockets and channels of a cluster

The channels to an endpoint are built from the transport socket of the cluster: an HTTP channel
takes the rustls configuration of the socket's configurator, a TCP channel keeps the whole socket.
A secret replaces the configurator of a socket; what was built from the socket before keeps what
it was built with. The functions of the http and webpki libraries are the fields of
`ChannelLibrary`.
-/
namespace ArionGateway.TransportSockets
open ByteStrings FallibleSteps HealthRotation TlsSecrets TlsContextBuilder TlsConfigurators

variable (L : TlsLibrary)

structure ProxyProtocolConfigurator where
  innerTlsConfigurator : Option (ClientConfigurator L)

inductive UpstreamTransportSocketConfigurator
  | tls (tlsConf : ClientConfigurator L)
  | proxyProtocol (proxyConf : ProxyProtocolConfigurator L)
  | none

variable {L}

/-- The configurator and whether a secret has changed it; an error leaves it as it was. -/
def updateConfigurator (configurator : Option (ClientConfigurator L)) (secretId : String)
    (secret : TransportSecret L) : Except String (Bool × Option (ClientConfigurator L)) :=
  match configurator with
  | some tlsConf =>
    if tlsConf.usesSecret secretId then do
      let updatedTls ← tlsConf.update secretId secret
      return (true, some updatedTls)
    else .ok (false, configurator)
  | none => .ok (false, configurator)

def ProxyProtocolConfigurator.updateSecret (self : ProxyProtocolConfigurator L)
    (secretId : String) (secret : TransportSecret L) :
    Except String (Bool × ProxyProtocolConfigurator L) := do
  let (updated, innerTlsConfigurator) ←
    updateConfigurator self.innerTlsConfigurator secretId secret
  return (updated, { innerTlsConfigurator })

namespace UpstreamTransportSocketConfigurator

def tlsConfigurator : UpstreamTransportSocketConfigurator L → Option (ClientConfigurator L)
  | .tls tlsConf => some tlsConf
  | .proxyProtocol proxyConf => proxyConf.innerTlsConfigurator
  | .none => .none

def updateSecret (self : UpstreamTransportSocketConfigurator L) (secretId : String)
    (secret : TransportSecret L) :
    Except String (Bool × UpstreamTransportSocketConfigurator L) :=
  match self with
  | .tls tlsConf =>
    if tlsConf.usesSecret secretId then do
      let updatedTls ← tlsConf.update secretId secret
      return (true, .tls updatedTls)
    else .ok (false, self)
  | .proxyProtocol proxyConf => do
      let (updated, proxyConf) ← proxyConf.updateSecret secretId secret
      return (updated, .proxyProtocol proxyConf)
  | .none => .ok (false, self)

/-- The rustls configuration that HTTP channels take. -/
def tlsConfig (socket : UpstreamTransportSocketConfigurator L) : Option (ClientConfig L) :=
  socket.tlsConfigurator.map TlsConfigurator.config

end UpstreamTransportSocketConfigurator

structure ChannelLibrary where
  Authority : Type
  ServerName : Type
  /-- The texts of two authorities are the same. -/
  decEq : DecidableEq Authority
  /-- `==` of authorities, for which case does not count. -/
  sameAuthority : Authority → Authority → Bool
  /-- `Authority::from_str`. -/
  parseAuthority : Str → Option Authority
  /-- The host of an authority with another port. -/
  withPort : Authority → ℕ → Except String Authority
  /-- `ServerName::try_from` on the host. -/
  serverName : Authority → Except String ServerName
  /-- The constructors of the clients, by whether they use TLS and HTTP/2. -/
  client : Authority → Bool → Bool → Except String Unit

instance (C : ChannelLibrary) : DecidableEq C.Authority := C.decEq

variable (L) (C : ChannelLibrary)

structure HttpChannel where
  upstreamAuthority : C.Authority
  /-- The configuration of the connector and the name it expects, with TLS. -/
  tls : Option (ClientConfig L × C.ServerName)
  http2 : Bool

structure TcpChannelConnector where
  authority : C.Authority
  transportSocket : UpstreamTransportSocketConfigurator L

structure GrpcService where
  inner : HttpChannel L C
  authority : C.Authority

/-- An endpoint of a load assignment; endpoints are compared by their authority alone. -/
structure LbEndpoint where
  config : HealthRotation.LbEndpoint C.Authority
  httpChannel : HttpChannel L C
  tcpChannel : TcpChannelConnector L C

variable {L C}

instance : BEq (LbEndpoint L C) where
  beq e f := C.sameAuthority e.config.authority f.config.authority

instance : WeightedEndpoint (LbEndpoint L C) where
  weight e := e.config.weight
  weight_lt e := e.config.weight_lt

instance : EndpointHealth (LbEndpoint L C) where
  health e := e.config.healthStatus

def HttpChannel.build (authority : C.Authority) (tls : Option (ClientConfigurator L))
    (serverName : Option C.ServerName) (http2 : Bool) : Except String (HttpChannel L C) := do
  match tls with
  | some tlsContext =>
    let serverName ← serverName.elim (C.serverName authority) .ok
    C.client authority true http2
    return { upstreamAuthority := authority, tls := some (tlsContext.config, serverName), http2 }
  | none =>
    C.client authority false http2
    return { upstreamAuthority := authority, tls := none, http2 }

def GrpcService.tryNew (inner : HttpChannel L C) (authority : C.Authority) :
    Except String (GrpcService L C) :=
  if inner.http2 then .ok { inner, authority }
  else .error "gRPC endpoints need explicit HTTP 2"

def LbEndpoint.build (config : HealthRotation.LbEndpoint C.Authority) (http2 : Bool)
    (transportSocket : UpstreamTransportSocketConfigurator L)
    (serverName : Option C.ServerName) : Except String (LbEndpoint L C) := do
  let httpChannel ← HttpChannel.build config.authority transportSocket.tlsConfigurator serverName
    http2
  return { config, httpChannel, tcpChannel := { authority := config.authority, transportSocket } }

def LbEndpoint.grpcService (self : LbEndpoint L C) : Except String (GrpcService L C) :=
  GrpcService.tryNew self.httpChannel self.config.authority

/-- The configuration that the connections of an HTTP channel use. -/
def HttpChannel.tlsConfig (channel : HttpChannel L C) : Option (ClientConfig L) :=
  channel.tls.map Prod.fst

lemma HttpChannel.tlsConfig_of_build {a : C.Authority}
    {tls : Option (ClientConfigurator L)} {s : Option C.ServerName} {ht : Bool}
    {c : HttpChannel L C} (h : HttpChannel.build a tls s ht = .ok c) :
    c.tlsConfig = tls.map TlsConfigurator.config := by
  cases tls with
  | none =>
    obtain ⟨_,-,hc⟩ := bind_eq_ok.mp h
    cases hc
    rfl
  | some tlsContext =>
    obtain ⟨_,-,hr⟩ := bind_eq_ok.mp h
    obtain ⟨_,-,hc⟩ := bind_eq_ok.mp hr
    cases hc
    rfl

/-- Both channels of an endpoint come from a socket. -/
structure LbEndpoint.BuiltFrom (socket : UpstreamTransportSocketConfigurator L)
    (e : LbEndpoint L C) : Prop where
  http : e.httpChannel.tlsConfig = socket.tlsConfig
  tcp : e.tcpChannel.transportSocket = socket

lemma GrpcService.inner_of_tryNew {inner : HttpChannel L C} {a : C.Authority}
    {s : GrpcService L C} (h : GrpcService.tryNew inner a = .ok s) : s.inner = inner := by
  unfold tryNew at h
  split at h
  · cases h
    rfl
  · cases h

end ArionGateway.TransportSockets
