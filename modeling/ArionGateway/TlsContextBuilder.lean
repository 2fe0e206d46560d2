import ArionGateway.TlsSecrets
import Mathlib.Data.List.Destutter
import Mathlib.Data.List.DropRight

/-!
# The TLS context builder

The builder of a client or server configuration passes through one state for each part it still
wants; the last states are kept for rebuilding after a secret has changed. Building makes the
rustls configuration from the last state: the verifier of the other side, and for a server the
only certificate or a table from server names to certificates. `Ticketer::new` can fail, so its
outcome is an argument. A configuration of rustls is the record of what it was built from.
-/
namespace ArionGateway.TlsContextBuilder
open FallibleSteps TlsSecrets

variable (L : TlsLibrary)

inductive TlsVersion
  | tlsV12
  | tlsV13
deriving DecidableEq

structure WantsCertStore where
  supportedVersions : List TlsVersion

structure WantsServerCert where
  supportedVersions : List TlsVersion
  validationContextSecretId : Option String
  certificateStore : Option L.RootCertStore

structure WantsClientCert where
  supportedVersions : List TlsVersion
  validationContextSecretId : Option String
  certificateStore : L.RootCertStore

/-- A server certificate under the name of its secret. -/
structure SecretHolder where
  name : String
  serverCert : ServerCert L

/-- Holders are compared by their names. -/
instance : BEq (SecretHolder L) := ⟨fun a b => a.name == b.name⟩

structure WantsToVerifyClientCert where
  supportedVersions : List TlsVersion
  validationContextSecretId : Option String
  certificateStore : Option L.RootCertStore
  serverIdsAndCertificates : List (SecretHolder L)

structure WantsToBuildServer where
  supportedVersions : List TlsVersion
  validationContextSecretId : Option String
  certificateStore : Option L.RootCertStore
  serverIdsAndCertificates : List (SecretHolder L)
  requireClientCert : Bool
  ticketer : L.Ticketer

structure WantsSni where
  supportedVersions : List TlsVersion
  validationContextSecretId : Option String
  certificateStore : L.RootCertStore
  certificateSecretId : Option String
  clientCertificate : Option (ClientCert L)

structure WantsToBuildClient where
  supportedVersions : List TlsVersion
  validationContextSecretId : Option String
  certificateStore : L.RootCertStore
  certificateSecretId : Option String
  trustChainVerification : TrustChainVerification
  clientCertificate : Option (ClientCert L)
  sni : String

structure CertifiedKey where
  cert : List L.CertificateDer
  key : L.SigningKey

structure RelaxedResolvesServerCertUsingSni where
  byName : Std.HashMap String (CertifiedKey L)
  byWildcard : Std.HashMap String (CertifiedKey L)
  defaultCert : Option (CertifiedKey L)

/-- How a server configuration finds the certificate of a connection. -/
inductive CertResolver
  | single (certifiedKey : CertifiedKey L)
  | sni (resolver : RelaxedResolvesServerCertUsingSni L)

structure ServerConfig where
  versions : List TlsVersion
  verifier : Option L.ClientCertVerifier
  certResolver : CertResolver L
  ticketer : L.Ticketer

inductive ServerCertVerifier
  | webPki (verifier : L.WebPkiServerVerifier)
  | noCertificateVerification

structure ClientConfig where
  versions : List TlsVersion
  verifier : ServerCertVerifier L
  clientAuth : Option (CertifiedKey L)

variable {L}

def withSupportedVersions (supportedVersions : List TlsVersion) : WantsCertStore :=
  { supportedVersions }

namespace WantsCertStore

variable (state : WantsCertStore) (secretId : Option String) (certificateStore : L.RootCertStore)

def withServerCertificateStore : WantsServerCert L :=
  { supportedVersions := state.supportedVersions
    validationContextSecretId := secretId
    certificateStore := some certificateStore }

def withNoClientAuth : WantsServerCert L :=
  { supportedVersions := state.supportedVersions
    validationContextSecretId := none
    certificateStore := none }

def withClientCertificateStore : WantsClientCert L :=
  { supportedVersions := state.supportedVersions
    validationContextSecretId := secretId
    certificateStore }

end WantsCertStore

def WantsServerCert.withCertificates (state : WantsServerCert L)
    (serverIdsAndCertificates : List (SecretHolder L)) : WantsToVerifyClientCert L :=
  { supportedVersions := state.supportedVersions
    validationContextSecretId := state.validationContextSecretId
    certificateStore := state.certificateStore
    serverIdsAndCertificates }

/-- The ticketer is the outcome of Ticketer::new. -/
def WantsToVerifyClientCert.withClientAuthentication (state : WantsToVerifyClientCert L)
    (requireClientCert : Bool) (ticketer : Except String L.Ticketer) :
    Except String (WantsToBuildServer L) := do
  let ticketer ← ticketer
  return {
    supportedVersions := state.supportedVersions
    validationContextSecretId := state.validationContextSecretId
    certificateStore := state.certificateStore
    serverIdsAndCertificates := state.serverIdsAndCertificates
    requireClientCert
    ticketer }

namespace WantsClientCert

def withClientCertificate (state : WantsClientCert L) (secretId : Option String)
    (clientCertificate : ClientCert L) : WantsSni L :=
  { supportedVersions := state.supportedVersions
    certificateStore := state.certificateStore
    validationContextSecretId := state.validationContextSecretId
    clientCertificate := some clientCertificate
    certificateSecretId := secretId }

/-- The name of the certificate's secret is dropped with the certificate. -/
def withNoClientAuth (state : WantsClientCert L) : WantsSni L :=
  { supportedVersions := state.supportedVersions
    certificateStore := state.certificateStore
    validationContextSecretId := state.validationContextSecretId
    clientCertificate := none
    certificateSecretId := none }

end WantsClientCert

def WantsSni.withSni (state : WantsSni L) (sni : String) : WantsToBuildClient L :=
  { supportedVersions := state.supportedVersions
    certificateStore := state.certificateStore
    validationContextSecretId := state.validationContextSecretId
    clientCertificate := state.clientCertificate
    certificateSecretId := state.certificateSecretId
    trustChainVerification := default
    sni }

def WantsToBuildClient.withTrustChainVerification (state : WantsToBuildClient L)
    (trustChainVerification : TrustChainVerification) : WantsToBuildClient L :=
  { state with trustChainVerification }

variable (state : WantsToBuildServer L)

def WantsToBuildServer.withTicketer (ticketer : L.Ticketer) : WantsToBuildServer L :=
  { state with ticketer }

namespace RelaxedResolvesServerCertUsingSni

def new : RelaxedResolvesServerCertUsingSni L :=
  { byName := ∅, byWildcard := ∅, defaultCert := none }

def isWildcard (name : String) : Bool := ['*', '.'].isPrefixOf name.toList

variable (self : RelaxedResolvesServerCertUsingSni L)

/-- Registers a certificate for a name that it covers; a wildcard is tried with
a label in the place of the star. -/
def add (name : String) (ck : CertifiedKey L) :
    Except String (RelaxedResolvesServerCertUsingSni L) := do
  let name := name.map Char.toLower
  let baseDomain := if isWildcard name then String.ofList (name.toList.drop 2) else name
  let testName := if isWildcard name then s!"dummy.{baseDomain}" else name
  if L.isServerName testName then
    L.verifyServerName ck.cert testName
    let self := { self with defaultCert := self.defaultCert.or (some ck) }
    return if isWildcard name then { self with byWildcard := self.byWildcard.insert baseDomain ck }
      else { self with byName := self.byName.insert name ck }
  else
    .error "Bad Server/DNS name"

def addDefault (ck : CertifiedKey L) : RelaxedResolvesServerCertUsingSni L :=
  { self with defaultCert := self.defaultCert.or (some ck) }

end RelaxedResolvesServerCertUsingSni

open RelaxedResolvesServerCertUsingSni

def extractDnsSans (certs : List L.CertificateDer) : List String :=
  match certs.head?.map L.subjectAltDnsNames with
  | some (.ok names) => names
  | _ => []

/-- Names without the bare star and the wildcards over a single label. -/
def isRegistered (name : String) : Bool :=
  name ≠ "*" && (!isWildcard name ||
    1 < (name.toList.rdropWhile (· = '.')).count '.')

/-- The names of a certificate in order, each of them once. -/
def namesToRegister (serverCert : ServerCert L) : List String :=
  let names := serverCert.name.toList++extractDnsSans serverCert.certs
  ((names.mergeSort fun a b => decide (a ≤ b)).destutter (· ≠ ·)).filter isRegistered

/-- Registers one certificate and counts it if one of its names fails. A
certificate without a name becomes the default, one whose key does not load is
left out. -/
def register (loadPrivateKey : L.PrivateKeyDer → Except String L.SigningKey)
    (acc : RelaxedResolvesServerCertUsingSni L × ℕ) (holder : SecretHolder L) :
    RelaxedResolvesServerCertUsingSni L × ℕ :=
  match loadPrivateKey holder.serverCert.key with
  | .error _ => acc
  | .ok key =>
    let ck : CertifiedKey L := { cert := holder.serverCert.certs, key }
    match namesToRegister holder.serverCert with
    | [] => (acc.1.addDefault ck, acc.2)
    | names =>
      let (resolver, hasErrors) := names.foldl
        (fun (resolver, hasErrors) name =>
          match add resolver name ck with
          | .ok resolver => (resolver, hasErrors)
          | .error _ => (resolver, true))
        (acc.1, false)
      (resolver, if hasErrors then acc.2+1 else acc.2)

namespace WantsToBuildServer

def verifier : Except String (Option L.ClientCertVerifier) :=
  match state.requireClientCert, state.certificateStore with
  | true, none =>
    .error "requireClientCertificate is true but no validation_context is configured"
  | true, some certificateStore => some <$> L.clientCertVerifier certificateStore false
  | false, some certificateStore => some <$> L.clientCertVerifier certificateStore true
  | false, none => .ok none

/-- A single certificate serves every name. -/
def certResolver : Except String (CertResolver L) :=
  match L.loadPrivateKey with
  | none => .error "Unable to get rustls crypto provider"
  | some loadPrivateKey =>
    match state.serverIdsAndCertificates with
    | [holder] => do
        let key ← L.withSingleCert holder.serverCert.certs holder.serverCert.key
        return .single { cert := holder.serverCert.certs, key }
    | holders =>
      let (resolver, errors) := holders.foldl (register loadPrivateKey)
        (RelaxedResolvesServerCertUsingSni.new, 0)
      if 0 < errors then .error s!"Found {errors} errors in Tls context"
      else .ok (.sni resolver)

def build : Except String (ServerConfig L) := do
  let verifier ← state.verifier
  let certResolver ← state.certResolver
  return {
    versions := state.supportedVersions
    verifier
    certResolver
    ticketer := state.ticketer }

lemma build_eq_ok_iff {state : WantsToBuildServer L} {config : ServerConfig L} :
    state.build = .ok config ↔ ∃ verifier certResolver,
      state.verifier = .ok verifier ∧ state.certResolver = .ok certResolver ∧
      config = { versions := state.supportedVersions, verifier, certResolver,
                 ticketer := state.ticketer } := by
  constructor
  · intro h
    obtain ⟨verifier,hv,h⟩ := bind_eq_ok.mp h
    obtain ⟨certResolver,hr,h⟩ := bind_eq_ok.mp h
    cases h
    exact ⟨verifier,certResolver,hv,hr,rfl⟩
  · rintro ⟨verifier,certResolver,hv,hr,rfl⟩
    exact bind_eq_ok.mpr ⟨verifier,hv,bind_eq_ok.mpr ⟨certResolver,hr,rfl⟩⟩

end WantsToBuildServer

namespace WantsToBuildClient

def verifier (state : WantsToBuildClient L) : Except String (ServerCertVerifier L) :=
  match state.trustChainVerification with
  | .verifyTrustChain => .webPki <$> L.serverCertVerifier state.certificateStore
  | .acceptUntrusted => .ok .noCertificateVerification

def build (state : WantsToBuildClient L) : Except String (ClientConfig L) := do
  let verifier ← state.verifier
  match state.clientCertificate with
  | some clientCertificate =>
    let key ← L.withClientAuthCert clientCertificate.certs clientCertificate.key
    return {
      versions := state.supportedVersions
      verifier
      clientAuth := some { cert := clientCertificate.certs, key } }
  | none => return { versions := state.supportedVersions, verifier, clientAuth := none }

end WantsToBuildClient

end ArionGateway.TlsContextBuilder
