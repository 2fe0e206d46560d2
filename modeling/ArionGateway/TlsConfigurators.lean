import ArionGateway.FirstMatch
import ArionGateway.TlsContextBuilder

/-!
# TLS configurators

A configurator holds the last builder state of a client or server context with
the rustls configuration built from it. It is made from the configuration of a
cluster or a filter chain and the secrets known at that time, and rebuilt from
its builder state when a secret arrives.

After each constructor and update follows what it does in terms of the builder
state. The name in an error message is quoted without escapes.
-/
namespace ArionGateway.TlsConfigurators
open FallibleSteps FirstMatch TlsSecrets TlsContextBuilder

variable (L : TlsLibrary)

structure TlsParameters where
  minimumProtocolVersion : TlsVersion
  maximumProtocolVersion : Option TlsVersion

/-- The minimum is assumed not to be above the maximum. -/
def TlsParameters.supportedVersion (self : TlsParameters) : List TlsVersion :=
  match self.minimumProtocolVersion, self.maximumProtocolVersion with
  | .tlsV13, _ => [.tlsV13]
  | .tlsV12, none => [.tlsV12,.tlsV13]
  | .tlsV12, some .tlsV13 => [.tlsV12,.tlsV13]
  | .tlsV12, some .tlsV12 => [.tlsV12]

inductive CommonTlsValidationContext
  | sdsConfig (name : String)
  | validationContext (context : ValidationContext L)

inductive TlsSecret
  | sdsConfig (name : String)
  | certificate (config : TlsCertificate L)

inductive Secrets
  | sdsConfig (names : List String)
  | certificates (certs : List (TlsCertificate L))

structure TlsClientConfig where
  sni : String
  parameters : TlsParameters
  secret : Option (TlsSecret L)
  validationContext : Option (CommonTlsValidationContext L)

structure CommonTlsContext where
  parameters : TlsParameters
  secrets : Secrets L
  validationContext : Option (CommonTlsValidationContext L)

structure TlsServerConfig where
  requireClientCertificate : Bool
  commonTlsContext : CommonTlsContext L

structure TlsConfigurator (Config Ctx : Type) where
  contextBuilder : Ctx
  config : Config

variable {L}

def debugName : Option String → String
  | none => "None"
  | some name => s!"Some(\"{name}\")"

variable (secretManager : SecretManager L)

/-- The secret's name and the store; a store that has not arrived is empty. -/
def createCertificateStore :
    Option (CommonTlsValidationContext L) → Except String (Option String × Option L.RootCertStore)
  | some (.validationContext validationContext) => do
      return (none, some (← CertStore.tryFrom validationContext).store)
  | some (.sdsConfig sdsConfigName) => do
      match ← secretManager.getValidationContext sdsConfigName with
      | some certStore => return (some sdsConfigName, some (← certStore.toRootCertStore))
      | none => return (some sdsConfigName, some L.emptyRootCertStore)
  | none => .ok (none, none)

variable (L) in
abbrev ClientConfigurator := TlsConfigurator (ClientConfig L) (WantsToBuildClient L)

namespace ClientConfigurator

/-- The secret's name and the certificate, if it has arrived. -/
def clientCertificate : Option (TlsSecret L) → Except String (Option String × Option (ClientCert L))
  | some (.certificate cert) => do
      return (none, some (← CertificateSecret.tryFrom cert).toClientCert)
  | some (.sdsConfig sdsConfigName) => do
      match ← secretManager.getCertificate sdsConfigName with
      | some cert => return (some sdsConfigName, some (← cert.toClientCert))
      | none => return (some sdsConfigName, none)
  | none => .ok (none, none)

def trustChainVerification : Option (CommonTlsValidationContext L) → TrustChainVerification
  | some (.validationContext validationContext) => validationContext.trustChainVerification
  | _ => default

def tryFrom (context : TlsClientConfig L) (secretManager : SecretManager L) :
    Except String (ClientConfigurator L) := do
  let (certificateStoreSecretId, certificateStore) ←
    createCertificateStore secretManager context.validationContext
  let (secretId, clientCertificate) ← clientCertificate secretManager context.secret
  match certificateStore with
  | none => .error "UpstreamContext : no TLS validation options found"
  | some certificateStore =>
    let ctxBuilder : WantsClientCert L :=
      (withSupportedVersions context.parameters.supportedVersion).withClientCertificateStore
        certificateStoreSecretId certificateStore
    let ctxBuilder := match clientCertificate with
      | some clientCertificate => ctxBuilder.withClientCertificate secretId clientCertificate
      | none => ctxBuilder.withNoClientAuth
    let ctxBuilder := (ctxBuilder.withSni context.sni).withTrustChainVerification
      (trustChainVerification context.validationContext)
    let config ← ctxBuilder.build
    return { contextBuilder := ctxBuilder, config }

def usesSecret (self : ClientConfigurator L) (secretId : String) : Bool :=
  [self.contextBuilder.certificateSecretId,
    self.contextBuilder.validationContextSecretId].any (· == some secretId)

def update (self : ClientConfigurator L) (secretId : String) (secret : TransportSecret L) :
    Except String (ClientConfigurator L) := do
  let state := self.contextBuilder
  let builder := withSupportedVersions state.supportedVersions
  let newBuilder ← match secret with
    | .certificate certificate =>
      if some secretId = state.certificateSecretId then
        .ok ((((builder.withClientCertificateStore state.validationContextSecretId
          state.certificateStore).withClientCertificate state.certificateSecretId
          certificate.toClientCert).withSni state.sni).withTrustChainVerification
          state.trustChainVerification)
      else
        let held := debugName state.certificateSecretId
        .error s!"Secret name doesn't match {secretId}  {held}"
    | .validationContext certStore =>
      if some secretId = state.validationContextSecretId then
        let builder := builder.withClientCertificateStore state.validationContextSecretId
          certStore.store
        let builder := match state.clientCertificate with
          | some clientCertificate =>
            builder.withClientCertificate state.certificateSecretId clientCertificate
          | none => builder.withNoClientAuth
        .ok ((builder.withSni state.sni).withTrustChainVerification
          state.trustChainVerification)
      else
        let held := debugName state.validationContextSecretId
        .error s!"Secret name doesn't match {secretId} {held}"
  let newConfig ← newBuilder.build
  return { contextBuilder := newBuilder, config := newConfig }

def configured (state : WantsToBuildClient L) : Except String (ClientConfigurator L) := do
  return { contextBuilder := state, config := ← state.build }

/-- The builder state of a context. The name of a certificate is kept only with
the certificate. -/
def initialState (context : TlsClientConfig L) (storeId : Option String)
    (store : L.RootCertStore) (certificateId : Option String)
    (certificate : Option (ClientCert L)) : WantsToBuildClient L :=
  { supportedVersions := context.parameters.supportedVersion
    validationContextSecretId := storeId
    certificateStore := store
    certificateSecretId := certificate.bind fun _ => certificateId
    trustChainVerification := trustChainVerification context.validationContext
    clientCertificate := certificate
    sni := context.sni }

variable {c : ClientConfigurator L}

lemma contextBuilder_of_configured {state : WantsToBuildClient L} (h : configured state = .ok c) :
    c.contextBuilder = state := by
  obtain ⟨cf,-,hc⟩ := bind_eq_ok.mp h
  cases hc
  rfl

variable {co : TlsClientConfig L} {S : SecretManager L}

lemma tryFrom_of_lookups {s ci : Option String} {st : L.RootCertStore} {ce : Option (ClientCert L)}
    (hst : createCertificateStore S co.validationContext = .ok (s, some st))
    (hc : clientCertificate S co.secret = .ok (ci, ce)) :
    tryFrom co S = configured (initialState co s st ci ce) := by
  rw [tryFrom,hst,hc]
  cases ce with
  | none | some ce => rfl

lemma exists_state_of_tryFrom (h : tryFrom co S = .ok c) : ∃ si store certificateId certificate,
      createCertificateStore S co.validationContext = .ok (si, some store) ∧
      clientCertificate S co.secret = .ok (certificateId, certificate) ∧
      c.contextBuilder = initialState co si store certificateId certificate := by
  obtain ⟨⟨si,store⟩,hst,hr⟩ := bind_eq_ok.mp h
  obtain ⟨⟨certificateId,certificate⟩,hc,hr⟩ := bind_eq_ok.mp hr
  cases store with
  | none => cases hr
  | some store =>
    rw [tryFrom_of_lookups hst hc] at h
    exact ⟨si,store,certificateId,certificate,hst,hc,contextBuilder_of_configured h⟩

variable {s : ClientConfigurator L} {id : String}

lemma update_certificate_of_eq (hid : s.contextBuilder.certificateSecretId = some id)
    (ce : CertificateSecret L) : s.update id (.certificate ce) = configured { s.contextBuilder with
      clientCertificate := some ce.toClientCert } := by
  simp only [update,if_pos hid.symm]
  rfl

lemma certificateSecretId_of_update {ce : CertificateSecret L}
    (h : s.update id (.certificate ce) = .ok c) :
    s.contextBuilder.certificateSecretId = some id := by
  by_contra hid
  simp only [update,if_neg (Ne.symm hid)] at h
  cases h

lemma update_validationContext_of_eq
    (hid : s.contextBuilder.validationContextSecretId = some id) (cs : CertStore L) :
    s.update id (.validationContext cs) = configured { s.contextBuilder with
      certificateStore := cs.store
      certificateSecretId := s.contextBuilder.clientCertificate.bind fun _ =>
        s.contextBuilder.certificateSecretId } := by
  simp only [update,if_pos hid.symm]
  cases s.contextBuilder.clientCertificate with
  | none | some cr => rfl

lemma validationContextSecretId_of_update {cs : CertStore L}
    (h : s.update id (.validationContext cs) = .ok c) :
    s.contextBuilder.validationContextSecretId = some id := by
  by_contra hid
  simp only [update,if_neg (Ne.symm hid)] at h
  cases h

end ClientConfigurator

variable (L) in
abbrev ServerConfigurator := TlsConfigurator (ServerConfig L) (WantsToBuildServer L)

namespace ServerConfigurator

/-- Certificates of the configuration, held under the empty name. -/
def inlineCertificates (certs : List (TlsCertificate L)) : Except String (List (SecretHolder L)) :=
  certs.mapM fun certificate => do
    return { name := "", serverCert := (← CertificateSecret.tryFrom certificate).toServerCert }

/-- Certificates that have arrived, behind those already collected; the names
of missing ones are passed over. -/
def sdsCertificates (secretManager : SecretManager L) :
    List String → List (SecretHolder L) → Except String (List (SecretHolder L))
  | [], holders => .ok holders
  | sdsConfigName::names, holders => do
      match ← secretManager.getCertificate sdsConfigName with
      | some certificate =>
        let secret : SecretHolder L :=
          { name := sdsConfigName, serverCert := ← certificate.toServerCert }
        if holders.contains secret then
          .error s!"DownstreamTlsContext : Duplicate secret name {sdsConfigName}"
        else
          sdsCertificates secretManager names (holders++[secret])
      | none => sdsCertificates secretManager names holders

def certsAndSecretIds : Secrets L → Except String (List (SecretHolder L))
  | .certificates certs => inlineCertificates certs
  | .sdsConfig sds => sdsCertificates secretManager sds []

/-- The builder with the store of client certificates, if there is one. -/
def withStore (builder : WantsCertStore) (secretId : Option String) :
    Option L.RootCertStore → WantsServerCert L
  | some certificateStore => builder.withServerCertificateStore secretId certificateStore
  | none => builder.withNoClientAuth

def tryFrom (config : TlsServerConfig L) (secretManager : SecretManager L)
    (ticketer : Except String L.Ticketer) : Except String (ServerConfigurator L) := do
  let commonContext := config.commonTlsContext
  let (certificateStoreSecretId, certificateStore) ←
    createCertificateStore secretManager commonContext.validationContext
  let certsAndSecretIds ← certsAndSecretIds secretManager commonContext.secrets
  let ctxBuilder := withStore (withSupportedVersions commonContext.parameters.supportedVersion)
    certificateStoreSecretId certificateStore
  let ctxBuilder ← (ctxBuilder.withCertificates certsAndSecretIds).withClientAuthentication
    config.requireClientCertificate ticketer
  let config ← ctxBuilder.build
  return { contextBuilder := ctxBuilder, config }

/-- Puts a certificate into the first holder of a name. -/
def setServerCert (secretId : String) (serverCert : ServerCert L)
    (holders : List (SecretHolder L)) : Option (List (SecretHolder L) × Unit) :=
  visitFirst (fun holder =>
    if holder.name = secretId then some ({ holder with serverCert }, ()) else none) holders

def update (self : ServerConfigurator L) (secretId : String) (secret : TransportSecret L)
    (ticketer : Except String L.Ticketer) : Except String (ServerConfigurator L) := do
  let state := self.contextBuilder
  let builder := withSupportedVersions state.supportedVersions
  let newBuilder ← match secret with
    | .certificate certificate =>
      match setServerCert secretId certificate.toServerCert state.serverIdsAndCertificates with
      | some (serverIdsAndCertificates, ()) =>
        ((withStore builder state.validationContextSecretId
          state.certificateStore).withCertificates
          serverIdsAndCertificates).withClientAuthentication state.requireClientCert ticketer
      | none => .error s!"Can't find secret {secretId}"
    | .validationContext certStore =>
      if some secretId = state.validationContextSecretId then
        ((builder.withServerCertificateStore state.validationContextSecretId
          certStore.store).withCertificates
          state.serverIdsAndCertificates).withClientAuthentication state.requireClientCert
          ticketer
      else
        let held := debugName state.validationContextSecretId
        .error s!"Can't find secret {secretId} {held}"
  let newBuilder := newBuilder.withTicketer state.ticketer
  let newConfig ← newBuilder.build
  return { contextBuilder := newBuilder, config := newConfig }

def configured (state : WantsToBuildServer L) : Except String (ServerConfigurator L) := do
  return { contextBuilder := state, config := ← state.build }

def initialState (config : TlsServerConfig L) (storeId : Option String)
    (store : Option L.RootCertStore) (holders : List (SecretHolder L))
    (ticketer : L.Ticketer) : WantsToBuildServer L :=
  { supportedVersions := config.commonTlsContext.parameters.supportedVersion
    validationContextSecretId := store.bind fun _ => storeId
    certificateStore := store
    serverIdsAndCertificates := holders
    requireClientCert := config.requireClientCertificate
    ticketer }

variable {c : ServerConfigurator L}

lemma contextBuilder_of_configured {state : WantsToBuildServer L} (h : configured state = .ok c) :
    c.contextBuilder = state := by
  obtain ⟨cf,-,hc⟩ := bind_eq_ok.mp h
  cases hc
  rfl

variable {holders : List (SecretHolder L)} {cn : TlsServerConfig L} {S : SecretManager L}

lemma tryFrom_of_lookups {s : Option String} {st : Option L.RootCertStore}
    (hst : createCertificateStore S cn.commonTlsContext.validationContext = .ok (s, st))
    (hh : certsAndSecretIds S cn.commonTlsContext.secrets = .ok holders) (t : L.Ticketer) :
    tryFrom cn S (.ok t) = configured (initialState cn s st holders t) := by
  rw [tryFrom]
  rw [hst,hh]
  cases st with
  | none | some st => rfl

lemma exists_state_of_tryFrom {t : Except String L.Ticketer} (h : tryFrom cn S t = .ok c) :
    ∃ si store holders keys,
      createCertificateStore S cn.commonTlsContext.validationContext = .ok (si, store) ∧
      certsAndSecretIds S cn.commonTlsContext.secrets = .ok holders ∧ t = .ok keys ∧
      configured (initialState cn si store holders keys) = .ok c ∧
      c.contextBuilder = initialState cn si store holders keys := by
  obtain ⟨⟨si,store⟩,hst,hr⟩ := bind_eq_ok.mp h
  obtain ⟨holders,hh,hr⟩ := bind_eq_ok.mp hr
  obtain ⟨st,hsta,-⟩ := bind_eq_ok.mp hr
  obtain ⟨keys,rfl,-⟩ := bind_eq_ok.mp hsta
  rw [tryFrom_of_lookups hst hh] at h
  exact ⟨si,store,holders,keys,hst,hh,rfl,h,contextBuilder_of_configured h⟩

variable {se : ServerConfigurator L} {id : String} {ce : CertificateSecret L}

lemma update_certificate_of_some (hse : setServerCert id ce.toServerCert
      se.contextBuilder.serverIdsAndCertificates = some (holders, ())) (f : L.Ticketer) :
    se.update id (.certificate ce) (.ok f) = configured { se.contextBuilder with
      serverIdsAndCertificates := holders
      validationContextSecretId := se.contextBuilder.certificateStore.bind fun _ =>
        se.contextBuilder.validationContextSecretId } := by
  simp only [update,hse]
  cases se.contextBuilder.certificateStore with
  | none | some st => rfl

variable {t : Except String L.Ticketer}

lemma setServerCert_of_update (h : se.update id (.certificate ce) t = .ok c) :
    ∃ holders fresh, setServerCert id ce.toServerCert
      se.contextBuilder.serverIdsAndCertificates = some (holders, ()) ∧ t = .ok fresh := by
  rw [update] at h
  split at h
  next holders hse =>
    cases t with
    | error e => cases h
    | ok fresh => exact ⟨holders,fresh,hse,rfl⟩
  · cases h

lemma update_validationContext_of_eq
    (hid : se.contextBuilder.validationContextSecretId = some id) (cs : CertStore L)
    (f : L.Ticketer) : se.update id (.validationContext cs) (.ok f) =
      configured { se.contextBuilder with certificateStore := some cs.store } := by
  simp only [update,if_pos hid.symm]
  rfl

lemma validationContextSecretId_of_update {cs : CertStore L}
    (h : se.update id (.validationContext cs) t = .ok c) :
    se.contextBuilder.validationContextSecretId = some id ∧ ∃ fresh, t = .ok fresh := by
  rw [update] at h
  split_ifs at h with hid
  · cases t with
    | error e => cases h
    | ok fresh => exact ⟨hid.symm,fresh,rfl⟩
  · cases h

end ServerConfigurator

end ArionGateway.TlsConfigurators
