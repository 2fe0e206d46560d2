import ArionGateway.FallibleSteps

/-!
# Secrets of the TLS transport

How the configuration of certificates and validation contexts becomes key material, and the
SecretManager that keeps the latest value of every name. Files, PEM and X.509 decoding, key
loading and the verifiers are the fields of `TlsLibrary`, pure functions without any assumption: a
data source is taken to have the same contents each time it is read.
-/
namespace ArionGateway.TlsSecrets
open FallibleSteps

/-- The key material and the calls into rustls, webpki and the decoders. -/
structure TlsLibrary where
  DataSource : Type
  Reader : Type
  PrivateKeyDer : Type
  CertificateDer : Type
  RootCertStore : Type
  SigningKey : Type
  ClientCertVerifier : Type
  WebPkiServerVerifier : Type
  Ticketer : Type
  /-- DataSource::into_buf_read. -/
  intoBufRead : DataSource → Except String Reader
  /-- rustls_pemfile::pkcs8_private_keys, one result for each key of the file. -/
  pkcs8PrivateKeys : Reader → List (Except String PrivateKeyDer)
  /-- rustls_pemfile::certs, one result for each certificate of the file. -/
  certs : Reader → List (Except String CertificateDer)
  /-- The DNS names among the subject alternative names, in their order. -/
  subjectAltDnsNames : CertificateDer → Except String (List String)
  /-- ServerName::try_from succeeds. -/
  isServerName : String → Bool
  /-- RootCertStore::add_parsable_certificates on an empty store, with the
  number of rejected certificates. -/
  addParsableCertificates : List CertificateDer → RootCertStore × ℕ
  /-- RootCertStore::empty. -/
  emptyRootCertStore : RootCertStore
  /-- load_private_key of the default crypto provider, if one is installed. -/
  loadPrivateKey : Option (PrivateKeyDer → Except String SigningKey)
  /-- The certificate parses and is valid for the name. -/
  verifyServerName : List CertificateDer → String → Except String Unit
  /-- WebPkiClientVerifier::builder and build; the flag is allow_unauthenticated. -/
  clientCertVerifier : RootCertStore → Bool → Except String ClientCertVerifier
  /-- WebPkiServerVerifier::builder and build. -/
  serverCertVerifier : RootCertStore → Except String WebPkiServerVerifier
  /-- with_single_cert: the key loads and fits the certificate. -/
  withSingleCert : List CertificateDer → PrivateKeyDer → Except String SigningKey
  /-- with_client_auth_cert. -/
  withClientAuthCert : List CertificateDer → PrivateKeyDer → Except String SigningKey

variable (L : TlsLibrary)

inductive TrustChainVerification
  | verifyTrustChain
  | acceptUntrusted
deriving DecidableEq

instance : Inhabited TrustChainVerification := ⟨.verifyTrustChain⟩

structure TlsCertificate where
  certificateChain : L.DataSource
  privateKey : L.DataSource

structure ValidationContext where
  trustedCa : L.DataSource
  trustChainVerification : TrustChainVerification

structure CertificateSecret where
  name : Option String
  key : L.PrivateKeyDer
  certs : List L.CertificateDer

structure CertStore where
  store : L.RootCertStore

inductive TransportSecret
  | certificate (certificate : CertificateSecret L)
  | validationContext (certStore : CertStore L)

inductive SecretType
  | tlsCertificate (certificate : TlsCertificate L)
  | validationContext (validationContext : ValidationContext L)

structure Secret where
  name : String
  kind : SecretType L

structure ClientCert where
  key : L.PrivateKeyDer
  certs : List L.CertificateDer

structure ServerCert where
  name : Option String
  key : L.PrivateKeyDer
  certs : List L.CertificateDer

variable {L}

def verifySingle {α : Type} : List α → Except String α
  | [a] => .ok a
  | [] => .error "Iterator is empty"
  | _::_::_ => .error "Iterator contains more than one element"

def serverName (names : List String) : Option String := (names.filter L.isServerName).getLast?

def CertificateSecret.tryFrom (certificate : TlsCertificate L) :
    Except String (CertificateSecret L) := do
  let certReader ← L.intoBufRead certificate.certificateChain
  let keyReader ← L.intoBufRead certificate.privateKey
  let keys := (L.pkcs8PrivateKeys keyReader).map
    (Except.mapError fun e => s!"Can't parse private key: {e}")
  let key ← (verifySingle keys).mapError fun e => s!"certificate configuration error: {e}"
  let key ← key
  let certificates ← (L.certs certReader).mapM
    (Except.mapError fun e => s!"Can't parse certificate {e}")
  match certificates.head? with
  | none => .error "No certificates have been configured"
  | some cert =>
    let names ← L.subjectAltDnsNames cert
    return { name := serverName (L := L) names, key, certs := certificates }

def CertStore.tryFrom (validationContext : ValidationContext L) : Except String (CertStore L) := do
  let caReader ← L.intoBufRead validationContext.trustedCa
  let caCerts ← (L.certs caReader).mapM
    (Except.mapError fun e => s!"Can't parse certificate {e}")
  if caCerts.isEmpty then
    .error "No certificates have been configured"
  else
    let (rootStore, bad) := L.addParsableCertificates caCerts
    if 0 < bad then
      .error "Some certs in the trust store were invalid"
    else
      return { store := rootStore }

variable (secret : CertificateSecret L)

def CertificateSecret.toClientCert : ClientCert L :=
  { key := secret.key, certs := secret.certs }

def CertificateSecret.toServerCert : ServerCert L :=
  { name := secret.name, key := secret.key, certs := secret.certs }

def TransportSecret.toRootCertStore : TransportSecret L → Except String L.RootCertStore
  | .validationContext context => .ok context.store
  | .certificate _ =>
    .error "TransportSecret certificate is not supported for root cert store"

def TransportSecret.toServerCert : TransportSecret L → Except String (ServerCert L)
  | .certificate secret => .ok secret.toServerCert
  | .validationContext _ =>
    .error "TransportSecret ValidationContext is not supported for server certificate"

def TransportSecret.toClientCert : TransportSecret L → Except String (ClientCert L)
  | .certificate secret => .ok secret.toClientCert
  | .validationContext _ =>
    .error "TransportSecret ValidationContext is not supported for client certificate"

variable (L) in
structure SecretManager where
  certificateSecrets : Std.HashMap String (CertificateSecret L)
  validationContexts : Std.HashMap String (CertStore L)

namespace SecretManager

def new : SecretManager L := { certificateSecrets := ∅, validationContexts := ∅ }

variable (self : SecretManager L) (secretId : String)

def insert : TransportSecret L → SecretManager L
  | .certificate secret =>
    { self with certificateSecrets := self.certificateSecrets.insert secretId secret }
  | .validationContext store =>
    { self with validationContexts := self.validationContexts.insert secretId store }

/-- Decodes a secret and keeps it; a secret that cannot be decoded changes
nothing. -/
def add (secret : Secret L) : Except String (TransportSecret L × SecretManager L) :=
  match secret.kind with
  | .tlsCertificate certificate => do
      let decoded := TransportSecret.certificate (← CertificateSecret.tryFrom certificate)
      return (decoded, self.insert secret.name decoded)
  | .validationContext validationContext => do
      let decoded := TransportSecret.validationContext (← CertStore.tryFrom validationContext)
      return (decoded, self.insert secret.name decoded)

def getCertificate : Except String (Option (TransportSecret L)) :=
  .ok (self.certificateSecrets[secretId]?.map .certificate)

def getValidationContext : Except String (Option (TransportSecret L)) :=
  .ok (self.validationContexts[secretId]?.map .validationContext)

lemma eq_insert_of_add {s s' : SecretManager L} {se : Secret L}
    {decoded : TransportSecret L} (h : s.add se = .ok (decoded, s')) :
    s' = s.insert se.name decoded := by
  rcases se with ⟨name,config | config⟩
  · obtain ⟨c,-,hc⟩ := bind_eq_ok.mp h
    cases hc
    rfl
  · obtain ⟨c,-,hc⟩ := bind_eq_ok.mp h
    cases hc
    rfl

@[simp]
lemma insert_certificateSecrets_certificate (s : SecretManager L) (id : String)
    (c : CertificateSecret L) :
    (s.insert id (.certificate c)).certificateSecrets = s.certificateSecrets.insert id c := rfl

@[simp]
lemma insert_validationContexts_validationContext (s : SecretManager L) (id : String)
    (c : CertStore L) : (s.insert id (.validationContext c)).validationContexts =
      s.validationContexts.insert id c := rfl

end SecretManager

end ArionGateway.TlsSecrets
