import ArionGateway.TlsConfigurators

/-!
# Lookups of a TLS context

A context reads the secret manager by name, for its trust store, for the
client's certificate and for each of the server's certificates. This module
says what those reads give, and how they change when a secret is inserted.
-/
namespace ArionGateway.SecretLookups
open Std.HashMap
open FallibleSteps FirstMatch TlsSecrets TlsContextBuilder TlsConfigurators List SecretHolder
open SecretManager (getCertificate getValidationContext insert_certificateSecrets_certificate)

variable {L : TlsLibrary} {S : SecretManager L} {id : String}

lemma createCertificateStore_insert_certificate (S : SecretManager L) (id : String)
    (c : CertificateSecret L) (options : Option (CommonTlsValidationContext L)) :
    createCertificateStore (S.insert id (.certificate c)) options =
      createCertificateStore S options := by
  rcases options with _ | _ | _
  · rfl
  · rfl
  · rfl

variable {options : Option (CommonTlsValidationContext L)}

lemma createCertificateStore_insert_self (S : SecretManager L) (c : CertStore L) :
    createCertificateStore (S.insert id (.validationContext c)) (some (.sdsConfig id)) =
      .ok (some id, some c.store) := by
  rw [createCertificateStore,getValidationContext,
    SecretManager.insert_validationContexts_validationContext,getElem?_insert_self]
  rfl

lemma createCertificateStore_eq_some_iff {s : Option String}
    {st : Option L.RootCertStore} (h : createCertificateStore S options = .ok (s, st)) :
    (st.bind fun _ => s) = some id ↔ options = some (.sdsConfig id) := by
  rcases options with _ | name | context
  · cases h
    simp
  · rw [createCertificateStore,getValidationContext] at h
    cases hn : S.validationContexts[name]? with
    | none | some cs =>
      rw [hn] at h
      cases h
      simp
  · obtain ⟨cs,-,hc⟩ := bind_eq_ok.mp h
    cases hc
    simp

open ClientConfigurator (clientCertificate)

lemma clientCertificate_insert_validationContext (S : SecretManager L) (id : String)
    (c : CertStore L) (secret : Option (TlsSecret L)) :
    clientCertificate (S.insert id (.validationContext c)) secret = clientCertificate S secret := by
  rcases secret with _ | _ | _
  · rfl
  · rfl
  · rfl

variable {secret : Option (TlsSecret L)}

section

variable (S : SecretManager L) (c : CertificateSecret L)

lemma getCertificate_insert_of_ne {name : String} (hne : id ≠ name) :
    (S.insert id (.certificate c)).getCertificate name = S.getCertificate name := by
  rw [getCertificate,getCertificate,insert_certificateSecrets_certificate,
    Std.HashMap.getElem?_insert,if_neg (by simpa using hne)]

lemma clientCertificate_insert_of_ne (hne : secret ≠ some (.sdsConfig id)) :
    clientCertificate (S.insert id (.certificate c)) secret = clientCertificate S secret := by
  rcases secret with _ | name | _
  · rfl
  · have hn : id ≠ name := by
      intro h
      exact hne (by rw [h])
    rw [clientCertificate,clientCertificate,getCertificate_insert_of_ne S c hn]
  · rfl

lemma clientCertificate_insert_self :
    clientCertificate (S.insert id (.certificate c)) (some (.sdsConfig id)) =
      .ok (some id, some c.toClientCert) := by
  rw [clientCertificate,getCertificate,insert_certificateSecrets_certificate,getElem?_insert_self]
  rfl

end

lemma clientCertificate_eq_some_iff {c : Option String} {ce : Option (ClientCert L)}
    (h : clientCertificate S secret = .ok (c, ce)) :
    (ce.bind fun _ => c) = some id ↔ secret = some (.sdsConfig id) ∧ id ∈ S.certificateSecrets := by
  rcases secret with _ | name | config
  · cases h
    simp
  · rw [clientCertificate,getCertificate] at h
    by_cases hm : name ∈ S.certificateSecrets
    · rw [getElem?_eq_some_getElem hm] at h
      cases h
      simp only [Option.bind_some,Option.some.injEq,TlsSecret.sdsConfig.injEq]
      constructor
      · rintro rfl
        exact ⟨rfl,hm⟩
      · rintro ⟨rfl,-⟩
        rfl
    · rw [getElem?_eq_none hm] at h
      cases h
      simp only [Option.bind_none,reduceCtorEq,Option.some.injEq,TlsSecret.sdsConfig.injEq,
        false_iff,not_and]
      rintro rfl
      exact hm
  · obtain ⟨d,-,hd⟩ := bind_eq_ok.mp h
    cases hd
    simp

open ServerConfigurator (sdsCertificates setServerCert)

/-- The holders of the certificates that have arrived. -/
def present (S : SecretManager L) (names : List String) : List (SecretHolder L) :=
  names.filterMap fun name =>
    S.certificateSecrets[name]?.map fun secret => { name, serverCert := secret.toServerCert }

lemma present_cons_of_some {name : String} {s : CertificateSecret L}
    (h : S.certificateSecrets[name]? = some s) (names : List String) : present S (name::names) =
      { name, serverCert := s.toServerCert }::present S names := by
  rw [present,filterMap_cons,h]
  rfl

lemma present_cons_of_none {n : String} (h : S.certificateSecrets[n]? = none)
    (names : List String) : present S (n::names) = present S names := by
  rw [present,filterMap_cons,h]
  rfl

lemma map_name_present (S : SecretManager L) (n : List String) :
    (present S n).map name = n.filter (· ∈ S.certificateSecrets) := by
  induction n with
  | nil => rfl
  | cons na n ih =>
    by_cases hm : na ∈ S.certificateSecrets
    · rw [present_cons_of_some (getElem?_eq_some_getElem hm),map_cons,ih,
        filter_cons_of_pos (by simpa using hm)]
    · rw [present_cons_of_none (getElem?_eq_none hm),ih,filter_cons_of_neg (by simpa using hm)]

lemma contains_iff {h : List (SecretHolder L)} {holder : SecretHolder L} :
    h.contains holder = true ↔ holder.name ∈ h.map name := by
  induction h with
  | nil => simp
  | cons head h ih =>
    rw [contains_cons,Bool.or_eq_true,ih,map_cons,mem_cons]
    exact or_congr_left (beq_iff_eq (a := holder.name) (b := head.name))

variable {names : List String}

lemma sdsCertificates_eq_ok_iff {holders r : List (SecretHolder L)}
    (hn : (holders.map name).Nodup) : sdsCertificates S names holders = .ok r ↔
      ((holders++present S names).map name).Nodup ∧ r = holders++present S names := by
  induction names generalizing holders with
  | nil =>
    have hp : present S [] = [] := rfl
    rw [sdsCertificates,hp,append_nil,Except.ok.injEq]
    exact ⟨fun h => ⟨hn,h.symm⟩,fun h => h.2.symm⟩
  | cons na names ih =>
    rw [sdsCertificates,getCertificate]
    cases h : S.certificateSecrets[na]? with
    | none =>
      rw [present_cons_of_none h]
      exact ih hn
    | some secret =>
      rw [present_cons_of_some h]
      change (if holders.contains _ then _ else _) = Except.ok r ↔ _
      split
      next hd =>
        refine ⟨nofun,?_⟩
        rintro ⟨hal,-⟩
        rw [map_append] at hal
        exact absurd (contains_iff.mp hd) fun hm => (disjoint_of_nodup_append hal) hm (by simp)
      next hd =>
        have hnw : ((holders++[(⟨na,secret.toServerCert⟩ : SecretHolder L)]).map
            name).Nodup := by
          rw [map_append,nodup_append]
          refine ⟨hn,by simp,?_⟩
          rintro a ha b hb rfl
          rw [contains_iff] at hd
          rw [map_singleton,mem_singleton] at hb
          exact hd (hb ▸ ha)
        rw [ih hnw,append_assoc,singleton_append]

lemma sdsCertificates_congr {S' : SecretManager L}
    (h : ∀ na ∈ names, S'.getCertificate na = S.getCertificate na)
    (holders : List (SecretHolder L)) :
    sdsCertificates S' names holders = sdsCertificates S names holders := by
  induction names generalizing holders with
  | nil => rfl
  | cons na names ih =>
    obtain ⟨hg,h⟩ := forall_mem_cons.mp h
    simp only [sdsCertificates,hg,ih h]

lemma present_insert_of_notMem (S : SecretManager L) (c : CertificateSecret L) (hn : id ∉ names) :
    present (S.insert id (.certificate c)) names = present S names := by
  apply filterMap_congr
  intro na hm
  rw [insert_certificateSecrets_certificate,Std.HashMap.getElem?_insert,
    if_neg (by simpa using fun h : id = na => hn (h ▸ hm))]

lemma setServerCert_present (c : CertificateSecret L)
    (hn : ((present S names).map name).Nodup) (hm : id ∈ S.certificateSecrets)
    (hna : id ∈ names) : setServerCert id c.toServerCert (present S names) =
      some (present (S.insert id (.certificate c)) names, ()) := by
  induction names with
  | nil => cases hna
  | cons name names ih =>
    have hi (other : String) :=
      getElem?_insert (m := S.certificateSecrets) (k := id) (a := other) (v := c)
    cases h : S.certificateSecrets[name]? with
    | none =>
      have hne : id ≠ name := by
        rintro rfl
        exact (getElem?_eq_none_iff _ _).mp h hm
      rw [present_cons_of_none h] at hn ⊢
      rw [present_cons_of_none (by
        rw [insert_certificateSecrets_certificate,hi,if_neg (by simpa using hne),h])]
      exact ih hn (by simpa [hne] using hna)
    | some secret =>
      rw [present_cons_of_some h] at hn ⊢
      by_cases hne : id = name
      · subst hne
        have hno : id ∉ names := by
          intro hnm
          have hh := (nodup_cons.mp hn).1
          rw [map_name_present] at hh
          exact hh (mem_filter.mpr ⟨hnm,by simpa using hm⟩)
        rw [present_cons_of_some (by
            rw [insert_certificateSecrets_certificate,getElem?_insert_self]),
          present_insert_of_notMem S c hno,setServerCert,visitFirst, if_pos rfl]
      · rw [present_cons_of_some (by
            rw [insert_certificateSecrets_certificate,hi,if_neg (by simpa using hne),h]),
          setServerCert,visitFirst,if_neg (Ne.symm hne)]
        have ih := ih (nodup_cons.mp hn).2 (by simpa [hne] using hna)
        rw [setServerCert] at ih
        rw [ih]
        rfl

end ArionGateway.SecretLookups
