import ArionGateway.LastWrites
import ArionGateway.TlsRotation

/-!
# Override hosts

A request may list the addresses it wants to be sent to. The balancer has one entry for an
address, with the health that was last reported for it and, before any report, that of the last
endpoint that is configured with it. An address of several endpoints is therefore passed over if
the last of them was configured as unhealthy, whatever the others were.
-/
namespace ArionGateway.OverrideHosts
open ByteStrings ClusterChannels HttpHeaders LastWrites TlsRotation TransportSockets List Option
open HealthRotation (Balancer HealthStatus)

section
variable {L : TlsSecrets.TlsLibrary} {C : ChannelLibrary} {B : Type}

def overrideMap : BalancerType L C B → OverrideMap L C
  | .overrideHost _ endpoints => endpoints
  | .standard _ => fun _ => none

variable (C) in
/-- The addresses that a header lists. -/
def listed (header : Str) : List C.Authority :=
  ((toStr header).elim [] (List.splitOn 44)).filterMap fun raw =>
    if (trim raw).isEmpty then none else C.parseAuthority (trim raw)

variable (endpoints : List (LocalityLbEndpoints L C)) (updates : List (C.Authority × HealthStatus))

/-- The health of an endpoint after the updates. -/
def marked (e : LbEndpoint L C) : HealthStatus :=
  (last (fun u => if C.sameAuthority e.config.authority u.1 then some u.2 else none)
    updates).getD e.config.healthStatus

/-- The address of some healthy endpoint. -/
def healthyAddress (address : C.Authority) : Bool :=
  (allEndpoints endpoints).any fun e => e.config.authority = address ∧ marked updates e = .healthy

/-- The last endpoint with an address. -/
def known (address : C.Authority) : Option (LbEndpoint L C) :=
  last (fun e => if e.config.authority = address then some e else none) (allEndpoints endpoints)

variable {endpoints updates} {k : C.Authority} {e : LbEndpoint L C}

lemma of_known (h : known endpoints k = some e) :
    e ∈ allEndpoints endpoints ∧ e.config.authority = k := by
  obtain ⟨before,x,after,hl,hx,-⟩ := last_eq_some_iff.mp h
  obtain ⟨hk,hx⟩ := ite_none_right_eq_some.mp hx
  exact ⟨by simp [hl,← some.inj hx],some.inj hx ▸ hk⟩

/-- The entries are those of the last endpoints with their health. -/
def Follows (endpoints : List (LocalityLbEndpoints L C))
    (updates : List (C.Authority × HealthStatus)) (map : OverrideMap L C) : Prop :=
  ∀ k, map k = (known endpoints k).map fun e => ⟨e,decide (marked updates e = .healthy)⟩

lemma follows_build : Follows endpoints [] (.build endpoints none) := by
  intro k
  refine (foldl_eq_last_or (f := fun e => (if e.config.authority = k then some e else none).map
    fun e => ⟨e,decide (marked [] e = .healthy)⟩) (fun map : OverrideMap L C => map k) ?_ _
      _).trans ?_
  · intro map e
    by_cases he : e.config.authority = k
    · simp [← he]
      rfl
    · simp [he,Function.update_of_ne (Ne.symm he)]
  · rw [or_none,known,last,last,map_findSome?]
    rfl

lemma setHealth_foldl (es : List (LbEndpoint L C)) (health : HealthStatus) (map : OverrideMap L C)
    (k : C.Authority) : es.foldl (fun map e => map.setHealth e.config.authority health) map k =
      if ∃ e ∈ es, e.config.authority = k then
        (map k).map fun entry => { entry with healthy := decide (health = .healthy) }
      else map k := by
  induction es generalizing map with
  | nil => simp
  | cons e es ih =>
    rw [foldl_cons,ih]
    by_cases he : e.config.authority = k
    · simp [OverrideMap.setHealth,he,Function.comp_def]
    · simp [OverrideMap.setHealth,he,Ne.symm he]

variable [Balancer B (LbEndpoint L C)] {a : ClusterLoadAssignment L C B}

lemma follows_update
    (h : Follows a.endpoints updates (overrideMap a.balancer)) (u : C.Authority × HealthStatus) :
    Follows a.endpoints (updates++[u]) (overrideMap (a.updateEndpointHealth u.1 u.2).balancer) := by
  intro k
  have hf : overrideMap (a.updateEndpointHealth u.1 u.2).balancer =
      ((allEndpoints a.endpoints).filter fun e => C.sameAuthority e.config.authority u.1).foldl
        (fun map e => map.setHealth e.config.authority u.2) (overrideMap a.balancer) := by
    refine (foldl_hom overrideMap fun b e => ?_).symm
    cases b with
    | standard b => exact funext fun k => ite_self none
    | overrideHost f m => rfl
  rw [hf,setHealth_foldl,h k]
  cases hk : known a.endpoints k with
  | none => simp
  | some e =>
    obtain ⟨he,rfl⟩ := of_known hk
    have hs : (∃ f ∈ (allEndpoints a.endpoints).filter fun e =>
        C.sameAuthority e.config.authority u.1, f.config.authority = e.config.authority) ↔
        C.sameAuthority e.config.authority u.1 = true := by
      constructor
      · rintro ⟨f,hf,heq⟩
        rw [← heq]
        exact (mem_filter.mp hf).2
      · exact fun hs => ⟨e,mem_filter.mpr ⟨he,hs⟩,rfl⟩
    simp only [hs,marked]
    by_cases hu : C.sameAuthority e.config.authority u.1 = true
    · simp [hu,last]
    · simp [hu,last]
      rfl

/-- The endpoint for an address, if it is healthy. -/
def pick (endpoints : List (LocalityLbEndpoints L C)) (updates : List (C.Authority × HealthStatus))
    (k : C.Authority) : Option (LbEndpoint L C) :=
  (known endpoints k).filter fun e => marked updates e = .healthy

omit [Balancer B (LbEndpoint L C)] in
lemma named_eq
    (h : Follows endpoints updates (overrideMap a.balancer)) (header : Str) (hash : Option ℕ) :
    named a (.overrideHost header hash) = (listed C header).filterMap (pick endpoints updates) := by
  have hn : named a (.overrideHost header hash) =
      (toStr header).elim [] (overrideMap a.balancer).select := by
    unfold named
    cases a.balancer with
    | standard b => cases toStr header <;> simp [overrideMap,OverrideMap.select]
    | overrideHost f m => rfl
  rw [hn,listed,filterMap_filterMap]
  cases toStr header with
  | none => rfl
  | some v =>
    refine filterMap_congr fun raw _ => ?_
    dsimp only
    split_ifs
    · rfl
    · cases C.parseAuthority (trim raw) with
      | none => rfl
      | some k =>
        change (overrideMap a.balancer k).bind _ = pick endpoints updates k
        rw [h k,pick]
        cases known endpoints k with
        | none => rfl
        | some e => simp [filter_some]

lemma of_pick (h : pick endpoints updates k = some e) :
    e ∈ allEndpoints endpoints ∧ e.config.authority = k ∧ marked updates e = .healthy := by
  obtain ⟨hk,hm⟩ := filter_eq_some_iff.mp h
  exact ⟨(of_known hk).1,(of_known hk).2,of_decide_eq_true hm⟩

lemma exists_known (h : healthyAddress endpoints updates k = true) :
    ∃ e, known endpoints k = some e := by
  obtain ⟨e,he,hk⟩ := any_eq_true.mp h
  rw [← ne_none_iff_exists',known,Ne,last_eq_none_iff]
  exact fun hn => by simpa [(of_decide_eq_true hk).1] using hn e he

lemma first_iff (ks : List C.Authority) :
    (ks.findSome? (pick endpoints updates)).map (fun e => e.config.authority) =
        ks.find? (healthyAddress endpoints updates) ↔
      ∀ k ∈ ks.find? (healthyAddress endpoints updates), ∀ e ∈ known endpoints k,
        marked updates e = .healthy := by
  induction ks with
  | nil => exact iff_of_true rfl nofun
  | cons k ks ih =>
    cases hh : healthyAddress endpoints updates k with
    | false =>
      have hp : pick endpoints updates k = none := by
        refine eq_none_iff_forall_ne_some.mpr fun e he => ?_
        obtain ⟨hm,hk,he⟩ := of_pick he
        exact Bool.false_ne_true (hh.symm.trans (any_eq_true.mpr ⟨e,hm,by simp [hk,he]⟩))
      rw [findSome?_cons,hp,find?_cons,hh]
      exact ih
    | true =>
      obtain ⟨e,he⟩ := exists_known hh
      rw [find?_cons,hh,findSome?_cons]
      by_cases hm : marked updates e = .healthy
      · have hp : pick endpoints updates k = some e :=
          filter_eq_some_iff.mpr ⟨he,decide_eq_true hm⟩
        rw [hp]
        exact iff_of_true (congrArg some (of_known he).2) (by simp [he,hm])
      · have hp : pick endpoints updates k = none := by simp [pick,he,hm]
        rw [hp]
        refine iff_of_false (fun hk => ?_) fun h => hm (h k rfl e he)
        -- another endpoint with the address would be the last one
        obtain ⟨f,hf,hk⟩ := map_eq_some_iff.mp hk
        obtain ⟨j,-,hj⟩ := exists_of_findSome?_eq_some hf
        rw [← hk,(of_pick hj).2.1,hj] at hp
        cases hp

/-- After any updates only healthy endpoints are selected, and the first one has the first listed
address of a healthy endpoint exactly if, for this address, the last endpoint is healthy. -/
theorem selected_iff (socket : UpstreamTransportSocketConfigurator L)
    (fallback : BalancerType L C B) (endpoints : List (LocalityLbEndpoints L C))
    (updates : List (C.Authority × HealthStatus)) (header : Str) :
    let built : ClusterLoadAssignment L C B :=
      ⟨socket,.overrideHost fallback (.build endpoints none),endpoints⟩
    let assignment := updates.foldl (fun a u => a.updateEndpointHealth u.1 u.2) built
    let chosen := named assignment (.overrideHost header none)
    let first := (listed C header).find? (healthyAddress endpoints updates)
    (∀ hash channel failover, (assignment.getHttpChannel (.overrideHost header hash)).1 =
        .ok (.multiWithFailover channel failover) ↔ ∃ e es, chosen = e::es ∧
          (channel, failover) = (e.httpChannel, es.map LbEndpoint.httpChannel)) ∧
      (∀ e ∈ chosen, e ∈ allEndpoints endpoints ∧ marked updates e = .healthy) ∧
      (chosen.head?.map (fun e => e.config.authority) = first ↔
        ∀ k ∈ first, ∀ e ∈ known endpoints k, marked updates e = .healthy) := by
  intro built assignment chosen first
  have hf : assignment.endpoints = endpoints ∧
      Follows endpoints updates (overrideMap assignment.balancer) := by
    unfold assignment
    induction updates using reverseRecOn with
    | nil => exact ⟨rfl,follows_build⟩
    | append_singleton us u ih =>
      rw [foldl_append]
      exact ⟨ih.1,ih.1 ▸ follows_update (ih.1 ▸ ih.2) u⟩
  have hc : chosen = (listed C header).filterMap (pick endpoints updates) :=
    named_eq hf.2 header none
  refine ⟨fun hash channel failover => ?_,?_⟩
  · rw [hc,← named_eq hf.2 header hash]
    rcases getHttpChannel_cases assignment (.overrideHost header hash) with
      ⟨e,es,hn,heq⟩ | ⟨hn,hash,heq,-⟩
    · simp [hn,heq,eq_comm]
    · rw [heq,hn,nextChannel_fst]
      refine iff_of_false ?_ nofun
      cases (assignment.balancer.nextItem hash).1 <;> nofun
  rw [hc,head?_filterMap]
  refine ⟨fun e he => ?_,first_iff _⟩
  obtain ⟨k,-,hk⟩ := mem_filterMap.mp he
  exact ⟨(of_pick hk).1,(of_pick hk).2.2⟩

end

abbrev namedChannels : ChannelLibrary where
  Authority := Str
  ServerName := Str
  decEq := inferInstance
  sameAuthority := eqIgnoreAsciiCase
  parseAuthority := some
  withPort authority _ := .ok authority
  serverName := .ok
  client _ _ _ := .ok ()

def locality (healthStatus : HealthStatus) :
    LocalityLbEndpoints SecretUpdates.numberedLibrary namedChannels where
  priority := 0
  endpoints := [⟨⟨str "a:80",1,healthStatus,Nat.one_pos,one_lt_weight_bound⟩,
    ⟨str "a:80",none,false⟩,⟨str "a:80",.none⟩⟩]
  endpoints_ne_nil := List.cons_ne_nil _ _
  total_lt := by simp
  healthy_le := List.countP_le_length.trans (by simp)
  transportSocket := .none
  http2 := false

/-- The same address in two localities, of which the second is configured as unhealthy. -/
theorem healthy_duplicate_skipped :
    let endpoints := [locality .healthy,locality .unhealthy]
    (listed namedChannels (str "a:80")).find? (healthyAddress endpoints []) = some (str "a:80") ∧
      OverrideMap.select (.build endpoints none) (str "a:80") = [] := by
  exact ⟨rfl,rfl⟩

end ArionGateway.OverrideHosts
