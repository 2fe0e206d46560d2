import ArionGateway.CircuitBreaker
import ArionGateway.Executions

/-!
# Permits and the counters of the clusters manager

`try_increment_*` and `decrement_*` work on the copy of the cluster map that their thread has
cached; whether the copy is refreshed first is part of the call. An admission without a circuit
breaker is granted and counted nowhere.

The counter of the current breaker is the number of permits as long as a breaker is installed
where there was none only while no permits are out, and permits are taken and given back through a
copy of the map that has the current counters. The first step that does not keep this makes the
two numbers differ.
-/
namespace ArionGateway.ClusterPermits
open CircuitBreaker Executions ClusterCircuitBreaker
open Function (update update_of_ne update_self)

structure Cluster where
  circuitBreaker : Option ClusterCircuitBreaker
  deriving DecidableEq

/-- The cluster map, the copies of it that threads have cached, and the counters
of all clusters by name. -/
structure Manager (N T : Type) where
  arenas : N → Arena
  allocated : N → ℕ
  clusters : N → Option Cluster
  caches : T → N → Option Cluster

section
variable {N T : Type} [DecidableEq N] [DecidableEq T]

namespace Manager

variable (m : Manager N T) (name : N) (priority : RoutingPriority)

def newCounters : ℕ × Manager N T :=
  let i := m.allocated name
  (i, { m with
      arenas := update m.arenas name ((m.arenas name).set priority i {})
      allocated := update m.allocated name (i+1) })

def countersOr : Option ℕ → ℕ × Manager N T
  | some i => (i, m)
  | none => m.newCounters name priority

def withCounters (config : List CircuitBreakerThresholds)
    (defCounters highCounters : Option ℕ) : ClusterCircuitBreaker × Manager N T :=
  let (d, m) := m.countersOr name .default defCounters
  let (h, m) := m.countersOr name .high highCounters
  (⟨⟨findThresholds config .default,d⟩,⟨findThresholds config .high,h⟩⟩, m)

variable (circuitBreakers : Option (List CircuitBreakerThresholds))

def build (defCounters highCounters : Option ℕ) : Cluster × Manager N T :=
  match circuitBreakers with
  | none => (⟨none⟩, m)
  | some config =>
    let (cb, m) := m.withCounters name config defCounters highCounters
    (⟨some cb⟩, m)

def breaker : Option ClusterCircuitBreaker :=
  (m.clusters name).bind Cluster.circuitBreaker

/-- The circuit breaker that a thread sees. -/
def view (thread : T) (name : N) : Option ClusterCircuitBreaker :=
  (m.caches thread name).bind Cluster.circuitBreaker

/-- A vacant entry and an entry without a circuit breaker hand on no counters.
The rest of the cluster may fail to build, and then nothing changes. -/
def addCluster (builds : Bool) : Option Cluster × Manager N T :=
  if builds then
    let defCounters := (m.breaker name).map fun cb => cb.defaultPriority.counters
    let highCounters := (m.breaker name).map fun cb => cb.highPriority.counters
    let (cluster, m) := m.build name circuitBreakers defCounters highCounters
    (some cluster, { m with clusters := update m.clusters name (some cluster) })
  else (none, m)

/-- The result is missing where the source returns an error. -/
def removeCluster : Option Unit × Manager N T :=
  ((m.clusters name).map fun _ => (), { m with clusters := update m.clusters name none })

def cachedOrLatest (thread : T) (refreshed : Bool) : Manager N T :=
  if refreshed then { m with caches := update m.caches thread m.clusters } else m

def tryIncrement (r : Resource) (thread : T) (refreshed : Bool) (name : N)
    (priority : RoutingPriority) : Except CircuitBreakerDenial Unit × Manager N T :=
  let m := m.cachedOrLatest thread refreshed
  match m.view thread name with
  | none => (.ok (), m)
  | some cb =>
    let (result, arena) := cb.tryIncrement r priority (m.arenas name)
    (result, { m with arenas := update m.arenas name arena })

def decrement (r : Resource) (thread : T) (refreshed : Bool) (name : N)
    (priority : RoutingPriority) : Manager N T :=
  let m := m.cachedOrLatest thread refreshed
  match m.view thread name with
  | none => m
  | some cb =>
    { m with
      arenas := update m.arenas name (cb.decrement r priority (m.arenas name)) }

def tryIncrementConnections := m.tryIncrement .connections
def tryIncrementRequests := m.tryIncrement .requests
def tryIncrementRetries := m.tryIncrement .retries
def decrementConnections := m.decrement .connections
def decrementRequests := m.decrement .requests
def decrementRetries := m.decrement .retries

end Manager

abbrev Permits (N : Type) := N → RoutingPriority → Resource → ℕ

def Permits.modify (permits : Permits N) (name : N) (priority : RoutingPriority) (r : Resource)
    (f : ℕ → ℕ) : Permits N :=
  fun n p k => if n = name ∧ p = priority ∧ k = r then f (permits n p k) else permits n p k

structure System (N T : Type) where
  manager : Manager N T
  permits : Permits N

inductive Op (N T : Type) where
  | addCluster (name : N) (circuitBreakers : Option (List CircuitBreakerThresholds)) (builds : Bool)
  | removeCluster (name : N)
  | tryIncrement (r : Resource) (thread : T) (refreshed : Bool) (name : N)
      (priority : RoutingPriority)
  | decrement (r : Resource) (thread : T) (refreshed : Bool) (name : N) (priority : RoutingPriority)

/-- Operations in the order of an interleaving. A release is possible only for
a permit that is out. -/
def System.step (s : System N T) : Op N T → Option (System N T)
  | .addCluster name circuitBreakers builds =>
    some { s with manager := (s.manager.addCluster name circuitBreakers builds).2 }
  | .removeCluster name => some { s with manager := (s.manager.removeCluster name).2 }
  | .tryIncrement r thread refreshed name priority =>
    match s.manager.tryIncrement r thread refreshed name priority with
    | (.ok (), manager) => some ⟨manager,s.permits.modify name priority r (· + 1)⟩
    | (.error _, manager) => some { s with manager }
  | .decrement r thread refreshed name priority =>
    if s.permits name priority r = 0 then none
    else some ⟨s.manager.decrement r thread refreshed name priority,
      s.permits.modify name priority r (· - 1)⟩

def System.initial : System N T :=
  ⟨⟨fun _ _ _ => {},fun _ => 0,fun _ => none,fun _ _ => none⟩,fun _ _ _ => 0⟩

end

section
variable {N T : Type} {config : List CircuitBreakerThresholds} {s : System N T}

/-- The counters of the current circuit breaker, if there is one, are the permits
that are out. So they do not exceed them, and giving a permit back finds a
positive counter. -/
def System.LawAt (s : System N T) (name : N) : Prop :=
  ∀ cb, s.manager.breaker name = some cb → ∀ priority r,
    (cb.count (s.manager.arenas name) priority r).toNat = s.permits name priority r

def System.Law (s : System N T) : Prop := ∀ name, s.LawAt name

/-- A thread counts with the counters of the current circuit breaker. -/
def Manager.Sees (m : Manager N T) (thread : T) (name : N) (priority : RoutingPriority) : Prop :=
  ∀ cb, m.breaker name = some cb → ∃ v, m.view thread name = some v ∧
    (v.getState priority).counters = (cb.getState priority).counters

lemma law_iff_lawAt {t : System N T} (h : s.Law) (name : N)
    (ho : ∀ n, n ≠ name → t.manager.breaker n = s.manager.breaker n ∧
      t.manager.arenas n = s.manager.arenas n ∧ t.permits n = s.permits n) :
    t.Law ↔ t.LawAt name := by
  refine ⟨fun ht => ht name,fun ht n => ?_⟩
  by_cases hn : n = name
  · rw [hn]
    exact ht
  · obtain ⟨hb,ha,hp⟩ := ho n hn
    intro cb hcb p r
    rw [ha,hp]
    exact h n cb (hb.symm.trans hcb) p r

def newBreaker (config : List CircuitBreakerThresholds) (d h : ℕ) : ClusterCircuitBreaker :=
  ⟨⟨findThresholds config .default,d⟩,⟨findThresholds config .high,h⟩⟩

lemma count_newBreaker (c : List CircuitBreakerThresholds) (a : Arena) (i : ℕ)
    (p : RoutingPriority) (r : Resource) :
    (newBreaker c i (i+1)).count ((a.set .default i {}).set .high (i+1) {}) p r = 0 := by
  have hz : CircuitBreakerCounters.get {} r = 0 := by cases r <;> rfl
  cases p with
  | default | high =>
    simpa [newBreaker,count,getState,Arena.set] using hz

lemma lawAt_fresh_iff {n : N} {m' : Manager N T} {a : Arena} {i : ℕ}
    (hb : m'.breaker n = some (newBreaker config i (i+1)))
    (ha : m'.arenas n = (a.set .default i {}).set .high (i+1) {}) :
    System.LawAt ⟨m',s.permits⟩ n ↔ ∀ priority r, s.permits n priority r = 0 := by
  have hc : ∀ p r, ((newBreaker config i (i+1)).count (m'.arenas n) p r).toNat = 0 := by
    intro p r
    rw [ha,count_newBreaker]
    rfl
  constructor
  · intro hl p r
    exact (hl _ hb p r).symm.trans (hc p r)
  · intro hz cb hcb p r
    obtain rfl := Option.some.inj (hb.symm.trans hcb)
    exact (hc p r).trans (hz p r).symm

section
variable [DecidableEq T] (m : Manager N T) (th : T)

lemma breaker_cachedOrLatest (re : Bool) (name : N) :
    (m.cachedOrLatest th re).breaker name = m.breaker name := by
  rw [Manager.cachedOrLatest]
  split_ifs
  · rfl
  · rfl

lemma arenas_cachedOrLatest (re : Bool) : (m.cachedOrLatest th re).arenas = m.arenas := by
  rw [Manager.cachedOrLatest]
  split_ifs
  · rfl
  · rfl

end

variable [DecidableEq N] {m : Manager N T} {na : N}

lemma breaker_update (arenas : N → Arena) (allocated : N → ℕ) (na n : N)
    (cb : Option ClusterCircuitBreaker) : Manager.breaker
      { m with clusters := update m.clusters na (some ⟨cb⟩), arenas, allocated } n =
      if n = na then cb else m.breaker n := by
  by_cases hn : n = na
  · subst hn
    simp [Manager.breaker]
  · simp [Manager.breaker,hn]

lemma addCluster_of_breaker {old : ClusterCircuitBreaker} (ho : m.breaker na = some old)
    (c : List CircuitBreakerThresholds) : (m.addCluster na (some c) true).2 = { m with
        clusters := update m.clusters na (some ⟨some (newBreaker c old.defaultPriority.counters
            old.highPriority.counters)⟩) } := by
  simp [Manager.addCluster,Manager.build,Manager.withCounters,Manager.countersOr,ho,newBreaker]

lemma addCluster_of_none (hn : m.breaker na = none) (c : List CircuitBreakerThresholds) :
    (m.addCluster na (some c) true).2 = { m with
        arenas := update m.arenas na (((m.arenas na).set .default (m.allocated na) {}).set .high
            (m.allocated na+1) {})
        allocated := update m.allocated na (m.allocated na+1+1)
        clusters := update m.clusters na
          (some ⟨some (newBreaker c (m.allocated na) (m.allocated na+1))⟩) } := by
  simp [Manager.addCluster,Manager.build,Manager.withCounters,Manager.countersOr,
    Manager.newCounters,hn,newBreaker]

lemma law_removeCluster {s : System N T} (h : s.Law) (na : N) :
    System.Law ⟨(s.manager.removeCluster na).2,s.permits⟩ := by
  refine (law_iff_lawAt h na ?_).mpr ?_
  · intro n hn
    simp [Manager.removeCluster,Manager.breaker,hn]
  · intro cb hcb
    simp [Manager.removeCluster,Manager.breaker] at hcb

lemma modify_of_ne {pe : Permits N} {n : N} (hn : n ≠ na) (pr : RoutingPriority)
    (r : Resource) (f : ℕ → ℕ) : pe.modify na pr r f n = pe n := by
  funext p k
  rw [Permits.modify,if_neg fun hand => hn hand.1]

/-- A permit comes or goes, and the counters of the breaker that the thread sees,
if any, change by the same amount. The law is kept exactly if these are the
counters of the current breaker. -/
lemma lawAt_account_iff [DecidableEq T] {s : System N T} (h : s.LawAt na) {m' : Manager N T}
    (hb : m'.breaker na = s.manager.breaker na) {th : T} {re : Bool} {p : RoutingPriority}
    {r : Resource} {f : ℕ → ℕ} (hf : f (s.permits na p r) ≠ s.permits na p r)
    (hn : (s.manager.cachedOrLatest th re).view th na = none → m'.arenas na = s.manager.arenas na)
    (hso : ∀ v, (s.manager.cachedOrLatest th re).view th na = some v → ∃ c,
      m'.arenas na = (s.manager.arenas na).set p (v.getState p).counters c ∧
      ((v.count (s.manager.arenas na) p r).toNat = s.permits na p r → ∀ k, (c.get k).toNat =
        if k = r then f (v.count (s.manager.arenas na) p k).toNat
        else (v.count (s.manager.arenas na) p k).toNat)) :
    System.LawAt ⟨m',s.permits.modify na p r f⟩ na ↔
      (s.manager.cachedOrLatest th re).Sees th na p := by
  unfold Manager.Sees
  rw [breaker_cachedOrLatest]
  constructor
  · intro hl cb hcb
    have ho := h cb hcb p r
    have hnw := hl cb (hb.trans hcb) p r
    dsimp only at hnw
    rw [Permits.modify,if_pos ⟨rfl,rfl,rfl⟩] at hnw
    cases hv : (s.manager.cachedOrLatest th re).view th na with
    | none =>
      rw [hn hv,ho] at hnw
      exact absurd hnw.symm hf
    | some v =>
      obtain ⟨c,hst,-⟩ := hso v hv
      refine ⟨v,rfl,?_⟩
      by_contra hne
      rw [hst,count_set_of_ne c r hne,ho] at hnw
      exact hf hnw.symm
  · intro hse cb hcb q k
    have hc' := hb.symm.trans hcb
    obtain ⟨v,hv,hsh⟩ := hse cb hc'
    obtain ⟨c,hst,hc⟩ := hso v hv
    have ho := h cb hc'
    have hco : ∀ k, v.count (s.manager.arenas na) p k = cb.count (s.manager.arenas na) p k := by
      intro k
      rw [count,hsh]
      rfl
    dsimp only
    rw [hst,count_set c p q k hsh,Permits.modify]
    by_cases hq : q = p
    · subst hq
      rw [if_pos rfl,hc (by rw [hco,ho]),hco,ho]
      by_cases hk : k = r
      · rw [if_pos hk,if_pos ⟨rfl,rfl,hk⟩]
      · rw [if_neg hk,if_neg fun hand => hk hand.2.2]
    · rw [if_neg hq,if_neg fun hand => hq hand.2.1,ho]

variable [DecidableEq T] {priority : RoutingPriority} {refreshed : Bool} {name : N} {thread : T}
  {s : System N T} {r : Resource} {t : System N T} {v : ClusterCircuitBreaker}

/-- The condition on a step: no permits are out when a breaker is installed
where there was none, and permits come and go through the current counters. -/
def System.Clean (s : System N T) : Op N T → Prop
  | .addCluster name circuitBreakers builds =>
    builds = true → circuitBreakers.isSome → s.manager.breaker name = none →
      ∀ priority r, s.permits name priority r = 0
  | .removeCluster _ => True
  | .tryIncrement r thread refreshed name priority =>
    (s.manager.tryIncrement r thread refreshed name priority).1 = .ok () →
      (s.manager.cachedOrLatest thread refreshed).Sees thread name priority
  | .decrement _ thread refreshed name priority =>
    (s.manager.cachedOrLatest thread refreshed).Sees thread name priority

lemma law_addCluster_iff (h : s.Law) (na : N)
    (c : Option (List CircuitBreakerThresholds)) (b : Bool) :
    System.Law ⟨(s.manager.addCluster na c b).2,s.permits⟩ ↔ s.Clean (.addCluster na c b) := by
  cases b with
  | false => exact iff_of_true h fun hb => absurd hb nofun
  | true =>
    cases c with
    | none =>
      refine iff_of_true ?_ fun _ hso => absurd hso nofun
      refine (law_iff_lawAt h na ?_).mpr ?_
      · intro n hn
        exact ⟨(breaker_update _ _ na n none).trans (if_neg hn),rfl,rfl⟩
      · intro cb hcb
        cases ((breaker_update _ _ na na none).trans (if_pos rfl)).symm.trans hcb
    | some config =>
      cases ho : s.manager.breaker na with
      | some old =>
        refine iff_of_true ?_ fun _ _ hno => absurd (hno.symm.trans ho) nofun
        rw [addCluster_of_breaker ho]
        refine (law_iff_lawAt h na ?_).mpr ?_
        · intro n hn
          exact ⟨(breaker_update _ _ na n _).trans (if_neg hn),rfl,rfl⟩
        · intro cb hcb p r
          obtain rfl := Option.some.inj (((breaker_update _ _ na na _).trans (if_pos rfl)).symm.trans hcb)
          rw [← h na old ho p r]
          cases p with
          | default | high => rfl
      | none =>
        rw [addCluster_of_none ho]
        refine (law_iff_lawAt h na ?_).trans ?_
        · intro n hn
          exact ⟨(breaker_update _ _ na n _).trans (if_neg hn),update_of_ne hn ..,rfl⟩
        · rw [lawAt_fresh_iff ((breaker_update _ _ na na _).trans (if_pos rfl)) (update_self ..)]
          exact ⟨fun hz _ _ _ => hz,fun hc => hc rfl rfl ho⟩

section

variable (m) (r : Resource) (tr : T) (re : Bool)

lemma breaker_tryIncrement (na : N) (pr : RoutingPriority) (n : N) :
    (m.tryIncrement r tr re na pr).2.breaker n = m.breaker n := by
  rw [← breaker_cachedOrLatest m tr re,Manager.tryIncrement]
  split
  · rfl
  · rfl

lemma arenas_tryIncrement_of_ne {n : N} (hn : n ≠ name) (pr : RoutingPriority) :
    (m.tryIncrement r tr re name pr).2.arenas n = m.arenas n := by
  rw [← arenas_cachedOrLatest m tr re,Manager.tryIncrement]
  split
  · rfl
  · exact update_of_ne hn ..

end

lemma arenas_tryIncrement_error {d : CircuitBreakerDenial}
    (h : (m.tryIncrement r thread refreshed name priority).1 = .error d) :
    (m.tryIncrement r thread refreshed name priority).2.arenas = m.arenas := by
  rw [← arenas_cachedOrLatest m thread refreshed]
  rw [Manager.tryIncrement] at h ⊢
  split at h
  · cases h
  · rename_i v hv
    rw [tryIncrement] at h ⊢
    rcases tryIncrement_cases ((m.cachedOrLatest thread refreshed).arenas name priority
      (v.getState priority).counters) r (v.getState priority).thresholds with hc | ⟨hc,-⟩
    · dsimp only
      rw [hc,set_self,Function.update_eq_self]
    · rw [hc] at h
      cases h

lemma arenas_tryIncrement_ok (hv : (m.cachedOrLatest thread refreshed).view thread name = some v)
    (h : (m.tryIncrement r thread refreshed name priority).1 = .ok ()) :
    ∃ c, (m.tryIncrement r thread refreshed name priority).2.arenas name =
        (m.arenas name).set priority (v.getState priority).counters c ∧
      ∀ k, (c.get k).toNat = if k = r then (v.count (m.arenas name) priority k).toNat+1
        else (v.count (m.arenas name) priority k).toNat := by
  rw [← arenas_cachedOrLatest m thread refreshed]
  rw [Manager.tryIncrement] at h ⊢
  rw [hv] at h ⊢
  dsimp only at h ⊢
  rw [tryIncrement] at h ⊢
  rcases tryIncrement_cases ((m.cachedOrLatest thread refreshed).arenas name priority
    (v.getState priority).counters) r (v.getState priority).thresholds with hc | ⟨hc,hlt⟩
  · rw [hc] at h
    cases h
  · refine ⟨_,update_self ..,fun k => ?_⟩
    rw [hc,get_fetchAdd hlt]
    split_ifs
    · rfl
    · rfl

lemma law_tryIncrement_iff (h : s.Law)
    (ht : s.step (.tryIncrement r thread refreshed name priority) = some t) :
    t.Law ↔ s.Clean (.tryIncrement r thread refreshed name priority) := by
  have hb := breaker_tryIncrement s.manager r thread refreshed name priority
  have ho := fun n (hn : n ≠ name) =>
    arenas_tryIncrement_of_ne s.manager r thread refreshed hn priority
  rw [System.step] at ht
  rw [System.Clean]
  rcases hr : s.manager.tryIncrement r thread refreshed name priority with ⟨rs,m'⟩
  rw [hr] at ht hb ho
  cases rs with
  | error d =>
    cases ht
    have ha := arenas_tryIncrement_error (congrArg Prod.fst hr)
    rw [hr] at ha
    refine iff_of_true ?_ nofun
    intro n cb hcb
    rw [ha]
    exact h n cb ((hb n).symm.trans hcb)
  | ok u =>
    cases ht
    rw [law_iff_lawAt h name fun n hn =>
      ⟨hb n,ho n hn,modify_of_ne hn priority r _⟩]
    rw [lawAt_account_iff (h name) (hb name) (Nat.succ_ne_self _) ?_ fun v hv => ?_]
    · exact ⟨fun hse _ => hse,fun hcl => hcl rfl⟩
    · intro hv
      rw [Manager.tryIncrement,hv] at hr
      cases hr
      rw [arenas_cachedOrLatest]
    · obtain ⟨c,hst,hc⟩ := arenas_tryIncrement_ok hv (congrArg Prod.fst hr)
      rw [hr] at hst
      exact ⟨c,hst,fun _ => hc⟩

section

variable (m) (r : Resource) (thr : T) (rf : Bool)

lemma breaker_decrement (na : N) (pr : RoutingPriority) (n : N) :
    (m.decrement r thr rf na pr).breaker n = m.breaker n := by
  rw [← breaker_cachedOrLatest m thr rf,Manager.decrement]
  split
  · rfl
  · rfl

lemma arenas_decrement_of_ne {n : N} (hn : n ≠ name) (pr : RoutingPriority) :
    (m.decrement r thr rf name pr).arenas n = m.arenas n := by
  rw [← arenas_cachedOrLatest m thr rf,Manager.decrement]
  split
  · rfl
  · exact update_of_ne hn ..

end

lemma arenas_decrement (r : Resource) (pr : RoutingPriority)
    (hv : (m.cachedOrLatest thread refreshed).view thread name = some v) :
    ∃ c, (m.decrement r thread refreshed name pr).arenas name =
        (m.arenas name).set pr (v.getState pr).counters c ∧
      (0 < (v.count (m.arenas name) pr r).toNat → ∀ k, (c.get k).toNat =
        if k = r then (v.count (m.arenas name) pr k).toNat - 1
        else (v.count (m.arenas name) pr k).toNat) := by
  rw [← arenas_cachedOrLatest m thread refreshed,Manager.decrement,hv]
  refine ⟨_,update_self ..,?_⟩
  intro hpos k
  rw [get_fetchSub _ r k fun hk => hk ▸ hpos]
  split_ifs
  · rfl
  · rfl

lemma law_decrement_iff (h : s.Law)
    (ht : s.step (.decrement r thread refreshed name priority) = some t) :
    t.Law ↔ s.Clean (.decrement r thread refreshed name priority) := by
  have hb := breaker_decrement s.manager r thread refreshed name priority
  have ho := fun n (hn : n ≠ name) =>
    arenas_decrement_of_ne s.manager r thread refreshed hn priority
  rw [System.step] at ht
  split_ifs at ht with hz
  cases ht
  rw [law_iff_lawAt h name fun n hn =>
    ⟨hb n,ho n hn,modify_of_ne hn priority r (· - 1)⟩]
  refine lawAt_account_iff (h name) (hb name) (by omega) ?_ fun v hv => ?_
  · intro hv
    rw [Manager.decrement,hv,arenas_cachedOrLatest]
  · obtain ⟨c,hse,hc⟩ := arenas_decrement r priority hv
    exact ⟨c,hse,fun hco => hc (by omega)⟩

lemma law_step_iff (h : s.Law) {op : Op N T} (ht : s.step op = some t) : t.Law ↔ s.Clean op := by
  cases op with
  | addCluster name c b =>
    cases ht
    exact law_addCluster_iff h name c b
  | removeCluster name =>
    cases ht
    exact iff_of_true (law_removeCluster h name) trivial
  | tryIncrement r thread refreshed name priority => exact law_tryIncrement_iff h ht
  | decrement r thread refreshed name priority => exact law_decrement_iff h ht

/-- In every state reached by clean steps the counters of the current circuit
breakers are the permits that are out: none exceeds them and no release of a
permit wraps. The first step that is not clean ends this. -/
theorem counters_of_clean_run {ops : List (Op N T)} {s : System N T}
    (hrun : Run (Guarded System.Clean fun s op t => s.step op = some t) .initial ops s) :
    (∀ name cb, s.manager.breaker name = some cb → ∀ priority r,
      (cb.count (s.manager.arenas name) priority r).toNat = s.permits name priority r ∧
      (0 < s.permits name priority r → 0 < (cb.count (s.manager.arenas name) priority r).toNat)) ∧
    ∀ op t, s.step op = some t → (t.Law ↔ s.Clean op) := by
  have hl : s.Law := by
    refine hrun.invariant System.Law (fun s op t hs hst => ?_) ?_
    · exact (law_step_iff hs hst.2).mpr hst.1
    · intro name cb hcb
      cases hcb
  refine ⟨fun name cb hcb priority r => ?_,fun op t ht => law_step_iff hl ht⟩
  have hc := hl name cb hcb priority r
  exact ⟨hc,fun hpos => hc ▸ hpos⟩

end

/-- A request is admitted before the cluster has a circuit breaker and ends after
one has been installed. -/
def strandedOps : List (Op ℕ Unit) :=
  [.addCluster 0 none true,.tryIncrement .requests () true 0 .default,
    .addCluster 0 (some [{}]) true,.decrement .requests () true 0 .default]

theorem stranded_counter_wraps : ∃ s cb,
    Run (fun s op t => System.step s op = some t) .initial strandedOps s ∧
      s.manager.breaker 0 = some cb ∧
      (cb.count (s.manager.arenas 0) .default .requests).toNat = 2 ^ 32 - 1 ∧
      s.permits 0 .default .requests = 0 :=
  ⟨_,_,.of_exec rfl,rfl,by decide,rfl⟩

/-- The circuit breaker is there from the start and replaced in between. -/
def replacedOps : List (Op ℕ Unit) :=
  [.addCluster 0 (some [{}]) true,.tryIncrement .requests () true 0 .default,
    .addCluster 0 (some [{}]) true]

theorem replaced_counters : ∃ s : System ℕ Unit,
    s.permits 0 .default .requests = 1 ∧ ∀ name cb, s.manager.breaker name = some cb →
      ∀ priority r, (cb.count (s.manager.arenas name) priority r).toNat =
        s.permits name priority r := by
  have hr : ∃ s, s.permits 0 .default .requests = 1 ∧
      Run (Guarded System.Clean fun s op t => System.step s op = some t) .initial replacedOps s := by
    refine ⟨_,?_,.cons ⟨fun _ _ _ _ _ => rfl,rfl⟩ (.cons ⟨fun _ => ?_,rfl⟩
      (.cons ⟨fun _ _ hn => ?_,rfl⟩ (.nil _)))⟩
    · rfl
    · intro cb hcb
      refine ⟨cb,?_,rfl⟩
      exact hcb
    · cases hn
  obtain ⟨s,hp,hr⟩ := hr
  exact ⟨s,hp,fun name cb hcb p r => ((counters_of_clean_run hr).1 name cb hcb p r).1⟩

end ArionGateway.ClusterPermits
