import Mathlib.Algebra.Group.Nat.Defs
import Mathlib.Data.List.Basic

/-!
# Circuit breakers

An admission adds to the counter of its priority first and takes back what it added when the old
value had reached the threshold; a release subtracts without looking. Counters are 32-bit words
and wrap. Replacing a cluster hands the counters of the old breaker to the new one, so a breaker
refers to them by number.
-/
namespace ArionGateway.CircuitBreaker

inductive RoutingPriority where
  | default
  | high
  deriving DecidableEq

inductive Resource where
  | connections
  | requests
  | retries
  deriving DecidableEq

inductive CircuitBreakerDenial where
  | maxConnections
  | maxRequests
  | maxRetries
  deriving DecidableEq

structure CircuitBreakerThresholds where
  priority : RoutingPriority := .default
  maxConnections : BitVec 32 := 1024
  maxRequests : BitVec 32 := 1024
  maxRetries : BitVec 32 := 3
  deriving DecidableEq

def CircuitBreakerThresholds.max (self : CircuitBreakerThresholds) : Resource → BitVec 32
  | .connections => self.maxConnections
  | .requests => self.maxRequests
  | .retries => self.maxRetries

def Resource.denial : Resource → CircuitBreakerDenial
  | .connections => .maxConnections
  | .requests => .maxRequests
  | .retries => .maxRetries

structure CircuitBreakerCounters where
  activeRequests : BitVec 32 := 0
  activeRetries : BitVec 32 := 0
  activeConnections : BitVec 32 := 0
  deriving DecidableEq

namespace CircuitBreakerCounters

variable (self : CircuitBreakerCounters)

def get : Resource → BitVec 32
  | .connections => self.activeConnections
  | .requests => self.activeRequests
  | .retries => self.activeRetries

def modify (f : BitVec 32 → BitVec 32) : Resource → CircuitBreakerCounters
  | .connections => { self with activeConnections := f self.activeConnections }
  | .requests => { self with activeRequests := f self.activeRequests }
  | .retries => { self with activeRetries := f self.activeRetries }

variable (r : Resource)

def fetchAdd : CircuitBreakerCounters :=
  self.modify (· + 1) r

def fetchSub : CircuitBreakerCounters :=
  self.modify (· - 1) r

/-- The common body of `try_increment_connections`, `try_increment_requests` and
`try_increment_retries`. -/
def tryIncrement (thresholds : CircuitBreakerThresholds) :
    Except CircuitBreakerDenial Unit × CircuitBreakerCounters :=
  let prev := self.get r
  let counters := self.fetchAdd r
  if thresholds.max r ≤ prev then (.error r.denial, counters.fetchSub r) else (.ok (), counters)

end CircuitBreakerCounters

structure PriorityCircuitBreakerState where
  thresholds : CircuitBreakerThresholds
  counters : ℕ
  deriving DecidableEq

structure ClusterCircuitBreaker where
  defaultPriority : PriorityCircuitBreakerState
  highPriority : PriorityCircuitBreakerState
  deriving DecidableEq

def ClusterCircuitBreaker.getState (self : ClusterCircuitBreaker) :
    RoutingPriority → PriorityCircuitBreakerState
  | .default => self.defaultPriority
  | .high => self.highPriority

/-- The last thresholds configured for a priority. -/
def findThresholds (config : List CircuitBreakerThresholds) (priority : RoutingPriority) :
    CircuitBreakerThresholds :=
  (config.reverse.find? fun t => decide (t.priority = priority)).getD {}

/-- The counters ever allocated for one cluster. -/
abbrev Arena := RoutingPriority → ℕ → CircuitBreakerCounters

def Arena.set (arena : Arena) (priority : RoutingPriority) (i : ℕ)
    (counters : CircuitBreakerCounters) : Arena :=
  fun p j => if p = priority ∧ j = i then counters else arena p j

def ClusterCircuitBreaker.count (self : ClusterCircuitBreaker) (arena : Arena)
    (priority : RoutingPriority) (r : Resource) : BitVec 32 :=
  (arena priority (self.getState priority).counters).get r

def ClusterCircuitBreaker.tryIncrement (self : ClusterCircuitBreaker) (r : Resource)
    (priority : RoutingPriority) (arena : Arena) : Except CircuitBreakerDenial Unit × Arena :=
  let state := self.getState priority
  let (result, counters) := (arena priority state.counters).tryIncrement r state.thresholds
  (result, arena.set priority state.counters counters)

def ClusterCircuitBreaker.decrement (self : ClusterCircuitBreaker) (r : Resource)
    (priority : RoutingPriority) (arena : Arena) : Arena :=
  let state := self.getState priority
  arena.set priority state.counters ((arena priority state.counters).fetchSub r)

open CircuitBreakerCounters

variable (c : CircuitBreakerCounters)

lemma get_modify (f : BitVec 32 → BitVec 32) (r r' : Resource) :
    (c.modify f r).get r' = if r' = r then f (c.get r') else c.get r' := by
  cases r <;> cases r' <;> rfl

lemma fetchSub_fetchAdd (r : Resource) : (c.fetchAdd r).fetchSub r = c := by
  cases r <;> simp [CircuitBreakerCounters.fetchAdd,CircuitBreakerCounters.fetchSub,
    CircuitBreakerCounters.modify,BitVec.add_sub_cancel]

lemma tryIncrement_cases (r : Resource) (t : CircuitBreakerThresholds) :
    c.tryIncrement r t = (.error r.denial, c) ∨
      c.tryIncrement r t = (.ok (), c.fetchAdd r) ∧ c.get r < t.max r := by
  rw [tryIncrement]
  split_ifs with hm
  · exact .inl (by rw [fetchSub_fetchAdd])
  · exact .inr ⟨rfl,by bv_omega⟩

lemma get_fetchAdd {c : CircuitBreakerCounters} {r : Resource} {b : BitVec 32}
    (hlt : c.get r < b) (r' : Resource) :
    ((c.fetchAdd r).get r').toNat = (c.get r').toNat+if r' = r then 1 else 0 := by
  rw [fetchAdd,get_modify]
  split_ifs with hr
  · subst hr
    bv_omega
  · rfl

lemma get_fetchSub (c : CircuitBreakerCounters) (r r' : Resource)
    (hpos : r' = r → 0 < (c.get r').toNat) :
    ((c.fetchSub r).get r').toNat = (c.get r').toNat - if r' = r then 1 else 0 := by
  rw [fetchSub,get_modify]
  split_ifs with hr
  · have hpos := hpos hr
    bv_omega
  · rfl

variable {cb view : ClusterCircuitBreaker} {arena : Arena} (co : CircuitBreakerCounters)

/-- A change through the counters of one priority is seen by every breaker that
shares them, and by no other priority. -/
lemma count_set (pr p : RoutingPriority) (r : Resource)
    (hsh : (view.getState pr).counters = (cb.getState pr).counters) :
    cb.count (arena.set pr (view.getState pr).counters co) p r =
      if p = pr then co.get r else cb.count arena p r := by
  rw [ClusterCircuitBreaker.count,Arena.set]
  by_cases hp : p = pr
  · subst hp
    rw [if_pos ⟨rfl,hsh.symm⟩,if_pos rfl]
  · rw [if_neg fun h => hp h.1,if_neg hp]
    rfl

lemma count_set_of_ne {pr : RoutingPriority}
    (r : Resource) (hne : (view.getState pr).counters ≠ (cb.getState pr).counters) :
    cb.count (arena.set pr (view.getState pr).counters co) pr r = cb.count arena pr r := by
  rw [ClusterCircuitBreaker.count,Arena.set,if_neg fun h => hne h.2.symm]
  rfl

lemma set_self (arena : Arena) (pr : RoutingPriority) (i : ℕ) :
    arena.set pr i (arena pr i) = arena := by
  funext p j
  rw [Arena.set]
  split_ifs with h
  · rw [h.1,h.2]
  · rfl

end ArionGateway.CircuitBreaker
