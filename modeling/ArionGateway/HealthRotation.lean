import ArionGateway.RoundRobin

/-!
# Balancing over the healthy items

`HealthyBalancer` keeps the health of every item of one priority level and
rebuilds an inner balancer from the healthy ones whenever a health changes. The
inner algorithm is any implementation of the `Balancer` trait that can be
collected from a list; what is used of it is that its answers come from the
list it was collected from. The list it was collected from is called the
rotation.

Items are found by the equality of the endpoint type, so among equal items only
the first one is ever updated.
-/
namespace ArionGateway.HealthRotation
open FirstMatch RoundRobin

inductive HealthStatus where
  | healthy
  | unhealthy
  deriving DecidableEq

inductive ValueUpdated where
  | updated
  | notUpdated
  deriving DecidableEq

def HealthStatus.updateHealth (self health : HealthStatus) : HealthStatus × ValueUpdated :=
  if self = health then (self, .notUpdated) else (health, .updated)

class WeightedEndpoint (E : Type) where
  weight : E → ℕ
  weight_lt : ∀ e, weight e < 2^32

class EndpointHealth (E : Type) where
  health : E → HealthStatus

/-- The traits `Balancer<E>` and `FromIterator<Arc<E>>` of an inner balancer. -/
class Balancer (B : Type) (E : outParam Type) where
  fromIter : List E → B
  nextItem : B → Option ℕ → Option E × B

/-- An inner balancer answers from the list it was collected from. -/
class LawfulBalancer (B : Type) (E : outParam Type) [Balancer B E] where
  Serves : B → List E → Prop
  serves_fromIter : ∀ l, Serves (Balancer.fromIter l) l
  serves_nextItem : ∀ {b l} hash, Serves b l → Serves (Balancer.nextItem b hash).2 l
  mem_of_nextItem : ∀ {b l hash e}, Serves b l → (Balancer.nextItem b hash).1 = some e → e ∈ l

variable {E : Type} [WeightedEndpoint E]

instance : Balancer (WeightedRoundRobinBalancer E) E where
  fromIter l := .new (l.map fun e => LbItem.new (WeightedEndpoint.weight e) e)
  nextItem b _ := b.nextItem

instance : LawfulBalancer (WeightedRoundRobinBalancer E) E where
  Serves b l := b.IndexInRange ∧ b.served ⊆ l ∧ (l ≠ [] → b.items ≠ [])
  serves_fromIter l := by
    refine ⟨new_indexInRange _,?_,?_⟩
    · refine List.Subset.trans ((collectChecked_isPrefix _ _).map LbItem.item).subset ?_
      simp [Function.comp_def,LbItem.new]
    · intro hne
      apply collectChecked_ne_nil (by simpa using hne)
      intro x hx
      obtain ⟨e,-,rfl⟩ := List.mem_map.mp hx
      exact WeightedEndpoint.weight_lt e
  serves_nextItem := by
    intro b l _ h
    have hse := nextItem_served b
    refine ⟨nextItem_indexInRange h.1,hse ▸ h.2.1,fun hne hni => h.2.2 hne ?_⟩
    have hlen := congrArg List.length hse
    simp only [WeightedRoundRobinBalancer.served,List.length_map] at hlen
    exact List.length_eq_zero_iff.mp (hlen ▸ List.length_eq_zero_iff.mpr hni)
  mem_of_nextItem := by
    intro b l hash e h he
    obtain ⟨x,hx,rfl⟩ := Option.map_eq_some_iff.mp ((nextItem_fst b).symm.trans he)
    exact h.2.1 (List.mem_map.mpr ⟨x,List.mem_of_getElem? hx,rfl⟩)

lemma nextItem_isSome {b : WeightedRoundRobinBalancer E} {l : List E}
    (h : LawfulBalancer.Serves b l) (hne : l ≠ []) (hash : Option ℕ) :
    (Balancer.nextItem b hash).1.isSome := by
  obtain ⟨x,-,hx⟩ := nextItem_mem h.1 (h.2.2 hne)
  change b.nextItem.1.isSome
  rw [hx]
  rfl

/-- An endpoint with what balancing reads of it; `A` is the type of authorities. -/
structure LbEndpoint (A : Type) where
  authority : A
  weight : ℕ
  healthStatus : HealthStatus
  weight_pos : 0 < weight
  weight_lt : weight < 2^32
  deriving DecidableEq

/-- Endpoints are compared by their authority alone. -/
instance {A : Type} [DecidableEq A] : BEq (LbEndpoint A) where
  beq e f := decide (e.authority = f.authority)

instance {A : Type} : WeightedEndpoint (LbEndpoint A) where
  weight := LbEndpoint.weight
  weight_lt := LbEndpoint.weight_lt

instance {A : Type} : EndpointHealth (LbEndpoint A) where
  health := LbEndpoint.healthStatus

structure HealthyItem (E : Type) where
  item : E
  health : HealthStatus
  deriving DecidableEq

structure HealthyBalancer (B E : Type) where
  items : List (HealthyItem E)
  balancer : B

variable {B E : Type} [Balancer B E]

def rotation (items : List (HealthyItem E)) : List E :=
  (items.filter fun x => decide (x.health = .healthy)).map HealthyItem.item

namespace HealthyBalancer

def reload (self : HealthyBalancer B E) : HealthyBalancer B E :=
  { self with balancer := Balancer.fromIter (rotation self.items) }

def new (items : List (HealthyItem E)) : HealthyBalancer B E :=
  reload ⟨items,Balancer.fromIter []⟩

def nextItem (self : HealthyBalancer B E) (hash : Option ℕ) : Option E × HealthyBalancer B E :=
  let (e, balancer) := Balancer.nextItem self.balancer hash
  (e, { self with balancer })

/-- The first item equal to `id` takes the new health; without one the source
returns an error. -/
def updateHealth [BEq E] (self : HealthyBalancer B E) (id : E) (health : HealthStatus) :
    Option (HealthyBalancer B E × ValueUpdated) :=
  let visit (x : HealthyItem E) : Option (HealthyItem E × ValueUpdated) :=
    if id == x.item then
      let (newHealth, outcome) := x.health.updateHealth health
      some ({ x with health := newHealth }, outcome)
    else none
  (visitFirst visit self.items).map fun (items, outcome) =>
    match outcome with
    | .updated => (reload { self with items }, .updated)
    | .notUpdated => ({ self with items }, .notUpdated)

variable [EndpointHealth E]

def extend (self : HealthyBalancer B E) (items : List E) : HealthyBalancer B E :=
  reload { self with
    items := self.items++items.map fun e => ⟨e,EndpointHealth.health e⟩ }

def fromIter (items : List E) : HealthyBalancer B E :=
  new (items.map fun e => ⟨e,EndpointHealth.health e⟩)

end HealthyBalancer

lemma updateHealth_eq_none [BEq E] {s : HealthyBalancer B E} {id : E} {health : HealthStatus} :
    s.updateHealth id health = none ↔ ∀ x ∈ s.items, (id == x.item) = false := by
  rw [HealthyBalancer.updateHealth,Option.map_eq_none_iff,visitFirst_eq_none_iff]
  refine forall₂_congr fun x _ => ?_
  cases id == x.item <;> simp

variable [LawfulBalancer B E]

/-- The inner balancer serves the healthy items. -/
def HealthyBalancer.Loaded (self : HealthyBalancer B E) : Prop :=
  LawfulBalancer.Serves self.balancer (rotation self.items)

lemma loaded_reload (s : HealthyBalancer B E) : s.reload.Loaded := LawfulBalancer.serves_fromIter _

lemma updateHealth_eq_some [BEq E] {s n : HealthyBalancer B E} {id : E}
    {health : HealthStatus} {o : ValueUpdated} (h : s.updateHealth id health = some (n, o)) :
    ∃ before x after, s.items = before++x::after ∧
      (∀ y ∈ before, (id == y.item) = false) ∧ (id == x.item) = true ∧
      n.items = before++{ x with health }::after ∧
      (o = .notUpdated ↔ x.health = health) ∧ (s.Loaded → n.Loaded) := by
  rw [HealthyBalancer.updateHealth,Option.map_eq_some_iff] at h
  obtain ⟨⟨items,u⟩,hv,hn⟩ := h
  obtain ⟨before,x,x',after,hi,hbe,hx,rfl⟩ := visitFirst_eq_some hv
  have heq : (id == x.item) = true := by
    by_contra hne
    simp [hne] at hx
  have hb : ∀ y ∈ before, (id == y.item) = false := by
    intro y hy
    have hno := hbe y hy
    by_contra hne
    simp [Bool.eq_true_of_not_eq_false hne] at hno
  refine ⟨before,x,after,hi,hb,heq,?_⟩
  simp only [heq,HealthStatus.updateHealth] at hx
  by_cases hsa : x.health = health
  · rw [if_pos hsa] at hx
    cases hx
    cases hn
    refine ⟨by rw [← hsa],iff_of_true rfl hsa,?_⟩
    intro hl
    unfold HealthyBalancer.Loaded at hl ⊢
    rw [hi] at hl
    exact hl
  · rw [if_neg hsa] at hx
    cases hx
    cases hn
    exact ⟨rfl,iff_of_false (by simp) hsa,fun _ => loaded_reload _⟩

end ArionGateway.HealthRotation
