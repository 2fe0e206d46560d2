import ArionGateway.LoadAssignment

/-!
# The counters of the priority levels

The builder of a locality keeps the number of its healthy endpoints below the
bound from which the percentage overflows. The balancer adds the numbers of all
localities of a priority, and health updates count up from there. So the bound
has to hold of a whole level, for all endpoints that can be healthy at one time:
those configured as healthy and the first one of each authority, which updates
reach.
-/
namespace ArionGateway.PriorityCounters
open FirstMatch HealthRotation LoadAssignment PriorityBalancer RoundRobin List

variable {B E : Type} [Balancer B E]

/-- `healthy += 1` or `healthy -= 1` for a level that knows the endpoint. -/
def UpdateFits [BEq E] (id : E) (health : HealthStatus) (level : Level B E) : Prop :=
  match level.2.balancer.updateHealth id health with
  | some (_, .updated) =>
    if health = .healthy then level.2.healthy+1 < 2^32 else 1 ≤ level.2.healthy
  | _ => True

/-- A state whose loads were calculated without overflow, and which counts the
next update without overflow. -/
structure CountersFit [BEq E] (b : DefaultBalancer B E) : Prop where
  exact : ∀ l ∈ b.priorities, l.2.healthy = healthyItems l.2.balancer.items
  loads : ∀ l ∈ b.priorities, 100*l.2.healthy < 2^32 ∧ l.2.total ≠ 0
  update : ∀ id health l,
    b.priorities.find? (fun l => (l.2.balancer.updateHealth id health).isSome) = some l →
      UpdateFits id health l

/-- The additions of the `and_modify` branch. -/
def AccumulationFits (B : Type) [Balancer B E] [EndpointHealth E]
    (localities : List (LocalityLbEndpoints E)) : Prop :=
  ∀ before x after, localities = before++x::after →
    ∀ l ∈ before.foldl addLocality ([] : Levels B E), l.1 = x.priority →
      l.2.healthy+healthyCount x.endpoints < 2^32 ∧ l.2.total+x.endpoints.length < 2^32

variable {A : Type} [DecidableEq A] {items : List (HealthyItem (LbEndpoint A))} {seen : List A}

/-- The first items of all authorities but those already seen are healthy. -/
def raised (seen : List A) : List (HealthyItem (LbEndpoint A)) → List (HealthyItem (LbEndpoint A))
  | [] => []
  | x::items =>
    (if x.item.authority ∈ seen then x else { x with health := .healthy }) ::
      raised (seen++[x.item.authority]) items

lemma healthyItems_le_raised (s : List A) (i : List (HealthyItem (LbEndpoint A))) :
    healthyItems i ≤ healthyItems (raised s i) := by
  induction i generalizing s with
  | nil => exact le_rfl
  | cons x i ih =>
    rw [raised,healthyItems,healthyItems,countP_cons,countP_cons]
    refine add_le_add (ih _) ?_
    split_ifs <;> simp_all

lemma raised_setFirst {a : A} (h : a ∉ seen) (health : HealthStatus) :
    raised seen (setFirst a health items) = raised seen items := by
  induction items generalizing seen with
  | nil => rfl
  | cons x items ih =>
    rw [setFirst]
    split_ifs with hx
    · rw [raised,raised,hx,if_neg h,if_neg h]
    · rw [raised,raised,ih (by simp [h,Ne.symm hx])]

/-- The number of endpoints that can be healthy at one time. -/
def reachable (endpoints : List (LbEndpoint A)) : ℕ :=
  healthyItems (raised [] (configured endpoints))

section
variable {A B : Type} [DecidableEq A] [Balancer B (LbEndpoint A)] [LawfulBalancer B (LbEndpoint A)]
  {localities : List (LocalityLbEndpoints (LbEndpoint A))} {b : DefaultBalancer B (LbEndpoint A)}

/-- All endpoints of a priority can be counted, and the percentage of those that
can be healthy at one time can be calculated. -/
def LevelFits (localities : List (LocalityLbEndpoints (LbEndpoint A))) (k : ℕ) : Prop :=
  (levelEndpoints localities k).length < 2^32 ∧ 100*reachable (levelEndpoints localities k) < 2^32

def updates (calls : List (LbEndpoint A × HealthStatus)) : List (Call (LbEndpoint A)) :=
  calls.map fun c => .updateHealth c.1 c.2

lemma updateLevel_setFirst {l l' : Level B (LbEndpoint A)}
    {e : LbEndpoint A} {health : HealthStatus} {o : ValueUpdated}
    (h : updateLevel e health l = some (l', o)) :
    l'.2.balancer.items = setFirst e.authority health l.2.balancer.items := by
  obtain ⟨be,x,after,hite,hb,hx,hi⟩ := updateLevel_items h
  rw [hi,hite,setFirst_append_cons health after hb hx]

/-- What updates leave of the configuration of the levels. -/
structure Traced (localities : List (LocalityLbEndpoints (LbEndpoint A)))
    (b : DefaultBalancer B (LbEndpoint A)) : Prop where
  inv : b.Inv
  totals : ∀ l ∈ b.priorities, l.2.total ≠ 0
  raised : ∀ l ∈ b.priorities, raised [] l.2.balancer.items =
    raised [] (configured (levelEndpoints localities l.1))

lemma traced_call (h : Traced localities b) (e : LbEndpoint A) (health : HealthStatus) :
    Traced localities (b.call (.updateHealth e health)) := by
  have hlv : ∀ l ∈ (b.call (.updateHealth e health)).priorities, ∃ m ∈ b.priorities,
      l.1 = m.1 ∧ l.2.total = m.2.total ∧ PriorityCounters.raised [] l.2.balancer.items =
          PriorityCounters.raised [] m.2.balancer.items := by
    intro l hl
    rcases call_updateHealth b e health with ⟨-,hsa⟩ | ⟨o,hv⟩
    · exact ⟨l,hsa ▸ hl,rfl,rfl,rfl⟩
    · rcases mem_visitFirst hv hl with hl | ⟨m,hm,hml⟩
      · exact ⟨l,hl,rfl,rfl,rfl⟩
      · obtain ⟨hk,-,-,ht⟩ := updateLevel_inv hml (h.inv.levels m hm)
        refine ⟨m,hm,hk,ht,?_⟩
        rw [updateLevel_setFirst hml,raised_setFirst (by simp)]
  refine ⟨call_inv h.inv _,fun l hl => ?_,fun l hl => ?_⟩
  · obtain ⟨m,hm,-,ht,-⟩ := hlv l hl
    exact ht ▸ h.totals m hm
  · obtain ⟨m,hm,hk,-,hr⟩ := hlv l hl
    rw [hr,h.raised m hm,hk]

lemma traced_run (h : Traced localities b) (ca : List (LbEndpoint A × HealthStatus)) :
    Traced localities (b.run (updates ca)) := by
  induction ca generalizing b with
  | nil => exact h
  | cons c ca ih => exact ih (traced_call h c.1 c.2)

omit [DecidableEq A] [LawfulBalancer B (LbEndpoint A)] in
lemma items_ne_nil_foldl (lo : List (LocalityLbEndpoints (LbEndpoint A))) :
    ∀ l ∈ lo.foldl addLocality ([] : Levels B (LbEndpoint A)), l.2.balancer.items ≠ [] := by
  induction lo using reverseRecOn with
  | nil => simp
  | append_singleton lo x ih =>
    intro l hl
    rw [foldl_append,foldl_cons,foldl_nil,addLocality] at hl
    split at hl
    · rename_i hv
      rcases mem_visitFirst hv hl with hl | ⟨a,ha,hal⟩
      · exact ih l hl
      · rw [extendLevel] at hal
        split_ifs at hal
        cases hal
        exact append_ne_nil_of_left_ne_nil (ih a ha) _
    · rcases mem_append.mp hl with hl | hl
      · exact ih l hl
      · rw [mem_singleton.mp hl]
        exact fun hn => x.endpoints_ne_nil (map_eq_nil_iff.mp hn)

section
variable (hfits : ∀ k, LevelFits localities k)
include hfits

lemma traced_fromSlice (o : HashOrder (Level B (LbEndpoint A))) :
    Traced localities (DefaultBalancer.fromSlice o localities) := by
  have hc := collected_foldl (B := B) localities
  have hm := fun l hl => (o.perm (localities.foldl addLocality [])).subset (a := l) hl
  refine ⟨fromSlice_inv o localities,fun l hl => ?_,fun l hl => ?_⟩
  · have hln := congrArg length (hc.items l (hm l hl))
    rw [configured,length_map] at hln
    rw [(hc.inv l (hm l hl)).total_eq,hln,Nat.mod_eq_of_lt (hfits l.1).1,← hln]
    exact (length_pos_iff.mpr (items_ne_nil_foldl localities l (hm l hl))).ne'
  · rw [hc.items l (hm l hl)]

lemma Traced.countersFit (h : Traced localities b) : CountersFit b := by
  have hlv : ∀ l ∈ b.priorities, l.2.healthy = healthyItems l.2.balancer.items ∧
      100*l.2.healthy < 2^32 := by
    intro l hl
    have hf : 100*healthyItems _ < 2^32 := (hfits l.1).2
    have hle := healthyItems_le_raised [] l.2.balancer.items
    rw [h.raised l hl] at hle
    have he : l.2.healthy = healthyItems l.2.balancer.items := by
      rw [(h.inv.levels l hl).healthy_eq,Nat.mod_eq_of_lt (by omega)]
    exact ⟨he,by omega⟩
  refine ⟨fun l hl => (hlv l hl).1,fun l hl => ⟨(hlv l hl).2,h.totals l hl⟩,fun e health l hl => ?_⟩
  obtain ⟨he,hlo⟩ := hlv l (mem_of_find?_eq_some hl)
  rw [UpdateFits]
  split
  · rename_i hup
    split_ifs with hh
    · omega
    · -- the item that goes down was healthy
      obtain ⟨be,x,after,hi,-,-,-,hsa,-⟩ := updateHealth_eq_some hup
      have hne : x.health ≠ health := fun heq => by simpa using hsa.mpr heq
      have hx : x.health = .healthy := by
        cases health with
        | healthy => exact absurd rfl hh
        | unhealthy =>
          cases hxh : x.health with
          | healthy => rfl
          | unhealthy => exact absurd hxh hne
      rw [hi,healthyItems_append_cons,if_pos hx] at he
      omega
  · trivial

lemma accumulationFits : AccumulationFits B localities := by
  intro be x a hli l hl hk
  have hc := collected_foldl (B := B) be
  have hi := hc.inv l hl
  have hln : l.2.balancer.items.length = (levelEndpoints be x.priority).length := by
    rw [hc.items l hl,configured,length_map,hk]
  have hf := (hfits x.priority).1
  have hsp : levelEndpoints localities x.priority =
      levelEndpoints (be++[x]) x.priority++levelEndpoints a x.priority := by
    rw [hli,levelEndpoints,levelEndpoints,levelEndpoints,← flatMap_append,
      ← filter_append,append_assoc,singleton_append]
  rw [hsp,levelEndpoints_concat,if_pos rfl,length_append,length_append,← hln] at hf
  have hh : healthyItems l.2.balancer.items ≤ l.2.balancer.items.length := countP_le_length
  have hx : healthyCount x.endpoints ≤ x.endpoints.length := countP_le_length
  rw [hi.healthy_eq,hi.total_eq]
  omega

end

omit [DecidableEq A] in
lemma length_lt_of_accumulationFits (h : AccumulationFits B localities) (k : ℕ) :
    (levelEndpoints localities k).length < 2^32 := by
  induction localities using reverseRecOn with
  | nil => exact Nat.two_pow_pos 32
  | append_singleton localities x ih =>
    have hlt := ih fun be y a hli =>
      h be y (a++[x]) (by rw [hli,append_assoc,cons_append])
    rw [levelEndpoints_concat,length_append]
    split_ifs with hk
    · have hc := collected_foldl (B := B) localities
      by_cases hm : ∃ l ∈ localities.foldl addLocality ([] : Levels B (LbEndpoint A)), l.1 = k
      · obtain ⟨l,hl,hl'⟩ := hm
        have hf := (h localities x [] rfl l hl (hl'.trans hk.symm)).2
        rwa [(hc.inv l hl).total_eq,hc.items l hl,configured,length_map,
          hl',Nat.mod_eq_of_lt hlt] at hf
      · rw [hc.levelEndpoints_nil fun l hl heq => hm ⟨l,hl,heq⟩,length_nil,zero_add]
        exact x.total_lt
    · exact hlt

/-- Updates raise the level that is iterated first, from the first item on. -/
lemma exists_updates {l : Level B (LbEndpoint A)}
    {rest : Levels B (LbEndpoint A)} (h : b.priorities = l::rest)
    (be : List (HealthyItem (LbEndpoint A))) {items : List (HealthyItem (LbEndpoint A))}
    (hi : l.2.balancer.items = be++items) :
    ∃ calls, ∃ l' ∈ (b.run (updates calls)).priorities, l'.2.balancer.items =
      be++raised (be.map fun x => x.item.authority) items := by
  induction items generalizing b l rest be with
  | nil => exact ⟨[],l,h ▸ mem_cons_self,hi⟩
  | cons x items ih =>
    rw [raised]
    split_ifs with hse
    · simpa using ih h (be++[x]) (by simpa using hi)
    · obtain ⟨l',rest',hc,hl'⟩ : ∃ l' rest',
          (b.call (.updateHealth x.item .healthy)).priorities = l'::rest' ∧
          l'.2.balancer.items = be++{ x with health := .healthy }::items := by
        rcases call_updateHealth b x.item .healthy with ⟨hv,-⟩ | ⟨outcome,hv⟩
        · have hn := visitFirst_eq_none_iff.mp hv l (by simp [h])
          exact absurd rfl (updateLevel_eq_none.mp hn x (by simp [hi]))
        · rw [h,visitFirst] at hv
          split at hv
          · rename_i l' _ hl'
            refine ⟨l',rest,(Prod.mk.inj (Option.some.inj hv)).1.symm,?_⟩
            rw [updateLevel_setFirst hl',hi,setFirst_append_cons _ _ _ rfl]
            exact fun y hy heq => hse (mem_map.mpr ⟨y,hy,heq⟩)
          · rename_i hn
            exact absurd rfl (updateLevel_eq_none.mp hn x (by simp [hi]))
      obtain ⟨calls,l'',hm,hl''⟩ := ih hc (be++[_]) (by simpa using hl')
      exact ⟨(x.item, .healthy)::calls,l'',hm,by simpa using hl''⟩

def first (k : ℕ) : HashOrder (Level B (LbEndpoint A)) where
  arrange l := l.filter (fun l => decide (l.1 = k))++l.filter fun l => !decide (l.1 = k)
  perm l := List.filter_append_perm _ l

lemma levelFits_of_countersFit (ha : AccumulationFits B localities) (k : ℕ) (h : ∀ c, CountersFit
      ((DefaultBalancer.fromSlice (B := B) (first k) localities).run (updates c))) :
    LevelFits localities k := by
  refine ⟨length_lt_of_accumulationFits ha k,?_⟩
  have hc := collected_foldl (B := B) localities
  cases hlv : (localities.foldl addLocality ([] : Levels B (LbEndpoint A))).filter
      fun l => decide (l.1 = k) with
  | nil =>
    rw [hc.levelEndpoints_nil fun l hl heq => ?_]
    · exact Nat.two_pow_pos 32
    · exact filter_eq_nil_iff.mp hlv l hl (decide_eq_true heq)
  | cons l r =>
    have hl : l ∈ (localities.foldl addLocality []).filter fun l => decide (l.1 = k) := by
      simp [hlv]
    obtain ⟨hl,hk⟩ := mem_filter.mp hl
    have hh : (DefaultBalancer.fromSlice (B := B) (first k) localities).priorities =
        l::(r++_) := congrArg (·++_) hlv
    obtain ⟨c,l',hl',hi⟩ := exists_updates hh [] (nil_append _).symm
    have hlo := ((h c).loads l' hl').1
    rwa [(h c).exact l' hl',hi,hc.items l hl,of_decide_eq_true hk] at hlo

/-- No counter overflows or underflows, in whatever order the levels are iterated and
whichever updates come, if and only if every priority fits. -/
theorem counters_fit_iff (localities : List (LocalityLbEndpoints (LbEndpoint A))) :
    (AccumulationFits B localities ∧ ∀ order calls, CountersFit
      ((DefaultBalancer.fromSlice (B := B) order localities).run (updates calls))) ↔
        ∀ k, LevelFits localities k := by
  constructor
  · exact fun h k => levelFits_of_countersFit h.1 k (h.2 _)
  · exact fun h => ⟨accumulationFits h,fun order calls =>
      (traced_run (traced_fromSlice h order) calls).countersFit h⟩

end

def fullLocality : LocalityLbEndpoints (LbEndpoint ℕ) where
  priority := 0
  endpoints := List.replicate ((2^32 - 1) / 100) (endpoint 0 .healthy)
  endpoints_ne_nil := by rw [← List.length_pos_iff,List.length_replicate]; omega
  total_lt := by rw [List.length_replicate]; omega
  healthy_le := List.countP_le_length.trans (by rw [List.length_replicate])

/-- Two of them in one priority overflow the percentage from the start. -/
theorem full_localities_overflow :
    ¬ CountersFit (DefaultBalancer.fromSlice (B := WeightedRoundRobinBalancer (LbEndpoint ℕ))
      (.inserted _) [fullLocality, fullLocality]) := by
  intro h
  have hc := collected_foldl (B := WeightedRoundRobinBalancer (LbEndpoint ℕ))
    [fullLocality,fullLocality]
  obtain ⟨l,hl,hk⟩ := mem_map.mp (hc.covers fullLocality (by simp))
  have hco : healthyCount (levelEndpoints [fullLocality,fullLocality] 0) =
      2*((2^32 - 1) / 100) := by
    rw [healthyCount,levelEndpoints]
    simp only [fullLocality,decide_true,filter_cons_of_pos,filter_nil,
      flatMap_cons,flatMap_nil,countP_append,countP_replicate]
    rfl
  have hlo := (h.loads l hl).1
  rw [h.exact l hl,hc.items l hl,healthyItems_configured,show l.1 = 0 from hk,hco] at hlo
  omega

end ArionGateway.PriorityCounters
