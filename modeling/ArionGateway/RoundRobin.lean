import ArionGateway.FirstMatch
import Mathlib.Algebra.Order.BigOperators.Group.List
import Mathlib.Algebra.BigOperators.Ring.Finset
import Mathlib.Tactic.Linarith
import Mathlib.Tactic.Ring

/-!
# Smooth weighted round robin

Every round adds each item's weight to its current weight, picks the first item of greatest
current weight and takes the total weight from it. Equal weights, and at most one item, are served
by plain round robin instead. Weights are 32-bit and current weights saturate; construction drops
the items from the first one on whose weight would overflow the total. While the total weight is
small enough that nothing saturates, the current weights add up to zero and an item of weight zero
is never picked unless all weights are zero.
-/
namespace ArionGateway.RoundRobin
open FirstMatch Int
open List (getElem?_map length length_map length_pos_iff map_cons map_map map_take mem_iff_getElem?
  mem_map mem_of_getElem? single_le_sum sum_cons sum_le_sum sum_map_add)
open Option (map_eq_some_iff map_some)

def i32Max : ℤ := 2^31 - 1
def i32Min : ℤ := -2^31

def saturatingAdd (a b : ℤ) : ℤ := max i32Min (min i32Max (a+b))

/-- `i32::try_from(n).unwrap_or(i32::MAX)`. -/
def toI32 (n : ℕ) : ℤ := min n i32Max

lemma saturatingAdd_of_mem {a b : ℤ} (hlo : i32Min ≤ a+b) (hhi : a+b ≤ i32Max) :
    saturatingAdd a b = a+b := by
  rw [saturatingAdd,min_eq_right hhi,max_eq_right hlo]

variable {E : Type}

structure LbItem (E : Type) where
  weight : ℕ
  currentWeight : ℤ
  item : E
  deriving DecidableEq

def LbItem.new (weight : ℕ) (item : E) : LbItem E := ⟨weight,0,item⟩

def LbItem.adjustCurrentWeight (value : ℤ) (x : LbItem E) : LbItem E :=
  { x with currentWeight := saturatingAdd x.currentWeight value }

def LbItem.increaseCurrentWeight (x : LbItem E) : LbItem E :=
  x.adjustCurrentWeight (toI32 x.weight)

/-- The variables captured by the closure of `collect_checked`. -/
structure Collected where
  total : ℕ
  firstWeight : Option ℕ
  equalWeight : Bool
  deriving DecidableEq

/-- `take_while` with the closure of `collect_checked`: the weight comparison
also runs for the item that overflows the total and is left out. -/
def collectChecked (state : Collected) : List (LbItem E) → List (LbItem E) × Collected
  | [] => ([], state)
  | x::rest =>
    let equalWeight := state.equalWeight &&
      state.firstWeight.all fun firstWeight => decide (firstWeight = x.weight)
    let firstWeight := some (state.firstWeight.getD x.weight)
    if state.total+x.weight < 2^32 then
      let (items, final) := collectChecked ⟨state.total+x.weight,firstWeight,equalWeight⟩ rest
      (x::items, final)
    else ([], ⟨state.total,firstWeight,equalWeight⟩)

structure WeightedRoundRobinBalancer (E : Type) where
  items : List (LbItem E)
  totalWeight : ℤ
  equalWeight : Bool
  currentIndex : ℕ
  deriving DecidableEq

namespace WeightedRoundRobinBalancer

def new (items : List (LbItem E)) : WeightedRoundRobinBalancer E :=
  let (items, collected) := collectChecked ⟨0,none,true⟩ items
  { items
    totalWeight := toI32 collected.total
    equalWeight := collected.equalWeight
    currentIndex := 0 }

/-- The loop that looks for the first greatest current weight. -/
def bestIndex (items : List (LbItem E)) : ℕ := (items.zipIdx.foldl
    (fun (best : ℕ × ℤ) (x : LbItem E × ℕ) =>
      if best.2 < x.1.currentWeight then (x.2, x.1.currentWeight) else best)
    (0, i32Min)).1

def nextItem (b : WeightedRoundRobinBalancer E) : Option E × WeightedRoundRobinBalancer E :=
  if b.equalWeight then
    if b.items.length ≤ 1 then (b.items.head?.map LbItem.item, b)
    else
      (b.items[b.currentIndex]?.map LbItem.item,
        { b with currentIndex := (b.currentIndex+1) % b.items.length })
  else if b.items.length ≤ 1 then (b.items.head?.map LbItem.item, b)
  else
    let items := b.items.map LbItem.increaseCurrentWeight
    let best := bestIndex items
    (items[best]?.map LbItem.item,
      { b with items := items.modify best (LbItem.adjustCurrentWeight (-b.totalWeight)) })

end WeightedRoundRobinBalancer

open LbItem (weight item currentWeight increaseCurrentWeight adjustCurrentWeight)
lemma collectChecked_isPrefix (s : Collected) (xs : List (LbItem E)) :
    (collectChecked s xs).1 <+: xs := by
  induction xs generalizing s with
  | nil => exact List.prefix_rfl
  | cons x xs ih =>
    rw [collectChecked]
    split_ifs
    · exact (List.prefix_cons_inj x).mpr (ih _)
    · exact List.nil_prefix

lemma collectChecked_ne_nil {xs : List (LbItem E)} (hne : xs ≠ [])
    (hweight : ∀ x ∈ xs, x.weight < 2^32) : (collectChecked ⟨0,none,true⟩ xs).1 ≠ [] := by
  cases xs with
  | nil => exact absurd rfl hne
  | cons x xs =>
    have hx := hweight x (by simp)
    rw [collectChecked,if_pos (by simpa using hx)]
    simp

lemma collectChecked_of_fits (s : Collected) (xs : List (LbItem E))
    (hf : s.total+(xs.map weight).sum < 2^32) :
    (collectChecked s xs).1 = xs ∧ (collectChecked s xs).2.total = s.total+(xs.map weight).sum ∧
      ((collectChecked s xs).2.equalWeight = true ↔ s.equalWeight = true ∧
        ∀ x ∈ xs, ∀ w, (s.firstWeight.or (xs.head?.map weight)) = some w → w = x.weight) := by
  induction xs generalizing s with
  | nil => simp [collectChecked]
  | cons x xs ih =>
    rw [map_cons,sum_cons] at hf
    have hr := ih ⟨s.total+x.weight,some (s.firstWeight.getD x.weight),
      s.equalWeight && s.firstWeight.all fun f =>
        decide (f = x.weight)⟩ (by simp only; omega)
    rw [collectChecked,if_pos (by omega)]
    refine ⟨congrArg (x::·) hr.1,?_,?_⟩
    · rw [map_cons,sum_cons,← add_assoc]
      exact hr.2.1
    · refine hr.2.2.trans ?_
      cases s.firstWeight with
      | none => simp
      | some w => simp [and_assoc]

open WeightedRoundRobinBalancer

def WeightedRoundRobinBalancer.served (b : WeightedRoundRobinBalancer E) : List E :=
  b.items.map LbItem.item

/-- The index of plain round robin stays within the items. -/
def WeightedRoundRobinBalancer.IndexInRange (b : WeightedRoundRobinBalancer E) : Prop :=
  b.items ≠ [] → b.currentIndex < b.items.length

def WeightedRoundRobinBalancer.pick (b : WeightedRoundRobinBalancer E) : ℕ :=
  if b.items.length ≤ 1 then 0
  else if b.equalWeight then b.currentIndex
  else bestIndex (b.items.map LbItem.increaseCurrentWeight)

lemma bestIndex_cases (items : List (LbItem E)) :
    (bestIndex items = 0 ∧ ∀ x ∈ items, x.currentWeight ≤ i32Min) ∨
      ∃ before y after, items = before++y::after ∧ bestIndex items = before.length ∧
        (∀ x ∈ before, x.currentWeight < y.currentWeight) ∧
        ∀ x ∈ after, x.currentWeight ≤ y.currentWeight := by
  let scan := fun items : List (LbItem E) => items.zipIdx.foldl
    (fun (best : ℕ × ℤ) (x : LbItem E × ℕ) =>
      if best.2 < x.1.currentWeight then (x.2, x.1.currentWeight) else best) (0, i32Min)
  have hl : (scan items = (0, i32Min) ∧ ∀ x ∈ items, x.currentWeight ≤ i32Min) ∨
      ∃ before y after, items = before++y::after ∧ scan items = (before.length, y.currentWeight) ∧
        (∀ x ∈ before, x.currentWeight < y.currentWeight) ∧
        ∀ x ∈ after, x.currentWeight ≤ y.currentWeight := by
    induction items using List.reverseRecOn with
    | nil => exact .inl ⟨rfl,nofun⟩
    | append_singleton items c ih =>
      have hst : scan (items++[c]) = if (scan items).2 < c.currentWeight then
          (items.length, c.currentWeight) else scan items := by
        simp [scan,List.zipIdx_append]
      rw [hst]
      rcases ih with ⟨heq,hal⟩ | ⟨before,y,after,rfl,heq,hb,ha⟩ <;> rw [heq] <;> split_ifs with hlt
      · exact .inr ⟨items,c,[],rfl,rfl,fun x hx => (hal x hx).trans_lt hlt,nofun⟩
      · refine .inl ⟨rfl,List.forall_mem_append.mpr ⟨hal,by simpa using hlt⟩⟩
      · refine .inr ⟨_,c,[],rfl,rfl,List.forall_mem_append.mpr ⟨fun x hx =>
          (hb x hx).trans hlt,List.forall_mem_cons.mpr ⟨hlt,fun x hx =>
          (ha x hx).trans_lt hlt⟩⟩,nofun⟩
      · exact .inr ⟨before,y,after++[c],by simp,rfl,hb,
          List.forall_mem_append.mpr ⟨ha,by simpa using hlt⟩⟩
  rcases hl with ⟨heq,hal⟩ | ⟨before,y,after,hi,heq,hm⟩
  · exact .inl ⟨congrArg Prod.fst heq,hal⟩
  · exact .inr ⟨before,y,after,hi,congrArg Prod.fst heq,hm⟩

lemma exists_bestIndex {items : List (LbItem E)} {x : LbItem E} (hx : x ∈ items)
    (hlt : i32Min < x.currentWeight) : ∃ y, items[bestIndex items]? = some y ∧
      (∀ z ∈ items, z.currentWeight ≤ y.currentWeight) ∧
      ∀ i < bestIndex items, ∀ z, items[i]? = some z → z.currentWeight < y.currentWeight := by
  rcases bestIndex_cases items with ⟨-,hal⟩ | ⟨before,y,after,rfl,heq,hb,ha⟩
  · exact absurd (hal x hx) hlt.not_ge
  · rw [heq]
    refine ⟨y,by simp,List.forall_mem_append.mpr ⟨fun z hz => (hb z hz).le,
      List.forall_mem_cons.mpr ⟨le_rfl,ha⟩⟩,fun i hi z hz => hb z ?_⟩
    rw [List.getElem?_append_left hi] at hz
    exact mem_of_getElem? hz

variable {b : WeightedRoundRobinBalancer E}

lemma pick_lt (h : b.IndexInRange) (hne : b.items ≠ []) : b.pick < b.items.length := by
  have hpos : 0 < b.items.length := length_pos_iff.mpr hne
  unfold pick
  split_ifs
  · exact hpos
  · exact h hne
  · rcases bestIndex_cases (b.items.map increaseCurrentWeight) with ⟨heq,-⟩ | ⟨be,y,after,hi,heq,-⟩
    · rw [heq]
      exact hpos
    · have hlen := congrArg length hi
      rw [length_map,List.length_append,List.length_cons] at hlen
      omega

lemma nextItem_fst (b : WeightedRoundRobinBalancer E) :
    b.nextItem.1 = b.items[b.pick]?.map item := by
  unfold nextItem pick
  split_ifs
  · rw [List.head?_eq_getElem?]
  · rfl
  · rw [List.head?_eq_getElem?]
  · simp only [getElem?_map,Option.map_map]
    rfl

lemma nextItem_map {A : Type} (f : LbItem E → A) (hf : ∀ v x, f (adjustCurrentWeight v x) = f x)
    (b : WeightedRoundRobinBalancer E) : b.nextItem.2.items.map f = b.items.map f := by
  unfold nextItem
  split_ifs
  · rfl
  · rfl
  · rfl
  · apply List.ext_getElem?
    intro i
    simp only [getElem?_map,List.getElem?_modify]
    cases b.items[i]? with
    | none => rfl
    | some x => split_ifs <;> simp [hf,increaseCurrentWeight]

lemma nextItem_served (b : WeightedRoundRobinBalancer E) : b.nextItem.2.served = b.served :=
  nextItem_map _ (fun _ _ => rfl) b

lemma nextItem_indexInRange (h : b.IndexInRange) : b.nextItem.2.IndexInRange := by
  intro hne
  have hlen := congrArg length (nextItem_served b)
  rw [served,served,length_map,length_map] at hlen
  rw [hlen]
  have hb : 0 < b.items.length := hlen ▸ length_pos_iff.mpr hne
  unfold nextItem
  split_ifs
  · exact h (length_pos_iff.mp hb)
  · exact Nat.mod_lt _ hb
  · exact h (length_pos_iff.mp hb)
  · exact h (length_pos_iff.mp hb)

lemma nextItem_mem (h : b.IndexInRange) (hne : b.items ≠ []) :
    ∃ x ∈ b.items, b.nextItem.1 = some x.item := by
  have hp := List.getElem?_eq_getElem (pick_lt h hne)
  exact ⟨_,mem_of_getElem? hp,by rw [nextItem_fst,hp,map_some]⟩

def WeightedRoundRobinBalancer.after (b : WeightedRoundRobinBalancer E) :
    ℕ → WeightedRoundRobinBalancer E
  | 0 => b
  | n+1 => (b.after n).nextItem.2

lemma after_of_equalWeight (h : b.IndexInRange) (he : b.equalWeight = true)
    (hlen : 1 < b.items.length) (n : ℕ) :
    b.after n = { b with currentIndex := (b.currentIndex+n) % b.items.length } := by
  induction n with
  | zero =>
    have hlt := h (length_pos_iff.mp (by omega))
    rw [after,Nat.add_zero,Nat.mod_eq_of_lt hlt]
  | succ n ih =>
    rw [after,ih,nextItem,if_pos he,if_neg (by simpa using hlen)]
    rw [Nat.mod_add_mod,Nat.add_assoc]

lemma exists_pick_of_equalWeight (h : b.IndexInRange) (he : b.equalWeight = true) {j : ℕ}
    (hj : j < b.items.length) : ∃ n < 2*b.items.length, (b.after n).pick = j := by
  rcases lt_or_ge 1 b.items.length with hlen | hlen
  · have hlt := h (length_pos_iff.mp (by omega))
    refine ⟨j+(b.items.length - b.currentIndex),by omega,?_⟩
    have hi : (b.currentIndex+(j+(b.items.length - b.currentIndex))) % b.items.length = j := by
      rw [show b.currentIndex+(j+(b.items.length - b.currentIndex)) = j+b.items.length by
        omega,Nat.add_mod_right,Nat.mod_eq_of_lt hj]
    rw [after_of_equalWeight h he hlen,hi,pick,if_neg (by simpa using hlen),if_pos he]
  · exact ⟨0,by omega,by rw [after,pick,if_pos hlen]; omega⟩

lemma after_map {A : Type} (f : LbItem E → A) (hf : ∀ v x, f (adjustCurrentWeight v x) = f x)
    (b : WeightedRoundRobinBalancer E) (n : ℕ) : (b.after n).items.map f = b.items.map f := by
  induction n with
  | zero => rfl
  | succ n ih => exact (nextItem_map f hf _).trans ih

lemma nextItem_after (n : ℕ) {x : LbItem E} (hx : b.items[(b.after n).pick]? = some x) :
    (b.after n).nextItem.1 = some x.item := by
  rw [nextItem_fst,← getElem?_map,after_map _ fun _ _ => rfl,getElem?_map,hx,map_some]

lemma exists_after_of_equalWeight (h : b.IndexInRange) (he : b.equalWeight = true)
    {x : LbItem E} (hx : x ∈ b.items) : ∃ n, (b.after n).nextItem.1 = some x.item := by
  obtain ⟨j,hj⟩ := mem_iff_getElem?.mp hx
  obtain ⟨n,-,hp⟩ := exists_pick_of_equalWeight h he (List.getElem?_eq_some_iff.mp hj).1
  exact ⟨n,nextItem_after n (hp ▸ hj)⟩

lemma after_indexInRange (h : b.IndexInRange) (n : ℕ) : (b.after n).IndexInRange := by
  induction n with
  | zero => exact h
  | succ n ih => exact nextItem_indexInRange ih

lemma new_indexInRange (xs : List (LbItem E)) : (new xs).IndexInRange :=
  length_pos_iff.mpr

/-- Whether an item takes part in the rounds. -/
def LbItem.share (x : LbItem E) : ℤ := (min x.weight 1 : ℕ)

/-- The current weight moves by a value, without a bound. -/
def LbItem.credit (value : ℤ) (x : LbItem E) : LbItem E :=
  { x with currentWeight := x.currentWeight+value }

open LbItem (share credit)
namespace WeightedRoundRobinBalancer

/-- The state of a balancer in which nothing has saturated. -/
structure Smooth (b : WeightedRoundRobinBalancer E) : Prop where
  total_eq : b.totalWeight = ((b.items.map LbItem.weight).sum : ℕ)
  small : (b.items.map LbItem.share).sum*b.totalWeight ≤ i32Max
  sum_zero : (b.items.map LbItem.currentWeight).sum = 0
  lower : ∀ x ∈ b.items, (1 - b.totalWeight)*x.share ≤ x.currentWeight
  zero : ∀ x ∈ b.items, x.weight = 0 → x.currentWeight = 0
  equal : b.equalWeight = true → ∀ x ∈ b.items, ∀ y ∈ b.items, x.weight = y.weight
  equal_of_zero : (∀ x ∈ b.items, x.weight = 0) → b.equalWeight = true
  index : b.IndexInRange

variable {x : LbItem E}

lemma Smooth.weight_le (h : b.Smooth) (hx : x ∈ b.items) : (x.weight : ℤ) ≤ b.totalWeight := by
  rw [h.total_eq]
  exact_mod_cast single_le_sum (fun _ _ => Nat.zero_le _) _ (mem_map.mpr ⟨x,hx,rfl⟩)

lemma Smooth.sum_raised (h : b.Smooth) :
    (b.items.map fun x => x.currentWeight+(x.weight : ℤ)).sum = b.totalWeight := by
  rw [sum_map_add,h.sum_zero,zero_add,h.total_eq,Nat.cast_list_sum,map_map]
  rfl

/-- Current weights sum to zero and are bounded below, hence above. -/
lemma Smooth.bounds (h : b.Smooth) (hx : x ∈ b.items) (hw : 0 < x.weight) :
    b.totalWeight ≤ i32Max ∧ 1 - b.totalWeight ≤ x.currentWeight ∧
      x.currentWeight+x.weight ≤ i32Max := by
  have hsh : x.share = 1 := by simp [share,Nat.succ_le_of_lt hw]
  have hl := h.lower x hx
  rw [hsh,mul_one] at hl
  have hle := h.weight_le hx
  have hsr : 1 ≤ (b.items.map share).sum := by
    rw [← hsh]
    refine single_le_sum (fun s hs => ?_) _ (mem_map.mpr ⟨x,hx,rfl⟩)
    obtain ⟨y,-,rfl⟩ := mem_map.mp hs
    exact natCast_nonneg _
  have hsu : x.currentWeight+(b.totalWeight - 1)*x.share ≤
      (b.totalWeight - 1)*(b.items.map share).sum := by
    have ht : (b.items.map fun y => y.currentWeight+(b.totalWeight - 1)*y.share).sum =
        (b.totalWeight - 1)*(b.items.map share).sum := by
      rw [sum_map_add,h.sum_zero,zero_add,List.sum_map_mul_left]
    rw [← ht]
    refine single_le_sum (fun s hs => ?_) _ (mem_map.mpr ⟨x,hx,rfl⟩)
    obtain ⟨y,hy,rfl⟩ := mem_map.mp hs
    linarith [h.lower y hy]
  have hsm := h.small
  refine ⟨?_,hl,?_⟩ <;> nlinarith

lemma i32Min_eq : i32Min = -i32Max - 1 := by norm_num [i32Max,i32Min]

lemma Smooth.increase (h : b.Smooth) (hx : x ∈ b.items) :
    x.increaseCurrentWeight = x.credit x.weight := by
  have hm := i32Min_eq
  rw [increaseCurrentWeight,adjustCurrentWeight,credit]
  rcases eq_zero_or_pos x.weight with hw | hw
  · simp [hw,toI32,h.zero x hx hw,saturatingAdd,i32Min,i32Max]
  · obtain ⟨ht,hl,hup⟩ := h.bounds hx hw
    have hle := h.weight_le hx
    rw [show toI32 x.weight = x.weight from min_eq_left (hle.trans ht),
      saturatingAdd_of_mem (by omega) hup]

lemma Smooth.decrease (h : b.Smooth) (hx : x ∈ b.items) (hw : 0 < x.weight)
    (hpos : 0 < x.currentWeight+x.weight) :
    (x.credit x.weight).adjustCurrentWeight (-b.totalWeight) =
      (x.credit x.weight).credit (-b.totalWeight) := by
  obtain ⟨ht,-,hup⟩ := h.bounds hx hw
  have hle := h.weight_le hx
  have hm := i32Min_eq
  rw [adjustCurrentWeight,credit,credit]
  dsimp only
  rw [saturatingAdd_of_mem (by omega) (by omega)]

lemma Smooth.total_pos (h : b.Smooth) (he : ¬ b.equalWeight = true) : 0 < b.totalWeight := by
  by_contra hle
  apply he
  apply h.equal_of_zero
  intro x hx
  have hw := h.weight_le hx
  omega

/-- The items are not served by plain round robin. -/
structure Rounds (b : WeightedRoundRobinBalancer E) : Prop where
  unequal : ¬ b.equalWeight = true
  several : ¬ b.items.length ≤ 1

lemma pick_eq (h : b.Rounds) : b.pick = bestIndex (b.items.map increaseCurrentWeight) := by
  rw [pick,if_neg h.several,if_neg h.unequal]

lemma nextItem_eq (h : b.Rounds) : b.nextItem.2 = { b with
      items := (b.items.map increaseCurrentWeight).modify b.pick
        (adjustCurrentWeight (-b.totalWeight)) } := by
  rw [pick_eq h,nextItem,if_neg h.unequal,if_neg h.several]

lemma Smooth.picked (h : b.Smooth) (hr : b.Rounds) :
    ∃ x, b.items[b.pick]? = some x ∧ 0 < x.currentWeight+x.weight ∧ 0 < x.weight := by
  have hra : b.items.map increaseCurrentWeight = b.items.map fun x => x.credit x.weight :=
    List.map_congr_left fun x hx => h.increase hx
  obtain ⟨x,hx,hpos⟩ := List.exists_lt_of_sum_lt (fun _ => 0)
    (fun x : LbItem E => x.currentWeight+(x.weight : ℤ)) (l := b.items)
    (by simpa [h.sum_raised] using h.total_pos hr.unequal)
  have hm : x.credit x.weight ∈ b.items.map fun x => x.credit x.weight := mem_map.mpr ⟨x,hx,rfl⟩
  rw [pick_eq hr,hra]
  obtain ⟨y,hy,hle,-⟩ := exists_bestIndex hm (lt_trans (by norm_num [i32Min]) hpos)
  rw [getElem?_map,map_eq_some_iff] at hy
  obtain ⟨z,hz,rfl⟩ := hy
  have hzp : 0 < z.currentWeight+z.weight := hpos.trans_le (hle _ hm)
  refine ⟨z,hz,hzp,pos_of_ne_zero fun hze => ?_⟩
  rw [h.zero z (mem_of_getElem? hz) hze,hze] at hzp
  exact absurd hzp (by norm_num)

lemma Rounds.getElem?_nextItem (h : b.Rounds) (i : ℕ) :
    b.nextItem.2.items[i]? = b.items[i]?.map fun y =>
      if b.pick = i then y.increaseCurrentWeight.adjustCurrentWeight (-b.totalWeight)
      else y.increaseCurrentWeight := by
  rw [nextItem_eq h]
  simp only [List.getElem?_modify,getElem?_map]
  cases b.items[i]? with
  | none => rfl
  | some y => split_ifs <;> rfl

lemma Smooth.getElem?_nextItem (h : b.Smooth) (hr : b.Rounds) (i : ℕ) :
    b.nextItem.2.items[i]? = b.items[i]?.map fun y =>
      y.credit (y.weight - if b.pick = i then b.totalWeight else 0) := by
  obtain ⟨x,hx,hpos,hw⟩ := h.picked hr
  rw [hr.getElem?_nextItem]
  cases hy : b.items[i]? with
  | none => rfl
  | some y =>
    have hm := mem_of_getElem? hy
    rw [map_some,map_some,h.increase hm]
    split_ifs with hp
    · cases hx.symm.trans (hp ▸ hy)
      rw [h.decrease hm hw hpos,credit,credit,credit,add_assoc,sub_eq_add_neg]
    · rw [sub_zero]

lemma Smooth.sum_nextItem (h : b.Smooth) (hr : b.Rounds) :
    (b.nextItem.2.items.map currentWeight).sum = 0 := by
  obtain ⟨x,hx,hpos,hw⟩ := h.picked hr
  have hm := mem_of_getElem? hx
  have hra : (b.items.map increaseCurrentWeight)[b.pick]? = some (x.credit x.weight) := by
    rw [getElem?_map,hx,map_some,h.increase hm]
  have hro := sum_map_modify currentWeight (adjustCurrentWeight (-b.totalWeight)) hra
  have hsu : ((b.items.map increaseCurrentWeight).map currentWeight).sum = b.totalWeight := by
    rw [← h.sum_raised,map_map]
    exact congrArg _ (List.map_congr_left fun y hy => congrArg _ (h.increase hy))
  rw [h.decrease hm hw hpos] at hro
  rw [nextItem_eq hr]
  simp only [credit] at hro ⊢
  linarith

lemma Smooth.nextItem (h : b.Smooth) : b.nextItem.2.Smooth := by
  have hin := nextItem_indexInRange h.index
  by_cases hp : b.equalWeight = true ∨ b.items.length ≤ 1
  · unfold WeightedRoundRobinBalancer.nextItem at hin ⊢
    split_ifs at hin ⊢ with he hlen hlen
    · exact h
    · exact { h with index := hin }
    · exact h
    · exact absurd hp (not_or.mpr ⟨he,hlen⟩)
  · have hr : b.Rounds := ⟨fun h => hp (.inl h),fun h => hp (.inr h)⟩
    obtain ⟨x,hx,hpos,hw⟩ := h.picked hr
    have hf : b.nextItem.2.equalWeight = b.equalWeight := by rw [nextItem_eq hr]
    have ht : b.nextItem.2.totalWeight = b.totalWeight := by rw [nextItem_eq hr]
    have hm : ∀ y ∈ b.nextItem.2.items, ∃ z ∈ b.items, y.weight = z.weight ∧
        (y.currentWeight = z.currentWeight+z.weight ∨
          0 < z.weight ∧ y.currentWeight = z.currentWeight+z.weight - b.totalWeight ∧
            0 < z.currentWeight+z.weight) := by
      intro y hy
      obtain ⟨i,hi⟩ := mem_iff_getElem?.mp hy
      rw [h.getElem?_nextItem hr,map_eq_some_iff] at hi
      obtain ⟨z,hz,rfl⟩ := hi
      refine ⟨z,mem_of_getElem? hz,rfl,?_⟩
      simp only [credit]
      split_ifs with hpi
      · cases hx.symm.trans (hpi ▸ hz)
        exact .inr ⟨hw,by ring,hpos⟩
      · exact .inl (by ring)
    refine ⟨?_,?_,h.sum_nextItem hr,?_,?_,fun heq => absurd (hf ▸ heq) hr.unequal,?_,hin⟩
    · rw [ht,nextItem_map weight fun _ _ => rfl]
      exact h.total_eq
    · rw [ht,nextItem_map share fun _ _ => rfl]
      exact h.small
    · intro y hy
      obtain ⟨z,hz,hweight,hc | ⟨hzw,hc,hzp⟩⟩ := hm y hy
      all_goals rw [ht,share,hweight]
      · have hl := h.lower z hz
        rw [share] at hl
        linarith
      · rw [min_eq_right (Nat.succ_le_of_lt hzw),Nat.cast_one]
        linarith
    · intro y hy hze
      obtain ⟨z,hz,hweight,hc | ⟨hzw,-⟩⟩ := hm y hy
      · have hz0 : z.weight = 0 := hweight.symm.trans hze
        rw [hc,h.zero z hz hz0,hz0]
        rfl
      · omega
    · intro hze
      rw [hf]
      have hze' : ∀ w ∈ b.nextItem.2.items.map weight, w = 0 := List.forall_mem_map.mpr hze
      rw [nextItem_map weight fun _ _ => rfl] at hze'
      exact h.equal_of_zero (by simpa using hze')

lemma Smooth.nextItem_positive (h : b.Smooth) (hpos : 0 < b.totalWeight) :
    ∃ x ∈ b.items, 0 < x.weight ∧ b.nextItem.1 = some x.item := by
  by_cases hp : b.equalWeight = true ∨ b.items.length ≤ 1
  · rw [h.total_eq,natCast_pos] at hpos
    obtain ⟨w,hw,hyw⟩ := List.exists_mem_ne_zero_of_sum_ne_zero hpos.ne'
    obtain ⟨y,hy,rfl⟩ := mem_map.mp hw
    obtain ⟨x,hx,hi⟩ := nextItem_mem h.index (List.ne_nil_of_mem hy)
    refine ⟨x,hx,?_,hi⟩
    rcases hp with he | hlen
    · exact pos_of_ne_zero (h.equal he x hx y hy ▸ hyw)
    · obtain ⟨z,hz⟩ : ∃ z, b.items = [z] := List.length_eq_one_iff.mp
        (le_antisymm hlen (length_pos_iff.mpr (List.ne_nil_of_mem hy)))
      rw [hz,List.mem_singleton] at hx hy
      exact pos_of_ne_zero (hx ▸ hy ▸ hyw)
  · have hr : b.Rounds := ⟨fun h => hp (.inl h),fun h => hp (.inr h)⟩
    obtain ⟨x,hx,-,hw⟩ := h.picked hr
    exact ⟨x,mem_of_getElem? hx,hw,by rw [nextItem_fst,hx,map_some]⟩

variable {xs : List (LbItem E)}

lemma new_of_fits (xs : List (LbItem E)) (hf : (xs.map weight).sum < 2^32) :
    (new xs).items = xs ∧ (new xs).totalWeight = toI32 (xs.map weight).sum ∧
      ((new xs).equalWeight = true ↔ ∀ x ∈ xs, ∀ y ∈ xs, x.weight = y.weight) := by
  obtain ⟨hi,ht,he⟩ := collectChecked_of_fits ⟨0,none,true⟩ xs (by simpa using hf)
  refine ⟨hi,?_,he.trans ?_⟩
  · change toI32 (collectChecked ⟨0,none,true⟩ xs).2.total = _
    rw [ht,zero_add]
  · cases xs with
    | nil => simp
    | cons z xs =>
      simp only [Option.none_or,List.head?_cons,map_some,Option.some.injEq]
      refine ⟨fun h x hx y hy => ?_,fun h => ⟨trivial,fun x hx w hw => ?_⟩⟩
      · rw [← h.2 x hx _ rfl,← h.2 y hy _ rfl]
      · rw [← hw]
        exact h z (by simp) x hx

lemma sum_share_le (xs : List (LbItem E)) : (xs.map share).sum ≤ ((xs.map weight).sum : ℕ) := by
  rw [Nat.cast_list_sum,map_map]
  exact sum_le_sum fun x _ => ofNat_le.mpr (min_le_left x.weight 1)

lemma smooth_new (hf : ∀ x ∈ xs, x.currentWeight = 0)
    (hle : (((xs.map weight).sum : ℕ) : ℤ) ≤ i32Max)
    (hsm : (xs.map share).sum*((xs.map weight).sum : ℕ) ≤ i32Max) :
    (new xs).Smooth ∧ (new xs).items = xs ∧ (new xs).totalWeight = ((xs.map weight).sum : ℕ) := by
  obtain ⟨hi,ht,he⟩ := new_of_fits xs (by simp only [i32Max] at hle; omega)
  rw [show toI32 (xs.map weight).sum = _ from min_eq_left hle] at ht
  refine ⟨⟨?_,?_,?_,?_,?_,?_,?_,new_indexInRange xs⟩,hi,ht⟩
  all_goals rw [hi]
  · rw [ht]
  · rw [ht]
    exact hsm
  · refine List.sum_eq_zero fun n hn => ?_
    obtain ⟨x,hx,rfl⟩ := mem_map.mp hn
    exact hf x hx
  · intro x hx
    rw [hf x hx,share]
    rcases eq_zero_or_pos x.weight with hw | hw
    · simp [hw]
    · have hweight := single_le_sum (fun _ _ => Nat.zero_le _) _
        (mem_map.mpr ⟨x,hx,rfl⟩ : x.weight ∈ xs.map weight)
      exact mul_nonpos_of_nonpos_of_nonneg (by omega) (natCast_nonneg _)
  · exact fun x hx _ => hf x hx
  · exact he.mp
  · exact fun hz => he.mpr fun x hx y hy => by rw [hz x hx,hz y hy]

def picks (b : WeightedRoundRobinBalancer E) (n i : ℕ) : ℕ :=
  (List.range n).countP fun k => decide ((b.after k).pick = i)

lemma after_add (b : WeightedRoundRobinBalancer E) (m n : ℕ) :
    b.after (m+n) = (b.after m).after n := by
  induction n with
  | zero => rfl
  | succ n ih => rw [← add_assoc,after,after,ih]

lemma after_keeps (b : WeightedRoundRobinBalancer E) (n : ℕ) :
    (b.after n).totalWeight = b.totalWeight ∧ (b.after n).equalWeight = b.equalWeight := by
  induction n with
  | zero => exact ⟨rfl,rfl⟩
  | succ n ih =>
    have hst : (b.after n).nextItem.2.totalWeight = (b.after n).totalWeight ∧
        (b.after n).nextItem.2.equalWeight = (b.after n).equalWeight := by
      unfold nextItem
      split_ifs <;> exact ⟨rfl,rfl⟩
    exact ⟨hst.1.trans ih.1,hst.2.trans ih.2⟩

lemma Smooth.after (h : b.Smooth) (n : ℕ) : (b.after n).Smooth := by
  induction n with
  | zero => exact h
  | succ n ih => exact ih.nextItem

lemma Rounds.after (h : b.Rounds) (n : ℕ) : (b.after n).Rounds := by
  have hlen := congrArg length (after_map item (fun _ _ => rfl) b n)
  rw [length_map,length_map] at hlen
  exact ⟨(after_keeps b n).2 ▸ h.unequal,hlen ▸ h.several⟩

lemma Smooth.getElem?_after (h : b.Smooth) (hr : b.Rounds) (n i : ℕ) :
    (b.after n).items[i]? = b.items[i]?.map fun x =>
      x.credit (n*x.weight - b.totalWeight*b.picks n i) := by
  induction n with
  | zero => simp [WeightedRoundRobinBalancer.after,picks,credit]
  | succ n ih =>
    rw [WeightedRoundRobinBalancer.after,(h.after n).getElem?_nextItem (hr.after n),ih,
      Option.map_map,(after_keeps b n).1]
    refine congrArg (Option.map · _) (funext fun x => ?_)
    simp only [Function.comp_apply,credit,picks,List.range_succ,List.countP_append,
      List.countP_singleton,decide_eq_true_eq]
    split_ifs <;> push_cast <;> ring

lemma Rounds.currentIndex_after (h : b.Rounds) (n : ℕ) :
    (b.after n).currentIndex = b.currentIndex := by
  induction n with
  | zero => rfl
  | succ n ih =>
    rw [WeightedRoundRobinBalancer.after,nextItem_eq (h.after n)]
    exact ih

/-- A balancer without credits has none after as many rounds as its total weight: they are
multiples of the total weight, above its negative, and add up to zero. -/
lemma Smooth.after_total (h : b.Smooth) (hr : b.Rounds)
    (hf : ∀ x ∈ b.items, x.currentWeight = 0) {T : ℕ} (hT : b.totalWeight = T) : b.after T = b := by
  have hpos := h.total_pos hr.unequal
  have hn : ∀ c ∈ (b.after T).items.map currentWeight, 0 ≤ c := by
    intro c hc
    obtain ⟨y,hy,rfl⟩ := mem_map.mp hc
    rcases eq_zero_or_pos y.weight with hw | hw
    · rw [(h.after T).zero y hy hw]
    · have hl := ((h.after T).bounds hy hw).2.1
      obtain ⟨i,hi⟩ := mem_iff_getElem?.mp hy
      rw [h.getElem?_after hr,map_eq_some_iff] at hi
      obtain ⟨x,hx,rfl⟩ := hi
      rw [(after_keeps b T).1] at hl
      simp only [credit,hf x (mem_of_getElem? hx),hT,zero_add,← mul_sub] at hl hpos ⊢
      refine mul_nonneg hpos.le (not_lt.mp fun hlt => ?_)
      nlinarith
  have hite : (b.after T).items = b.items := by
    apply List.ext_getElem?
    intro i
    cases hx : b.items[i]? with
    | none => rw [h.getElem?_after hr,hx,Option.map_none]
    | some x =>
      have hi := h.getElem?_after hr T i
      rw [hx,map_some] at hi
      have hcr := List.all_zero_of_le_zero_le_of_sum_eq_zero hn (h.after T).sum_zero
        (mem_map.mpr ⟨_,mem_of_getElem? hi,rfl⟩)
      simp only [credit] at hi hcr
      rw [hi,hcr,← hf x (mem_of_getElem? hx)]
  obtain ⟨ht,he⟩ := after_keeps b T
  calc b.after T = ⟨(b.after T).items,(b.after T).totalWeight,(b.after T).equalWeight,
      (b.after T).currentIndex⟩ := rfl
    _ = b := by rw [hite,ht,he,hr.currentIndex_after]

variable {weighted : List (ℕ × E)}

def ofWeighted (weighted : List (ℕ × E)) : WeightedRoundRobinBalancer E :=
  new (weighted.map fun p => LbItem.new p.1 p.2)

lemma weights_ofWeighted (w : List (ℕ × E)) :
    (w.map fun p => LbItem.new p.1 p.2).map weight = w.map Prod.fst := by
  rw [map_map]
  rfl

lemma ofWeighted_spec (hf : (weighted.map Prod.fst).sum < 2^32) :
    (ofWeighted weighted).items = weighted.map (fun p => LbItem.new p.1 p.2) ∧
      (ofWeighted weighted).totalWeight = toI32 (weighted.map Prod.fst).sum ∧
      ((ofWeighted weighted).equalWeight = true ↔ ∀ p ∈ weighted, ∀ q ∈ weighted, p.1 = q.1) := by
  obtain ⟨hi,ht,he⟩ := new_of_fits (weighted.map fun p => LbItem.new p.1 p.2)
    (by rwa [weights_ofWeighted])
  rw [weights_ofWeighted] at ht
  simp only [List.forall_mem_map] at he
  exact ⟨hi,ht,he⟩

lemma rounds_ofWeighted (hf : (weighted.map Prod.fst).sum < 2^32)
    (hu : ∃ p ∈ weighted, ∃ q ∈ weighted, p.1 ≠ q.1) : (ofWeighted weighted).Rounds := by
  obtain ⟨hite,-,he⟩ := ofWeighted_spec hf
  obtain ⟨p,hp,q,hq,hne⟩ := hu
  refine ⟨fun h => hne (he.mp h p hp q hq),fun hlen => ?_⟩
  rw [hite,length_map] at hlen
  obtain ⟨i,hi,rfl⟩ := List.mem_iff_getElem.mp hp
  obtain ⟨j,hj,rfl⟩ := List.mem_iff_getElem.mp hq
  obtain rfl : i = j := by omega
  exact hne rfl

lemma currentWeight_of_new (w : List (ℕ × E)) :
    ∀ x ∈ w.map fun p => LbItem.new p.1 p.2, x.currentWeight = 0 := by
  intro x hx
  obtain ⟨p,-,rfl⟩ := mem_map.mp hx
  rfl

lemma smooth_ofWeighted {T : ℕ} (hT : T = (weighted.map Prod.fst).sum) (hle : (T : ℤ) ≤ i32Max)
    (hf : ((weighted.length*T : ℕ) : ℤ) ≤ i32Max) : (ofWeighted weighted).Smooth ∧
      (ofWeighted weighted).items = weighted.map (fun p => LbItem.new p.1 p.2) ∧
      (ofWeighted weighted).totalWeight = T := by
  have hsh : ((weighted.map fun p => LbItem.new p.1 p.2).map share).sum ≤ weighted.length := by
    have hsu := List.sum_le_card_nsmul ((weighted.map fun p => LbItem.new p.1 p.2).map share) 1 (by
        intro c hc
        obtain ⟨x,-,rfl⟩ := mem_map.mp hc
        exact ofNat_le.mpr (min_le_right x.weight 1))
    simpa using hsu
  have hn := smooth_new (currentWeight_of_new weighted)
  rw [weights_ofWeighted,← hT] at hn
  refine hn hle ?_
  exact (mul_le_mul_of_nonneg_right hsh (natCast_nonneg T)).trans hf

/-- Over weights that are not all equal, any `T` answers in a row pick each item as often as
its weight says and lead back to where they began; the current weights always add up to
zero, no addition saturates, and no item of weight zero is picked. -/
theorem cycle_exact {T m : ℕ} {s : WeightedRoundRobinBalancer E}
    (hT : T = (weighted.map Prod.fst).sum)
    (hunequal : ∃ p ∈ weighted, ∃ q ∈ weighted, p.1 ≠ q.1)
    (hfits : ((weighted.length * T : ℕ) : ℤ) ≤ i32Max) (hs : s = (ofWeighted weighted).after m) :
    (∀ x ∈ (ofWeighted weighted).items, x.currentWeight = 0) ∧
      (∀ i p, weighted[i]? = some p → s.picks T i = p.1) ∧ s.after T = s ∧
      (s.items.map LbItem.currentWeight).sum = 0 ∧ (∀ x ∈ s.items, x.increaseCurrentWeight =
        { x with currentWeight := x.currentWeight + x.weight }) ∧
      ∃ x, s.items[s.pick]? = some x ∧ s.nextItem.1 = some x.item ∧ 0 < x.weight ∧
        x.increaseCurrentWeight.adjustCurrentWeight (-s.totalWeight) =
          { x with currentWeight := x.currentWeight + x.weight - T } := by
  have hle : (T : ℤ) ≤ i32Max := by
    obtain ⟨p,hp,-⟩ := hunequal
    have hlen := List.length_pos_of_mem hp
    push_cast at hfits
    nlinarith
  have hsl : (T : ℤ) < 2^32 := hle.trans_lt (by norm_num [i32Max])
  have hro := rounds_ofWeighted (hT ▸ by exact_mod_cast hsl) hunequal
  obtain ⟨hsm,hite,ht⟩ := smooth_ofWeighted hT hle hfits
  have hf : ∀ x ∈ (ofWeighted weighted).items, x.currentWeight = 0 :=
    hite ▸ currentWeight_of_new weighted
  have hpe : s.after T = s := by
    rw [hs,← after_add,add_comm,after_add,hsm.after_total hro hf ht]
  have hs' : s.Smooth := hs ▸ hsm.after m
  have hr : s.Rounds := hs ▸ hro.after m
  have hst : s.totalWeight = T := by rw [hs,(after_keeps _ m).1,ht]
  obtain ⟨x,hx,hpos,hw⟩ := hs'.picked hr
  have hm := mem_of_getElem? hx
  refine ⟨hf,fun i p hp => ?_,hpe,hs'.sum_zero,fun x hx => hs'.increase hx,
    x,hx,by rw [nextItem_fst,hx,map_some],hw,?_⟩
  · have hi := hs'.getElem?_after hr T i
    obtain ⟨y,hy,hweight⟩ : ∃ y, s.items[i]? = some y ∧ y.weight = p.1 := by
      rw [hs,hsm.getElem?_after hro m i,hite,getElem?_map,hp]
      exact ⟨_,rfl,rfl⟩
    rw [hpe,hy,map_some,Option.some.injEq,LbItem.mk.injEq,hst,← mul_sub] at hi
    have hz := (mul_eq_zero.mp (left_eq_add.mp hi.2.1)).resolve_left
      (hst ▸ (hs'.total_pos hr.unequal).ne')
    rw [← hweight]
    exact (ofNat_inj.mp (sub_eq_zero.mp hz)).symm
  · rw [hs'.increase hm,hs'.decrease hm hw hpos,hst]
    rfl

/-- The cycle of the weights 3 and 1 has four answers. -/
theorem cycle_three_one : (ofWeighted [(3, 'a'), (1, 'b')]).picks 4 0 = 3 ∧
    (ofWeighted [(3, 'a'), (1, 'b')]).picks 4 1 = 1 := by
  obtain ⟨-,hp,-⟩ := @cycle_exact Char [(3, 'a'),(1, 'b')] 4 0 _ rfl
    ⟨(3, 'a'),by decide,(1, 'b'),by decide,by decide⟩ (by decide) rfl
  exact ⟨hp 0 _ rfl,hp 1 _ rfl⟩

lemma i32Min_le_saturatingAdd (a c : ℤ) : i32Min ≤ saturatingAdd a c ∧ saturatingAdd a c ≤ i32Max :=
  ⟨le_max_left ..,max_le (by norm_num [i32Min,i32Max]) (min_le_left ..)⟩

/-- Current weights are 32-bit. -/
def InRange (b : WeightedRoundRobinBalancer E) : Prop :=
  ∀ x ∈ b.items, i32Min ≤ x.currentWeight ∧ x.currentWeight ≤ i32Max

lemma Rounds.inRange_nextItem (h : b.Rounds) : b.nextItem.2.InRange := by
  intro y hy
  obtain ⟨i,hi⟩ := mem_iff_getElem?.mp hy
  rw [h.getElem?_nextItem,map_eq_some_iff] at hi
  obtain ⟨x,-,rfl⟩ := hi
  split_ifs <;> exact i32Min_le_saturatingAdd ..

/-- An item whose current weight cannot rise is passed over only for an earlier one, whose
current weight is as high: those before it lose more than their weights give. -/
lemma Rounds.sum_take_nextItem (h : b.Rounds) (hrange : b.InRange)
    (ht : 0 ≤ b.totalWeight ∧ b.totalWeight ≤ i32Max) {i : ℕ} (hx : b.items[i]? = some x)
    (hf : x.increaseCurrentWeight.currentWeight = i32Max) (hp : b.pick ≠ i) :
    ((b.nextItem.2.items.take i).map currentWeight).sum ≤ ((b.items.take i).map currentWeight).sum +
        ((b.items.take i).map fun y => toI32 y.weight).sum - b.totalWeight := by
  have hr : (b.items.map increaseCurrentWeight)[i]? = some x.increaseCurrentWeight := by
    rw [getElem?_map,hx,map_some]
  have hle : ∀ y ∈ b.items.take i, y.increaseCurrentWeight.currentWeight ≤
      y.currentWeight+toI32 y.weight := by
    intro y hy
    refine max_le ?_ (min_le_right ..)
    have hweight : 0 ≤ toI32 y.weight := le_min (natCast_nonneg _) (by norm_num [i32Max])
    linarith [(hrange y (List.mem_of_mem_take hy)).1]
  have hsu := sum_le_sum hle
  rw [sum_map_add] at hsu
  rw [pick_eq h] at hp
  rw [nextItem_eq h,pick_eq h]
  obtain ⟨y,hy,hmax,hb⟩ := exists_bestIndex (mem_of_getElem? hr) (hf ▸ by decide)
  have hyt : y.currentWeight ≤ i32Max := by
    obtain ⟨z,-,rfl⟩ := mem_map.mp (mem_of_getElem? hy)
    exact (i32Min_le_saturatingAdd ..).2
  have hyf : y.currentWeight = i32Max := hyt.antisymm (hf ▸ hmax _ (mem_of_getElem? hr))
  have hlt : bestIndex (b.items.map increaseCurrentWeight) < i := by
    refine lt_of_le_of_ne (not_lt.mp fun hlt => ?_) hp
    exact absurd (hb i hlt _ hr) (by rw [hf,hyf]; exact lt_irrefl _)
  have hro := sum_map_modify currentWeight (adjustCurrentWeight (-b.totalWeight))
    ((List.getElem?_take_of_lt hlt).trans hy)
  have hl : (y.adjustCurrentWeight (-b.totalWeight)).currentWeight = i32Max - b.totalWeight := by
    have hmi := i32Min_eq
    rw [adjustCurrentWeight,hyf]
    exact saturatingAdd_of_mem (by omega) (by omega)
  rw [← map_take,map_map] at hro
  rw [List.take_modify,← map_take]
  simp only [Function.comp_def] at hro
  linarith

lemma Rounds.inRange_after (h : b.Rounds) (hrange : b.InRange) (n : ℕ) : (b.after n).InRange := by
  cases n with
  | zero => exact hrange
  | succ n => exact (h.after n).inRange_nextItem

section
variable {i n : ℕ} (h : b.Rounds) (hrange : b.InRange) (hx : b.items[i]? = some x)
  (hweight : 0 < x.weight) (hnot : ∀ k < n, (b.after k).pick ≠ i)
include h hrange hx hweight hnot

lemma Rounds.rises : ∃ y, (b.after n).items[i]? = some y ∧ y.weight = x.weight ∧
    min i32Max (x.currentWeight+n) ≤ y.currentWeight := by
  induction n with
  | zero => exact ⟨x,hx,rfl,by simp [(hrange x (mem_of_getElem? hx)).2]⟩
  | succ n ih =>
    obtain ⟨y,hy,hyw,hle⟩ := ih fun k hk => hnot k (by omega)
    refine ⟨y.increaseCurrentWeight,?_,hyw,?_⟩
    · rw [WeightedRoundRobinBalancer.after,(h.after n).getElem?_nextItem,hy,map_some,if_neg (hnot n (by omega))]
    · rw [increaseCurrentWeight,adjustCurrentWeight,saturatingAdd,toI32]
      simp only [i32Max] at hle ⊢
      omega

lemma Rounds.sum_take_after (ht : 0 ≤ b.totalWeight ∧ b.totalWeight ≤ i32Max)
    (hlt : ((b.items.take i).map fun y => toI32 y.weight).sum < b.totalWeight)
    (hf : x.currentWeight = i32Max) : (((b.after n).items.take i).map currentWeight).sum ≤
      ((b.items.take i).map currentWeight).sum - n := by
  induction n with
  | zero => simp [WeightedRoundRobinBalancer.after]
  | succ n ih =>
    have hb : ∀ k < n, (b.after k).pick ≠ i := fun k hk => hnot k (by omega)
    obtain ⟨y,hy,hyw,hle⟩ := h.rises hrange hx hweight hb
    have hyf : y.increaseCurrentWeight.currentWeight = i32Max := by
      rw [increaseCurrentWeight,adjustCurrentWeight,saturatingAdd,toI32]
      simp only [hf,i32Min] at hle ⊢
      omega
    have hw : ((b.after n).items.take i).map (fun y => toI32 y.weight) =
        (b.items.take i).map fun y => toI32 y.weight := by
      rw [map_take,map_take,after_map _ fun _ _ => rfl]
    have hst := (h.after n).sum_take_nextItem (h.inRange_after hrange n)
      (by rwa [(after_keeps b n).1]) hy hyf (hnot n (by omega))
    rw [hw,(after_keeps b n).1] at hst
    have hr := ih hb
    rw [WeightedRoundRobinBalancer.after]
    push_cast
    linarith

end

lemma InRange.sum_take (h : b.InRange) (i : ℕ) :
    -(i*2^31 : ℤ) ≤ ((b.items.take i).map currentWeight).sum ∧
      ((b.items.take i).map currentWeight).sum ≤ i*2^31 := by
  have hm : ∀ c ∈ (b.items.take i).map currentWeight, -2^31 ≤ c ∧ c ≤ 2^31 := by
    intro c hc
    obtain ⟨y,hy,rfl⟩ := mem_map.mp hc
    have hy := h y (List.mem_of_mem_take hy)
    simp only [i32Min,i32Max] at hy
    omega
  have hlen : (((b.items.take i).map currentWeight).length : ℤ) ≤ i := by
    rw [length_map]
    exact_mod_cast List.length_take_le i b.items
  have hl := List.card_nsmul_le_sum _ _ fun c hc => (hm c hc).1
  have hup := List.sum_le_card_nsmul _ _ fun c hc => (hm c hc).2
  rw [nsmul_eq_mul] at hl hup
  constructor <;> nlinarith

lemma Rounds.picked_within (h : b.Rounds) (hrange : b.InRange) {i : ℕ}
    (ht : 0 ≤ b.totalWeight ∧ b.totalWeight ≤ i32Max)
    (hlt : ((b.items.take i).map fun y => toI32 y.weight).sum < b.totalWeight)
    (hx : b.items[i]? = some x) (hweight : 0 < x.weight) :
    ∃ k < (i+2)*2^32, (b.after k).pick = i := by
  by_contra hno
  have hnot : ∀ k < (i+2)*2^32, (b.after k).pick ≠ i := fun k hk hp => hno ⟨k,hk,hp⟩
  have hl := (hrange x (mem_of_getElem? hx)).1
  obtain ⟨y,hy,hyw,hle⟩ := h.rises hrange hx hweight (n := 2^32) fun k hk => hnot k (by omega)
  have hf : y.currentWeight = i32Max := by
    have hto := (h.inRange_after hrange _ y (mem_of_getElem? hy)).2
    simp only [i32Max,i32Min] at hle hl hto ⊢
    omega
  have hke := after_keeps b (2^32)
  have hd := (h.after (2^32)).sum_take_after (h.inRange_after hrange _) hy (hyw ▸ hweight)
    (n := (i+1)*2^32) (fun k hk => by rw [← after_add]; exact hnot _ (by omega))
    (by rwa [hke.1]) (by
      rw [map_take,after_map _ fun _ _ => rfl,hke.1,← map_take]
      exact hlt) hf
  have hl := ((h.inRange_after hrange (2^32+(i+1)*2^32)).sum_take i).1
  have hup := ((h.inRange_after hrange (2^32)).sum_take i).2
  have hc : (((i+1)*2^32 : ℕ) : ℤ) = (i+1)*2^32 := by push_cast; rfl
  rw [after_add] at hl
  linarith

variable {weighted : List (ℕ × E)}

lemma sum_take_lt (hpo : ∀ p ∈ weighted, 1 ≤ p.1) {i : ℕ} {p : ℕ × E} (hp : weighted[i]? = some p)
    (hsm : (((weighted.dropLast.map Prod.fst).sum : ℕ) : ℤ) < i32Max) :
    ((weighted.take i).map fun p => toI32 p.1).sum < toI32 (weighted.map Prod.fst).sum := by
  have hle : ((weighted.take i).map fun p => toI32 p.1).sum ≤
      (((weighted.take i).map Prod.fst).sum : ℕ) := by
    rw [Nat.cast_list_sum,map_map]
    exact sum_le_sum fun p _ => min_le_left ..
  obtain ⟨hi,rfl⟩ := List.getElem?_eq_some_iff.mp hp
  refine lt_min (hle.trans_lt ?_) ((hle.trans ?_).trans_lt hsm)
  · have hsp := congrArg (fun l => (l.map Prod.fst).sum) (List.take_append_drop i weighted)
    simp only [List.drop_eq_getElem_cons hi,List.map_append,map_cons,List.sum_append,
      sum_cons] at hsp
    have ho := hpo _ (List.getElem_mem hi)
    omega
  · rw [List.dropLast_eq_take]
    exact ofNat_le.mpr (((List.take_sublist_take_left (by omega)).map _).sum_le_sum
      fun _ _ => Nat.zero_le _)

/-- Positive weights starve nobody if they are equal or if those of all items but the last
add up to less than the greatest 32-bit integer. -/
theorem not_starved (hpositive : ∀ p ∈ weighted, 1 ≤ p.1)
    (hfits : (weighted.map Prod.fst).sum < 2 ^ 32)
    (hsmall : (∀ p ∈ weighted, ∀ q ∈ weighted, p.1 = q.1) ∨
      (((weighted.dropLast.map Prod.fst).sum : ℕ) : ℤ) < i32Max) :
    ∃ N, ∀ m i p, weighted[i]? = some p → ∃ k < N, ((ofWeighted weighted).after (m + k)).pick = i ∧
      ((ofWeighted weighted).after (m + k)).nextItem.1 = some p.2 := by
  obtain ⟨hite,ht,he⟩ := ofWeighted_spec hfits
  refine ⟨(weighted.length+2)*2^32,fun m i p hp => ?_⟩
  have hi := (List.getElem?_eq_some_iff.mp hp).1
  have hlen : ((ofWeighted weighted).after m).items.length = weighted.length := by
    rw [← length_map item,after_map _ fun _ _ => rfl,hite,length_map,length_map]
  suffices hpi : ∃ k < (weighted.length+2)*2^32,
      (((ofWeighted weighted).after m).after k).pick = i by
    obtain ⟨k,hk,hpi⟩ := hpi
    rw [← after_add] at hpi
    refine ⟨k,hk,hpi,nextItem_after (x := LbItem.new p.1 p.2) _ ?_⟩
    rw [hpi,hite,getElem?_map,hp,map_some]
  by_cases ha : ∀ p ∈ weighted, ∀ q ∈ weighted, p.1 = q.1
  · obtain ⟨k,hk,hpi⟩ := exists_pick_of_equalWeight
      (after_indexInRange (b := ofWeighted weighted) (new_indexInRange _) m)
      ((after_keeps (ofWeighted weighted) m).2.trans (he.mpr ha)) (hlen ▸ hi)
    exact ⟨k,by omega,hpi⟩
  · have hr := rounds_ofWeighted hfits (by push Not at ha; exact ha)
    have hrange : (ofWeighted weighted).InRange := by
      intro x hx
      rw [hite] at hx
      rw [currentWeight_of_new weighted x hx]
      norm_num [i32Min,i32Max]
    obtain ⟨x,hx,hweight⟩ : ∃ x, ((ofWeighted weighted).after m).items[i]? = some x ∧
        x.weight = p.1 := by
      have hm := congrArg (·[i]?) (after_map weight (fun _ _ => rfl) (ofWeighted weighted) m)
      simp only [hite,getElem?_map,hp] at hm
      exact map_eq_some_iff.mp hm
    obtain ⟨k,hk,hpi⟩ := (hr.after m).picked_within (hr.inRange_after hrange m) (i := i) (by
        rw [(after_keeps _ m).1]
        exact ⟨le_min (natCast_nonneg _) (by norm_num [i32Max]),min_le_right ..⟩)
      (by
        rw [(after_keeps _ m).1,ht,map_take,after_map _ fun _ _ => rfl,hite,map_map,← map_take]
        exact sum_take_lt hpositive hp (hsmall.resolve_left ha))
      hx (hweight ▸ hpositive p (mem_of_getElem? hp))
    exact ⟨k,hk.trans_le (Nat.mul_le_mul_right _ (by omega)),hpi⟩

def lopsided : List (ℕ × Char) := [(2^31 - 1, 'a'),(1, 'b')]

lemma after_lopsided (m : ℕ) : ∃ c, (ofWeighted lopsided).after m =
      ⟨[⟨2^31 - 1,0, 'a'⟩,⟨1,c, 'b'⟩],i32Max,false,0⟩ ∧
    ((ofWeighted lopsided).after m).pick = 0 := by
  have hr : saturatingAdd 0 (toI32 (2^31 - 1)) = i32Max := by decide
  have hl : saturatingAdd i32Max (-i32Max) = 0 := by decide
  have hp : ∀ c, (⟨[⟨2^31 - 1,0, 'a'⟩,⟨1,c, 'b'⟩],i32Max,false,0⟩ :
      WeightedRoundRobinBalancer Char).pick = 0 := by
    intro c
    have hle := (i32Min_le_saturatingAdd c (toI32 1)).2
    have hlt : i32Min < i32Max := by decide
    simp only [pick,bestIndex,increaseCurrentWeight,adjustCurrentWeight,
      map_cons,hr,List.zipIdx_cons,List.foldl_cons,if_pos hlt,if_neg hle.not_gt]
    rfl
  induction m with
  | zero =>
    have hst : (ofWeighted lopsided).after 0 = ⟨[⟨2^31 - 1,0, 'a'⟩,⟨1,0, 'b'⟩],i32Max,
        false,0⟩ := by decide
    exact ⟨0,hst,by rw [hst,hp]⟩
  | succ m ih =>
    obtain ⟨c,heq,-⟩ := ih
    have hn : (ofWeighted lopsided).after (m+1) =
        ⟨[⟨2^31 - 1,0, 'a'⟩,⟨1,saturatingAdd c (toI32 1), 'b'⟩],i32Max,false,0⟩ := by
      rw [after,heq,nextItem_eq ⟨Bool.false_ne_true,by simp⟩,hp]
      simp only [increaseCurrentWeight,adjustCurrentWeight,map_cons,
        List.map_nil,hr,List.modify_zero_cons,hl]
    exact ⟨_,hn,by rw [hn,hp]⟩

/-- An item whose weight alone is the greatest 32-bit integer is always picked again. -/
theorem lopsided_starved : (∀ p ∈ lopsided, 1 ≤ p.1) ∧ (lopsided.map Prod.fst).sum < 2 ^ 32 ∧
    ¬ ∃ N, ∀ m i p, lopsided[i]? = some p → ∃ k < N,
      ((ofWeighted lopsided).after (m + k)).pick = i := by
  refine ⟨by decide,by decide,?_⟩
  rintro ⟨N,hN⟩
  obtain ⟨k,-,hk⟩ := hN 0 1 _ rfl
  obtain ⟨c,-,hp⟩ := after_lopsided (0+k)
  rw [hp] at hk
  cases hk

/-- The other way round both are served. -/
theorem lopsided_reverse_served : (((lopsided.reverse.dropLast.map Prod.fst).sum : ℕ) : ℤ) < i32Max ∧
    ∃ N, ∀ m, ∃ k < N, ((ofWeighted lopsided.reverse).after (m + k)).nextItem.1 = some 'b' := by
  have hsm : (((lopsided.reverse.dropLast.map Prod.fst).sum : ℕ) : ℤ) < i32Max := by decide
  obtain ⟨N,hN⟩ := @not_starved Char lopsided.reverse (by decide) (by decide) (.inr hsm)
  refine ⟨hsm,N,fun m => ?_⟩
  obtain ⟨k,hk,-,hi⟩ := hN m 0 _ rfl
  exact ⟨k,hk,hi⟩

end WeightedRoundRobinBalancer

end ArionGateway.RoundRobin
