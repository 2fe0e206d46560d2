import Mathlib.Algebra.Order.Group.MinMax
import Mathlib.Data.List.Sort
import Mathlib.Data.Rat.Floor
import Mathlib.Tactic.Positivity

/-!
# Loads of the priority levels

`Priority::calculate_priority_loads`, with the floating point numbers read as
rationals and `x / 0` as 0. The health of a level is 1.4 times its percentage
of healthy endpoints, and the percentage is an integer division of 32-bit
numbers: it is 0 for a level with few healthy endpoints among many.

A level whose percentage is 0 gets no load, the loads add up to at most 100,
and some level gets a load as soon as some percentage is positive.
-/
namespace ArionGateway.PriorityLoads
open List
open Prod (snd fst)

structure PriorityInfo (B : Type) where
  balancer : B
  healthy : ℕ
  total : ℕ
  deriving DecidableEq

/-- `100 * healthy / total` on `u32`, where the product wraps. -/
def percentage (healthy total : ℕ) : ℕ := 100*healthy % 2^32 / total

def calculatePriorityHealth (healthy total : ℕ) : ℚ :=
  min 100 (7 / 5*percentage healthy total)

def addLoad (normalizedTotalHealth : ℚ) (pLoad : List (ℕ × ℚ)) (level : ℕ × ℚ) : List (ℕ × ℚ) :=
  let load := 100 - (pLoad.map Prod.snd).sum
  let normalizedHealth := level.2*100 / normalizedTotalHealth
  pLoad++[(level.1, min load normalizedHealth)]

/-- The loads before rounding. Without levels `remove(0)` panics in the source. -/
def priorityLoads (priorityHealth : List (ℕ × ℚ)) : List (ℕ × ℚ) :=
  let normalizedTotalHealth := min 100 (priorityHealth.map Prod.snd).sum
  match priorityHealth with
  | [] => []
  | (k, p)::rest =>
    rest.foldl (addLoad normalizedTotalHealth) [(k, p*100 / normalizedTotalHealth)]

/-- `f64::round(f) as u32` for a load. -/
def roundLoad (f : ℚ) : ℕ := ⌊f+1 / 2⌋₊

def calculatePriorityLoads {B : Type} (endpoints : List (ℕ × PriorityInfo B)) : List (ℕ × ℕ) :=
  let sortedEndpoints := endpoints.insertionSort fun a b => a.1 ≤ b.1
  let priorityHealth := sortedEndpoints.map fun (k, v) =>
    (k, calculatePriorityHealth v.healthy v.total)
  (priorityLoads priorityHealth).map fun (k, f) => (k, roundLoad f)

section

/-- What has been given away once levels with a health of `S` together have their loads. -/
def given (N S : ℚ) : ℚ := min 100 (S*100 / N)

/-- The loads in closed form: each one is what its level adds to what is given away. -/
def loadsFrom (N : ℚ) : ℚ → List (ℕ × ℚ) → List (ℕ × ℚ)
  | _, [] => []
  | S, x::rest => (x.1, given N (S+x.2) - given N S)::loadsFrom N (S+x.2) rest

variable {N S : ℚ}

lemma given_add (N S x : ℚ) : given N (S+x) = min 100 (S*100 / N+x*100 / N) := by
  rw [given,add_mul,add_div]

lemma addLoad_loop (hN : 0 ≤ N) (rest acc : List (ℕ × ℚ)) (hr : ∀ x ∈ rest, 0 ≤ x.2)
    (ha : (acc.map snd).sum = given N S) :
    rest.foldl (addLoad N) acc = acc++loadsFrom N S rest := by
  induction rest generalizing acc S with
  | nil => simp [loadsFrom]
  | cons x rest ih =>
    have hsh : 0 ≤ x.2*100 / N := div_nonneg (by linarith [hr x (by simp)]) hN
    have hl : addLoad N acc x = acc++[(x.1, given N (S+x.2) - given N S)] := by
      -- with 100 given away there is nothing left, and before that all of the share fits or
      -- the rest of 100 is given
      rw [addLoad,ha,given_add,given]
      rcases le_total 100 (S*100 / N) with hal | hls
      · rw [min_eq_left hal,min_eq_left (hal.trans (by linarith)),sub_self,min_eq_left hsh]
      · rw [min_eq_right hls,← min_sub_sub_right,add_sub_cancel_left]
    rw [foldl_cons,hl,ih _ (fun y hy => hr y (by simp [hy])) (S := S+x.2) ?_]
    · simp [loadsFrom]
    · simp [ha]

lemma sum_loadsFrom (hs : List (ℕ × ℚ)) : ((loadsFrom N S hs).map snd).sum =
    given N (S+(hs.map snd).sum) - given N S := by
  induction hs generalizing S with
  | nil => simp [loadsFrom]
  | cons x hs ih =>
    simp only [loadsFrom,map_cons,sum_cons,ih]
    ring

/-- Loads stand level by level beside the healths they come from. -/
def Assigned (hs ls : List (ℕ × ℚ)) : Prop :=
  List.Forall₂ (fun h l => l.1 = h.1 ∧ 0 ≤ l.2 ∧ (h.2 = 0 → l.2 = 0)) hs ls

lemma assigned_loadsFrom (hN : 0 ≤ N) {hs : List (ℕ × ℚ)} (h : ∀ x ∈ hs, 0 ≤ x.2) :
    Assigned hs (loadsFrom N S hs) := by
  induction hs generalizing S with
  | nil => exact .nil
  | cons x hs ih =>
    have hx := h x (by simp)
    refine .cons ⟨rfl,sub_nonneg.mpr ?_,fun hz => ?_⟩ (ih fun y hy => h y (by simp [hy]))
    · rw [given_add]
      exact min_le_min_left _ (le_add_of_nonneg_right (div_nonneg (by linarith) hN))
    · rw [hz,add_zero,sub_self]

lemma lt_hundred_of_load (hN : 0 < N) (hN' : N ≤ 100) {hs : List (ℕ × ℚ)}
    (h : ∀ x ∈ hs, 0 ≤ x.2) (hso : hs.Pairwise fun a b => a.1 ≤ b.1) {l : ℕ × ℚ}
    (hl : l ∈ loadsFrom N S hs) (hpos : 0 < l.2) :
    S+((hs.filter (·.1 < l.1)).map snd).sum < 100 := by
  induction hs generalizing S with
  | nil => cases hl
  | cons x hs ih =>
    obtain ⟨hf,hso⟩ := pairwise_cons.mp hso
    rcases mem_cons.mp hl with rfl | hl
    · have hn : (x::hs).filter (·.1 < x.1) = [] := by
        simpa using hf
      have hls : S*100 / N < 100 := by
        by_contra hge
        have hfu : given N S = 100 := min_eq_left (not_lt.mp hge)
        have hm : given N (S+x.2) ≤ 100 := min_le_left ..
        linarith
      rw [div_lt_iff₀ hN] at hls
      simp only [hn,map_nil,sum_nil]
      linarith
    · have hr := ih (fun y hy => h y (by simp [hy])) hso hl
      have hx := h x (by simp)
      by_cases hlt : x.1 < l.1
      · rw [filter_cons,if_pos (decide_eq_true hlt),map_cons,sum_cons]
        linarith
      · rw [filter_cons,if_neg (by simpa using hlt)]
        linarith

def Healths (hs : List (ℕ × ℚ)) : Prop := ∀ x ∈ hs, x.2 = 0 ∨ 1 ≤ x.2 ∧ x.2 ≤ 100

variable {hs : List (ℕ × ℚ)}

lemma Healths.nonneg (h : Healths hs) {x : ℕ × ℚ} (hx : x ∈ hs) : 0 ≤ x.2 := by
  rcases h x hx with h | h
  · exact h.ge
  · linarith [h.1]

lemma Healths.le_sum (h : Healths hs) {x : ℕ × ℚ} (hx : x ∈ hs) : x.2 ≤ (hs.map snd).sum := by
  apply single_le_sum
  · intro y hy
    obtain ⟨z,hz,rfl⟩ := mem_map.mp hy
    exact h.nonneg hz
  · exact mem_map.mpr ⟨x,hx,rfl⟩

lemma Healths.total_nonneg (h : Healths hs) : 0 ≤ min 100 (hs.map snd).sum := by
  refine le_min (by norm_num) (sum_nonneg ?_)
  intro y hy
  obtain ⟨z,hz,rfl⟩ := mem_map.mp hy
  exact h.nonneg hz

lemma Healths.le_total (h : Healths hs) {x : ℕ × ℚ} (hx : x ∈ hs) :
    x.2 ≤ min 100 (hs.map snd).sum := by
  refine le_min ?_ (h.le_sum hx)
  rcases h x hx with hz | hle
  · rw [hz]
    norm_num
  · exact hle.2

lemma priorityLoads_eq (h : Healths hs) :
    priorityLoads hs = loadsFrom (min 100 (hs.map snd).sum) 0 hs := by
  have hN := h.total_nonneg
  cases hs with
  | nil => rfl
  | cons x rest =>
    have hx := h.le_total (x := x) (by simp)
    unfold priorityLoads
    dsimp only
    set N := min 100 ((x::rest).map snd).sum
    have hf : x.2*100 / N = given N (0+x.2) - given N 0 := by
      rw [zero_add,given,given,zero_mul,zero_div,min_eq_right,min_eq_right,sub_zero]
      · norm_num
      · exact div_le_of_le_mul₀ hN (by norm_num) (by linarith)
    rw [addLoad_loop hN rest _ (fun y hy => h.nonneg (by simp [hy])) (S := 0+x.2),hf]
    · rfl
    · rw [hf]
      simp [given]

lemma priorityLoads_assigned (h : Healths hs) :
    Assigned hs (priorityLoads hs) ∧ ((priorityLoads hs).map snd).sum ≤ 100 := by
  rw [priorityLoads_eq h,sum_loadsFrom]
  refine ⟨assigned_loadsFrom h.total_nonneg fun _ => h.nonneg,?_⟩
  simp [given]

lemma loadsFrom_pos (hN : 0 < N) (hN' : N ≤ 100) {hs : List (ℕ × ℚ)} (h : Healths hs)
    (hex : ∃ x ∈ hs, x.2 ≠ 0) : ∃ l ∈ loadsFrom N 0 hs, 1 ≤ l.2 := by
  induction hs with
  | nil => simp at hex
  | cons x hs ih =>
    rw [loadsFrom]
    rcases h x (by simp) with hze | ⟨ho,-⟩
    · obtain ⟨y,hy,hne⟩ := hex
      rcases mem_cons.mp hy with rfl | hy
      · exact absurd hze hne
      · obtain ⟨l,hl,ho⟩ := ih (fun z hz => h z (by simp [hz])) ⟨y,hy,hne⟩
        exact ⟨l,by simp [hze,hl],ho⟩
    · refine ⟨_,mem_cons_self,?_⟩
      simp only [given,zero_mul,zero_div]
      rw [min_eq_right (by norm_num : (0 : ℚ) ≤ 100),sub_zero,le_min_iff,le_div_iff₀ hN]
      exact ⟨by norm_num,by linarith⟩

lemma Healths.total_pos (h : Healths hs) (hex : ∃ x ∈ hs, x.2 ≠ 0) :
    0 < min 100 (hs.map snd).sum := by
  obtain ⟨x,hx,hne⟩ := hex
  exact lt_of_lt_of_le (lt_of_le_of_ne (h.nonneg hx) hne.symm) (h.le_total hx)

end

lemma roundLoad_zero : roundLoad 0 = 0 := by
  norm_num [roundLoad]

lemma roundLoad_le {f : ℚ} (h : 0 ≤ f) : (roundLoad f : ℚ) ≤ 2*f := by
  have hf : (roundLoad f : ℚ) ≤ f+1 / 2 := Nat.floor_le (by linarith)
  by_cases hh : f < 1 / 2
  · have hz : roundLoad f = 0 := Nat.floor_eq_zero.mpr (by linarith)
    rw [hz]
    push_cast
    linarith
  · linarith [not_lt.mp hh]

variable {B : Type} {endpoints : List (ℕ × PriorityInfo B)}

lemma calculatePriorityHealth_eq_zero_iff (healthy total : ℕ) :
    calculatePriorityHealth healthy total = 0 ↔ percentage healthy total = 0 := by
  constructor
  · intro h
    by_contra hne
    have ho : (1 : ℚ) ≤ percentage healthy total := by
      exact_mod_cast pos_of_ne_zero hne
    have hle : 1 ≤ calculatePriorityHealth healthy total := le_min (by norm_num) (by linarith)
    linarith
  · intro h
    rw [calculatePriorityHealth,h]
    norm_num

/-- The levels in the order of their keys, with their healths. -/
def levelHealths (endpoints : List (ℕ × PriorityInfo B)) : List (ℕ × ℚ) :=
  (endpoints.insertionSort fun a b => a.1 ≤ b.1).map fun x =>
    (x.1, calculatePriorityHealth x.2.healthy x.2.total)

lemma mem_levelHealths {x : ℕ × ℚ} : x ∈ levelHealths endpoints ↔
    ∃ e ∈ endpoints, x = (e.1, calculatePriorityHealth e.2.healthy e.2.total) := by
  simp only [levelHealths,mem_map,mem_insertionSort]
  exact exists_congr fun e => and_congr_right fun _ => eq_comm

variable (en : List (ℕ × PriorityInfo B))

lemma healths_levelHealths : Healths (levelHealths en) := by
  intro x hx
  obtain ⟨e,-,rfl⟩ := mem_levelHealths.mp hx
  dsimp only [calculatePriorityHealth]
  rcases eq_zero_or_pos (percentage e.2.healthy e.2.total) with hz | hpos
  · left
    rw [hz]
    norm_num
  · right
    have ho : (1 : ℚ) ≤ percentage e.2.healthy e.2.total := by exact_mod_cast hpos
    exact ⟨le_min (by norm_num) (by linarith),min_le_left ..⟩

lemma calculatePriorityLoads_eq : calculatePriorityLoads en =
      (priorityLoads (levelHealths en)).map fun l => (l.1, roundLoad l.2) := rfl

def counters (level : ℕ × PriorityInfo B) : ℕ × ℕ × ℕ := (level.1, level.2.healthy, level.2.total)

lemma levelHealths_eq : levelHealths en = ((en.map counters).insertionSort fun a b => a.1 ≤ b.1).map
      fun c => (c.1, calculatePriorityHealth c.2.1 c.2.2) := by
  rw [← map_insertionSort (fun a b : ℕ × PriorityInfo B => a.1 ≤ b.1) _ counters en
    fun _ _ _ _ => Iff.rfl,map_map]
  rfl

lemma calculatePriorityLoads_congr {endpoints' : List (ℕ × PriorityInfo B)}
    (h : endpoints.map counters = endpoints'.map counters) :
    calculatePriorityLoads endpoints = calculatePriorityLoads endpoints' := by
  rw [calculatePriorityLoads_eq,calculatePriorityLoads_eq,levelHealths_eq,levelHealths_eq,h]

lemma pairwise_levelHealths : (levelHealths en).Pairwise fun a b => a.1 ≤ b.1 :=
  pairwise_map.mpr (pairwise_insertionSort (fun a b => a.1 ≤ b.1) en)

/-- With some health, the loads add up to 100, a level without health gets none, a level gets
one only if the more preferred ones have less than 100 together, and the order in which the
map lists its levels does not matter. -/
theorem loads_sum_to_hundred (endpoints : List (ℕ × PriorityInfo B))
    (hpos : 0 < ((levelHealths endpoints).map Prod.snd).sum) :
    Assigned (levelHealths endpoints) (priorityLoads (levelHealths endpoints)) ∧
      ((priorityLoads (levelHealths endpoints)).map Prod.snd).sum = 100 ∧
      (∀ l ∈ priorityLoads (levelHealths endpoints), 0 < l.2 →
        (((levelHealths endpoints).filter (·.1 < l.1)).map Prod.snd).sum < 100) ∧
      ∀ listed : List (ℕ × PriorityInfo B), listed.Perm endpoints → (endpoints.map Prod.fst).Nodup →
        priorityLoads (levelHealths listed) = priorityLoads (levelHealths endpoints) := by
  have hh := healths_levelHealths endpoints
  have hN : 0 < min 100 ((levelHealths endpoints).map snd).sum := lt_min (by norm_num) hpos
  refine ⟨(priorityLoads_assigned hh).1,?_,?_,fun listed hp hn => ?_⟩
  · have ha : 100 ≤ ((levelHealths endpoints).map snd).sum*100 /
        min 100 ((levelHealths endpoints).map snd).sum := by
      rw [le_div_iff₀ hN,mul_comm]
      exact mul_le_mul_of_nonneg_right (min_le_right ..) (by norm_num)
    rw [priorityLoads_eq hh,sum_loadsFrom,zero_add,given,min_eq_left ha]
    norm_num [given]
  · intro l hl hlo
    rw [priorityLoads_eq hh] at hl
    simpa using lt_hundred_of_load hN (min_le_left ..) (fun _ => hh.nonneg)
      (pairwise_levelHealths endpoints) hl hlo
  · have hm : (levelHealths listed).Perm (levelHealths endpoints) :=
      (((perm_insertionSort _ listed).trans hp).trans
        (perm_insertionSort _ endpoints).symm).map _
    refine congrArg priorityLoads (List.Perm.eq_of_pairwise ?_ (pairwise_levelHealths listed)
      (pairwise_levelHealths endpoints) hm)
    intro x y hx hy hxy hyx
    obtain ⟨e,he,rfl⟩ := mem_levelHealths.mp hx
    obtain ⟨e',he',rfl⟩ := mem_levelHealths.mp hy
    rw [inj_on_of_nodup_map hn (hp.mem_iff.mp he) he' (le_antisymm hxy hyx)]

def halfHealthy : List (ℕ × PriorityInfo Unit) := [(1, ⟨(),1,2⟩),(0, ⟨(),1,2⟩)]

theorem loads_halfHealthy : 0 < ((levelHealths halfHealthy).map Prod.snd).sum ∧
    ((priorityLoads (levelHealths halfHealthy)).map Prod.snd).sum = 100 :=
  have hpos : 0 < ((levelHealths halfHealthy).map snd).sum := by decide +kernel
  ⟨hpos,(loads_sum_to_hundred halfHealthy hpos).2.1⟩

lemma calculatePriorityLoads_keys : ((calculatePriorityLoads en).map fst).Perm (en.map fst) := by
  have ha := (priorityLoads_assigned (healths_levelHealths en)).1
  have hf : (priorityLoads (levelHealths en)).map fst = (levelHealths en).map fst := by
    generalize priorityLoads (levelHealths en) = ls at ha
    generalize levelHealths en = hs at ha
    induction ha with
    | nil => rfl
    | cons h _ ih => rw [map_cons,map_cons,ih,h.1]
  rw [calculatePriorityLoads_eq,map_map]
  change ((priorityLoads (levelHealths en)).map fst).Perm _
  rw [hf,levelHealths,map_map]
  exact (perm_insertionSort _ en).map fst

lemma calculatePriorityLoads_sum_le (endpoints : List (ℕ × PriorityInfo B)) :
    ((calculatePriorityLoads endpoints).map snd).sum ≤ 200 := by
  obtain ⟨ha,hsu⟩ := priorityLoads_assigned (healths_levelHealths endpoints)
  have hr : ((((calculatePriorityLoads endpoints).map snd).sum : ℕ) : ℚ) ≤
      2*((priorityLoads (levelHealths endpoints)).map snd).sum := by
    rw [calculatePriorityLoads_eq]
    generalize priorityLoads (levelHealths endpoints) = ls at ha ⊢
    generalize levelHealths endpoints = hs at ha
    induction ha with
    | nil => simp
    | @cons h l hs ls hl _ ih =>
      have hl' := roundLoad_le hl.2.1
      simp only [map_cons,sum_cons,Nat.cast_add]
      linarith
  have hle : ((((calculatePriorityLoads endpoints).map snd).sum : ℕ) : ℚ) ≤ 200 := by
    linarith
  exact_mod_cast hle

lemma percentage_pos_of_weight {k w : ℕ} (h : (k, w) ∈ calculatePriorityLoads endpoints)
    (hw : 0 < w) : ∃ e ∈ endpoints, e.1 = k ∧ 0 < percentage e.2.healthy e.2.total := by
  have ha := (priorityLoads_assigned (healths_levelHealths endpoints)).1
  rw [calculatePriorityLoads_eq,mem_map] at h
  obtain ⟨l,hl,heq⟩ := h
  cases heq
  have hex : ∃ x ∈ levelHealths endpoints, l.1 = x.1 ∧ (x.2 = 0 → l.2 = 0) := by
    generalize priorityLoads (levelHealths endpoints) = ls at ha hl
    generalize levelHealths endpoints = hs at ha
    induction ha with
    | nil => cases hl
    | @cons x m hs ls hm _ ih =>
      rcases mem_cons.mp hl with rfl | hl
      · exact ⟨x,by simp,hm.1,hm.2.2⟩
      · obtain ⟨y,hy,hp⟩ := ih hl
        exact ⟨y,by simp [hy],hp⟩
  obtain ⟨x,hx,hk,hz⟩ := hex
  obtain ⟨e,he,rfl⟩ := mem_levelHealths.mp hx
  refine ⟨e,he,hk.symm,pos_of_ne_zero fun hpc => ?_⟩
  rw [hz ((calculatePriorityHealth_eq_zero_iff ..).mpr hpc),roundLoad_zero] at hw
  exact absurd hw (lt_irrefl 0)

lemma calculatePriorityLoads_sum_pos (h : ∃ e ∈ endpoints, 0 < percentage e.2.healthy e.2.total) :
    0 < ((calculatePriorityLoads endpoints).map snd).sum := by
  obtain ⟨e,he,hp⟩ := h
  have hh := healths_levelHealths endpoints
  have hex : ∃ x ∈ levelHealths endpoints, x.2 ≠ 0 := ⟨_,mem_levelHealths.mpr ⟨e,he,rfl⟩,
    fun hz => hp.ne' ((calculatePriorityHealth_eq_zero_iff ..).mp hz)⟩
  obtain ⟨l,hl,ho⟩ := loadsFrom_pos (hh.total_pos hex) (min_le_left ..) hh hex
  have hm : roundLoad l.2 ∈ (calculatePriorityLoads endpoints).map snd := by
    rw [calculatePriorityLoads_eq,map_map,priorityLoads_eq hh]
    exact mem_map.mpr ⟨l,hl,rfl⟩
  exact lt_of_lt_of_le (Nat.le_floor (by push_cast; linarith))
    (single_le_sum (fun _ _ => Nat.zero_le _) _ hm)

end ArionGateway.PriorityLoads
