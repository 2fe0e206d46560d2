import ArionGateway.FallibleSteps
import Mathlib.Algebra.Group.Nat.Defs
import Mathlib.Data.List.Nodup

/-!
# Cores for the runtimes

The runtimes take chunks of equal length from lists of cores in turns, and so no core twice. The
lists are the nodes of the machine or configured; a configuration may also list the cores of every
runtime, and these are not compared with the cores that the process may use. What the operating
system tells is a parameter. The offset in a list wraps as in a release build.
-/
namespace ArionGateway.CoreAffinity
open FallibleSteps List

abbrev CoreId := ℕ

inductive Affinity where
  | auto
  | nodes (cores : List (List CoreId))
  | runtimes (cores : List (List CoreId))

structure Machine where
  available : List CoreId
  coresIdsPerNode : Except String (List (List CoreId))
  grouped : ∀ nodes, coresIdsPerNode = .ok nodes → nodes.flatten.Perm available

def exactly (runtimeId coresWanted : ℕ) (cores : List CoreId) : Except String (List CoreId) :=
  let available := cores.length
  if available = coresWanted then .ok cores
  else
    .error (s!"not enough cores for runtime {runtimeId} - wanted: {coresWanted}, " ++
      s!"available: {available}")

def calculateNumThreadsPerRuntime (availCpus : Except String ℕ) (numCpus numRuntimes : ℕ) :
    Except String ℕ := do
  let avail ← availCpus
  let threads := numCpus / numRuntimes
  if avail < numCpus then
    .error s!"The number of CPUs ({numCpus}) exceeds those available for this process ({avail})"
  else if threads = 0 then
    .error s!"The number of runtimes greater than the number of cpus ({numCpus} < {numRuntimes})"
  else if numRuntimes ∣ numCpus then .ok threads
  else
    .error (s!"The number of CPUs ({numCpus}) is not a multiple of the number of runtimes " ++
      s!"({numRuntimes})")

variable (bits : ℕ)

def runStrategy (runtimeId coresWanted : ℕ) (coresAffinity : Option (List (List CoreId)))
    (coresAvail : List (List CoreId)) : Except String (List CoreId) :=
  let availSet := coresAvail.flatten
  let aff := coresAffinity.getD coresAvail
  let affSet := aff.flatten
  if affSet ⊆ availSet then
    match aff[runtimeId % aff.length]? with
    | none => .error "unexpected affinity vector length"
    | some node =>
      exactly runtimeId coresWanted
        ((node.drop (runtimeId / aff.length*coresWanted % 2^bits)).take coresWanted)
  else
    let difference := (affSet.filter (· ∉ availSet)).dedup.map fun core => s!"CoreId({core})"
    .error s!"the cores {difference} are available"

variable (m : Machine)

def Affinity.runStrategy (runtimeId coresWanted : ℕ) : Affinity → Except String (List CoreId)
  | .auto => do
    let coresAvail ← m.coresIdsPerNode
    CoreAffinity.runStrategy bits runtimeId coresWanted none coresAvail
  | .nodes cs => do
    let coresAvail ← m.coresIdsPerNode
    CoreAffinity.runStrategy bits runtimeId coresWanted (some cs) coresAvail
  | .runtimes rs =>
    match rs[runtimeId]? with
    | none => .error s!"could not find configuration for runtime {runtimeId}"
    | some v => exactly runtimeId coresWanted (v.take coresWanted)

def Affinity.lists : Affinity → List (List CoreId)
  | .auto => m.coresIdsPerNode.toOption.getD []
  | .nodes cs => cs
  | .runtimes rs => rs

/-- A runtime falls on the list of its remainder by the width; without a width this is the
list of its own number. -/
def Affinity.width : Affinity → ℕ
  | .runtimes _ => 0
  | a => (a.lists m).length

def Affinity.Usable : Affinity → Prop
  | .runtimes _ => True
  | a => ∃ nodes, m.coresIdsPerNode = .ok nodes ∧ (a.lists m).flatten ⊆ nodes.flatten

/-- The first `n` runtimes have as many cores as they want, of one list and all of them available,
two of them have none in common, and none fails before another one on its list. -/
def Affinity.Isolates (n k : ℕ) (a : Affinity) : Prop :=
  ∀ i < n, ∀ cores, a.runStrategy bits m i k = .ok cores →
    (cores.length = k ∧ cores.Nodup ∧ (∃ l ∈ a.lists m, cores ⊆ l) ∧ cores ⊆ m.available) ∧
    ∀ j < i, (∀ cores', a.runStrategy bits m j k = .ok cores' → cores'.Disjoint cores) ∧
      (j % a.width m = i % a.width m → ∃ cores', a.runStrategy bits m j k = .ok cores')

variable {bits m} {a : Affinity} {i k n q r : ℕ} {cores l l' : List CoreId}

lemma exactly_eq_ok_iff : exactly i k l = .ok cores ↔ cores = l ∧ cores.length = k := by
  rw [exactly]
  split_ifs with h
  · rw [Except.ok.injEq,eq_comm,and_iff_left_of_imp]
    rintro rfl
    exact h
  · exact iff_of_false nofun fun hc => h (hc.1 ▸ hc.2)

lemma runStrategy_eq_ok {coresAffinity : Option (List (List CoreId))}
    {avail aff : List (List CoreId)} (hi : i*k < 2^bits) (ha : coresAffinity.getD avail = aff) :
    runStrategy bits i k coresAffinity avail = .ok cores ↔ aff.flatten ⊆ avail.flatten ∧
      ∃ l, aff[i % aff.length]? = some l ∧ cores = (l.drop (i / aff.length*k)).take k ∧
        cores.length = k := by
  have ho : i / aff.length*k % 2^bits = i / aff.length*k :=
    Nat.mod_eq_of_lt (Nat.lt_of_le_of_lt (Nat.mul_le_mul_right k (Nat.div_le_self ..)) hi)
  rw [runStrategy,ha,ho]
  split_ifs with hs
  · cases aff[i % aff.length]? with
    | none => simp
    | some l => simp [exactly_eq_ok_iff,hs]
  · simp [hs]

open Affinity

lemma Affinity.runStrategy_iff (hi : i*k < 2^bits) :
    a.runStrategy bits m i k = .ok cores ↔ a.Usable m ∧ ∃ l, (a.lists m)[i % a.width m]? = some l ∧
      cores = (l.drop (i / a.width m*k)).take k ∧ cores.length = k := by
  cases a with
  | runtimes rs =>
    rw [Affinity.runStrategy,Usable,width,lists,Nat.mod_zero,Nat.div_zero,Nat.zero_mul]
    cases rs[i]? with
    | none => simp
    | some l => simp [exactly_eq_ok_iff]
  | auto | nodes cs =>
    cases hm : m.coresIdsPerNode with
    | error e => simp [Affinity.runStrategy,Usable,hm,bind,Except.bind]
    | ok nodes =>
      simp only [Affinity.runStrategy,Usable,lists,width,hm,bind,Except.bind]
      rw [runStrategy_eq_ok hi rfl]
      simp [Except.toOption]

lemma disjoint_chunk (h : l.Nodup) (hqr : q < r) :
    ((l.drop (q*k)).take k).Disjoint ((l.drop (r*k)).take k) := by
  have hle : q*k+k ≤ r*k := by
    rw [← Nat.succ_mul]
    exact Nat.mul_le_mul_right k hqr
  have hq : (l.drop (q*k)).take k ⊆ l.take (q*k+k) := by
    rw [take_add]
    exact subset_append_right _ _
  exact fun _ ha hb => disjoint_take_drop h hle (hq ha) (take_subset _ _ hb)

lemma disjoint_of_getElem? {ls : List (List CoreId)} (hp : ls.Pairwise List.Disjoint)
    (hq : ls[q]? = some l) (hr : ls[r]? = some l') (hqr : q ≠ r) : l.Disjoint l' := by
  obtain ⟨hlq,rfl⟩ := List.getElem?_eq_some_iff.mp hq
  obtain ⟨hlr,rfl⟩ := List.getElem?_eq_some_iff.mp hr
  rcases Nat.lt_or_gt_of_ne hqr with hqr | hqr
  · exact pairwise_iff_getElem.mp hp q r hlq hlr hqr
  · exact List.disjoint_symm (pairwise_iff_getElem.mp hp r q hlr hlq hqr)

/-- The cores that the runtimes want are those configured, so their number is a word. -/
lemma mul_of_calculateNumThreadsPerRuntime {avail : Except String ℕ}
    (h : calculateNumThreadsPerRuntime avail q n = .ok k) : 1 ≤ k ∧ n*k = q := by
  obtain ⟨c,-,h⟩ := bind_eq_ok.mp h
  grind [Nat.mul_div_cancel']

/-- The runtimes are isolated, unless a list that is configured for one of them has as many cores
as it wants and the process may not use all of these. -/
theorem isolates_iff (hn : n*k < 2^bits) (hd : (a.lists m).flatten.Nodup) :
    a.Isolates bits m n k ↔ ∀ rs, a = .runtimes rs → ∀ i < n, ∀ l, rs[i]? = some l →
      k ≤ l.length → l.take k ⊆ m.available := by
  obtain ⟨hd,hp⟩ := nodup_flatten.mp hd
  have ho : ∀ i < n, i*k < 2^bits := fun i hi =>
    Nat.lt_of_le_of_lt (Nat.mul_le_mul_right k (Nat.le_of_lt hi)) hn
  constructor
  · rintro h rs rfl i hi l hl hle
    refine (h i hi (l.take k) ?_).1.2.2.2
    rw [runStrategy_iff (ho i hi)]
    exact ⟨trivial,l,by simpa [width,lists],by simp [width],length_take_of_le hle⟩
  · intro h i hi cores hc
    obtain ⟨hu,l,hl,rfl,hlen⟩ := (runStrategy_iff (ho i hi)).mp hc
    have hs : (l.drop (i / a.width m*k)).take k <+ l := (take_sublist ..).trans (drop_sublist ..)
    have hm := mem_of_getElem? hl
    refine ⟨⟨hlen,(hd l hm).sublist hs,⟨l,hm,hs.subset⟩,?_⟩,fun j hj => ?_⟩
    · cases a with
      | runtimes rs =>
        simp only [width,lists,Nat.mod_zero,Nat.div_zero,Nat.zero_mul,drop_zero] at hl hlen ⊢
        rw [length_take] at hlen
        exact h rs rfl i hi l hl (by omega)
      | auto | nodes cs =>
        obtain ⟨nodes,hn,hf⟩ := hu
        exact fun c hc => (m.grouped nodes hn).subset (hf (mem_flatten_of_mem hm (hs.subset hc)))
    have hle := Nat.div_le_div_right (c := a.width m) (Nat.le_of_lt hj)
    have hj' := ho j (Nat.lt_trans hj hi)
    refine ⟨fun cores' hc' => ?_,fun hw => ?_⟩
    · obtain ⟨-,l',hl',rfl,-⟩ := (runStrategy_iff hj').mp hc'
      by_cases hw : j % a.width m = i % a.width m
      · obtain rfl : l' = l := Option.some.inj (hl'.symm.trans (hw ▸ hl))
        refine disjoint_chunk (hd _ hm) (Nat.lt_of_le_of_ne hle fun hq => Nat.ne_of_lt hj ?_)
        rw [← Nat.div_add_mod j (a.width m),hq,hw,Nat.div_add_mod]
      · exact fun c hc' hc => disjoint_of_getElem? hp hl' hl hw
          (drop_subset _ _ (take_subset _ _ hc')) (hs.subset hc)
    · refine ⟨_,(runStrategy_iff hj').mpr ⟨hu,l,hw ▸ hl,rfl,?_⟩⟩
      have hle := Nat.mul_le_mul_right k hle
      rw [length_take,length_drop] at hlen ⊢
      omega

def twoNodes : Machine where
  available := [0,1,2,3]
  coresIdsPerNode := .ok [[0,1],[2,3]]
  grouped := by
    rintro _ ⟨⟩
    exact .refl _

theorem isolates_twoNodes : (Affinity.nodes [[0,1],[2,3]]).Isolates 64 twoNodes 4 1 :=
  (isolates_iff (by decide) (by decide)).mpr nofun

theorem unavailable_core_taken :
    (Affinity.runtimes [[100]]).runStrategy 64 twoNodes 0 1 = .ok [100] ∧
      100 ∉ twoNodes.available :=
  ⟨rfl,by decide⟩

end ArionGateway.CoreAffinity
