import Mathlib.Data.List.Lex
import Mathlib.Order.Lattice

/-!
# Listings of unordered collections

A hash map is read in an order that means nothing and may depend on everything
that is stored in it. What is made of the elements afterwards must not depend on
this order: sorting by keys that tell the elements apart, counting into an
ordered map, and reading a value for every element.
-/
namespace ArionGateway.SortedListings

universe u v w

variable {A : Type u} {B : Type v} {K : Type w} [LinearOrder K]

variable {l l' : List A} (key : A → K)

/-- The list in the order of the keys; elements with equal keys keep their order. -/
def sortBy (l : List A) : List A := l.mergeSort fun a b => decide (key a ≤ key b)

lemma sortBy_perm (l : List A) : (sortBy key l).Perm l := List.mergeSort_perm l _

lemma pairwise_sortBy (l : List A) : (sortBy key l).Pairwise fun a b => key a ≤ key b := by
  have hp : (sortBy key l).Pairwise fun a b => decide (key a ≤ key b) = true := by
    apply List.pairwise_mergeSort
    · intro a b c hab hbc
      exact decide_eq_true ((of_decide_eq_true hab).trans (of_decide_eq_true hbc))
    · intro a b
      simpa using le_total (key a) (key b)
  exact hp.imp of_decide_eq_true

lemma sortBy_eq_of_perm (hp : l.Perm l')
    (hk : ∀ a ∈ l, ∀ b ∈ l, key a = key b → a = b) : sortBy key l = sortBy key l' := by
  have hso : (sortBy key l).Perm (sortBy key l') :=
    ((sortBy_perm key l).trans hp).trans (sortBy_perm key l').symm
  refine List.Perm.eq_of_pairwise ?_ (pairwise_sortBy key l) (pairwise_sortBy key l') hso
  intro a b ha hb hab hba
  have ha : a ∈ l := (sortBy_perm key l).mem_iff.mp ha
  have hb : b ∈ l := hp.mem_iff.mpr ((sortBy_perm key l').mem_iff.mp hb)
  exact hk a ha b hb (le_antisymm hab hba)

variable {key : A → K}

/-- One more under a key of an ordered map of counters. -/
def bump (key : A → K) : List (A × ℕ) → A → List (A × ℕ)
  | [], a => [(a, 1)]
  | (b, n)::counts, a =>
    if key a < key b then (a, 1)::(b, n)::counts
    else if key a = key b then (b, n+1)::counts
    else (b, n)::bump key counts a

/-- How often each element occurs, in the order of the keys. -/
def countBy (key : A → K) (l : List A) : List (A × ℕ) := l.foldl (bump key) []

lemma bump_of_lt {a b : A} (h : key a < key b) (n : ℕ) (counts : List (A × ℕ)) :
    bump key ((b, n)::counts) a = (a, 1)::(b, n)::counts := if_pos h

lemma bump_of_eq {a b : A} (h : key a = key b) (n : ℕ) (counts : List (A × ℕ)) :
    bump key ((b, n)::counts) a = (b, n+1)::counts := (if_neg h.not_lt).trans (if_pos h)

lemma bump_of_gt {a b : A} (h : key b < key a) (n : ℕ) (c : List (A × ℕ)) :
    bump key ((b, n)::c) a = (b, n)::bump key c a := (if_neg h.not_gt).trans (if_neg h.ne')

lemma bump_comm_of_lt {a b : A} (h : key a < key b) (co : List (A × ℕ)) :
    bump key (bump key co a) b = bump key (bump key co b) a := by
  induction co with
  | nil =>
    rw [bump,bump_of_gt h,bump,bump_of_lt h]
  | cons count co ih =>
    obtain ⟨c,n⟩ := count
    rcases lt_trichotomy (key a) (key c) with hac | hac | hac
    · -- the smaller element comes in front, wherever the larger one goes
      rw [bump_of_lt hac,bump_of_gt h]
      rcases lt_trichotomy (key b) (key c) with hbc | hbc | hbc
      · rw [bump_of_lt hbc,bump_of_lt h]
      · rw [bump_of_eq hbc,bump_of_lt hac]
      · rw [bump_of_gt hbc,bump_of_lt hac]
    · have hbc : key c < key b := hac ▸ h
      rw [bump_of_eq hac,bump_of_gt hbc,bump_of_gt hbc,bump_of_eq hac]
    · have hbc : key c < key b := hac.trans h
      rw [bump_of_gt hac,bump_of_gt hbc,bump_of_gt hbc,bump_of_gt hac,ih]

lemma countBy_eq_of_perm (hk : Function.Injective key) {l l' : List A} (hp : l.Perm l') :
    countBy key l = countBy key l' := by
  refine hp.foldl_eq' (fun a _ b _ counts => ?_) []
  rcases lt_trichotomy (key a) (key b) with h | h | h
  · exact bump_comm_of_lt h counts
  · rw [hk h]
  · exact (bump_comm_of_lt h counts).symm

lemma mapM_eq_filterMap (f : A → Option B) (l : List A) :
    l.mapM f = if ∀ a ∈ l, (f a).isSome then some (l.filterMap f) else none := by
  induction l with
  | nil => rfl
  | cons a l ih =>
    cases h : f a with
    | none => simp [h]
    | some b => split_ifs <;> simp_all

lemma mapM_perm {f : A → Option B} {l l' : List A} (hp : l.Perm l') :
    (l.mapM f = none ∧ l'.mapM f = none) ∨
      ∃ s s', l.mapM f = some s ∧ l'.mapM f = some s' ∧ s.Perm s' := by
  simp only [mapM_eq_filterMap,hp.mem_iff]
  split_ifs
  · exact .inr ⟨_,_,rfl,rfl,hp.filterMap f⟩
  · exact .inl ⟨rfl,rfl⟩

lemma exists_of_mem_mapM {f : A → Option B} {l : List A} {s : List B} (h : l.mapM f = some s)
    {b : B} (hb : b ∈ s) : ∃ a ∈ l, f a = some b := by
  rw [mapM_eq_filterMap] at h
  split_ifs at h
  cases h
  exact List.mem_filterMap.mp hb

end ArionGateway.SortedListings
