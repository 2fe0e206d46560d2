import Mathlib.Algebra.BigOperators.Group.List.Basic
import Mathlib.Tactic.Abel

/-!
# Visiting the first entry that answers

A loop over mutable entries asks each of them in turn. The first one that
answers is updated, its answer is returned and the loop ends; the others stay
as they are. Searching a list for an equal item and looking a key up in a map
of known iteration order are of this form. A change of the entry at a known
position changes a sum over the entries by what it changes there.
-/
namespace ArionGateway.FirstMatch
open List

variable {A R : Type*} {l : List A} {f : A → Option (A × R)} {l' : List A}

def visitFirst (f : A → Option (A × R)) : List A → Option (List A × R)
  | [] => none
  | a::l =>
    match f a with
    | some (a', r) => some (a'::l, r)
    | none => (visitFirst f l).map fun (l', r) => (a::l', r)

lemma visitFirst_eq_none_iff : visitFirst f l = none ↔ ∀ a ∈ l, f a = none := by
  induction l with
  | nil => simp [visitFirst]
  | cons a l ih =>
    rw [visitFirst]
    cases h : f a with
    | none => simp [h,ih]
    | some x => simp [h]

lemma visitFirst_eq_some {r : R} (h : visitFirst f l = some (l', r)) :
    ∃ be a a' after, l = be++a::after ∧ (∀ b ∈ be, f b = none) ∧ f a = some (a', r) ∧
      l' = be++a'::after := by
  induction l generalizing l' with
  | nil => cases h
  | cons a l ih =>
    rw [visitFirst] at h
    split at h
    next a' _ hf =>
      cases h
      exact ⟨[],a,a',l,rfl,by simp,hf,rfl⟩
    next hf =>
      obtain ⟨⟨m,s⟩,hm,hr⟩ := Option.map_eq_some_iff.mp h
      cases hr
      obtain ⟨be,b,b',after,rfl,hbe,hb,rfl⟩ := ih hm
      exact ⟨a::be,b,b',after,rfl,forall_mem_cons.mpr ⟨hf,hbe⟩,hb,rfl⟩

lemma mem_visitFirst {r : R} {b : A} (h : visitFirst f l = some (l', r)) (hb : b ∈ l') :
    b ∈ l ∨ ∃ a ∈ l, f a = some (b, r) := by
  obtain ⟨be,a,a',after,rfl,-,ha,rfl⟩ := visitFirst_eq_some h
  rcases mem_append.mp hb with hb | hb
  · exact .inl (by simp [hb])
  · rcases mem_cons.mp hb with rfl | hb
    · exact .inr ⟨a,by simp,ha⟩
    · exact .inl (by simp [hb])

lemma map_visitFirst {C : Type*} {g : A → C} {r : R} (h : visitFirst f l = some (l', r))
    (hg : ∀ a a' r, f a = some (a', r) → g a' = g a) : l'.map g = l.map g := by
  obtain ⟨be,a,a',after,rfl,-,ha,rfl⟩ := visitFirst_eq_some h
  simp [hg a a' r ha]

lemma sum_map_modify {M : Type*} [AddCommMonoid M] (g : A → M) (f : A → A) {i : ℕ} {a : A}
    (h : l[i]? = some a) : ((l.modify i f).map g).sum+g a = (l.map g).sum+g (f a) := by
  induction l generalizing i with
  | nil => cases h
  | cons b l ih =>
    cases i with
    | zero =>
      obtain rfl : b = a := by simpa using h
      simp only [modify_zero_cons,map_cons,sum_cons]
      abel
    | succ i =>
      have hi := ih (by simpa using h)
      simp [add_assoc,hi]

lemma toNat_le_countP (p : A → Bool) {a : A} (ha : a ∈ l) : (p a).toNat ≤ l.countP p := by
  cases hp : p a with
  | false => exact Nat.zero_le _
  | true => exact countP_pos_iff.mpr ⟨a,ha,hp⟩

lemma countP_set_add (p : A → Bool) {i : ℕ} {a : A} (ha : l[i]? = some a) (b : A) :
    (l.set i b).countP p+(p a).toNat = l.countP p+(p b).toNat := by
  obtain ⟨hi,rfl⟩ := List.getElem?_eq_some_iff.mp ha
  have hle := toNat_le_countP p (getElem_mem hi)
  have hite : ∀ x, (if x = true then 1 else 0) = x.toNat := fun x => by cases x <;> rfl
  rw [countP_set hi,hite,hite]
  omega

end ArionGateway.FirstMatch
