import Mathlib.Data.List.Basic

/-!
# Stores whose operations work on entries

An operation on a store that reads and writes the entry of at most one key. The
entry of a key after a sequence of operations is what the operations on that key
alone make of it. More generally an operation may work on every entry, as long as
what it leaves in an entry depends on that entry only.
-/
namespace ArionGateway.KeyedStores
open List

variable {K V A : Type*}

/-- Every operation touches the entry of its key only. -/
structure Keyed (step : (K → V) → A → K → V) (key : A → Option K) : Prop where
  other : ∀ s a k, key a ≠ some k → step s a k = s k
  same : ∀ s t a k, key a = some k → s k = t k → step s a k = step t a k

variable {step : (K → V) → A → K → V} {key : A → Option K}

lemma Keyed.foldl_filter (h : Keyed step key) {k : K} (keep : A → Bool) {as : List A}
    (hke : ∀ a ∈ as, key a = some k ↔ keep a = true) {s t : K → V} (hst : s k = t k) :
    as.foldl step s k = (as.filter keep).foldl step t k := by
  induction as generalizing s t with
  | nil => exact hst
  | cons a as ih =>
    have hr : ∀ b ∈ as, key b = some k ↔ keep b = true := fun b hb =>
      hke b (mem_cons_of_mem a hb)
    by_cases ha : key a = some k
    · rw [filter_cons_of_pos ((hke a mem_cons_self).mp ha)]
      exact ih hr (h.same s t a k ha hst)
    · have hk : ¬ keep a = true := fun hk => ha ((hke a mem_cons_self).mpr hk)
      rw [filter_cons_of_neg hk]
      exact ih hr ((h.other s a k ha).trans hst)

/-- What an operation leaves in the entry of a key depends on that entry only. -/
def Entrywise (step : (K → V) → A → K → V) (entry : K → A → V → V) : Prop :=
  ∀ s a k, step s a k = entry k a (s k)

variable {entry : K → A → V → V} {as : List A} {s : K → V} {k : K}

lemma Entrywise.foldl_eq (h : Entrywise step entry) (as : List A) (s : K → V) (k : K) :
    as.foldl step s k = as.foldl (fun v a => entry k a v) (s k) := by
  induction as generalizing s with
  | nil => rfl
  | cons a as ih => rw [foldl_cons,foldl_cons,ih,h s a k]

lemma Entrywise.foldl_filter (h : Entrywise step entry) (keep : A → Bool)
    (hke : ∀ a ∈ as, keep a = false → ∀ v, entry k a v = v) :
    as.foldl step s k = (as.filter keep).foldl step s k := by
  rw [h.foldl_eq,h.foldl_eq,List.foldl_filter]
  refine foldl_ext _ _ _ fun v a ha => ?_
  cases hk : keep a with
  | true => rfl
  | false => exact hke a ha hk v

lemma Entrywise.invariant (h : Entrywise step entry) (P : V → Prop)
    (hst : ∀ a ∈ as, ∀ v, P v → P (entry k a v)) (hs : P (s k)) : P (as.foldl step s k) := by
  rw [h.foldl_eq]
  exact foldlRecOn as _ hs fun v hv a ha => hst a ha v hv

end ArionGateway.KeyedStores
