import Mathlib.Data.List.Induction
import Mathlib.Data.List.Nodup

/-!
# Distinct items in order of arrival

A table that takes each new item of a stream while it has room holds the first
distinct items of the stream, as many as it has room for. An item that found
the table full is never taken later.
-/
namespace ArionGateway.FirstDistinct
open List

variable {A : Type*} [DecidableEq A]

def addNew (seen : List A) (a : A) : List A :=
  if a ∈ seen then seen else seen++[a]

/-- The items of a stream in the order in which they first occur. -/
def distinct (stream : List A) : List A := stream.foldl addNew []

/-- Adds an item that is not in the table while there is room for it. -/
def addBounded (room : ℕ) (table : List A) (a : A) : List A :=
  if a ∈ table then table else if room ≤ table.length then table else table++[a]

lemma distinct_concat (s : List A) (a : A) : distinct (s++[a]) = addNew (distinct s) a := by
  rw [distinct,foldl_concat,distinct]

lemma addBounded_take (room : ℕ) (seen : List A) (a : A) :
    addBounded room (seen.take room) a = (addNew seen a).take room := by
  rw [addBounded,addNew]
  by_cases ht : a ∈ seen.take room
  · rw [if_pos ht,if_pos (mem_of_mem_take ht)]
  · rw [if_neg ht]
    by_cases hr : room ≤ seen.length
    · rw [if_pos (by rw [length_take]; omega)]
      split
      · rfl
      · rw [take_append_of_le_length hr]
    · have ha : seen.take room = seen := take_of_length_le (by omega)
      rw [ha] at ht ⊢
      rw [if_neg hr,if_neg ht,take_of_length_le (by
        rw [length_append,length_singleton]
        omega)]

lemma foldl_addBounded (room : ℕ) (s : List A) :
    s.foldl (addBounded room) [] = (distinct s).take room := by
  induction s using reverseRecOn with
  | nil => simp [distinct]
  | append_singleton s a ih =>
    rw [foldl_concat,ih,addBounded_take,distinct_concat]

lemma distinct_of_nodup {stream : List A} (h : stream.Nodup) : distinct stream = stream := by
  induction stream using reverseRecOn with
  | nil => rfl
  | append_singleton stream a ih =>
    rw [← concat_eq_append,nodup_concat] at h
    rw [distinct_concat,ih h.2,addNew,if_neg h.1]

lemma mem_foldl_addBounded {r : ℕ} {table : List A} {a : A} (h : a ∈ table) (s : List A) :
    a ∈ s.foldl (addBounded r) table := by
  induction s generalizing table with
  | nil => exact h
  | cons b s ih =>
    apply ih
    rw [addBounded]
    split
    · exact h
    · split
      · exact h
      · exact mem_append_left _ h

lemma foldl_addBounded_of_full {r : ℕ} {table : List A} (h : r ≤ table.length)
    (s : List A) : s.foldl (addBounded r) table = table := by
  induction s with
  | nil => rfl
  | cons b s ih =>
    rw [foldl_cons,addBounded,if_pos h,ite_self,ih]

lemma take_distinct_append {room : ℕ} {s : List A} (h : room ≤ (distinct s).length) (l : List A) :
    (distinct (s++l)).take room = (distinct s).take room := by
  rw [← foldl_addBounded,foldl_append,foldl_addBounded,foldl_addBounded_of_full]
  rw [length_take]
  omega

lemma mem_addBounded_iff_mem_foldl {r : ℕ} {t : List A} {a : A} (s : List A) :
    a ∈ addBounded r t a ↔ a ∈ s.foldl (addBounded r) (addBounded r t a) := by
  refine ⟨fun h => mem_foldl_addBounded h s,fun h => ?_⟩
  by_contra hn
  rw [addBounded] at h hn
  split at hn
  next hm => exact hn hm
  next hm =>
    split at hn
    · next hf =>
        rw [if_neg hm,if_pos hf,foldl_addBounded_of_full hf] at h
        exact hm h
    · exact hn (mem_append_right _ (mem_singleton_self a))

end ArionGateway.FirstDistinct
