import Mathlib.Data.List.Basic

/-!
# The last write

Each element of a sequence writes a value or leaves the value as it is. After
the sequence the value is that of the last element that writes one.
-/
namespace ArionGateway.LastWrites
open List

variable {A B S : Type*} {f : A → Option B} {xs : List A}

def last (f : A → Option B) (xs : List A) : Option B := xs.reverse.findSome? f

lemma last_cons (f : A → Option B) (x : A) (xs : List A) :
    last f (x::xs) = (last f xs).or (f x) := by
  rw [last,last,reverse_cons,findSome?_append,findSome?_singleton]

lemma last_append (f : A → Option B) (xs ys : List A) :
    last f (xs++ys) = (last f ys).or (last f xs) := by
  rw [last,last,last,reverse_append,findSome?_append]

lemma last_eq_none_iff : last f xs = none ↔ ∀ x ∈ xs, f x = none := by
  simp [last]

lemma last_eq_some_iff {b : B} : last f xs = some b ↔
      ∃ before x after, xs = before++x::after ∧ f x = some b ∧ ∀ y ∈ after, f y = none := by
  rw [last,findSome?_eq_some_iff]
  constructor
  · rintro ⟨after,x,before,h,hx,ha⟩
    have h' : xs = before.reverse++x::after.reverse := by simpa using congrArg reverse h
    exact ⟨before.reverse,x,after.reverse,h',hx,by simpa using ha⟩
  · rintro ⟨before,x,after,rfl,hx,ha⟩
    exact ⟨after.reverse,x,before.reverse,by simp,hx,by simpa using ha⟩

/-- A part of a state to which every step writes at most once. -/
lemma foldl_eq_getD_last {step : S → A → S} (get : S → B)
    (h : ∀ s x, get (step s x) = (f x).getD (get s)) (s : S) (xs : List A) :
    get (xs.foldl step s) = (last f xs).getD (get s) := by
  induction xs generalizing s with
  | nil => rfl
  | cons x xs ih =>
    rw [foldl_cons,ih,h,last_cons]
    cases last f xs with
    | none | some b => rfl

lemma foldl_eq_last_or {step : S → A → S} (get : S → Option B)
    (h : ∀ s x, get (step s x) = (f x).or (get s)) (s : S) (xs : List A) :
    get (xs.foldl step s) = (last f xs).or (get s) := by
  induction xs generalizing s with
  | nil => rfl
  | cons x xs ih => rw [foldl_cons,ih,h,last_cons,Option.or_assoc]

end ArionGateway.LastWrites
