import Mathlib.Data.List.Forall2

/-!
# Sequences of fallible steps

What it means for a sequence of steps that can fail to succeed.
-/
namespace ArionGateway.FallibleSteps

universe u v

variable {E : Type u} {A B : Type v} {x : Except E A}

lemma bind_eq_ok {f : A → Except E B} {b : B} :
    (x >>= f) = .ok b ↔ ∃ a, x = .ok a ∧ f a = .ok b := by
  cases x with
  | error e | ok a => simp [bind,Except.bind]

lemma bind_eq_error {f : A → Except E B} {e : E} :
    (x >>= f) = .error e ↔ x = .error e ∨ ∃ a, x = .ok a ∧ f a = .error e := by
  cases x with
  | error e' | ok a => simp [bind,Except.bind]

lemma map_eq_ok {f : A → B} {b : B} : f <$> x = .ok b ↔ ∃ a, x = .ok a ∧ f a = b := by
  cases x with
  | error e | ok a => simp [Except.map]

variable {D : Type*}

lemma mapError_eq_ok {f : E → D} {a : A} : x.mapError f = .ok a ↔ x = .ok a := by
  cases x <;> simp [Except.mapError]

lemma mapM_eq_ok {f : D → Except E A} {xs : List D} {ys : List A} :
    xs.mapM f = .ok ys ↔ List.Forall₂ (fun x y => f x = .ok y) xs ys := by
  induction xs generalizing ys with
  | nil => simp [pure,Except.pure]
  | cons x xs ih =>
    rw [List.mapM_cons,bind_eq_ok,List.forall₂_cons_left_iff]
    refine exists_congr fun y => ?_
    rw [bind_eq_ok]
    simp only [pure,Except.pure]
    grind

lemma exists_of_mapM_eq_ok {f : D → Except E A} {xs : List D} {ys : List A}
    (h : xs.mapM f = .ok ys) {y : A} (hy : y ∈ ys) : ∃ x, f x = .ok y := by
  have ha := mapM_eq_ok.mp h
  clear h
  induction ha with
  | nil => cases hy
  | cons hx _ ih =>
    rcases List.mem_cons.mp hy with rfl | hy
    · exact ⟨_,hx⟩
    · exact ih hy

lemma elim_error_eq_ok {e : E} {x : Option A} {a : A} :
    x.elim (.error e) Except.ok = .ok a ↔ x = some a := by
  cases x <;> simp

lemma elim_error_inj {e e' : E} {x : Option A}
    (h : x.elim (.error e) Except.ok = .error e') : e = e' := by
  cases x with
  | none => exact Except.error.inj h
  | some a => cases h

end ArionGateway.FallibleSteps
