import Mathlib.Data.List.Basic

/-!
# Executions of a labelled transition relation

Runs of a step relation with their labels, the induction rule for invariants
and runs whose every step meets a condition on the state before it.
-/
namespace ArionGateway.Executions

variable {S A : Type*} {as : List A} {next : S → A → Option S} {t s : S} {guard : S → A → Prop}

/-- `Run step s as t`: the steps labelled `as` lead from `s` to `t`. -/
inductive Run (step : S → A → S → Prop) : S → List A → S → Prop
  | nil (s : S) : Run step s [] s
  | cons {s t u : S} {a : A} {as : List A} (h : step s a t) (rest : Run step t as u) :
      Run step s (a::as) u

/-- Steps taken only where a condition holds. -/
def Guarded (guard : S → A → Prop) (step : S → A → S → Prop) : S → A → S → Prop :=
  fun s a t => guard s a ∧ step s a t

/-- A run along which a property holds of every state, the first one included. -/
def Throughout (P : S → Prop) (step : S → A → S → Prop) (s : S) (as : List A) (t : S) : Prop :=
  P s ∧ Run (fun s a t => step s a t ∧ P t) s as t

variable {step : S → A → S → Prop} (inv : S → Prop)

lemma Run.invariant (hst : ∀ s a t, inv s → step s a t → inv t)
    (h : Run step s as t) (hs : inv s) : inv t := by
  induction h with
  | nil => exact hs
  | cons h _ ih => exact ih (hst _ _ _ hs h)

/-- The run of a step function along a list of labels. -/
def exec (next : S → A → Option S) : S → List A → Option S
  | s, [] => some s
  | s, a::as => (next s a).bind fun t => exec next t as

lemma exec_append (next : S → A → Option S) (s : S) (as bs : List A) :
    exec next s (as++bs) = (exec next s as).bind fun t => exec next t bs := by
  induction as generalizing s with
  | nil => rfl
  | cons a as ih => simp only [List.cons_append,exec,ih,Option.bind_assoc]

lemma exec_trans {u : S} {bs : List A} (has : exec next s as = some t)
    (hbs : exec next t bs = some u) : exec next s (as++bs) = some u := by
  rw [exec_append,has,Option.bind_some,hbs]

lemma Run.of_exec (h : exec next s as = some t) : Run (fun s a t => next s a = some t) s as t := by
  induction as generalizing s with
  | nil =>
    obtain rfl : s = t := Option.some.inj h
    exact .nil s
  | cons a as ih =>
    obtain ⟨u,hu,hr⟩ := Option.bind_eq_some_iff.mp h
    exact .cons hu (ih hr)

lemma Run.mono {step' : S → A → S → Prop} (hst : ∀ s a t, step s a t → step' s a t)
    (h : Run step s as t) : Run step' s as t := by
  induction h with
  | nil => exact .nil _
  | cons h _ ih => exact .cons (hst _ _ _ h) ih

/-- If a step keeps a property exactly when it meets a condition, the runs along
which the property holds are the runs whose steps all meet the condition. The
invariant is needed only as long as the property holds. -/
lemma throughout_iff_guarded_while {P : S → Prop} (hi : ∀ s a t, inv s → step s a t → P t → inv t)
    (hk : ∀ s a t, inv s → P s → step s a t → (P t ↔ guard s a)) (hs : inv s) (hP : P s) :
    Throughout P step s as t ↔ Run (Guarded guard step) s as t := by
  constructor
  · rintro ⟨-,h⟩
    induction h with
    | nil => exact .nil _
    | cons h _ ih =>
      exact .cons ⟨(hk _ _ _ hs hP h.1).mp h.2,h.1⟩ (ih (hi _ _ _ hs h.1 h.2) h.2)
  · refine fun h => ⟨hP,?_⟩
    induction h with
    | nil => exact .nil _
    | cons h _ ih =>
      have hn := (hk _ _ _ hs hP h.2).mpr h.1
      exact .cons ⟨h.2,hn⟩ (ih (hi _ _ _ hs h.2 hn) hn)

lemma throughout_iff_guarded {P : S → Prop} (hi : ∀ s a t, inv s → step s a t → inv t)
    (hk : ∀ s a t, inv s → P s → step s a t → (P t ↔ guard s a)) (hs : inv s) (hP : P s) :
    Throughout P step s as t ↔ Run (Guarded guard step) s as t :=
  throughout_iff_guarded_while inv (fun s a t hs h _ => hi s a t hs h) hk hs hP

end ArionGateway.Executions
