import Mathlib.Data.List.Basic

/-!
# Loops that change a list in place

A loop goes through a list and changes each element in place, until a change
fails. The element it fails at keeps what its own change has left behind, and the
elements after it are not visited. Nothing is undone, so such a loop leaves the
list as it was only if each change it has made leaves its element as it was.
-/
namespace ArionGateway.InPlaceLoops

variable {A E R : Type*}

def visit (change : A → Except E R × A) : List A → Except E (List R) × List A
  | [] => (.ok [], [])
  | a::as =>
    match change a with
    | (.error e, a') => (.error e, a'::as)
    | (.ok r, a') =>
      let (rs, as') := visit change as
      (rs.map (r::·), a'::as')

/-- The elements that the loop visits: all before the first failure, and that one. -/
def visited (change : A → Except E R × A) : List A → List A
  | [] => []
  | a::as =>
    match (change a).1 with
    | .error _ => [a]
    | .ok _ => a::visited change as

variable {ch : A → Except E R × A} (as : List A)

lemma visit_snd_eq_iff : (visit ch as).2 = as ↔ ∀ a ∈ visited ch as, (ch a).2 = a := by
  induction as with
  | nil => simp [visit,visited]
  | cons a as ih =>
    rcases h : ch a with ⟨e | r,a'⟩
    · simp [visit,visited,h]
    · simp [visit,visited,h,ih]

lemma visit_error_iff : (∃ e, (visit ch as).1 = .error e) ↔ ∃ a ∈ as, ∃ e, (ch a).1 = .error e := by
  induction as with
  | nil => simp [visit]
  | cons a as ih =>
    rcases h : ch a with ⟨e | r,a'⟩
    · simp [visit,h]
    · rw [List.exists_mem_cons_iff,← ih]
      cases hr : (visit ch as).1 <;> simp [visit,h,hr,Except.map]

lemma visited_of_split {f back : List A} {a : A}
    (hf : ∀ b ∈ f, ¬ ∃ e, (ch b).1 = .error e) (hfa : ∃ e, (ch a).1 = .error e) :
    visited ch (f++a::back) = f++[a] := by
  induction f with
  | nil =>
    obtain ⟨e,he⟩ := hfa
    rw [List.nil_append,visited,he]
    rfl
  | cons b f ih =>
    have hr := ih fun c hc => hf c (List.mem_cons_of_mem b hc)
    cases hb : (ch b).1 with
    | error e => exact absurd ⟨e,hb⟩ (hf b List.mem_cons_self)
    | ok r =>
      rw [List.cons_append,visited,hb]
      rw [hr]
      rfl

open Classical in
lemma exists_first_failure {as : List A} (h : ∃ a ∈ as, ∃ e, (ch a).1 = .error e) :
    ∃ f a back, as = f++a::back ∧
      (∀ b ∈ f, ¬ ∃ e, (ch b).1 = .error e) ∧ ∃ e, (ch a).1 = .error e := by
  have hs : (as.find? fun a => decide (∃ e, (ch a).1 = .error e)).isSome = true := by simpa using h
  obtain ⟨a,ha⟩ := Option.isSome_iff_exists.mp hs
  obtain ⟨hf,f,back,rfl,hb⟩ := List.find?_eq_some_iff_append.mp ha
  exact ⟨f,a,back,rfl,by simpa using hb,of_decide_eq_true hf⟩

variable (ch) in
/-- A loop that fails leaves the list as it was if and only if all elements up to
the first failing one are left as they were by their own changes. -/
lemma unchanged_on_error_iff :
    ((∃ e, (visit ch as).1 = .error e) → (visit ch as).2 = as) ↔ ∀ f a back, as = f++a::back →
        (∀ b ∈ f, ¬ ∃ e, (ch b).1 = .error e) → (∃ e, (ch a).1 = .error e) →
          ∀ b ∈ f++[a], (ch b).2 = b := by
  constructor
  · rintro hk f a back rfl hfr hf
    have he : ∃ e, (visit ch (f++a::back)).1 = .error e := (visit_error_iff _).mpr ⟨a,by simp,hf⟩
    have ha := (visit_snd_eq_iff _).mp (hk he)
    rwa [visited_of_split hfr hf] at ha
  · intro ha he
    obtain ⟨f,a,back,rfl,hfr,hf⟩ := exists_first_failure ((visit_error_iff as).mp he)
    rw [visit_snd_eq_iff,visited_of_split hfr hf]
    exact ha f a back rfl hfr hf

end ArionGateway.InPlaceLoops
