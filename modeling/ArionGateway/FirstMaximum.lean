import Mathlib.Data.List.Induction
import Mathlib.Order.Lattice

/-!
# The first element of greatest score

A scan keeps the best element seen so far and replaces it only by an element of
strictly greater score, so that among elements of equal score the first one
stays. Elements may have no score. The result is described by its position: all
earlier scores are strictly smaller and no later score is greater.
-/
namespace ArionGateway.FirstMaximum

variable {A S : Type*} [LinearOrder S] {score : A → Option S} {l : List A} {s : S}

def improve (score : A → Option S) (best : Option (S × A)) (a : A) : Option (S × A) :=
  match score a with
  | some s => if best.all fun b => decide (b.1 < s) then some (s, a) else best
  | none => best

def firstMax (score : A → Option S) (l : List A) : Option (S × A) :=
  l.foldl (improve score) none

def IsFirstMax (score : A → Option S) (l : List A) (s : S) (a : A) : Prop :=
  ∃ before after, l = before++a::after ∧ score a = some s ∧
    (∀ b ∈ before, ∀ t, score b = some t → t < s) ∧ ∀ b ∈ after, ∀ t, score b = some t → t ≤ s

lemma IsFirstMax.le {a : A} (h : IsFirstMax score l s a) {b : A} (hb : b ∈ l) {t : S}
    (ht : score b = some t) : t ≤ s := by
  obtain ⟨before,after,rfl,ha,hbe,haf⟩ := h
  rcases List.mem_append.mp hb with hb | hb
  · exact (hbe b hb t ht).le
  · rcases List.mem_cons.mp hb with rfl | hb
    · rw [ha,Option.some.injEq] at ht
      exact ht.ge
    · exact haf b hb t ht

lemma IsFirstMax.mem {a : A} (h : IsFirstMax score l s a) : a ∈ l := by
  obtain ⟨before,after,rfl,-⟩ := h
  simp

lemma IsFirstMax.concat {a c : A} (h : IsFirstMax score l s a)
    (hc : ∀ t, score c = some t → t ≤ s) : IsFirstMax score (l++[c]) s a := by
  obtain ⟨before,after,rfl,ha,hbe,haf⟩ := h
  exact ⟨before,after++[c],by simp,ha,hbe,List.forall_mem_append.mpr ⟨haf,by simpa using hc⟩⟩

lemma isFirstMax_concat_self {c : A} (hc : score c = some s)
    (hl : ∀ b ∈ l, ∀ t, score b = some t → t < s) : IsFirstMax score (l++[c]) s c :=
  ⟨l,[],rfl,hc,hl,by simp⟩

lemma firstMax_spec (score : A → Option S) (l : List A) : match firstMax score l with
    | some (s, a) => IsFirstMax score l s a
    | none => ∀ b ∈ l, score b = none := by
  induction l using List.reverseRecOn with
  | nil => simp [firstMax]
  | append_singleton l c ih =>
    have hst : firstMax score (l++[c]) = improve score (firstMax score l) c := by
      simp [firstMax]
    rw [hst,improve]
    generalize firstMax score l = best at ih ⊢
    cases hc : score c with
    | none =>
      cases best with
      | none => exact List.forall_mem_append.mpr ⟨ih,by simpa using hc⟩
      | some best => exact IsFirstMax.concat ih fun t ht => by cases hc.symm.trans ht
    | some t =>
      cases best with
      | none =>
        exact isFirstMax_concat_self hc fun b hb u hu => by cases (ih b hb).symm.trans hu
      | some best =>
        have hm : IsFirstMax score l best.1 best.2 := ih
        simp only [Option.all_some,decide_eq_true_eq]
        split_ifs with hlt
        · exact isFirstMax_concat_self hc fun b hb u hu => (hm.le hb hu).trans_lt hlt
        · refine hm.concat fun u hu => ?_
          cases hc.symm.trans hu
          exact not_lt.mp hlt

end ArionGateway.FirstMaximum
