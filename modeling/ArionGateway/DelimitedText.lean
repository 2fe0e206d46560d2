import ArionGateway.HttpHeaders
import Mathlib.Data.List.DropRight

/-!
# Fields of delimited text

Text is cut at the first, at the last or at every separator, and trimmed. A
field without the separator is found again, and what stands before and after it
is determined by the whole text.
-/
namespace ArionGateway.DelimitedText
open ByteStrings HttpHeaders List

variable {c : UInt8} {s a b : Str}

lemma splitOnce_append (h : c ∉ a) : splitOnce c (a++c::b) = some (a, b) := by
  have ha : ∀ x ∈ a, (x != c) = true := by
    intro x hx
    simpa using fun hxc : x = c => h (hxc ▸ hx)
  simp [splitOnce,takeWhile_append_of_pos ha,dropWhile_append_of_pos ha]

lemma splitOnce_eq_some (h : splitOnce c s = some (a, b)) : s = a++c::b ∧ c ∉ a := by
  have hc : c ∈ s := by
    by_contra hc
    simp [splitOnce,hc] at h
  obtain ⟨x,y,rfl,hx⟩ := eq_append_cons_of_mem hc
  rw [splitOnce_append hx] at h
  obtain ⟨rfl,rfl⟩ : x = a ∧ y = b := by simpa using h
  exact ⟨rfl,hx⟩

lemma rsplitOnce_eq_some_iff : rsplitOnce c s = some (a, b) ↔ s = a++c::b ∧ c ∉ b := by
  have hr : s.reverse = b.reverse++c::a.reverse ↔ s = a++c::b := by
    simp
  constructor
  · intro h
    obtain ⟨⟨x,y⟩,hxy,heq⟩ := Option.map_eq_some_iff.mp h
    obtain ⟨rfl,rfl⟩ : y.reverse = a ∧ x.reverse = b := by simpa using heq
    obtain ⟨hs,hx⟩ := splitOnce_eq_some hxy
    exact ⟨hr.mp (by simpa using hs),by simpa using hx⟩
  · rintro ⟨rfl,h⟩
    have := splitOnce_append (b := a.reverse) (a := b.reverse) (c := c) (by simpa using h)
    simp [rsplitOnce,this]

lemma append_cons_inj {a' b' : Str} (h : a++c::b = a'++c::b') (hb : c ∉ b)
    (hb' : c ∉ b') : a = a' ∧ b = b' := by
  have h₁ : rsplitOnce c (a++c::b) = some (a, b) := rsplitOnce_eq_some_iff.mpr ⟨rfl,hb⟩
  have h₂ := rsplitOnce_eq_some_iff.mpr ⟨h,hb'⟩
  simpa using h₁.symm.trans h₂

lemma mem_splitOn {l : Str} (h : l ∈ s.splitOn c) : c ∉ l ∧ l ⊆ s := by
  induction s generalizing l with
  | nil =>
    obtain rfl := mem_singleton.mp (splitOn_nil c ▸ h)
    simp
  | cons x s ih =>
    rw [splitOn_cons_eq_if_modifyHead] at h
    by_cases hx : x = c
    · simp only [hx,beq_self_eq_true,if_true,mem_cons] at h
      rcases h with rfl | h
      · simp
      · exact ⟨(ih h).1,fun y hy => mem_cons_of_mem x ((ih h).2 hy)⟩
    · rw [if_neg (by simpa using hx)] at h
      cases hs : s.splitOn c with
      | nil => exact absurd hs (splitOn_ne_nil c s)
      | cons f o =>
        simp only [hs,modifyHead_cons,mem_cons] at h ih
        rcases h with rfl | h
        · obtain ⟨hc,hsu⟩ := ih (.inl rfl)
          exact ⟨by simpa [Ne.symm hx] using hc,cons_subset_cons x hsu⟩
        · obtain ⟨hc,hsu⟩ := ih (.inr h)
          exact ⟨hc,fun y hy => mem_cons_of_mem x (hsu hy)⟩

lemma mem_intercalate {x : UInt8} {sep : Str} {ls : List Str} (h : x ∈ sep.intercalate ls) :
    x ∈ sep ∨ ∃ l ∈ ls, x ∈ l := by
  induction ls with
  | nil => simp at h
  | cons f ls ih =>
    cases ls with
    | nil => exact .inr ⟨f,mem_cons_self,by simpa using h⟩
    | cons se ls =>
      simp only [intercalate_cons_cons,mem_append] at h
      rcases h with (h | h) | h
      · exact .inr ⟨f,mem_cons_self,h⟩
      · exact .inl h
      · rcases ih h with h | ⟨l,hl,hx⟩
        · exact .inl h
        · exact .inr ⟨l,mem_cons_of_mem f hl,hx⟩

variable {x : UInt8}

lemma trim_sublist (s : Str) : (trim s).Sublist s := by
  have h := (dropWhile_sublist isWhitespace (l := (s.dropWhile isWhitespace).reverse)).reverse
  rw [reverse_reverse] at h
  exact h.trans (dropWhile_sublist isWhitespace)

lemma mem_of_mem_trim (h : x ∈ trim s) : x ∈ s := (trim_sublist s).subset h

lemma trim_cons_blank (h : isWhitespace x = true) : trim (x::s) = trim s := by
  simp [trim,h]

lemma dropWhile_eq_self {p : UInt8 → Bool} (h : ∀ x, s.head? = some x → p x = false) :
    s.dropWhile p = s := by
  cases s with
  | nil => rfl
  | cons x s => simp [h x rfl]

lemma trim_eq_self (h : ∀ x ∈ s, isWhitespace x = false) : trim s = s := by
  have h₁ : s.dropWhile isWhitespace = s := dropWhile_eq_self fun x hx => h x (mem_of_head? hx)
  have h₂ : s.reverse.dropWhile isWhitespace = s.reverse :=
    dropWhile_eq_self fun x hx => h x (mem_reverse.mp (mem_of_head? hx))
  simp [trim,h₁,h₂]

lemma trim_trim (s : Str) : trim (trim s) = trim s := by
  have hst : trim s <+: s.dropWhile isWhitespace := by
    rw [← reverse_suffix,trim,reverse_reverse]
    exact dropWhile_suffix isWhitespace
  have h₁ : (trim s).dropWhile isWhitespace = trim s := by
    refine dropWhile_eq_self fun x hx => ?_
    obtain ⟨r,hr⟩ := head?_eq_some_iff.mp hx
    obtain ⟨t,ht⟩ := hst
    have hh : (s.dropWhile isWhitespace).head? = some x := by rw [← ht,hr]; rfl
    simpa [hh] using head?_dropWhile_not isWhitespace s
  have h₂ : (trim s).reverse.dropWhile isWhitespace = (trim s).reverse := by
    rw [trim,reverse_reverse,dropWhile_idempotent]
  rw [trim,h₁,h₂,reverse_reverse]

end ArionGateway.DelimitedText
