import ArionGateway.ByteStrings

/-!
# Glob patterns

The patterns that select the operations of an OpenAPI document. The matcher keeps the last star
only. Between two stars a pattern takes a fixed number of bytes, so that whatever an earlier star
could skip, the last one can.
-/
namespace ArionGateway.GlobPatterns
open ByteStrings List

def star : UInt8 := 42

def question : UInt8 := 63

/-- The loop of `glob_match`. The two indices stand as what follows them in the pattern and in the
text, the star to go back to as the pattern after it and the text that follows what it skips. -/
def globLoop (pattern text : Str) (backtrack : Option (Str × Str)) : Bool :=
  match text with
  | [] => pattern.all (· = star)
  | byte::rest =>
    if pattern.head? = some star then
      globLoop pattern.tail (byte::rest) (some (pattern.tail, byte::rest))
    else if ∃ c ∈ pattern.head?, c = question ∨ c = byte then
      globLoop pattern.tail rest backtrack
    else
      match backtrack with
      | some (after, matched) => globLoop after matched.tail (some (after, matched.tail))
      | none => false
termination_by (max text.length (backtrack.elim 0 fun b => b.2.length), pattern.length)
decreasing_by
  all_goals cases pattern <;> simp_all [Prod.lex_def] <;> omega

def globMatch (pattern text : Str) : Bool := globLoop pattern text none

/-- The text can be split as the pattern has it. -/
def Matches : Str → Str → Prop
  | [], text => text = []
  | c::pattern, text =>
    if c = star then ∃ skipped rest, text = skipped++rest ∧ Matches pattern rest
    else ∃ byte rest, text = byte::rest ∧ (c = question ∨ c = byte) ∧ Matches pattern rest

variable {p t q : Str} {c b : UInt8} {bt : Option (Str × Str)}

lemma matches_star_iff : Matches (star::p) t ↔ ∃ s, s <:+ t ∧ Matches p s := by
  rw [Matches,if_pos rfl,exists_comm]
  simp [IsSuffix,eq_comm]

lemma matches_cons_iff (hc : c ≠ star) :
    Matches (c::p) t ↔ ∃ b s, t = b::s ∧ (c = question ∨ c = b) ∧ Matches p s := by
  rw [Matches,if_neg hc]

lemma matches_nil_iff : Matches p [] ↔ p.all (· = star) = true := by
  induction p with
  | nil => simp [Matches]
  | cons c p ih =>
    by_cases hc : c = star
    · simp [hc,matches_star_iff,ih]
    · simp [matches_cons_iff,hc]

lemma not_matches (hs : ¬ p.head? = some star)
    (hc : ¬ ∃ c ∈ p.head?, c = question ∨ c = b) : ¬ Matches p (b::t) := by
  intro h
  cases p with
  | nil => cases h
  | cons c p =>
    obtain ⟨_,_,⟨⟩,hb,-⟩ := (matches_cons_iff fun h => hs (congrArg some h)).mp h
    exact hc ⟨c,rfl,hb⟩

/-- Without a star a pattern takes as many bytes as it has. -/
lemma Matches.drop (hq : star ∉ q) (h : Matches (q++p) t) : Matches p (t.drop q.length) := by
  induction q generalizing t with
  | nil => exact h
  | cons c q ih =>
    rw [mem_cons,not_or] at hq
    obtain ⟨b,s,rfl,-,h⟩ := (matches_cons_iff (Ne.symm hq.1)).mp h
    exact ih hq.2 h

/-- Since the last star pattern and text have moved on together. -/
def Since (pattern text : Str) (backtrack : Option (Str × Str)) : Prop :=
  ∀ after matched, backtrack = some (after, matched) → ∃ q w, star ∉ q ∧ q.length = w.length ∧
    after = q++pattern ∧ matched = w++text

/-- The last star matches if it skips more. -/
def Later (backtrack : Option (Str × Str)) : Prop :=
  ∃ after matched, backtrack = some (after, matched) ∧ ∃ s, s <:+ matched.tail ∧ Matches after s

lemma suffix_iff_tail {s : Str} : s <:+ t ↔ s = t ∨ s <:+ t.tail := by
  cases t with
  | nil => simp
  | cons b t => exact suffix_cons_iff

lemma matches_or_later : Matches p t ∨ Later (some (p, t)) ↔ ∃ s, s <:+ t ∧ Matches p s := by
  simp only [suffix_iff_tail (t := t),Later]
  simp

lemma since_self (after matched : Str) : Since after matched (some (after, matched)) := by
  rintro _ _ ⟨⟩
  exact ⟨[],[],not_mem_nil,rfl,rfl,rfl⟩

lemma Since.cons (h : Since (c::p) (b::t) bt) (hc : c ≠ star) : Since p t bt := by
  intro after matched hbt
  obtain ⟨q,w,hq,hlen,rfl,rfl⟩ := h after matched hbt
  exact ⟨q++[c],w++[b],by simp [hq,hc.symm],by simp [hlen],by simp,by simp⟩

/-- What the last star could skip more is skipped by what follows it here. -/
lemma Later.suffix (h : Later bt) (hs : Since p t bt) : ∃ s, s <:+ t ∧ Matches p s := by
  obtain ⟨after,matched,hbt,s,hm,h⟩ := h
  obtain ⟨q,w,hq,hlen,rfl,rfl⟩ := hs after matched hbt
  have hsu : s <:+ w++t := hm.trans (tail_suffix _)
  refine ⟨_,suffix_of_suffix_length_le ((drop_suffix ..).trans hsu) (suffix_append w t) ?_,h.drop hq⟩
  have hl := hsu.length_le
  rw [length_append] at hl
  rw [length_drop]
  omega

lemma globLoop_iff (hs : Since p t bt) : globLoop p t bt = true ↔ Matches p t ∨ Later bt := by
  fun_induction globLoop p t bt with
  | case1 p bt =>
    rw [← matches_nil_iff]
    refine (or_iff_left_of_imp fun hl => ?_).symm
    obtain ⟨s,hsu,h⟩ := hl.suffix hs
    rwa [suffix_nil.mp hsu] at h
  | case2 p bt b t hp ih =>
    obtain ⟨p,rfl⟩ := head?_eq_some_iff.mp hp
    rw [ih (since_self _ _),matches_or_later]
    refine matches_star_iff.symm.trans (or_iff_left_of_imp fun hl => ?_).symm
    obtain ⟨s,hsu,h⟩ := hl.suffix hs
    obtain ⟨r,hr,h⟩ := matches_star_iff.mp h
    exact matches_star_iff.mpr ⟨r,hr.trans hsu,h⟩
  | case3 p bt b t hne hc ih =>
    obtain ⟨c,hp,hc⟩ := hc
    obtain ⟨p,rfl⟩ := head?_eq_some_iff.mp hp
    have hst : c ≠ star := fun h => hne (congrArg some h)
    rw [ih (hs.cons hst),matches_cons_iff hst]
    simp [hc]
  | case4 p b t hne hc after matched ih =>
    rw [ih (since_self _ _),matches_or_later]
    simp [not_matches hne hc,Later]
  | case5 p b t hne hc => simp [not_matches hne hc,Later]

/-- `glob_match` decides the matches of a pattern. -/
theorem globMatch_iff (pattern text : Str) :
    globMatch pattern text = true ↔ Matches pattern text := by
  rw [globMatch,globLoop_iff (by rintro _ _ ⟨⟩)]
  exact or_iff_left (by rintro ⟨_,_,⟨⟩,_⟩)

end ArionGateway.GlobPatterns
