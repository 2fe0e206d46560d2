import ArionGateway.HttpHeaders

/-!
# String matchers

The matchers of a configuration (`StringMatcher` of `arion-configuration/src/config/core.rs`):
a pattern and whether case counts, which a regular expression and `present` do
not look at. The slices are taken on bytes: a pattern is itself valid text, so
where its bytes stand in a text there are character boundaries. The regular
expression library is a parameter that says where the first match stands;
`matchesFull` is the source's test on top of it.
-/
namespace ArionGateway.StringMatchers
open ByteStrings HttpHeaders List

class RegexEngine (ρ : Type) where
  /-- Start and end of the match of `Regex::find_at(text, 0)`. -/
  findAt : ρ → Str → Option (ℕ × ℕ)

inductive StringMatcherPattern (ρ : Type) where
  | exact (s : Str)
  | prefixOf (s : Str)
  | suffix (s : Str)
  | contains (s : Str)
  | regex (r : ρ)
  | present
  deriving DecidableEq

structure StringMatcher (ρ : Type) where
  ignoreCase : Bool := false
  pattern : StringMatcherPattern ρ
  deriving DecidableEq

/-- `text.get(start..start + length)`. -/
def slice (text : Str) (start length : ℕ) : Option Str :=
  if start+length ≤ text.length then some ((text.drop start).take length) else none

/-- Whether case counts, and the text to look into. -/
structure CaseSensitive where
  sensitive : Bool
  text : Str

namespace CaseSensitive

def equals (c : CaseSensitive) (b : Str) : Bool :=
  if c.sensitive then c.text == b else eqIgnoreAsciiCase c.text b

def startsWith (c : CaseSensitive) (start : Str) : Bool :=
  if c.sensitive then ByteStrings.startsWith c.text start
  else (slice c.text 0 start.length).any (eqIgnoreAsciiCase · start)

def endsWith (c : CaseSensitive) (ending : Str) : Bool :=
  if c.sensitive then ByteStrings.endsWith c.text ending
  else if ending.length ≤ c.text.length then
    (slice c.text (c.text.length - ending.length) ending.length).any (eqIgnoreAsciiCase · ending)
  else false

/-- Without case only positions before the end of the text are tried. -/
def find (c : CaseSensitive) (needle : Str) : Option ℕ :=
  if c.sensitive then
    (List.range (c.text.length+1)).find? fun i => ByteStrings.startsWith (c.text.drop i) needle
  else
    (List.range c.text.length).find? fun i =>
      (slice c.text i needle.length).any (eqIgnoreAsciiCase · needle)

def contains (c : CaseSensitive) (needle : Str) : Bool := (c.find needle).isSome

variable {c : CaseSensitive} {s t : Str}

lemma equals_of_length (h : c.equals s = true) : c.text.length = s.length := by
  unfold equals at h
  split at h
  · exact congrArg length (by simpa using h)
  · have h : toAsciiLowercase c.text = toAsciiLowercase s := by simpa [eqIgnoreAsciiCase] using h
    simpa [toAsciiLowercase] using congrArg length h

end CaseSensitive

open CaseSensitive

variable {ρ : Type} [RegexEngine ρ]

def matchesFull (r : ρ) (toMatch : Str) : Bool :=
  some toMatch.length == (RegexEngine.findAt r toMatch).map fun found => found.2 - found.1

def StringMatcher.new (s : Str) : StringMatcher ρ := { pattern := .exact s }

def StringMatcher.matchesText (m : StringMatcher ρ) (toMatch : Str) : Bool :=
  let casematcher : CaseSensitive := ⟨!m.ignoreCase,toMatch⟩
  match m.pattern with
  | .exact s => casematcher.equals s
  | .prefixOf s => casematcher.startsWith s
  | .suffix s => casematcher.endsWith s
  | .contains s => casematcher.contains s
  | .regex r => matchesFull r toMatch
  | .present => true

variable {s : Str} {sensitive : Bool}

lemma eq_star_of_toAsciiLowercase {b : UInt8} (h : [42] = toAsciiLowercase [b]) : b = 42 := by
  simp only [toAsciiLowercase] at h
  grind

lemma eq_star_of_equals (h : equals ⟨sensitive,str "*"⟩ s = true) : s = str "*" := by
  obtain ⟨b,rfl⟩ := length_eq_one_iff.mp (equals_of_length h).symm
  cases sensitive with
  | true => exact (beq_iff_eq.mp h).symm
  | false => rw [eq_star_of_toAsciiLowercase (beq_iff_eq.mp h)]; rfl

/-- The pattern of a matcher that ignores case, in lower case. -/
def StringMatcherPattern.lowercased {ρ : Type} : StringMatcherPattern ρ → StringMatcherPattern ρ
  | .exact s => .exact (toAsciiLowercase s)
  | .prefixOf s => .prefixOf (toAsciiLowercase s)
  | .suffix s => .suffix (toAsciiLowercase s)
  | .contains s => .contains (toAsciiLowercase s)
  | .regex r => .regex r
  | .present => .present

/-- Patterns that are texts, the ones for which case can be ignored. -/
def StringMatcherPattern.IsText {ρ : Type} : StringMatcherPattern ρ → Prop
  | .regex _ | .present => False
  | _ => True

@[simp] lemma length_toAsciiLowercase (s : Str) : (toAsciiLowercase s).length = s.length :=
  length_map _

lemma slice_any_iff {s t : Str} {i : ℕ} (hi : i ≤ t.length) :
    (slice t i s.length).any (eqIgnoreAsciiCase · s) = true ↔
      toAsciiLowercase s <+: (toAsciiLowercase t).drop i := by
  rw [prefix_iff_eq_take,length_toAsciiLowercase,slice]
  split
  · rw [Option.any_some,eqIgnoreAsciiCase,beq_iff_eq,eq_comm]
    simp [toAsciiLowercase]
  · next hlt =>
    refine iff_of_false nofun fun h => hlt ?_
    have := congrArg length h
    simp only [length_take,length_drop,length_toAsciiLowercase] at this
    omega

variable {s t : Str}

lemma endsWith_insensitive : CaseSensitive.endsWith ⟨false,t⟩ s = true ↔
    toAsciiLowercase s <:+ toAsciiLowercase t := by
  rw [CaseSensitive.endsWith,if_neg Bool.false_ne_true]
  split
  · next hle =>
    rw [slice_any_iff (Nat.sub_le ..),suffix_iff_eq_drop,length_toAsciiLowercase,length_toAsciiLowercase]
    refine ⟨fun h => h.eq_of_length ?_,fun h => h ▸ prefix_rfl⟩
    simp [Nat.sub_sub_self hle]
  · next hlt =>
    refine iff_of_false Bool.false_ne_true fun h => hlt ?_
    simpa using h.length_le

lemma contains_insensitive : contains ⟨false,t⟩ s = true ↔
    ∃ i < t.length, toAsciiLowercase s <+: (toAsciiLowercase t).drop i := by
  simp only [CaseSensitive.contains,CaseSensitive.find,Bool.false_eq_true,if_false,
    find?_isSome,mem_range]
  exact exists_congr fun i => and_congr_right fun hi => slice_any_iff hi.le

lemma contains_sensitive : contains ⟨true,t⟩ s = true ↔ ∃ i < t.length+1, s <+: t.drop i := by
  simp [CaseSensitive.contains,CaseSensitive.find,startsWith_iff]

/-- Only the end of the text is tried with case and not without, where nothing but the
empty needle stands. -/
lemma contains_lowercased_iff : contains ⟨false,t⟩ s =
      contains ⟨true,toAsciiLowercase t⟩ (toAsciiLowercase s) ↔ ¬ (s = [] ∧ t = []) := by
  rw [Bool.eq_iff_iff,contains_insensitive,contains_sensitive]
  constructor
  · rintro h ⟨rfl,rfl⟩
    obtain ⟨i,hi,-⟩ := h.mpr ⟨0,one_pos,prefix_rfl⟩
    exact Nat.not_lt_zero i hi
  · intro hne
    rw [length_toAsciiLowercase]
    refine ⟨fun ⟨i,hi,h⟩ => ⟨i,hi.trans (Nat.lt_succ_self _),h⟩,fun ⟨i,hi,h⟩ => ?_⟩
    rcases Nat.lt_succ_iff_lt_or_eq.mp hi with hi | rfl
    · exact ⟨i,hi,h⟩
    · rw [drop_of_length_le (length_toAsciiLowercase t).le,prefix_nil] at h
      have hs : s = [] := map_eq_nil_iff.mp h
      exact ⟨0,length_pos_of_ne_nil fun ht => hne ⟨hs,ht⟩,h ▸ nil_prefix⟩

/-- Ignoring case, a text pattern matches as its lower case matches the lower case of the
text, except that the empty needle is not found in the empty text. -/
theorem matches_lowercased_iff {ρ : Type} [RegexEngine ρ] (pattern : StringMatcherPattern ρ)
    (hp : pattern.IsText) (toMatch : Str) :
    StringMatcher.matchesText ⟨true,pattern⟩ toMatch =
        StringMatcher.matchesText ⟨false,pattern.lowercased⟩ (toAsciiLowercase toMatch) ↔
      ¬ (pattern = .contains [] ∧ toMatch = []) := by
  cases pattern with
  | exact s => exact iff_of_true rfl (fun h => by cases h.1)
  | prefixOf s =>
    refine iff_of_true ?_ (fun h => by cases h.1)
    rw [Bool.eq_iff_iff]
    exact (slice_any_iff (Nat.zero_le _)).trans startsWith_iff.symm
  | suffix s =>
    refine iff_of_true ?_ (fun h => by cases h.1)
    rw [Bool.eq_iff_iff]
    exact endsWith_insensitive.trans endsWith_iff.symm
  | contains s =>
    rw [StringMatcherPattern.contains.injEq]
    exact contains_lowercased_iff
  | regex r => exact hp.elim
  | present => exact hp.elim

local instance : RegexEngine Empty where
  findAt r := r.elim

/-- The empty text contains the empty needle, but not when case is ignored. -/
theorem empty_needle_not_found :
    StringMatcher.matchesText (⟨true,.contains []⟩ : StringMatcher Empty) [] = false ∧
    StringMatcher.matchesText (⟨false,.contains []⟩ : StringMatcher Empty) [] = true := ⟨rfl,rfl⟩

theorem suffix_matched_in_other_case :
    (.suffix (str "JSON") : StringMatcherPattern Empty).IsText ∧
    StringMatcher.matchesText (⟨true,.suffix (str "JSON")⟩ : StringMatcher Empty) (str "a.Json") =
      StringMatcher.matchesText (⟨false,.suffix (str "json")⟩ : StringMatcher Empty)
        (str "a.json") := by
  refine ⟨trivial,(matches_lowercased_iff (.suffix (str "JSON")) trivial (str "a.Json")).mpr ?_⟩
  intro h
  cases h.1

end ArionGateway.StringMatchers
