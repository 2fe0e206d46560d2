import Mathlib.Data.UInt

/-!
# Strings as byte sequences

A Rust `str` is its sequence of UTF-8 bytes: lengths, prefixes, suffixes and
slices of the source are all taken on bytes. Sequences that are not valid UTF-8
are included, so a result about every `Str` covers every string. Searching for
an ASCII character is searching for its byte.
-/
namespace ArionGateway.ByteStrings
open List

abbrev Str := List UInt8

def str (s : String) : Str := s.toUTF8.data.toList

/-- What holds of the bytes of a text is decided on the text and not on all bytes. -/
instance (priority := high) decidableForallMem (s : Str) (p : UInt8 → Prop) [DecidablePred p] :
    Decidable (∀ b ∈ s, p b) := decidableBAll p s

def dot : UInt8 := 46
def star : UInt8 := 42
def colon : UInt8 := 58
def closingBracket : UInt8 := 93

def endsWith (s t : Str) : Bool := t.isSuffixOf s

def startsWith (s t : Str) : Bool := t.isPrefixOf s

lemma endsWith_iff {s t : Str} : endsWith s t = true ↔ t <:+ s := isSuffixOf_iff_suffix

lemma startsWith_iff {s t : Str} : startsWith s t = true ↔ t <+: s := isPrefixOf_iff_prefix

/-- `s.strip_suffix(c).unwrap_or(s)` for one character. -/
def stripTrailing (c : UInt8) (s : Str) : Str :=
  if s.getLast? = some c then s.dropLast else s

/-- The slices `s.get(idx..)` for the `idx` of `s.match_indices(c)`, in order. -/
def suffixesAt (c : UInt8) (s : Str) : List Str :=
  s.tails.filter fun t => decide (t.head? = some c)

@[simp] lemma suffixesAt_nil (c : UInt8) : suffixesAt c [] = [] := rfl

lemma suffixesAt_cons (c b : UInt8) (s : Str) :
    suffixesAt c (b::s) = if b = c then (b::s)::suffixesAt c s else suffixesAt c s := by
  unfold suffixesAt
  rw [tails_cons,filter_cons]
  simp

lemma mem_suffixesAt {c : UInt8} {s t : Str} : t ∈ suffixesAt c s ↔ t <:+ s ∧ t.head? = some c := by
  simp [suffixesAt]

/-- A suffix that starts with `c` is found after as many earlier occurrences of
`c` as precede it. -/
lemma findIdx?_suffixesAt {c : UInt8} {s t : Str} (ht : t ∈ suffixesAt c s) :
    (suffixesAt c s).findIdx? (fun u => decide (u = t)) =
      some ((s.take (s.length - t.length)).count c) := by
  induction s with
  | nil => simp at ht
  | cons b s ih =>
    obtain ⟨hsu,hh⟩ := mem_suffixesAt.mp ht
    rcases suffix_cons_iff.mp hsu with rfl | hs'
    · have hb : b = c := by simpa using hh
      rw [suffixesAt_cons,if_pos hb,findIdx?_cons]
      simp
    · have hlen : t.length ≤ s.length := hs'.length_le
      have hne : b::s ≠ t := by
        intro heq
        have := congrArg length heq
        simp only [length_cons] at this
        omega
      have hsb : (b::s).length - t.length = (s.length - t.length)+1 := by
        simp only [length_cons]
        omega
      have hm : t ∈ suffixesAt c s := mem_suffixesAt.mpr ⟨hs',hh⟩
      rw [hsb,take_succ_cons,suffixesAt_cons]
      by_cases hb : b = c
      · rw [if_pos hb,findIdx?_cons,ih hm,decide_eq_false hne]
        simp [hb]
      · rw [if_neg hb,ih hm]
        simp [hb]

end ArionGateway.ByteStrings
