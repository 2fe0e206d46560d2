import ArionGateway.ByteStrings
import Mathlib.Algebra.Order.BigOperators.Group.List
import Mathlib.Data.List.TakeWhile
import Mathlib.Tactic.IntervalCases

/-!
# Paths of URIs

Bytes are written in a path as they are or as percent escapes, and a reader
decodes every escape it finds and leaves everything else. What was encoded is
decoded again, whatever follows it. Two texts put together may contain an escape
that begins in the first and ends in the second; otherwise they are decoded
separately.

A path is a list of segments. Removing the dot segments, as RFC 3986 does it when
a reference is resolved, changes no list without them and makes every other one
smaller.
-/
namespace ArionGateway.UriPaths
open ByteStrings
open List

def percent : UInt8 := 37
def slash : UInt8 := 47
def questionMark : UInt8 := 63
def numberSign : UInt8 := 35

section

def hexDigit (n : ℕ) : UInt8 := UInt8.ofNat (if n < 10 then 48+n else 55+n)

def hexValue (b : UInt8) : Option ℕ :=
  if 48 ≤ b && b ≤ 57 then some (b.toNat - 48)
  else if 65 ≤ b && b ≤ 70 then some (b.toNat - 55)
  else if 97 ≤ b && b ≤ 102 then some (b.toNat - 87)
  else none

def isHex (b : UInt8) : Bool := (hexValue b).isSome

/-- Bytes that are not kept are escaped. -/
def percentEncode (keeps : UInt8 → Bool) (s : Str) : Str :=
  s.flatMap fun b =>
    if keeps b then [b] else [percent,hexDigit (b.toNat / 16),hexDigit (b.toNat % 16)]

def escaped (c a b : UInt8) : Option UInt8 :=
  if c = percent then
    match hexValue a, hexValue b with
    | some x, some y => some (UInt8.ofNat (16*x+y))
    | _, _ => none
  else none

/-- A percent sign without two hexadecimal digits after it stands for itself. -/
def percentDecode : Str → Str
  | c::a::b::s =>
    match escaped c a b with
    | some x => x::percentDecode s
    | none => c::percentDecode (a::b::s)
  | s => s

/-- The number of digits that an escape at the end of a text lacks. -/
def wanted : Str → ℕ
  | [] => 0
  | [c] => if c = percent then 2 else 0
  | [c,a] => if c = percent && isHex a then 1 else if a = percent then 2 else 0
  | _::a::b::s => wanted (a::b::s)

/-- An escape begins in the first text and ends in the second. -/
def completes (s t : Str) : Bool :=
  match wanted s, t with
  | 1, a::_ => isHex a
  | 2, a::b::_ => isHex a && isHex b
  | _, _ => false

variable {k : UInt8 → Bool} {a b c : UInt8} {s t : Str}

lemma hexValue_hexDigit {n : ℕ} (h : n < 16) : hexValue (hexDigit n) = some n := by
  interval_cases n <;> rfl

lemma ne_percent_of_isHex (h : isHex a = true) : a ≠ percent := by
  rintro rfl
  cases h

lemma escaped_isSome_iff :
    (escaped c a b).isSome = true ↔ c = percent ∧ isHex a = true ∧ isHex b = true := by
  rw [escaped,isHex,isHex]
  by_cases hc : c = percent
  · cases hexValue a with
    | none => simp [hc]
    | some x => cases hexValue b <;> simp [hc]
  · simp [hc]

lemma escaped_eq_none (h : isHex a = false ∨ isHex b = false) : escaped c a b = none := by
  rw [← Option.not_isSome_iff_eq_none,escaped_isSome_iff]
  rcases h with h | h <;> simp [h]

lemma percentDecode_of_escaped {x : UInt8} (h : escaped c a b = some x) (s : Str) :
    percentDecode (c::a::b::s) = x::percentDecode s := by
  rw [percentDecode,h]

lemma percentDecode_of_not_escaped (h : escaped c a b = none) (s : Str) :
    percentDecode (c::a::b::s) = c::percentDecode (a::b::s) := by
  rw [percentDecode,h]

lemma percentDecode_cons_of_ne (h : c ≠ percent) (s : Str) :
    percentDecode (c::s) = c::percentDecode s := by
  match s with
  | [] => rfl
  | [a] => rfl
  | a::b::s => exact percentDecode_of_not_escaped (if_neg h) s

lemma wanted_cons_of_ne (h : c ≠ percent) (s : Str) : wanted (c::s) = wanted s := by
  match s with
  | [] => simp [wanted,h]
  | [a] => simp [wanted,h]
  | a::b::s => rfl

lemma percentDecode_percent_cons (h : completes [percent] t = false) :
    percentDecode (percent::t) = percent::percentDecode t := by
  match t with
  | [] => rfl
  | [a] => rfl
  | a::b::s =>
    refine percentDecode_of_not_escaped ?_ s
    rw [← Option.not_isSome_iff_eq_none,escaped_isSome_iff]
    simpa [completes,wanted] using h

lemma wanted_of_escaped (h : (escaped c a b).isSome = true) (s : Str) :
    wanted (c::a::b::s) = wanted s := by
  obtain ⟨-,ha,hb⟩ := escaped_isSome_iff.mp h
  calc wanted (c::a::b::s) = wanted (a::b::s) := rfl
    _ = wanted (b::s) := wanted_cons_of_ne (ne_percent_of_isHex ha) _
    _ = wanted s := wanted_cons_of_ne (ne_percent_of_isHex hb) _

/-- Two texts are decoded separately, or the decoded text gets shorter by an escape
that begins in the first and ends in the second. -/
def DecodesAppend (s t : Str) : Prop :=
  (completes s t = false ∧ percentDecode (s++t) = percentDecode s++percentDecode t) ∨
    (completes s t = true ∧
      (percentDecode (s++t)).length < (percentDecode s).length+(percentDecode t).length)

lemma decodesAppend_cons {s' : Str} (hw : wanted s = wanted s')
    (hs : percentDecode s = c::percentDecode s')
    (hst : percentDecode (s++t) = c::percentDecode (s'++t)) (h : DecodesAppend s' t) :
    DecodesAppend s t := by
  have hc : completes s t = completes s' t := by
    unfold completes
    rw [hw]
  rw [DecodesAppend,hc,hs,hst]
  rcases h with ⟨hf,hd⟩ | ⟨ht,hlt⟩
  · exact .inl ⟨hf,by rw [hd,cons_append]⟩
  · refine .inr ⟨ht,?_⟩
    simp only [length_cons]
    omega

lemma decodesAppend_singleton (c : UInt8) (t : Str) : DecodesAppend [c] t := by
  by_cases hc : c = percent
  · subst hc
    cases hco : completes [percent] t with
    | false => exact .inl ⟨hco,percentDecode_percent_cons hco⟩
    | true =>
      match t with
      | a::b::u =>
        have hh : isHex a = true ∧ isHex b = true := by
          simpa [completes,wanted] using hco
        obtain ⟨x,hx⟩ := Option.isSome_iff_exists.mp (escaped_isSome_iff.mpr ⟨rfl,hh⟩)
        refine .inr ⟨hco,?_⟩
        rw [singleton_append,percentDecode_of_escaped hx,
          percentDecode_cons_of_ne (ne_percent_of_isHex hh.1),
          percentDecode_cons_of_ne (ne_percent_of_isHex hh.2)]
        simp only [length_cons]
        omega
  · refine decodesAppend_cons (wanted_cons_of_ne hc []) (percentDecode_cons_of_ne hc [])
      (percentDecode_cons_of_ne hc t) (.inl ⟨?_,rfl⟩)
    rfl

lemma decodesAppend_pair (c a : UInt8) (t : Str) : DecodesAppend [c,a] t := by
  by_cases hc : c = percent
  · subst hc
    cases ha : isHex a with
    | false =>
      refine decodesAppend_cons ?_ rfl ?_ (decodesAppend_singleton a t)
      · simp [wanted,ha]
      · match t with
        | [] => rfl
        | b::u => exact percentDecode_of_not_escaped (escaped_eq_none (.inl ha)) u
    | true =>
      have han := ne_percent_of_isHex ha
      match t with
      | [] => exact .inl ⟨by simp [completes],rfl⟩
      | b::u =>
        have hco : completes [percent,a] (b::u) = isHex b := by
          simp [completes,wanted,ha]
        cases hb : isHex b with
        | false =>
          refine .inl ⟨hco.trans hb,?_⟩
          exact (percentDecode_of_not_escaped (escaped_eq_none (.inr hb)) u).trans
            (congrArg _ (percentDecode_cons_of_ne han (b::u)))
        | true =>
          obtain ⟨x,hx⟩ := Option.isSome_iff_exists.mp (escaped_isSome_iff.mpr ⟨rfl,ha,hb⟩)
          refine .inr ⟨hco.trans hb,?_⟩
          rw [cons_append,singleton_append,percentDecode_of_escaped hx,
            percentDecode_cons_of_ne (ne_percent_of_isHex hb)]
          simp only [percentDecode,length_cons]
          omega
  · exact decodesAppend_cons (wanted_cons_of_ne hc [a]) (percentDecode_cons_of_ne hc [a])
      (percentDecode_cons_of_ne hc (a::t)) (decodesAppend_singleton a t)

lemma decodesAppend (s t : Str) : DecodesAppend s t := by
  induction hn : s.length using Nat.strong_induction_on generalizing s with
  | _ n ih =>
    subst hn
    rcases s with _ | ⟨c,_ | ⟨a,_ | ⟨b,s⟩⟩⟩
    · exact .inl ⟨rfl,rfl⟩
    · exact decodesAppend_singleton c t
    · exact decodesAppend_pair c a t
    · cases hx : escaped c a b with
      | some x =>
        exact decodesAppend_cons (wanted_of_escaped (by rw [hx]; rfl) s)
          (percentDecode_of_escaped hx s) (percentDecode_of_escaped hx (s++t))
          (ih _ (by simp; omega) s rfl)
      | none =>
        have hw : wanted (c::a::b::s) = wanted (a::b::s) := rfl
        exact decodesAppend_cons hw (percentDecode_of_not_escaped hx s)
          (percentDecode_of_not_escaped hx (s++t)) (ih _ (Nat.lt_succ_self _) (a::b::s) rfl)

lemma percentDecode_append (h : completes s t = false) :
    percentDecode (s++t) = percentDecode s++percentDecode t := by
  rcases decodesAppend s t with ⟨-,hd⟩ | ⟨ht,-⟩
  · exact hd
  · rw [h] at ht
    cases ht

lemma length_percentDecode_append_lt (h : completes s t = true) :
    (percentDecode (s++t)).length < (percentDecode s).length+(percentDecode t).length := by
  rcases decodesAppend s t with ⟨hf,-⟩ | ⟨-,hlt⟩
  · rw [h] at hf
    cases hf
  · exact hlt

lemma completes_cons_of_not_isHex (h : isHex c = false) (s t : Str) :
    completes s (c::t) = false := by
  unfold completes
  split
  next heq =>
    cases heq
    exact h
  next heq =>
    cases heq
    simp [h]
  · rfl

lemma percentDecode_percentEncode_append (hk : k percent = false) (s t : Str) :
    percentDecode (percentEncode k s++t) = s++percentDecode t := by
  induction s with
  | nil => rfl
  | cons b s ih =>
    rw [percentEncode,flatMap_cons,← percentEncode]
    by_cases hb : k b = true
    · have hne : b ≠ percent := by
        rintro rfl
        rw [hk] at hb
        cases hb
      rw [if_pos hb,singleton_append,cons_append,percentDecode_cons_of_ne hne,ih,cons_append]
    · have hlt : b.toNat < 256 := b.toNat_lt
      have he : escaped percent (hexDigit (b.toNat / 16)) (hexDigit (b.toNat % 16)) = some b := by
        rw [escaped,if_pos rfl,hexValue_hexDigit (by omega),hexValue_hexDigit (by omega)]
        simp [Nat.div_add_mod]
      rw [if_neg hb]
      simp only [cons_append,nil_append]
      rw [percentDecode_of_escaped he,ih]

lemma isHex_of_mem_percentEncode (hc : c ∈ percentEncode k s) :
    k c = true ∨ c = percent ∨ isHex c = true := by
  obtain ⟨b,-,hc⟩ := mem_flatMap.mp hc
  have hlt : b.toNat < 256 := b.toNat_lt
  have hd : ∀ n < 16, isHex (hexDigit n) = true := by
    intro n hn
    rw [isHex,hexValue_hexDigit hn]
    rfl
  split_ifs at hc with hb
  · rw [mem_singleton.mp hc]
    exact .inl hb
  · simp only [mem_cons,not_mem_nil,or_false] at hc
    rcases hc with rfl | rfl | rfl
    · exact .inr (.inl rfl)
    · exact .inr (.inr (hd _ (by omega)))
    · exact .inr (.inr (hd _ (by omega)))

end

def dotSegment : Str := [46]
def dotDotSegment : Str := [46,46]

def IsDotSegment (segment : Str) : Prop := segment = dotSegment ∨ segment = dotDotSegment

instance (segment : Str) : Decidable (IsDotSegment segment) := inferInstanceAs (Decidable (_ ∨ _))

/-- The segments of the output so far are known, and the last segment of a path
that ends in a dot segment is empty. -/
def removeDotSegmentsFrom (output : List Str) : List Str → List Str
  | [] => output
  | [segment] =>
    if segment = dotSegment then output++[[]]
    else if segment = dotDotSegment then output.dropLast++[[]]
    else output++[segment]
  | segment::next::segments =>
    if segment = dotSegment then removeDotSegmentsFrom output (next::segments)
    else if segment = dotDotSegment then removeDotSegmentsFrom output.dropLast (next::segments)
    else removeDotSegmentsFrom (output++[segment]) (next::segments)

def removeDotSegments (segments : List Str) : List Str := removeDotSegmentsFrom [] segments

def size (segments : List Str) : ℕ := (segments.map fun segment => segment.length+1).sum

variable {segments o : List Str}

lemma size_append (s t : List Str) : size (s++t) = size s+size t := by
  rw [size,map_append,sum_append,← size,← size]

lemma size_cons (se : Str) (segments : List Str) :
    size (se::segments) = se.length+1+size segments := by
  rw [size,map_cons,sum_cons,← size]

lemma size_dropLast_le (segments : List Str) : size segments.dropLast ≤ size segments :=
  ((dropLast_sublist segments).map _).sum_le_sum fun _ _ => Nat.zero_le _

lemma removeDotSegmentsFrom_of_forall_not (h : ∀ se ∈ segments, ¬ IsDotSegment se) :
    removeDotSegmentsFrom o segments = o++segments := by
  induction segments generalizing o with
  | nil => exact (append_nil _).symm
  | cons se segments ih =>
    obtain ⟨hsg,hse⟩ := forall_mem_cons.mp h
    obtain ⟨hdo,hd⟩ := not_or.mp hsg
    cases segments with
    | nil => rw [removeDotSegmentsFrom,if_neg hdo,if_neg hd]
    | cons n segments =>
      rw [removeDotSegmentsFrom,if_neg hdo,if_neg hd,ih hse,append_assoc,singleton_append]

lemma size_removeDotSegmentsFrom (o se : List Str) :
    size (removeDotSegmentsFrom o se) ≤ size o+size se ∧ ((∃ sg ∈ se, IsDotSegment sg) →
        size (removeDotSegmentsFrom o se) < size o+size se) := by
  have he : size [] = 0 := rfl
  fun_induction removeDotSegmentsFrom o se with
  | case1 => exact ⟨le_refl _,fun ⟨_,hm,_⟩ => absurd hm not_mem_nil⟩
  | case2 o =>
    rw [size_append,size_cons,size_cons]
    simp only [dotSegment,length_cons]
    omega
  | case3 o =>
    have hdr := size_dropLast_le o
    rw [size_append,size_cons,size_cons]
    simp only [dotDotSegment,length_cons]
    omega
  | case4 o sg hdo hd =>
    rw [size_append]
    refine ⟨le_refl _,fun ⟨other,hm,ho⟩ => ?_⟩
    rw [mem_singleton.mp hm] at ho
    exact absurd ho (not_or.mpr ⟨hdo,hd⟩)
  | case5 o n se ih =>
    rw [size_cons dotSegment]
    omega
  | case6 o n se _ ih =>
    have hdr := size_dropLast_le o
    rw [size_cons dotDotSegment]
    omega
  | case7 o sg n se hdo hd ih =>
    obtain ⟨hle,hlt⟩ := ih
    rw [size_append,size_cons sg []] at hle hlt
    rw [size_cons sg]
    refine ⟨by omega,fun ⟨other,hm,ho⟩ => ?_⟩
    rcases mem_cons.mp hm with rfl | hm
    · exact absurd ho (not_or.mpr ⟨hdo,hd⟩)
    · have hlt := hlt ⟨other,hm,ho⟩
      omega

lemma size_removeDotSegments_le (segments : List Str) :
    size (removeDotSegments segments) ≤ size segments :=
  (size_removeDotSegmentsFrom [] segments).1.trans (le_of_eq (zero_add _))

lemma size_removeDotSegments_lt (h : ∃ se ∈ segments, IsDotSegment se) :
    size (removeDotSegments segments) < size segments :=
  ((size_removeDotSegmentsFrom [] segments).2 h).trans_le (le_of_eq (zero_add _))

lemma size_map_percentDecode_splitOn (s : Str) :
    size ((s.splitOn slash).map percentDecode) = (percentDecode s).length+1 := by
  induction hl : s.length using Nat.strong_induction_on generalizing s with
  | _ n ih =>
    by_cases hsl : slash ∈ s
    · obtain ⟨a,b,rfl,ha⟩ := eq_append_cons_of_mem hsl
      have hb := ih b.length (by rw [← hl,length_append,length_cons]; omega) b rfl
      rw [splitOn_append_cons_self_of_not_mem ha,map_cons,size_cons,
        percentDecode_append (completes_cons_of_not_isHex rfl a b),
        percentDecode_cons_of_ne (by decide),length_append,length_cons]
      omega
    · rw [splitOn_eq_singleton hsl,map_singleton]
      rfl

lemma splitOn_append_of_not_mem {a : Str} (h : slash ∉ a) (b : Str) :
    (a++b).splitOn slash = (b.splitOn slash).modifyHead (a++·) := by
  induction a with
  | nil =>
    rw [nil_append]
    cases b.splitOn slash <;> rfl
  | cons c a ih =>
    have hc : (c == slash) = false := by
      simpa using fun hc : c = slash => h (hc ▸ mem_cons_self)
    rw [cons_append,splitOn_cons_eq_if_modifyHead,hc,ih fun hm => h (mem_cons_of_mem c hm)]
    cases b.splitOn slash <;> rfl

def pathPart (s : Str) : Str := s.takeWhile fun b => b != questionMark && b != numberSign

lemma pathPart_eq_self {s : Str} (h : ∀ b ∈ s, b ≠ questionMark ∧ b ≠ numberSign) :
    pathPart s = s := by
  refine takeWhile_eq_self_iff.mpr fun b hb => ?_
  simpa using h b hb

lemma length_percentDecode_pathPart_lt {s : Str} (h : ∃ b ∈ s, b = questionMark ∨ b = numberSign) :
    (percentDecode (pathPart s)).length < (percentDecode s).length := by
  have hsp : pathPart s++s.dropWhile _ = s := takeWhile_append_dropWhile
  cases hr : s.dropWhile fun b => b != questionMark && b != numberSign with
  | nil =>
    obtain ⟨b,hb,he⟩ := h
    have hk := dropWhile_eq_nil_iff.mp hr b hb
    rcases he with rfl | rfl <;> cases hk
  | cons c rest =>
    have hc : c = questionMark ∨ c = numberSign := by
      have hh := head_dropWhile_not (fun b => b != questionMark && b != numberSign)
        (by rw [hr]; exact cons_ne_nil c rest)
      simp only [hr] at hh
      by_cases hq : c = questionMark
      · exact .inl hq
      · simpa [hq] using hh
    have hhe : isHex c = false := by rcases hc with rfl | rfl <;> rfl
    have hne : c ≠ percent := by rcases hc with rfl | rfl <;> decide
    rw [hr] at hsp
    have hd : percentDecode s = percentDecode (pathPart s)++c::percentDecode rest := by
      conv_lhs => rw [← hsp]
      rw [percentDecode_append (completes_cons_of_not_isHex hhe _ rest),
        percentDecode_cons_of_ne hne]
    rw [hd,length_append,length_cons]
    omega

lemma length_percentDecode_pathPart_le (s : Str) :
    (percentDecode (pathPart s)).length ≤ (percentDecode s).length := by
  by_cases h : ∃ b ∈ s, b = questionMark ∨ b = numberSign
  · exact (length_percentDecode_pathPart_lt h).le
  · rw [pathPart_eq_self fun b hb => not_or.mp fun he => h ⟨b,hb,he⟩]

end ArionGateway.UriPaths
