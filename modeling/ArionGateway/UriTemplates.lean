import ArionGateway.UriPaths

/-!
# Templates of URI paths

A template is a list of texts and parameters. Texts are written as they are and
the value of a parameter is percent-encoded. The reader of the path splits it at
the slashes, decodes the segments and removes the dot segments.

The segments which the reader gets are those of the template exactly if no text
begins a query or a fragment, no escape begins in a text and ends in the value
after it, and no segment becomes a dot segment: everything else would make the
result shorter.
-/
namespace ArionGateway.UriTemplates
open ByteStrings UriPaths List

inductive Piece where
  | text (text : Str)
  | parameter (name : Str)
  deriving DecidableEq

/-- The bytes that are not escaped in values have no meaning in a path. -/
structure EncodeSet where
  keeps : UInt8 → Bool
  ne_of_keeps : ∀ b, keeps b = true → b ≠ percent ∧ b ≠ slash ∧ b ≠ questionMark ∧ b ≠ numberSign

variable (set : EncodeSet) (values : Str → Str)

def Piece.rendered : Piece → Str
  | .text literal => literal
  | .parameter name => percentEncode set.keeps (values name)

def Piece.meaning : Piece → Str
  | .text literal => percentDecode literal
  | .parameter name => values name

def renderedText (pieces : List Piece) : Str := pieces.flatMap (Piece.rendered set values)

def meaningText (pieces : List Piece) : Str := pieces.flatMap (Piece.meaning values)

/-- The parts of a text between slashes stand before the segments that follow. -/
def putBefore : List Str → List (List Piece) → List (List Piece)
  | [], segments => segments
  | [part], segments => segments.modifyHead (.text part::·)
  | part::next::parts, segments => [.text part]::putBefore (next::parts) segments

def segmentsOf : List Piece → List (List Piece)
  | [] => [[]]
  | .text literal::pieces => putBefore (literal.splitOn slash) (segmentsOf pieces)
  | .parameter name::pieces => (segmentsOf pieces).modifyHead (.parameter name::·)

/-- No escape begins in a text of a segment and ends after it. -/
def EscapesApart : List Piece → Prop
  | [] => True
  | .text literal::pieces =>
    completes literal (renderedText set values pieces) = false ∧ EscapesApart pieces
  | .parameter _::pieces => EscapesApart pieces

instance EscapesApart.decidable (set : EncodeSet) (values : Str → Str) :
    (segment : List Piece) → Decidable (EscapesApart set values segment)
  | [] => inferInstanceAs (Decidable True)
  | .text _::pieces =>
    have := EscapesApart.decidable set values pieces
    inferInstanceAs (Decidable (_ ∧ _))
  | .parameter _::pieces => EscapesApart.decidable set values pieces

def PathOnly (pieces : List Piece) : Prop :=
  ∀ literal, .text literal ∈ pieces → ∀ b ∈ literal, b ≠ questionMark ∧ b ≠ numberSign

/-- The segments that the reader of a path without its first slash gets. -/
def readSegments (path : Str) : List Str :=
  removeDotSegments ((path.splitOn slash).map percentDecode)

variable {set values} {pieces segment : List Piece}

lemma not_mem_percentEncode {b : UInt8} (hb : b = slash ∨ b = questionMark ∨ b = numberSign)
    (s : Str) : b ∉ percentEncode set.keeps s := by
  intro hm
  rcases isHex_of_mem_percentEncode hm with h | rfl | h
  · obtain ⟨-,hs,hq,hn⟩ := set.ne_of_keeps b h
    exact hb.elim hs (Or.elim · hq hn)
  · revert hb
    decide
  · rcases hb with rfl | rfl | rfl <;> cases h

lemma putBefore_cons {p : List Str} (hp : p ≠ []) (pa : Str) (segments : List (List Piece)) :
    putBefore (pa::p) segments = [.text pa]::putBefore p segments := by
  cases p with
  | nil => exact absurd rfl hp
  | cons n p => rfl

lemma splitOn_append_rendered {r : Str} {s : List (List Piece)}
    (hr : r.splitOn slash = s.map (renderedText set values)) (l : Str) :
    (l++r).splitOn slash = (putBefore (l.splitOn slash) s).map (renderedText set values) := by
  induction hl : l.length using Nat.strong_induction_on generalizing l with
  | _ n ih =>
    by_cases hsl : slash ∈ l
    · obtain ⟨a,b,rfl,ha⟩ := eq_append_cons_of_mem hsl
      have hb := ih b.length (by rw [← hl,length_append,length_cons]; omega) b rfl
      rw [append_assoc,cons_append,splitOn_append_cons_self_of_not_mem ha,hb,
        splitOn_append_cons_self_of_not_mem ha,putBefore_cons (splitOn_ne_nil _ _),
        map_cons,renderedText,flatMap_singleton]
      rfl
    · rw [splitOn_eq_singleton hsl,splitOn_append_of_not_mem hsl r,hr]
      cases s <;> rfl

variable (p : List Piece)

lemma splitOn_renderedText :
    (renderedText set values p).splitOn slash = (segmentsOf p).map (renderedText set values) := by
  induction p with
  | nil => rfl
  | cons pc p ih =>
    cases pc with
    | text l => exact splitOn_append_rendered ih l
    | parameter n =>
      refine (splitOn_append_of_not_mem (not_mem_percentEncode (.inl rfl) (values n)) _).trans ?_
      change (splitOn slash (renderedText set values p)).modifyHead _ = _
      rw [ih,segmentsOf]
      cases segmentsOf p <;> rfl

variable (set values) in
lemma decode_segment (segment : List Piece) : (EscapesApart set values segment ∧
        percentDecode (renderedText set values segment) = meaningText values segment) ∨
      (¬ EscapesApart set values segment ∧
        (percentDecode (renderedText set values segment)).length <
          (meaningText values segment).length) := by
  induction segment with
  | nil => exact .inl ⟨trivial,rfl⟩
  | cons pc segment ih =>
    have hr : renderedText set values (pc::segment) =
        pc.rendered set values++renderedText set values segment := flatMap_cons
    have hm : meaningText values (pc::segment) =
        pc.meaning values++meaningText values segment := flatMap_cons
    rw [hr,hm]
    cases pc with
    | parameter n =>
      have hk : set.keeps percent = false :=
        Bool.eq_false_iff.mpr fun h => (set.ne_of_keeps percent h).1 rfl
      have hd := percentDecode_percentEncode_append hk (values n) (renderedText set values segment)
      rw [Piece.rendered,Piece.meaning,hd]
      rcases ih with ⟨ha,heq⟩ | ⟨ha,hlt⟩
      · exact .inl ⟨ha,by rw [heq]⟩
      · refine .inr ⟨ha,?_⟩
        rw [length_append,length_append]
        omega
    | text l =>
      rw [Piece.rendered,Piece.meaning,length_append]
      cases hc : completes l (renderedText set values segment) with
      | true =>
        have hsh := length_percentDecode_append_lt hc
        refine .inr ⟨fun ha => ?_,?_⟩
        · rw [ha.1] at hc
          cases hc
        · rcases ih with ⟨-,heq⟩ | ⟨-,hlt⟩
          · rw [heq] at hsh
            exact hsh
          · omega
      | false =>
        rw [percentDecode_append hc,length_append]
        rcases ih with ⟨ha,heq⟩ | ⟨ha,hlt⟩
        · exact .inl ⟨⟨hc,ha⟩,by rw [heq]⟩
        · exact .inr ⟨fun h => ha h.2,by omega⟩

lemma percentDecode_renderedText (h : EscapesApart set values segment) :
    percentDecode (renderedText set values segment) = meaningText values segment := by
  rcases decode_segment set values segment with ⟨-,heq⟩ | ⟨hn,-⟩
  · exact heq
  · exact absurd h hn

variable (set values) in
lemma size_decode_segments (s : List (List Piece)) :
    size (s.map (percentDecode ∘ renderedText set values)) ≤ size (s.map (meaningText values)) ∧
      (size (s.map (percentDecode ∘ renderedText set values)) = size (s.map (meaningText values)) →
        ∀ segment ∈ s, EscapesApart set values segment) := by
  induction s with
  | nil => exact ⟨le_refl _,fun _ _ hm => absurd hm not_mem_nil⟩
  | cons segment s ih =>
    obtain ⟨hle,ha⟩ := ih
    simp only [map_cons,size_cons,Function.comp_apply,forall_mem_cons]
    rcases decode_segment set values segment with ⟨hh,heq⟩ | ⟨-,hlt⟩
    · rw [heq]
      exact ⟨by omega,fun hsi => ⟨hh,ha (by omega)⟩⟩
    · exact ⟨by omega,fun hsi => by omega⟩

variable (set values) in
lemma length_decode_renderedText : (percentDecode (renderedText set values p)).length+1 =
      size ((segmentsOf p).map (percentDecode ∘ renderedText set values)) := by
  rw [← size_map_percentDecode_splitOn,splitOn_renderedText,map_map]

lemma size_readSegments_le (p : Str) :
    size (readSegments (pathPart p)) ≤ (percentDecode p).length+1 := by
  have hle := size_removeDotSegments_le (((pathPart p).splitOn slash).map percentDecode)
  rw [size_map_percentDecode_splitOn] at hle
  exact hle.trans (Nat.succ_le_succ (length_percentDecode_pathPart_le p))

variable (set values) in
lemma pathOnly_iff :
    PathOnly p ↔ ∀ b ∈ renderedText set values p, b ≠ questionMark ∧ b ≠ numberSign := by
  constructor
  · intro h b hb
    obtain ⟨pc,hp,hb⟩ := mem_flatMap.mp hb
    cases pc with
    | text l => exact h l hp b hb
    | parameter n =>
      exact ⟨fun h => not_mem_percentEncode (.inr (.inl h)) _ hb,
        fun h => not_mem_percentEncode (.inr (.inr h)) _ hb⟩
  · intro h l hl b hb
    exact h b (mem_flatMap.mpr ⟨_,hl,hb⟩)

/-- The reader gets the segments of the template exactly if the texts are texts of a
path, the values complete no escape, and no segment becomes a dot segment. -/
lemma readSegments_eq_iff (pieces : List Piece) :
    readSegments (pathPart (renderedText set values pieces)) =
        (segmentsOf pieces).map (meaningText values) ↔
      PathOnly pieces ∧ (∀ segment ∈ segmentsOf pieces, EscapesApart set values segment) ∧
        ∀ segment ∈ segmentsOf pieces, ¬ IsDotSegment (meaningText values segment) := by
  have hd : (∀ segment ∈ segmentsOf pieces, EscapesApart set values segment) →
      (segmentsOf pieces).map (percentDecode ∘ renderedText set values) =
        (segmentsOf pieces).map (meaningText values) := fun h =>
    map_congr_left fun segment hse => percentDecode_renderedText (h segment hse)
  constructor
  · intro h
    -- the sizes of all stages are equal, since none of them makes the result longer
    have hsi := congrArg size h
    have hr := size_removeDotSegments_le
      (((pathPart (renderedText set values pieces)).splitOn slash).map percentDecode)
    rw [← readSegments,size_map_percentDecode_splitOn] at hr
    have hpa := length_percentDecode_pathPart_le (renderedText set values pieces)
    have hl := length_decode_renderedText set values pieces
    obtain ⟨hsg,ha⟩ := size_decode_segments set values (segmentsOf pieces)
    have hp : PathOnly pieces := by
      by_contra hn
      rw [pathOnly_iff set values] at hn
      push Not at hn
      obtain ⟨b,hb,hed⟩ := hn
      have hlt := length_percentDecode_pathPart_lt ⟨b,hb,or_iff_not_imp_left.mpr hed⟩
      omega
    have he := ha (by omega)
    refine ⟨hp,he,fun segment hse hdt => ?_⟩
    rw [pathPart_eq_self ((pathOnly_iff set values pieces).mp hp),readSegments,splitOn_renderedText,
      map_map,hd he] at hsi
    have hlt := size_removeDotSegments_lt ⟨_,mem_map_of_mem (f := meaningText values) hse,hdt⟩
    omega
  · rintro ⟨hp,he,hdo⟩
    rw [pathPart_eq_self ((pathOnly_iff set values pieces).mp hp),readSegments,splitOn_renderedText,
      map_map,hd he]
    exact removeDotSegmentsFrom_of_forall_not (forall_mem_map.mpr hdo)

def isAbsolute : List Piece → Bool
  | .text (c::_)::_ => c == slash
  | _ => false

def relative : List Piece → List Piece
  | .text (c::literal)::pieces =>
    if c = slash then .text literal::pieces else .text (c::literal)::pieces
  | pieces => pieces

/-- Nothing but empty texts and values stands before the first slash. -/
def leadsWithSlash (values : Str → Str) : List Piece → Bool
  | [] => false
  | .text []::pieces => leadsWithSlash values pieces
  | .text (c::_)::_ => c == slash
  | .parameter name::pieces => values name == [] && leadsWithSlash values pieces

def rooted (path : Str) : Str := if path.head? = some slash then path else slash::path

variable (set values) in
lemma head?_renderedText (pieces : List Piece) :
    (renderedText set values pieces).head? = some slash ↔ leadsWithSlash values pieces = true := by
  induction pieces using leadsWithSlash.induct with
  | case1 => exact iff_of_false nofun nofun
  | case2 pieces ih => exact ih
  | case3 c literal pieces => simp [renderedText,Piece.rendered,leadsWithSlash]
  | case4 name pieces ih =>
    have hc : renderedText set values (.parameter name::pieces) =
        percentEncode set.keeps (values name)++renderedText set values pieces :=
      flatMap_cons
    rw [hc,leadsWithSlash]
    cases hv : values name with
    | nil => simpa [percentEncode] using ih
    | cons b v =>
      obtain ⟨c,rest,he⟩ : ∃ c rest, percentEncode set.keeps (b::v) = c::rest := by
        rw [percentEncode,flatMap_cons]
        split <;> exact ⟨_,_,rfl⟩
      have hne : c ≠ slash := fun h =>
        not_mem_percentEncode (.inl h) (b::v) (he ▸ mem_cons_self)
      simp [he,hne]

lemma relative_of_not_isAbsolute (h : isAbsolute pieces = false) : relative pieces = pieces := by
  match pieces with
  | [] => rfl
  | .text []::_ => rfl
  | .parameter _::_ => rfl
  | .text (c::_)::_ =>
    have hc : ¬ c = slash := by simpa [isAbsolute] using h
    exact if_neg hc

lemma renderedText_of_isAbsolute (h : isAbsolute pieces = true) :
    renderedText set values pieces = slash::renderedText set values (relative pieces) := by
  match pieces with
  | .text (c::literal)::pieces =>
    obtain rfl : c = slash := by simpa [isAbsolute] using h
    rfl

/-- The reader of the rooted path gets the segments of the template exactly if it would
get them from the text after the slash, and the slash in front is not one of a later
segment. -/
lemma readSegments_rooted_iff : readSegments (pathPart (rooted (renderedText set values p)).tail) =
        (segmentsOf (relative p)).map (meaningText values) ↔
      (leadsWithSlash values p = true → isAbsolute p = true) ∧ PathOnly (relative p) ∧
        (∀ segment ∈ segmentsOf (relative p), EscapesApart set values segment) ∧
        ∀ segment ∈ segmentsOf (relative p), ¬ IsDotSegment (meaningText values segment) := by
  rw [← readSegments_eq_iff]
  cases ha : isAbsolute p with
  | true =>
    have hh : (renderedText set values p).head? = some slash :=
      (head?_renderedText set values p).mpr (by match p with | .text (_::_)::_ => exact ha)
    rw [rooted,if_pos hh,renderedText_of_isAbsolute ha]
    exact (and_iff_right fun _ => rfl).symm
  | false =>
    rw [relative_of_not_isAbsolute ha]
    cases hl : leadsWithSlash values p with
    | false =>
      have hh : ¬ (renderedText set values p).head? = some slash := by
        rw [head?_renderedText,hl]
        exact Bool.false_ne_true
      rw [rooted,if_neg hh]
      exact (and_iff_right fun h => absurd h Bool.false_ne_true).symm
    | true =>
      -- the empty first segment is lost
      have hh := (head?_renderedText set values p).mpr hl
      refine iff_of_false (fun h => ?_) fun h => Bool.false_ne_true (h.1 rfl)
      obtain ⟨pa,hp⟩ := head?_eq_some_iff.mp hh
      have hle := size_readSegments_le pa
      have hln := length_decode_renderedText set values p
      have hse := (size_decode_segments set values (segmentsOf p)).1
      rw [rooted,if_pos hh,hp,tail_cons] at h
      rw [hp,percentDecode_cons_of_ne (by decide),length_cons] at hln
      have hsi := congrArg size h
      omega

end ArionGateway.UriTemplates
