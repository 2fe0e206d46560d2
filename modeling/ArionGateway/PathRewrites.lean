import ArionGateway.HttpHeaders
import ArionGateway.UriPaths
import Mathlib.Data.List.DropRight

/-!
# Rewriting the path of a request

A route or a redirect replaces the path of a request by a configured path, by
the outcome of a regular expression, or by a configured prefix in place of the
part that the route matched. The query is put back by a search for `?` in the
replacement, and the joined text is parsed again. The parser cuts a fragment
off, and a configured path is written without its query.
-/
namespace ArionGateway.PathRewrites
open ByteStrings UriPaths List Option
open HttpHeaders (splitOnce)

/-- The text of a path and a query, from which the parser has cut the fragment. -/
structure PathAndQuery where
  data : Str
  no_fragment : numberSign ∉ data

namespace PathAndQuery

def path (pq : PathAndQuery) : Str :=
  match pq.data.takeWhile (· != questionMark) with
  | [] => [slash]
  | path => path

def query (pq : PathAndQuery) : Option Str := (splitOnce questionMark pq.data).map Prod.snd

def withoutFragment (text : Str) : Str := text.takeWhile (· != numberSign)

lemma not_mem_withoutFragment (text : Str) : numberSign ∉ withoutFragment text :=
  fun h => by simpa using mem_takeWhile_imp h

def ofText (text : Str) : PathAndQuery := ⟨withoutFragment text,not_mem_withoutFragment text⟩

end PathAndQuery

open PathAndQuery (ofText)

/-- A text that is all path. -/
abbrev AllPath (text : Str) : Prop := ∀ b ∈ text, b ≠ questionMark ∧ b ≠ numberSign

/-- The regular expressions, and the errors with which texts are refused as a
path with a query. -/
structure Libraries (R ε : Type) where
  replaceAll : R → (text substitution : Str) → Option Str
  invalidUri : Str → Option ε

structure RegexMatchAndSubstitute (R : Type) where
  pattern : R
  substitution : Str

inductive PathRewriteSpecifier (R : Type)
  | path (p : PathAndQuery)
  | newPrefix (p : Str)
  | regex (r : RegexMatchAndSubstitute R)

structure PathMatcherResult where
  inner : Option ℕ

def PathMatcherResult.matchedRange (result : PathMatcherResult) : Option (ℕ × ℕ) :=
  result.inner.map fun upTo => (0, upTo)

structure RouteMatchResult where
  pathMatch : Option PathMatcherResult
  headersMatched : Bool
  queryParametersMatched : Bool

def RouteMatchResult.matchedRange (result : RouteMatchResult) : Option (ℕ × ℕ) :=
  if result.headersMatched then result.pathMatch.bind PathMatcherResult.matchedRange else none

section

/-- `str::is_char_boundary`: no index inside the bytes of a character. -/
def isCharBoundary (s : Str) (i : ℕ) : Bool :=
  i == 0 || match s[i]? with
    | none => i == s.length
    | some b => !(128 ≤ b && b < 192)

def getFrom (s : Str) (i : ℕ) : Option Str := if isCharBoundary s i then some (s.drop i) else none

/-- Where the unmatched part begins: a `/` that the match ends with belongs to it. -/
def boundary (oldPath : Str) (matchedEnd : ℕ) : ℕ :=
  if 0 < matchedEnd ∧ oldPath[matchedEnd - 1]? = some slash then matchedEnd - 1 else matchedEnd

def rewritten (p oldPath : Str) (matchedEnd : ℕ) : Str :=
  let remainder := (getFrom oldPath (boundary oldPath matchedEnd)).getD []
  let replacement := if startsWith remainder [slash] then stripTrailing slash p else p
  match replacement++remainder with
  | [] => [slash]
  | text => text

variable {R ε : Type} (L : Libraries R ε)

def newPath (oldPath : Str) (result : RouteMatchResult) : PathRewriteSpecifier R → Option Str
  | .path p => some p.path
  | .regex r => L.replaceAll r.pattern oldPath r.substitution
  | .newPrefix p => result.matchedRange.map fun range => rewritten p oldPath range.2

def finalUri (newPath : Str) : Option Str → Str
  | some q => if questionMark ∈ newPath then newPath else newPath++questionMark::q
  | none => newPath

def fromStr (text : Str) : Except ε PathAndQuery :=
  match L.invalidUri text with
  | some error => .error error
  | none => .ok (ofText text)

def oldPath (request : Option PathAndQuery) : Str := (request.map PathAndQuery.path).getD []

def oldQuery (request : Option PathAndQuery) : Option Str := request.bind PathAndQuery.query

def apply (spec : PathRewriteSpecifier R) (request : Option PathAndQuery)
    (result : RouteMatchResult) : Except ε (Option PathAndQuery) :=
  match newPath L (oldPath request) result spec with
  | none => .ok none
  | some newPath => (fromStr L (finalUri newPath (oldQuery request))).map some

variable (request : Option PathAndQuery) (result : RouteMatchResult)

/-- The query that is written in the replacement itself. -/
def ownQuery : PathRewriteSpecifier R → Option Str
  | .path p => p.query
  | spec => (newPath L (oldPath request) result spec).bind fun text => (ofText text).query

def EndsAtOrBeforeSlash (path : Str) (matchedEnd : ℕ) : Prop :=
  0 < matchedEnd ∧ path[matchedEnd - 1]? = some slash ∨ path[matchedEnd]? = some slash

/-- Two texts with one `/` between them, whatever slashes they end or begin with. -/
def joined (p rest : Str) : Str := p.rdropWhile (· == slash)++slash::rest.dropWhile (· == slash)

/-- The replacement's query or else the request's; and a new prefix that is
joined to the unmatched part with one `/`. -/
def Rewrites (spec : PathRewriteSpecifier R) (pq : PathAndQuery) : Prop :=
  pq.query = (ownQuery L request result spec).or (oldQuery request) ∧
  ∀ p range, spec = .newPrefix p → result.matchedRange = some range →
    EndsAtOrBeforeSlash (oldPath request) range.2 →
      pq.path = joined p ((oldPath request).drop range.2) ∧ pq.path ≠ []

/-- A fragment that the parser cuts off, with no query before it. -/
def FragmentFirst (text : Str) : Prop := numberSign ∈ text ∧ (ofText text).query = none

/-- No query is lost: a configured path has none of its own, or the request's;
and a query is not appended to a fragment. -/
def KeepsQuery : PathRewriteSpecifier R → Prop
  | .path p => p.query = none ∨ p.query = oldQuery request
  | .regex r => oldQuery request = none ∨ ∀ text,
      L.replaceAll r.pattern (oldPath request) r.substitution = some text → ¬ FragmentFirst text
  | .newPrefix p => oldQuery request = none ∨ ¬ FragmentFirst p

/-- The new prefix is all path, and neither side brings a second `/` to the seam. -/
def OneSlash (p path : Str) (matchedEnd : ℕ) : Prop :=
  AllPath p ∧ ¬ [slash,slash] <:+ p ∧ ¬ [slash,slash] <+: path.drop (boundary path matchedEnd)

end

open PathAndQuery

variable {text : Str}

lemma withoutFragment_eq_self (h : numberSign ∉ text) : withoutFragment text = text := by
  refine takeWhile_eq_self_iff.mpr fun b hb => ?_
  simpa using fun hc : b = numberSign => h (hc ▸ hb)

lemma withoutFragment_append (h : numberSign ∈ text) (r : Str) :
    withoutFragment (text++r) = withoutFragment text := by
  unfold withoutFragment
  induction text with
  | nil => cases h
  | cons b text ih =>
    rw [cons_append,takeWhile_cons,takeWhile_cons]
    by_cases hb : b = numberSign
    · simp [hb]
    · rw [ih ((mem_cons.mp h).resolve_left (Ne.symm hb))]

lemma query_ofText_eq_none_iff :
    (ofText text).query = none ↔ questionMark ∉ withoutFragment text := by
  unfold query ofText splitOnce
  split <;> simp_all

lemma query_ofText_eq_none {t : Str} (h : questionMark ∉ t) : (ofText t).query = none :=
  query_ofText_eq_none_iff.mpr fun hm => h (takeWhile_subset _ hm)

lemma query_append {t q : Str} (h : AllPath t) (hq : numberSign ∉ q) :
    (ofText (t++questionMark::q)).query = some q := by
  have hn : numberSign ∉ t++questionMark::q := by
    simpa [show numberSign ≠ questionMark by decide,hq] using fun hm => (h _ hm).2 rfl
  have ht : ∀ b ∈ t, (b != questionMark) = true := fun b hb => by simpa using (h b hb).1
  unfold query ofText splitOnce
  simp [withoutFragment_eq_self hn,dropWhile_append_of_pos ht]

open Classical in
/-- The query after the request's own query is put back and the text is parsed. -/
lemma query_ofText_finalUri (t : Str) {q : Option Str} (hq : ∀ s ∈ q, numberSign ∉ s) :
    (ofText (finalUri t q)).query = if FragmentFirst t then none else (ofText t).query.or q := by
  by_cases hf : FragmentFirst t
  · have hmem : ∀ r, (ofText (t++r)).query = none := fun r => by
      rw [query_ofText_eq_none_iff,withoutFragment_append hf.1,← query_ofText_eq_none_iff,hf.2]
    rw [if_pos hf]
    unfold finalUri
    split
    · split
      · exact hf.2
      · exact hmem _
    · exact hf.2
  · rw [if_neg hf]
    unfold finalUri
    split
    next q =>
      by_cases hm : questionMark ∈ t
      · -- a text that keeps its `?` when the fragment is cut has a query of its own
        obtain ⟨own,ho⟩ : ∃ own, (ofText t).query = some own := by
          refine ne_none_iff_exists'.mp fun hr => ?_
          have hn := query_ofText_eq_none_iff.mp hr
          rw [withoutFragment_eq_self fun h => hf ⟨h,hr⟩] at hn
          exact hn hm
        rw [if_pos hm,ho,some_or]
      · have hr := query_ofText_eq_none hm
        rw [if_neg hm,hr]
        refine query_append (fun b hb => ⟨?_,?_⟩) (hq q rfl)
        · exact fun hc => hm (hc ▸ hb)
        · exact fun hc => hf ⟨hc ▸ hb,hr⟩
    next => rw [or_none]

section

lemma PathAndQuery.allPath_path (pq : PathAndQuery) : AllPath pq.path := by
  intro b h
  unfold path at h
  split at h
  · rw [mem_singleton.mp h]
    decide
  · refine ⟨by simpa using mem_takeWhile_imp h,?_⟩
    rintro rfl
    exact pq.no_fragment (takeWhile_subset _ h)

lemma PathAndQuery.path_ne_nil (pq : PathAndQuery) : pq.path ≠ [] := by
  unfold path
  split
  · simp
  · assumption

lemma allPath_oldPath (r : Option PathAndQuery) : AllPath (oldPath r) := by
  cases r with
  | none => exact fun b hb => absurd hb not_mem_nil
  | some pq => exact pq.allPath_path

lemma not_mem_oldQuery {r : Option PathAndQuery} : ∀ q ∈ oldQuery r, numberSign ∉ q := by
  intro q hq hn
  obtain ⟨pq,-,hpq⟩ := bind_eq_some_iff.mp hq
  obtain ⟨pr,hp,rfl⟩ := map_eq_some_iff.mp hpq
  unfold splitOnce at hp
  split at hp
  · cases hp
    exact pq.no_fragment ((dropWhile_suffix _).subset (mem_of_mem_tail hn))
  · cases hp

lemma path_ofText_finalUri (ht : AllPath text) (hne : text ≠ []) (q : Option Str) :
    (ofText (finalUri text q)).path = text := by
  have hn : ∀ b ∈ text, (b != numberSign) = true := fun b hb => by simpa using (ht b hb).2
  have hq : ∀ b ∈ text, (b != questionMark) = true := fun b hb => by simpa using (ht b hb).1
  have hp : (withoutFragment (finalUri text q)).takeWhile (· != questionMark) = text := by
    unfold withoutFragment
    cases q with
    | none => rw [finalUri,takeWhile_eq_self_iff.mpr hn,takeWhile_eq_self_iff.mpr hq]
    | some q =>
      rw [finalUri,if_neg fun h => (ht _ h).1 rfl,takeWhile_append_of_pos hn,
        takeWhile_append_of_pos hq,takeWhile_cons_of_pos (by decide),
        takeWhile_cons_of_neg (by decide),append_nil]
  unfold path ofText
  simp only [hp]

variable {p pa : Str} {m : ℕ}

lemma drop_boundary (h : EndsAtOrBeforeSlash pa m) :
    pa.drop (boundary pa m) = slash::pa.drop (boundary pa m+1) ∧
      (pa.drop m).dropWhile (· == slash) = (pa.drop (boundary pa m+1)).dropWhile (· == slash) := by
  unfold boundary
  split
  next hm =>
    refine ⟨drop_eq_getElem?_toList_append .. ▸ ?_,?_⟩
    · rw [hm.2]
      rfl
    · rw [Nat.sub_add_cancel hm.1]
  next hm =>
    have hs := h.resolve_left hm
    have hd : pa.drop m = slash::pa.drop (m+1) := by
      rw [drop_eq_getElem?_toList_append,hs]
      rfl
    exact ⟨hd,by rw [hd,dropWhile_cons_of_pos (by decide)]⟩

lemma rewritten_of_slash (h : EndsAtOrBeforeSlash pa m) :
    rewritten p pa m = stripTrailing slash p++slash::pa.drop (boundary pa m+1) := by
  have hd := (drop_boundary h).1
  have hb : pa[boundary pa m]? = some slash := by
    rw [← head?_drop,hd]
    rfl
  have hc : isCharBoundary pa (boundary pa m) = true := by
    unfold isCharBoundary
    rw [hb]
    exact Bool.or_true _
  have hs : startsWith (slash::pa.drop (boundary pa m+1)) [slash] = true := by
    rw [startsWith_iff]
    exact ⟨_,rfl⟩
  unfold rewritten getFrom
  simp only [hc,hd]
  split
  next he => exact absurd he (by simp)
  · rfl

lemma stripTrailing_subset (c : UInt8) (s : Str) : stripTrailing c s ⊆ s := by
  unfold stripTrailing
  split
  · exact dropLast_subset s
  · exact List.Subset.refl s

lemma rdropWhile_stripTrailing (p : Str) :
    (stripTrailing slash p).rdropWhile (· == slash) = p.rdropWhile (· == slash) := by
  induction p using reverseRecOn with
  | nil => rfl
  | append_singleton p c =>
    by_cases hc : c = slash
    · subst hc
      rw [stripTrailing,getLast?_concat,if_pos rfl,dropLast_concat,
        rdropWhile_concat_pos _ _ _ (by decide)]
    · rw [stripTrailing,if_neg (by simpa using hc)]

lemma concat_suffix_concat {s p : Str} {a c : UInt8} : s++[a] <:+ p++[c] ↔ a = c ∧ s <:+ p := by
  rw [← reverse_prefix,reverse_concat,reverse_concat,cons_prefix_cons, reverse_prefix]

lemma slashes_suffix_iff : [slash,slash] <:+ p ↔ [slash] <:+ stripTrailing slash p := by
  induction p using reverseRecOn with
  | nil => decide
  | append_singleton p c =>
    rw [show [slash,slash] = [slash]++[slash] from rfl,concat_suffix_concat,stripTrailing]
    by_cases hc : c = slash
    · simp [hc]
    · have hs : ¬ []++[slash] <:+ p++[c] := fun h => hc (concat_suffix_concat.mp h).1.symm
      rw [if_neg (by simpa using hc)]
      exact iff_of_false (fun h => hc h.1.symm) hs

lemma dropWhile_slash_eq_self_iff {s : Str} : s.dropWhile (· == slash) = s ↔ ¬ [slash] <+: s := by
  cases s with
  | nil => decide
  | cons b s =>
    simpa using ne_comm

lemma rdropWhile_slash_eq_self_iff {s : Str} : s.rdropWhile (· == slash) = s ↔ ¬ [slash] <:+ s := by
  rw [← reverse_prefix,← reverse_inj,rdropWhile,reverse_reverse]
  exact dropWhile_slash_eq_self_iff

/-- Stripping one `/` on either side leaves one at the seam exactly if neither
side has a second one there. -/
lemma stripTrailing_append_eq_joined_iff (rest : Str) : stripTrailing slash p++slash::rest =
        p.rdropWhile (· == slash)++slash::rest.dropWhile (· == slash) ↔
      ¬ [slash,slash] <:+ p ∧ ¬ [slash,slash] <+: slash::rest := by
  have hcons : [slash,slash] <+: slash::rest ↔ [slash] <+: rest := by
    simp [cons_prefix_cons]
  rw [slashes_suffix_iff,hcons,← rdropWhile_stripTrailing,← rdropWhile_slash_eq_self_iff,
    ← dropWhile_slash_eq_self_iff]
  refine ⟨fun h => ?_,fun h => by rw [h.1,h.2]⟩
  have hp := ( rdropWhile_prefix (· == slash) (stripTrailing slash p)).length_le
  have hr := (dropWhile_suffix (l := rest) (· == slash)).length_le
  have hl := congrArg length h
  simp only [length_append,length_cons] at hl
  obtain ⟨h1,h2⟩ := append_inj h (by omega)
  exact ⟨h1.symm,(cons.inj h2).2.symm⟩

lemma mem_rdropWhile {b : UInt8} (h : b ∈ p) (hb : b ≠ slash) : b ∈ p.rdropWhile (· == slash) := by
  have hm : b ∈ p.reverse.takeWhile (· == slash)++p.reverse.dropWhile (· == slash) := by
    rw [takeWhile_append_dropWhile]
    exact mem_reverse.mpr h
  rcases mem_append.mp hm with hm | hm
  · exact absurd (by simpa using mem_takeWhile_imp hm) hb
  · exact mem_reverse.mpr hm

lemma path_eq_joined_iff (h : EndsAtOrBeforeSlash pa m) (hp : AllPath pa) (q : Option Str) :
    (ofText (finalUri (rewritten p pa m) q)).path = joined p (pa.drop m) ↔ OneSlash p pa m := by
  by_cases hclean : AllPath p
  · have ht : AllPath (rewritten p pa m) := by
      intro b hb
      rw [rewritten_of_slash h,← (drop_boundary h).1] at hb
      rcases mem_append.mp hb with hb | hb
      · exact hclean b (stripTrailing_subset slash p hb)
      · exact hp b (mem_of_mem_drop hb)
    have hne : rewritten p pa m ≠ [] := by simp [rewritten_of_slash h]
    rw [path_ofText_finalUri ht hne,rewritten_of_slash h,joined,(drop_boundary h).2,
      stripTrailing_append_eq_joined_iff,OneSlash,(drop_boundary h).1]
    exact (and_iff_right hclean).symm
  · refine iff_of_false (fun he => hclean fun b hb => ?_) fun ho => hclean ho.1
    by_cases hs : b = slash
    · subst hs
      decide
    · refine (ofText (finalUri (rewritten p pa m) q)).allPath_path b ?_
      rw [he]
      exact mem_append_left _ (mem_rdropWhile hb hs)

end

lemma fragmentFirst_append {s r : Str} (hr : AllPath r) :
    FragmentFirst (s++r) ↔ FragmentFirst s := by
  have hm : numberSign ∈ s++r ↔ numberSign ∈ s := by
    rw [mem_append]
    exact or_iff_left fun h => (hr _ h).2 rfl
  refine (and_congr_left' hm).trans (and_congr_right fun hs => ?_)
  rw [query_ofText_eq_none_iff,query_ofText_eq_none_iff,withoutFragment_append hs]

lemma fragmentFirst_rewritten {pa : Str} (hp : AllPath pa)
    (p : Str) (m : ℕ) : FragmentFirst (rewritten p pa m) ↔ FragmentFirst p := by
  have hrest : AllPath ((getFrom pa (boundary pa m)).getD []) := by
    intro b hb
    unfold getFrom at hb
    split at hb
    · exact hp b (mem_of_mem_drop hb)
    · cases hb
  have hjoin : ∀ s : Bool, FragmentFirst ((if s then stripTrailing slash p else p) ++
      (getFrom pa (boundary pa m)).getD []) ↔ FragmentFirst p := by
    intro s
    rw [fragmentFirst_append hrest]
    cases s
    · rfl
    · change FragmentFirst (stripTrailing slash p) ↔ _
      unfold stripTrailing
      split
      next h =>
        obtain ⟨s,rfl⟩ := getLast?_eq_some_iff.mp h
        rw [dropLast_concat]
        exact (fragmentFirst_append (by decide)).symm
      next => rfl
  unfold rewritten
  rw [← hjoin (startsWith ((getFrom pa (boundary pa m)).getD []) [slash])]
  dsimp only
  split
  next he =>
    rw [he]
    exact iff_of_false (fun h => absurd h.1 (by decide)) fun h => absurd h.1 (by decide)
  next => rfl

/-- A query is lost exactly if it is put behind a fragment. -/
lemma query_eq_own_or_iff (text : Str) {q : Option Str} (hq : ∀ s ∈ q, numberSign ∉ s) :
    (ofText (finalUri text q)).query = (ofText text).query.or q ↔ q = none ∨ ¬ FragmentFirst text := by
  rw [query_ofText_finalUri text hq]
  by_cases hf : FragmentFirst text
  · rw [hf.2]
    simp [hf,eq_comm]
  · simp [hf]

variable {R ε : Type} {L : Libraries R ε} {request : Option PathAndQuery} {result : RouteMatchResult}
  {spec : PathRewriteSpecifier R} {pq : PathAndQuery}

lemma newPath_of_apply (h : apply L spec request result = .ok (some pq)) :
    ∃ t, newPath L (oldPath request) result spec = some t ∧
      pq = ofText (finalUri t (oldQuery request)) := by
  unfold apply at h
  cases hn : newPath L (oldPath request) result spec with
  | none => simp [hn] at h
  | some t =>
    refine ⟨t,rfl,?_⟩
    simp only [hn,fromStr] at h
    split at h
    · cases h
    · cases h
      rfl

lemma query_of_apply_iff (h : apply L spec request result = .ok (some pq)) :
    pq.query = (ownQuery L request result spec).or (oldQuery request) ↔
      KeepsQuery L request spec := by
  obtain ⟨t,hn,rfl⟩ := newPath_of_apply h
  have hkeep := query_eq_own_or_iff t (q := oldQuery request) not_mem_oldQuery
  cases spec with
  | path p =>
    cases hn
    have hf : ¬ FragmentFirst p.path := fun hf => (p.allPath_path _ hf.1).2 rfl
    have hown := query_ofText_eq_none fun hm => (p.allPath_path _ hm).1 rfl
    rw [hkeep.mpr (.inr hf),hown]
    simp only [ownQuery,KeepsQuery]
    cases p.query <;> simp [eq_comm]
  | newPrefix p =>
    obtain ⟨ra,hr,rfl⟩ := map_eq_some_iff.mp hn
    have hown : ownQuery L request result (.newPrefix p) =
        (ofText (rewritten p (oldPath request) ra.2)).query := by simp [ownQuery,newPath,hr]
    rw [hown,hkeep,fragmentFirst_rewritten (allPath_oldPath request)]
    rfl
  | regex r =>
    have hown : ownQuery L request result (.regex r) = (ofText t).query := by simp [ownQuery,hn]
    change L.replaceAll r.pattern (oldPath request) r.substitution = some t at hn
    rw [hown,hkeep]
    simp [KeepsQuery,hn]

/-- A rewritten path has the query and the seam that it is meant to have exactly
if no query is lost and neither side brings a second `/` to the seam. -/
theorem rewrites_iff (h : apply L spec request result = .ok (some pq)) :
    Rewrites L request result spec pq ↔ KeepsQuery L request spec ∧
      ∀ p range, spec = .newPrefix p → result.matchedRange = some range →
        EndsAtOrBeforeSlash (oldPath request) range.2 → OneSlash p (oldPath request) range.2 := by
  refine and_congr (query_of_apply_iff h) ?_
  refine forall₂_congr fun p range => forall₃_congr fun hspec hrange hslash => ?_
  obtain ⟨text,hn,rfl⟩ := newPath_of_apply h
  subst hspec
  have ht : rewritten p (oldPath request) range.2 = text := by simpa [newPath,hrange] using hn
  subst ht
  rw [path_eq_joined_iff hslash (allPath_oldPath request)]
  exact and_iff_left (path_ne_nil _)

/-- Every text is accepted, and no expression matches. -/
def anyText : Libraries Unit Unit := ⟨fun _ _ _ => none,fun _ => none⟩

/-- The prefix `/v2` in place of the matched `/api/` of `/api/foo?q=1`. -/
theorem new_prefix_of_api :
    let request := some (ofText (str "/api/foo?q=1"))
    let result : RouteMatchResult := ⟨some ⟨some 5⟩,true,true⟩
    Rewrites anyText request result (.newPrefix (str "/v2")) (ofText (str "/v2/foo?q=1")) := by
  refine (rewrites_iff (L := anyText) rfl).mpr ⟨.inr fun h => absurd h.1 (by decide),?_⟩
  intro p ra hp hr _
  cases hp
  cases hr
  exact ⟨by decide,by decide,by decide⟩

/-- The query `a=1` of the configured path is lost. -/
theorem query_of_configured_path_lost :
    let request := some (ofText (str "/old?b=2"))
    let result : RouteMatchResult := ⟨none,true,true⟩
    let spec := PathRewriteSpecifier.path (ofText (str "/new?a=1"))
    apply anyText spec request result = .ok (some (ofText (str "/new?b=2"))) ∧
    (ownQuery anyText request result spec) = some (str "a=1") ∧
    ¬ Rewrites anyText request result spec (ofText (str "/new?b=2")) :=
  ⟨rfl,rfl,fun h => absurd h.1 (by decide)⟩

end ArionGateway.PathRewrites
