import ArionGateway.DelimitedText
import ArionGateway.TextEncodings

/-!
# Cookies of a user agent

A user agent takes a cookie out of each `Set-Cookie` line: the name and value
before the first semicolon, at the first equals sign, and the last `Max-Age`
among the attributes. It sends the cookies that have not passed their age back
in `Cookie` lines. What a server reads from these lines are the names and values
that the user agent took.
-/
namespace ArionGateway.UserAgentCookies
open ByteStrings HttpHeaders DelimitedText TextEncodings List Bool

structure Cookie where
  name : Str
  value : Str
  maxAge : Option ℕ := none
  deriving DecidableEq

def minus : UInt8 := 45

/-- The age an attribute gives. A negative age has passed at once. -/
def maxAgeOf (text : Str) : Option ℕ :=
  match splitOnce equalsSign text with
  | none => none
  | some (name, value) =>
    if toAsciiLowercase (trim name) = str "max-age" then
      match trim value with
      | [] => none
      | b::digits =>
        if b = minus then (readDigits digits).map fun _ => 0 else readDigits (b::digits)
    else none

/-- The cookie of a `Set-Cookie` line, unless it has no name. -/
def parseSetCookie (line : Str) : Option Cookie :=
  match line.splitOn semicolon with
  | [] => none
  | pair::attributes =>
    match splitOnce equalsSign pair with
    | none => none
    | some (name, value) =>
      if trim name = [] then none
      else
        some
          { name := trim name
            value := trim value
            maxAge := (attributes.filterMap maxAgeOf).getLast? }

/-- A cookie is sent for as long as it has not passed its age. -/
def Cookie.isLive (elapsed : ℕ) (cookie : Cookie) : Bool := cookie.maxAge.elim true (elapsed < ·)

variable (cookie : Cookie)

def Cookie.pair : Str := cookie.name++equalsSign::cookie.value

def cookieString (cookies : List Cookie) : Str := (str "; ").intercalate (cookies.map Cookie.pair)

/-- The cookies of a response that are left after a time. -/
def liveCookies (lines : List Str) (elapsed : ℕ) : List Cookie :=
  (lines.filterMap parseSetCookie).filter (Cookie.isLive elapsed)

/-- The `Cookie` lines of a request carry exactly some cookies, on one line or on
several, in any order. -/
def Carries (lines : List Str) (cookies : List Cookie) : Prop :=
  ∃ groups : List (List Cookie), groups.flatten.Perm cookies ∧ lines = groups.map cookieString

/-- The names and values in a `Cookie` line, as a server reads them. -/
def readPairs (line : Str) : List (Str × Str) :=
  ((line.splitOn semicolon).filterMap (splitOnce equalsSign)).map fun pair =>
    (trim pair.1, trim pair.2)

/-- The names and values of all lines that are text. -/
def readCookies (lines : List Str) : List (Str × Str) := (lines.filterMap toStr).flatMap readPairs

lemma subset_of_mem_readPairs {line : Str} {p : Str × Str} (h : p ∈ readPairs line) :
    p.2 ⊆ line := by
  obtain ⟨⟨a,b⟩,hab,rfl⟩ := mem_map.mp h
  obtain ⟨f,hf,hsp⟩ := mem_filterMap.mp hab
  obtain ⟨rfl,-⟩ := splitOnce_eq_some hsp
  intro x hx
  exact (mem_splitOn hf).2 (mem_append_right a (mem_cons_of_mem _ (mem_of_mem_trim hx)))

/-- A cookie that can be read back from a line. -/
structure Cookie.Sendable : Prop where
  name_equals : equalsSign ∉ cookie.name
  name_semicolon : semicolon ∉ cookie.name
  value_semicolon : semicolon ∉ cookie.value
  name_trim : trim cookie.name = cookie.name
  value_trim : trim cookie.value = cookie.value

lemma sendable_of_parseSetCookie {l : Str} {c : Cookie}
    (h : parseSetCookie l = some c) : c.Sendable := by
  revert h
  fun_cases parseSetCookie l <;> intro h <;> cases h
  next pair a hl n value hs _ =>
    have hp : semicolon ∉ pair := (mem_splitOn (hl ▸ mem_cons_self)).1
    obtain ⟨rfl,hna⟩ := splitOnce_eq_some hs
    have hm : semicolon ∉ n ∧ semicolon ∉ value := by
      constructor
      · exact fun hn => hp (mem_append_left _ hn)
      · exact fun hv => hp (mem_append_right _ (mem_cons_of_mem _ hv))
    exact
      { name_equals := fun hn => hna (mem_of_mem_trim hn)
        name_semicolon := fun hn => hm.1 (mem_of_mem_trim hn)
        value_semicolon := fun hv => hm.2 (mem_of_mem_trim hv)
        name_trim := trim_trim n
        value_trim := trim_trim value }

namespace Cookie.Sendable
variable {c : Cookie}

lemma pair_semicolon (h : c.Sendable) : semicolon ∉ c.pair := by
  have hne : semicolon ≠ equalsSign := by decide
  simp [Cookie.pair,h.name_semicolon,h.value_semicolon,hne]

lemma splitOnce_pair (h : c.Sendable) :
    (splitOnce equalsSign c.pair).map (fun p => (trim p.1, trim p.2)) = some (c.name, c.value) := by
  rw [Cookie.pair,splitOnce_append h.name_equals]
  simp [h.name_trim,h.value_trim]

lemma splitOnce_blank_pair (h : c.Sendable) :
    (splitOnce equalsSign (32::c.pair)).map (fun p => (trim p.1, trim p.2)) =
      some (c.name, c.value) := by
  have hb : equalsSign ≠ 32 := by decide
  have hn : equalsSign ∉ 32::c.name := by simp [h.name_equals,hb]
  have hsp := splitOnce_append (b := c.value) hn
  rw [Cookie.pair,← cons_append,hsp]
  simp [trim_cons_blank,isWhitespace,h.name_trim,h.value_trim]

end Cookie.Sendable

lemma cookieString_cons (co : Cookie) (ck : List Cookie) :
    cookieString (co::ck) = [semicolon].intercalate (co.pair::ck.map fun c => 32::c.pair) := by
  induction ck generalizing co with
  | nil => simp [cookieString]
  | cons n ck ih =>
    have hb : [semicolon].intercalate ((32::n.pair)::ck.map fun c => 32::c.pair) =
        32::[semicolon].intercalate (n.pair::ck.map fun c => 32::c.pair) := by
      cases ck <;> simp [intercalate_cons_cons]
    have hj : cookieString (co::n::ck) =
        co.pair++str "; " ++ cookieString (n::ck) := intercalate_cons_cons
    rw [hj,ih,map_cons,intercalate_cons_cons,hb]
    simp only [append_assoc]
    rfl

lemma readPairs_cookieString {ck : List Cookie} (h : ∀ c ∈ ck, c.Sendable) :
    readPairs (cookieString ck) = ck.map fun c => (c.name, c.value) := by
  cases ck with
  | nil => rfl
  | cons co ck =>
    have hf : ∀ l ∈ co.pair::ck.map (fun c => 32::c.pair), semicolon ∉ l := by
      intro l hl
      rcases mem_cons.mp hl with rfl | hl
      · exact (h co mem_cons_self).pair_semicolon
      · obtain ⟨c,hc,rfl⟩ := mem_map.mp hl
        have hb : semicolon ≠ 32 := by decide
        simp [(h c (mem_cons_of_mem _ hc)).pair_semicolon,hb]
    have ho : ck.filterMap (fun c => (splitOnce equalsSign (32::c.pair)).map
        fun p => (trim p.1, trim p.2)) = ck.map fun c => (c.name, c.value) := by
      rw [← filterMap_eq_map]
      refine filterMap_congr fun c hc => ?_
      exact (h c (mem_cons_of_mem _ hc)).splitOnce_blank_pair
    rw [readPairs,cookieString_cons,splitOn_intercalate semicolon hf nofun,
      map_filterMap,filterMap_cons,(h co mem_cons_self).splitOnce_pair]
    simpa using ho

def Cookie.Visible : Prop := ∀ b ∈ cookie.pair, isVisibleAscii b = true

lemma visible_cookieString_iff (ck : List Cookie) :
    (∀ b ∈ cookieString ck, isVisibleAscii b = true) ↔ ∀ c ∈ ck, c.Visible := by
  induction ck with
  | nil => simp [cookieString]
  | cons co ck ih =>
    cases ck with
    | nil => simp [cookieString,Cookie.Visible]
    | cons n ck =>
      have hj : cookieString (co::n::ck) = co.pair++str "; " ++ cookieString (n::ck) :=
        intercalate_cons_cons
      have hb : ∀ b ∈ str "; ", isVisibleAscii b = true := by decide
      rw [hj,forall_mem_append,forall_mem_append,ih]
      constructor
      · exact fun h => forall_mem_cons.mpr ⟨h.1.1,h.2⟩
      · intro h
        obtain ⟨hf,ho⟩ := forall_mem_cons.mp h
        exact ⟨⟨hf,hb⟩,ho⟩

variable {lines : List Str} {cookies : List Cookie}

lemma Carries.mem_of_mem_readCookies (h : Carries lines cookies) (hs : ∀ c ∈ cookies, c.Sendable)
    {p : Str × Str} (hp : p ∈ readCookies lines) :
    ∃ c ∈ cookies, p = (c.name, c.value) ∧ c.Visible := by
  obtain ⟨g,hpe,rfl⟩ := h
  obtain ⟨l,hl,hpa⟩ := mem_flatMap.mp hp
  obtain ⟨value,hva,ht⟩ := mem_filterMap.mp hl
  obtain ⟨gr,hg,rfl⟩ := mem_map.mp hva
  obtain ⟨rfl,hv⟩ := toStr_eq_some_iff.mp ht
  have hm : ∀ c ∈ gr, c ∈ cookies := fun c hc =>
    hpe.subset (mem_flatten.mpr ⟨gr,hg,hc⟩)
  rw [readPairs_cookieString fun c hc => hs c (hm c hc)] at hpa
  obtain ⟨c,hc,rfl⟩ := mem_map.mp hpa
  exact ⟨c,hm c hc,rfl,(visible_cookieString_iff gr).mp hv c hc⟩

lemma Carries.mem_readCookies (h : Carries lines cookies) (hs : ∀ c ∈ cookies, c.Sendable)
    (hv : ∀ c ∈ cookies, c.Visible) {c : Cookie} (hc : c ∈ cookies) :
    (c.name, c.value) ∈ readCookies lines := by
  obtain ⟨g,hp,rfl⟩ := h
  obtain ⟨gr,hg,hcg⟩ := mem_flatten.mp (hp.mem_iff.mpr hc)
  have hm : ∀ c ∈ gr, c ∈ cookies := fun c hc =>
    hp.subset (mem_flatten.mpr ⟨gr,hg,hc⟩)
  have ht : toStr (cookieString gr) = some (cookieString gr) := toStr_eq_some_iff.mpr
      ⟨rfl,(visible_cookieString_iff gr).mpr fun c hc => hv c (hm c hc)⟩
  refine mem_flatMap.mpr ⟨cookieString gr,mem_filterMap.mpr
    ⟨cookieString gr,mem_map.mpr ⟨gr,hg,rfl⟩,ht⟩,?_⟩
  rw [readPairs_cookieString fun c hc => hs c (hm c hc)]
  exact mem_map.mpr ⟨c,hcg,rfl⟩

lemma splitOn_eq_cons (c : UInt8) (s : Str) :
    ∃ others, s.splitOn c = s.takeWhile (· != c)::others := by
  by_cases hc : c ∈ s
  · obtain ⟨a,b,rfl,ha⟩ := eq_append_cons_of_mem hc
    have hal : ∀ x ∈ a, (x != c) = true := by
      intro x hx
      simpa using fun hxc : x = c => ha (hxc ▸ hx)
    rw [splitOn_append_cons_self_of_not_mem ha]
    simp [takeWhile_append_of_pos hal]
  · have hal : ∀ x ∈ s, (x != c) = true := by
      intro x hx
      simpa using fun hxc : x = c => hc (hxc ▸ hx)
    exact ⟨[],by rw [splitOn_eq_singleton hc,takeWhile_eq_self_iff.mpr hal]⟩

/-- The attributes of a line, each after a semicolon and a blank. -/
def withAttributes (pair : Str) (attributes : List Str) : Str :=
  pair++attributes.flatMap fun text => semicolon::32::text

lemma splitOn_withAttributes (p : Str) (attributes : List Str) :
    (withAttributes p attributes).splitOn semicolon =
      p.splitOn semicolon++attributes.flatMap fun t => (32::t).splitOn semicolon := by
  induction attributes generalizing p with
  | nil => simp [withAttributes]
  | cons t attributes ih =>
    have hc : withAttributes p (t::attributes) =
        p++semicolon::withAttributes (32::t) attributes := by
      simp [withAttributes]
    rw [hc,splitOn_append_cons_self,ih,flatMap_cons]

/-- A byte that a user agent and a server leave alone anywhere in a value. -/
def isPlain (b : UInt8) : Bool := isVisibleAscii b && !isWhitespace b && b != semicolon

variable {b : UInt8}

lemma isPlain_of_isDigit (h : isDigit b = true) : isPlain b = true := by
  simp only [isDigit,isPlain,isVisibleAscii,isWhitespace,semicolon,and_eq_true,
    or_eq_true,not_eq_true'] at *
  grind

lemma isPlain_of_contains (a : Alphabet) (h : a.contains b = true) : isPlain b = true := by
  · simp only [Alphabet.contains,isAlphanumeric,isDigit,padding,isPlain,isVisibleAscii,
      isWhitespace,semicolon,and_eq_true,or_eq_true,not_eq_true'] at *
    grind

/-- A value that comes back from a user agent unchanged. -/
structure IsClean (value : Str) : Prop where
  semicolon : semicolon ∉ value
  trim_eq : trim value = value
  visible : ∀ b ∈ value, isVisibleAscii b = true

variable {value : Str}

lemma IsClean.of_isPlain (h : ∀ b ∈ value, isPlain b = true) : IsClean value where
  semicolon := fun hm => absurd (h _ hm) (by decide)
  trim_eq := trim_eq_self fun b hb => by
    have hp := h b hb
    simp only [isPlain,and_eq_true,not_eq_true'] at hp
    exact hp.1.2
  visible b hb := by
    have hp := h b hb
    simp only [isPlain,and_eq_true] at hp
    exact hp.1.1

lemma isClean_formatDecimal (n : ℕ) : IsClean (formatDecimal n) :=
  .of_isPlain fun _ hb => isPlain_of_isDigit (isDigit_of_mem_formatDecimal hb)

lemma isClean_encode (a : Alphabet) (bt : List UInt8) : IsClean (a.encode bt) :=
  .of_isPlain fun _ hb => isPlain_of_contains a (a.contains_of_mem_encode hb)

/-- A text that can stand as the name of a cookie. -/
structure IsName (name : Str) : Prop where
  ne_nil : name ≠ []
  equals : equalsSign ∉ name
  semicolon : semicolon ∉ name
  trim_eq : trim name = name
  visible : ∀ b ∈ name, isVisibleAscii b = true

lemma maxAgeOf_formatDecimal (n : ℕ) :
    maxAgeOf (32::(str "Max-Age=" ++ formatDecimal n)) = some n := by
  have hsp : splitOnce equalsSign (32::(str "Max-Age=" ++ formatDecimal n)) =
      some (32::str "Max-Age", formatDecimal n) :=
    splitOnce_append (a := 32::str "Max-Age") (by decide)
  have hn : toAsciiLowercase (trim (32::str "Max-Age")) = str "max-age" := by decide
  have hr := readDigits_formatDecimal n
  rw [maxAgeOf,hsp]
  simp only [hn,(isClean_formatDecimal n).trim_eq]
  cases hd : formatDecimal n with
  | nil => exact absurd hd (formatDecimal_ne_nil n)
  | cons b d =>
    have hb : b ≠ minus := by
      have := isDigit_of_mem_formatDecimal (hd ▸ mem_cons_self : b ∈ formatDecimal n)
      rintro rfl
      exact absurd this (by decide)
    simpa [hb,hd] using hr

lemma parseSetCookie_withAttributes {p : Str} {be a : List Str} {n : ℕ}
    (ha : ∀ t ∈ a, ((32::t).splitOn semicolon).filterMap maxAgeOf = []) :
    parseSetCookie (withAttributes p (be++(str "Max-Age=" ++ formatDecimal n)::a)) =
      match splitOnce equalsSign (p.takeWhile (· != semicolon)) with
      | none => none
      | some (name, value) =>
        if trim name = [] then none else some ⟨trim name,trim value,some n⟩ := by
  obtain ⟨o,ho⟩ := splitOn_eq_cons semicolon p
  have hag : ((32::(str "Max-Age=" ++ formatDecimal n)).splitOn semicolon).filterMap maxAgeOf =
      [n] := by
    rw [splitOn_eq_singleton]
    · simp [maxAgeOf_formatDecimal]
    · have hl : semicolon ∉ 32::str "Max-Age=" := by decide
      simpa [(isClean_formatDecimal n).semicolon] using hl
  have hn : (a.flatMap fun t => (32::t).splitOn semicolon).filterMap maxAgeOf = [] := by
    rw [filterMap_flatMap]
    simpa [flatMap_eq_nil_iff] using ha
  rw [parseSetCookie,splitOn_withAttributes,ho]
  simp [hag,hn]

/-- The value that comes back from a user agent: it is cut at its first semicolon. -/
def returnedValue (value : Str) : Str := trim (value.takeWhile (· != semicolon))

lemma parseSetCookie_of_isName {na : Str} {be a : List Str} {n : ℕ} (hn : IsName na)
    (ha : ∀ t ∈ a, ((32::t).splitOn semicolon).filterMap maxAgeOf = []) :
    parseSetCookie (withAttributes (na++equalsSign::value)
        (be++(str "Max-Age=" ++ formatDecimal n)::a)) = some ⟨na,returnedValue value,some n⟩ := by
  have hal : ∀ x ∈ na, (x != semicolon) = true := by
    intro x hx
    simpa using fun hxc : x = semicolon => hn.semicolon (hxc ▸ hx)
  have hp : (na++equalsSign::value).takeWhile (· != semicolon) =
      na++equalsSign::value.takeWhile (· != semicolon) := by
    rw [takeWhile_append_of_pos hal]
    rfl
  rw [parseSetCookie_withAttributes ha,hp,splitOnce_append hn.equals]
  simp [hn.trim_eq,hn.ne_nil,returnedValue]

lemma IsClean.returnedValue_eq (h : IsClean value) : returnedValue value = value := by
  have ha : ∀ x ∈ value, (x != HttpHeaders.semicolon) = true := by
    intro x hx
    simpa using fun hxc : x = HttpHeaders.semicolon => h.semicolon (hxc ▸ hx)
  rw [returnedValue,takeWhile_eq_self_iff.mpr ha,h.trim_eq]

end ArionGateway.UserAgentCookies
