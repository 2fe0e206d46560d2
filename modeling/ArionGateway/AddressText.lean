import ArionGateway.IpNetworks
import ArionGateway.Numerals

/-!
# IP addresses as text

Addresses are written as the standard library writes them and read by its recursive descent
reader. The reader takes more than is ever written: any run of zero groups may be left out, an
embedded IPv4 address may end any address, and groups may have leading zeros. What is written is
read back.
-/
namespace ArionGateway.AddressText
open ByteStrings IpNetworks Numerals TextEncodings Option
open List

def readGivenChar (c : UInt8) : Str → Option Str
  | b::s => if b = c then some s else none
  | [] => none

def octets (bits : BitVec 32) : List ℕ := bigEndian 256 4 bits.toNat

def ofOctets (os : List ℕ) : BitVec 32 := BitVec.ofNat 32 (ofBigEndian 256 os)

lemma ofOctets_octets (bits : BitVec 32) : ofOctets (octets bits) = bits := by
  rw [ofOctets,octets,ofBigEndian_bigEndian 256 bits.isLt,BitVec.ofNat_toNat,BitVec.setWidth_eq]

def joined (sep : UInt8) (write : ℕ → Str) : List ℕ → Str
  | [] => []
  | part::parts => write part++parts.flatMap fun part => sep::write part

def displayV4 (bits : BitVec 32) : Str := joined dot formatDecimal (octets bits)

def readOctet : Str → Option (ℕ × Str) := readNumber 10 3 256 false

def readIpv4Addr (s : Str) : Option (List ℕ × Str) := do
  let (a, s) ← readOctet s
  let (b, s) ← readOctet (← readGivenChar dot s)
  let (c, s) ← readOctet (← readGivenChar dot s)
  let (d, s) ← readOctet (← readGivenChar dot s)
  some ([a,b,c,d], s)

lemma readOctet_formatDecimal {n : ℕ} (hn : n < 256) {r : Str}
    (hr : ∀ b, r.head? = some b → digitValueIn 10 b = none) :
    readOctet (formatDecimal n++r) = some (n, r) := by
  rw [formatDecimal_eq]
  exact readNumber_numeral (by decide) (by decide) (by decide) (by omega) hn false hr

lemma octets_lt {bi : BitVec 32} {o : ℕ} (ho : o ∈ octets bi) : o < 256 :=
  bigEndian_lt (by decide) ho

lemma readIpv4Addr_displayV4 (bi : BitVec 32) (r : Str)
    (hr : ∀ b, r.head? = some b → digitValueIn 10 b = none) :
    readIpv4Addr (displayV4 bi++r) = some (octets bi, r) := by
  have hd : ∀ (more : Str) b, (dot::more).head? = some b → digitValueIn 10 b = none := by
    rintro more b ⟨⟩
    rfl
  have hlt : ∀ o ∈ octets bi, o < 256 := fun o ho => octets_lt ho
  obtain ⟨a,b,c,d,hoc⟩ : ∃ a b c d, octets bi = [a,b,c,d] := ⟨_,_,_,_,rfl⟩
  rw [hoc] at hlt
  have ht : displayV4 bi++r = formatDecimal a++(dot::(formatDecimal b ++
      (dot::(formatDecimal c++(dot::(formatDecimal d++r)))))) := by
    simp [displayV4,hoc,joined]
  rw [ht,hoc,readIpv4Addr]
  simp [readOctet_formatDecimal (hlt a (by simp)) (hd _),
    readOctet_formatDecimal (hlt b (by simp)) (hd _),
    readOctet_formatDecimal (hlt c (by simp)) (hd _),
    readOctet_formatDecimal (hlt d (by simp)) hr,readGivenChar]

lemma readIpv4Addr_eq_none {s : Str}
    (h : (s.dropWhile fun b => (digitValueIn 10 b).isSome).head? ≠ some dot) :
    readIpv4Addr s = none := by
  rw [readIpv4Addr]
  cases hr : readOctet s with
  | none => rfl
  | some r =>
    obtain ⟨n,rest⟩ := r
    rw [← readNumber_rest hr] at h
    have hc : readGivenChar dot rest = none := by
      cases rest with
      | nil => rfl
      | cons b rest => exact if_neg fun hb => h (congrArg some hb)
    simp [hc]

lemma length_formatDecimal_le {n k : ℕ} (hk : 0 < k) (hn : n < 10^k) :
    (formatDecimal n).length ≤ k := by
  rw [formatDecimal_eq,length_map]
  exact length_numeral_le (by decide) hk hn

lemma length_displayV4_le (bi : BitVec 32) : (displayV4 bi).length ≤ 15 := by
  have hl : ∀ o ∈ octets bi, (formatDecimal o).length ≤ 3 := by
    intro o ho
    have hlt := octets_lt ho
    exact length_formatDecimal_le (by decide) (by omega)
  obtain ⟨a,b,c,d,hoc⟩ : ∃ a b c d, octets bi = [a,b,c,d] := ⟨_,_,_,_,rfl⟩
  rw [hoc] at hl
  have ha := hl a (by simp)
  have hb := hl b (by simp)
  have hc := hl c (by simp)
  have hd := hl d (by simp)
  simp only [displayV4,hoc,joined,flatMap_cons,flatMap_nil,length_append,length_cons,length_nil]
  omega

variable (bits : BitVec 128)

def segments : List ℕ := bigEndian 65536 8 bits.toNat

def ofSegments (gs : List ℕ) : BitVec 128 := BitVec.ofNat 128 (ofBigEndian 65536 gs)

lemma ofSegments_segments : ofSegments (segments bits) = bits := by
  rw [ofSegments,segments,ofBigEndian_bigEndian 65536 bits.isLt,BitVec.ofNat_toNat,
    BitVec.setWidth_eq]

structure Span where
  start : ℕ := 0
  len : ℕ := 0

def Span.extend (sp : Span) (i : ℕ) : Span :=
  { start := if sp.len = 0 then i else sp.start, len := sp.len+1 }

def longestZeros : ℕ → Span → Span → List ℕ → Span
  | _, longest, _, [] => longest
  | i, longest, current, segment::rest =>
    if segment = 0 then
      let current := current.extend i
      longestZeros (i+1) (if longest.len < current.len then current else longest) current rest
    else longestZeros (i+1) longest {} rest

def toIpv4Mapped : Option (BitVec 32) :=
  if bits.toNat / 2^32 = 0xffff then some (bits.setWidth 32) else none

def displayV6 : Str :=
  match toIpv4Mapped bits with
  | some ipv4 => colon::colon::(formatHex 0xffff++colon::displayV4 ipv4)
  | none =>
    let gs := segments bits
    let zeroes := longestZeros 0 {} {} gs
    if 1 < zeroes.len then
      joined colon formatHex (gs.take zeroes.start)++colon::colon ::
        joined colon formatHex (gs.drop (zeroes.start+zeroes.len))
    else joined colon formatHex gs

def readGroup : Str → Option (ℕ × Str) := readNumber 16 4 65536 true

/-- `read_groups`: at most so many groups, each but the first behind a colon, with
an IPv4 address in the place of the last two. -/
def readGroups : ℕ → Bool → Str → List ℕ × Bool × Str
  | 0, _, s => ([], false, s)
  | remaining+1, first, s =>
    let behindSeparator := if first then some s else readGivenChar colon s
    match if 1 ≤ remaining then behindSeparator.bind readIpv4Addr else none with
    | some (os, rest) =>
      ([ofBigEndian 256 (os.take 2),ofBigEndian 256 (os.drop 2)], true, rest)
    | none =>
      match behindSeparator.bind readGroup with
      | none => ([], false, s)
      | some (g, rest) =>
        let (gs, ipv4, rest) := readGroups remaining false rest
        (g::gs, ipv4, rest)

def readIpv6Addr (s : Str) : Option (List ℕ × Str) :=
  let (head, headIpv4, rest) := readGroups 8 true s
  if head.length = 8 then some (head, rest)
  else if headIpv4 then none
  else do
    let rest ← readGivenChar colon (← readGivenChar colon rest)
    let (tail, _, rest) := readGroups (8 - (head.length+1)) true rest
    some (head++replicate (8 - head.length - tail.length) 0++tail, rest)

def display : IpAddr → Str
  | .v4 bits => displayV4 bits
  | .v6 bits => displayV6 bits

def parse (s : Str) : Option IpAddr :=
  match readIpv4Addr s with
  | some (os, rest) => if rest = [] then some (.v4 (ofOctets os)) else none
  | none =>
    match readIpv6Addr s with
    | some (gs, rest) => if rest = [] then some (.v6 (ofSegments gs)) else none
    | none => none

section

/-- What may follow the groups: nothing, or the place of the missing groups. -/
def EndsGroups (rest : Str) : Prop := rest = [] ∨ ∃ more, rest = colon::colon::more

def furtherGroups (gs : List ℕ) : Str := gs.flatMap fun g => colon::formatHex g

lemma digitValueIn_colon (ba : ℕ) : digitValueIn ba colon = none := rfl

variable {rest : Str}

lemma head_furtherGroups (gs : List ℕ) (hr : EndsGroups rest) {b : UInt8}
    (hb : (furtherGroups gs++rest).head? = some b) : b = colon := by
  cases gs with
  | nil =>
    rcases hr with rfl | ⟨m,rfl⟩
    · cases hb
    · exact (some.inj hb).symm
  | cons g gs => exact (some.inj hb).symm

lemma readGroup_formatHex {g : ℕ} (hg : g < 65536) (hr : ∀ b, rest.head? = some b → b = colon) :
    readGroup (formatHex g++rest) = some (g, rest) := by
  refine readNumber_numeral (by decide) (by decide) (by decide) (by omega) hg true fun b hb => ?_
  rw [hr b hb,digitValueIn_colon]

lemma readIpv4Addr_formatHex (g : ℕ) (hr : ∀ b, rest.head? = some b → b = colon) :
    readIpv4Addr (formatHex g++rest) = none := by
  refine readIpv4Addr_eq_none fun hdo => ?_
  rw [dropWhile_append] at hdo
  split_ifs at hdo with ha
  · cases rest with
    | nil => cases hdo
    | cons b rest =>
      obtain rfl := hr b rfl
      cases hdo
  · have hh := mem_of_head? (l := (formatHex g).dropWhile _) (a := dot) (by
      cases hd : (formatHex g).dropWhile (fun b => (digitValueIn 10 b).isSome) with
      | nil => simp [hd] at ha
      | cons b m => simpa [hd] using hdo)
    obtain ⟨d,hd,hdi⟩ := mem_map.mp (dropWhile_subset _ hh)
    have hn : ∀ e < 16, hexDigit e ≠ dot := by decide
    exact hn d (numeral_lt (by decide) hd) hdi

lemma readIpv4Addr_colon (more : Str) : readIpv4Addr (colon::more) = none := by
  refine readIpv4Addr_eq_none ?_
  exact fun hd => absurd (some.inj hd) (by decide)

lemma readGroup_colon (more : Str) : readGroup (colon::more) = none := by
  refine readNumber_eq_none_of_head ?_
  rintro b ⟨⟩
  exact digitValueIn_colon 16

lemma readIpv4Addr_of_ends (hr : EndsGroups rest) : readIpv4Addr rest = none := by
  rcases hr with rfl | ⟨m,rfl⟩
  · rfl
  · exact readIpv4Addr_colon _

lemma readGroup_of_ends (hr : EndsGroups rest) : readGroup rest = none := by
  rcases hr with rfl | ⟨m,rfl⟩
  · rfl
  · exact readGroup_colon _

variable {gs : List ℕ}

/-- The groups behind the first or, behind a separator, all of them are read back. -/
lemma readGroups_text (hgs : ∀ g ∈ gs, g < 65536) {r : ℕ} (hl : gs.length ≤ r)
    (hr : EndsGroups rest) (first : Bool) :
    readGroups r first ((if first then joined colon formatHex gs else furtherGroups gs)++rest) =
      (gs, false, rest) := by
  induction gs generalizing r first with
  | nil =>
    have ht : (if first then joined colon formatHex [] else furtherGroups []) = [] := by
      cases first <;> rfl
    rw [ht]
    cases r with
    | zero => rfl
    | succ r =>
      rw [readGroups]
      cases first with
      | true => simp [readIpv4Addr_of_ends hr,readGroup_of_ends hr]
      | false =>
        -- a single colon does not start a group
        rcases hr with rfl | ⟨m,rfl⟩
        · simp [readGivenChar]
        · simp [readGivenChar,readIpv4Addr_colon,readGroup_colon]
  | cons g gs ih =>
    cases r with
    | zero => simp at hl
    | succ r =>
      have hh : ∀ b, (furtherGroups gs++rest).head? = some b → b = colon :=
        fun b hb => head_furtherGroups gs hr hb
      have hn : readGroups r false (furtherGroups gs++rest) = _ :=
        ih (fun g' hg' => hgs g' (mem_cons_of_mem g hg')) (Nat.le_of_succ_le_succ hl) false
      have hg := readGroup_formatHex (hgs g mem_cons_self) hh
      have ht : (if first then joined colon formatHex (g::gs) else furtherGroups (g::gs))++rest =
          (if first then [] else [colon])++(formatHex g++(furtherGroups gs++rest)) := by
        cases first <;> simp [joined,furtherGroups]
      rw [ht,readGroups]
      cases first <;> simp [readGivenChar,readIpv4Addr_formatHex g hh,hg,hn]

lemma readGroups_joined (gs : List ℕ) (hgs : ∀ g ∈ gs, g < 65536) {r : ℕ}
    (hl : gs.length ≤ r) (hr : EndsGroups rest) :
    readGroups r true (joined colon formatHex gs++rest) = (gs, false, rest) :=
  readGroups_text hgs hl hr true

lemma readIpv4Addr_joined (gs : List ℕ) (hr : EndsGroups rest) :
    readIpv4Addr (joined colon formatHex gs++rest) = none := by
  cases gs with
  | nil => exact readIpv4Addr_of_ends hr
  | cons g gs =>
    have ht : joined colon formatHex (g::gs)++rest = formatHex g++(furtherGroups gs++rest) := by
      simp [joined,furtherGroups]
    rw [ht]
    exact readIpv4Addr_formatHex g fun b hb => head_furtherGroups gs hr hb

structure Span.ZeroIn (sp : Span) (gs : List ℕ) : Prop where
  end_le : sp.start+sp.len ≤ gs.length
  zero : ∀ k, sp.start ≤ k → k < sp.start+sp.len → gs[k]? = some 0

lemma Span.zeroIn_nil : ({} : Span).ZeroIn [] :=
  ⟨le_rfl,fun k _ hk => absurd hk (Nat.not_lt_zero k)⟩

variable {sp : Span}

lemma Span.ZeroIn.append (h : sp.ZeroIn gs) (m : List ℕ) : sp.ZeroIn (gs++m) where
  end_le := h.end_le.trans (by simp)
  zero k hst he := by
    rw [getElem?_append_left (he.trans_le h.end_le)]
    exact h.zero k hst he

variable {s : List ℕ}

lemma Span.extend_end (he : sp.len = 0 ∨ sp.start+sp.len = s.length) :
    (sp.extend s.length).start+(sp.extend s.length).len = s.length+1 := by
  dsimp only [Span.extend]
  split_ifs <;> omega

lemma Span.ZeroIn.extend (h : sp.ZeroIn s) (he : sp.len = 0 ∨ sp.start+sp.len = s.length) :
    (sp.extend s.length).ZeroIn (s++[0]) := by
  have hn := Span.extend_end he
  refine ⟨by rw [hn,length_append,length_singleton],fun k hst hlt => ?_⟩
  by_cases hl : k = s.length
  · simp [hl]
  · rw [getElem?_append_left (by omega)]
    dsimp only [Span.extend] at hst
    split_ifs at hst <;> exact h.zero k (by omega) (by omega)

lemma longestZeros_zeroIn (rest : List ℕ) {l c : Span} (hl : l.ZeroIn s) (hc : c.ZeroIn s)
    (hed : c.len = 0 ∨ c.start+c.len = s.length) :
    (longestZeros s.length l c rest).ZeroIn (s++rest) := by
  induction rest generalizing s l c with
  | nil =>
    rw [append_nil]
    exact hl
  | cons se rest ih =>
    have hln : s.length+1 = (s++[se]).length := by simp
    have hsp : s++se::rest = s++[se]++rest := by simp
    rw [longestZeros,hsp,hln]
    by_cases hz : se = 0
    · subst hz
      have he := hc.extend hed
      refine ih ?_ he (.inr ((Span.extend_end hed).trans hln))
      by_cases hlo : l.len < (c.extend s.length).len
      · rw [if_pos hlo]
        exact he
      · rw [if_neg hlo]
        exact hl.append _
    · rw [if_neg hz]
      exact ih (hl.append _) (Span.zeroIn_nil.append _) (.inl rfl)

lemma zeroIn_longestZeros (gs : List ℕ) : (longestZeros 0 {} {} gs).ZeroIn gs :=
  longestZeros_zeroIn gs Span.zeroIn_nil Span.zeroIn_nil (.inl rfl)

lemma Span.ZeroIn.split (h : sp.ZeroIn gs) :
    gs.take sp.start++replicate sp.len 0++gs.drop (sp.start+sp.len) = gs := by
  have hz : (gs.drop sp.start).take sp.len = replicate sp.len 0 := by
    refine ext_getElem? fun k => ?_
    rw [getElem?_take,getElem?_drop,getElem?_replicate]
    split_ifs with hk
    · exact h.zero _ (by omega) (by omega)
    · rfl
  rw [← hz,append_assoc,← drop_drop,take_append_drop,take_append_drop]

lemma segments_lt {bi : BitVec 128} {g : ℕ} (hg : g ∈ segments bi) : g < 65536 :=
  bigEndian_lt (by decide) hg

lemma segments_of_mapped {bi : BitVec 128} {i : BitVec 32} (h : toIpv4Mapped bi = some i) :
    segments bi = [0,0,0,0,0,0xffff,ofBigEndian 256 ((octets i).take 2),
      ofBigEndian 256 ((octets i).drop 2)] := by
  rw [toIpv4Mapped] at h
  split_ifs at h with hm
  have hi : i.toNat = bi.toNat % 2^32 := by
    rw [← some.inj h,BitVec.toNat_setWidth]
  simp only [segments,octets,bigEndian,ofBigEndian,take,drop,foldl,cons.injEq] at hm ⊢
  refine ⟨?_,?_,?_,?_,?_,?_,?_,?_,trivial⟩ <;> omega

lemma readGroups_mapped (i : BitVec 32) : readGroups 7 true (formatHex 0xffff++colon::displayV4 i) =
      ([0xffff,ofBigEndian 256 ((octets i).take 2),ofBigEndian 256 ((octets i).drop 2)],
        true, []) := by
  have hh : ∀ b, (colon::displayV4 i).head? = some b → b = colon := by
    rintro b ⟨⟩
    rfl
  have hi := readIpv4Addr_displayV4 i [] nofun
  rw [append_nil] at hi
  have hl : readGroups 6 false (colon::displayV4 i) =
      ([ofBigEndian 256 ((octets i).take 2),ofBigEndian 256 ((octets i).drop 2)], true, []) := by
    rw [readGroups]
    simp [readGivenChar,hi]
  rw [readGroups]
  have hg : readGroup (formatHex 0xffff++colon::displayV4 i) =
    some (0xffff, colon::displayV4 i) := readGroup_formatHex (by decide) hh
  simp [readIpv4Addr_formatHex _ hh,hg,hl]

lemma readIpv6Addr_short (head : List ℕ) {t : List ℕ} {te : Str}
    (hh : ∀ g ∈ head, g < 65536) (hl : head.length < 8) {ipv4 : Bool}
    (ht : readGroups (8 - (head.length+1)) true te = (t, ipv4, [])) :
    readIpv6Addr (joined colon formatHex head++colon::colon::te) =
      some (head++replicate (8 - head.length - t.length) 0++t, []) := by
  rw [readIpv6Addr,readGroups_joined head hh hl.le (.inr ⟨te,rfl⟩)]
  dsimp only
  rw [if_neg hl.ne]
  simp only [readGivenChar,if_true,Bool.false_eq_true,if_false,bind_eq_bind,bind_some,ht]

lemma readIpv6Addr_displayV6 (bi : BitVec 128) :
    readIpv6Addr (displayV6 bi) = some (segments bi, []) := by
  have hlt : ∀ g ∈ segments bi, g < 65536 := fun g hg => segments_lt hg
  have hl : (segments bi).length = 8 := length_bigEndian ..
  rw [displayV6]
  cases hm : toIpv4Mapped bi with
  | some ipv4 =>
    rw [segments_of_mapped hm]
    exact readIpv6Addr_short [] nofun (by decide) (readGroups_mapped ipv4)
  | none =>
    have hz := zeroIn_longestZeros (segments bi)
    dsimp only
    set zeroes := longestZeros 0 {} {} (segments bi)
    have hle := hz.end_le
    split_ifs with hru
    · have hh : ((segments bi).take zeroes.start).length = zeroes.start :=
        length_take_of_le (by omega)
      have ht : ((segments bi).drop (zeroes.start+zeroes.len)).length =
          8 - (zeroes.start+zeroes.len) := by
        rw [length_drop,hl]
      have hro : ((segments bi).drop (zeroes.start+zeroes.len)).length ≤
          8 - (((segments bi).take zeroes.start).length+1) := by omega
      have hr := readGroups_joined _ (fun g hg => hlt g (mem_of_mem_drop hg)) hro (.inl rfl)
      rw [append_nil] at hr
      rw [readIpv6Addr_short _ (fun g hg => hlt g (mem_of_mem_take hg)) (by omega) hr,hh,ht]
      have hc : 8 - zeroes.start - (8 - (zeroes.start+zeroes.len)) = zeroes.len := by omega
      rw [hc,hz.split]
    · have hr := readGroups_joined _ hlt hl.le (.inl rfl)
      rw [append_nil] at hr
      rw [readIpv6Addr,hr]
      simp [hl]

lemma parse_display (ip : IpAddr) : parse (display ip) = some ip := by
  cases ip with
  | v4 bits =>
    have hr := readIpv4Addr_displayV4 bits [] nofun
    rw [append_nil] at hr
    rw [parse,display,hr]
    simp [ofOctets_octets]
  | v6 bits =>
    have hn : readIpv4Addr (displayV6 bits) = none := by
      rw [displayV6]
      cases toIpv4Mapped bits with
      | some ipv4 => exact readIpv4Addr_colon _
      | none =>
        dsimp only
        split_ifs
        · exact readIpv4Addr_joined _ (.inr ⟨_,rfl⟩)
        · have hj := readIpv4Addr_joined (segments bits) (.inl rfl)
          rwa [append_nil] at hj
    rw [parse,display,hn,readIpv6Addr_displayV6]
    simp [ofSegments_segments]

lemma length_formatHex_le {g : ℕ} (hg : g < 65536) : (formatHex g).length ≤ 4 := by
  rw [formatHex,length_map]
  exact length_numeral_le (by decide) (by decide) hg

lemma length_furtherGroups_le (hgs : ∀ g ∈ gs, g < 65536) :
    (furtherGroups gs).length ≤ 5*gs.length := by
  induction gs with
  | nil => exact Nat.zero_le _
  | cons g gs ih =>
    have hg := length_formatHex_le (hgs g mem_cons_self)
    have hr := ih fun g' hg' => hgs g' (mem_cons_of_mem g hg')
    simp only [furtherGroups,flatMap_cons,length_append,length_cons] at hr ⊢
    omega

lemma length_joined_le (hgs : ∀ g ∈ gs, g < 65536) :
    (joined colon formatHex gs).length ≤ 5*gs.length - 1 := by
  cases gs with
  | nil => exact Nat.zero_le _
  | cons g gs =>
    have hg := length_formatHex_le (hgs g mem_cons_self)
    have hr := length_furtherGroups_le fun g' hg' => hgs g' (mem_cons_of_mem g hg')
    simp only [furtherGroups] at hr
    simp only [joined,length_append,length_cons]
    omega

lemma length_displayV6_le (bi : BitVec 128) : (displayV6 bi).length ≤ 39 := by
  have hlt : ∀ g ∈ segments bi, g < 65536 := fun g hg => segments_lt hg
  have hl : (segments bi).length = 8 := length_bigEndian ..
  rw [displayV6]
  cases toIpv4Mapped bi with
  | some ipv4 =>
    have hi := length_displayV4_le ipv4
    have hgr : (formatHex 0xffff).length ≤ 4 := length_formatHex_le (by decide)
    simp only [length_cons,length_append]
    omega
  | none =>
    have hle := (zeroIn_longestZeros (segments bi)).end_le
    dsimp only
    set zeroes := longestZeros 0 {} {} (segments bi)
    split_ifs with hr
    · have hh := length_joined_le fun g hg =>
        hlt g (mem_of_mem_take (i := zeroes.start) hg)
      have ht := length_joined_le fun g hg =>
        hlt g (mem_of_mem_drop (i := zeroes.start+zeroes.len) hg)
      rw [length_take] at hh
      rw [length_drop] at ht
      simp only [length_append,length_cons]
      omega
    · have ha := length_joined_le hlt
      omega

end

def isAddressByte (b : UInt8) : Bool := (digitValueIn 16 b).isSome || b = dot || b = colon

variable {b : UInt8}

lemma bounds_of_isAddressByte (h : isAddressByte b = true) : 46 ≤ b ∧ b ≤ 122 := by
  by_cases hd : (digitValueIn 16 b).isSome = true
  · rw [digitValueIn] at hd
    split_ifs at hd <;> simp at * <;> grind
  · simp [isAddressByte,dot,colon] at h
    grind

lemma isAddressByte_of_mem_numeral {ba n : ℕ} (ho : 1 < ba) (hba : ba ≤ 16)
    (hb : b ∈ (numeral ba n).map hexDigit) : isAddressByte b = true := by
  obtain ⟨d,hd,rfl⟩ := mem_map.mp hb
  rw [isAddressByte,digitValueIn_hexDigit le_rfl ((numeral_lt ho hd).trans_le hba)]
  rfl

lemma isAddressByte_of_mem_joined {sep : UInt8} {w : ℕ → Str} {p : List ℕ}
    (hse : isAddressByte sep = true) (hw : ∀ pa ∈ p, ∀ b ∈ w pa, isAddressByte b = true)
    (hb : b ∈ joined sep w p) : isAddressByte b = true := by
  cases p with
  | nil => cases hb
  | cons pa p =>
    rcases mem_append.mp hb with hb | hb
    · exact hw pa mem_cons_self b hb
    · obtain ⟨p',hp,hb⟩ := mem_flatMap.mp hb
      rcases mem_cons.mp hb with rfl | hb
      · exact hse
      · exact hw p' (mem_cons_of_mem _ hp) b hb

lemma isAddressByte_of_mem_displayV4 {bi : BitVec 32} (hb : b ∈ displayV4 bi) :
    isAddressByte b = true := by
  refine isAddressByte_of_mem_joined rfl (fun o _ b hb => ?_) hb
  rw [formatDecimal_eq] at hb
  exact isAddressByte_of_mem_numeral (by decide) (by decide) hb

lemma isAddressByte_of_mem_display {ip : IpAddr} (hb : b ∈ display ip) :
    isAddressByte b = true := by
  have hh : ∀ (gs : List ℕ), ∀ b ∈ joined colon formatHex gs, isAddressByte b = true :=
    fun gs b hb => isAddressByte_of_mem_joined rfl
      (fun g _ b hb => isAddressByte_of_mem_numeral (by decide) le_rfl hb) hb
  cases ip with
  | v4 bits => exact isAddressByte_of_mem_displayV4 hb
  | v6 bits =>
    rw [display,displayV6] at hb
    split at hb
    · simp only [mem_cons,mem_append] at hb
      rcases hb with rfl | rfl | hb | rfl | hb
      · rfl
      · rfl
      · exact isAddressByte_of_mem_numeral (by decide) le_rfl hb
      · rfl
      · exact isAddressByte_of_mem_displayV4 hb
    · dsimp only at hb
      split_ifs at hb
      · simp only [mem_cons,mem_append] at hb
        rcases hb with hb | rfl | rfl | hb
        · exact hh _ b hb
        · rfl
        · rfl
        · exact hh _ b hb
      · exact hh _ b hb

end ArionGateway.AddressText
