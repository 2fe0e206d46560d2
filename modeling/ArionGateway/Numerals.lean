import ArionGateway.TextEncodings

/-!
# Numbers as digits

Numbers in a base, as text without leading zeros and as lists of digits of a fixed
length. The reader of text is that of the standard library's address parser: it
takes all digits in front, and fails if there are too many of them. What is written
is read back.
-/
namespace ArionGateway.Numerals
open ByteStrings TextEncodings List

/-- `char::to_digit`. -/
def digitValueIn (base : ℕ) (b : UInt8) : Option ℕ := (if 48 ≤ b && b ≤ 57 then some (b.toNat - 48)
    else if 97 ≤ b && b ≤ 122 then some (b.toNat - 87)
    else if 65 ≤ b && b ≤ 90 then some (b.toNat - 55)
    else none).filter (· < base)

def hexDigit (d : ℕ) : UInt8 := if d < 10 then digit d else UInt8.ofNat (87+d)

/-- The digits of a number from the left, one for zero. -/
def numeral (base n : ℕ) : List ℕ := if n = 0 then [0] else (Nat.digits base n).reverse

def formatHex (n : ℕ) : Str := (numeral 16 n).map hexDigit

/-- `read_number` with a limit for the digits, for a type with a bound. -/
def readNumber (base maxDigits bound : ℕ) (allowZeroPrefix : Bool) (s : Str) : Option (ℕ × Str) :=
  let isDigitIn := fun b => (digitValueIn base b).isSome
  let text := s.takeWhile isDigitIn
  let n := Nat.ofDigits base (text.filterMap (digitValueIn base)).reverse
  if maxDigits < text.length then none
  else if text = [] then none
  else if !allowZeroPrefix && text.head? = some (digit 0) && 1 < text.length then none
  else if n < bound then some (n, s.dropWhile isDigitIn) else none

section
variable {base d bo m : ℕ} {rest : Str} {a : Bool} {n : ℕ}

lemma digitValueIn_hexDigit (hb : base ≤ 16) (hd : d < base) :
    digitValueIn base (hexDigit d) = some d := by
  have ha : ∀ e < 16, (if 48 ≤ hexDigit e && hexDigit e ≤ 57 then some ((hexDigit e).toNat - 48)
      else if 97 ≤ hexDigit e && hexDigit e ≤ 122 then some ((hexDigit e).toNat - 87)
      else if 65 ≤ hexDigit e && hexDigit e ≤ 90 then some ((hexDigit e).toNat - 55)
      else none) = some e := by decide
  rw [digitValueIn,ha d (hd.trans_le hb),Option.filter_some,if_pos (by simpa using hd)]

lemma numeral_lt (hb : 1 < base) (hd : d ∈ numeral base n) : d < base := by
  rw [numeral] at hd
  split_ifs at hd with hn
  · rw [mem_singleton.mp hd]
    omega
  · exact Nat.digits_lt_base hb (mem_reverse.mp hd)

lemma numeral_ne_nil (b n : ℕ) : numeral b n ≠ [] := by
  rw [numeral]
  split_ifs with hn
  · exact cons_ne_nil _ _
  · simpa [Nat.digits_eq_nil_iff_eq_zero] using hn

lemma ofDigits_numeral (b n : ℕ) : Nat.ofDigits b (numeral b n).reverse = n := by
  rw [numeral]
  split_ifs with hn
  · simp [hn]
  · rw [reverse_reverse,Nat.ofDigits_digits]

lemma head_numeral (b n : ℕ) : (numeral b n).head? ≠ some 0 ∨ (numeral b n).length = 1 := by
  rw [numeral]
  split_ifs with hn
  · exact .inr rfl
  · left
    rw [head?_reverse]
    intro hl
    rw [getLast?_eq_some_getLast (Nat.digits_ne_nil_iff_ne_zero.mpr hn)] at hl
    exact Nat.getLast_digit_ne_zero b hn (Option.some.inj hl)

lemma length_numeral_le (hb : 1 < base) {k : ℕ} (hk : 0 < k) (hn : n < base^k) :
    (numeral base n).length ≤ k := by
  rw [numeral]
  split_ifs
  · exact hk
  · rw [length_reverse]
    exact (Nat.digits_length_le_iff hb n).mpr hn

lemma formatDecimal_eq (n : ℕ) : formatDecimal n = (numeral 10 n).map hexDigit := by
  have hd : (numeral 10 n).map digit = (numeral 10 n).map hexDigit :=
    map_congr_left fun e he => (if_pos (numeral_lt (by decide) he)).symm
  rw [← hd,formatDecimal,numeral]
  split_ifs <;> rfl

lemma stops_of_head {s : Str} (h : ∀ b, s.head? = some b → digitValueIn base b = none) :
    s.takeWhile (fun b => (digitValueIn base b).isSome) = [] ∧
      s.dropWhile (fun b => (digitValueIn base b).isSome) = s := by
  cases s with
  | nil => exact ⟨rfl,rfl⟩
  | cons b s => simp [h b rfl]

lemma readNumber_digits {ds : List ℕ} (a : Bool) (hba : base ≤ 16)
    (hds : ∀ e ∈ ds, e < base) (hne : ds ≠ []) (hl : ds.length ≤ m)
    (hz : a = true ∨ ds.head? ≠ some 0 ∨ ds.length = 1)
    (hr : ∀ b, rest.head? = some b → digitValueIn base b = none)
    (hbo : Nat.ofDigits base ds.reverse < bo) :
    readNumber base m bo a (ds.map hexDigit++rest) = some (Nat.ofDigits base ds.reverse, rest) := by
  have hal : ∀ b ∈ ds.map hexDigit, (digitValueIn base b).isSome = true := by
    intro b hb
    obtain ⟨e,he,rfl⟩ := mem_map.mp hb
    rw [digitValueIn_hexDigit hba (hds e he)]
    rfl
  obtain ⟨ht,hdr⟩ := stops_of_head hr
  have hv : (ds.map hexDigit).filterMap (digitValueIn base) = ds := by
    rw [filterMap_map]
    refine (filterMap_congr fun e he => ?_).trans filterMap_some
    exact digitValueIn_hexDigit hba (hds e he)
  rw [readNumber,takeWhile_append_of_pos hal,dropWhile_append_of_pos hal,ht,hdr,
    append_nil,hv,length_map,if_neg (Nat.not_lt_of_le hl),
    if_neg (by simpa using hne),if_neg,if_pos hbo]
  simp only [Bool.and_eq_true,Bool.not_eq_true',decide_eq_true_eq,not_and,not_lt]
  rintro ⟨ha,hh⟩
  rcases hz with hz | hz | hz
  · exact absurd (hz.symm.trans ha) (by decide)
  · -- the first digit is not zero
    refine absurd ?_ hz
    cases ds with
    | nil => exact absurd rfl hne
    | cons e ds =>
      have he := digitValueIn_hexDigit hba (hds e mem_cons_self)
      have hd : hexDigit e = hexDigit 0 := Option.some.inj hh
      have hpos : 0 < base := (Nat.zero_le e).trans_lt (hds e mem_cons_self)
      rw [hd,digitValueIn_hexDigit hba hpos] at he
      rw [← Option.some.inj he]
      rfl
  · exact hz.le

lemma readNumber_numeral {k : ℕ} (hb : base ≤ 16) (ho : 1 < base) (hk : 0 < k)
    (hn : n < base^k) (hbo : n < bo) (a : Bool)
    (hr : ∀ b, rest.head? = some b → digitValueIn base b = none) :
    readNumber base k bo a ((numeral base n).map hexDigit++rest) = some (n, rest) := by
  have hre := readNumber_digits a hb
    (fun e he => numeral_lt ho he) (numeral_ne_nil base n) (length_numeral_le ho hk hn)
    (.inr (head_numeral base n)) hr (by rwa [ofDigits_numeral])
  rwa [ofDigits_numeral] at hre

lemma readNumber_rest {s : Str} (h : readNumber base m bo a s = some (n, rest)) :
    rest = s.dropWhile fun b => (digitValueIn base b).isSome := by
  rw [readNumber] at h
  split_ifs at h
  exact (Prod.mk.inj (Option.some.inj h)).2.symm

lemma readNumber_eq_none_of_head {s : Str}
    (h : ∀ b, s.head? = some b → digitValueIn base b = none) : readNumber base m bo a s = none := by
  rw [readNumber,(stops_of_head h).1]
  simp

/-- The last `k` digits of a number in a base, from the left. -/
def bigEndian (base : ℕ) : ℕ → ℕ → List ℕ
  | 0, _ => []
  | k+1, n => n / base^k % base::bigEndian base k n

def ofBigEndian (base : ℕ) (ds : List ℕ) : ℕ := ds.foldl (fun n d => n*base+d) 0

lemma length_bigEndian (b k n : ℕ) : (bigEndian b k n).length = k := by
  induction k with
  | zero => rfl
  | succ k ih => rw [bigEndian,length_cons,ih]

lemma bigEndian_lt (hb : 0 < base) {k n d : ℕ} (hd : d ∈ bigEndian base k n) : d < base := by
  induction k with
  | zero => cases hd
  | succ k ih =>
    rcases mem_cons.mp hd with rfl | hd
    · exact Nat.mod_lt _ hb
    · exact ih hd

lemma foldl_bigEndian (b k n acc : ℕ) :
    (bigEndian b k n).foldl (fun n d => n*b+d) acc = acc*b^k+n % b^k := by
  induction k generalizing acc with
  | zero => simp [bigEndian,Nat.mod_one]
  | succ k ih =>
    rw [bigEndian,foldl_cons,ih,Nat.mod_pow_succ]
    ring

lemma ofBigEndian_bigEndian (b : ℕ) {k n : ℕ} (hn : n < b^k) :
    ofBigEndian b (bigEndian b k n) = n := by
  rw [ofBigEndian,foldl_bigEndian,Nat.zero_mul,Nat.zero_add,Nat.mod_eq_of_lt hn]

end

/-- `to_be_bytes`, for any number of bytes. -/
def toBeBytes (k n : ℕ) : Str := (bigEndian 256 k n).map UInt8.ofNat

def ofBeBytes (bytes : Str) : ℕ := ofBigEndian 256 (bytes.map UInt8.toNat)

lemma length_toBeBytes (k n : ℕ) : (toBeBytes k n).length = k := by
  rw [toBeBytes,length_map,length_bigEndian]

lemma ofBeBytes_toBeBytes {k n : ℕ} (hn : n < 256^k) : ofBeBytes (toBeBytes k n) = n := by
  have hdi : ((bigEndian 256 k n).map UInt8.ofNat).map UInt8.toNat = bigEndian 256 k n := by
    rw [map_map,map_congr_left (g := id),map_id]
    intro d hd
    exact UInt8.toNat_ofNat_of_lt (bigEndian_lt (by decide) hd)
  rw [ofBeBytes,toBeBytes,hdi,ofBigEndian_bigEndian 256 hn]

end ArionGateway.Numerals
