import ArionGateway.ByteStrings
import Mathlib.Data.Nat.Digits.Lemmas

/-!
# Numbers and bytes as text

Numbers are written in decimal and read with an optional sign and any leading
zeros. Bytes are written in Base64, in the padded standard alphabet or in the
unpadded alphabet for URLs. The decoder is strict: padding has to be complete
and unused bits have to be zero. Whatever is written is read back, and the bytes
of the texts are those of their alphabets.
-/
namespace ArionGateway.TextEncodings
open ByteStrings List Option

def isDigit (b : UInt8) : Bool := 48 ≤ b && b ≤ 57

def digit (d : ℕ) : UInt8 := UInt8.ofNat (48+d)

def digitValue (b : UInt8) : Option ℕ := if isDigit b then some (b.toNat - 48) else none

def formatDecimal (n : ℕ) : Str :=
  if n = 0 then [digit 0] else (Nat.digits 10 n).reverse.map digit

def readDigits (s : Str) : Option ℕ := (s.mapM digitValue).map fun ds => Nat.ofDigits 10 ds.reverse

def plus : UInt8 := 43

def parseDecimal (bound : ℕ) (s : Str) : Option ℕ :=
  let digits := if s.head? = some plus then s.tail else s
  if digits = [] then none else (readDigits digits).filter (· < bound)

lemma digitValue_digit {d : ℕ} (h : d < 10) : digitValue (digit d) = some d := by
  interval_cases d <;> rfl

lemma mapM_digitValue {ds : List ℕ} (h : ∀ d ∈ ds, d < 10) :
    (ds.map digit).mapM digitValue = some ds := by
  induction ds with
  | nil => rfl
  | cons d ds ih =>
    have hd := digitValue_digit (h d mem_cons_self)
    have hds := ih fun e he => h e (mem_cons_of_mem d he)
    simp [hd,hds]

lemma readDigits_formatDecimal (n : ℕ) : readDigits (formatDecimal n) = some n := by
  unfold readDigits formatDecimal
  split
  next h => simp [digitValue_digit,h]
  · rw [mapM_digitValue]
    · simp [Nat.ofDigits_digits]
    · intro d hd
      exact Nat.digits_lt_base (by norm_num) (mem_reverse.mp hd)

lemma isDigit_of_mem_formatDecimal {n : ℕ} {b : UInt8} (h : b ∈ formatDecimal n) :
    isDigit b = true := by
  unfold formatDecimal at h
  split at h
  · obtain rfl := mem_singleton.mp h
    rfl
  · obtain ⟨d,hd,rfl⟩ := mem_map.mp h
    have hlt : d < 10 := Nat.digits_lt_base (by norm_num) (mem_reverse.mp hd)
    interval_cases d <;> rfl

lemma formatDecimal_ne_nil (n : ℕ) : formatDecimal n ≠ [] := by
  unfold formatDecimal
  split
  · simp
  next h => simpa [Nat.digits_eq_nil_iff_eq_zero] using h

lemma parseDecimal_formatDecimal (bound n : ℕ) :
    parseDecimal bound (formatDecimal n) = if n < bound then some n else none := by
  have hpl : (formatDecimal n).head? ≠ some plus := by
    intro hp
    have := isDigit_of_mem_formatDecimal (mem_of_head? hp)
    exact nomatch this
  simp [parseDecimal,hpl,formatDecimal_ne_nil,readDigits_formatDecimal,filter_some]

/-- The two alphabets in use: padded, and unpadded for URLs. -/
inductive Alphabet where
  | standard
  | urlSafe
  deriving DecidableEq

def Alphabet.padded : Alphabet → Bool
  | .standard => true
  | .urlSafe => false

def padding : UInt8 := 61

def Alphabet.symbol (a : Alphabet) (n : ℕ) : UInt8 :=
  if n < 26 then UInt8.ofNat (65+n)
  else if n < 52 then UInt8.ofNat (71+n)
  else if n < 62 then UInt8.ofNat (n - 4)
  else
    match a with
    | .standard => if n = 62 then 43 else 47
    | .urlSafe => if n = 62 then 45 else 95

def isAlphanumeric (b : UInt8) : Bool := (65 ≤ b && b ≤ 90) || (97 ≤ b && b ≤ 122) || isDigit b

def Alphabet.value (a : Alphabet) (b : UInt8) : Option ℕ :=
  if 65 ≤ b ∧ b ≤ 90 then some (b.toNat - 65)
  else if 97 ≤ b ∧ b ≤ 122 then some (b.toNat - 71)
  else if 48 ≤ b ∧ b ≤ 57 then some (b.toNat+4)
  else
    match a with
    | .standard => if b = 43 then some 62 else if b = 47 then some 63 else none
    | .urlSafe => if b = 45 then some 62 else if b = 95 then some 63 else none

def Alphabet.contains (a : Alphabet) (b : UInt8) : Bool :=
  isAlphanumeric b ||
    match a with
    | .standard => b == 43 || b == 47 || b == padding
    | .urlSafe => b == 45 || b == 95

def Alphabet.pad (a : Alphabet) (n : ℕ) : Str := if a.padded then List.replicate n padding else []

def Alphabet.encode (a : Alphabet) : List UInt8 → Str
  | [] => []
  | [x] => [a.symbol (x.toNat / 4),a.symbol (x.toNat % 4*16)]++a.pad 2
  | [x,y] =>
    [a.symbol (x.toNat / 4),a.symbol (x.toNat % 4*16+y.toNat / 16),
      a.symbol (y.toNat % 16*4)]++a.pad 1
  | x::y::z::rest =>
    a.symbol (x.toNat / 4)::a.symbol (x.toNat % 4*16+y.toNat / 16) ::
      a.symbol (y.toNat % 16*4+z.toNat / 64)::a.symbol (z.toNat % 64)::a.encode rest

def Alphabet.decodeTwo (a : Alphabet) (s t : UInt8) : Option (List UInt8) := do
  let u ← a.value s
  let v ← a.value t
  if v % 16 = 0 then some [UInt8.ofNat (u*4+v / 16)] else none

def Alphabet.decodeThree (a : Alphabet) (s t r : UInt8) : Option (List UInt8) := do
  let u ← a.value s
  let v ← a.value t
  let w ← a.value r
  if w % 4 = 0 then
    some [UInt8.ofNat (u*4+v / 16),UInt8.ofNat (v % 16*16+w / 4)]
  else none

def Alphabet.decodeFour (a : Alphabet) (s t r q : UInt8) : Option (List UInt8) := do
  let u ← a.value s
  let v ← a.value t
  let w ← a.value r
  let x ← a.value q
  some [UInt8.ofNat (u*4+v / 16),UInt8.ofNat (v % 16*16+w / 4), UInt8.ofNat (w % 4*64+x)]

def Alphabet.decode (a : Alphabet) : Str → Option (List UInt8)
  | [] => some []
  | [_] => none
  | [s,t] => if a.padded then none else a.decodeTwo s t
  | [s,t,r] => if a.padded then none else a.decodeThree s t r
  | s::t::r::q::rest =>
    if a.padded = true ∧ q = padding ∧ rest = [] then
      if r = padding then a.decodeTwo s t else a.decodeThree s t r
    else do
      let first ← a.decodeFour s t r q
      let others ← a.decode rest
      some (first++others)

lemma Alphabet.value_symbol (a : Alphabet) {n : ℕ} (h : n < 64) :
    a.value (a.symbol n) = some n := by
  have ha : ∀ i : Fin 64, a.value (a.symbol i) = some i.val := by
    cases a <;> decide
  exact ha ⟨n,h⟩

lemma Alphabet.contains_symbol (a : Alphabet) {n : ℕ} (h : n < 64) :
    a.contains (a.symbol n) = true := by
  have ha : ∀ i : Fin 64, a.contains (a.symbol i) = true := by
    cases a <;> decide
  exact ha ⟨n,h⟩

lemma Alphabet.symbol_ne_padding (a : Alphabet) {n : ℕ} (h : n < 64) : a.symbol n ≠ padding := by
  intro hp
  have hn : a.value padding = none := by cases a <;> rfl
  have hv := a.value_symbol h
  rw [hp,hn] at hv
  simp at hv

lemma ofNat_eq {x : UInt8} {n : ℕ} (h : n = x.toNat) : UInt8.ofNat n = x := by
  rw [h,UInt8.ofNat_toNat]

variable (a : Alphabet) (x y z : UInt8)

lemma Alphabet.decodeTwo_symbols :
    a.decodeTwo (a.symbol (x.toNat / 4)) (a.symbol (x.toNat % 4*16)) = some [x] := by
  have hx := x.toNat_lt
  unfold decodeTwo
  rw [a.value_symbol (by omega),a.value_symbol (by omega)]
  have hz : x.toNat % 4*16 % 16 = 0 := by omega
  simp only [bind_eq_bind,bind_some,hz,if_pos]
  rw [ofNat_eq (x := x) (by omega)]

lemma Alphabet.decodeThree_symbols :
    a.decodeThree (a.symbol (x.toNat / 4)) (a.symbol (x.toNat % 4*16+y.toNat / 16))
      (a.symbol (y.toNat % 16*4)) = some [x,y] := by
  have hx := x.toNat_lt
  have hy := y.toNat_lt
  unfold decodeThree
  rw [a.value_symbol (by omega),a.value_symbol (by omega),a.value_symbol (by omega)]
  have hz : y.toNat % 16*4 % 4 = 0 := by omega
  simp only [bind_eq_bind,bind_some,hz,if_pos]
  rw [ofNat_eq (x := x) (by omega),ofNat_eq (x := y) (by omega)]

lemma Alphabet.decodeFour_symbols :
    a.decodeFour (a.symbol (x.toNat / 4)) (a.symbol (x.toNat % 4*16+y.toNat / 16))
      (a.symbol (y.toNat % 16*4+z.toNat / 64)) (a.symbol (z.toNat % 64)) = some [x,y,z] := by
  have hx := x.toNat_lt
  have hy := y.toNat_lt
  have hz := z.toNat_lt
  unfold decodeFour
  rw [a.value_symbol (by omega),a.value_symbol (by omega),a.value_symbol (by omega),
    a.value_symbol (by omega)]
  simp only [bind_eq_bind,bind_some]
  rw [ofNat_eq (x := x) (by omega),ofNat_eq (x := y) (by omega),ofNat_eq (x := z) (by omega)]

lemma Alphabet.decode_encode (a : Alphabet) (bytes : List UInt8) :
    a.decode (a.encode bytes) = some bytes := by
  induction bytes using Alphabet.encode.induct with
  | case1 => rfl
  | case2 x =>
    cases a with
    | standard | urlSafe => simp [encode,decode,pad,padded,decodeTwo_symbols]
  | case3 x y =>
    have hne := a.symbol_ne_padding (n := y.toNat % 16*4) (by omega)
    cases a with
    | standard => simp [encode,decode,pad,padded,decodeThree_symbols,hne]
    | urlSafe => simp [encode,decode,pad,padded,decodeThree_symbols]
  | case4 x y z rest ih =>
    have hne := a.symbol_ne_padding (n := z.toNat % 64) (by omega)
    rw [encode,decode,if_neg (fun h => hne h.2.1),decodeFour_symbols,ih]
    rfl

lemma Alphabet.contains_of_mem_encode (a : Alphabet) {bytes : List UInt8} {b : UInt8}
    (h : b ∈ a.encode bytes) : a.contains b = true := by
  have hp : ∀ n, b ∈ a.pad n → a.contains b = true := by
    intro n hb
    cases a with
    | standard =>
      obtain rfl := eq_of_mem_replicate (by simpa [pad,padded] using hb)
      rfl
    | urlSafe => simp [pad,padded] at hb
  induction bytes using Alphabet.encode.induct with
  | case1 => simp [encode] at h
  | case2 x =>
    have hx := x.toNat_lt
    simp only [encode,mem_append,mem_cons,not_mem_nil,or_false] at h
    rcases h with (rfl | rfl) | h
    on_goal 3 => exact hp 2 h
    all_goals exact a.contains_symbol (by omega)
  | case3 x y =>
    have hx := x.toNat_lt
    have hy := y.toNat_lt
    simp only [encode,mem_append,mem_cons,not_mem_nil,or_false] at h
    rcases h with (rfl | rfl | rfl) | h
    on_goal 4 => exact hp 1 h
    all_goals exact a.contains_symbol (by omega)
  | case4 x y z rest ih =>
    have hx := x.toNat_lt
    have hy := y.toNat_lt
    have hz := z.toNat_lt
    simp only [encode,mem_cons] at h
    rcases h with rfl | rfl | rfl | rfl | h
    on_goal 5 => exact ih h
    all_goals exact a.contains_symbol (by omega)

example : Alphabet.encode .standard (str "light w") = str "bGlnaHQgdw==" := by decide

end ArionGateway.TextEncodings
