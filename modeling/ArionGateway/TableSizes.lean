import Mathlib.Data.Nat.Log
import Mathlib.Data.Nat.Prime.Basic

/-!
# Prime sizes of Maglev tables

The size of a table is a constant, and a constant that `is_prime` refuses does not compile. In
the evaluation of a constant an overflow is an error, for words of any width that `usize` has.
The loop runs for a given number of rounds and fails if it needs more, so that a value is also
a proof of termination.
-/
namespace ArionGateway.TableSizes

inductive Fault where
  | overflow
  | unfinished
  deriving DecidableEq

def checked (bits n : ℕ) : Except Fault ℕ := if n < 2^bits then .ok n else .error .overflow

def nextPowerOfTwo (bits n : ℕ) : Except Fault ℕ := checked bits (2^Nat.clog 2 n)

def trailingZeros : ℕ → ℕ → ℕ
  | 0, _ => 0
  | bits+1, n => if n % 2 = 1 then 0 else trailingZeros bits (n / 2)+1

lemma trailingZeros_pow (e b : ℕ) : trailingZeros (e+b+1) (2^e) = e := by
  induction e with
  | zero => rfl
  | succ e ih =>
      rw [Nat.succ_add,trailingZeros,pow_succ,Nat.mul_mod_left,Nat.mul_div_cancel _ (by decide),ih]
      rfl

variable (bits : ℕ)

/-- The `while` loop over the candidates. -/
def trialDivision (n upperBound : ℕ) : ℕ → ℕ → ℕ → Except Fault Bool
  | 0, _, _ => .error .unfinished
  | rounds+1, current, incr =>
    if current ≤ upperBound then
      if n % current = 0 then .ok false
      else do
        let current ← checked bits (current+incr)
        trialDivision n upperBound rounds current (incr ^^^ 6)
    else .ok true

def isPrime (rounds n : ℕ) : Except Fault Bool :=
  if n ≤ 1 then .ok false
  else if n ≤ 3 then .ok true
  else do
    let nextSquare := trailingZeros 128 (← nextPowerOfTwo 128 n)+1
    let upperBound ← checked bits (2^(nextSquare / 2))
    if n % 2 = 0 ∨ n % 3 = 0 then .ok false
    else trialDivision bits n upperBound rounds 5 2

/-- The candidate is no multiple of two or three, and no smaller number divides. -/
structure Wheel (n current incr : ℕ) : Prop where
  five_le : 5 ≤ current
  phase : current % 6 = 5 ∧ incr = 2 ∨ current % 6 = 1 ∧ incr = 4
  tried : ∀ m, 2 ≤ m → m < current → ¬ m ∣ n

variable {bits} {n current incr bound : ℕ}

lemma Wheel.step (h : Wheel n current incr) (hn : ¬ current ∣ n) :
    Wheel n (current+incr) (incr ^^^ 6) := by
  have hfive := h.five_le
  refine ⟨by omega,?_,fun m hm hlt hd => ?_⟩
  · rcases h.phase with ⟨hc,rfl⟩ | ⟨hc,rfl⟩
    · exact .inr ⟨by omega,rfl⟩
    · exact .inl ⟨by omega,rfl⟩
  · rcases lt_trichotomy m current with hmc | rfl | hmc
    · exact h.tried m hm hmc hd
    · exact hn hd
    · -- between two candidates there are multiples of two and three only
      have hm : 2 ∣ m ∨ 3 ∣ m := by
        rcases h.phase with ⟨hc,rfl⟩ | ⟨hc,rfl⟩ <;> omega
      rcases hm with hm | hm
      · exact h.tried 2 le_rfl (by omega) (hm.trans hd)
      · exact h.tried 3 (by omega) (by omega) (hm.trans hd)

lemma Wheel.prime (h : Wheel n current incr) (hn : 2 ≤ n) (hsq : n ≤ bound*bound)
    (hlt : bound < current) : n.Prime := by
  by_contra hnp
  have hle : n.minFac*n.minFac ≤ bound*bound :=
    (sq n.minFac ▸ Nat.minFac_sq_le_self (by omega) hnp).trans hsq
  have hb : n.minFac < current := (Nat.mul_self_le_mul_self_iff.mp hle).trans_lt hlt
  exact h.tried n.minFac (Nat.minFac_prime (by omega)).two_le hb n.minFac_dvd

lemma trialDivision_eq {rounds : ℕ} (h : Wheel n current incr) (hn : 2 ≤ n)
    (hsq : n ≤ bound*bound) (hlt : bound < n) (hb : bound+4 < 2^bits) (hpos : 0 < rounds)
    (hr : bound+1 < current+rounds) :
    trialDivision bits n bound rounds current incr = .ok (decide n.Prime) := by
  induction rounds generalizing current incr with
  | zero => omega
  | succ rounds ih =>
      rw [trialDivision]
      split_ifs with hc hd
      · have htwo : 2 ≤ current := le_trans (by decide) h.five_le
        have hd := Nat.dvd_of_mod_eq_zero hd
        rw [decide_eq_false (Nat.not_prime_of_dvd_of_lt hd htwo (by omega))]
      · have hi : incr = 2 ∨ incr = 4 := h.phase.imp And.right And.right
        rw [checked,if_pos (by omega)]
        exact ih (h.step fun hd' => hd (Nat.mod_eq_zero_of_dvd hd')) (by omega) (by omega)
      · rw [decide_eq_true (h.prime hn hsq (by omega))]

/-- The bound is between the square root and the number, and far below the largest word. -/
lemma bound_spec {e : ℕ} (he : Nat.clog 2 n = e) (hlow : 16 ≤ bits) (hn : 4 ≤ n) (hw : e ≤ bits) :
    n ≤ 2^((e+1) / 2)*2^((e+1) / 2) ∧ 2^((e+1) / 2) < n ∧ 2^((e+1) / 2)+4 < 2^bits := by
  have htwo : 1 < e := he ▸ (Nat.lt_clog_iff_pow_lt (by decide)).mpr (by omega)
  have hlt : 2^(e - 1) < n := he ▸ Nat.pow_pred_clog_lt_self (by decide) (by omega)
  refine ⟨?_,(Nat.pow_le_pow_right (by decide) (by omega)).trans_lt hlt,?_⟩
  · rw [← pow_add]
    exact (Nat.le_pow_clog (by decide) n).trans (Nat.pow_le_pow_right (by decide) (by omega))
  · have hhalf : 2^((e+1) / 2) ≤ 2^(bits - 2) := Nat.pow_le_pow_right (by decide) (by omega)
    have hbig : 2^3 ≤ 2^(bits - 2) := Nat.pow_le_pow_right (by decide) (by omega)
    rw [show bits = bits - 2+2 by omega,pow_add]
    omega

/-- On every word the function ends without an overflow, after at most as many rounds as the
word says, and accepts exactly the primes. -/
theorem isPrime_iff_prime {rounds : ℕ} (hlow : 16 ≤ bits) (hhigh : bits ≤ 64) (hn : n < 2^bits)
    (hr : n ≤ rounds) :
    (∃ b, isPrime bits rounds n = .ok b) ∧ (isPrime bits rounds n = .ok true ↔ n.Prime) := by
  suffices h : isPrime bits rounds n = .ok (decide n.Prime) by simp [h]
  rw [isPrime]
  by_cases h₁ : n ≤ 1
  · rw [if_pos h₁,decide_eq_false fun hp => by have := hp.two_le; omega]
  by_cases h₂ : n ≤ 3
  · obtain rfl | rfl : n = 2 ∨ n = 3 := by omega
    all_goals rfl
  · have hw := Nat.clog_le_of_le_pow hn.le
    generalize he : Nat.clog 2 n = e at hw
    obtain ⟨hsq,hlt,hb⟩ := bound_spec he hlow (by omega) hw
    have hp : nextPowerOfTwo 128 n = .ok (2^e) :=
      he ▸ if_pos (Nat.pow_lt_pow_right (by decide) (by omega))
    have hz : trailingZeros 128 (2^e) = e := by
      have hz := trailingZeros_pow e (127 - e)
      rwa [show e+(127 - e)+1 = 128 by omega] at hz
    have hu : checked bits (2^((e+1) / 2)) = .ok (2^((e+1) / 2)) := if_pos (by omega)
    simp only [if_neg h₁,if_neg h₂,hp,hz,hu,bind,Except.bind]
    split_ifs with hd
    · rcases hd with hd | hd <;> rw [decide_eq_false
        (Nat.not_prime_of_dvd_of_lt (Nat.dvd_of_mod_eq_zero hd) (by decide) (by omega))]
    · refine trialDivision_eq ⟨le_rfl,.inl ⟨rfl,rfl⟩,fun m hm hm' hdvd => ?_⟩ (by omega) hsq hlt hb
        (by omega) (by omega)
      obtain rfl | rfl | rfl : m = 2 ∨ m = 3 ∨ m = 4 := by omega
      all_goals omega

/-- The default size is a prime. -/
theorem isPrime_default : 65537 < 2^64 ∧ isPrime 64 65537 65537 = .ok true ∧ Nat.Prime 65537 := by
  have hp := (isPrime_iff_prime (n := 65537) (by decide : 16 ≤ 64) le_rfl (by decide) le_rfl).2
  have ha : isPrime 64 65537 65537 = .ok true := by decide +kernel
  exact ⟨by decide,ha,hp.mp ha⟩

end ArionGateway.TableSizes
