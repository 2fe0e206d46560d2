import Mathlib.Data.BitVec

/-!
# Addresses, masks and the networks of the `ipnet` crate

Addresses are bit vectors of their family's width. The crate that parses and
stores networks is not part of the repository: `IpnetCrate` is the part of its
interface the matchers call, with the documented meaning of `trunc`,
`prefix_len` and `contains` as fields. `networks` is one implementation.
-/
namespace ArionGateway.IpNetworks
open List

inductive IpAddr where
  | v4 (bits : BitVec 32)
  | v6 (bits : BitVec 128)
  deriving DecidableEq

structure SocketAddr where
  ip : IpAddr
  port : ℕ
  deriving DecidableEq

/-- The mask that keeps the first `prefixLen` of `w` bits. -/
def prefixMask (w prefixLen : ℕ) : BitVec w :=
  if prefixLen = 0 then 0 else BitVec.allOnes w <<< (w - prefixLen)

def ipv4Mask (prefixLen : ℕ) : BitVec 32 := prefixMask 32 prefixLen
def ipv6Mask (prefixLen : ℕ) : BitVec 128 := prefixMask 128 prefixLen

/-- A truncated network: its family, prefix length and network bits. -/
inductive IpNetwork where
  | v4 (prefixLen : ℕ) (network : BitVec 32)
  | v6 (prefixLen : ℕ) (network : BitVec 128)
  deriving DecidableEq

/-- The networks of one family that contain an address, from the longest prefix
to the shortest. -/
def maskedPrefixes {w : ℕ} (network : ℕ → BitVec w → IpNetwork) (bits : BitVec w) :
    List IpNetwork :=
  (List.range (w+1)).map fun i => network (w - i) (bits &&& prefixMask w (w - i))

def containing : IpAddr → List IpNetwork
  | .v4 bits => maskedPrefixes .v4 bits
  | .v6 bits => maskedPrefixes .v6 bits

lemma findIdx?_maskedPrefixes {w : ℕ} {nt : ℕ → BitVec w → IpNetwork}
    (hn : ∀ {p q b c}, nt p b = nt q c → p = q) {bi : BitVec w} {t : IpNetwork} {len : ℕ}
    {c : Bool} (ht : ∀ {p b}, t = nt p b → p = len ∧ p ≤ w)
    (hc : c = true ↔ t = nt len (bi &&& prefixMask w len)) :
    (maskedPrefixes nt bi).findIdx? (fun m => decide (m = t)) =
      if c then some (w - len) else none := by
  split_ifs with hi
  · obtain rfl := hc.mp hi
    have hp := (ht rfl).2
    rw [findIdx?_eq_some_iff_getElem]
    have hlen : w - len < (maskedPrefixes nt bi).length := by
      simp only [maskedPrefixes,length_map,length_range]
      omega
    refine ⟨hlen,?_,?_⟩
    · simp only [maskedPrefixes,getElem_map,getElem_range,decide_eq_true_eq]
      rw [show w - (w - len) = len by omega]
    · intro j hj
      simp only [maskedPrefixes,getElem_map,getElem_range,decide_eq_true_eq]
      intro heq
      have := hn heq
      omega
  · rw [findIdx?_eq_none_iff]
    intro m hm
    obtain ⟨i,-,rfl⟩ := mem_map.mp hm
    refine decide_eq_false fun heq => hi (hc.mpr ?_)
    rw [← heq,(ht heq.symm).1]

def IpAddr.width : IpAddr → ℕ
  | .v4 _ => 32
  | .v6 _ => 128

/-- `ipnet::IpNet` and the operations on it that the matchers use. -/
structure IpnetCrate where
  IpNet : Type
  /-- `trunc()` followed by `prefix_len()` and `network()`. -/
  trunc : IpNet → IpNetwork
  prefixLen : IpNet → ℕ
  contains : IpNet → IpAddr → Bool
  trunc_v4 : ∀ {n p b}, trunc n = .v4 p b → p = prefixLen n ∧ p ≤ 32
  trunc_v6 : ∀ {n p b}, trunc n = .v6 p b → p = prefixLen n ∧ p ≤ 128
  contains_v4 : ∀ n bits, contains n (.v4 bits) = true ↔
    trunc n = .v4 (prefixLen n) (bits &&& ipv4Mask (prefixLen n))
  contains_v6 : ∀ n bits, contains n (.v6 bits) = true ↔
    trunc n = .v6 (prefixLen n) (bits &&& ipv6Mask (prefixLen n))

def networks : IpnetCrate where
  IpNet := { n : IpNetwork // match n with
    | .v4 p _ => p ≤ 32
    | .v6 p _ => p ≤ 128 }
  trunc n := n.1
  prefixLen n := match n.1 with
    | .v4 p _ => p
    | .v6 p _ => p
  contains n ip := match n.1, ip with
    | .v4 p b, .v4 bits => b == bits &&& ipv4Mask p
    | .v6 p b, .v6 bits => b == bits &&& ipv6Mask p
    | _, _ => false
  trunc_v4 := by
    rintro ⟨n,hn⟩ p b h
    cases h
    exact ⟨rfl,hn⟩
  trunc_v6 := by
    rintro ⟨n,hn⟩ p b h
    cases h
    exact ⟨rfl,hn⟩
  contains_v4 := by
    rintro ⟨n,hn⟩ bits
    cases n <;> simp
  contains_v6 := by
    rintro ⟨n,hn⟩ bits
    cases n <;> simp

variable (N : IpnetCrate)

/-- The position of a network among those containing an address is the number
of bits it leaves free; a network that does not contain the address has none. -/
lemma findIdx?_containing (n : N.IpNet) (ip : IpAddr) :
    (containing ip).findIdx? (fun m => decide (m = N.trunc n)) =
      if N.contains n ip then some (ip.width - N.prefixLen n) else none := by
  cases ip with
  | v4 bits => exact findIdx?_maskedPrefixes (by simp) N.trunc_v4 (N.contains_v4 n bits)
  | v6 bits => exact findIdx?_maskedPrefixes (by simp) N.trunc_v6 (N.contains_v6 n bits)

end ArionGateway.IpNetworks
