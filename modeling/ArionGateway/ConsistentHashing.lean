import ArionGateway.ForwardedFor
import ArionGateway.Maglev

/-!
# Hash policies and hash rings

The hash of a request is taken of what its policies find in it, and a hash ring answers it with
the next point. The hash functions and the decoding of queries are arbitrary. `F` stands for the
floating point numbers and `ceil` for rounding up, so that an item gets points until their number
is no longer below its target. The standard library's binary search is that of Rust 1.89.
-/
namespace ArionGateway.ConsistentHashing
open ByteStrings HttpHeaders IpNetworks Maglev SortedListings List

inductive PolicySpecifier
  | sourceIp (on : Bool)
  | header (name : Str)
  | queryParameter (name : Str)

structure HashPolicy where
  policySpecifier : PolicySpecifier
  terminal : Bool

inductive HashPolicyResult
  | applied
  | skipped
  | terminal

structure Request where
  headers : HeaderMap
  query : Option Str

/-- What a hasher is fed with. -/
inductive Fed
  | ip (ip : IpAddr)
  | port (port : ℕ)
  | value (value : Str)
  | text (text : Str)
  deriving DecidableEq

open HashPolicy

variable (parse : Str → List (Str × Str)) (req : Request)

/-- What a policy reads, if there is any. -/
def HashPolicy.reads (self : HashPolicy) (srcAddr : SocketAddr) : Option (List Fed) :=
  match self.policySpecifier with
  | .sourceIp true => some [.ip srcAddr.ip,.port srcAddr.port]
  | .sourceIp false => none
  | .header name => (req.headers.get name).map fun value => [.value value]
  | .queryParameter name =>
    (req.query.bind fun query => (parse query).find? fun pair => pair.1 = name).map
      fun pair => [.text pair.2]

def HashPolicy.apply (self : HashPolicy) (hasher : List Fed) (srcAddr : SocketAddr) :
    HashPolicyResult × List Fed :=
  match self.reads parse req srcAddr, self.terminal with
  | some fed, true => (.terminal, hasher++fed)
  | some fed, false => (.applied, hasher++fed)
  | none, _ => (.skipped, hasher)

/-- The hasher after the policies, if one of them was applied. -/
def hashed (srcAddr : SocketAddr) : List HashPolicy → List Fed → Bool → Option (List Fed)
  | [], hasher, applied => if applied then some hasher else none
  | policy::policies, hasher, applied =>
    match policy.apply parse req hasher srcAddr with
    | (.applied, hasher) => hashed srcAddr policies hasher true
    | (.skipped, hasher) => hashed srcAddr policies hasher applied
    | (.terminal, hasher) => some hasher

/-- `HashState::compute`. -/
def compute (finish : List Fed → ℕ) (policies : List HashPolicy) (srcAddr : SocketAddr) :
    Option ℕ :=
  if policies.isEmpty then none else (hashed parse req srcAddr policies [] false).map finish

/-- A source-ip policy is come to: no terminal policy before it is applied. -/
def ReadsSource (srcAddr : SocketAddr) : List HashPolicy → Prop
  | [] => False
  | policy::policies =>
    policy.policySpecifier = .sourceIp true ∨
      ¬(policy.terminal = true ∧ (policy.reads parse req srcAddr).isSome = true) ∧
        ReadsSource srcAddr policies

variable {parse req} {a a' : SocketAddr} {ps : List HashPolicy}

lemma reads_congr (a a' : SocketAddr) {p : HashPolicy} (h : p.policySpecifier ≠ .sourceIp true) :
    p.reads parse req a = p.reads parse req a' := by
  unfold reads
  grind

lemma hashed_congr (h : ¬ReadsSource parse req a ps) (fs : List Fed) (b : Bool) :
    hashed parse req a ps fs b = hashed parse req a' ps fs b := by
  induction ps generalizing fs b with
  | nil => rfl
  | cons p ps ih =>
    rw [ReadsSource,not_or] at h
    simp only [hashed,apply,← reads_congr a a' h.1]
    cases hp : p.reads parse req a <;> cases ht : p.terminal <;> grind

lemma exists_hashed (a : SocketAddr) (ps : List HashPolicy) (fs : List Fed) :
    ∃ more, hashed parse req a ps fs true = some (fs++more) := by
  induction ps generalizing fs with
  | nil => exact ⟨[],by simp [hashed]⟩
  | cons p ps ih =>
    simp only [hashed,apply]
    cases hp : p.reads parse req a with
    | none => exact ih fs
    | some fed =>
      cases p.terminal with
      | true => exact ⟨fed,rfl⟩
      | false =>
        obtain ⟨more,hm⟩ := ih (fs++fed)
        exact ⟨fed++more,by simpa using hm⟩

lemma hashed_of_readsSource (h : ReadsSource parse req a ps) (fs : List Fed) (b : Bool) :
    ∃ before, ∀ port, ∃ more, hashed parse req ⟨a.ip,port⟩ ps fs b =
      some (before++.port port::more) := by
  induction ps generalizing fs b with
  | nil => cases h
  | cons p ps ih =>
    by_cases hs : p.policySpecifier = .sourceIp true
    · refine ⟨fs++[.ip a.ip],fun port => ?_⟩
      simp only [hashed,apply,reads,hs]
      cases p.terminal with
      | true => exact ⟨[],by simp⟩
      | false =>
        obtain ⟨more,hm⟩ := exists_hashed ⟨a.ip,port⟩ ps (fs++[.ip a.ip,.port port])
        exact ⟨more,by simpa using hm⟩
    · obtain ⟨ht,hr⟩ := h.resolve_left hs
      have hc : ∀ port, p.reads parse req ⟨a.ip,port⟩ = p.reads parse req a :=
        fun port => reads_congr _ _ hs
      simp only [hashed,apply,hc]
      cases hp : p.reads parse req a with
      | none => exact ih hr fs b
      | some fed =>
        have ht : p.terminal = false := by simpa [hp] using ht
        rw [ht]
        exact ih hr (fs++fed) true

/-- The items and the sorted points, each a hash with the index of its item. -/
structure RingHashBalancer (E : Type) where
  items : List (LbItem E)
  ring : List (ℕ × ℕ)
  sorted : ring.Pairwise fun p q => p.1 ≤ q.1
  index_lt : ∀ p ∈ ring, p.2 < items.length

def searchLoop (keys : List ℕ) (key : ℕ) : ℕ → ℕ → ℕ → ℕ
  | 0, base, _ => base
  | fuel+1, base, size =>
    if size ≤ 1 then base
    else
      let half := size / 2
      let mid := base+half
      searchLoop keys key fuel (if key < keys.getD mid 0 then base else mid) (size - half)

/-- `slice::binary_search`: the index of the key, or else where it could be inserted. -/
def binarySearch (keys : List ℕ) (key : ℕ) : Except ℕ ℕ :=
  if keys.isEmpty then .error 0
  else
    let base := searchLoop keys key keys.length 0 keys.length
    if keys.getD base 0 = key then .ok base
    else .error (if keys.getD base 0 < key then base+1 else base)

section
variable (keys : List ℕ) (key : ℕ)
  (hk : ∀ i j, i ≤ j → j < keys.length → keys.getD i 0 ≤ keys.getD j 0)
include hk

lemma searchLoop_spec {base size fuel : ℕ} (hf : size ≤ fuel) (hs : 0 < size)
    (hb : base = 0 ∨ keys.getD base 0 ≤ key)
    (he : base+size = keys.length ∨ key < keys.getD (base+size) 0) (hle : base+size ≤ keys.length) :
    ∃ b, searchLoop keys key fuel base size = b ∧ b < keys.length ∧
      (b = 0 ∨ keys.getD b 0 ≤ key) ∧ (b+1 = keys.length ∨ key < keys.getD (b+1) 0) := by
  induction fuel generalizing base size with
  | zero => omega
  | succ fuel ih =>
    rw [searchLoop]
    by_cases h1 : size ≤ 1
    · obtain rfl : size = 1 := by omega
      exact ⟨base,if_pos h1,by omega,hb,he⟩
    · rw [if_neg h1]
      dsimp only
      by_cases hm : key < keys.getD (base+size/2) 0
      · rw [if_pos hm]
        refine ih (by omega) (by omega) hb ?_ (by omega)
        -- the rest ends at the middle or, if the size is odd, after it
        rcases (show base+(size - size/2) ≤ keys.length by omega).eq_or_lt with hl | hl
        · exact .inl hl
        · exact .inr (hm.trans_le (hk _ _ (by omega) hl))
      · rw [if_neg hm]
        refine ih (by omega) (by omega) (.inr (not_lt.mp hm)) ?_ (by omega)
        rwa [show base+size/2+(size - size/2) = base+size by omega]

/-- The index that is used is that of the next key, or the last one if there is none. -/
lemma binarySearch_spec (hne : keys ≠ []) : ∃ i < keys.length, (match binarySearch keys key with
      | .ok matchingIndex => matchingIndex
      | .error closestIndex => min closestIndex (keys.length - 1)) = i ∧
      ((key ≤ keys.getD i 0 ∧ ∀ j < keys.length, key ≤ keys.getD j 0 →
          keys.getD i 0 ≤ keys.getD j 0) ∨
        (∀ j < keys.length, keys.getD j 0 < key) ∧ i+1 = keys.length) := by
  obtain ⟨b,hb,hlt,hlo,hhi⟩ := searchLoop_spec keys key hk le_rfl
    (length_pos_iff.mpr hne) (.inl rfl) (.inl (zero_add _)) (zero_add _).le
  rw [binarySearch,if_neg (by simpa using hne)]
  rw [hb]
  rcases lt_trichotomy (keys.getD b 0) key with h | h | h
  · rw [if_neg h.ne,if_pos h]
    -- all keys up to this one are below
    have hbe : ∀ j < keys.length, key ≤ keys.getD j 0 → b+1 ≤ j := fun j hj hkj => by
      by_contra hjb
      exact absurd (hk j b (by omega) hlt) (by omega)
    rcases hlt.nat_succ_le.eq_or_lt with hl | hl
    · refine ⟨b,hlt,by change min _ _ = _; omega,.inr ⟨fun j hj => ?_,hl⟩⟩
      by_contra hkj
      exact absurd (hbe j hj (not_lt.mp hkj)) (by omega)
    · exact ⟨b+1,hl,min_eq_left (by omega),.inl ⟨(hhi.resolve_left hl.ne).le,
        fun j hj hkj => hk _ _ (hbe j hj hkj) hj⟩⟩
  · rw [if_pos h]
    exact ⟨b,hlt,rfl,.inl ⟨h.ge,fun j hj hkj => h.trans_le hkj⟩⟩
  · rw [if_neg h.ne',if_neg h.le.not_gt]
    obtain rfl : b = 0 := hlo.resolve_right (by omega)
    exact ⟨0,hlt,by simp,.inl ⟨h.le,fun j hj _ => hk 0 j (Nat.zero_le j) hj⟩⟩

end

namespace RingHashBalancer

variable {F : Type} [Add F] [Mul F] (ceil : F → ℕ)
  {E : Type} [EndpointWithAuthority E] (hash : Str → ℕ → ℕ)

/-- The points of the items from `index` on, up to the target number for each. -/
def fill (scale : F) : ℕ → F → List (LbItem E × F) → List (ℕ × ℕ) → List (ℕ × ℕ)
  | _, _, [], ring => ring
  | index, targetSlots, (x, weight)::items, ring =>
    let targetSlots := targetSlots+weight*scale
    let slots := List.range (ceil targetSlots - ring.length)
    fill scale (index+1) targetSlots items
      (ring++slots.map fun slot => (hash (EndpointWithAuthority.authority x.item) slot, index))

lemma index_lt_fill (scale : F) {n i : ℕ} (target : F) {items : List (LbItem E × F)}
    {ring : List (ℕ × ℕ)} (hn : i+items.length = n) (hr : ∀ p ∈ ring, p.2 < n) :
    ∀ p ∈ fill ceil hash scale i target items ring, p.2 < n := by
  induction items generalizing i target ring with
  | nil => exact hr
  | cons x items ih =>
    rw [length_cons] at hn
    refine ih _ (by omega) ?_
    simp only [mem_append,mem_map]
    rintro p (hp | ⟨slot,-,rfl⟩)
    · exact hr p hp
    · change i < n
      omega

variable [NatCast F] [Div F] [Min F]

def newWithSettings (items : List (LbItem E)) (minRingSize maxRingSize : ℕ) : RingHashBalancer E :=
  let checked := collectChecked 0 items
  let weights : List F := normalizedWeights checked.1 checked.2
  let ring :=
    match weights.min? with
    | none => []
    | some minimum =>
      let scale := min ((ceil (minimum*minRingSize) : F) / minimum) maxRingSize
      fill ceil hash scale 0 ((0 : ℕ) : F) (checked.1.zip weights) []
  { items := checked.1
    ring := sortBy Prod.fst ring
    sorted := pairwise_sortBy _ _
    index_lt := by
      intro p hp
      have hp := (sortBy_perm _ _).mem_iff.mp hp
      unfold ring at hp
      split at hp
      · cases hp
      · refine index_lt_fill ceil hash _ _ ?_ (by simp) p hp
        simp [weights,normalizedWeights] }

def new (items : List (LbItem E)) : RingHashBalancer E :=
  newWithSettings ceil hash items 1024 (1024*1024*8)

variable {E : Type} (self : RingHashBalancer E)

def itemOf (point : ℕ × ℕ) : Option E := (self.items[point.2]?).map LbItem.item

/-- `random` is the number that is generated if there is no hash. -/
def nextItem (hash : Option ℕ) (random : ℕ) : Option E :=
  if self.items.length ≤ 1 then self.items.head?.map LbItem.item
  else
    let ringIndex :=
      match binarySearch (self.ring.map Prod.fst) (hash.getD random) with
      | .ok matchingIndex => matchingIndex
      | .error closestIndex => min closestIndex (self.ring.length - 1)
    self.ring[ringIndex]?.bind self.itemOf

/-- The point that a hash belongs to: the next one, or the first one if there is none. -/
def Successor (h : ℕ) (point : ℕ × ℕ) : Prop :=
  (point ∈ self.ring ∧ h ≤ point.1 ∧ ∀ q ∈ self.ring, h ≤ q.1 → point.1 ≤ q.1) ∨
    (∀ q ∈ self.ring, q.1 < h) ∧ self.ring.head? = some point

/-- A point is chosen that the hash belongs to, or the last one if all are below the hash. -/
lemma exists_chosen (h r : ℕ) (hr : self.ring ≠ []) :
    ∃ p ∈ self.ring, self.nextItem (some h) r = self.itemOf p ∧
      ((h ≤ p.1 ∧ ∀ q ∈ self.ring, h ≤ q.1 → p.1 ≤ q.1) ∨
        (∀ q ∈ self.ring, q.1 < h) ∧ self.ring.getLast? = some p) := by
  have hget : ∀ i (hi : i < self.ring.length), (self.ring.map Prod.fst).getD i 0 = self.ring[i].1 := by
    intro i hi
    simp [hi]
  obtain ⟨i,hi,hs,hc⟩ := binarySearch_spec (self.ring.map Prod.fst) h (by
    intro i j hij hj
    rw [length_map] at hj
    rw [hget i (by omega),hget j hj]
    rcases hij.eq_or_lt with rfl | hij
    · rfl
    · exact pairwise_iff_getElem.mp self.sorted i j _ hj hij) (by simpa using hr)
  rw [length_map] at hi hs hc
  rw [hget i hi] at hc
  have hm := getElem_mem hi
  refine ⟨self.ring[i],hm,?_,hc.imp (And.imp_right ?_) (And.imp ?_ ?_)⟩
  · rw [nextItem]
    split_ifs with hle
    · have := self.index_lt _ hm
      rw [itemOf,head?_eq_getElem?,show self.ring[i].2 = 0 by omega]
    · dsimp only [Option.getD_some]
      rw [hs,getElem?_eq_getElem hi]
      rfl
  · intro h q hq hle
    obtain ⟨j,hj,rfl⟩ := mem_iff_getElem.mp hq
    exact hget j hj ▸ h j hj (hget j hj ▸ hle)
  · intro h q hq
    obtain ⟨j,hj,rfl⟩ := mem_iff_getElem.mp hq
    exact hget j hj ▸ h j hj
  · intro hl
    rw [getLast?_eq_getElem?,← hl]
    exact getElem?_eq_getElem hi

/-- The hash is answered by the next point of the ring exactly if there is a point, and one that
is not below the hash, or the last point has the item of the first. -/
theorem successor_iff (h random : ℕ) :
    (∃ p, self.Successor h p ∧ self.nextItem (some h) random = self.itemOf p) ↔
      self.ring ≠ [] ∧ (self.items.length ≤ 1 ∨ (∃ p ∈ self.ring, h ≤ p.1) ∨
        self.ring.getLast?.bind self.itemOf = self.ring.head?.bind self.itemOf) := by
  constructor
  · rintro ⟨p,hp,hn⟩
    have hne : self.ring ≠ [] := by
      rcases hp with ⟨hp,-⟩ | ⟨-,hp⟩ <;> rintro hr <;> simp [hr] at hp
    refine ⟨hne,.inr ?_⟩
    obtain ⟨c,hm,hch,hcs⟩ := self.exists_chosen h random hne
    rcases hp with ⟨hp,hle,-⟩ | ⟨-,hp⟩
    · exact .inl ⟨p,hp,hle⟩
    rcases hcs with ⟨hle,-⟩ | ⟨-,hl⟩
    · exact .inl ⟨c,hm,hle⟩
    · rw [hl,hp]
      exact .inr (hch.symm.trans hn)
  · rintro ⟨hne,hc⟩
    obtain ⟨c,hm,hch,hcs | ⟨hb,hl⟩⟩ := self.exists_chosen h random hne
    · exact ⟨c,.inl ⟨hm,hcs⟩,hch⟩
    obtain ⟨p,hp⟩ := Option.isSome_iff_exists.mp (isSome_head?.mpr hne)
    refine ⟨p,.inr ⟨hb,hp⟩,hch.trans ?_⟩
    rcases hc with hi | ⟨q,hq,hle⟩ | hend
    · -- the points have the only item
      have hc := self.index_lt c hm
      have hp := self.index_lt p (mem_of_head? hp)
      rw [itemOf,itemOf,show c.2 = p.2 by omega]
    · exact absurd (hb q hq) (by omega)
    · rwa [hl,hp] at hend

instance : EndpointWithAuthority Str := ⟨id⟩

/-- Two items of the same weight with a point for each. -/
def twoPoints : RingHashBalancer Str :=
  newWithSettings (fun q : ℚ => q.ceil.toNat) (fun authority _ => if authority = str "a" then 3 else 5)
    [⟨str "a",1⟩,⟨str "b",1⟩] 2 8388608

theorem no_wrap_around :
    twoPoints.ring = [(3, 0), (5, 1)] ∧ twoPoints.nextItem (some 9) 0 = some (str "b") := by
  have hr : twoPoints.ring = sortBy Prod.fst [(3,0),(5,1)] :=
    congrArg (sortBy Prod.fst) (by decide +kernel)
  rw [sortBy,mergeSort_of_pairwise (by decide)] at hr
  refine ⟨hr,?_⟩
  rw [nextItem,hr]
  rfl

end RingHashBalancer

variable {parse : Str → List (Str × Str)} {req : Request}

/-- The hash does not depend on the source port, whatever the hash function, exactly if no
source-ip policy is come to. The endpoint of a hash is then the same, too. -/
theorem source_port_iff {E : Type} (policies : List HashPolicy) (ip : IpAddr) :
    (∀ (finish : List Fed → ℕ) (port port' : ℕ),
        let hash := compute parse req finish policies ⟨ip, port⟩
        let hash' := compute parse req finish policies ⟨ip, port'⟩
        hash = hash' ∧ (hash.isSome → ∀ (maglev : MaglevBalancer E) (ring : RingHashBalancer E)
          random random', (maglev.nextItem hash random).1 = (maglev.nextItem hash' random').1 ∧
            ring.nextItem hash random = ring.nextItem hash' random')) ↔
      ∀ port, ¬ReadsSource parse req ⟨ip, port⟩ policies := by
  constructor
  · intro h port hr
    obtain ⟨before,hb⟩ := hashed_of_readsSource hr [] false
    obtain ⟨x,hx⟩ := hb 0
    obtain ⟨y,hy⟩ := hb 1
    have hne : policies.isEmpty = false := by cases policies <;> [cases hr; rfl]
    have hf := (h (fun fed => if fed = before++.port 0::x then 0 else 1) 0 1).1
    simp [compute,hne,hx,hy] at hf
  · intro h finish port port'
    have hc : compute parse req finish policies ⟨ip,port⟩ =
        compute parse req finish policies ⟨ip,port'⟩ := by
      rw [compute,compute,hashed_congr (h port)]
    refine ⟨hc,fun hs maglev ring random random' => ?_⟩
    obtain ⟨n,hn⟩ := Option.isSome_iff_exists.mp hs
    rw [← hc,hn]
    exact ⟨rfl,rfl⟩

def plainRequest : Request := ⟨[],none⟩

theorem source_port_hashed :
    compute (fun _ => []) plainRequest (fun fed => if fed.contains (.port 1024) then 0 else 1)
        [⟨.sourceIp true, true⟩] ⟨.v4 0xC0000201, 1024⟩ ≠
      compute (fun _ => []) plainRequest (fun fed => if fed.contains (.port 1024) then 0 else 1)
        [⟨.sourceIp true, true⟩] ⟨.v4 0xC0000201, 1025⟩ := by
  decide

end ArionGateway.ConsistentHashing
