import ArionGateway.FirstMatch
import ArionGateway.HttpHeaders
import ArionGateway.SortedListings
import Mathlib.Algebra.Field.ZMod
import Mathlib.Tactic.Linarith
import Mathlib.Tactic.Ring

/-!
# Maglev tables

An item goes through the table in steps of its own and takes the next free entry whenever it has
gathered enough weight; the table size is a prime number, so that every walk meets every entry.
The hash functions are arbitrary. `F` stands for the floating point numbers; where they matter
they are read as rationals. Indices do not overflow for tables of up to 2³² entries. A failed
debug assertion is recorded, and the function goes on as in a release build.
-/
namespace ArionGateway.Maglev
open ByteStrings FirstMatch HttpHeaders SortedListings List

structure LbItem (E : Type) where
  item : E
  weight : ℕ

class EndpointWithAuthority (E : Type) where
  authority : E → Str

def authoritySortingKey (authority : Str) : List ℕ := (toAsciiLowercase authority).map UInt8.toNat

/-- The items whose total weight fits in 32 bits, with the total. -/
def collectChecked {E : Type} (total : ℕ) : List (LbItem E) → List (LbItem E) × ℕ
  | [] => ([], total)
  | x::items =>
    if total+x.weight < 2^32 then
      let (rest, total) := collectChecked (total+x.weight) items
      (x::rest, total)
    else ([], total)

structure TableBuilder where
  table : List (Option ℕ)
  size : ℕ
  asserted : Bool

namespace TableBuilder

def new (tableSize : ℕ) : TableBuilder := ⟨List.replicate tableSize none,0,false⟩

def tryUpdate (self : TableBuilder) (index value : ℕ) : TableBuilder × Bool :=
  match self.table[index]? with
  | some none =>
    ({ self with table := self.table.set index (some value), size := self.size+1 }, true)
  | some (some _) => (self, false)
  | none => ({ self with asserted := true }, false)

def isFull (tableSize : ℕ) (self : TableBuilder) : Prop := tableSize ≤ self.size

instance (tableSize : ℕ) (self : TableBuilder) : Decidable (self.isFull tableSize) :=
  inferInstanceAs (Decidable (_ ≤ _))

def build (self : TableBuilder) : List ℕ × Bool :=
  (self.table.map (·.getD 0), self.asserted || self.table.any Option.isNone)

end TableBuilder

structure Permutation (F : Type) where
  offset : ℕ
  skip : ℕ
  weight : F
  currentWeight : F
  targetWeight : F
  next : ℕ

variable {F : Type} [NatCast F] [Add F] [Sub F] [Div F] [Max F] [LE F] [DecidableLE F]

def Permutation.new (hash : Str → ℕ → ℕ) (tableSize : ℕ) (authority : Str)
    (weight targetWeight : F) : Permutation F where
  offset := hash authority 0 % tableSize
  skip := hash authority 1 % (tableSize - 1)+1
  weight := weight
  currentWeight := targetWeight
  targetWeight := targetWeight
  next := 0

def Permutation.hasEnoughWeightAfterIterating (self : Permutation F) : Bool × Permutation F :=
  let currentWeight := self.currentWeight+self.weight
  if self.targetWeight ≤ currentWeight then
    (true, { self with currentWeight := currentWeight - self.targetWeight })
  else (false, { self with currentWeight })

def Permutation.index (self : Permutation F) (tableSize n : ℕ) : ℕ :=
  (self.offset+self.skip*n) % tableSize

variable (tableSize : ℕ)

/-- The innermost loop: the next free entry of the permutation. -/
def tryEntries (item : ℕ) : ℕ → Permutation F → TableBuilder → Permutation F × TableBuilder
  | 0, p, b => (p, { b with asserted := true })
  | tries+1, p, b =>
    let index := p.index tableSize p.next
    let p := { p with next := p.next+1 }
    let (b, updated) := b.tryUpdate index item
    if updated then (p, b) else tryEntries item tries p b

def itemStep (item : ℕ) (p : Permutation F) (b : TableBuilder) : Permutation F × TableBuilder :=
  let (enough, p) := p.hasEnoughWeightAfterIterating
  if enough then tryEntries tableSize item tableSize p b else (p, b)

/-- One round; a full table ends it. -/
def itemLoop (item : ℕ) : List (Permutation F) → TableBuilder → List (Permutation F) × TableBuilder
  | [], b => ([], b)
  | p::ps, b =>
    if b.isFull tableSize then (p::ps, b)
    else
      let (p, b) := itemStep tableSize item p b
      let (ps, b) := itemLoop (item+1) ps b
      (p::ps, b)

def tableLoop : ℕ → List (Permutation F) → TableBuilder → List (Permutation F) × TableBuilder
  | 0, ps, b => (ps, b)
  | rounds+1, ps, b =>
    let (ps, b) := itemLoop tableSize 0 ps b
    if b.isFull tableSize then (ps, b) else tableLoop rounds ps b

variable {E : Type} [EndpointWithAuthority E] (hash : Str → ℕ → ℕ)

def normalizedWeights (items : List (LbItem E)) (totalWeight : ℕ) : List F :=
  items.map fun x => (x.weight : F) / (totalWeight : F)

/-- The permutations and the table after the outermost loop. -/
def fillTable (items : List (LbItem E)) (totalWeight : ℕ) (maxNormalizedWeight : F) :
    List (Permutation F) × TableBuilder :=
  let permutations := items.map fun x =>
    Permutation.new hash tableSize (EndpointWithAuthority.authority x.item)
      ((x.weight : F) / (totalWeight : F)) maxNormalizedWeight
  tableLoop tableSize tableSize permutations (.new tableSize)

structure MaglevBalancer (E : Type) where
  items : List (LbItem E)
  table : List ℕ
  asserted : Bool

namespace MaglevBalancer
variable (F : Type) [NatCast F] [Add F] [Sub F] [Div F] [Max F] [LE F] [DecidableLE F]
  {E : Type} [EndpointWithAuthority E] (hash : Str → ℕ → ℕ)

def withSize (tableSize : ℕ) (items : List (LbItem E)) : MaglevBalancer E :=
  let (items, totalWeight) := collectChecked 0 items
  let items := sortBy (fun x => authoritySortingKey (EndpointWithAuthority.authority x.item)) items
  let (table, asserted) :=
    match items.length, (normalizedWeights items totalWeight : List F).max? with
    | _, none => ([], false)
    | 1, some _ => ([0], false)
    | _, some maxNormalizedWeight =>
      (fillTable tableSize hash items totalWeight maxNormalizedWeight).2.build
  ⟨items,table,asserted⟩

def new (items : List (LbItem E)) : MaglevBalancer E := withSize F hash 65537 items

omit [EndpointWithAuthority E]

/-- `random` is the number that is generated if there is no hash. -/
def nextItem (self : MaglevBalancer E) (hash : Option ℕ) (random : ℕ) :
    Option E × MaglevBalancer E :=
  if self.items.length ≤ 1 then (self.items.head?.map LbItem.item, self)
  else
    let tableIndex := hash.getD random % self.table.length
    ((self.table[tableIndex]?.bind fun index => self.items[index]?).map LbItem.item, self)

end MaglevBalancer

section
variable {tableSize n i : ℕ} {b b' c : TableBuilder} {p : Permutation ℚ}

/-- In steps that are no multiple of a prime, every residue is met. -/
lemma exists_index (hp : tableSize.Prime) {s : ℕ} (hpos : 0 < s) (hlt : s < tableSize)
    (o : ℕ) {k : ℕ} (hk : k < tableSize) : ∃ j < tableSize, (o+s*j) % tableSize = k := by
  have := Fact.mk hp
  have hs : (s : ZMod tableSize) ≠ 0 := by
    rw [Ne,ZMod.natCast_eq_zero_iff]
    exact Nat.not_dvd_of_pos_of_lt hpos hlt
  refine ⟨((k - o) / s : ZMod tableSize).val,ZMod.val_lt _,?_⟩
  have hj : ((o+s*((k - o) / s : ZMod tableSize).val : ℕ) : ZMod tableSize) = (k : ℕ) := by
    push_cast
    rw [ZMod.natCast_zmod_val,mul_div_cancel₀ _ hs,add_sub_cancel]
  rw [(ZMod.natCast_eq_natCast_iff' ..).mp hj,Nat.mod_eq_of_lt hk]

structure Good (tableSize n : ℕ) (b : TableBuilder) : Prop where
  length : b.table.length = tableSize
  size : b.size+b.table.countP Option.isNone = tableSize
  values : ∀ v, some v ∈ b.table → v < n
  asserted : b.asserted = false

structure Advances (tableSize n : ℕ) (b b' : TableBuilder) : Prop where
  good : Good tableSize n b'
  keeps : ∀ {k v : ℕ}, b.table[k]? = some (some v) → b'.table[k]? = some (some v)
  size_le : b.size ≤ b'.size

/-- The entries that a permutation has come to are taken. -/
structure Sound (tableSize : ℕ) (b : TableBuilder) (p : Permutation ℚ) : Prop where
  skip_pos : 0 < p.skip
  skip_lt : p.skip < tableSize
  next_le : p.next ≤ tableSize
  visited : ∀ j < p.next, ∃ v, b.table[p.index tableSize j]? = some (some v)

lemma Advances.trans (h : Advances tableSize n b b') (h' : Advances tableSize n b' c) :
    Advances tableSize n b c := ⟨h'.good,fun hk => h'.keeps (h.keeps hk),h.size_le.trans h'.size_le⟩

lemma Advances.mem (h : Advances tableSize n b b') {v : ℕ} (hv : some v ∈ b.table) :
    some v ∈ b'.table := by
  obtain ⟨k,hk⟩ := mem_iff_getElem?.mp hv
  exact mem_iff_getElem?.mpr ⟨k,h.keeps hk⟩

lemma Sound.advance (hs : Sound tableSize b p) (h : Advances tableSize n b b') :
    Sound tableSize b' p := by
  refine ⟨hs.skip_pos,hs.skip_lt,hs.next_le,fun j hj => ?_⟩
  obtain ⟨v,hv⟩ := hs.visited j hj
  exact ⟨v,h.keeps hv⟩

lemma Good.set (hb : Good tableSize n b) {k : ℕ} (hk : b.table[k]? = some none) {v : ℕ}
    (hv : v < n) :
    Advances tableSize n b { b with table := b.table.set k (some v), size := b.size+1 } := by
  refine ⟨⟨?_,?_,fun w hw => ?_,hb.asserted⟩,fun {j w} hj => ?_,Nat.le_succ _⟩
  · rw [length_set,hb.length]
  · have hc := countP_set_add Option.isNone hk (some v)
    have hs := hb.size
    simp only [Option.isNone_none,Option.isNone_some,Bool.toNat_true,Bool.toNat_false] at hc
    dsimp only
    omega
  · rcases mem_or_eq_of_mem_set hw with hw | hw
    · exact hb.values w hw
    · exact Option.some.inj hw ▸ hv
  · rw [getElem?_set_ne,hj]
    rintro rfl
    rw [hj] at hk
    cases hk

lemma Sound.visit (hs : Sound tableSize b p) (hlt : p.next < tableSize) {v : ℕ}
    (hv : b.table[p.index tableSize p.next]? = some (some v)) :
    Sound tableSize b { p with next := p.next+1 } := by
  refine ⟨hs.skip_pos,hs.skip_lt,hlt,fun j hj => ?_⟩
  rcases Nat.lt_succ_iff_lt_or_eq.mp hj with hj | rfl
  · exact hs.visited j hj
  · exact ⟨v,hv⟩

/-- The innermost loop takes a free entry if one lies ahead within its tries. -/
lemma tryEntries_spec (hb : Good tableSize n b) (hs : Sound tableSize b p) (hi : i < n)
    {j t : ℕ} (hj : p.next ≤ j) (hlt : j < tableSize) (ht : j < p.next+t)
    (hf : b.table[p.index tableSize j]? = some none) :
    ∃ next b', tryEntries tableSize i t p b = ({ p with next }, b') ∧
      Advances tableSize n b b' ∧ Sound tableSize b' { p with next } ∧
      b'.size = b.size+1 ∧ some i ∈ b'.table := by
  induction t generalizing p with
  | zero => omega
  | succ t ih =>
    have hin : p.index tableSize p.next < b.table.length := by
      rw [hb.length]
      exact Nat.mod_lt _ (by omega)
    rw [tryEntries,TableBuilder.tryUpdate]
    cases he : b.table[p.index tableSize p.next]? with
    | none => exact absurd (getElem?_eq_none_iff.mp he) (by omega)
    | some entry =>
      cases entry with
      | none =>
        have ha := hb.set he hi
        have hse := getElem?_set_self (a := some i) hin
        exact ⟨_,_,rfl,ha,(hs.advance ha).visit (by omega) hse,rfl,mem_iff_getElem?.mpr ⟨_,hse⟩⟩
      | some v =>
        have hne : p.next ≠ j := by
          rintro rfl
          rw [he] at hf
          cases hf
        exact ih (hs.visit (by omega) he) (by dsimp only; omega) (by dsimp only; omega) hf

lemma exists_free (hb : Good tableSize n b) (hf : ¬ b.isFull tableSize) :
    ∃ k < tableSize, b.table[k]? = some none := by
  have hs := hb.size
  have hpos : 0 < b.table.countP Option.isNone := by
    rw [TableBuilder.isFull] at hf
    omega
  obtain ⟨a,ha,hn⟩ := countP_pos_iff.mp hpos
  obtain ⟨k,hk⟩ := mem_iff_getElem?.mp ha
  rw [Option.isNone_iff_eq_none.mp hn] at hk
  exact ⟨k,hb.length ▸ (List.getElem?_eq_some_iff.mp hk).1,hk⟩

/-- An item that takes an entry in every round. -/
def Heavy (p : Permutation ℚ) : Prop :=
  0 ≤ p.targetWeight ∧ p.weight = p.targetWeight ∧ p.currentWeight = p.targetWeight

lemma itemStep_spec (hp : tableSize.Prime) (hb : Good tableSize n b)
    (hs : Sound tableSize b p) (hi : i < n) (hfu : ¬ b.isFull tableSize) :
    ∃ p' b', itemStep tableSize i p b = (p', b') ∧ Advances tableSize n b b' ∧
      Sound tableSize b' p' ∧ (Heavy p → Heavy p') ∧
      (p.targetWeight ≤ p.currentWeight+p.weight → b'.size = b.size+1 ∧ some i ∈ b'.table) := by
  rw [itemStep,Permutation.hasEnoughWeightAfterIterating]
  by_cases he : p.targetWeight ≤ p.currentWeight+p.weight
  · simp only [if_pos he]
    set q := { p with currentWeight := p.currentWeight+p.weight - p.targetWeight } with hq
    have hsq : Sound tableSize b q := ⟨hs.skip_pos,hs.skip_lt,hs.next_le,hs.visited⟩
    obtain ⟨k,hk,hf⟩ := exists_free hb hfu
    obtain ⟨j,hj,rfl⟩ := exists_index hp hs.skip_pos hs.skip_lt p.offset hk
    -- the entries that the permutation has come to are taken, so a free one lies ahead
    have hle : q.next ≤ j := by
      by_contra hlt
      obtain ⟨v,hv⟩ := hs.visited j (not_le.mp hlt)
      rw [Permutation.index,hf] at hv
      cases hv
    obtain ⟨next,b',heq,ha,hs',hsi,hm⟩ := tryEntries_spec hb hsq hi hle hj (Nat.lt_add_left _ hj) hf
    refine ⟨_,b',heq,ha,hs',fun hh => ⟨hh.1,hh.2.1,?_⟩,fun _ => ⟨hsi,hm⟩⟩
    simp [hq,hh.2.1,hh.2.2]
  · simp only [if_neg he]
    refine ⟨_,b,rfl,⟨hb,id,le_rfl⟩,⟨hs.skip_pos,hs.skip_lt,hs.next_le,hs.visited⟩,
      fun hh => absurd ?_ he,fun h => absurd h he⟩
    rw [hh.2.1,hh.2.2]
    linarith [hh.1]

lemma itemLoop_spec (hp : tableSize.Prime) {ps : List (Permutation ℚ)}
    (hb : Good tableSize n b) (hs : ∀ p ∈ ps, Sound tableSize b p) (hi : i+ps.length ≤ n) :
    ∃ ps' b', itemLoop tableSize i ps b = (ps', b') ∧ ps'.length = ps.length ∧
      Advances tableSize n b b' ∧ (∀ p ∈ ps', Sound tableSize b' p) ∧
      ((∃ p ∈ ps, Heavy p) → (∃ p ∈ ps', Heavy p) ∧ (b'.isFull tableSize ∨ b.size < b'.size)) ∧
      ((∀ p ∈ ps, p.targetWeight ≤ p.currentWeight+p.weight) →
        b.size+ps.length ≤ tableSize → ∀ k < ps.length, some (i+k) ∈ b'.table) := by
  induction ps generalizing i b with
  | nil => exact ⟨[],b,rfl,rfl,⟨hb,id,le_rfl⟩,by simp,by simp,by simp⟩
  | cons p ps ih =>
    rw [itemLoop]
    split_ifs with hf
    · refine ⟨_,b,rfl,rfl,⟨hb,id,le_rfl⟩,hs,fun h => ⟨h,.inl hf⟩,fun _ hr => ?_⟩
      rw [TableBuilder.isFull] at hf
      omega
    · rw [length_cons] at hi
      obtain ⟨p',b',heq,ha,hs',hhv,ht⟩ := itemStep_spec hp hb (hs p (by simp)) (by omega : i < n) hf
      obtain ⟨ps',b'',he,hlen,ha',hs'',hhe,ht'⟩ :=
        ih ha.good (fun q hq => (hs q (by simp [hq])).advance ha) (by omega : i+1+ps.length ≤ n)
      rw [heq]
      dsimp only
      rw [he]
      refine ⟨_,b'',rfl,congrArg Nat.succ hlen,ha.trans ha',?_,?_,fun h hr k hk => ?_⟩
      · rintro q hq
        rcases mem_cons.mp hq with rfl | hq
        · exact hs'.advance ha'
        · exact hs'' q hq
      · rintro ⟨q,hq,hh⟩
        rcases mem_cons.mp hq with rfl | hq
        · have hw : q.targetWeight ≤ q.currentWeight+q.weight := by
            rw [hh.2.1,hh.2.2]
            linarith [hh.1]
          have hsi := (ht hw).1
          have hle := ha'.size_le
          exact ⟨⟨p',by simp,hhv hh⟩,.inr (by omega)⟩
        · obtain ⟨⟨q',hq',hh'⟩,hsi⟩ := hhe ⟨q,hq,hh⟩
          have hle := ha.size_le
          exact ⟨⟨q',by simp [hq'],hh'⟩,hsi.imp_right (by omega)⟩
      · obtain ⟨hsi,hm⟩ := ht (h p (by simp))
        rw [length_cons] at hr hk
        cases k with
        | zero => exact ha'.mem hm
        | succ k =>
          have hk' := ht' (fun q hq => h q (by simp [hq])) (by omega) k (by omega)
          rwa [add_assoc,add_comm 1] at hk'

/-- As many rounds as there are free entries fill the table, and keep what the first one did. -/
lemma tableLoop_spec (hp : tableSize.Prime) {ps : List (Permutation ℚ)} {r : ℕ}
    (hb : Good tableSize n b) (hs : ∀ p ∈ ps, Sound tableSize b p) (hn : ps.length ≤ n)
    (hhe : ∃ p ∈ ps, Heavy p) (hr : tableSize ≤ b.size+r) :
    ∃ ps' b', tableLoop tableSize r ps b = (ps', b') ∧ Advances tableSize n b b' ∧
      (∀ p ∈ ps', Sound tableSize b' p) ∧ b'.isFull tableSize ∧
      (r ≠ 0 → Advances tableSize n (itemLoop tableSize 0 ps b).2 b') := by
  induction r generalizing ps b with
  | zero => exact ⟨ps,b,rfl,⟨hb,id,le_rfl⟩,hs,hr,fun h => absurd rfl h⟩
  | succ r ih =>
    obtain ⟨ps',b',heq,hlen,ha,hs',hst,-⟩ := itemLoop_spec hp hb hs (by omega : 0+ps.length ≤ n)
    obtain ⟨hh,hsi⟩ := hst hhe
    rw [tableLoop,heq]
    dsimp only
    split_ifs with hf
    · exact ⟨ps',b',rfl,ha,hs',hf,fun _ => ⟨ha.good,id,le_rfl⟩⟩
    · have hlt := hsi.resolve_left hf
      obtain ⟨ps'',b'',he,ha',hs'',hf',-⟩ := ih ha.good hs' (hlen.trans_le hn) hh (by omega)
      exact ⟨ps'',b'',he,ha.trans ha',hs'',hf',fun _ => ha'⟩

end

open EndpointWithAuthority

open MaglevBalancer

variable {E : Type}

lemma collectChecked_of_fits (t : ℕ) (i : List (LbItem E))
    (h : t+(i.map LbItem.weight).sum < 2^32) :
    collectChecked t i = (i, t+(i.map LbItem.weight).sum) := by
  induction i generalizing t with
  | nil => rfl
  | cons x i ih =>
    rw [map_cons,sum_cons] at h
    rw [collectChecked,if_pos (by omega),ih _ (by omega),map_cons,sum_cons,add_assoc]

lemma good_new (t n : ℕ) : Good t n (.new t) := by
  refine ⟨length_replicate,?_,fun v hv => ?_,rfl⟩
  · simp [TableBuilder.new,countP_replicate]
  · cases eq_of_mem_replicate hv

lemma Good.build {t n : ℕ} {b : TableBuilder} (hb : Good t n b) (hf : b.isFull t) :
    b.build.2 = false ∧ b.build.1.length = t ∧ (∀ i ∈ b.build.1, i < n) ∧
      ∀ i, some i ∈ b.table → i ∈ b.build.1 := by
  have hs := hb.size
  have hn : ∀ a ∈ b.table, a.isNone = false := by
    rw [TableBuilder.isFull] at hf
    have hz : b.table.countP Option.isNone = 0 := by omega
    exact fun a ha => Bool.eq_false_iff.mpr (countP_eq_zero.mp hz a ha)
  refine ⟨?_,?_,fun i hi => ?_,fun i hi => mem_map.mpr ⟨some i,hi,rfl⟩⟩
  · simp only [TableBuilder.build,hb.asserted,Bool.false_or,any_eq_false]
    exact fun a ha => by simp [hn a ha]
  · rw [TableBuilder.build,length_map,hb.length]
  · obtain ⟨a,ha,rfl⟩ := mem_map.mp hi
    cases a with
    | none => cases hn none ha
    | some i => exact hb.values i ha

variable [EndpointWithAuthority E] (hash : Str → ℕ → ℕ)

lemma fillTable_spec {t : ℕ} (hpr : t.Prime) {it : List (LbItem E)}
    {total : ℕ} {max : ℚ} (hm : (normalizedWeights it total).max? = some max) :
    ∃ ps b, fillTable t hash it total max = (ps, b) ∧ Good t it.length b ∧
      b.isFull t ∧ (∀ p ∈ ps, p.next ≤ t) ∧
      (it.length ≤ t → ∀ i < it.length, some i ∈ b.table) := by
  obtain ⟨hme,hle⟩ := max?_eq_some_iff.mp hm
  have hn : ∀ x ∈ it, (0 : ℚ) ≤ x.weight / total := fun x _ =>
    div_nonneg (Nat.cast_nonneg _) (Nat.cast_nonneg _)
  set permutations := it.map fun x => Permutation.new hash t
    (authority x.item) ((x.weight : ℚ) / total) max with hps
  have hlen : permutations.length = it.length := length_map _
  have hso : ∀ p ∈ permutations, Sound t (.new t) p := by
    intro p hp
    obtain ⟨x,-,rfl⟩ := mem_map.mp hp
    have htw := hpr.two_le
    have hlt := Nat.mod_lt (hash (authority x.item) 1) (by omega : 0 < t - 1)
    refine ⟨Nat.succ_pos _,?_,Nat.zero_le _,fun j hj => absurd hj (Nat.not_lt_zero j)⟩
    dsimp only [Permutation.new]
    omega
  have hh : ∃ p ∈ permutations, Heavy p := by
    obtain ⟨x,hx,hxm⟩ := mem_map.mp hme
    exact ⟨_,mem_map.mpr ⟨x,hx,rfl⟩,hxm ▸ hn x hx,hxm,rfl⟩
  have hg := good_new t it.length
  obtain ⟨ps,b,heq,ha,hs,hf,hr⟩ := tableLoop_spec hpr hg hso hlen.le hh (Nat.le_add_left ..)
  refine ⟨ps,b,heq,ha.good,hf,fun p hp => (hs p hp).next_le,fun hro i hi => ?_⟩
  obtain ⟨ps',b',he,-,-,-,-,ht⟩ := itemLoop_spec hpr hg hso
    (by omega : 0+permutations.length ≤ it.length)
  have hr := hr hpr.ne_zero
  rw [he] at hr
  have hi := ht ?_ (by rw [hlen]; exact (zero_add _).trans_le hro) i (hlen ▸ hi)
  · exact hr.mem (zero_add i ▸ hi)
  · intro p hp
    obtain ⟨x,hx,rfl⟩ := mem_map.mp hp
    exact le_add_of_nonneg_right (hn x hx)

/-- For a prime table size and at least two items, the table is filled with indices of items
without a failed assertion, no permutation is asked for more indices than the table has, and
every item has an entry if there are enough of them. -/
theorem table_complete {tableSize : ℕ} (hpr : tableSize.Prime) (items : List (LbItem E))
    (htw : 2 ≤ items.length) (_hweight : ∀ x ∈ items, 1 ≤ x.weight)
    (ht : (items.map LbItem.weight).sum < 2 ^ 32) (b : MaglevBalancer E)
    (hb : b = .withSize ℚ hash tableSize items) :
    b.asserted = false ∧ b.table.length = tableSize ∧ b.items.Perm items ∧
      (∀ i ∈ b.table, i < b.items.length) ∧
      (∀ max, (normalizedWeights b.items (items.map LbItem.weight).sum : List ℚ).max? = some max →
        ∀ p ∈ (fillTable tableSize hash b.items (items.map LbItem.weight).sum max).1,
          p.next ≤ tableSize) ∧ (items.length ≤ tableSize → ∀ i < b.items.length, i ∈ b.table) := by
  have hc := collectChecked_of_fits 0 items (by omega)
  set sorted := sortBy (fun x : LbItem E =>
    authoritySortingKey (authority x.item)) items with hso
  have hpe : sorted.Perm items := sortBy_perm _ items
  have hlen := hpe.length_eq
  obtain ⟨max,hma⟩ : ∃ max,
      (normalizedWeights sorted (items.map LbItem.weight).sum : List ℚ).max? = some max := by
    rw [← Option.isSome_iff_exists,isSome_max?_iff,normalizedWeights,Ne,map_eq_nil_iff,
      ← length_eq_zero_iff]
    omega
  obtain ⟨ps,builder,heq,hg,hf,hn,hal⟩ := fillTable_spec hash hpr hma
  have hbu : b = ⟨sorted,builder.build.1,builder.build.2⟩ := by
    rw [hb,withSize,hc]
    dsimp only
    obtain ⟨m,hm⟩ := Nat.exists_eq_add_of_le' (hlen ▸ htw)
    rw [zero_add,← hso,hma,hm]
    simp [heq]
  obtain ⟨ha,hl,hv,hme⟩ := hg.build hf
  rw [hbu]
  refine ⟨ha,hl,hpe,hv,fun max' hm' p hp => ?_,fun hr i hi => hme i (hal (hlen ▸ hr) i hi)⟩
  rw [hma,Option.some.injEq] at hm'
  subst hm'
  rw [heq] at hp
  exact hn p hp

instance : EndpointWithAuthority Str := ⟨id⟩

def twoItems : List (LbItem Str) := [⟨str "B:80",1⟩,⟨str "a:80",3⟩]

theorem two_items_in_five :
    Nat.Prime 5 ∧ ∀ i < 2, i ∈ (MaglevBalancer.withSize ℚ (fun a seed => a.length + seed) 5 twoItems).table := by
  obtain ⟨-,-,hp,-,-,ha⟩ := table_complete (fun a seed => a.length+seed)
    Nat.prime_five twoItems (by decide) (by decide) (by decide) _ rfl
  rw [hp.length_eq] at ha
  exact ⟨Nat.prime_five,ha (by decide)⟩

variable (F : Type) [NatCast F] [Add F] [Sub F] [Div F] [Max F] [LE F] [DecidableLE F]
  {E : Type} [EndpointWithAuthority E] (hash : Str → ℕ → ℕ)

omit [EndpointWithAuthority E] in
lemma nextItem_snd (b : MaglevBalancer E) (hash : Option ℕ) (r : ℕ) :
    (b.nextItem hash r).2 = b := by
  rw [nextItem]
  split_ifs <;> rfl

end ArionGateway.Maglev
