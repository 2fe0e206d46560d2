import ArionGateway.ByteStreams
import ArionGateway.ByteStrings

/-!
# Payloads of a TCP health check

`PayloadMatcher` reads from a connection until its buffer matches the payloads
that are to be received, the connection ends or the buffer is full. How the bytes
arrive makes no difference: they are tried as far as the buffer goes.

A payload is searched from where the one before it was found, not from where
that one ends. So the payloads have to begin in their order, and they may overlap.
-/
namespace ArionGateway.PayloadMatching
open ByteStreams ByteStrings List

inductive MatchError where
  | payloadBufferTooBig | endOfStream | unexpectedEof
  deriving DecidableEq

structure PayloadMatcher (σ : Type) where
  buffer : Str
  stream : σ
  payloads : List Str
  payloadSize : ℕ

def windows (n : ℕ) (buffer : Str) : List Str :=
  (List.range (buffer.length+1 - n)).map fun i => (buffer.drop i).take n

/-- The loop of `matches` from an index on. -/
def matchesFrom (buffer : Str) : ℕ → List Str → Bool
  | _, [] => true
  | index, payload::payloads =>
    if payload = [] then matchesFrom buffer index payloads
    else if buffer.length < index then false
    else
      match (windows payload.length (buffer.drop index)).findIdx? (· == payload) with
      | none => false
      | some payloadIndex => matchesFrom buffer (index+payloadIndex) payloads

namespace PayloadMatcher
variable {σ : Type} (MAX_PAYLOAD_BUFFER_SIZE : ℕ) (r : Reader UInt8 σ)

def new (stream : σ) (payloads : List Str) : PayloadMatcher σ :=
  ⟨[],stream,payloads,(payloads.map List.length).sum⟩

def recvAtMost (self : PayloadMatcher σ) (bytesToRead : ℕ) : Except MatchError (PayloadMatcher σ) :=
  let prevSize := self.buffer.length
  if MAX_PAYLOAD_BUFFER_SIZE ≤ prevSize ∨ bytesToRead = 0 then .error .payloadBufferTooBig
  else
    let toRead := min bytesToRead (MAX_PAYLOAD_BUFFER_SIZE - prevSize)
    match r.read self.stream toRead with
    | ([], _) => .error .endOfStream
    | (received, stream) => .ok { self with buffer := self.buffer++received, stream }

def recvExact (self : PayloadMatcher σ) (bytesToRead : ℕ) : Except MatchError (PayloadMatcher σ) :=
  if bytesToRead = 0 then .ok self
  else
    match r.readExact self.stream bytesToRead with
    | some (received, stream) => .ok { self with buffer := self.buffer++received, stream }
    | none => .error .unexpectedEof

/-- The loop of `try_match`; `none` when the fuel is used up. -/
def matchLoop : ℕ → PayloadMatcher σ → ℕ → Option (Except MatchError Unit)
  | 0, _, _ => none
  | fuel+1, self, moreBytes =>
    if matchesFrom self.buffer 0 self.payloads then some (.ok ())
    else
      match self.recvAtMost MAX_PAYLOAD_BUFFER_SIZE r moreBytes with
      | .error e => some (.error e)
      | .ok self => matchLoop fuel self (min (moreBytes*2) (2^64 - 1))

def tryMatch (fuel : ℕ) (self : PayloadMatcher σ) : Option (Except MatchError Unit) :=
  if self.payloadSize = 0 then some (.ok ())
  else
    match self.recvExact r self.payloadSize with
    | .error e => some (.error e)
    | .ok self => self.matchLoop MAX_PAYLOAD_BUFFER_SIZE r fuel 1024

end PayloadMatcher

variable {ps : List Str} {s t : Str}

/-- The payloads begin in their order, each where the one before it begins or later. -/
inductive InOrder : List Str → Str → Prop where
  | nil (s : Str) : InOrder [] s
  | cons (b : Str) {p t : Str} {ps : List Str} (h : p <+: t) (hrest : InOrder ps t) :
    InOrder (p::ps) (b++t)

/-- The payloads stand one after the other, with anything before, between and after them. -/
inductive Blocks : List Str → Str → Prop where
  | nil (s : Str) : Blocks [] s
  | cons (b p : Str) {rest : Str} {ps : List Str} (hrest : Blocks ps rest) :
    Blocks (p::ps) (b++(p++rest))

lemma InOrder.prepend (h : InOrder ps t) (c : Str) : InOrder ps (c++t) := by
  cases h with
  | nil => exact .nil _
  | cons b hp hr =>
    rw [← append_assoc]
    exact .cons _ hp hr

lemma InOrder.append (h : InOrder ps s) (c : Str) : InOrder ps (s++c) := by
  induction h with
  | nil => exact .nil _
  | cons b hp _ ih =>
    rw [append_assoc]
    exact .cons b (hp.trans (prefix_append ..)) ih

lemma Blocks.inOrder (h : Blocks ps s) : InOrder ps s ∧ ps.flatten.Sublist s := by
  induction h with
  | nil => exact ⟨.nil _,nil_sublist _⟩
  | cons b p _ ih =>
    refine ⟨.cons b (prefix_append ..) (ih.1.prepend p),?_⟩
    exact (ih.2.append_left p).trans (sublist_append_right ..)

lemma findIdx?_windows {p : Str} {i : ℕ} (hp : p ≠ []) :
    (windows p.length s).findIdx? (· == p) = some i ↔
      p <+: s.drop i ∧ ∀ j < i, ¬ p <+: s.drop j := by
  have hw : ∀ j, (windows p.length s)[j]? = some p ↔ p <+: s.drop j := by
    intro j
    have hpos := length_pos_iff.mpr hp
    rw [windows,getElem?_map,prefix_iff_eq_take,eq_comm (a := p)]
    by_cases hj : j < s.length+1 - p.length
    · rw [getElem?_range hj,Option.map_some,Option.some.injEq]
    · rw [getElem?_eq_none (by simpa using hj)]
      refine iff_of_false nofun fun heq => ?_
      have hlen := congrArg length heq
      rw [length_take,length_drop] at hlen
      omega
  rw [findIdx?_eq_some_iff_getElem]
  constructor
  · rintro ⟨h,hi,hj⟩
    refine ⟨(hw i).mp (List.getElem?_eq_some_iff.mpr ⟨h,eq_of_beq hi⟩),fun j hji hpj => ?_⟩
    obtain ⟨hj',heq⟩ := List.getElem?_eq_some_iff.mp ((hw j).mpr hpj)
    exact hj j hji (beq_iff_eq.mpr heq)
  · rintro ⟨hi,hj⟩
    obtain ⟨hi',heq⟩ := List.getElem?_eq_some_iff.mp ((hw i).mpr hi)
    refine ⟨hi',beq_iff_eq.mpr heq,fun j hji hb => hj j hji ?_⟩
    exact (hw j).mp (List.getElem?_eq_some_iff.mpr ⟨hji.trans hi',eq_of_beq hb⟩)

def nonEmpty (payloads : List Str) : List Str := payloads.filter (· ≠ [])

/-- Taking the first occurrence of each payload misses nothing. -/
lemma matchesFrom_iff (bu : Str) {ind : ℕ} (pa : List Str) (hin : ind ≤ bu.length) :
    matchesFrom bu ind pa = true ↔ InOrder (nonEmpty pa) (bu.drop ind) := by
  induction pa generalizing ind with
  | nil => exact iff_of_true rfl (.nil _)
  | cons p pa ih =>
    rw [matchesFrom,nonEmpty,filter_cons]
    by_cases hp : p = []
    · rw [if_pos hp,if_neg (by simp [hp])]
      exact ih hin
    rw [if_neg hp,if_neg (not_lt.mpr hin),if_pos (by simp [hp])]
    cases hfi : (windows p.length (bu.drop ind)).findIdx? (· == p) with
    | none =>
      refine iff_of_false nofun fun h => ?_
      have hex : ∃ i, p <+: (bu.drop ind).drop i := by
        generalize bu.drop ind = s at h
        cases h with
        | cons b hp _ => exact ⟨b.length,by rwa [drop_left]⟩
      have hf := (findIdx?_windows hp).mpr ⟨Nat.find_spec hex,fun j hj => Nat.find_min hex hj⟩
      rw [hfi] at hf
      cases hf
    | some i =>
      obtain ⟨hi,hm⟩ := (findIdx?_windows hp).mp hfi
      have hle : ind+i ≤ bu.length := by
        have hlen := hi.length_le
        have hpos := length_pos_iff.mpr hp
        rw [length_drop,length_drop] at hlen
        omega
      have hih := ih hle
      rw [← drop_drop] at hih
      rw [hih]
      constructor
      · intro h
        rw [← take_append_drop i (bu.drop ind)]
        exact .cons _ hi h
      · intro h
        generalize bu.drop ind = s at h hm
        cases h with
        | cons b hp hr =>
          have hb : i ≤ b.length := by
            by_contra hlt
            exact hm b.length (by omega) (by rwa [drop_left])
          rw [drop_append_of_le_length hb]
          exact hr.prepend _

open PayloadMatcher

variable {σ : Type} {r : Reader UInt8 σ} {m : PayloadMatcher σ} {all : Str} {max : ℕ}

noncomputable def ending (max : ℕ) (payloads : List Str) (all : Str) : Except MatchError Unit :=
  open Classical in
  if InOrder (nonEmpty payloads) (all.take max) then .ok ()
  else .error (if all.length < max then .endOfStream else .payloadBufferTooBig)

lemma matchLoop_eq {f mb : ℕ} (hal : m.buffer++r.bytes m.stream = all)
    (hb : m.buffer.length ≤ max) (hmo : 0 < mb) (hf : max - m.buffer.length < f) :
    m.matchLoop max r f mb = some (ending max m.payloads all) := by
  induction f generalizing m mb with
  | zero => exact absurd hf (Nat.not_lt_zero _)
  | succ f ih =>
    have ht : all.take max = m.buffer++(r.bytes m.stream).take (max - m.buffer.length) := by
      rw [← hal,take_append,take_of_length_le hb]
    have hm := matchesFrom_iff m.buffer m.payloads (Nat.zero_le _)
    rw [matchLoop]
    split_ifs with h
    · rw [ending,if_pos (ht ▸ (hm.mp h).append _)]
    have hno : (m.buffer = all.take max) → ¬ InOrder (nonEmpty m.payloads) (all.take max) :=
      fun heq hin => h (hm.mpr (heq ▸ hin))
    have hl := congrArg length hal
    rw [length_append] at hl
    rw [recvAtMost]
    dsimp only
    split_ifs with hfu
    · have hma : max - m.buffer.length = 0 := by omega
      rw [hma,take_zero,append_nil] at ht
      rw [ending,if_neg (hno ht.symm),if_neg (by omega)]
    · have hpos : 0 < min mb (max - m.buffer.length) := by omega
      have ha := r.read_append m.stream (min mb (max - m.buffer.length))
      have hle := r.length_read_le m.stream (min mb (max - m.buffer.length))
      have hne := r.read_ne_nil m.stream _ hpos
      cases hr : r.read m.stream (min mb (max - m.buffer.length)) with
      | mk received stream =>
        rw [hr] at ha hle hne
        cases received with
        | nil =>
          have hn : r.bytes m.stream = [] := by
            by_contra hso
            exact hne hso rfl
          rw [hn,take_nil,append_nil] at ht
          rw [hn] at hl
          rw [ending,if_neg (hno ht.symm),if_pos (by simp at hl; omega)]
        | cons c cs =>
          dsimp only at hle
          refine ih ?_ ?_ (by omega) ?_
          · rw [← hal,← ha,append_assoc]
          · rw [length_append]
            omega
          · rw [length_append,length_cons]
            omega

lemma tryMatch_eq (pa : List Str) (s : σ) {f : ℕ}
    (hsi : (pa.map List.length).sum ≤ max) (hf : max < f) :
    (new s pa).tryMatch max r f = some
      (if (r.bytes s).length < (pa.map List.length).sum then .error .unexpectedEof
      else ending max pa (r.bytes s)) := by
  by_cases hz : (pa.map length).sum = 0
  · have hn : nonEmpty pa = [] := by
      simpa [nonEmpty,← length_flatten] using hz
    rw [if_neg (by omega),ending,if_pos (hn ▸ .nil _)]
    exact if_pos hz
  · refine (if_neg hz).trans ?_
    dsimp only [recvExact,new]
    split_ifs with hsh
    · rw [Reader.readExact_of_lt hsh]
    · obtain ⟨t,hr,hb⟩ := Reader.readExact_of_le (Nat.le_of_not_lt hsh)
      rw [hr]
      refine matchLoop_eq ?_ ?_ (by decide) ?_
      · simp [hb]
      · simp [hsi]
      · dsimp only
        omega

/-- `try_match` returns, with an outcome that does not depend on how the bytes arrive.
It succeeds exactly if the payloads stand one after the other in the first bytes, if and
only if payloads that begin in their order in a connection of their size do so. -/
theorem tryMatch_iff_blocks (r : Reader UInt8 σ) (s : σ) (payloads : List Str) {fuel : ℕ}
    (hsi : (payloads.map List.length).sum ≤ max) (hf : max < fuel) :
    (∃ outcome, (PayloadMatcher.new s payloads).tryMatch max r fuel = some outcome ∧
      ∀ (τ : Type) (r' : Reader UInt8 τ) (s' : τ), r'.bytes s' = r.bytes s →
        (PayloadMatcher.new s' payloads).tryMatch max r' fuel = some outcome) ∧
    (((PayloadMatcher.new s payloads).tryMatch max r fuel = some (.ok ()) ↔
        Blocks (nonEmpty payloads) ((r.bytes s).take max)) ↔
      ((payloads.map List.length).sum ≤ (r.bytes s).length →
        InOrder (nonEmpty payloads) ((r.bytes s).take max) →
          Blocks (nonEmpty payloads) ((r.bytes s).take max))) := by
  refine ⟨⟨_,tryMatch_eq payloads s hsi hf,fun τ r' s' hb => ?_⟩,?_⟩
  · rw [tryMatch_eq payloads s' hsi hf,hb]
  · have hok : (new s payloads).tryMatch max r fuel = some (.ok ()) ↔
        (payloads.map length).sum ≤ (r.bytes s).length ∧
          InOrder (nonEmpty payloads) ((r.bytes s).take max) := by
      rw [tryMatch_eq payloads s hsi hf,ending]
      split_ifs <;> simp_all
    rw [hok]
    refine ⟨fun h hle hin => h.mp ⟨hle,hin⟩,fun h => ⟨fun hin => h hin.1 hin.2,fun h => ?_⟩⟩
    obtain ⟨hin,hsu⟩ := h.inOrder
    rw [nonEmpty,flatten_filter_ne_nil] at hsu
    rw [← length_flatten]
    exact ⟨(hsu.trans (take_sublist ..)).length_le,hin⟩

/-- The second payload is found inside the first one. -/
theorem overlapping_match :
    (PayloadMatcher.new [str "abx"] [str "ab", str "b"]).tryMatch 16 chunkReader 17 =
        some (.ok ()) ∧ ¬ Blocks (nonEmpty [str "ab", str "b"]) ((str "abx").take 16) := by
  refine ⟨by decide +kernel,fun h => ?_⟩
  have hsu := h.inOrder.2
  revert hsu
  decide +kernel

/-- Payloads that cannot overlap. -/
theorem separate_match :
    (PayloadMatcher.new [str "xa", str "yb"] [str "a", [], str "b"]).tryMatch 16 chunkReader 17 =
        some (.ok ()) ↔ Blocks (nonEmpty [str "a", [], str "b"]) ((str "xayb").take 16) := by
  refine (tryMatch_iff_blocks chunkReader [str "xa",str "yb"] [str "a",[],str "b"]
    (by decide +kernel) (by decide)).2.mpr fun _ _ => ?_
  exact .cons (str "x") (str "a") (.cons (str "y") (str "b") (.nil []))

end ArionGateway.PayloadMatching
