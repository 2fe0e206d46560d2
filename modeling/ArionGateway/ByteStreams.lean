import Mathlib.Data.List.Infix

/-!
# Streams of bytes

A reader delivers the bytes of a stream in pieces: each read asks for a number of
bytes and gets at least one of them, unless the stream has ended. How many it
gets is up to the stream. `readExact` repeats reads until it has as many bytes as
it wants, and fails if the stream ends before.

What a reader has still to deliver does not depend on the sizes of the reads.
-/
namespace ArionGateway.ByteStreams
open List

/-- Streams with states in `σ` and the bytes they have still to deliver. -/
structure Reader (β σ : Type) where
  read : σ → ℕ → List β × σ
  bytes : σ → List β
  read_append : ∀ s n, (read s n).1++bytes (read s n).2 = bytes s
  length_read_le : ∀ s n, (read s n).1.length ≤ n
  read_ne_nil : ∀ s n, 0 < n → bytes s ≠ [] → (read s n).1 ≠ []

namespace Reader
variable {β σ : Type} (r : Reader β σ) {s : σ} {n : ℕ} {bs : List β}

/-- Reads until `n` bytes are there. Each read brings at least one of them, so
`n` is enough fuel. -/
def fill : ℕ → σ → ℕ → Option (List β × σ)
  | _, s, 0 => some ([], s)
  | 0, _, _+1 => none
  | fuel+1, s, n+1 =>
    match r.read s (n+1) with
    | ([], _) => none
    | (b::bs, t) =>
      (fill fuel t (n+1 - (b::bs).length)).map fun (rest, u) => (b::bs++rest, u)

/-- `read_exact` with a buffer of `n` bytes; `none` at an early end of the stream. -/
def readExact (s : σ) (n : ℕ) : Option (List β × σ) := r.fill n s n

def readAll : σ → List ℕ → List β
  | _, [] => []
  | s, n::sizes => (r.read s n).1++readAll (r.read s n).2 sizes

/-- Whatever the sizes of the reads are, they bring the bytes `bs` in order and
nothing else, and enough reads bring all of them. -/
def Yields (s : σ) (bs : List β) : Prop :=
  ∀ sizes : List ℕ, (∀ n ∈ sizes, 0 < n) →
    r.readAll s sizes <+: bs ∧ (bs.length ≤ sizes.length → r.readAll s sizes = bs)

variable {r}

lemma fill_of_le {f : ℕ} (hf : n ≤ f) (hn : n ≤ (r.bytes s).length) :
    ∃ t, r.fill f s n = some ((r.bytes s).take n, t) ∧ r.bytes t = (r.bytes s).drop n := by
  fun_induction r.fill f s n with
  | case1 _ s => exact ⟨s,rfl,rfl⟩
  | case2 => omega
  | case3 f s n t hr =>
    have hpos : r.bytes s ≠ [] := length_pos_iff.mp (by omega)
    exact absurd (congrArg Prod.fst hr) (r.read_ne_nil s (n+1) (Nat.succ_pos n) hpos)
  | case4 f s n b bs t hr ih =>
    have hle := r.length_read_le s (n+1)
    have ha := r.read_append s (n+1)
    rw [hr] at hle ha
    dsimp only at hle ha
    have hp : (b::bs).length = bs.length+1 := rfl
    have hre : n+1 - (b::bs).length ≤ (r.bytes t).length := by
      rw [← ha,length_append] at hn
      omega
    obtain ⟨u,hfi,hb⟩ := ih (by omega) hre
    refine ⟨u,?_,?_⟩
    · rw [hfi,← ha,take_append,take_of_length_le hle]
      rfl
    · rw [hb,← ha,drop_append,drop_of_length_le hle]
      rfl

lemma fill_of_lt {f : ℕ} (hn : (r.bytes s).length < n) : r.fill f s n = none := by
  fun_induction r.fill f s n with
  | case1 => exact absurd hn (Nat.not_lt_zero _)
  | case2 | case3 => rfl
  | case4 f s n b bs t hr ih =>
    have ha := r.read_append s (n+1)
    rw [hr] at ha
    dsimp only at ha
    rw [← ha,length_append] at hn
    rw [ih (by omega)]
    rfl

lemma fill_invariant {P : σ → Prop} (hr : ∀ s n, P s → P (r.read s n).2) {f : ℕ} {t : σ}
    (h : r.fill f s n = some (bs, t)) (hs : P s) : P t := by
  fun_induction r.fill f s n generalizing bs with
  | case1 =>
    cases h
    exact hs
  | case2 | case3 => cases h
  | case4 f s n b bs u hp ih =>
    have hn := hr s (n+1) hs
    rw [hp] at hn
    obtain ⟨⟨rest,v⟩,hf,heq⟩ := Option.map_eq_some_iff.mp h
    cases heq
    exact ih hf hn

lemma readExact_of_le (hn : n ≤ (r.bytes s).length) :
    ∃ t, r.readExact s n = some ((r.bytes s).take n, t) ∧ r.bytes t = (r.bytes s).drop n :=
  fill_of_le le_rfl hn

lemma readExact_of_lt (hn : (r.bytes s).length < n) : r.readExact s n = none := fill_of_lt hn

lemma readAll_prefix_bytes (s : σ) (si : List ℕ) : r.readAll s si <+: r.bytes s := by
  induction si generalizing s with
  | nil => exact nil_prefix
  | cons n si ih =>
    rw [← r.read_append s n]
    exact (prefix_append_right_inj _).mpr (ih _)

lemma readAll_of_length_le {si : List ℕ} (hpos : ∀ n ∈ si, 0 < n)
    (hlen : (r.bytes s).length ≤ si.length) : r.readAll s si = r.bytes s := by
  induction si generalizing s with
  | nil =>
    rw [length_eq_zero_iff.mp (Nat.le_zero.mp hlen)]
    rfl
  | cons n si ih =>
    have hr : (r.bytes (r.read s n).2).length ≤ si.length := by
      have ha := congrArg length (r.read_append s n)
      rw [length_append] at ha
      by_cases hn : r.bytes s = []
      · rw [hn] at ha
        simp only [length_nil] at ha
        omega
      · have hp := length_pos_iff.mpr (r.read_ne_nil s n (hpos n mem_cons_self) hn)
        rw [length_cons] at hlen
        omega
    rw [readAll,ih (fun m hm => hpos m (mem_cons_of_mem n hm)) hr,r.read_append]

lemma yields_iff : r.Yields s bs ↔ r.bytes s = bs := by
  constructor
  · intro h
    let sizes := replicate (max bs.length (r.bytes s).length) 1
    have hpos : ∀ n ∈ sizes, 0 < n := fun n hn => by
      rw [eq_of_mem_replicate hn]
      exact Nat.one_pos
    have hlen : sizes.length = max bs.length (r.bytes s).length := length_replicate
    rw [← readAll_of_length_le hpos (hlen ▸ le_max_right ..)]
    exact (h sizes hpos).2 (hlen ▸ le_max_left ..)
  · rintro rfl sizes hpos
    exact ⟨readAll_prefix_bytes s sizes,readAll_of_length_le hpos⟩

end Reader

variable {β : Type}

/-- A read of a stream whose bytes arrive in chunks: what is left of the first
chunk, as far as it is asked for. -/
def readChunks : List (List β) → ℕ → List β × List (List β)
  | [], _ => ([], [])
  | []::chunks, n => readChunks chunks n
  | (b::bs)::chunks, n => ((b::bs).take n, (b::bs).drop n::chunks)

variable (c : List (List β)) (n : ℕ)

lemma readChunks_append : (readChunks c n).1++(readChunks c n).2.flatten = c.flatten := by
  fun_induction readChunks c n with
  | case1 => rfl
  | case2 _ _ ih => exact ih
  | case3 b bs c n =>
    rw [flatten_cons,flatten_cons,← append_assoc,take_append_drop]

lemma length_readChunks_le : (readChunks c n).1.length ≤ n := by
  fun_induction readChunks c n with
  | case1 => exact Nat.zero_le _
  | case2 _ _ ih => exact ih
  | case3 b bs c n => exact length_take_le ..

lemma readChunks_ne_nil (hn : 0 < n) (hne : c.flatten ≠ []) : (readChunks c n).1 ≠ [] := by
  fun_induction readChunks c n with
  | case1 => exact absurd rfl hne
  | case2 _ _ ih => exact ih hn hne
  | case3 b bs c n =>
    obtain ⟨m,rfl⟩ := Nat.exists_eq_succ_of_ne_zero (Nat.pos_iff_ne_zero.mp hn)
    exact cons_ne_nil _ _

def chunkReader : Reader β (List (List β)) where
  read := readChunks
  bytes := List.flatten
  read_append := readChunks_append
  length_read_le := length_readChunks_le
  read_ne_nil := readChunks_ne_nil

end ArionGateway.ByteStreams
