import ArionGateway.ByteStrings

/-!
# Formatted messages

A message is written in vectored writes, each of which may take a part of what is left. Slices
that are taken whole are removed, together with the empty ones after them. Empty slices before the
first write stay, and if there is nothing else the write of nothing counts as a failure.
-/
namespace ArionGateway.FormattedMessages
open ByteStrings List

inductive StringType
  | smol (s : Str)
  | bytes (v : Str)
  | array (v : Str)
  | none

structure FormattedMessage where
  omitEmptyValues : Bool
  format : List StringType

def FormattedMessage.slices (self : FormattedMessage) : List Str :=
  self.format.filterMap fun
    | .smol s => some s
    | .bytes v => some v
    | .array v => some v
    | .none => if self.omitEmptyValues then Option.none else some (str "-")

inductive IoError
  | writeZero
  | other

/-- `IoSlice::advance_slices`. -/
def advanceSlices : List Str → ℕ → List Str
  | [], _ => []
  | buf::bufs, left =>
    if buf.length ≤ left then advanceSlices bufs (left - buf.length) else buf.drop left::bufs

lemma flatten_advanceSlices (bufs : List Str) (n : ℕ) :
    (advanceSlices bufs n).flatten = bufs.flatten.drop n := by
  induction bufs generalizing n with
  | nil => simp [advanceSlices]
  | cons buf bufs ih =>
    rw [advanceSlices,flatten_cons,drop_append]
    split_ifs with h
    · rw [ih,drop_eq_nil_of_le h,nil_append]
    · rw [flatten_cons,Nat.sub_eq_zero_of_le (by omega),drop_zero]

/-- Something is left to be written, if there is a slice at all. -/
def Live (slices : List Str) : Prop := slices = [] ∨ slices.flatten ≠ []

lemma live_advanceSlices (bufs : List Str) (n : ℕ) : Live (advanceSlices bufs n) := by
  induction bufs generalizing n with
  | nil => exact .inl rfl
  | cons buf bufs ih =>
    rw [advanceSlices]
    split_ifs with h
    · exact ih _
    · exact .inr (by simpa using fun hn => absurd hn h)

/-- A writer with state `W` that takes at least one byte of what is not empty, and at most
what it is given. -/
structure Writer (W : Type) where
  writeVectored : W → List Str → Except IoError ℕ × W
  le : ∀ w slices n, (writeVectored w slices).1 = .ok n → n ≤ slices.flatten.length
  pos : ∀ w slices, slices.flatten ≠ [] → ∃ n, 0 < n ∧ (writeVectored w slices).1 = .ok n

open FormattedMessage

variable {W : Type} (writer : Writer W)

/-- The outcome of the loop and what the writer has received. -/
def writeLoop (w : W) (remaining : List Str) (received : Str) : Except IoError Unit × Str :=
  if remaining = [] then (.ok (), received)
  else
    match _h : (writer.writeVectored w remaining).1 with
    | .error e => (.error e, received)
    | .ok n =>
      if n = 0 then (.error .writeZero, received)
      else
        writeLoop (writer.writeVectored w remaining).2 (advanceSlices remaining n)
          (received++remaining.flatten.take n)
termination_by remaining.flatten.length
decreasing_by
  have := writer.le w remaining n _h
  rw [flatten_advanceSlices,List.length_drop]
  omega

def FormattedMessage.writeTo (self : FormattedMessage) (w : W) : Except IoError ℕ × Str :=
  let total := (self.slices.map List.length).sum
  let (result, received) := writeLoop writer w self.slices []
  (result.map fun _ => total, received)

lemma writeLoop_of_live {slices : List Str} (h : Live slices) (w : W) (received : Str) :
    writeLoop writer w slices received = (.ok (), received++slices.flatten) := by
  fun_induction writeLoop writer w slices received with
  | case1 w received => simp
  | case2 w slices received hne e he =>
    obtain ⟨n,-,hn⟩ := writer.pos w slices (h.resolve_left hne)
    cases he.symm.trans hn
  | case3 w slices received hne he =>
    obtain ⟨n,hp,hn⟩ := writer.pos w slices (h.resolve_left hne)
    cases he.symm.trans hn
    omega
  | case4 w slices received hne n he hn ih =>
    rw [ih (live_advanceSlices slices n),flatten_advanceSlices,append_assoc,take_append_drop]

/-- The message is written, however the writer takes it, exactly if it has no slice or one that
is not empty. -/
theorem written_iff (message : FormattedMessage) (w : W) :
    message.writeTo writer w = (.ok message.slices.flatten.length, message.slices.flatten) ↔
      (message.slices = [] ∨ message.slices.flatten ≠ []) := by
  constructor
  · intro h
    by_contra hn
    obtain ⟨hne,hf⟩ := not_or.mp hn
    -- the first write is one of nothing
    have hw : ∃ e, writeLoop writer w message.slices [] = (.error e, []) := by
      rw [writeLoop,if_neg hne]
      split
      next e he => exact ⟨e,rfl⟩
      next n he =>
        have hle := writer.le w _ n he
        rw [not_not.mp hf] at hle
        exact ⟨.writeZero,if_pos (Nat.le_zero.mp hle)⟩
    obtain ⟨e,hw⟩ := hw
    rw [writeTo,hw] at h
    cases congrArg Prod.fst h
  · intro h
    rw [writeTo,writeLoop_of_live writer h,length_flatten]
    rfl

def willing : Writer Unit where
  writeVectored _ slices := (.ok slices.flatten.length, ())
  le _ _ _ h := by cases h; rfl
  pos _ _ h := ⟨_,List.length_pos_iff.mpr h,rfl⟩

theorem empty_piece_fails :
    FormattedMessage.writeTo willing ⟨false,[.smol []]⟩ () = (.error .writeZero, []) := by
  rw [writeTo,writeLoop]
  rfl

end ArionGateway.FormattedMessages
