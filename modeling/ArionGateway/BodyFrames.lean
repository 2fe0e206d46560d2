import Mathlib.Data.List.Basic

/-!
# Frames of bodies

A body comes as a list of frames, of data or of trailers; an error may stand in the
place of a frame. A reader of the body sees the tokens of the list, that is bytes,
trailers and errors. How the bytes are cut into frames does not matter.
-/
namespace ArionGateway.BodyFrames
open List

inductive Frame (β τ : Type) where
  | data (bytes : List β)
  | trailers (map : τ)
  deriving DecidableEq

inductive Token (β τ ε : Type) where
  | byte (b : β)
  | trailers (map : τ)
  | error (e : ε)
  deriving DecidableEq

variable {β τ ε : Type}

def frameTokens : Frame β τ → List (Token β τ ε)
  | .data bytes => bytes.map .byte
  | .trailers map => [.trailers map]

def itemTokens : Except ε (Frame β τ) → List (Token β τ ε)
  | .ok frame => frameTokens frame
  | .error e => [.error e]

variable (items : List (Except ε (Frame β τ)))

def tokens : List (Token β τ ε) := items.flatMap itemTokens

def okTokens (frames : List (Frame β τ)) : List (Token β τ ε) := frames.flatMap frameTokens

@[simp] lemma tokens_nil : tokens ([] : List (Except ε (Frame β τ))) = [] := rfl

@[simp] lemma tokens_append (xs ys : List (Except ε (Frame β τ))) :
    tokens (xs++ys) = tokens xs++tokens ys := flatMap_append

@[simp] lemma tokens_cons (x : Except ε (Frame β τ)) (xs : List (Except ε (Frame β τ))) :
    tokens (x::xs) = itemTokens x++tokens xs := flatMap_cons

@[simp] lemma okTokens_nil : (okTokens [] : List (Token β τ ε)) = [] := rfl

@[simp] lemma okTokens_append (xs ys : List (Frame β τ)) :
    (okTokens (xs++ys) : List (Token β τ ε)) = okTokens xs++okTokens ys := flatMap_append

@[simp] lemma okTokens_cons (x : Frame β τ) (xs : List (Frame β τ)) :
    (okTokens (x::xs) : List (Token β τ ε)) = frameTokens x++okTokens xs := flatMap_cons

@[simp] lemma tokens_map_ok (frames : List (Frame β τ)) :
    tokens (frames.map (Except.ok : _ → Except ε (Frame β τ))) = okTokens frames :=
  flatMap_map ..

@[simp] lemma itemTokens_ok (frame : Frame β τ) :
    itemTokens (Except.ok frame : Except ε (Frame β τ)) = frameTokens frame := rfl

@[simp] lemma frameTokens_trailers (map : τ) :
    (frameTokens (.trailers map) : List (Token β τ ε)) = [.trailers map] := rfl

@[simp] lemma frameTokens_data_nil : (frameTokens (.data []) : List (Token β τ ε)) = [] := rfl

lemma frameTokens_data_append (xs ys : List β) :
    (frameTokens (.data (xs++ys)) : List (Token β τ ε)) =
      frameTokens (.data xs)++frameTokens (.data ys) := map_append

def Proper : Prop :=
  ∃ (chunks : List (List β)) (map : Option τ),
    items = chunks.map (fun bytes => .ok (.data bytes)) ++
      map.toList.map fun map => .ok (.trailers map)

def ProperTokens (ts : List (Token β τ ε)) : Prop :=
  ∃ (bytes : List β) (map : Option τ), ts = bytes.map .byte++map.toList.map .trailers

lemma tokens_chunks (c : List (List β)) :
    tokens (c.map fun b => (.ok (.data b) : Except ε (Frame β τ))) = c.flatten.map .byte := by
  induction c with
  | nil => rfl
  | cons b c ih =>
    rw [map_cons,tokens_cons,ih,flatten_cons,map_append]
    rfl

lemma Proper.tokens {items : List (Except ε (Frame β τ))} (h : Proper items) :
    ProperTokens (tokens items) := by
  obtain ⟨c,map,rfl⟩ := h
  refine ⟨c.flatten,map,?_⟩
  rw [tokens_append,tokens_chunks]
  cases map <;> rfl

lemma ProperTokens.after_trailers {ts xs ys : List (Token β τ ε)} {map : τ} (h : ProperTokens ts)
    (heq : ts = xs++.trailers map::ys) : ys = [] := by
  obtain ⟨bt,last,rfl⟩ := h
  induction bt generalizing xs with
  | nil =>
    cases last with
    | none => cases xs <;> cases heq
    | some last =>
      cases xs with
      | nil => exact (cons.inj heq).2.symm
      | cons x xs =>
        have ht : [] = xs++.trailers map::ys := (cons.inj heq).2
        cases xs <;> cases ht
  | cons b bt ih =>
    cases xs with
    | nil => cases (cons.inj heq).1
    | cons x xs => exact ih (cons.inj heq).2

end ArionGateway.BodyFrames
