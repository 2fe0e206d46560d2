import Mathlib.Data.List.Basic

/-!
# Edits under a rule

A loop goes through a list of requested edits and asks a rule about each of them.
An edit that the rule refuses is left out, or ends the loop if the loop is strict.
The edits are made in place, so what comes before the end stays.

The second part is about the values that one key of a map has. Edits remove them
all, add to them or replace them. No list of such edits leaves every list of values
as it was, except the empty one.
-/
namespace ArionGateway.GuardedEdits
open List

section
variable {X S : Type*}

def guardedLoop (refused : X → Bool) (strict : Bool) (edit : S → X → S) : List X → S → S × Option X
  | [], s => (s, none)
  | x::xs, s =>
    if refused x then if strict then (s, some x) else guardedLoop refused strict edit xs s
    else guardedLoop refused strict edit xs (edit s x)

/-- The elements that the loop lets through. -/
def executed (refused : X → Bool) (strict : Bool) : List X → List X
  | [] => []
  | x::xs =>
    if refused x then if strict then [] else executed refused strict xs
    else x::executed refused strict xs

variable {r : X → Bool} {st : Bool} {ed : S → X → S} (xs : List X)

lemma guardedLoop_fst (s : S) : (guardedLoop r st ed xs s).1 = (executed r st xs).foldl ed s := by
  induction xs generalizing s with
  | nil => rfl
  | cons x xs ih =>
    rw [guardedLoop,executed]
    split_ifs
    · rfl
    · exact ih s
    · exact ih (ed s x)

lemma guardedLoop_snd (s : S) : (guardedLoop r st ed xs s).2 = if st then xs.find? r else none := by
  induction xs generalizing s with
  | nil => simp [guardedLoop]
  | cons x xs ih =>
    rw [guardedLoop,find?_cons]
    cases hr : r x with
    | true =>
      cases hst : st with
      | true => simp
      | false =>
        have := ih s
        rw [hst] at this
        simpa using this
    | false => simpa using ih (ed s x)

lemma guardedLoop_append (ys : List X) (s : S) : guardedLoop r st ed (xs++ys) s =
      match guardedLoop r st ed xs s with
      | (t, some x) => (t, some x)
      | (t, none) => guardedLoop r st ed ys t := by
  induction xs generalizing s with
  | nil => rfl
  | cons x xs ih =>
    rw [cons_append,guardedLoop,guardedLoop]
    split_ifs
    · rfl
    · exact ih s
    · exact ih (ed s x)

lemma guardedLoop_map {Y : Type*} (f : Y → X) (ys : List Y) (s : S) :
    guardedLoop r st ed (ys.map f) s =
      ((guardedLoop (fun y => r (f y)) st (fun s y => ed s (f y)) ys s).1,
        (guardedLoop (fun y => r (f y)) st (fun s y => ed s (f y)) ys s).2.map f) := by
  induction ys generalizing s with
  | nil => rfl
  | cons y ys ih =>
    rw [map_cons,guardedLoop,guardedLoop]
    split_ifs
    · rfl
    · exact ih s
    · exact ih (ed s (f y))

lemma executed_sublist : (executed r st xs).Sublist xs := by
  induction xs with
  | nil => exact List.Sublist.slnil
  | cons x xs ih =>
    rw [executed]
    split_ifs
    · exact nil_sublist _
    · exact ih.cons x
    · exact ih.cons_cons x

lemma executed_of_lenient : executed r false xs = xs.filter (!r ·) := by
  induction xs with
  | nil => rfl
  | cons x xs ih =>
    rw [executed,filter_cons,ih]
    cases r x <;> rfl

lemma executed_of_not_refused {xs : List X} (h : ∀ x ∈ xs, r x = false) :
    executed r st xs = xs := by
  induction xs with
  | nil => rfl
  | cons x xs ih =>
    rw [executed,if_neg (by simp [h x mem_cons_self]),ih fun y hy => h y (mem_cons_of_mem _ hy)]

end

inductive Edit (V : Type*) where
  | remove
  | append (v : V)
  | addIfAbsent (v : V)
  | overwrite (v : V)
  | overwriteIfExists (v : V)
  deriving DecidableEq

namespace Edit
variable {V : Type*}

def on : Edit V → List V → List V
  | .remove, _ => []
  | .append v, l => l++[v]
  | .addIfAbsent v, l => if l.isEmpty then [v] else l
  | .overwrite v, _ => [v]
  | .overwriteIfExists v, l => if l.isEmpty then l else [v]

def runAll (edits : List (Edit V)) (l : List V) : List V := edits.foldl (fun l e => e.on l) l

def forgets : Edit V → Bool
  | .remove | .overwrite _ | .overwriteIfExists _ => true
  | .append _ | .addIfAbsent _ => false

variable {e : Edit V} {et : List (Edit V)} {l l' : List V}

lemma on_ne_nil (he : e.forgets = false) (l : List V) : e.on l ≠ [] := by
  cases e with
  | append v => exact append_ne_nil_of_right_ne_nil l (cons_ne_nil v [])
  | addIfAbsent v => cases l <;> simp [on]
  | _ => cases he

lemma on_eq_of_forgets (he : e.forgets = true) (hl : l ≠ []) (hl' : l' ≠ []) :
    e.on l = e.on l' := by
  cases e with
  | remove | overwrite v => rfl
  | overwriteIfExists v => simp [on,hl,hl']
  | _ => cases he

lemma runAll_ne_nil (he : ∀ e ∈ et, e.forgets = false) (hl : l ≠ []) : runAll et l ≠ [] := by
  induction et generalizing l with
  | nil => exact hl
  | cons e et ih =>
    exact ih (fun f hf => he f (mem_cons_of_mem _ hf)) (on_ne_nil (he e mem_cons_self) l)

lemma runAll_eq_of_forgets (hfo : ∃ e ∈ et, e.forgets = true) (hl : l ≠ [])
    (hl' : l' ≠ []) : runAll et l = runAll et l' := by
  induction et generalizing l l' with
  | nil =>
    obtain ⟨e,he,-⟩ := hfo
    cases he
  | cons e et ih =>
    change runAll et (e.on l) = runAll et (e.on l')
    cases he : e.forgets with
    | true => rw [on_eq_of_forgets he hl hl']
    | false =>
      refine ih ?_ (on_ne_nil he l) (on_ne_nil he l')
      obtain ⟨f,hf,hfo⟩ := hfo
      rcases mem_cons.mp hf with rfl | hf
      · rw [he] at hfo
        cases hfo
      · exact ⟨f,hf,hfo⟩

lemma exists_changed [Inhabited V] (he : et ≠ []) : ∃ l, runAll et l ≠ l := by
  by_contra ha
  have hsa : ∀ l, runAll et l = l := by simpa using ha
  by_cases hfo : ∃ e ∈ et, e.forgets = true
  · -- one and two values end in the same list
    have heq := runAll_eq_of_forgets hfo (cons_ne_nil (default : V) [])
      (cons_ne_nil default [default])
    rw [hsa,hsa] at heq
    cases heq
  · obtain ⟨e,rest,rfl⟩ := exists_cons_of_ne_nil he
    have hn : ∀ f ∈ e::rest, f.forgets = false := by simpa using hfo
    refine runAll_ne_nil (fun f hf => hn f (mem_cons_of_mem _ hf))
      (on_ne_nil (hn e mem_cons_self) []) ?_
    exact hsa []

lemma runAll_ne_nil_of_ne_remove (he : ∀ e ∈ et, e ≠ .remove) (hl : l ≠ []) : runAll et l ≠ [] := by
  induction et generalizing l with
  | nil => exact hl
  | cons e et ih =>
    refine ih (fun f hf => he f (mem_cons_of_mem _ hf)) ?_
    cases e with
    | remove => exact absurd rfl (he .remove mem_cons_self)
    | _ => simp [on,hl]

lemma runAll_nil_of_remove (he : ∀ e ∈ et, e = .remove) : runAll et [] = [] := by
  induction et with
  | nil => rfl
  | cons e et ih =>
    rw [he e mem_cons_self]
    exact ih fun f hf => he f (mem_cons_of_mem _ hf)

lemma runAll_nil_eq_nil_iff (he : ∀ e ∈ et, e ≠ .remove) :
    runAll et [] = [] ↔ ∀ e ∈ et, ∃ v, e = .overwriteIfExists v := by
  induction et with
  | nil => simp [runAll]
  | cons e et ih =>
    have hr : ∀ f ∈ et, f ≠ .remove := fun f hf => he f (mem_cons_of_mem _ hf)
    change runAll et (e.on []) = [] ↔ _
    cases e with
    | remove => exact absurd rfl (he .remove mem_cons_self)
    | overwriteIfExists v => exact (ih hr).trans (by simp)
    | _ =>
      refine iff_of_false (runAll_ne_nil_of_ne_remove hr (by simp [on])) ?_
      simp

end Edit

end ArionGateway.GuardedEdits
