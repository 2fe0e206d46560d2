import Mathlib.Data.Finset.Card

/-!
# The callback of a body that is sent more than once

The completion callback of a request body is shared by the bodies of all
attempts to send it. A body calls it when it is dropped, or when it fails, if
nobody else holds it. The function that makes the attempts holds it too, to give
it to the next one, and lets it go without a call.
-/
namespace ArionGateway.RetriedBodies
open Finset

/-- The holders of the callback: the sending function and bodies, of which `none`
is the original one. A call is kept with the holders that were left. -/
structure Sending where
  held : Bool
  holders : Finset (Option ℕ)
  attempts : ℕ
  calls : List (Bool × Finset (Option ℕ))

/-- The attempts that are made, and what happens to the body of attempt `i`. -/
inductive Event
  | attempt
  | fails (i : ℕ)
  | drops (i : ℕ)

variable (s : Sending)

/-- `Arc::get_mut` succeeds. -/
def Sending.isUnique : Bool := s.held.toNat+s.holders.card == 1

variable (body : Option ℕ)

def Sending.call : Sending :=
  { s with
    holders := s.holders.erase body
    calls := s.calls++[(s.held, s.holders.erase body)] }

/-- An error of a body's frame: a callback that is not unique is put back. -/
def Sending.fail : Sending :=
  if body ∈ s.holders ∧ s.isUnique then s.call body else s

def Sending.drop : Sending :=
  if body ∈ s.holders then
    if s.isUnique then s.call body else { s with holders := s.holders.erase body }
  else s

def step : Event → Sending
  | .attempt =>
    if s.held then
      { s with holders := insert (some s.attempts) s.holders, attempts := s.attempts+1 }
    else s
  | .fails i => s.fail (some i)
  | .drops i => s.drop (some i)

variable (empty : Bool)

/-- The function has cloned the callback. A body that is not empty is collected,
which drops it; `send_with_retry` keeps an empty one to its end. -/
def begun : Sending :=
  let s : Sending := ⟨true,{none},0,[]⟩
  if empty then s else s.drop none

/-- The end of the function drops its clone of the callback and then the body. -/
def Sending.returns : Sending := { s with held := false }.drop none

/-- The events before the function ends, its end, and the events after it. -/
def sent (before after : List Event) : Sending :=
  after.foldl step (before.foldl step (begun empty)).returns

/-- The callback is called once, by the last body that is there. -/
def CalledOnce : Prop := s.calls = [(false, ∅)]

/-- Nobody has called the callback. -/
def Sending.Silent : Prop := s.held = true ∧ s.calls = []

lemma Sending.Silent.step {s : Sending} (h : s.Silent) (e : Event) : (step s e).Silent := by
  have hu : ∀ body ∈ s.holders, s.isUnique = false := by
    intro body hb
    simp only [isUnique,h.1,Bool.toNat_true,beq_eq_false_iff_ne]
    have hpos : 0 < s.holders.card := card_pos.mpr ⟨body,hb⟩
    omega
  cases e with
  | attempt =>
    rw [RetriedBodies.step,if_pos h.1]
    exact h
  | fails i =>
    simp only [RetriedBodies.step,fail]
    rw [if_neg fun hc => by simp [hu _ hc.1] at hc]
    exact h
  | drops i =>
    simp only [RetriedBodies.step,drop]
    split
    next hb =>
      rw [hu _ hb]
      exact h
    next => exact h

lemma foldl_preserves (P : Sending → Prop) (hstep : ∀ s, P s → ∀ e, P (step s e)) {s : Sending}
    (h : P s) (ev : List Event) : P (ev.foldl step s) := by
  induction ev generalizing s with
  | nil => exact h
  | cons e ev ih => exact ih (hstep s h e)

lemma silent_foldl (em : Bool) (b : List Event) : (b.foldl step (begun em)).Silent := by
  refine foldl_preserves Sending.Silent (fun s h e => h.step e) ?_ b
  cases em
  · exact ⟨rfl,rfl⟩
  · exact ⟨rfl,rfl⟩

/-- Nobody is left to call the callback. -/
def Sending.Lost : Prop := s.held = false ∧ s.holders = ∅ ∧ s.calls = []

lemma Sending.Lost.step {s : Sending} (h : s.Lost) (e : Event) : (step s e).Lost := by
  cases e with
  | attempt =>
    rw [RetriedBodies.step,if_neg (by simp [h.1])]
    exact h
  | fails i =>
    rw [RetriedBodies.step,fail,if_neg (by simp [h.2.1])]
    exact h
  | drops i =>
    rw [RetriedBodies.step,drop,if_neg (by simp [h.2.1])]
    exact h

/-- After the function has ended, the callback is called when the last body goes. -/
def Sending.Waiting : Prop :=
  s.held = false ∧ (s.holders.Nonempty ∧ s.calls = [] ∨ s.holders = ∅ ∧ CalledOnce s)

lemma Sending.isUnique_iff {s : Sending} (h : s.held = false) {b : Option ℕ}
    (hb : b ∈ s.holders) : s.isUnique = true ↔ s.holders.erase b = ∅ := by
  rw [← card_eq_zero,card_erase_of_mem hb]
  have hpos : 0 < s.holders.card := card_pos.mpr ⟨b,hb⟩
  simp [isUnique,h]
  omega

lemma Sending.Waiting.call {s : Sending} (h : s.Waiting) {b : Option ℕ}
    (hb : b ∈ s.holders) (hu : s.isUnique = true) : (s.call b).Waiting := by
  obtain ⟨hh,⟨-,hc⟩ | ⟨he,-⟩⟩ := h
  · have he := (isUnique_iff hh hb).mp hu
    refine ⟨hh,.inr ⟨he,?_⟩⟩
    simp [CalledOnce,Sending.call,hc,hh,he]
  · rw [he] at hb
    cases hb

lemma Sending.Waiting.drop {s : Sending} (h : s.Waiting) (b : Option ℕ) : (s.drop b).Waiting := by
  unfold Sending.drop
  split
  next hb =>
    split
    next hu => exact h.call hb hu
    next hu =>
      obtain ⟨hh,⟨-,hc⟩ | ⟨he,-⟩⟩ := h
      · have hne := nonempty_iff_ne_empty.mpr (mt (isUnique_iff hh hb).mpr hu)
        exact ⟨hh,.inl ⟨hne,hc⟩⟩
      · rw [he] at hb
        cases hb
  next => exact h

lemma Sending.Waiting.step {s : Sending} (h : s.Waiting) (e : Event) : (step s e).Waiting := by
  cases e with
  | attempt =>
    simp only [RetriedBodies.step,h.1]
    exact h
  | fails i =>
    simp only [RetriedBodies.step,fail]
    split
    next hc => exact h.call hc.1 hc.2
    next => exact h
  | drops i => exact h.drop (some i)

/-- Once every body is gone, the callback has been called, once and by the last of
them, exactly if one was still there when the function ended. -/
theorem called_once_iff (empty : Bool) (before after : List Event)
    (hgone : (sent empty before after).holders = ∅) :
    CalledOnce (sent empty before after) ↔ (before.foldl step (begun empty)).holders.Nonempty := by
  have hs := silent_foldl empty before
  constructor
  · intro hc
    by_contra hn
    have hl : (before.foldl step (begun empty)).returns.Lost := by
      have he := not_nonempty_iff_eq_empty.mp hn
      rw [Sending.returns,Sending.drop,if_neg (by simp [he])]
      exact ⟨rfl,he,hs.2⟩
    have hcalls := (foldl_preserves Sending.Lost (fun s h e => h.step e) hl after).2.2
    exact absurd (hcalls.symm.trans hc) nofun
  · intro hn
    have hw : (before.foldl step (begun empty)).returns.Waiting :=
      .drop (s := { before.foldl step (begun empty) with held := false }) ⟨rfl,.inl ⟨hn,hs.2⟩⟩ none
    obtain ⟨-,⟨hne,-⟩ | ⟨-,hc⟩⟩ := foldl_preserves Sending.Waiting (fun s h e => h.step e) hw after
    · exact absurd hgone hne.ne_empty
    · exact hc

/-- The body of the second attempt outlives the function. -/
theorem called_when_last_body_goes :
    CalledOnce (sent false [.attempt, .drops 0, .attempt] [.drops 1]) :=
  (called_once_iff false _ _ (by decide)).mpr (by decide)

/-- A body that is sent before the response arrives, as bodies are: its callback is
never called. -/
theorem never_called_when_sent_first :
    (sent false [.attempt, .drops 0] []).holders = ∅ ∧
    (sent false [.attempt, .drops 0] []).calls = [] := by
  decide

end ArionGateway.RetriedBodies
