import Mathlib.Data.List.Basic

/-!
# Broadcast channels

A broadcast channel keeps the last `capacity` messages that were sent. Every
receiver takes the messages in the order of sending, from the place where it
subscribed. A receiver whose next message is no longer kept is told that it lags
and goes on with the oldest message that is kept.

The log has all messages ever sent; a receiver is the number of the message it
takes next.
-/
namespace ArionGateway.BroadcastChannels
open List

variable {M : Type*}

inductive Received (M : Type*) where
  | pending
  | lagged (missed : ℕ)
  | message (m : M)

/-- What a receiver gets, and the message it takes next after that. -/
def recv (capacity : ℕ) (log : List M) (next : ℕ) : Received M × ℕ :=
  match log[next]? with
  | none => (.pending, next)
  | some m =>
    if log.length ≤ next+capacity then (.message m, next+1)
    else (.lagged (log.length - capacity - next), log.length - capacity)

/-- The messages that were taken one by one from `start` up to `next`. -/
def taken (log : List M) (start next : ℕ) : List M := (log.drop start).take (next - start)

variable {c start next : ℕ} {log : List M} {m : M}

lemma recv_of_none (h : log[next]? = none) : recv c log next = (.pending, next) := by
  rw [recv,h]

lemma recv_of_le (h : log[next]? = some m) (hle : log.length ≤ next+c) :
    recv c log next = (.message m, next+1) := by
  rw [recv,h]
  exact if_pos hle

lemma recv_of_lt (hlt : next+c < log.length) :
    recv c log next = (.lagged (log.length - c - next), log.length - c) := by
  have hn : next < log.length := by omega
  rw [recv,getElem?_eq_getElem hn]
  exact if_neg (Nat.not_le.mpr hlt)

lemma recv_eq_message {after : ℕ} (h : recv c log next = (.message m, after)) :
    log[next]? = some m ∧ after = next+1 := by
  rw [recv] at h
  split at h
  · cases h
  · rename_i hg
    split_ifs at h
    · cases h
      exact ⟨hg,rfl⟩
    · cases h

lemma taken_self (log : List M) (start : ℕ) : taken log start start = [] := by
  rw [taken,Nat.sub_self,take_zero]

lemma taken_succ (hle : start ≤ next) (h : log[next]? = some m) :
    taken log start (next+1) = taken log start next++[m] := by
  have hg : (log.drop start)[next - start]? = some m := by
    rw [getElem?_drop,Nat.add_sub_cancel' hle,h]
  rw [taken,Nat.succ_sub hle,take_add_one,hg]
  rfl

lemma taken_append (hn : next ≤ log.length) (more : List M) :
    taken (log++more) start next = taken log start next := by
  by_cases hst : start ≤ log.length
  · rw [taken,taken,drop_append_of_le_length hst,take_append_of_le_length]
    rw [length_drop]
    omega
  · rw [taken,taken,Nat.sub_eq_zero_of_le (by omega),take_zero,take_zero]

lemma taken_of_le (h : log.length ≤ next) : taken log start next = log.drop start :=
  take_of_length_le (by rw [length_drop]; omega)

end ArionGateway.BroadcastChannels
