import Mathlib.Data.List.Basic

/-!
# Values with cached copies

A `CachedWatch` holds a value that is updated in place and counts its updates.
Each watcher keeps a copy of the value with the number of updates it has seen,
and replaces the copy when the numbers differ. It goes on with the old copy if
the value is locked for writing at that moment.
-/
namespace ArionGateway.CachedWatches

variable {T : Type*}

structure CachedWatch (T : Type*) where
  value : T
  version : ℕ := 0

structure CachedWatcher (T : Type*) where
  version : ℕ
  copy : T

def CachedWatch.update (self : CachedWatch T) (f : T → T) : CachedWatch T :=
  ⟨f self.value,self.version+1⟩

def CachedWatch.watcher (self : CachedWatch T) : CachedWatcher T := ⟨self.version,self.value⟩

/-- `readable`: the read lock is free. -/
def CachedWatcher.cachedOrLatest (self : CachedWatcher T) (parent : CachedWatch T)
    (readable : Bool) : CachedWatcher T :=
  if parent.version ≠ self.version ∧ readable then ⟨parent.version,parent.value⟩ else self

/-- A watcher that has seen all updates has the current value. -/
structure CachedWatcher.Follows (watcher : CachedWatcher T) (parent : CachedWatch T) : Prop where
  version_le : watcher.version ≤ parent.version
  copy_eq : watcher.version = parent.version → watcher.copy = parent.value

variable {w : CachedWatcher T} {parent : CachedWatch T}

lemma follows_watcher (parent : CachedWatch T) : parent.watcher.Follows parent :=
  ⟨Nat.le_refl _,fun _ => rfl⟩

lemma CachedWatcher.Follows.update (h : w.Follows parent) (f : T → T) :
    w.Follows (parent.update f) := by
  have hle := h.version_le
  refine ⟨Nat.le_succ_of_le hle,fun heq => ?_⟩
  have heq : w.version = parent.version+1 := heq
  omega

lemma CachedWatcher.Follows.cachedOrLatest (h : w.Follows parent) (readable : Bool) :
    (w.cachedOrLatest parent readable).Follows parent := by
  rw [CachedWatcher.cachedOrLatest]
  split_ifs
  · exact follows_watcher parent
  · exact h

lemma CachedWatcher.Follows.copy_cachedOrLatest (h : w.Follows parent) :
    (w.cachedOrLatest parent true).copy = parent.value := by
  rw [CachedWatcher.cachedOrLatest]
  split_ifs with hv
  · rfl
  · refine h.copy_eq ?_
    by_contra hne
    exact hv ⟨fun heq => hne heq.symm,rfl⟩

end ArionGateway.CachedWatches
