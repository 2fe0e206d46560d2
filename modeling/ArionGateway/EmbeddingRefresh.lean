import ArionGateway.Executions

/-!
# Embeddings of new tools

A registry keeps a flag that some tool may have no embedding. An insertion raises it and then
puts its tool into the map. A request that finds the flag raised takes it down, waits for its
turn, scans the map and asks for embeddings batch by batch; it may be dropped where it waits. A
tool stays behind without the flag exactly if it was put after the scan of every request that
took the flag, or the last request that would have come to it was dropped.
-/
namespace ArionGateway.EmbeddingRefresh
open Executions Function List

/-- A call of `embed_unembedded_tools` that has taken the flag: it waits for the lock, or has
entries left to ask for. -/
inductive Call where
  | locking
  | embedding (entries : List ℕ)

def Call.Covers (entry : ℕ) : Call → Prop
  | .locking => True
  | .embedding entries => entry ∈ entries

/-- Entries are numbered as they are made. `inserting` has the insertions that have looked at
the embedding of their entry, `refresh` the call that holds the lock. -/
structure ToolsRegistry (Id : Type) where
  made : ℕ := 0
  embedded : List ℕ := []
  inserting : List (Id × ℕ) := []
  tools : Id → Option ℕ := fun _ => none
  pending : Bool := false
  refresh : Option ℕ := none
  calls : ℕ → Option Call := fun _ => none

inductive Event (Id : Type) where
  | raise (id : Id) (supplied : Bool)
  | put (id : Id) (entry : ℕ)
  | swap (i : ℕ)
  | scan (i : ℕ)
  | batch (i : ℕ) (ok : Bool)
  | returns (i : ℕ)
  | drop (i : ℕ)

variable {Id : Type}

def Event.raises : Event Id → Bool
  | .raise _ supplied => !supplied
  | .batch _ ok => !ok
  | _ => false

/-- The call is over, and its lock is free. -/
def ToolsRegistry.leave (s : ToolsRegistry Id) (i : ℕ) : ToolsRegistry Id :=
  { s with
    refresh := if s.refresh = some i then none else s.refresh
    calls := update s.calls i none }

variable [DecidableEq Id] {size : ℕ}

/-- The steps of insertions and of calls, which send batches of `size` entries. A scan comes to
every tool that is in the map when it begins, and may come to later ones. -/
inductive Step (size : ℕ) (s : ToolsRegistry Id) : Event Id → ToolsRegistry Id → Prop
  | raise (id : Id) (supplied : Bool) : Step size s (.raise id supplied)
      { s with
        made := s.made+1
        embedded := if supplied then s.made::s.embedded else s.embedded
        inserting := (id, s.made)::s.inserting
        pending := s.pending || !supplied }
  | put {id : Id} {entry : ℕ} (h : (id, entry) ∈ s.inserting) : Step size s (.put id entry)
      { s with
        inserting := s.inserting.erase (id, entry)
        tools := update s.tools id (some entry) }
  | swap {i : ℕ} (h : s.calls i = none) (hp : s.pending = true) : Step size s (.swap i)
      { s with pending := false, calls := update s.calls i (some .locking) }
  | notPending (i : ℕ) (hp : s.pending = false) : Step size s (.swap i) s
  | scan {i : ℕ} {entries : List ℕ} (h : s.calls i = some .locking) (hr : s.refresh = none)
      (ht : ∀ id entry, s.tools id = some entry → entry ∉ s.embedded → entry ∈ entries) :
      Step size s (.scan i)
        { s with refresh := some i, calls := update s.calls i (some (.embedding entries)) }
  | batch {i : ℕ} {entries : List ℕ} (ok : Bool) (h : s.calls i = some (.embedding entries))
      (hn : entries ≠ []) : Step size s (.batch i ok)
      { s with
        embedded := if ok then s.embedded++entries.take size else s.embedded
        pending := s.pending || !ok
        calls := update s.calls i (some (.embedding (entries.drop size))) }
  | returns {i : ℕ} (h : s.calls i = some (.embedding [])) : Step size s (.returns i) (s.leave i)
  | drop {i : ℕ} {call : Call} (h : s.calls i = some call) (hn : call ≠ .embedding []) :
      Step size s (.drop i) (s.leave i)

/-- A tool without an embedding that no request will come to. -/
structure Forgotten (s : ToolsRegistry Id) (id : Id) (entry : ℕ) : Prop where
  registered : s.tools id = some entry
  unembedded : entry ∉ s.embedded
  pending : s.pending = false
  uncovered : ∀ i call, s.calls i = some call → ¬ call.Covers entry

/-- A step with which a tool is forgotten: it was put too late, or the last call that would
have come to it is dropped. -/
def Forgets (s : ToolsRegistry Id) (e : Event Id) (t : ToolsRegistry Id) (id : Id) (entry : ℕ) :
    Prop :=
  Forgotten t id entry ∧ (e = .put id entry ∨
    ∃ i call, e = .drop i ∧ s.calls i = some call ∧ call.Covers entry)

/-- The tool was forgotten on the way, and the flag has not been raised since. -/
def Lost (size : ℕ) (s : ToolsRegistry Id) (es : List (Event Id)) (t : ToolsRegistry Id)
    (id : Id) (entry : ℕ) : Prop :=
  ∃ before e after u v, es = before++e::after ∧ Run (Step size) s before u ∧ Step size u e v ∧
    Run (Step size) v after t ∧ Forgets u e v id entry ∧ ∀ e ∈ after, e.raises = false

variable {s t : ToolsRegistry Id} {es : List (Event Id)} {e : Event Id} {id : Id} {entry : ℕ}

lemma uncovered_of_update {calls : ℕ → Option Call} {i : ℕ} {call : Option Call}
    (h : ∀ j c, update calls i call j = some c → ¬ c.Covers entry) {c : Call}
    (hi : calls i = some c) (hc : ¬ c.Covers entry) :
    ∀ j c, calls j = some c → ¬ c.Covers entry := by
  intro j d hj
  by_cases hji : j = i
  · rw [hji,hi] at hj
    exact Option.some.inj hj ▸ hc
  · exact h j d ((update_of_ne hji ..).trans hj)

lemma Step.pending (h : Step size s e t) (hp : s.pending = false) (he : e.raises = false) :
    t.pending = false := by
  cases h with
  | raise | batch => exact Bool.or_eq_false_iff.mpr ⟨hp,he⟩
  | swap => rfl
  | _ => exact hp

lemma pending_of_run (h : Run (Step size) s es t) (hp : s.pending = false)
    (he : ∀ e ∈ es, e.raises = false) : t.pending = false := by
  induction h with
  | nil => exact hp
  | cons hst _ ih =>
    exact ih (hst.pending hp (he _ mem_cons_self)) fun e hm => he e (mem_cons_of_mem _ hm)

lemma Step.forgotten (h : Step size s e t) (ht : Forgotten t id entry) :
    e.raises = false ∧ (Forgotten s id entry ∨ Forgets s e t id entry) := by
  obtain ⟨hr,hu,hp,hc⟩ := ht
  cases h with
  | raise _ supplied =>
    obtain ⟨hp,hs⟩ := Bool.or_eq_false_iff.mp hp
    refine ⟨hs,.inl ⟨hr,fun hm => hu ?_,hp,hc⟩⟩
    split_ifs
    · exact mem_cons_of_mem _ hm
    · exact hm
  | @put id' entry' =>
    refine ⟨rfl,?_⟩
    by_cases hid : id = id'
    · subst hid
      obtain rfl : entry' = entry := Option.some.inj ((update_self id ..).symm.trans hr)
      exact .inr ⟨⟨hr,hu,hp,hc⟩,.inl rfl⟩
    · exact .inl ⟨(update_of_ne hid ..).symm.trans hr,hu,hp,hc⟩
  | swap => exact absurd trivial (hc _ _ (update_self ..))
  | notPending => exact ⟨rfl,.inl ⟨hr,hu,hp,hc⟩⟩
  | scan _ _ hs => exact absurd (hs id entry hr hu) (hc _ _ (update_self ..))
  | @batch i entries ok hi =>
    obtain ⟨hs,hok⟩ := Bool.or_eq_false_iff.mp hp
    obtain rfl : ok = true := by simpa using hok
    obtain ⟨hu,hn⟩ := not_or.mp (mt mem_append.mpr hu)
    refine ⟨rfl,.inl ⟨hr,hu,hs,uncovered_of_update hc hi fun hm => ?_⟩⟩
    rw [← take_append_drop size entries] at hm
    exact (mem_append.mp hm).elim hn (hc _ _ (update_self ..))
  | returns hi => exact ⟨rfl,.inl ⟨hr,hu,hp,uncovered_of_update hc hi not_mem_nil⟩⟩
  | @drop i call hi =>
    refine ⟨rfl,?_⟩
    by_cases hm : call.Covers entry
    · exact .inr ⟨⟨hr,hu,hp,hc⟩,.inr ⟨i,call,rfl,hi,hm⟩⟩
    · exact .inl ⟨hr,hu,hp,uncovered_of_update hc hi hm⟩

lemma lost_of_forgotten (h : Run (Step size) s es t) (ht : Forgotten t id entry) :
    (Forgotten s id entry ∧ ∀ e ∈ es, e.raises = false) ∨ Lost size s es t id entry := by
  induction h with
  | nil => exact .inl ⟨ht,nofun⟩
  | @cons s u t e es hst hrun ih =>
    rcases ih ht with ⟨hu,hr⟩ | ⟨before,e',after,v,w,rfl,hb,hl⟩
    · obtain ⟨he,hs | hf⟩ := hst.forgotten hu
      · exact .inl ⟨hs,forall_mem_cons.mpr ⟨he,hr⟩⟩
      · exact .inr ⟨[],e,es,s,u,rfl,.nil s,hst,hrun,hf,hr⟩
    · exact .inr ⟨e::before,e',after,v,w,rfl,.cons hst hb,hl⟩

/-- Where no call is running, the flag is up if a registered tool has no embedding, exactly if
no such tool was forgotten since the flag was last raised. -/
theorem pending_iff (h : Run (Step size) {} es s) (hq : ∀ i, s.calls i = none) :
    (∀ id entry, s.tools id = some entry → entry ∉ s.embedded → s.pending = true) ↔
      ∀ id entry, s.tools id = some entry → entry ∉ s.embedded → ¬ Lost size {} es s id entry := by
  refine forall₄_congr fun id entry hr hu => ⟨?_,fun hl => ?_⟩
  · rintro hp ⟨_,_,after,_,v,-,-,-,hrun,⟨hf,-⟩,he⟩
    rw [pending_of_run hrun hf.pending he] at hp
    cases hp
  · by_contra hp
    have hf : Forgotten s id entry := ⟨hr,hu,Bool.eq_false_iff.mpr hp,fun i c hc => by
      rw [hq i] at hc
      cases hc⟩
    rcases lost_of_forgotten h hf with ⟨hf,-⟩ | hlost
    · cases hf.registered
    · exact hl hlost

/-- A tool is put after the only scan since the flag was raised for it. -/
theorem late_tool_unflagged : ∃ s : ToolsRegistry Unit,
    Run (Step 1) {} [.raise () false,.swap 0,.scan 0,.returns 0,.put () 0] s ∧
      (∀ i, s.calls i = none) ∧ s.tools () = some 0 ∧ 0 ∉ s.embedded ∧ s.pending = false := by
  refine ⟨_,.cons (.raise () false) (.cons (.swap rfl rfl) (.cons (.scan rfl rfl nofun)
    (.cons (.returns rfl) (.cons (.put mem_cons_self) (.nil _))))),fun i => ?_,rfl,nofun,rfl⟩
  simp [ToolsRegistry.leave]

/-- Before a request comes for it, no tool is lost. -/
theorem new_tool_flagged : ∃ s : ToolsRegistry Unit,
    Run (Step 1) {} [.raise () false,.put () 0] s ∧ (∀ i, s.calls i = none) ∧
      ∀ id entry, s.tools id = some entry → entry ∉ s.embedded →
        ¬ Lost 1 {} [.raise () false,.put () 0] s id entry :=
  ⟨_,.cons (.raise () false) (.cons (.put mem_cons_self) (.nil _)),fun _ => rfl,
    (pending_iff (.cons (.raise () false) (.cons (.put mem_cons_self) (.nil _))) fun _ => rfl).mp
      fun _ _ _ _ => rfl⟩

end ArionGateway.EmbeddingRefresh
