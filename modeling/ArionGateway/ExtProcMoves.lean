import ArionGateway.ExtProcWorker

/-!
# Frames that leave the buffer

What the worker does with a frame that leaves the buffer is a sequence of edits of the
processing of one type of message and of messages that are forwarded. What all of it
keeps is shown for one edit and for one message.
-/
namespace ArionGateway.ExtProcMoves
open ExtProcWorker HttpHeaders Processing Worker

inductive Edit (p : Processing) : Processing → Prop
  | pass (st : ProcessingStatus) (frame : BodyFrame) :
      Edit p ((p.returnStatus st).injectFrame frame)
  | fields (framesBuffer : FramesBuffer) (inflightFrames : List BodyFrame)
      (parkedTrailers trailers : Option HeaderMap) :
      Edit p { p with framesBuffer, inflightFrames, parkedTrailers, trailers }

/-- Edits and messages that are forwarded, with the outcomes of the latter. -/
inductive Moves (k : MessageType) : List Outcome → Worker → Worker → Prop
  | nil (s : Worker) : Moves k [] s s
  | edit {s t : Worker} {os : List Outcome} (q : Processing) (h : Edit (s.processing k) q)
      (rest : Moves k os (s.modify k fun _ => q) t) : Moves k os s t
  | forward {s t : Worker} {os : List Outcome} {ρ : Type} (c : Config ρ) (m : Message)
      (o : Outcome) (rest : Moves k os (s.forwardToExternalProcessor c k m o) t) :
      Moves k (o::os) s t

/-- The frames that are sent are in flight afterwards; a status is returned, unless the
stream is lost, only if a frame is passed on. -/
structure Emits (k : MessageType) (os : List Outcome) (answers : Bool) (s t : Worker) : Prop where
  moves : Moves k os s t
  inflight : (t.processing k).inflightFrames = [] ↔ os = [] ∧ (s.processing k).inflightFrames = []
  reply : s.bidiStream = none → (∀ o ∈ os, o.connects = false) → (t.processing k).replyChannel =
    if answers then none else (s.processing k).replyChannel

variable {ρ : Type} {c : Config ρ} {s t u : Worker} {k : MessageType} {o : Outcome}
  {os os' : List Outcome}

lemma Moves.append (h : Moves k os s t) (h' : Moves k os' t u) : Moves k (os++os') s u := by
  induction h with
  | nil => exact h'
  | edit q h _ ih => exact .edit q h (ih h')
  | forward c m o _ ih => exact .forward c m o (ih h')

lemma forward_fails (h : s.bidiStream = none) (hc : o.connects = false) (m : Message) :
    s.forwardToExternalProcessor c k m o = s := by
  simp [forwardToExternalProcessor,h,hc]

lemma forward_isSome_iff (s : Worker) (c : Config ρ) (k : MessageType) (m : Message)
    (o : Outcome) : (s.forwardToExternalProcessor c k m o).bidiStream.isSome = true ↔
      s.bidiStream.isSome = true ∨ o.connects = true := by
  unfold forwardToExternalProcessor
  cases hst : s.bidiStream with
  | none => cases hc : o.connects <;> simp [hst,sent]
  | some b => dsimp only; split_ifs <;> simp [hst,sent]

lemma Moves.isSome_iff (h : Moves k os s t) : t.bidiStream.isSome = true ↔
    s.bidiStream.isSome = true ∨ ∃ o ∈ os, o.connects = true := by
  induction h with
  | nil => simp
  | edit q _ _ ih => exact ih
  | forward c m o _ ih => rw [ih,forward_isSome_iff]; simp [or_assoc]

lemma Moves.bidiStream_eq_none (h : Moves k os s t) (hn : s.bidiStream = none)
    (hf : ∀ o ∈ os, o.connects = false) : t.bidiStream = none := by
  refine Option.not_isSome_iff_eq_none.mp fun hs => ?_
  rcases h.isSome_iff.mp hs with hs | ⟨o,ho,hc⟩
  · simp [hn] at hs
  · simp [hf o ho] at hc

lemma source_injectFrame (b : FrameBridge) (i : FrameResult) :
    (b.injectFrame i).source = b.source := by
  unfold FrameBridge.injectFrame
  split_ifs <;> rfl

/-- Neither the phase nor the source changes. -/
lemma Moves.steady (h : Moves k os s t) :
    (t.processing k).streamingBodyEnabled = (s.processing k).streamingBodyEnabled ∧
      (t.processing k).complete = (s.processing k).complete ∧
      (t.processing k).endOfStream = (s.processing k).endOfStream ∧
      (t.processing k).frameBridge.source = (s.processing k).frameBridge.source := by
  induction h with
  | nil => exact ⟨rfl,rfl,rfl,rfl⟩
  | @edit s _ _ q h _ ih =>
    rw [processing_modify_self] at ih
    cases h with
    | pass st f =>
      rw [returnStatus_eq,injectFrame,source_injectFrame] at ih
      exact ih
    | fields => exact ih
  | @forward s _ _ _ c m o _ ih =>
    obtain ⟨_,_,_,h⟩ := s.processing_forward k c m o k
    rwa [h] at ih

lemma Emits.append {a a' : Bool} (h : Emits k os a s t) (h' : Emits k os' a' t u) :
    Emits k (os++os') (a || a') s u where
  moves := h.moves.append h'.moves
  inflight := by
    rw [h'.inflight,h.inflight,List.append_eq_nil_iff]
    tauto
  reply hn hf := by
    have hs := fun o ho => hf o (List.mem_append_left os' ho)
    rw [h'.reply (h.moves.bidiStream_eq_none hn hs)
      fun o ho => hf o (List.mem_append_right os ho),h.reply hn hs]
    cases a <;> cases a' <;> rfl

lemma Emits.refl (k : MessageType) (s : Worker) : Emits k [] false s s :=
  ⟨.nil s,by simp,fun _ _ => rfl⟩

variable (s : Worker) (k : MessageType) (c : Config ρ) (o od ot : Outcome)

lemma emits_setBuffer (b : FramesBuffer) : Emits k [] false s (s.setBuffer k b) :=
  ⟨.edit _ (.fields ..) (.nil _),by simp [setBuffer],fun _ _ => by simp [setBuffer]⟩

variable (f : BodyFrame)

lemma emits_sendChunk (e : Bool) : Emits k [o] false s (s.sendChunk c k f e o) := by
  obtain ⟨d,m,ht⟩ : ∃ trailers m, (s.processing k).handleOutgoingBodyChunk f e =
      ({ s.processing k with trailers }, m) := by
    cases f <;> exact ⟨_,_,rfl⟩
  refine ⟨?_,?_,fun hn hf => ?_⟩
  · unfold sendChunk
    rw [ht]
    exact .edit _ (.fields ..) (.forward c m o (.edit _ (.fields ..) (.nil _)))
  · obtain ⟨_,_,_,_,h⟩ := s.processing_sendChunk k c f e o
    rw [h]
    simp
  · unfold sendChunk
    rw [ht]
    dsimp only
    rw [forward_fails (s := s.modify k _) hn (hf o List.mem_cons_self)]
    simp

lemma emits_passOn : Emits k [] true s (s.passOn k f) := by
  refine ⟨.edit _ (.pass (.ready k {}) f) (.nil _),?_,fun _ _ => ?_⟩
  all_goals
    rw [passOn,processing_modify_self,returnStatus_eq]
    simp [injectFrame]

lemma emits_emit (d : Option BodyFrame) (e : Bool) :
    Emits k (if (s.overridableModes k).shouldProcessBody && d.isSome then [o] else [])
      (!(s.overridableModes k).shouldProcessBody && d.isSome) s (s.emit k c d e o) := by
  unfold emit
  cases d with
  | none => simpa using Emits.refl k s
  | some f =>
    cases hb : (s.overridableModes k).shouldProcessBody with
    | true => simpa using emits_sendChunk s k c o f e
    | false => simpa using emits_passOn s k f

lemma emits_emitTrailers (d : Option HeaderMap) :
    Emits k (if (s.overridableModes k).shouldProcessTrailers && d.isSome then [o] else []) false s
      (s.emitTrailers k c d o) := by
  unfold emitTrailers
  cases d with
  | none => simpa using Emits.refl k s
  | some map =>
    cases hb : (s.overridableModes k).shouldProcessTrailers with
    | true => simpa using emits_sendChunk s k c o (.trailers map) true
    | false => exact ⟨.edit _ (.fields ..) (.nil _),by simp,fun _ _ => by simp⟩

lemma emits_handleFrame (now : ℕ) : ∃ a,
    Emits k (if (s.overridableModes k).shouldProcessBody && ((s.processing k).framesBuffer.push c f
      now (s.overridableModes k).bodyMode).2.isSome then [o] else []) a s (s.handleFrame c k f now o) := by
  rw [s.handleFrame_eq k c o rfl f now]
  exact ⟨_,(emits_setBuffer s k _).append (emits_emit (s.setBuffer k _) k c o _ false)⟩

lemma emits_emptyBuffer {b : FramesBuffer} (hb : (s.processing k).framesBuffer = b) :
    Emits k ((if (s.overridableModes k).shouldProcessBody && b.dataBuffer.isSome then [od] else []) ++
      if (s.overridableModes k).shouldProcessTrailers && b.trailersBuffer.isSome then [ot] else [])
      (!(s.overridableModes k).shouldProcessBody && b.dataBuffer.isSome) s
      (s.emptyBuffer c k od ot) := by
  rw [s.emptyBuffer_eq k c od ot hb]
  have hd := emits_emit (s.setBuffer k { trailersBuffer := b.trailersBuffer }) k c od
    (b.dataBuffer.map .data) b.trailersBuffer.isNone
  have h := (((emits_setBuffer s k _).append hd).append (emits_setBuffer _ k {})).append
    (emits_emitTrailers _ k c ot b.trailersBuffer)
  simpa [setBuffer,overridableModes_emit] using h

end ArionGateway.ExtProcMoves
