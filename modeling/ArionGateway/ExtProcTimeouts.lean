import ArionGateway.ExtProcReplies
import ArionGateway.ExtProcTransit

/-!
# The message timeout of the worker

The timeout is armed by every message that is forwarded. The reply to the headers
or to the trailers disarms it, whatever else waits for a reply; the reply to a
chunk leaves it armed, also if nothing waits any more, until the body is over.
-/
namespace ArionGateway.ExtProcTimeouts
open ExtProcMoves ExtProcWorker ExtProcReplies Executions HeaderMutations HttpHeaders
  StringMatchers
open Processing (returnStatus_eq)
open ExtProcTransit (injectChunk_eq sameBody_returnBodyStatus)

/-- A forwarded message is not answered yet. -/
def Unanswered (s : Worker) : Prop := ∃ kind, (s.processing kind).waiting ≠ []

/-- At the select the timeout is armed exactly if a message is not answered. -/
def Timed (s : Worker) : Prop :=
  s.running = true → (s.timeoutState.active = true ↔ Unanswered s)

/-- No message finds the stream lost while another one is not answered. -/
def Kept (stream : Option BidiStream) (unanswered : Prop) : List Outcome → Prop
  | [] => True
  | o::os =>
    match stream with
    | none => if o.connects then Kept (some {}) True os else Kept none unanswered os
    | some b =>
      if o.sends && !b.lost then Kept (some b) True os
      else ¬ unanswered ∧ Kept (some { lost := true }) unanswered os

section
variable {ρ : Type} (config : Config ρ)

/-- The messages that reading the source forwards. -/
def chunks (modes : Modes) (p : Processing) (now : ℕ) (onData onTrailers : Outcome) :
    List Outcome :=
  match p.frameBridge.source with
  | .ok frame::_ =>
    if modes.shouldProcessBody && (p.framesBuffer.push config frame now modes.bodyMode).2.isSome then
      [onData]
    else []
  | .error _::_ => []
  | [] => (if sendsData modes p then [onData] else []) ++
      if sendsTrailers modes p then [onTrailers] else []

variable (p : Processing)

/-- The reply to a chunk ends the work on the body. -/
def Ends (response : CommonResponse) : Prop :=
  response.status = .continueAndReplace ∨ p.endOfStream = true ∧ p.inflightFrames.tail = []

/-- A step that disarms the timeout finds or leaves no message without an answer, and
the reply to a chunk that does not disarm it leaves one, if there was one. -/
def InTime (s : Worker) : Event → Prop
  | .task kind headers _ _ outcome => Kept s.bidiStream (Unanswered s)
      (if headers.isSome && (s.overridableModes kind).shouldProcessHeaders then [outcome] else [])
  | .bodyFrame kind now onData onTrailers =>
    let p := s.processing kind
    let sent := chunks config (s.overridableModes kind) p now onData onTrailers
    Kept s.bidiStream (Unanswered s) sent ∧
      (p.frameBridge.source = [] → sent = [] → p.inflightFrames = [] → ¬ Unanswered s)
  | .inbound (.headers kind (some _) _) => ¬ Unanswered (s.modify kind (·.answerHeaders))
  | .inbound (.body kind (some response)) =>
    (Ends (s.processing kind) response → ¬ Unanswered (s.modify kind (·.answerBody))) ∧
    (¬ Ends (s.processing kind) response → Unanswered s → Unanswered (s.modify kind (·.answerBody)))
  | .inbound (.trailers kind _) => ¬ Unanswered (s.modify kind (·.answerTrailers))
  | _ => True

/-- Nothing changes but what is in flight. -/
structure Same (s t : Worker) : Prop where
  running : t.running = s.running
  stream : t.bidiStream = s.bidiStream
  active : t.timeoutState = s.timeoutState
  waiting : ∀ k, (t.processing k).waiting = (s.processing k).waiting

variable {s t u : Worker} {k : MessageType}

lemma Same.trans (h : Same s t) (h' : Same t u) : Same s u :=
  ⟨h'.running.trans h.running,h'.stream.trans h.stream,h'.active.trans h.active,
    fun k => (h'.waiting k).trans (h.waiting k)⟩

lemma Same.refl (s : Worker) : Same s s := ⟨rfl,rfl,rfl,fun _ => rfl⟩

lemma Same.unanswered (h : Same s t) : Unanswered t ↔ Unanswered s := by
  simp only [Unanswered,h.waiting]

lemma timed_stopped (h : s.running = false) : Timed s :=
  fun hr => absurd (h.symm.trans hr) Bool.false_ne_true

lemma Same.timed (h : Same s t) : Timed t ↔ Timed s := by
  rw [Timed,Timed,h.running,h.active,h.unanswered]

lemma waiting_modify {f g : Processing → Processing}
    (h : (f (s.processing k)).waiting = (g (s.processing k)).waiting) (j : MessageType) :
    ((s.modify k f).processing j).waiting = ((s.modify k g).processing j).waiting := by
  by_cases hj : j = k
  · subst hj
    rw [Worker.processing_modify_self,Worker.processing_modify_self,h]
  · rw [Worker.processing_modify_of_ne _ _ _ hj,Worker.processing_modify_of_ne _ _ _ hj]

lemma same_modify {f : Processing → Processing}
    (hf : (f (s.processing k)).waiting = (s.processing k).waiting) : Same s (s.modify k f) := by
  refine ⟨rfl,rfl,rfl,fun j => ?_⟩
  rw [waiting_modify (g := id) hf,Worker.modify,id,Function.update_eq_self]

/-- If the timeout is disarmed, nothing may wait. -/
lemma timed_disarmed (hr : t.running = true)
    (h : ∀ j, (t.processing j).waiting = (s.processing j).waiting) :
    Timed (t.setTimeoutActive false) ↔ ¬ Unanswered s := by
  simp [Timed,Unanswered,Worker.setTimeoutActive,hr,h]

@[simp] lemma waiting_returnStatus (st : ProcessingStatus) :
    (p.returnStatus st).waiting = p.waiting := by
  rw [returnStatus_eq]

@[simp] lemma waiting_tryEnableStreamingBody : p.tryEnableStreamingBody.waiting = p.waiting := by
  unfold Processing.tryEnableStreamingBody
  split_ifs <;> rfl

variable {c : Config ρ} {o : Outcome} {os : List Outcome}

lemma same_edit {q : Processing} (h : Edit (s.processing k) q) :
    Same s (s.modify k fun _ => q) := by
  refine same_modify ?_
  cases h with
  | pass st f => exact waiting_returnStatus _ st
  | fields => rfl

lemma unanswered_sent (s : Worker) (k : MessageType) (m : Message) : Unanswered (s.sent k m) := by
  refine ⟨k,?_⟩
  rw [Worker.sent,Worker.setTimeoutActive_processing]
  simp

/-- What is left when the stream is found to be lost. -/
def lost (s : Worker) (c : Config ρ) : Worker :=
  { s.modifyBoth (·.returnStatus (statusError c (ByteStrings.str
    "Lost connection to external processor"))) with
    bidiStream := some { lost := true } }.setTimeoutActive false

lemma unanswered_lost (s : Worker) (c : Config ρ) : Unanswered (lost s c) ↔ Unanswered s := by
  simp [Unanswered,lost,Worker.modifyBoth]

lemma forward_lost {b : BidiStream} (k : MessageType) (m : Message)
    (hs : s.bidiStream = some b) (ho : ¬ (o.sends && !b.lost) = true) :
    s.forwardToExternalProcessor c k m o = lost s c := by
  simp [Worker.forwardToExternalProcessor,hs,ho,lost]

/-- A stream that is lost while a message is not answered stays so. -/
lemma not_timed_moves (h : Moves k os s t) (hr : s.running = true)
    (hl : s.bidiStream = some { lost := true })
    (ha : s.timeoutState.active = false) (hu : Unanswered s) : ¬ Timed t := by
  induction h with
  | nil s =>
    rw [Timed,ha]
    simpa [hr] using hu
  | edit q h _ ih => exact ih hr hl ha ((same_edit h).unanswered.mpr hu)
  | @forward s _ _ _ c m o _ ih =>
    rw [forward_lost (c := c) k m hl (by simp)] at ih
    exact ih hr rfl rfl ((unanswered_lost s c).mpr hu)

lemma same_moves (h : Moves k os s t) (ho : os = []) : Same s t := by
  induction h with
  | nil => exact .refl _
  | edit q h _ ih => exact (same_edit h).trans (ih ho)
  | forward => cases ho

lemma timed_moves_iff (h : Moves k os s t) (hr : s.running = true) (hs : Timed s) :
    Timed t ↔ Kept s.bidiStream (Unanswered s) os := by
  induction h with
  | nil => exact iff_of_true hs trivial
  | edit q h _ ih =>
    have hm := same_edit h
    rw [ih hr (hm.timed.mpr hs),propext hm.unanswered]
    rfl
  | @forward s t os ρ c m o rest ih =>
    have ih := ih ((s.running_forward k c m o).trans hr)
    have hsent : ∀ v : Worker, s.forwardToExternalProcessor c k m o = v.sent k m →
        (Timed t ↔ Kept v.bidiStream True os) := by
      intro v hv
      have hn := unanswered_sent v k m
      rw [hv] at ih
      rw [ih fun _ => iff_of_true rfl hn,eq_true hn]
      rfl
    unfold Kept
    cases hst : s.bidiStream with
    | none =>
      split_ifs with hc
      · exact hsent { s with bidiStream := some {} } (by
          simp [Worker.forwardToExternalProcessor,hst,hc])
      · rw [forward_fails hst (Bool.eq_false_iff.mpr hc)] at ih
        rw [ih hs,hst]
    | some b =>
      dsimp only
      split_ifs with hc
      · exact hst ▸ hsent s (by simp [Worker.forwardToExternalProcessor,hst,hc])
      · have hv := forward_lost (c := c) k m hst hc
        rw [hv] at ih rest
        by_cases hn : Unanswered s
        · refine iff_of_false (not_timed_moves rest hr rfl rfl ?_) fun h => h.1 hn
          exact (unanswered_lost s c).mpr hn
        · rw [ih ?_,propext (unanswered_lost s c)]
          · exact (and_iff_right hn).symm
          · rw [Timed,unanswered_lost]
            exact fun _ => iff_of_false Bool.false_ne_true hn

lemma same_ending (s : Worker) (k : MessageType) : Same s (s.ending k) ∧
    ((s.ending k).processing k).inflightFrames = (s.processing k).inflightFrames := by
  obtain ⟨_,_,hq⟩ :=
    { s.processing k with complete := true }.bufferEndOfStream_eq (s.overridableModes k)
  unfold Worker.ending
  exact ⟨same_modify (by rw [hq]),by rw [Worker.processing_modify_self,hq]⟩

lemma timed_handleEnd_iff (hr : s.running = true) (hs : Timed s) (od ot : Outcome)
    {os : List Outcome} {a : Bool}
    (h : Emits k os a (s.ending k) ((s.ending k).emptyBuffer c k od ot)) :
    Timed (s.handleEnd c k od ot) ↔ Kept s.bidiStream (Unanswered s) os ∧
      (os = [] → (s.processing k).inflightFrames = [] → ¬ Unanswered s) := by
  obtain ⟨he,hf⟩ := same_ending s k
  have hend : Same (((s.ending k).emptyBuffer c k od ot).closeIfDone k) (s.handleEnd c k od ot) :=
    same_modify (f := (·.setStreamingBody false)) rfl
  have hi := h.inflight
  rw [hf] at hi
  rw [hend.timed,Worker.closeIfDone]
  simp only [List.isEmpty_iff,hi]
  split_ifs with hc
  · obtain ⟨rfl,hf⟩ := hc
    have ha := he.trans (same_moves h.moves rfl)
    refine (timed_disarmed ?_ fun j =>
      ((same_modify ?_).waiting j).trans (ha.waiting j)).trans ?_
    · exact ha.running.trans hr
    · exact waiting_returnStatus ..
    · simp [Kept,hf]
  · rw [timed_moves_iff h.moves hr (he.timed.mpr hs),propext he.unanswered]
    exact (and_iff_left fun ho hf => absurd ⟨ho,hf⟩ hc).symm

lemma timed_pollSource_iff (hr : s.running = true) (hs : Timed s) (now : ℕ) (od ot : Outcome) :
    Timed (s.pollSource c k now od ot) ↔ InTime c s (.bodyFrame k now od ot) := by
  unfold Worker.pollSource
  simp only [InTime,chunks]
  rcases hsrc : (s.processing k).frameBridge.source with _ | ⟨_ | fr,rest⟩
  · rw [timed_handleEnd_iff hr hs od ot (emits_ending c od ot s k)]
    simp
  · have ha : Same s (s.advance k rest) := same_modify rfl
    exact iff_of_true ((ha.trans (same_modify rfl)).timed.mpr hs) ⟨trivial,fun h => absurd h (List.cons_ne_nil _ _)⟩
  · have ha : Same s (s.advance k rest) := same_modify rfl
    obtain ⟨_,he⟩ := emits_handleFrame (s.advance k rest) k c od fr now
    rw [timed_moves_iff he.moves hr (ha.timed.mpr hs),propext ha.unanswered]
    simp [Worker.advance]

lemma waiting_process (m : Modes) (p : Processing) (h : Option HeaderMap) (b : FrameBridge)
    (f : List FrameResult) : (p.process c k m h b f).1.waiting = p.waiting ∧
      (p.process c k m h b f).2.isSome = (h.isSome && m.shouldProcessHeaders) := by
  unfold Processing.process
  split
  next hm =>
    simp only [Processing.processHeaders]
    split_ifs <;> simp [Processing.setStreamingBody,hm]
  next h _ _ hn =>
    have hf : (h.isSome && m.shouldProcessHeaders) = false := by
      cases h <;> simp_all
    dsimp only [Processing.processBodyAndTrailers]
    split_ifs <;> simp [hf]

lemma timed_startTask_iff (hr : s.running = true) (hs : Timed s) (h : Option HeaderMap) (b : FrameBridge)
    (f : List FrameResult) (o : Outcome) : Timed (s.startTask c k h b f o) ↔
      Kept s.bidiStream (Unanswered s)
        (if h.isSome && (s.overridableModes k).shouldProcessHeaders then [o] else []) := by
  obtain ⟨p,m,hp,ht⟩ := s.startTask_eq k c h b f o
  obtain ⟨hw,hm⟩ := waiting_process (c := c) (k := k) (s.overridableModes k) (s.processing k) h b f
  rw [hp] at hw hm
  have hse : Same s (s.modify k fun _ => p) := same_modify hw
  rw [ht,← hm]
  cases m with
  | none => exact iff_of_true (hse.timed.mpr hs) trivial
  | some m =>
    rw [← propext hse.unanswered]
    exact timed_moves_iff (.forward c m o (.nil _)) hr (hse.timed.mpr hs)

variable {cr : HttpCrate} {e : Event}

lemma timed_handleHeaders_iff (hr : s.running = true) (r : CommonResponse) (m : Option ModeOverride) :
    Timed (s.handleHeaders c k r m) ↔ ¬ Unanswered (s.modify k (·.answerHeaders)) := by
  have ho : (s.overrideModes c k m).processing = s.processing ∧
      (s.overrideModes c k m).running = s.running := by
    unfold Worker.overrideModes
    split <;> exact ⟨rfl,rfl⟩
  have hw : ∀ (p : Processing) m, (p.handleHeadersResponse c k m r).waiting = p.waiting := by
    intro p m
    unfold Processing.handleHeadersResponse
    dsimp only
    split_ifs <;> simp [Processing.setStreamingBody]
  refine timed_disarmed (ho.2.trans hr) fun j => ?_
  rw [waiting_modify (g := (·.answerHeaders)) (hw ..),Worker.modify,ho.1]
  rfl

lemma waiting_handleBodyResponse (p : Processing) (r : CommonResponse) (a : Bool) :
    (p.handleBodyResponse c k r a).1.waiting = p.waiting ∧
      ((p.handleBodyResponse c k r a).2 = true ↔ a = true ∧ ¬ Ends p r) := by
  obtain ⟨_,_,_,hq⟩ := sameBody_returnBodyStatus c k p r
  obtain ⟨_,-,-,hc⟩ := injectChunk_eq (p.returnBodyStatus c k r) r
  unfold Processing.handleBodyResponse Ends
  dsimp only
  split_ifs with h₁ h₂ <;> simp_all [Processing.setStreamingBody]

lemma timed_handleBody_iff (hr : s.running = true) (hs : Timed s) (r : CommonResponse) :
    Timed (s.handleBody c k r) ↔ InTime c s (.inbound (.body k (some r))) := by
  obtain ⟨hw,ha⟩ := waiting_handleBodyResponse (c := c) (k := k) (s.processing k).answerBody r
    s.timeoutState.active
  have hu : Unanswered (s.handleBody c k r) ↔ Unanswered (s.modify k (·.answerBody)) := by
    refine exists_congr fun j => not_congr (iff_of_eq (congrArg (· = []) ?_))
    exact waiting_modify (f := fun _ => (Processing.handleBodyResponse c k _ r _).1) hw j
  have hback : Unanswered (s.modify k (·.answerBody)) → Unanswered s := by
    rintro ⟨j,hj⟩
    refine ⟨j,fun hn => hj ?_⟩
    by_cases hk : j = k
    · subst hk
      simp [Processing.answerBody,hn]
    · rwa [Worker.processing_modify_of_ne _ _ _ hk]
  have hact : (s.handleBody c k r).timeoutState.active = true ↔
      Unanswered s ∧ ¬ Ends (s.processing k) r := ha.trans (and_congr_left' (hs hr))
  rw [Timed]
  simp only [InTime]
  tauto

variable [RegexEngine ρ]

lemma timed_receive_iff (hr : s.running = true) (hs : Timed s) (m : Inbound) :
    Timed (s.receive cr c m) ↔ InTime c s (.inbound m) := by
  cases m with
  | overrideMessageTimeout a b =>
    refine iff_of_true ?_ trivial
    simp only [Worker.receive,Worker.handleTimeoutExtension]
    split_ifs
    · exact timed_stopped rfl
    · split
      · exact hs
      · exact timed_stopped rfl
  | immediateResponse r =>
    refine iff_of_true ?_ trivial
    simp only [Worker.receive]
    split_ifs <;> exact timed_stopped rfl
  | headers k r m =>
    cases r with
    | none => exact iff_of_true (timed_stopped rfl) trivial
    | some r => exact timed_handleHeaders_iff hr r m
  | body k r =>
    cases r with
    | none => exact iff_of_true (timed_stopped rfl) trivial
    | some r => exact timed_handleBody_iff hr hs r
  | trailers k m =>
    refine timed_disarmed hr fun j => waiting_modify (g := (·.answerTrailers)) ?_ j
    unfold Processing.handleTrailersResponse
    split <;> simp [Processing.setStreamingBody]
  | unsupported x | closed | error x => exact iff_of_true (timed_stopped rfl) trivial

lemma timed_step_iff (hs : Timed s) (h : s.Step cr c e t) : Timed t ↔ InTime c s e := by
  obtain ⟨hr,h⟩ := Worker.of_step h
  cases e with
  | task k h' a b o =>
    obtain ⟨-,d,-,rfl⟩ := h
    exact timed_startTask_iff hr hs h' d b.frames o
  | channelClosed =>
    obtain ⟨-,rfl⟩ := h
    exact iff_of_true (timed_stopped rfl) trivial
  | inbound m =>
    obtain ⟨-,rfl⟩ := h
    exact timed_receive_iff hr hs m
  | bodyFrame k now od ot =>
    obtain ⟨-,rfl⟩ := h
    exact timed_pollSource_iff hr hs now od ot
  | messageTimeout =>
    obtain ⟨-,rfl⟩ := h
    exact iff_of_true (timed_stopped rfl) trivial

/-- The timeout is armed exactly if a message is not answered, whenever the select is
entered, in exactly the runs whose steps all meet `InTime`. -/
theorem armed_iff_unanswered (cr : HttpCrate) (c : Config ρ) (es : List Event) (t : Worker) :
    Throughout Timed (Worker.Step cr c) (Worker.new c) es t ↔
      Run (Guarded (InTime c) (Worker.Step cr c)) (Worker.new c) es t :=
  throughout_iff_guarded (fun _ => True) (fun _ _ _ _ _ => trivial)
    (fun _ _ _ _ hs h => timed_step_iff hs h) trivial
    (fun _ => iff_of_false Bool.false_ne_true fun ⟨_,h⟩ => h rfl)

end

local instance : RegexEngine Empty where
  findAt r _ := nomatch r

def chunkwise : Config Empty where
  processingMode := { requestHeaderMode := .skip, requestBodyMode := .streamed }
  frameMergeLimit := 1

def chunkAnswered : List Event :=
  [.task .request (some []) .streamed ⟨[.ok (.data [97]),.ok (.data [98])],false,nofun⟩ {},
    .bodyFrame .request 0 {} {},.inbound (.body .request (some {}))]

/-- The only chunk that was sent is answered, and the timeout strikes while the next one
is waited for. -/
theorem armed_for_nothing : ∃ t u, Run (Worker.Step tokenNames chunkwise) (.new chunkwise)
    chunkAnswered t ∧ ¬ Timed t ∧ ¬ Unanswered t ∧
    t.Step tokenNames chunkwise .messageTimeout u := by
  refine ⟨_,_,.of_exec rfl,fun h => ?_,?_,rfl⟩
  · exact absurd ((h rfl).mp rfl) (by rintro ⟨_ | _,h⟩ <;> exact h rfl)
  · rintro ⟨_ | _,h⟩ <;> exact h rfl

end ArionGateway.ExtProcTimeouts
