import ArionGateway.ExtProcAnswers

/-!
# Replies of the worker to the filter

The filter that has sent a task waits for a status on its reply channel. While the
worker has no stream, no active timeout and no source to read, only the filter could
wake it, which is waiting. The worker gets there if it cannot connect: the status for
this error is computed, but not returned. The runs in which it does not are exactly
those in which every step meets `Wakes`, and a run in which every attempt to connect
succeeds is one of them. No reply channel is answered twice, in any run.
-/
namespace ArionGateway.ExtProcReplies
open Option
open ByteStrings Executions ExtProcAnswers ExtProcMoves ExtProcWorker HeaderMutations
  HttpHeaders StringMatchers List
open Processing (endsWithHeaders process processHeaders returnStatus_eq waitsForBody)
open Bool (and_eq_true_iff eq_false_iff or_eq_false_iff)

open Worker (closeIfDone processing_modify_self outboundEnabled pollSource receive of_step advance new)
/-- The worker waits although it owes a status, and nothing but the filter can wake it. -/
structure Stuck (s : Worker) : Prop where
  running : s.running = true
  unanswered : ∃ kind, (s.processing kind).replyChannel.isSome = true
  noStream : s.bidiStream = none
  noTimeout : s.timeoutState.active = false
  noSource : ∀ kind, s.outboundEnabled kind = false

/-- At the end of the body a data frame goes to the processor. -/
def sendsData (modes : Modes) (p : Processing) : Bool :=
  modes.shouldProcessBody && (p.framesBuffer.dataBuffer.isSome ||
    (!p.endOfStream && (p.framesBuffer.trailersBuffer.isNone || !modes.shouldProcessTrailers)))

def sendsTrailers (modes : Modes) (p : Processing) : Bool :=
  modes.shouldProcessTrailers && p.framesBuffer.trailersBuffer.isSome

/-- At the end of the body a data frame is passed on without the processor, and the
status is returned before. -/
def passesData (modes : Modes) (p : Processing) : Bool :=
  !modes.shouldProcessBody && p.framesBuffer.dataBuffer.isSome

section
variable {ρ : Type} (config : Config ρ)

/-- When a task leaves the worker with something to wait for. -/
def TaskWakes (modes : Modes) (p : Processing) (headers : Option HeaderMap) (bridge : FrameBridge)
    (outcome : Outcome) : Prop :=
  if headers.isSome ∧ modes.shouldProcessHeaders = true then
    outcome.connects = true ∨ (config.sendBodyWithoutWaitingForHeaderResponse = true ∧
        endsWithHeaders modes bridge = false ∧ p.complete = false)
  else
    bridge.sourceHasBodyOrTrailers = true → waitsForBody modes bridge = true → p.complete = false

/-- When the end of a body does so, for a message whose status is not returned. -/
def EndWakes (modes : Modes) (p : Processing) (onData onTrailers : Outcome) : Prop :=
  passesData modes p = true ∨
    (p.inflightFrames = [] ∧ sendsData modes p = false ∧ sendsTrailers modes p = false) ∨
    (sendsData modes p = true ∧ onData.connects = true) ∨
    (sendsTrailers modes p = true ∧ onTrailers.connects = true)

/-- When reading the source does so: an error ends the reading. -/
def SourceWakes (modes : Modes) (p : Processing) (onData onTrailers : Outcome) : Prop :=
  match p.frameBridge.source with
  | .ok _::_ => True
  | .error _::_ => False
  | [] => EndWakes modes p onData onTrailers

/-- When a step leaves the worker with something to wait for. -/
def Wakes (s : Worker) : Event → Prop
  | .task kind headers prepared body outcome =>
    s.bidiStream = none → ∀ bridge,
      prepareProcessingData config.maxReceiveMessageLength prepared body = some bridge →
      TaskWakes config (s.overridableModes kind) (s.processing kind) headers bridge outcome
  | .bodyFrame kind _ onData onTrailers =>
    s.bidiStream = none → (s.processing kind).replyChannel.isSome = true →
      SourceWakes (s.overridableModes kind) (s.processing kind) onData onTrailers
  | _ => True

variable {c : Config ρ} {s t u : Worker} {kind : MessageType} {f : BodyFrame} {m : Message}
  {o onData onTrailers : Outcome}

/-- There is still no stream, and nothing else changes but the processing of one type
of message. -/
structure Idle (kind : MessageType) (s t : Worker) : Prop where
  bidiStream : t.bidiStream = none
  running : t.running = s.running
  modes : t.overridableModes = s.overridableModes
  active : t.timeoutState.active = true → s.timeoutState.active = true
  others : ∀ other, other ≠ kind → t.processing other = s.processing other

lemma Idle.trans (hst : Idle kind s t) (htu : Idle kind t u) : Idle kind s u where
  bidiStream := htu.bidiStream
  running := htu.running.trans hst.running
  modes := htu.modes.trans hst.modes
  active h := hst.active (htu.active h)
  others other h := (htu.others other h).trans (hst.others other h)

lemma idle_modify (h : s.bidiStream = none) (f : Processing → Processing) :
    Idle kind s (s.modify kind f) where
  bidiStream := h
  running := rfl
  modes := rfl
  active h := h
  others _ h := s.processing_modify_of_ne kind f h

/-- A turn that sends a chunk or not, and returns the status or not; if it sends one, it
fails to connect. -/
structure Turn (kind : MessageType) (sends answers : Bool) (s t : Worker) : Prop
    extends Idle kind s t where
  streaming : (t.processing kind).streamingBodyEnabled = (s.processing kind).streamingBodyEnabled
  complete : (t.processing kind).complete = (s.processing kind).complete
  endOfStream : (t.processing kind).endOfStream = (s.processing kind).endOfStream
  source : (t.processing kind).frameBridge.source = (s.processing kind).frameBridge.source
  reply : (t.processing kind).replyChannel =
    if answers then none else (s.processing kind).replyChannel
  inflight : (t.processing kind).inflightFrames = [] ↔
    sends = false ∧ (s.processing kind).inflightFrames = []

lemma replyChannel_returnStatus (p : Processing) (st : ProcessingStatus) :
    (p.returnStatus st).replyChannel = none := by
  unfold Processing.returnStatus
  split
  · rfl
  · assumption

lemma idle_of_moves {os : List Outcome} (h : Moves kind os s t) (hn : s.bidiStream = none)
    (hf : ∀ o ∈ os, o.connects = false) : Idle kind s t := by
  induction h with
  | nil => exact ⟨hn,rfl,rfl,id,fun _ _ => rfl⟩
  | edit q _ _ ih => exact (idle_modify hn _).trans (ih hn hf)
  | forward c m o _ ih =>
    rw [forward_fails hn (hf o mem_cons_self)] at ih
    exact ih hn fun o ho => hf o (mem_cons_of_mem _ ho)

lemma turn_of_emits {os : List Outcome} {b a : Bool} (h : Emits kind os a s t)
    (hb : b = false ↔ os = []) (hn : s.bidiStream = none)
    (hf : ∀ o ∈ os, o.connects = false) : Turn kind b a s t := by
  obtain ⟨hst,hc,he,hso⟩ := h.moves.steady
  refine ⟨idle_of_moves h.moves hn hf,hst,hc,he,hso,h.reply hn hf,?_⟩
  rw [h.inflight,hb]

section
variable (c onData onTrailers)

lemma bufferEndOfStream_flags (m : Modes) (p : Processing) {b : FramesBuffer}
    (h : ({ p with complete := true }.bufferEndOfStream m).framesBuffer = b) :
    (m.shouldProcessBody && b.dataBuffer.isSome) = sendsData m p ∧
      (m.shouldProcessTrailers && b.trailersBuffer.isSome) = sendsTrailers m p ∧
      (!m.shouldProcessBody && b.dataBuffer.isSome) = passesData m p := by
  subst h
  unfold Processing.bufferEndOfStream sendsData sendsTrailers passesData
    FramesBuffer.pushEndOfStream
  cases hb : m.shouldProcessBody with
  | false => simp
  | true =>
    cases he : p.endOfStream with
    | true => simp
    | false =>
      cases hd : p.framesBuffer.dataBuffer <;> cases ht : p.framesBuffer.trailersBuffer <;>
        cases m.shouldProcessTrailers <;> simp [hd,ht]

lemma emits_ending (s : Worker) (kind : MessageType) :
    Emits kind ((if sendsData (s.overridableModes kind) (s.processing kind) then [onData] else []) ++
      if sendsTrailers (s.overridableModes kind) (s.processing kind) then [onTrailers] else [])
      (passesData (s.overridableModes kind) (s.processing kind)) (s.ending kind)
      ((s.ending kind).emptyBuffer c kind onData onTrailers) := by
  obtain ⟨hd,ht,hp⟩ := bufferEndOfStream_flags (s.overridableModes kind) (s.processing kind) rfl
  rw [← hd,← ht,← hp]
  exact emits_emptyBuffer (s.ending kind) kind c onData onTrailers
    (congrArg Processing.framesBuffer (s.processing_modify_self kind _))

lemma bidiStream_closeIfDone : (s.closeIfDone kind).bidiStream = s.bidiStream := by
  unfold closeIfDone
  split_ifs <;> rfl

lemma idle_closeIfDone (h : s.bidiStream = none) : Idle kind s (s.closeIfDone kind) := by
  unfold closeIfDone
  split_ifs
  · refine ⟨h,rfl,rfl,nofun,fun ot hne => ?_⟩
    rw [Worker.setTimeoutActive_processing,Worker.processing_modify_of_ne _ _ _ hne]
  · exact ⟨h,rfl,rfl,id,fun _ _ => rfl⟩

lemma replyChannel_closeIfDone : ((s.closeIfDone kind).processing kind).replyChannel =
      if (s.processing kind).inflightFrames = [] then none
      else (s.processing kind).replyChannel := by
  unfold closeIfDone
  simp only [List.isEmpty_iff]
  split_ifs
  · rw [Worker.setTimeoutActive_processing,processing_modify_self]
    exact replyChannel_returnStatus ..
  · rfl

lemma inflightFrames_closeIfDone :
    ((s.closeIfDone kind).processing kind).inflightFrames = (s.processing kind).inflightFrames := by
  unfold closeIfDone
  split_ifs
  · rw [Worker.setTimeoutActive_processing,processing_modify_self,returnStatus_eq]
  · rfl

/-- At the end of the body a frame goes out, with a connection. -/
def EndConnects (modes : Modes) (p : Processing) : Prop :=
  (sendsData modes p = true ∧ onData.connects = true) ∨
    (sendsTrailers modes p = true ∧ onTrailers.connects = true)

/-- Without one the status is returned, if data is passed on or nothing is in flight. -/
def EndAnswers (modes : Modes) (p : Processing) : Prop :=
  passesData modes p = true ∨
    (p.inflightFrames = [] ∧ sendsData modes p = false ∧ sendsTrailers modes p = false)

variable {ms : Modes} {p : Processing} (hmd : s.overridableModes kind = ms)
  (hp : s.processing kind = p)
include hmd hp

lemma handleEnd_isSome (h : s.bidiStream.isSome = true ∨ EndConnects onData onTrailers ms p) :
    (s.handleEnd c kind onData onTrailers).bidiStream.isSome = true := by
  subst hmd hp
  change ((((s.ending kind).emptyBuffer c kind onData onTrailers).closeIfDone
    kind).modify kind _).bidiStream.isSome = true
  rw [Worker.modify_bidiStream,bidiStream_closeIfDone,
    (emits_ending c onData onTrailers s kind).moves.isSome_iff]
  refine h.imp_right ?_
  rintro (⟨h,hc⟩ | ⟨h,hc⟩)
  · exact ⟨onData,by simp [h],hc⟩
  · exact ⟨onTrailers,by simp [h],hc⟩

lemma handleEnd_idle (h : s.bidiStream = none) (hn : ¬ EndConnects onData onTrailers ms p)
    (ht : s.handleEnd c kind onData onTrailers = t) :
    Idle kind s t ∧ t.outboundEnabled kind = false ∧
      ((t.processing kind).replyChannel.isSome = true ↔
        p.replyChannel.isSome = true ∧ ¬ EndAnswers ms p) ∧
      ((t.processing kind).inflightFrames = [] ↔
        (sendsData ms p || sendsTrailers ms p) = false ∧ p.inflightFrames = []) := by
  subst hmd hp ht
  obtain ⟨hd,htr⟩ := not_or.mp hn
  have he : Idle kind s (s.ending kind) := idle_modify h _
  have hb : (s.ending kind).processing kind =
      { s.processing kind with complete := true }.bufferEndOfStream (s.overridableModes kind) :=
    s.processing_modify_self kind _
  have htu := turn_of_emits (emits_ending c onData onTrailers s kind) (b := sendsData
      (s.overridableModes kind) (s.processing kind) || sendsTrailers (s.overridableModes kind)
      (s.processing kind)) (by simp) he.bidiStream (by
    simp only [mem_append,mem_ite_nil_right,mem_singleton]
    rintro o (⟨h,rfl⟩ | ⟨h,rfl⟩)
    · exact eq_false_iff.mpr fun hc => hd ⟨h,hc⟩
    · exact eq_false_iff.mpr fun hc => htr ⟨h,hc⟩)
  obtain ⟨framesBuffer,parkedTrailers,hq⟩ :=
    { s.processing kind with complete := true }.bufferEndOfStream_eq (s.overridableModes kind)
  have hpr : (s.ending kind).processing kind =
      { s.processing kind with complete := true, framesBuffer, parkedTrailers } := hb.trans hq
  set emptied := (s.ending kind).emptyBuffer c kind onData onTrailers with hep
  have hre : s.handleEnd c kind onData onTrailers =
      (emptied.closeIfDone kind).modify kind (·.setStreamingBody false) := rfl
  have hi := htu.inflight
  have hr := htu.reply
  have hco := htu.complete
  rw [hpr] at hi hr hco
  have hcl : Idle kind emptied (emptied.closeIfDone kind) := idle_closeIfDone htu.bidiStream
  rw [hre]
  refine ⟨(he.trans htu.toIdle).trans (hcl.trans (idle_modify hcl.bidiStream _)),?_,?_,?_⟩
  · rw [outboundEnabled,processing_modify_self]
    rfl
  · rw [processing_modify_self]
    change ((emptied.closeIfDone kind).processing kind).replyChannel.isSome = true ↔ _
    rw [replyChannel_closeIfDone,hr]
    simp only [hi,or_eq_false_iff]
    unfold EndAnswers
    split_ifs with hem hpa
    · simp [hem]
    · simp [hpa]
    · simpa [hpa] using fun _ hni hd htr => hem ⟨⟨hd,htr⟩,hni⟩
  · rw [processing_modify_self]
    change ((emptied.closeIfDone kind).processing kind).inflightFrames = [] ↔ _
    rw [inflightFrames_closeIfDone]
    exact hi

end

lemma handleFrame_turn (now : ℕ) (h : s.bidiStream = none) :
    (s.handleFrame c kind f now o).bidiStream.isSome = true ∨
      ∃ se a, (o.connects = true → se = false) ∧
        Turn kind se a s (s.handleFrame c kind f now o) := by
  obtain ⟨a,he⟩ := emits_handleFrame s kind c o f now
  refine or_iff_not_imp_left.mpr fun hn => ?_
  have hf := (not_or.mp (he.moves.isSome_iff.not.mp hn)).2
  split_ifs at he hf
  · have hc : o.connects = false := by simpa using hf
    exact ⟨true,a,by simp [hc],turn_of_emits he (by simp) h (by simpa using hc)⟩
  · exact ⟨false,a,fun _ => rfl,turn_of_emits he (by simp) h nofun⟩

variable {cr : HttpCrate} {co : Config ρ} {k : MessageType}

lemma bidiStream_recoverOrFailure (err : ExtProcError) (msg : Str) :
    (s.recoverOrFailure co err msg).bidiStream = s.bidiStream := by
  unfold Worker.recoverOrFailure
  cases co.failureModeAllow <;> rfl

variable [RegexEngine ρ]

lemma bidiStream_receive (m : Inbound) : (s.receive cr co m).bidiStream = s.bidiStream := by
  cases m with
  | overrideMessageTimeout se n =>
    simp only [receive,Worker.handleTimeoutExtension]
    split_ifs
    · rfl
    · split <;> rfl
  | immediateResponse re =>
    simp only [receive,Worker.rejectImmediateResponse,Worker.handleImmediateResponse]
    split_ifs <;> rfl
  | headers k re mv =>
    cases re with
    | none => rfl
    | some re =>
      simp only [receive,Worker.handleHeaders,Worker.overrideModes]
      split <;> rfl
  | body k re => cases re <;> rfl
  | trailers k he => rfl
  | unsupported text | closed | error m =>
    rw [receive,Worker.bidiStream_finish,bidiStream_recoverOrFailure]

lemma isSome_step {e : Event} (h : s.bidiStream.isSome = true) (hst : s.Step cr co e t) :
    t.bidiStream.isSome = true := by
  obtain ⟨-,hst⟩ := of_step hst
  cases e with
  | task k he pr bo ou =>
    obtain ⟨-,bridge,-,rfl⟩ := hst
    unfold Worker.startTask
    dsimp only
    split
    · exact (forward_isSome_iff ..).mpr (.inl h)
    · exact h
  | channelClosed =>
    obtain ⟨-,rfl⟩ := hst
    exact h
  | inbound me =>
    obtain ⟨-,rfl⟩ := hst
    rw [bidiStream_receive]
    exact h
  | bodyFrame k now onData onTrailers =>
    obtain ⟨-,rfl⟩ := hst
    unfold pollSource
    split
    next frame rest _ =>
      obtain ⟨_,he⟩ := emits_handleFrame (s.advance k rest) k co onData frame now
      exact he.moves.isSome_iff.mpr (.inl h)
    · exact h
    · exact handleEnd_isSome co onData onTrailers rfl rfl (.inl h)
  | messageTimeout =>
    obtain ⟨-,rfl⟩ := hst
    rw [Worker.bidiStream_finish,bidiStream_recoverOrFailure]
    exact h

end

/-- Without a stream no timeout is active, at most one source is read, and the message
whose status is not returned is the one whose source is read. -/
structure Awake (s : Worker) : Prop where
  timeout : s.timeoutState.active = true → s.bidiStream.isSome = true
  single : s.bidiStream = none → ∀ kind other, (s.processing kind).streamingBodyEnabled = true →
    (s.processing other).streamingBodyEnabled = true → other = kind
  reading : s.bidiStream = none → ∀ kind, (s.processing kind).replyChannel.isSome = true →
    s.outboundEnabled kind = true

/-- Whether a step leaves something to wait for. -/
def Decides (condition : Prop) (t : Worker) : Prop :=
  (condition → Awake t) ∧ (¬ condition → Stuck t)

variable {ρ : Type} {ct : HttpCrate} {cn : Config ρ} {s t : Worker}
  {kind : MessageType} {e : Event}

lemma Awake.not_stuck (h : Awake s) : ¬ Stuck s := by
  rintro ⟨-,⟨kind,hr⟩,hst,-,hso⟩
  exact absurd (h.reading hst kind hr) (by rw [hso kind]; decide)

lemma awake_of_isSome (h : s.bidiStream.isSome = true) : Awake s where
  timeout _ := h
  single hn := by rw [hn] at h; cases h
  reading hn := by rw [hn] at h; cases h

lemma streaming_of_outbound (h : s.outboundEnabled kind = true) :
    (s.processing kind).streamingBodyEnabled = true := (and_eq_true_iff.mp h).1

lemma awake_or_stuck (h : Awake s) (hru : s.running = true) (hi : Idle kind s t)
    (ho : ∀ ot, ot ≠ kind → (s.processing ot).streamingBodyEnabled = false)
    (hn : s.bidiStream = none) :
    Decides ((t.processing kind).replyChannel.isSome = true → t.outboundEnabled kind = true) t := by
  have ha : t.timeoutState.active = false := by
    refine eq_false_iff.mpr fun ha => ?_
    have hso := h.timeout (hi.active ha)
    rw [hn] at hso
    cases hso
  have hst : ∀ ot, ot ≠ kind → (t.processing ot).streamingBodyEnabled = false := by
    intro ot hne
    rw [hi.others ot hne]
    exact ho ot hne
  constructor
  · intro hre
    refine ⟨fun hc => ?_,fun _ fi se hf hse => ?_,fun _ ot hr => ?_⟩
    · rw [ha] at hc
      cases hc
    · have hki : ∀ k, (t.processing k).streamingBodyEnabled = true → k = kind := by
        intro k hk
        by_contra hne
        rw [hst k hne] at hk
        cases hk
      rw [hki fi hf,hki se hse]
    · by_cases hne : ot = kind
      · rw [hne] at hr ⊢
        exact hre hr
      · rw [hi.others ot hne] at hr
        have hc := streaming_of_outbound (h.reading hn ot hr)
        rw [ho ot hne] at hc
        cases hc
  · intro hno
    obtain ⟨hr,hou⟩ := Classical.not_imp.mp hno
    refine ⟨hi.running.trans hru,⟨kind,hr⟩,hi.bidiStream,ha,?_⟩
    intro ot
    by_cases hne : ot = kind
    · rw [hne]
      exact eq_false_iff.mpr hou
    · rw [outboundEnabled,hst ot hne]
      rfl

lemma process_with_headers (m : Modes) (p : Processing) {he : Option HeaderMap}
    (h : he.isSome ∧ m.shouldProcessHeaders = true) (b : FrameBridge)
    (o : List FrameResult) (hst : p.streamingBodyEnabled = false) :
    ∃ me a, p.process cn kind m he b o = (a, some me) ∧
      a.replyChannel.isSome = true ∧ a.complete = p.complete ∧
      a.streamingBodyEnabled = (cn.sendBodyWithoutWaitingForHeaderResponse &&
        !endsWithHeaders m b) := by
  obtain ⟨hso,hm⟩ := h
  obtain ⟨he,rfl⟩ := isSome_iff_exists.mp hso
  simp only [process,hm,processHeaders]
  split_ifs with hse
  · exact ⟨_,_,rfl,rfl,rfl,hse.symm⟩
  · exact ⟨_,_,rfl,rfl,rfl,hst.trans (eq_false_iff.mpr hse).symm⟩

lemma process_without_headers (m : Modes) (p : Processing) {headers : Option HeaderMap}
    (h : ¬ (headers.isSome ∧ m.shouldProcessHeaders = true)) (b : FrameBridge)
    (o : List FrameResult) :
    ∃ a, p.process cn kind m headers b o = (a, none) ∧ a.complete = p.complete ∧
      (a.replyChannel.isSome = true ↔ b.sourceHasBodyOrTrailers = true ∧ waitsForBody m b = true) ∧
      (a.replyChannel.isSome = true → a.streamingBodyEnabled = true) := by
  have hb : waitsForBody m b = true → m.shouldProcessBody = true :=
    fun h => (and_eq_true_iff.mp (and_eq_true_iff.mp h).1).2
  unfold process
  split
  next hm => exact absurd ⟨rfl,hm⟩ h
  · split_ifs with hwo
    · obtain ⟨hso,-⟩ := and_eq_true_iff.mp hwo
      simp only [Processing.processBodyAndTrailers,Processing.tryEnableStreamingBody,hso,
        if_true,Bool.and_true]
      split_ifs with hw
      · exact ⟨_,rfl,rfl,iff_of_true rfl ⟨trivial,hw⟩,fun _ => rfl⟩
      · refine ⟨_,rfl,by rw [returnStatus_eq],?_,?_⟩
        · rw [replyChannel_returnStatus]
          exact iff_of_false (by decide) fun h => hw h.2
        · exact nofun
    · refine ⟨_,rfl,by rw [returnStatus_eq],?_,?_⟩
      · rw [replyChannel_returnStatus]
        refine iff_of_false (by decide) fun h => hwo ?_
        rw [h.1,hb h.2]
        rfl
      · exact nofun

lemma task_awake_iff (h : Awake s) (hru : s.running = true)
    (hsr : s.streamingEnabled = false) (hn : s.bidiStream = none)
    (headers : Option HeaderMap) (b : FrameBridge) (original : List FrameResult) (o : Outcome) :
    Decides (TaskWakes cn (s.overridableModes kind) (s.processing kind) headers b o)
      (s.startTask cn kind headers b original o) := by
  have ho : ∀ ot, (s.processing ot).streamingBodyEnabled = false := by
    obtain ⟨hrq,hre⟩ := or_eq_false_iff.mp hsr
    intro ot
    cases ot
    · exact hrq
    · exact hre
  have hca := fun after : Processing => awake_or_stuck h hru
    (idle_modify hn fun _ => after : Idle kind s _) (fun ot _ => ho ot) hn
  simp only [processing_modify_self,outboundEnabled] at hca
  obtain ⟨pr,message,hp,hsta⟩ := s.startTask_eq kind cn headers b original o
  rw [hsta]
  by_cases hh : headers.isSome ∧ (s.overridableModes kind).shouldProcessHeaders = true
  · obtain ⟨_,after,ha,hr,hc,hst⟩ :=
      process_with_headers (s.overridableModes kind) (s.processing kind) hh b original (ho kind)
    cases hp.symm.trans ha
    rw [TaskWakes,if_pos hh]
    dsimp only
    cases hco : o.connects with
    | true =>
      refine ⟨fun _ => awake_of_isSome ((forward_isSome_iff ..).mpr (.inr hco)),fun hno => ?_⟩
      exact absurd (.inl rfl) hno
    | false =>
      rw [forward_fails (s := s.modify kind _) hn hco]
      have hi := hca pr
      simpa [hr,hc,hst,and_assoc] using hi
  · obtain ⟨after,ha,hc,hr,hst⟩ :=
      process_without_headers (s.overridableModes kind) (s.processing kind) hh b original
    cases hp.symm.trans ha
    rw [TaskWakes,if_neg hh]
    have hi : (pr.replyChannel.isSome = true → (pr.streamingBodyEnabled && !pr.complete) = true) ↔
        (b.sourceHasBodyOrTrailers = true → waitsForBody (s.overridableModes kind) b = true →
          (s.processing kind).complete = false) := by
      rw [← hc,← and_imp,← hr]
      refine forall_congr' fun hso => ?_
      rw [hst hso,Bool.true_and,Bool.not_eq_true']
    rw [← hi]
    exact hca pr

lemma end_awake_iff (hn : s.bidiStream = none) (hca : ∀ t, Idle kind s t →
      Decides ((t.processing kind).replyChannel.isSome = true → t.outboundEnabled kind = true) t)
    (o ot : Outcome) : Decides ((s.processing kind).replyChannel.isSome = true →
        EndWakes (s.overridableModes kind) (s.processing kind) o ot)
      (s.handleEnd cn kind o ot) := by
  by_cases hc : EndConnects o ot (s.overridableModes kind) (s.processing kind)
  · refine ⟨fun _ => awake_of_isSome (handleEnd_isSome cn o ot rfl rfl (.inr hc)),fun hno => ?_⟩
    exact absurd (fun _ => .inr (.inr hc)) hno
  · obtain ⟨hi,he,hr,-⟩ := handleEnd_idle cn o ot rfl rfl hn hc rfl
    have hiff : EndWakes (s.overridableModes kind) (s.processing kind) o ot ↔
        EndAnswers (s.overridableModes kind) (s.processing kind) :=
      or_congr_right (or_iff_left hc)
    have ha := hca _ hi
    rw [he,hr] at ha
    rw [hiff]
    simpa using ha

lemma bodyFrame_awake_iff (h : Awake s) (hru : s.running = true)
    (hou : s.outboundEnabled kind = true) (hn : s.bidiStream = none) (now : ℕ) (o ot : Outcome) :
    Decides (Wakes cn s (.bodyFrame kind now o ot)) (s.pollSource cn kind now o ot) := by
  have ho : ∀ oh, oh ≠ kind → (s.processing oh).streamingBodyEnabled = false := by
    intro oh hne
    refine eq_false_iff.mpr fun hst => hne ?_
    exact h.single hn kind oh (streaming_of_outbound hou) hst
  have hc := fun (t : Worker) (hi : Idle kind s t) =>
    awake_or_stuck h hru hi ho hn
  have hw : Wakes cn s (.bodyFrame kind now o ot) ↔
      ((s.processing kind).replyChannel.isSome = true →
        SourceWakes (s.overridableModes kind) (s.processing kind) o ot) := by
    simp [Wakes,hn]
  rw [hw]
  unfold SourceWakes pollSource
  rcases hsr : (s.processing kind).frameBridge.source with _ | ⟨_ | fr,re⟩
  · exact end_awake_iff hn hc o ot
  · have hr : Idle kind s (s.advance kind re) := idle_modify hn _
    have hiff := hc _ (hr.trans (idle_modify hr.bidiStream fun p =>
      { p with complete := true }))
    simpa [outboundEnabled,advance] using hiff
  · refine ⟨fun _ => ?_,fun hno => absurd (fun _ => trivial) hno⟩
    have hr : Idle kind s (s.advance kind re) := idle_modify hn _
    rcases handleFrame_turn now hr.bidiStream with hso | ⟨se,answers,-,ht⟩
    · exact awake_of_isSome hso
    · refine (hc _ (hr.trans ht.toIdle)).1 fun _ => ?_
      rw [outboundEnabled,ht.streaming,ht.complete,advance,processing_modify_self]
      exact hou

variable [RegexEngine ρ]

lemma step_awake_iff (h : Awake s) (hsp : s.Step ct cn e t) : Decides (Wakes cn s e) t := by
  cases hst : s.bidiStream with
  | some st =>
    have hso : s.bidiStream.isSome = true := by rw [hst]; rfl
    have hw : Wakes cn s e := by
      cases e <;> simp [Wakes,hst]
    exact ⟨fun _ => awake_of_isSome (isSome_step hso hsp),fun hn => absurd hw hn⟩
  | none =>
    obtain ⟨hr,ha⟩ := of_step hsp
    cases e with
    | task kind he pr bo outcome =>
      obtain ⟨hsr,bridge,hb,rfl⟩ := ha
      have hw : Wakes cn s (.task kind he pr bo outcome) ↔
          TaskWakes cn (s.overridableModes kind) (s.processing kind) he bridge outcome := by
        simp [Wakes,hst,hb]
      rw [hw]
      exact task_awake_iff h hr hsr hst he bridge bo.frames outcome
    | channelClosed =>
      obtain ⟨-,rfl⟩ := ha
      exact ⟨fun _ => ⟨h.timeout,h.single,h.reading⟩,fun hn => absurd trivial hn⟩
    | inbound me =>
      obtain ⟨hso,-⟩ := ha
      rw [hst] at hso
      cases hso
    | bodyFrame kind now onData onTrailers =>
      obtain ⟨ho,rfl⟩ := ha
      exact bodyFrame_awake_iff h hr ho hst now onData onTrailers
    | messageTimeout =>
      obtain ⟨hac,-⟩ := ha
      have hso := h.timeout hac
      rw [hst] at hso
      cases hso

/-- Each attempt of a step connects. -/
def Connects : Event → Prop
  | .task _ _ _ _ outcome => outcome.connects = true
  | .bodyFrame _ _ onData onTrailers => onData.connects = true ∧ onTrailers.connects = true
  | _ => True

/-- As long as no attempt was made, nothing is in flight, a body that is waited for was
collected without an error, and a body for the processor is read to its end once. -/
structure Fresh (modes : Modes) (p : Processing) : Prop where
  inflight : p.inflightFrames = []
  source : p.replyChannel.isSome = true → ∀ e, .error e ∉ p.frameBridge.source
  ongoing : modes.shouldProcessBody = true →
    p.endOfStream = false ∧ (p.complete = true → p.streamingBodyEnabled = true)

def AllFresh (s : Worker) : Prop :=
  s.running = true → s.bidiStream = none →
    ∀ kind, Fresh (s.overridableModes kind) (s.processing kind)

variable {ρ : Type} {cra : HttpCrate} {cf : Config ρ} {s t : Worker}
  {ki : MessageType} {e : Event}

lemma prepared_without_error {l : ℕ} {pr : BodyMode} {b : Body}
    {br : FrameBridge} (h : prepareProcessingData l pr b = some br)
    (hb : br.sourceHasBody = some true) (e : BodyError) : .error e ∉ br.source := by
  rcases prepareProcessingData_cases h with ⟨bt,ht,rfl⟩ | ⟨byt,trailers,_,_,rfl⟩
  · unfold FrameBridge.new at hb
    rcases ht with rfl | rfl <;> cases he : b.isEndStream <;> rw [he] at hb <;> cases hb
  · change .error e ∉ (toBuffered byt trailers).frames
    unfold toBuffered
    split_ifs <;> simp

lemma fresh_process {m : Modes} {p : Processing} (h : Fresh m p)
    {headers : Option HeaderMap} {b : FrameBridge} {o : List FrameResult} {after : Processing}
    (ha : p.process cf ki m headers b o = (after, none))
    (hso : b.sourceHasBody = some true → ∀ e, .error e ∉ b.source) : Fresh m after := by
  unfold process at ha
  split at ha
  · cases ha
  · split_ifs at ha with hwo
    · obtain ⟨hh,-⟩ := and_eq_true_iff.mp hwo
      simp only [Processing.processBodyAndTrailers,Processing.tryEnableStreamingBody,hh,
        if_true,Bool.and_true] at ha
      split_ifs at ha with hw
      · cases ha
        have hk : b.sourceHasBody = some true := of_decide_eq_true (and_eq_true_iff.mp hw).2
        exact ⟨h.inflight,fun _ => hso hk,fun hb => ⟨(h.ongoing hb).1,fun _ => rfl⟩⟩
      · cases ha
        exact ⟨h.inflight,nofun,fun hb => ⟨(h.ongoing hb).1,fun _ => rfl⟩⟩
    · cases ha
      exact ⟨h.inflight,nofun,h.ongoing⟩

lemma sends_at_end {m : Modes} {p : Processing} (hb : m.shouldProcessBody = true)
    (he : p.endOfStream = false) (hd : sendsData m p = false) : sendsTrailers m p = true := by
  simp only [sendsData,hb,he,Bool.true_and,Bool.not_false,or_eq_false_iff] at hd
  obtain ⟨-,ht,hm⟩ := hd
  rw [sendsTrailers,Bool.and_eq_true,← not_isNone,ht]
  exact ⟨by simpa using hm,rfl⟩

lemma fresh_turn {m : Modes} {f : BodyFrame} {re : List FrameResult} {a : Bool}
    (h : Fresh m (s.processing ki)) (hsr : (s.processing ki).frameBridge.source = .ok f::re)
    (ht : Turn ki false a (s.advance ki re) t) : Fresh m (t.processing ki) := by
  obtain ⟨-,hst,hc,he,hre,hr,hi⟩ := ht
  rw [advance,processing_modify_self] at hst hc he
  rw [advance,processing_modify_self] at hre hr hi
  refine ⟨hi.mpr ⟨rfl,h.inflight⟩,fun hso er hm => ?_,fun hbo => ?_⟩
  · have hb : (s.processing ki).replyChannel.isSome = true := by
      rw [hr] at hso
      cases a with
      | true => cases hso
      | false => exact hso
    refine h.source hb er ?_
    rw [hre] at hm
    rw [hsr]
    exact mem_cons_of_mem _ hm
  · rw [he,hc,hst]
    exact h.ongoing hbo

lemma fresh_pollSource (h : Fresh (s.overridableModes ki) (s.processing ki))
    (hn : s.bidiStream = none) (ho : s.outboundEnabled ki = true) (now : ℕ)
    {o ot : Outcome} (hd : o.connects = true) (htr : ot.connects = true)
    (ha : (s.pollSource cf ki now o ot).bidiStream = none) :
    Idle ki s (s.pollSource cf ki now o ot) ∧ Fresh (s.overridableModes ki)
        ((s.pollSource cf ki now o ot).processing ki) := by
  have hr : ∀ re, Idle ki s (s.advance ki re) := fun re => idle_modify hn _
  unfold pollSource at ha ⊢
  rcases hso : (s.processing ki).frameBridge.source with _ | ⟨er | fr,re⟩
  · have hno : ¬ EndConnects o ot (s.overridableModes ki) (s.processing ki) := by
      intro hc
      rw [hso] at ha
      exact isSome_iff_ne_none.mp (handleEnd_isSome cf o ot rfl rfl (.inr hc)) ha
    have hq : sendsData (s.overridableModes ki) (s.processing ki) = false ∧
        sendsTrailers (s.overridableModes ki) (s.processing ki) = false := by
      simpa [EndConnects,hd,htr] using hno
    obtain ⟨hid,-,hre,hi⟩ := handleEnd_idle cf o ot rfl rfl hn hno rfl
    refine ⟨hid,hi.mpr ⟨?_,h.inflight⟩,fun hsm => ?_,fun hb => ?_⟩
    · rw [hq.1,hq.2]
      rfl
    · exact absurd (.inr ⟨h.inflight,hq⟩) (hre.mp hsm).2
    · have hse := sends_at_end hb (h.ongoing hb).1 hq.1
      rw [hq.2] at hse
      cases hse
  · refine ⟨(hr re).trans (idle_modify (hr re).bidiStream _),?_⟩
    simp only [advance,processing_modify_self]
    refine ⟨h.inflight,fun hre => ?_,fun hb => ⟨(h.ongoing hb).1,fun _ => ?_⟩⟩
    · refine absurd ?_ (h.source hre er)
      rw [hso]
      exact mem_cons_self
    · exact streaming_of_outbound ho
  · rw [hso] at ha
    rcases handleFrame_turn now (hr re).bidiStream with hsm | ⟨se,answers,hse,ht⟩
    · exact absurd ha (isSome_iff_ne_none.mp hsm)
    · rw [hse hd] at ht
      exact ⟨(hr re).trans ht.toIdle,fresh_turn h hso ht⟩

lemma awake_new (c : Config ρ) : Awake (new c) where
  timeout := nofun
  single _ _ _ := nofun
  reading _ _ := nofun

variable [RegexEngine ρ]

lemma wakes_of_connects (h : AllFresh s) (hc : Connects e)
    (hsp : s.Step cra cf e t) : Wakes cf s e := by
  obtain ⟨hr,ha⟩ := of_step hsp
  cases e with
  | task ki he pr bo ou =>
    intro hn br _
    unfold TaskWakes
    split_ifs
    · exact .inl hc
    · intro _ hw
      have hb : (s.overridableModes ki).shouldProcessBody = true :=
        (and_eq_true_iff.mp (and_eq_true_iff.mp hw).1).2
      refine eq_false_iff.mpr fun hco => ?_
      have hst := ((h hr hn ki).ongoing hb).2 hco
      obtain ⟨hrq,hre⟩ := or_eq_false_iff.mp ha.1
      cases ki
      · rw [hrq] at hst
        cases hst
      · rw [hre] at hst
        cases hst
  | channelClosed | inbound message | messageTimeout => trivial
  | bodyFrame ki now onData onTrailers =>
    intro hn hrp
    have hf := h hr hn ki
    unfold SourceWakes
    split
    · trivial
    next e rest hso =>
      refine hf.source hrp e ?_
      rw [hso]
      exact mem_cons_self
    · cases hd : sendsData (s.overridableModes ki) (s.processing ki) with
      | true => exact .inr (.inr (.inl ⟨hd,hc.1⟩))
      | false =>
        cases ht : sendsTrailers (s.overridableModes ki) (s.processing ki) with
        | true => exact .inr (.inr (.inr ⟨ht,hc.2⟩))
        | false => exact .inr (.inl ⟨hf.inflight,hd,ht⟩)

lemma allFresh_step (h : AllFresh s) (haw : Awake s) (hc : Connects e)
    (hsp : s.Step cra cf e t) : AllFresh t := by
  intro hr hn
  have hno : s.bidiStream = none := by
    by_contra hso
    have hst := isSome_step (isSome_iff_ne_none.mpr hso) hsp
    rw [hn] at hst
    cases hst
  obtain ⟨hb,ha⟩ := of_step hsp
  have hf := h hb hno
  have hon : ∀ ki, Idle ki s t → Fresh (s.overridableModes ki) (t.processing ki) →
      ∀ ot, Fresh (t.overridableModes ot) (t.processing ot) := by
    intro ki hi hk ot
    rw [hi.modes]
    by_cases ho : ot = ki
    · rw [ho]
      exact hk
    · rw [hi.others ot ho]
      exact hf ot
  cases e with
  | task ki he pp bo ou =>
    obtain ⟨-,bridge,hbr,rfl⟩ := ha
    obtain ⟨pr,message,hp,hsr⟩ := s.startTask_eq ki cf he bridge bo.frames ou
    rw [hsr] at hn hon ⊢
    cases message with
    | some message =>
      exact absurd hn (isSome_iff_ne_none.mp ((forward_isSome_iff ..).mpr (.inr hc)))
    | none =>
      refine hon ki (idle_modify hno _) ?_
      rw [processing_modify_self]
      exact fresh_process (hf ki) hp (prepared_without_error hbr)
  | channelClosed =>
    obtain ⟨-,rfl⟩ := ha
    cases hr
  | inbound message =>
    obtain ⟨hso,-⟩ := ha
    rw [hno] at hso
    cases hso
  | bodyFrame ki now onData onTrailers =>
    obtain ⟨hou,rfl⟩ := ha
    obtain ⟨hi,hk⟩ := fresh_pollSource (hf ki) hno hou now hc.1 hc.2 hn
    exact hon ki hi hk
  | messageTimeout =>
    obtain ⟨hac,-⟩ := ha
    have hso := haw.timeout hac
    rw [hno] at hso
    cases hso

lemma not_stuck_iff_wakes (h : Awake s) (hsp : s.Step cra cf e t) : ¬ Stuck t ↔ Wakes cf s e := by
  obtain ⟨ha,hst⟩ := step_awake_iff h hsp
  exact ⟨fun hn => not_not.mp fun hw => hn (hst hw),fun hw => (ha hw).not_stuck⟩

lemma guarded_of_connects {es : List Event} (h : AllFresh s) (ha : Awake s)
    (hr : Run (Guarded (fun _ e => Connects e) (Worker.Step cra cf)) s es t) :
    Run (Guarded (Wakes cf) (Worker.Step cra cf)) s es t := by
  induction hr with
  | nil => exact .nil _
  | cons hst _ ih =>
    obtain ⟨hc,hst⟩ := hst
    have hw := wakes_of_connects h hc hst
    exact .cons ⟨hw,hst⟩ (ih (allFresh_step h ha hc hst) ((step_awake_iff ha hst).1 hw))

/-- The runs that never get stuck are those in which every step leaves the worker with
something to wait for; if every attempt connects, this is so. No channel is answered
twice. -/
theorem replies_iff {ρ : Type} [RegexEngine ρ] (crate : HttpCrate) (config : Config ρ)
    (es : List Event) (t : Worker) :
    (Throughout (¬ Stuck ·) (Worker.Step crate config) (.new config) es t ↔
      Run (Guarded (Wakes config) (Worker.Step crate config)) (.new config) es t) ∧
    (Run (Guarded (fun _ e => Connects e) (Worker.Step crate config)) (.new config) es t →
      Run (Guarded (Wakes config) (Worker.Step crate config)) (.new config) es t) ∧
    (Run (Worker.Step crate config) (.new config) es t →
      ∀ kind, ((t.processing kind).answered.map Prod.fst).Nodup) := by
  refine ⟨?_,guarded_of_connects (fun _ _ _ => ⟨rfl,nofun,fun _ => ⟨rfl,nofun⟩⟩) (awake_new config),fun hr kind => ?_⟩
  · have hsr := awake_new config
    refine throughout_iff_guarded_while Awake ?_ ?_ hsr hsr.not_stuck
    · exact fun s e t h hst hn => (step_awake_iff h hst).1 ((not_stuck_iff_wakes h hst).mp hn)
    · exact fun s e t h _ hst => not_stuck_iff_wakes h hst
  · exact (hr.invariant AllSettled (fun _ _ _ h hst => h.step hst)
      (fun _ => ⟨nodup_nil,nofun,nofun⟩) kind).nodup

local instance : RegexEngine Empty where
  findAt r _ := nomatch r

def defaults : Config Empty := {}

def refused : Event :=
  .task .request (some []) .none ⟨[],true,fun _ => rfl⟩ { connects := false }

/-- No status is returned, and the filter waits for one. -/
theorem refused_stuck : ∃ t, (Worker.new defaults).Step tokenNames defaults refused t ∧
    Stuck t ∧ (t.processing .request).answered = [] := by
  refine ⟨_,rfl,⟨rfl,⟨.request,rfl⟩,rfl,rfl,fun kind => ?_⟩,rfl⟩
  cases kind <;> rfl

end ArionGateway.ExtProcReplies
