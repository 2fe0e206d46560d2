import ArionGateway.ExtProcMoves

/-!
# Answers of the worker

A reply channel is taken when a status is sent on it, and a new task brings a new one.
In every run of the worker no reply channel is answered twice.
-/
namespace ArionGateway.ExtProcAnswers
open List
open ByteStrings ExtProcMoves ExtProcWorker HeaderMutations HttpHeaders StringMatchers

/-- Reply channels are numbered by their tasks; none was answered twice, and one that
waits was not answered. -/
structure Settled (p : Processing) : Prop where
  nodup : (p.answered.map Prod.fst).Nodup
  below : ∀ reply ∈ p.answered.map Prod.fst, reply < p.tasks
  pending : ∀ reply, p.replyChannel = some reply → reply < p.tasks ∧ reply ∉ p.answered.map Prod.fst

namespace Settled
variable {ρ : Type} {co : Config ρ} {k : MessageType} {m : Modes} {p q : Processing}
  {r : CommonResponse}

section

variable (h : Settled p)
include h

lemma of_eq (hr : q.replyChannel = p.replyChannel) (ha : q.answered = p.answered)
    (ht : q.tasks = p.tasks) : Settled q := by
  refine ⟨?_,?_,?_⟩
  · rw [ha]
    exact h.nodup
  · rw [ha,ht]
    exact h.below
  · rw [hr,ha,ht]
    exact h.pending

lemma returnStatus (st : ProcessingStatus) : Settled (p.returnStatus st) := by
  unfold Processing.returnStatus
  split
  next reply hre =>
    obtain ⟨hlt,hn⟩ := h.pending reply hre
    refine ⟨?_,fun r hr => ?_,nofun⟩
    · rw [map_append,nodup_append]
      refine ⟨h.nodup,nodup_singleton _,fun a ha b hb => ?_⟩
      rintro rfl
      rw [mem_singleton.mp hb] at ha
      exact hn ha
    · rw [map_append,mem_append] at hr
      rcases hr with hr | hr
      · exact h.below r hr
      · rw [mem_singleton.mp hr]
        exact hlt
  · exact h

lemma setStreamingBody (v : Bool) : Settled (p.setStreamingBody v) := h.of_eq rfl rfl rfl

lemma tryEnableStreamingBody : Settled p.tryEnableStreamingBody := by
  unfold Processing.tryEnableStreamingBody
  split_ifs <;> exact h.of_eq rfl rfl rfl

lemma injectFrame (f : BodyFrame) : Settled (p.injectFrame f) := h.of_eq rfl rfl rfl

lemma process (headers : Option HeaderMap) (b : FrameBridge) (original : List FrameResult) :
    Settled (p.process co k m headers b original).1 := by
  have hb : Settled { p with
      replyChannel := some p.tasks, tasks := p.tasks+1, frameBridge := b, original } := by
    refine ⟨h.nodup,fun r hr => (h.below r hr).trans (Nat.lt_succ_self _),fun r hr => ?_⟩
    cases hr
    exact ⟨Nat.lt_succ_self _,fun hr => (h.below _ hr).false⟩
  unfold Processing.process
  split
  · unfold Processing.processHeaders
    dsimp only
    split_ifs
    · exact hb.of_eq rfl rfl rfl
    · exact hb.of_eq rfl rfl rfl
  · dsimp only
    split_ifs
    · unfold Processing.processBodyAndTrailers
      dsimp only
      split_ifs
      · exact hb.tryEnableStreamingBody
      · exact hb.tryEnableStreamingBody.returnStatus _
    · exact (hb.returnStatus _).of_eq rfl rfl rfl

lemma handleHeadersResponse : Settled (p.handleHeadersResponse co k m r) := by
  unfold Processing.handleHeadersResponse
  dsimp only
  split_ifs
  · exact tryEnableStreamingBody (h.of_eq rfl rfl rfl)
  · exact (h.returnStatus _).of_eq rfl rfl rfl
  · exact (h.returnStatus _).of_eq rfl rfl rfl
  · exact (h.returnStatus _).tryEnableStreamingBody

lemma returnBodyStatus : Settled (p.returnBodyStatus co k r) := by
  unfold Processing.returnBodyStatus
  split_ifs
  · exact (h.returnStatus _).of_eq rfl rfl rfl
  · exact h

lemma injectChunk : Settled (p.injectChunk r) := by
  unfold Processing.injectChunk
  split
  · exact h.of_eq rfl rfl rfl
  · split <;> exact h.of_eq rfl rfl rfl

lemma handleBodyResponse (a : Bool) : Settled (p.handleBodyResponse co k r a).1 := by
  have ha : Settled ((p.returnBodyStatus co k r).injectChunk r) := h.returnBodyStatus.injectChunk
  unfold Processing.handleBodyResponse
  dsimp only
  split_ifs
  · exact ha.of_eq rfl rfl rfl
  · exact ha.of_eq rfl rfl rfl
  · exact ha

end

lemma handleTrailersResponse [RegexEngine ρ] (c : HttpCrate) (h : Settled p)
    (hm : Option HeaderMutation) : Settled (p.handleTrailersResponse c co k hm) := by
  unfold Processing.handleTrailersResponse
  split
  · have hb : Settled { p with trailers := none } := h.of_eq rfl rfl rfl
    exact (hb.returnStatus _).of_eq rfl rfl rfl
  · exact (h.returnStatus _).of_eq rfl rfl rfl

lemma bufferEndOfStream (h : Settled p) : Settled (p.bufferEndOfStream m) := by
  unfold Processing.bufferEndOfStream
  split_ifs <;> exact h.of_eq rfl rfl rfl

lemma edit (h : Settled p) (he : Edit p q) : Settled q := by
  cases he with
  | pass st f => exact (h.returnStatus st).injectFrame f
  | fields => exact h.of_eq rfl rfl rfl

end Settled

def AllSettled (s : Worker) : Prop := ∀ kind, Settled (s.processing kind)

namespace AllSettled
variable {ρ : Type} {c : Config ρ} {s : Worker} {ki : MessageType}

section

variable (h : AllSettled s)
include h

variable {f : Processing → Processing}

lemma modify (hf : Settled (f (s.processing ki))) : AllSettled (s.modify ki f) := by
  intro o
  by_cases ho : o = ki
  · rw [ho,Worker.processing_modify_self]
    exact hf
  · rw [Worker.processing_modify_of_ne _ _ _ ho]
    exact h o

lemma modifyBoth (hf : ∀ p, Settled p → Settled (f p)) :
    AllSettled (s.modifyBoth f) := fun o => hf _ (h o)

lemma setTimeoutActive (a : Bool) : AllSettled (s.setTimeoutActive a) := h

lemma finish : AllSettled s.finish := fun o => (h o).of_eq rfl rfl rfl

lemma sent (m : Message) : AllSettled (s.sent ki m) := by
  refine (h.modify ?_).setTimeoutActive true
  exact (h ki).of_eq rfl rfl rfl

lemma forward (m : Message) (o : Outcome) : AllSettled (s.forwardToExternalProcessor c ki m o) := by
  unfold Worker.forwardToExternalProcessor
  split
  · split_ifs
    · exact AllSettled.sent (s := { s with bidiStream := some {} }) h m
    · exact h
  · split_ifs
    · exact h.sent m
    · exact h.modifyBoth fun p hp => hp.returnStatus _

lemma startTask (headers : Option HeaderMap) (b : FrameBridge) (o : List FrameResult)
    (ou : Outcome) : AllSettled (s.startTask c ki headers b o ou) := by
  obtain ⟨pr,message,hp,hst⟩ := s.startTask_eq ki c headers b o ou
  have hm : AllSettled (s.modify ki fun _ => pr) := by
    have ha : Settled ((s.processing ki).process c ki (s.overridableModes ki)
        headers b o).1 := (h ki).process headers b o
    rw [hp] at ha
    exact h.modify ha
  rw [hst]
  cases message with
  | none => exact hm
  | some message => exact hm.forward message ou

lemma moves {os : List Outcome} {t : Worker} (hm : Moves ki os s t) : AllSettled t := by
  induction hm with
  | nil => exact h
  | edit q he _ ih => exact ih (h.modify ((h ki).edit he))
  | forward c m o _ ih => exact ih (h.forward m o)

lemma closeIfDone : AllSettled (s.closeIfDone ki) := by
  unfold Worker.closeIfDone
  split_ifs
  · refine (h.modify ?_).setTimeoutActive false
    exact ((h ki).returnStatus _).of_eq rfl rfl rfl
  · exact h

lemma handleEnd (o ot : Outcome) : AllSettled (s.handleEnd c ki o ot) := by
  have hb : Settled { s.processing ki with complete := true } := (h ki).of_eq rfl rfl rfl
  have he : AllSettled (s.ending ki) := h.modify hb.bufferEndOfStream
  have hc : AllSettled (((s.ending ki).emptyBuffer c ki o ot).closeIfDone ki) :=
    (he.moves (emits_emptyBuffer _ ki c o ot rfl).moves).closeIfDone
  unfold Worker.handleEnd
  refine hc.modify ?_
  exact (hc ki).setStreamingBody false

lemma advance (r : List FrameResult) : AllSettled (s.advance ki r) :=
  h.modify ((h ki).of_eq rfl rfl rfl)

lemma recoverOrFailure (err : ExtProcError) (msg : Str) :
    AllSettled (s.recoverOrFailure c err msg) := by
  refine AllSettled.setTimeoutActive ?_ false
  split_ifs <;> exact h.modifyBoth fun p hp => (hp.returnStatus _).of_eq rfl rfl rfl

lemma rejectImmediateResponse : AllSettled (s.rejectImmediateResponse c) := by
  have hd : ∀ ki, AllSettled (s.drainOpenBridge ki) := by
    intro ki
    refine h.modify ?_
    exact ((h ki).returnStatus _).of_eq rfl rfl rfl
  unfold Worker.rejectImmediateResponse
  split_ifs
  · exact hd _
  · exact hd _
  · exact h
  · exact h.modifyBoth fun p hp => (hp.returnStatus _).of_eq rfl rfl rfl

end

variable [RegexEngine ρ] {cr : HttpCrate}

lemma answerImmediately (h : AllSettled s) (r : ImmediateResponse) (t : Option HeaderMap) :
    AllSettled (s.answerImmediately cr c ki r t) := by
  refine (h.modify ?_).setTimeoutActive false
  exact ((h ki).returnStatus _).of_eq rfl rfl rfl

lemma handleImmediateResponse (h : AllSettled s) (r : ImmediateResponse) :
    AllSettled (s.handleImmediateResponse cr c r) := by
  have ht : AllSettled (s.modify .request fun p => { p with parkedTrailers := none }) :=
    h.modify ((h .request).of_eq rfl rfl rfl)
  unfold Worker.handleImmediateResponse
  split_ifs
  · exact ht.answerImmediately r _
  · exact ht.answerImmediately r _
  · refine (h.modifyBoth fun p hp => ?_).setTimeoutActive false
    exact hp.of_eq rfl rfl rfl

lemma receive (h : AllSettled s) (m : Inbound) : AllSettled (s.receive cr c m) := by
  cases m with
  | overrideMessageTimeout se n =>
    simp only [Worker.receive,Worker.handleTimeoutExtension]
    split_ifs
    · exact (h.modifyBoth fun p hp => hp.returnStatus _).finish
    · split
      · exact h
      · exact h.finish
  | immediateResponse re =>
    rw [Worker.receive]
    split_ifs
    · exact h.rejectImmediateResponse.finish
    · exact (h.handleImmediateResponse re).finish
  | headers ki re mo =>
    cases re with
    | none => exact h.finish
    | some re =>
      refine AllSettled.setTimeoutActive ?_ false
      have hm : AllSettled (s.overrideModes c ki mo) := by
        unfold Worker.overrideModes
        split <;> exact h
      have hb : Settled ((s.overrideModes c ki mo).processing
          ki).answerHeaders := (hm ki).of_eq rfl rfl rfl
      exact hm.modify hb.handleHeadersResponse
  | body ki re =>
    cases re with
    | none => exact h.finish
    | some re =>
      have hb : Settled (s.processing ki).answerBody := (h ki).of_eq rfl rfl rfl
      exact (h.modify (hb.handleBodyResponse _)).setTimeoutActive _
  | trailers ki he =>
    have hb : Settled (s.processing ki).answerTrailers := (h ki).of_eq rfl rfl rfl
    exact (h.modify (hb.handleTrailersResponse cr he)).setTimeoutActive _
  | unsupported text | closed | error m => exact (h.recoverOrFailure _ _).finish

lemma step {t : Worker} {e : Event} (h : AllSettled s) (hst : s.Step cr c e t) : AllSettled t := by
  obtain ⟨-,ha⟩ := Worker.of_step hst
  cases e with
  | task ki he pr b ou =>
    obtain ⟨-,bridge,-,rfl⟩ := ha
    exact h.startTask he bridge b.frames ou
  | channelClosed =>
    obtain ⟨-,rfl⟩ := ha
    exact h.finish
  | inbound me =>
    obtain ⟨-,rfl⟩ := ha
    exact h.receive me
  | bodyFrame ki now od o =>
    obtain ⟨-,rfl⟩ := ha
    unfold Worker.pollSource
    split
    next f re _ =>
      obtain ⟨_,he⟩ := emits_handleFrame (s.advance ki re) ki c od f now
      exact (h.advance re).moves he.moves
    · exact (h.advance _).modify ((h.advance _ ki).of_eq rfl rfl rfl)
    · exact h.handleEnd od o
  | messageTimeout =>
    obtain ⟨-,rfl⟩ := ha
    exact (h.recoverOrFailure _ _).finish

end AllSettled

end ArionGateway.ExtProcAnswers
