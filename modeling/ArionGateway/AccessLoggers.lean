import ArionGateway.ByteStrings

/-!
# Access loggers

A logger keeps the writers of every target and pairs formatted messages with them by position. A
connection formats its messages for the entries it was started with, so after a change of the
configuration a position may stand for another entry.
-/
namespace ArionGateway.AccessLoggers
open ByteStrings List

inductive AccessLogSink where
  | file (path : Str)
  | stderr
  | stdout
  deriving DecidableEq

inductive Target where
  | listener (name : Str)
  | listenerFilterChain (name : Str) (hash : UInt64)
  | admin
  deriving DecidableEq

/-- A message with the sink of the entry it was formatted for, which the logger is not told. -/
structure FormattedMessage where
  entry : AccessLogSink
  text : Str
  deriving DecidableEq

inductive AccessLogMessage where
  | configure (target : Target) (newConf : List AccessLogSink)
  | message (target : Target) (fmt : List FormattedMessage)

structure LogWriter where
  conf : AccessLogSink

/-- `written` is what the sinks were given so far. -/
structure AccessLogger where
  map : Target → Option (List LogWriter)
  written : List (AccessLogSink × FormattedMessage)

def AccessLogger.new : AccessLogger := ⟨fun _ => none, []⟩

/-- `opens` says which sinks the handle of a writer can be made for. -/
def LogWriter.getMut (opens : AccessLogSink → Bool) (self : LogWriter) : Option AccessLogSink :=
  if opens self.conf then some self.conf else none

def updateRequired (loggers : Option (List LogWriter)) (newConf : List AccessLogSink) : Bool :=
  match loggers with
  | none => true
  | some v => v.length != newConf.length || (v.zip newConf).any fun (l, n) => l.conf != n

section
variable (opens : AccessLogSink → Bool) (self : AccessLogger)

def AccessLogger.handle : AccessLogMessage → AccessLogger
  | .configure target newConf =>
    if updateRequired (self.map target) newConf then
      { self with map := Function.update self.map target (some (newConf.map LogWriter.mk)) }
    else self
  | .message target fmt =>
    match self.map target with
    | some loggers =>
      { self with written := self.written++(loggers.zip fmt).filterMap fun (log, fmt) =>
          (log.getMut opens).map fun sink => (sink, fmt) }
    | none => self

variable (buffers : List (List AccessLogMessage))

/-- The loop: each turn drains a buffer of what the channel has. -/
def AccessLogger.run : AccessLogger :=
  buffers.foldl (fun self buffer => buffer.foldl (AccessLogger.handle opens) self) self

/-- The sinks of the target that were configured last. -/
def configured (target : Target) (queue : List AccessLogMessage) : Option (List AccessLogSink) :=
  queue.reverse.findSome? fun
    | .configure t newConf => if t = target then some newConf else none
    | .message _ _ => none

/-- A message finds, at the position of each of its entries, the sink of that entry or one that
cannot be opened. -/
def Finds (before : List AccessLogMessage) : AccessLogMessage → Prop
  | .configure _ _ => True
  | .message target fmt =>
    ∀ sinks, configured target before = some sinks →
      ∀ p ∈ sinks.zip fmt, opens p.1 = true → p.1 = p.2.entry

def Aligned (queue : List AccessLogMessage) : Prop :=
  ∀ before m, before++[m] <+: queue → Finds opens before m

def AccessLogger.sinks (target : Target) : Option (List AccessLogSink) :=
  (self.map target).map (·.map LogWriter.conf)

variable {opens} {queue : List AccessLogMessage}

lemma updateRequired_eq_false {v : List LogWriter} {newConf : List AccessLogSink} :
    updateRequired (some v) newConf = false ↔ v.map LogWriter.conf = newConf := by
  unfold updateRequired
  induction v generalizing newConf with
  | nil => cases newConf <;> simp
  | cons l v ih =>
    cases newConf with
    | nil => simp
    | cons n newConf =>
      simp [← ih]
      tauto

lemma sinks_configure (s : AccessLogger) (t target : Target) (newConf : List AccessLogSink) :
    (s.handle opens (.configure t newConf)).sinks target =
      if t = target then some newConf else s.sinks target := by
  unfold AccessLogger.handle AccessLogger.sinks
  dsimp only
  by_cases ht : t = target
  · subst ht
    cases hv : s.map t with
    | none => simp [updateRequired,Function.comp_def]
    | some v =>
      cases hu : updateRequired (some v) newConf with
      | true => simp [Function.comp_def]
      | false => simp [hv,updateRequired_eq_false.mp hu]
  · rw [if_neg ht]
    split_ifs
    · simp [Function.update_of_ne (Ne.symm ht)]
    · rfl

lemma sinks_message (s : AccessLogger) (t target : Target) (fmt : List FormattedMessage) :
    (s.handle opens (.message t fmt)).sinks target = s.sinks target := by
  unfold AccessLogger.handle
  dsimp only
  split <;> rfl

lemma sinks_foldl (queue : List AccessLogMessage) (target : Target) :
    (queue.foldl (AccessLogger.handle opens) .new).sinks target = configured target queue := by
  induction queue using reverseRecOn with
  | nil => rfl
  | append_singleton queue m ih =>
    unfold configured
    rw [foldl_concat,reverse_concat]
    cases m with
    | configure t newConf =>
      rw [sinks_configure,ih]
      by_cases ht : t = target <;> simp [ht,configured]
    | message t fmt => exact (sinks_message ..).trans ih

lemma aligned_concat {m : AccessLogMessage} :
    Aligned opens (queue++[m]) ↔ Aligned opens queue ∧ Finds opens queue m := by
  constructor
  · intro h
    exact ⟨fun before m' hp => h before m' (hp.trans ( prefix_append ..)),h queue m prefix_rfl⟩
  · intro h before m' hp
    rcases prefix_concat_iff.mp hp with he | hp
    · obtain ⟨rfl,hm⟩ := append_inj' he rfl
      cases hm
      exact h.2
    · exact h.1 before m' hp

lemma own_handle {s : AccessLogger} {m : AccessLogMessage}
    (hs : ∀ target, s.sinks target = configured target queue) :
    (∀ w ∈ (s.handle opens m).written, w.1 = w.2.entry) ↔
      (∀ w ∈ s.written, w.1 = w.2.entry) ∧ Finds opens queue m := by
  unfold AccessLogger.handle Finds
  cases m with
  | configure target newConf =>
    dsimp only
    split_ifs <;> simp
  | message target fmt =>
    simp only [← hs,AccessLogger.sinks]
    cases s.map target with
    | none => simp
    | some loggers =>
      simp only [forall_mem_append,forall_mem_filterMap,Option.map_some,Option.some.injEq,
        forall_eq',zip_map_left,forall_mem_map]
      refine and_congr_right fun _ => forall₂_congr fun p _ => ?_
      by_cases ho : opens p.1.conf <;> simp [LogWriter.getMut]

/-- However the queue is cut into buffers, messages are written only to the sinks of their own
entries exactly when each one finds its sinks under the configuration of the moment. -/
theorem written_iff_aligned (buffers : List (List AccessLogMessage)) :
    (∀ w ∈ (AccessLogger.new.run opens buffers).written, w.1 = w.2.entry) ↔
      Aligned opens buffers.flatten := by
  rw [AccessLogger.run,← foldl_flatten]
  induction buffers.flatten using reverseRecOn with
  | nil => simp [AccessLogger.new,Aligned]
  | append_singleton queue m ih =>
    rw [aligned_concat,← ih,foldl_concat,own_handle (sinks_foldl queue)]

end

/-- The two entries of the target changed places before the message was logged. -/
theorem reordered_sinks_swapped :
    let queue : List AccessLogMessage := [.configure .admin [.stdout, .stderr],
      .configure .admin [.stderr, .stdout], .message .admin [⟨.stdout, []⟩, ⟨.stderr, []⟩]]
    (AccessLogger.new.run (fun _ => true) [queue]).written =
      [(.stderr, ⟨.stdout, []⟩), (.stdout, ⟨.stderr, []⟩)] := by
  decide

end ArionGateway.AccessLoggers
