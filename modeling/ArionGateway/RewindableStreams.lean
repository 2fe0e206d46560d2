import ArionGateway.ByteStreams
import ArionGateway.ByteStrings

/-!
# Streams whose head can be read twice

A rewindable stream first keeps everything that is read from it. Rewound, it
delivers what it kept again before it goes on with the inner stream.
-/
namespace ArionGateway.RewindableStreams
open ByteStreams ByteStrings List

variable {R : Type}

inductive RewindableHeadAsyncStream (R : Type) where
  | headBufferingReadOnlyMode (inner : R) (buffer : Str)
  | fullReplayMode (inner : R) (replayBuffer : Str) (readPos : ℕ)

namespace RewindableHeadAsyncStream

def new (inner : R) : RewindableHeadAsyncStream R := .headBufferingReadOnlyMode inner []

def intoStream : RewindableHeadAsyncStream R → R
  | .headBufferingReadOnlyMode inner _ => inner
  | .fullReplayMode inner _ _ => inner

def intoRewoundStream : RewindableHeadAsyncStream R → RewindableHeadAsyncStream R
  | .headBufferingReadOnlyMode inner buffer => .fullReplayMode inner buffer 0
  | .fullReplayMode inner replayBuffer readPos => .fullReplayMode inner replayBuffer readPos

/-- `poll_read` with room for `n` bytes. -/
def read (r : Reader UInt8 R) : RewindableHeadAsyncStream R → ℕ → Str × RewindableHeadAsyncStream R
  | .headBufferingReadOnlyMode inner buffer, n =>
    let (bytes, inner) := r.read inner n
    (bytes, .headBufferingReadOnlyMode inner (buffer++bytes))
  | .fullReplayMode inner replayBuffer readPos, n =>
    let remaining := replayBuffer.drop readPos
    if remaining ≠ [] then
      let toCopy := min remaining.length n
      (remaining.take toCopy, .fullReplayMode inner replayBuffer (readPos+toCopy))
    else
      let (bytes, inner) := r.read inner n
      (bytes, .fullReplayMode inner replayBuffer readPos)

def bytes (r : Reader UInt8 R) : RewindableHeadAsyncStream R → Str
  | .headBufferingReadOnlyMode inner _ => r.bytes inner
  | .fullReplayMode inner replayBuffer readPos => replayBuffer.drop readPos++r.bytes inner

/-- The stream before anything was read from it. -/
def Began (r : Reader UInt8 R) (whole : Str) : RewindableHeadAsyncStream R → Prop
  | .headBufferingReadOnlyMode inner buffer => buffer++r.bytes inner = whole
  | .fullReplayMode _ _ _ => False

variable (r : Reader UInt8 R)

variable (s : RewindableHeadAsyncStream R) (n : ℕ)

lemma read_append : (s.read r n).1++(s.read r n).2.bytes r = s.bytes r := by
  cases s with
  | headBufferingReadOnlyMode i b => exact r.read_append i n
  | fullReplayMode i rb rp =>
    rw [read]
    split_ifs with hr
    · dsimp only [bytes]
      rw [← append_assoc,← drop_drop,take_append_drop]
    · rw [not_not] at hr
      dsimp only [bytes]
      rw [hr]
      exact r.read_append i n

lemma length_read_le : (s.read r n).1.length ≤ n := by
  cases s with
  | headBufferingReadOnlyMode i b => exact r.length_read_le i n
  | fullReplayMode i rb rp =>
    rw [read]
    split_ifs
    · exact (length_take_le ..).trans (min_le_right ..)
    · exact r.length_read_le i n

lemma read_ne_nil (hn : 0 < n) (hne : s.bytes r ≠ []) : (s.read r n).1 ≠ [] := by
  cases s with
  | headBufferingReadOnlyMode i b => exact r.read_ne_nil i n hn hne
  | fullReplayMode i rb rp =>
    rw [read]
    split_ifs with hr
    · have hpos := length_pos_iff.mpr hr
      refine length_pos_iff.mp ?_
      rw [length_take]
      omega
    · rw [not_not] at hr
      rw [bytes,hr] at hne
      exact r.read_ne_nil i n hn hne

def reader : Reader UInt8 (RewindableHeadAsyncStream R) where
  read := read r
  bytes := bytes r
  read_append := read_append r
  length_read_le := length_read_le r
  read_ne_nil := read_ne_nil r

variable {r}

lemma began_new (inner : R) : (new inner).Began r (r.bytes inner) := rfl

variable {whole : Str}

lemma began_read (s : RewindableHeadAsyncStream R) (n : ℕ) (h : s.Began r whole) :
    (s.read r n).2.Began r whole := by
  cases s with
  | headBufferingReadOnlyMode i b =>
    dsimp only [read,Began] at h ⊢
    rw [append_assoc,r.read_append,h]
  | fullReplayMode i rb rp => cases h

lemma bytes_intoRewoundStream {s : RewindableHeadAsyncStream R}
    (h : s.Began r whole) : s.intoRewoundStream.bytes r = whole := by
  cases s with
  | headBufferingReadOnlyMode i b => exact h
  | fullReplayMode i rb rp => cases h

lemma bytes_intoStream {s : RewindableHeadAsyncStream R} (h : s.Began r whole) :
    r.bytes s.intoStream = s.bytes r := by
  cases s with
  | headBufferingReadOnlyMode i b => rfl
  | fullReplayMode i rb rp => cases h

end RewindableHeadAsyncStream

end ArionGateway.RewindableStreams
