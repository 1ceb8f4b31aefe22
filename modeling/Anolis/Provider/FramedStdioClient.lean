import Anolis.Protocol

/-!
# Frames over a provider's pipes

`framed_stdio_client.cpp` on a POSIX system: `write_frame` and `read_frame` with their loops over
partial writes and reads. A frame is a length in four bytes, little end first, and that many bytes.

One step is one system call or one look at the clock, and what it answers comes from the schedule:
the provider's bytes in any chunks, the end of the stream, interruptions, errors, any timing. A step
answers with the client's error text after it. `frameNext_failed` is what the session relies on: a
`read_frame` that fails leaves an error.
-/

namespace Anolis.Provider

/-- `kMaxFrameSize`. -/
def kMaxFrameSize : Nat := 1024 * 1024

def tooLarge (len : Nat) : String := "Frame too large: " ++ toString len ++ " bytes"

/-! ### Waiting -/

/-- What `poll` answers on the stdout pipe. `hungUp` stands for `POLLERR`, `POLLHUP` and
`POLLNVAL` without `POLLIN`. -/
inductive PollOutcome
  | invalidPipe
  | failed (reason : String)
  | expired
  | readable
  | hungUp
  | other
deriving DecidableEq

/-- `wait_for_data`: its answer, and the error text it leaves. -/
def waitForData : PollOutcome → Bool × String
  | .invalidPipe => (false, "Invalid stdout pipe")
  | .failed reason => (false, "poll failed: " ++ reason)
  | .expired | .other => (false, "")
  | .readable => (true, "")
  | .hungUp => (false, "poll error on stdout pipe")

/-! ### `write_frame` -/

/-- What a `write` answers. -/
inductive WriteOutcome
  | wrote (n : Nat)
  | again
  | brokenPipe
  | failed (reason : String)
deriving DecidableEq

/-- A `write_frame` of `size` bytes under way: `left` bytes of the prefix or of the payload are
still to be written. -/
structure FrameWrite where
  size : Nat
  payload : Bool
  left : Nat
deriving DecidableEq

/-- Where a `write_exact` is: at the head of its loop, or at the write. -/
inductive WritePc
  | clock (w : FrameWrite)
  | write (w : FrameWrite)
deriving DecidableEq

/-- What a step of a `write_frame` does: go on, or end. -/
inductive WriteNext
  | go (pc : WritePc)
  | done
  | failed (error : String)

/-- The place after `n` of the bytes that were left have been written. -/
def FrameWrite.wrote (w : FrameWrite) (n : Nat) : WriteNext :=
  if n < w.left then .go (.clock { w with left := w.left - n })
  else if w.payload || w.size = 0 then .done
  else .go (.clock { w with payload := true, left := w.size })

/-- The first place of a `write_frame`. -/
def writeStart (size : Nat) : WriteNext :=
  if kMaxFrameSize < size then .failed (tooLarge size)
  else .go (.clock ⟨size, false, 4⟩)

/-- A step of `write_frame`: `elapsed` is what the clock shows, `outcome` what `write` answers. -/
def writeNext (timeoutMs elapsed : Int) (outcome : WriteOutcome) : WritePc → Option WriteNext
  | .clock w =>
    if 0 ≤ timeoutMs ∧ timeoutMs ≤ elapsed then some (.failed "Timeout writing frame")
    else some (.go (.write w))
  | .write w =>
    match outcome with
    | .wrote n =>
      if n = 0 then some (.failed "Write returned 0 bytes")
      else if n ≤ w.left then some (w.wrote n)
      else none
    | .again => some (.go (.clock w))
    | .brokenPipe => some (.failed "Broken pipe (provider terminated)")
    | .failed reason => some (.failed ("Write failed: " ++ reason))

/-! ### `read_frame` -/

/-- What a `read` answers. -/
inductive ReadResult
  | bytes (chunk : List UInt8)
  | eof
  | interrupted
  | failed (reason : String)
deriving DecidableEq

/-- A `read_frame` under way: `got` are the bytes read so far of the prefix or of the payload,
which has `need`. -/
structure FrameRead where
  payload : Bool
  need : Nat
  got : List UInt8
deriving DecidableEq

/-- Where a `read_exact` is: at the head of its loop, at the wait, or at the read. -/
inductive FramePc
  | clock (r : FrameRead)
  | poll (r : FrameRead)
  | read (r : FrameRead)
deriving DecidableEq

/-- The first place of a `read_frame`. -/
def FramePc.first : FramePc := .clock ⟨false, 4, []⟩

/-- What a step of a `read_frame` does: go on, or end. -/
inductive FrameNext
  | go (pc : FramePc)
  | frame (data : List UInt8)
  | failed

/-- The length a prefix stands for. -/
def frameLength (prefixBytes : List UInt8) : Nat :=
  prefixBytes.foldr (fun b len => b.toNat + 256 * len) 0

/-- What `read_exact` and `read_frame` leave where there is no error text yet. -/
def orError (error text : String) : String := if error = "" then text else error

/-- The place after all bytes of a `read_exact` are there, and the error text. -/
def FrameRead.complete (r : FrameRead) (error : String) (got : List UInt8) : String × FrameNext :=
  if r.payload then (error, .frame got)
  else if kMaxFrameSize < frameLength got then (tooLarge (frameLength got), .failed)
  else if frameLength got = 0 then (error, .frame [])
  else (error, .go (.clock ⟨true, frameLength got, []⟩))

/-- What the schedule supplies to a step of `read_frame`. -/
structure FrameInput where
  elapsed : Int := 0
  polled : PollOutcome := .expired
  received : ReadResult := .eof

/-- A step of `read_frame` in a client with the error text `error`: the text after it, and the
next place. -/
def frameNext (timeoutMs : Int) (error : String) (input : FrameInput) :
    FramePc → Option (String × FrameNext)
  | .clock r =>
    if timeoutMs < 0 then some (error, .go (.read r))
    else if timeoutMs ≤ input.elapsed then
      some (orError error "Timeout reading frame", .failed)
    else some (error, .go (.poll r))
  | .poll r =>
    let (ready, text) := waitForData input.polled
    if ready then some (text, .go (.read r))
    else some (orError text "Timeout waiting for data chunk", .failed)
  | .read r =>
    match input.received with
    | .bytes chunk =>
      -- a read gives at least one byte, and no more than were asked for
      if chunk = [] ∨ r.need < (r.got ++ chunk).length then none
      else if (r.got ++ chunk).length = r.need then some (r.complete error (r.got ++ chunk))
      else some (error, .go (.clock { r with got := r.got ++ chunk }))
    | .eof =>
      some (orError error
        (if r.payload then "EOF reading frame payload" else "EOF reading frame length"), .failed)
    | .interrupted => some (error, .go (.clock r))
    | .failed reason => some ("Read failed: " ++ reason, .failed)

theorem orError_ne_empty {error text : String} (h : text ≠ "") : orError error text ≠ "" := by
  unfold orError
  split <;> assumption

theorem append_ne_empty {a b : String} (h : a ≠ "") : a ++ b ≠ "" := by
  simpa using fun ha _ => h ha

theorem tooLarge_ne_empty (len : Nat) : tooLarge len ≠ "" :=
  append_ne_empty (append_ne_empty (by decide))

theorem complete_failed {r : FrameRead} {error error' : String} {got : List UInt8}
    (h : r.complete error got = (error', .failed)) : error' ≠ "" := by
  revert h
  fun_cases FrameRead.complete r error got <;> intro h <;>
    simp only [Prod.mk.injEq, reduceCtorEq, and_false, and_true] at h
  rw [← h]
  exact tooLarge_ne_empty _

theorem frameNext_failed {timeoutMs : Int} {error error' : String} {input : FrameInput}
    {pc : FramePc} (h : frameNext timeoutMs error input pc = some (error', .failed)) :
    error' ≠ "" := by
  revert h
  fun_cases frameNext timeoutMs error input pc <;> intro h
  all_goals simp only [Option.some.injEq, Prod.mk.injEq, reduceCtorEq, and_false, and_true] at h
  case case2 | case5 =>
    rw [← h]
    exact orError_ne_empty (by decide)
  case case7 => exact complete_failed h
  case case9 =>
    rw [← h]
    exact orError_ne_empty (by split <;> decide)
  case case11 =>
    rw [← h]
    exact append_ne_empty (by decide)

end Anolis.Provider
