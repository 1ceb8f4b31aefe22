import Anolis.Provider.FramedStdioClient
import Anolis.State.CacheMachine

/-!
# The session with one provider process

`provider_handle.cpp`: `send_request` and `wait_for_response` over one session, on any number of
threads. A request takes the session's mutex, and then looks at the health of the session, at the
process, writes its frame and waits for one frame back. Every way out sets a status; most of them
mark the session unhealthy, and nothing makes it healthy again.

The threads run `poll_device` of the state cache, which makes a `ReadSignals` and hands a
reachability edge to the loss latch; any other request of the handle; and `stop`. A health probe may
give up on the mutex: it has sent nothing then, and leaves the session's status to the exchange that
holds it.

What a step finds outside comes from the schedule: whether the process runs, what the pipes and the
clock answer, whether a shutdown is requested. What a frame means is `HandleConfig.parse`. The cache
and the loss latch are shared with other sessions, so any idle thread may change them in any way.

Left out: the requests' contents, the process' own shutdown, and the reads of `last_error` for the
log.
-/

namespace Anolis.Provider

open Control Lib Lib.Machine Protocol State

/-- The requests of a handle. -/
inductive RequestKind
  | hello | waitReady | listDevices | describeDevice | readSignals | call | getHealth
deriving DecidableEq

/-- A `Response` as far as the handle reads it: `body` is the kind of request it answers. -/
structure Response where
  requestId : Nat
  status : StatusCode
  message : String
  body : Option RequestKind
  values : List SignalReading

structure HandleConfig where
  timeoutMs : Int
  helloTimeoutMs : Int
  readyTimeoutMs : Int
  parse : List UInt8 → Option Response

/-- `timeout_to_use`. -/
def HandleConfig.timeout (cfg : HandleConfig) : RequestKind → Int
  | .hello => cfg.helloTimeoutMs
  | .waitReady => cfg.readyTimeoutMs
  | _ => cfg.timeoutMs

/-- What the threads share. `owner` is the thread inside the session's mutex, `clientError` the
error text of the framing client. -/
structure SessionShared where
  healthy : Bool := true
  owner : Option ThreadId := none
  nextRequestId : UInt32 := 1
  clientError : String := ""
  lastStatus : StatusCode := .ok
  error : String := ""
  cache : Cache := {}
  latch : DeviceLossLatch := {}

/-- The effect of a step. -/
inductive SessionEffect
  | silent
  | issued (kind : RequestKind) (id : Nat)
  | lock | unlock
  | gaveUp
  | clientError (text : String)
  -- a failure without an answer
  | failed (status : StatusCode) (message : String) (unhealthy : Bool)
  | answered (id : Nat) (data : List UInt8) (response : Response)
  | setError (text : String)
  | stopped
  -- the sections of the cache, and the sink
  | readFailed (status : StatusCode) (shuttingDown providerLost : Bool) (handle : String)
  | readApplied (now : Int64) (handle : String) (readings : List SignalReading)
  | sink (edge : ReachabilityEdge)
  -- what other sessions do
  | cache (cache : Cache)
  | latch (latch : DeviceLossLatch)

/-- What an effect of the thread `t` does to the shared state. -/
def SessionShared.apply (sh : SessionShared) (t : ThreadId) : SessionEffect → SessionShared
  | .silent | .gaveUp => sh
  | .issued _ _ => { sh with nextRequestId := sh.nextRequestId + 1 }
  | .lock => { sh with owner := some t }
  | .unlock => { sh with owner := none }
  | .clientError text => { sh with clientError := text }
  | .failed status message unhealthy =>
    { sh with
      healthy := sh.healthy && !unhealthy
      lastStatus := status
      error := message }
  | .answered _ _ response =>
    { sh with
      lastStatus := response.status
      error := if response.status = .ok then sh.error
        else "Provider returned error: " ++ response.message }
  | .setError text => { sh with error := text }
  | .stopped => { sh with healthy := false }
  | .readFailed status shuttingDown providerLost handle =>
    { sh with cache := sh.cache.readFailed status shuttingDown providerLost handle }
  | .readApplied now handle readings =>
    { sh with cache := sh.cache.readApplied now handle readings }
  | .sink edge => { sh with latch := (sh.latch.applyReachabilityEdge edge).1 }
  | .cache cache => { sh with cache := cache }
  | .latch latch => { sh with latch := latch }

theorem SessionShared.healthy_of_apply {sh : SessionShared} {t : ThreadId} {e : SessionEffect}
    (h : (sh.apply t e).healthy) : sh.healthy := by
  cases e with
  | failed => exact (Bool.and_eq_true_iff.mp h).1
  | stopped => cases h
  | _ => exact h

/-- What the schedule supplies to a step. -/
inductive SessionChoice
  | go
  | poll (handle : String)
  | request (kind : RequestKind)
  | probe
  | stop
  | giveUp
  | running (alive : Bool)
  | serialized (size : Option Nat)
  | wrote (elapsed : Int) (outcome : WriteOutcome)
  | elapsed (ms : Int)
  | polled (outcome : PollOutcome)
  | frame (input : FrameInput)
  | shutdown (requested : Bool)
  | now (time : Int64)
  | cache (cache : Cache)
  | latch (latch : DeviceLossLatch)

/-! ### `send_request` -/

/-- What a request came to: its status, and the response where there was one. -/
structure SendResult where
  status : StatusCode
  answer : Option Response

/-- Did `send_request` return true. -/
def SendResult.ok (r : SendResult) : Bool := r.answer.isSome && r.status = .ok

/-- Where a `send_request` is. From `clock` on it is inside `wait_for_response`. -/
inductive SendPc
  | lock
  | health
  | running
  | serialize
  | write (pc : WritePc)
  | clock
  | poll
  | readClock
  | frame (timeoutMs : Int) (pc : FramePc)
  | frameFailed
  | parse (data : List UInt8)
  | alive
  | unlock (result : SendResult)

/-- What a step of a request does: go on, or return. -/
inductive SendNext
  | go (pc : SendPc)
  | ret (result : SendResult)

/-- A failure without an answer, on the way to the end of the mutex' section. -/
def failWith (unhealthy : Bool) (status : StatusCode) (message : String) :
    Option (SessionEffect × SendNext) :=
  some (.failed status message unhealthy, .go (.unlock ⟨status, none⟩))

/-- A step of `write_frame`, inside a request. -/
def writeResult : WriteNext → Option (SessionEffect × SendNext)
  | .go pc => some (.silent, .go (.write pc))
  | .done => some (.silent, .go .clock)
  | .failed error => failWith true .unavailable ("Failed to write request: " ++ error)

/-- One step of `send_request` for the request `id`. Only a bounded one gives up on the mutex. -/
def sendNext (cfg : HandleConfig) (sh : SessionShared) (kind : RequestKind) (bounded : Bool)
    (id : Nat) : SendPc → SessionChoice → Option (SessionEffect × SendNext)
  | .lock, .giveUp => if bounded then some (.gaveUp, .ret ⟨.deadlineExceeded, none⟩) else none
  | .lock, _ => if sh.owner.isSome then none else some (.lock, .go .health)
  | .health, _ =>
    if sh.healthy then some (.silent, .go .running)
    else failWith false .unavailable "Provider session not healthy"
  | .running, .running true => some (.silent, .go .serialize)
  | .running, .running false => failWith true .unavailable "Provider process not running"
  | .running, _ => none
  | .serialize, .serialized (some size) => writeResult (writeStart size)
  | .serialize, .serialized none => failWith false .internal "Failed to serialize request"
  | .serialize, _ => none
  | .write pc, .wrote elapsed outcome =>
    (writeNext (cfg.timeout kind) elapsed outcome pc).bind writeResult
  | .write _, _ => none
  | .clock, .elapsed ms =>
    if cfg.timeout kind ≤ ms then
      failWith true .deadlineExceeded
        ("Timeout waiting for response (" ++ toString (cfg.timeout kind) ++ "ms)")
    else some (.silent, .go .poll)
  | .clock, _ => none
  | .poll, .polled outcome =>
    let (ready, text) := waitForData outcome
    if ready then some (.clientError text, .go .readClock)
    else if text ≠ "" then
      failWith true .unavailable ("Failed waiting for response: " ++ text)
    else some (.clientError text, .go .alive)
  | .poll, _ => none
  | .readClock, .elapsed ms =>
    some (.silent, .go (.frame (max 0 (cfg.timeout kind - ms)) FramePc.first))
  | .readClock, _ => none
  | .frame timeoutMs pc, .frame input =>
    (frameNext timeoutMs sh.clientError input pc).map fun r =>
      (.clientError r.1, .go (match r.2 with
        | .go pc => .frame timeoutMs pc
        | .frame data => .parse data
        | .failed => .frameFailed))
  | .frame _ _, _ => none
  | .frameFailed, _ =>
    if sh.clientError ≠ "" then
      failWith true .unavailable ("Failed to read response: " ++ sh.clientError)
    else failWith false .deadlineExceeded "Timed out reading response payload"
  | .parse data, _ =>
    match cfg.parse data with
    | none => failWith true .internal "Failed to parse response protobuf"
    | some response =>
      if response.requestId ≠ id then
        failWith true .internal ("Response request_id mismatch (expected " ++ toString id ++
          ", got " ++ toString response.requestId ++ ")")
      else
        some (.answered id data response, .go (.unlock ⟨response.status, some response⟩))
  | .alive, .running true => some (.silent, .go .clock)
  | .alive, .running false =>
    failWith true .unavailable "Provider process died while waiting for response"
  | .alive, _ => none
  | .unlock result, _ => some (.unlock, .ret result)

/-- Is a request at this place inside the mutex. -/
def SendPc.held : SendPc → Bool
  | .lock => false
  | _ => true

/-- The places inside the mutex at which the outcome of a request is open. -/
def SendPc.pending : SendPc → Bool
  | .lock | .unlock _ => false
  | _ => true

/-- The steps of a request by what they do: it gives up on the mutex, takes it, goes on, fails
without an answer, has its answer, gives the mutex back. -/
inductive SendStep (cfg : HandleConfig) (sh : SessionShared) (bounded : Bool) (id : Nat) :
    SendPc → SessionEffect → SendNext → Prop
  | giveUp (h : bounded) :
      SendStep cfg sh bounded id .lock .gaveUp (.ret ⟨.deadlineExceeded, none⟩)
  | enter (h : sh.owner = none) : SendStep cfg sh bounded id .lock .lock (.go .health)
  | silent {pc pc' : SendPc} (hpc : pc.pending) (hpc' : pc'.pending)
      (hframe : pc' ≠ .frameFailed) : SendStep cfg sh bounded id pc .silent (.go pc')
  -- the client's error text changes
  | client {pc pc' : SendPc} (text : String) (hpc : pc.pending) (hpc' : pc'.pending)
      (hframe : pc' = .frameFailed → text ≠ "") :
      SendStep cfg sh bounded id pc (.clientError text) (.go pc')
  -- with a transport status, the session is unhealthy after it
  | fail {pc : SendPc} (unhealthy : Bool) (status : StatusCode) (message : String)
      (hpc : pc.pending)
      (h : transportFailure status →
        unhealthy ∨ sh.healthy = false ∨ pc = .frameFailed ∧ sh.clientError = "") :
      SendStep cfg sh bounded id pc (.failed status message unhealthy)
        (.go (.unlock ⟨status, none⟩))
  | answer (data : List UInt8) (response : Response) (hparse : cfg.parse data = some response)
      (hid : response.requestId = id) :
      SendStep cfg sh bounded id (.parse data) (.answered id data response)
        (.go (.unlock ⟨response.status, some response⟩))
  | leave (result : SendResult) :
      SendStep cfg sh bounded id (.unlock result) .unlock (.ret result)

section
variable {cfg : HandleConfig} {sh : SessionShared} {kind : RequestKind} {bounded : Bool}
  {id : Nat} {pc : SendPc} {c : SessionChoice} {e : SessionEffect} {n : SendNext}

theorem sendStep_of_writeResult {w : WriteNext} (h : writeResult w = some (e, n))
    (hpc : pc.pending) : SendStep cfg sh bounded id pc e n := by
  cases w with
  | go pc' | done =>
    cases h
    exact .silent hpc rfl (by simp)
  | failed error =>
    cases h
    exact .fail true .unavailable _ hpc fun _ => .inl rfl

theorem sendStep_of_next (h : sendNext cfg sh kind bounded id pc c = some (e, n)) :
    SendStep cfg sh bounded id pc e n := by
  revert h
  fun_cases sendNext cfg sh kind bounded id pc c <;> intro h
  case case10 => exact sendStep_of_writeResult h rfl
  case case13 =>
    obtain ⟨w, -, hw⟩ := Option.bind_eq_some_iff.mp h
    exact sendStep_of_writeResult hw rfl
  case case24 =>
    obtain ⟨⟨text, next⟩, hnext, heq⟩ := Option.map_eq_some_iff.mp h
    cases heq
    cases next with
    | go pc | frame data => exact .client text rfl rfl (by simp)
    -- a `read_frame` that fails leaves an error text
    | failed => exact .client text rfl rfl fun _ => frameNext_failed hnext
  all_goals cases h
  all_goals constructor
  all_goals simp_all [SendPc.pending, transportFailure]

end

/-! ### Threads -/

/-- A request of a thread: which, and whether the wait for the mutex is bounded. -/
structure Exchange where
  kind : RequestKind
  bounded : Bool
  id : Nat

/-- Where a thread is. `handle` is the device of a `poll_device`, which other requests have not.
After a failed read, `poll_device` asks whether a shutdown is requested and whether the session is
lost, runs the cache's section, and calls the sink. -/
inductive SessionPc
  | idle
  | issue (handle : Option String) (kind : RequestKind) (bounded : Bool)
  | send (handle : Option String) (x : Exchange) (pc : SendPc)
  | missing (handle : String) (result : SendResult)
  | shutdown (handle : String) (result : SendResult)
  | available (handle : String) (result : SendResult) (shuttingDown : Bool)
  | failedSection (handle : String) (result : SendResult) (shuttingDown providerLost : Bool)
  | appliedSection (handle : String) (readings : List SignalReading)
  | sink (edge : ReachabilityEdge)
  | stopLock
  | stopSession
  | stopUnlock

/-- The place after a `send_request` of a `read_signals`. -/
def afterRead (handle : String) (result : SendResult) : SessionPc :=
  if result.ok then
    match result.answer with
    | some response =>
      if response.body = some .readSignals then .appliedSection handle response.values
      else .missing handle ⟨.internal, none⟩
    | none => .shutdown handle result
  else .shutdown handle result

/-- The place after a step of a request. What a caller does with the result of a request other
than a poll's is its own. -/
def afterSend (handle : Option String) (x : Exchange) : SendNext → SessionPc
  | .go pc => .send handle x pc
  | .ret result => (handle.map fun h => afterRead h result).getD .idle

/-- The place after a section that may have an edge for the sink. -/
def afterSection : Option ReachabilityEdge → SessionPc
  | some edge => .sink edge
  | none => .idle

/-- One step of a thread. -/
def sessionNext (cfg : HandleConfig) (sh : SessionShared) :
    SessionPc → SessionChoice → Option (SessionEffect × SessionPc)
  | .idle, .poll handle => some (.silent, .issue (some handle) .readSignals false)
  | .idle, .request kind => some (.silent, .issue none kind false)
  | .idle, .probe => some (.silent, .issue none .getHealth true)
  | .idle, .stop => some (.silent, .stopLock)
  | .idle, .cache cache => some (.cache cache, .idle)
  | .idle, .latch latch => some (.latch latch, .idle)
  | .idle, _ => none
  | .issue handle kind bounded, _ =>
    let id := sh.nextRequestId.toNat
    some (.issued kind id, .send handle ⟨kind, bounded, id⟩ .lock)
  | .send handle x pc, c =>
    (sendNext cfg sh x.kind x.bounded x.id pc c).map fun r => (r.1, afterSend handle x r.2)
  -- `set_error` takes the mutex
  | .missing handle result, _ =>
    if sh.owner.isSome then none
    else some (.setError "Response missing read_signals field", .shutdown handle result)
  | .shutdown handle result, .shutdown requested =>
    some (.silent, .available handle result requested)
  | .shutdown _ _, _ => none
  -- `is_available`
  | .available handle result shuttingDown, .running alive =>
    some (.silent, .failedSection handle result shuttingDown (!(sh.healthy && alive)))
  | .available _ _ _, _ => none
  | .failedSection handle result shuttingDown providerLost, _ =>
    some (.readFailed result.status shuttingDown providerLost handle,
      afterSection (sh.cache.lossEdge? result.status shuttingDown providerLost handle))
  | .appliedSection handle readings, .now time =>
    some (.readApplied time handle readings,
      afterSection (if sh.cache.sinkSet then sh.cache.returnEdge? handle else none))
  | .appliedSection _ _, _ => none
  | .sink edge, _ => some (.sink edge, .idle)
  | .stopLock, _ => if sh.owner.isSome then none else some (.lock, .stopSession)
  | .stopSession, _ => some (.stopped, .stopUnlock)
  | .stopUnlock, _ => some (.unlock, .idle)

variable {sh : SessionShared}

variable {cfg : HandleConfig}

/-- A step of a thread inside a request is a step of the request. -/
theorem sessionNext_send {handle : Option String}
    {x : Exchange} {pc : SendPc} {c : SessionChoice} {e : SessionEffect} {pc' : SessionPc}
    (h : sessionNext cfg sh (.send handle x pc) c = some (e, pc')) :
    ∃ n, SendStep cfg sh x.bounded x.id pc e n ∧ pc' = afterSend handle x n := by
  obtain ⟨⟨e', n⟩, hnext, heq⟩ := Option.map_eq_some_iff.mp h
  cases heq
  exact ⟨n, sendStep_of_next hnext, rfl⟩

/-- The machine of the session's threads. -/
def session (cfg : HandleConfig) : Machine SessionShared SessionPc SessionEffect SessionChoice where
  next sh _ pc c := sessionNext cfg sh pc c
  apply sh t e := sh.apply t e

abbrev SessionState := Global SessionShared SessionPc

abbrev SessionTrace := Trace SessionState (ThreadId × SessionEffect)

/-- Is the thread inside the session's mutex. -/
def SessionPc.holds : SessionPc → Bool
  | .send _ _ pc => pc.held
  | .stopSession | .stopUnlock => true
  | _ => false

theorem afterSend_ret_holds (handle : Option String) (x : Exchange) (result : SendResult) :
    (afterSend handle x (.ret result)).holds = false := by
  cases handle with
  | none => rfl
  | some handle =>
    simp only [afterSend, afterRead, Option.map_some, Option.getD_some]
    repeat' split
    all_goals rfl

theorem afterSection_holds (edge : Option ReachabilityEdge) :
    (afterSection edge).holds = false := by
  cases edge <;> rfl

theorem SendPc.held_of_pending {pc : SendPc} (h : pc.pending) : pc.held := by
  cases pc <;> first | rfl | cases h

theorem SendStep.lock {bounded : Bool} {id : Nat}
    {t : ThreadId} {pc : SendPc} {e : SessionEffect} {n : SendNext} (handle : Option String)
    (x : Exchange) (h : SendStep cfg sh bounded id pc e n) :
    LockStep t sh.owner (sh.apply t e).owner pc.held (afterSend handle x n).holds := by
  cases h with
  | giveUp _ => exact .inl ⟨rfl, afterSend_ret_holds handle x _⟩
  | enter h => exact .inr (.inl ⟨h, rfl, rfl, rfl⟩)
  | silent hpc hpc' _ | client _ hpc hpc' _ =>
    refine .inl ⟨rfl, ?_⟩
    rw [SendPc.held_of_pending hpc]
    exact SendPc.held_of_pending hpc'
  | fail _ _ _ hpc _ =>
    refine .inl ⟨rfl, ?_⟩
    rw [SendPc.held_of_pending hpc]
    rfl
  | answer _ _ _ _ => exact .inl ⟨rfl, rfl⟩
  | leave _ => exact .inr (.inr ⟨rfl, rfl, afterSend_ret_holds handle x _⟩)

/-- The mutex is taken when it is free, and given back by the thread inside it. -/
theorem sessionNext_lock {t : ThreadId}
    {pc pc' : SessionPc} {c : SessionChoice} {e : SessionEffect}
    (h : sessionNext cfg sh pc c = some (e, pc')) :
    LockStep t sh.owner (sh.apply t e).owner pc.holds pc'.holds := by
  revert h
  fun_cases sessionNext cfg sh pc c <;> intro h
  case case9 handle x pc =>
    obtain ⟨n, hsend, rfl⟩ := sessionNext_send h
    exact hsend.lock handle x
  all_goals cases h
  case case16 | case17 => exact .inl ⟨rfl, afterSection_holds _⟩
  case case21 hfree => exact .inr (.inl ⟨by simpa using hfree, rfl, rfl, rfl⟩)
  case case23 => exact .inr (.inr ⟨rfl, rfl, rfl⟩)
  all_goals exact .inl ⟨rfl, rfl⟩

/-- A state to start in: no thread is inside an operation, and the mutex is free. -/
def SessionStart (g : SessionState) : Prop := g.shared.owner = none ∧ ∀ t, g.thread t = .idle

theorem session_lock_run {g₀ g : SessionState} {tr : SessionTrace}
    (h0 : SessionStart g₀) (h : Run (session cfg).lts g₀ tr g) :
    LockInv SessionShared.owner SessionPc.holds g :=
  Machine.lock_inv (fun _ _ _ _ _ _ hn => sessionNext_lock hn) h fun t => by
    rw [h0.1, h0.2]
    simp [SessionPc.holds]

end Anolis.Provider
