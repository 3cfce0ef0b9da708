import Epoller.Types
import Epoller.Foundation.Runs

/-!
# From Buffering to Direct Writing

`Remote` is given data before and after its stream exists. `doWrite` and
`writeComplete` hold `Remote::lock` for all they do, so only one of them runs, but
the stream can be attached or expire between any two of its steps.

## Contents

- `Buffering`, `BufferingStep`, `Buffering.step`: the machine
- `Buffering.toCome`: what has been handed over and not passed to `queueWrite`
- `kept_of_run`: passed and still to come is everything that was handed over
-/

namespace Epoller

open Foundation

/-- A function that holds `Remote::lock`. -/
inductive RemoteCall where
  | doWrite (x : Bytes)
  | writeComplete
deriving DecidableEq, Repr

/-- The data that a call hands over. -/
def RemoteCall.argument : RemoteCall → Bytes
  | doWrite x => x
  | writeComplete => []

/-- What the holder of `Remote::lock` does next. -/
inductive HandOver where
  /-- `tcpStream.lock()` -/
  | entered (call : RemoteCall)
  /-- With a stream: `queueWrite(initWrite)`, if there is anything -/
  | found (call : RemoteCall)
  /-- `initWrite.resize(0)` -/
  | clear (call : RemoteCall)
  /-- `queueWrite(x)` -/
  | direct (x : Bytes)
  /-- Without a stream: `initWrite.insert` -/
  | keep (x : Bytes)
deriving DecidableEq, Repr

/-- `Remote`: its members that data goes through, and what went through them. -/
structure Buffering where
  /-- `tcpStream.lock()` gives the stream. -/
  attached : Bool
  initWrite : Bytes
  /-- The holder of `Remote::lock` -/
  inside : Option HandOver
  /-- The bytes passed to `TcpStream::queueWrite` -/
  passed : Bytes
  /-- The arguments of the calls of `doWrite`, in the order in which they took the lock -/
  arguments : Bytes
deriving DecidableEq, Repr

inductive BufferingStep where
  /-- A call takes the lock. -/
  | call (call : RemoteCall)
  /-- The holder of the lock goes on. -/
  | proceed
  /-- `client->tcpStream = ref` in `TcpStream::create` -/
  | attach
  /-- The stream is destroyed. -/
  | expire
deriving DecidableEq, Repr

namespace Buffering

/-- A new `Remote`, which copies `initial`. -/
def init (initial : Bytes) : Buffering where
  attached := false
  initWrite := initial
  inside := none
  passed := []
  arguments := []

/-- What the function does behind `initWrite`: the rest of `doWrite`, or nothing. -/
def afterInit : RemoteCall → Option HandOver
  | .doWrite x => some (.direct x)
  | .writeComplete => none

/-- The next step of the holder of the lock. -/
def proceed (s : Buffering) : HandOver → Buffering
  | .entered call =>
    if s.attached = true then { s with inside := some (.found call) }
    else
      match call with
      | .doWrite x => { s with inside := some (.keep x) }
      | .writeComplete => { s with inside := none }
  | .found call =>
    if s.initWrite ≠ [] then
      -- passed on now, and cleared in a step of its own
      { s with passed := s.passed ++ s.initWrite, inside := some (.clear call) }
    else { s with inside := afterInit call }
  | .clear call => { s with initWrite := [], inside := afterInit call }
  | .direct x => { s with passed := s.passed ++ x, inside := none }
  | .keep x => { s with initWrite := s.initWrite ++ x, inside := none }

/-- A function that has found the stream keeps it alive. -/
def holdsStream (s : Buffering) : Bool :=
  match s.inside with
  | some (.found _) | some (.clear _) | some (.direct _) => true
  | some (.entered _) | some (.keep _) | none => false

def step (s : Buffering) : BufferingStep → Except Unit Buffering
  | .call call =>
    match s.inside with
    | none =>
      .ok { s with
        inside := some (.entered call)
        arguments := s.arguments ++ call.argument }
    | some _ => .error ()
  | .proceed =>
    match s.inside with
    | some place => .ok (s.proceed place)
    | none => .error ()
  | .attach => if s.attached = false then .ok { s with attached := true } else .error ()
  | .expire =>
    if s.attached = true ∧ s.holdsStream = false then .ok { s with attached := false }
    else .error ()

/-! ## What Is Still to Come -/

/-- What has been handed over and not passed to `queueWrite`: `initWrite`, and the argument of the
function that holds the lock. -/
def toCome (s : Buffering) : Bytes :=
  match s.inside with
  | none => s.initWrite
  | some (.entered call) | some (.found call) => s.initWrite ++ call.argument
  -- `initWrite` is passed on and not cleared yet
  | some (.clear call) => call.argument
  | some (.direct x) | some (.keep x) => s.initWrite ++ x

/-- Passed and still to come is everything, and nothing waits in `initWrite` before data that is
passed directly. -/
structure Kept (initial : Bytes) (s : Buffering) : Prop where
  content : s.passed ++ s.toCome = initial ++ s.arguments
  direct : ∀ x, s.inside = some (.direct x) → s.initWrite = []

variable {initial : Bytes} {s s' : Buffering} {l : BufferingStep} {ls : List BufferingStep}

/-- Behind `initWrite` the function is left with its argument. -/
theorem Kept.afterInit {call : RemoteCall} (hinit : s.initWrite = [])
    (hcontent : s.passed ++ call.argument = initial ++ s.arguments) :
    Kept initial { s with inside := afterInit call } := by
  cases call with
  | doWrite x =>
    refine ⟨?_, fun _ _ => hinit⟩
    simpa [toCome, Buffering.afterInit, RemoteCall.argument, hinit] using hcontent
  | writeComplete =>
    refine ⟨?_, fun _ h => (by cases h)⟩
    simpa [toCome, Buffering.afterInit, RemoteCall.argument, hinit] using hcontent

/-- The holder of the lock loses, repeats and reorders nothing. -/
theorem Kept.proceed (h : Kept initial s) {place : HandOver} (hinside : s.inside = some place) :
    Kept initial (s.proceed place) := by
  have hcontent : s.passed ++ s.toCome = initial ++ s.arguments := h.content
  cases place with
  | entered call =>
    have hall : s.passed ++ (s.initWrite ++ call.argument) = initial ++ s.arguments := by
      simpa only [toCome, hinside] using hcontent
    simp only [Buffering.proceed]
    split
    · exact ⟨hall, fun _ hdirect => (by cases hdirect)⟩
    -- without a stream `writeComplete` does nothing, and `doWrite` keeps its argument
    · cases call with
      | doWrite x => exact ⟨hall, fun _ hdirect => (by cases hdirect)⟩
      | writeComplete =>
        refine ⟨?_, fun _ hdirect => (by cases hdirect)⟩
        simpa only [toCome, RemoteCall.argument, List.append_nil] using hall
  | found call =>
    have hall : s.passed ++ (s.initWrite ++ call.argument) = initial ++ s.arguments := by
      simpa only [toCome, hinside] using hcontent
    simp only [Buffering.proceed]
    split
    · refine ⟨?_, fun _ hdirect => (by cases hdirect)⟩
      rw [← List.append_assoc] at hall
      exact hall
    · rename_i hempty
      have hinit : s.initWrite = [] := not_not.mp hempty
      rw [hinit, List.nil_append] at hall
      exact Kept.afterInit hinit hall
  | clear call =>
    have hall : s.passed ++ call.argument = initial ++ s.arguments := by
      simpa only [toCome, hinside] using hcontent
    have hcleared : ({ s with initWrite := [] } : Buffering).initWrite = [] := rfl
    exact Kept.afterInit hcleared hall
  | direct x =>
    have hinit := h.direct x hinside
    refine ⟨?_, fun _ hdirect => (by cases hdirect)⟩
    simpa [Buffering.proceed, toCome, hinside, hinit] using hcontent
  | keep x =>
    have hall : s.passed ++ (s.initWrite ++ x) = initial ++ s.arguments := by
      simpa only [toCome, hinside] using hcontent
    exact ⟨hall, fun _ hdirect => (by cases hdirect)⟩

/-- **Step** -/
theorem kept_step (h : Kept initial s) (hstep : s.step l = .ok s') : Kept initial s' := by
  cases l with
  | call call =>
    simp only [step] at hstep
    split at hstep <;> cases hstep
    rename_i hfree
    have hcontent := h.content
    simp only [toCome, hfree] at hcontent
    refine ⟨?_, fun _ hdirect => (by cases hdirect)⟩
    rw [toCome, ← List.append_assoc, hcontent, List.append_assoc]
  | proceed =>
    simp only [step] at hstep
    split at hstep <;> cases hstep
    rename_i hinside
    exact h.proceed hinside
  | attach | expire =>
    simp only [step] at hstep
    split at hstep <;> cases hstep
    exact ⟨h.content, h.direct⟩

theorem kept_init (initial : Bytes) : Kept initial (init initial) :=
  ⟨(List.append_nil initial).symm, fun _ h => (by cases h)⟩

/-- **Run**: whenever the stream is attached or expires, what was passed to `queueWrite` and what
is still to come are the first bytes and the arguments of all calls, in order; while no function
holds the lock, `initWrite` is what is to come. -/
theorem kept_of_run (hrun : runFrom step (init initial) ls = .ok s) :
    s.passed ++ s.toCome = initial ++ s.arguments ∧
      (s.inside = none → s.passed ++ s.initWrite = initial ++ s.arguments) := by
  have hcontent := (runFrom_invariant (Kept initial) kept_step (kept_init initial) hrun).content
  refine ⟨hcontent, fun hfree => ?_⟩
  simpa only [toCome, hfree] using hcontent

/-- The stream is attached while a call of `doWrite` that has not found it is in progress. -/
theorem kept_attached_between : ∃ s,
    runFrom step (init [1]) [.call (.doWrite [2]), .proceed, .attach, .proceed,
      .call (.doWrite [3]), .proceed, .proceed, .proceed, .proceed, .expire,
      .call (.doWrite [4]), .proceed, .proceed] = .ok s ∧
    s.passed = [1, 2, 3] ∧ s.passed ++ s.initWrite = [1] ++ s.arguments := by
  obtain ⟨s, hrun, hpassed, hfree⟩ : ∃ s,
      runFrom step (init [1]) [.call (.doWrite [2]), .proceed, .attach, .proceed,
        .call (.doWrite [3]), .proceed, .proceed, .proceed, .proceed, .expire,
        .call (.doWrite [4]), .proceed, .proceed] = .ok s ∧
      s.passed = [1, 2, 3] ∧ s.inside = none := by
    decide +kernel
  exact ⟨s, hrun, hpassed, (kept_of_run hrun).2 hfree⟩

end Buffering

end Epoller
