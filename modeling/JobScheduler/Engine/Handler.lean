/-
  JobScheduler.Engine.Handler
  ───────────────────────────
  `runJobHandler` of `engine/executor.ts`: the three kinds of task, with the
  defaults they take from the payload, what makes an attempt a failure, and the
  result that is stored.

  The network, the shell, the clock and chance are `Outside`; `JsText` are the
  conversions between JavaScript values and texts.
-/
import JobScheduler.Library.Zod
import JobScheduler.Schema.Types

namespace JobScheduler

open Zod

/-! ## §1. JavaScript. -/

/-- `Boolean(value)`; a missing key is `undefined`. -/
def truthy : Option JsonValue → Bool
  | none => false
  | some .null => false
  | some (.bool b) => b
  | some (.number n) => decide (n ≠ .finite 0)
  | some (.string s) => decide (s ≠ "")
  | some (.array _) => true
  | some (.object _) => true

/-- `value || default`. -/
def truthyOr (value : Option JsonValue) (default : JsonValue) : JsonValue :=
  if truthy value then value.getD default else default

/-- `JSON.parse`, `JSON.stringify`, `String(value)` and `toUpperCase()`. -/
structure JsText where
  parse : String → Option JsonValue
  stringify : JsonValue → String
  text : JsonValue → String
  upper : String → String

/-- What `fetch` settles with, as far as the handler reads it. -/
structure HttpResponse where
  status : Nat
  text : String

/-- What `execAsync` rejects with. -/
structure ShellError where
  code : Option String
  stderr : String
  message : String

/-- What one invocation of the handler meets. -/
structure Outside where
  /-- `fetch` and `response.text()`, or the message of their rejection, the abort at the timeout
  included. -/
  fetch : (url method headers : JsonValue) → (body : Option String) → (timeoutMs : JsonValue) →
    Except String HttpResponse
  execAsync : (command timeoutMs cwd : JsonValue) → Except ShellError (String × String)
  cwd : String
  randomBetween : Nat
  /-- `Math.random() < failureRate`. -/
  draws : JsonValue → Bool
  /-- `new Date().toISOString()`. -/
  isoNow : String

/-! ## §3. The tasks. -/

/-- A natural number as a JavaScript number. -/
def jsNumber (n : Nat) : JsonValue := .number (.finite n)

/-- `response.status === expectedStatus`. -/
def JsonValue.isNumber (value : JsonValue) (n : Nat) : Bool :=
  match value with
  | .number (.finite q) => decide (q = n)
  | _ => false

/-- `payload.expected_status || 200`. -/
def expectedStatus (payload : JsonValue) : JsonValue :=
  truthyOr (payload.get? "expected_status") (jsNumber 200)

/-- The response does not make the attempt fail. -/
def HttpResponse.accepted (payload : JsonValue) (response : HttpResponse) : Bool :=
  JsonValue.isNumber (expectedStatus payload) response.status ||
    (200 ≤ response.status && response.status < 300)

end JobScheduler
