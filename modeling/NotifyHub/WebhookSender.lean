import NotifyHub.DomainTypes
import Mathlib.Tactic

/-!
# The webhook sender

`app.outbound.sender`: the attempt limit, the back-off, and the result of one
call.  What the network answers is an `HttpReply`; the texts which end up in
the error of a delivery are kept as the code builds them.  They are Python
texts, since the charset of a response may decode to half of a surrogate pair.
-/

namespace NotifyHub

/-- A code point of a Python text. -/
inductive CodePoint
  | char (value : Char)
  | surrogate (half : Fin 2048)
  deriving DecidableEq, Repr

abbrev PyText := List CodePoint

def pyText (text : Text) : PyText := text.map .char

def backoffScheduleSeconds : List ℕ := [30, 120, 600, 3600, 21600]

def maxAttempts : ℕ := backoffScheduleSeconds.length

theorem maxAttempts_pos : 0 < maxAttempts := by decide

def maxRetryAfterSeconds : ℤ := 30 * 24 * 3600

def errorBodyMaxChars : ℕ := 200

def corpoTroncato (testo : PyText) : PyText :=
  if testo.length ≤ errorBodyMaxChars then testo
  else testo.take errorBodyMaxChars ++ [.char '…']

/-- A `Retry-After` header as `int` and `parsedate_to_datetime` read it. -/
inductive RetryAfterHeader
  | absent
  | seconds (value : ℤ)
  | date (target : Instant)
  | malformed
  deriving DecidableEq, Repr

def clampRetryAfter (seconds : ℤ) : ℤ :=
  min (max 1 seconds) maxRetryAfterSeconds

def parseRetryAfter (header : RetryAfterHeader) (now : Instant) : ℤ :=
  match header with
  | .absent | .malformed => 60
  | .seconds value => clampRetryAfter value
  | .date target =>
      clampRetryAfter ((target - now).tdiv microsecondsPerSecond)

/-- The delay before the next attempt; `jitter` is the integer part of the
random share of at most a fifth. -/
def calculateRetryDelay (attemptNumber jitter : ℕ) : ℕ :=
  if attemptNumber < 1 ∨ maxAttempts < attemptNumber then 0
  else
    let base := backoffScheduleSeconds.getD (attemptNumber - 1) 0
    base + min jitter (base / 5)

structure WebhookResult where
  ok : Bool
  statusCode : Option ℕ
  retryAfter : Option ℤ
  error : Option PyText
  deriving DecidableEq, Repr

/-- What comes back from the network; an exception carries the text which
`safe_error` makes of it. -/
inductive HttpReply
  | response (statusCode : ℕ) (retryAfter : RetryAfterHeader) (text : PyText)
  | raised (safeError : PyText)
  deriving DecidableEq, Repr

def isSuccess (statusCode : ℕ) : Bool :=
  decide (200 ≤ statusCode ∧ statusCode ≤ 299)

/-- An exception inside `send_webhook_sync`, also one of the formatters. -/
def webhookFailure (safeError : PyText) : WebhookResult :=
  ⟨false, none, none, some safeError⟩

def httpErrorText (statusCode : ℕ) (text : PyText) : PyText :=
  pyText ("HTTP ".toList ++ Nat.toDigits 10 statusCode ++ ": ".toList) ++
    corpoTroncato text

def sendWebhookSync (now : Instant) : HttpReply → WebhookResult
  | .raised safeError => webhookFailure safeError
  | .response statusCode retryAfter text =>
      if statusCode = 429 then
        ⟨false, some 429, some (parseRetryAfter retryAfter now),
          some (pyText "rate limited".toList)⟩
      else if isSuccess statusCode then ⟨true, some statusCode, none, none⟩
      else
        ⟨false, some statusCode, none, some (httpErrorText statusCode text)⟩

/-! ## Texts which the database refuses -/

/-- The character which a Postgres text cannot hold. -/
def nul : Char := Char.ofNat 0

/-- Postgres refuses NUL, and the driver has no UTF-8 for half of a surrogate
pair. -/
def CodePoint.unwritable : CodePoint → Bool
  | .char value => value == nul
  | .surrogate _ => true

def unwritable (text : PyText) : Bool := text.any CodePoint.unwritable

/-- The error text of a reply can be stored. -/
def HttpReply.storable : HttpReply → Bool
  | .raised safeError => !unwritable safeError
  | .response statusCode _ text =>
      statusCode == 429 || isSuccess statusCode ||
        !unwritable (text.take errorBodyMaxChars)

theorem unwritable_append (first second : PyText) :
    unwritable (first ++ second) = (unwritable first || unwritable second) := by
  simp [unwritable]

theorem unwritable_pyText {text : Text} (hnul : nul ∉ text) :
    unwritable (pyText text) = false := by
  simp only [unwritable, pyText, List.any_map, List.any_eq_false,
    Function.comp_apply, CodePoint.unwritable, beq_iff_eq]
  intro char hchar heq
  exact hnul (heq ▸ hchar)

theorem nul_notMem_toDigits (number : ℕ) : nul ∉ Nat.toDigits 10 number := by
  intro hmem
  have hdigit : nul.isDigit = true :=
    Nat.isDigit_of_mem_toDigits (by decide) (by decide) hmem
  exact absurd hdigit (by decide)

theorem unwritable_corpoTroncato (text : PyText) :
    unwritable (corpoTroncato text) =
      unwritable (text.take errorBodyMaxChars) := by
  unfold corpoTroncato
  by_cases hshort : text.length ≤ errorBodyMaxChars
  · rw [if_pos hshort, List.take_of_length_le hshort]
  · have hdots : unwritable [.char '…'] = false := by decide
    rw [if_neg hshort, unwritable_append, hdots, Bool.or_false]

theorem unwritable_httpErrorText (statusCode : ℕ) (text : PyText) :
    unwritable (httpErrorText statusCode text) =
      unwritable (text.take errorBodyMaxChars) := by
  have hfront : nul ∉
      "HTTP ".toList ++ Nat.toDigits 10 statusCode ++ ": ".toList := by
    simp only [List.mem_append, not_or]
    exact ⟨⟨by decide, nul_notMem_toDigits statusCode⟩, by decide⟩
  rw [httpErrorText, unwritable_append, unwritable_pyText hfront,
    unwritable_corpoTroncato, Bool.false_or]

/-- A reply is storable exactly if the error of its result can be written. -/
theorem storable_iff (now : Instant) (reply : HttpReply) :
    reply.storable = true ↔
      ∀ error, (sendWebhookSync now reply).error = some error →
        unwritable error = false := by
  cases reply with
  | raised safeError =>
      simp [HttpReply.storable, sendWebhookSync, webhookFailure]
  | response statusCode retryAfter text =>
      by_cases hlimited : statusCode = 429
      · have hconst : unwritable (pyText "rate limited".toList) = false := by
          decide
        have herror : (sendWebhookSync now
            (.response statusCode retryAfter text)).error =
              some (pyText "rate limited".toList) := by
          rw [sendWebhookSync, if_pos hlimited]
        rw [herror]
        refine iff_of_true (by simp [HttpReply.storable, hlimited]) ?_
        rintro error hsome
        rw [← Option.some.inj hsome]
        exact hconst
      · by_cases hsuccess : isSuccess statusCode = true
        · simp [HttpReply.storable, sendWebhookSync, hlimited, hsuccess]
        · simp [HttpReply.storable, sendWebhookSync, hlimited, hsuccess,
            unwritable_httpErrorText]

end NotifyHub
