import FormRespondentRole.Foundations.Text

/-!
# Errors

`AppError` is the error type of every handler and background task.
-/

namespace FormRespondentRole

open Foundations

structure FieldError where
  questionId : Text
  message : Text
deriving DecidableEq

inductive AppError
  | database (e : Text)
  | roleLogic (e : Text)
  | roleLinkNotFound
  | roleLinkDisabled
  | removalHeld
  | userLimitReached (limit : Nat)
  | badRequest (msg : Text)
  | unauthorized
  | unauthorizedWith (msg : Text)
  | forbidden (msg : Text)
  | notFound (msg : Text)
  | formNotFound (slug : Text)
  | formClosed
  | submissionRateLimited
  | validationFailed (errors : List FieldError)
  | duplicateSubmission
  | attemptsExhausted (max : Int)
  | retryCooldown (retryAfterSeconds : Int)
  | alreadyPassed
  | staleVersion
  | internal (msg : Text)
deriving DecidableEq

/-- The display text of an error. -/
def AppError.text : AppError → Text
  | database e => "Database error: ".toList ++ e
  | roleLogic e => "RoleLogic API error: ".toList ++ e
  | roleLinkNotFound => "Role link not found on RoleLogic".toList
  | roleLinkDisabled => "Role link is disabled or paused on RoleLogic".toList
  | removalHeld => "Role link removals are held for owner confirmation on RoleLogic".toList
  | userLimitReached limit => "Role link user limit reached (".toList ++ Text.ofNat limit ++
    ")".toList
  | badRequest msg => "Invalid request: ".toList ++ msg
  | unauthorized => "Unauthorized".toList
  | unauthorizedWith msg => "Unauthorized: ".toList ++ msg
  | forbidden msg => "Forbidden: ".toList ++ msg
  | notFound msg => "Not found: ".toList ++ msg
  | formNotFound slug => "Form not found: ".toList ++ slug
  | formClosed => "Form is not currently accepting submissions".toList
  | submissionRateLimited => "Submission rate limited".toList
  | validationFailed _ => "Validation failed".toList
  | duplicateSubmission => "Duplicate submission".toList
  | attemptsExhausted _ => "No attempts remaining".toList
  | retryCooldown _ => "Retry cooldown active".toList
  | alreadyPassed => "Already passed; no further attempts".toList
  | staleVersion => "Form was edited; reload and try again".toList
  | internal msg => "Internal error: ".toList ++ msg

end FormRespondentRole
