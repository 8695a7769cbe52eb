import FormRespondentRole.Tables

/-!
# Retry decision

Whether a further attempt of a member is allowed, and what the canonical response then holds.  Pure
functions of the form's retry policy, the stored attempt and the freshly graded
submission. -/

namespace FormRespondentRole

open Foundations

namespace Retry

/-- Which attempt becomes the canonical response. -/
inductive Policy
  | keepBest
  | keepLatest
deriving DecidableEq

def Policy.fromStrOrDefault (s : Text) : Policy :=
  if s = "keep_latest".toList then keepLatest else keepBest

structure Config where
  /-- Not positive means unlimited. -/
  maxAttempts : Int32
  cooldownSeconds : Int
  policy : Policy
  lockOnPass : Bool
deriving DecidableEq

def Config.retriesEnabled (config : Config) : Bool :=
  config.maxAttempts ≠ 1 || decide (0 < config.cooldownSeconds)

structure ExistingAttempt where
  attemptCount : Int32
  lastAttemptAt : Instant
  totalScore : Option Int32
  passed : Option Bool

structure NewSubmission where
  totalScore : Option Int32
  passed : Option Bool

inductive DenyReason
  | alreadyPassed
  | attemptsExhausted (max : Int32)
  | cooldown (retryAfterSeconds : Int) (nextAttemptAt : Instant)

structure AcceptedAttempt where
  overwriteAnswers : Bool
  totalScore : Option Int32
  passed : Option Bool
  attemptCount : Int32

/-- Why a further attempt is refused, the most permanent reason first. -/
def denial (now : Instant) (config : Config) (e : ExistingAttempt) : Option DenyReason :=
  if config.lockOnPass && decide (e.passed = some true) then some .alreadyPassed
  else if 0 < config.maxAttempts && config.maxAttempts ≤ e.attemptCount then
    some (.attemptsExhausted config.maxAttempts)
  else if 0 < config.cooldownSeconds then
    let next := e.lastAttemptAt + seconds config.cooldownSeconds
    if now < next then
      let ms := max ((next - now).tdiv 1000000) 0
      some (.cooldown (max ((ms + 999).tdiv 1000) 1) next)
    else none
  else none

def saturatingSucc (n : Int32) : Int32 := if n = Int32.maxValue then n else n + 1

/-- An absent pass bit counts as not passed, unless both are absent. -/
def combinedPassed : Option Bool → Option Bool → Option Bool
  | none, none => none
  | a, b => some (a.getD false || b.getD false)

/-- What the canonical response becomes after a further attempt. -/
def nextAttempt (policy : Policy) (e : ExistingAttempt) (new : NewSubmission) : AcceptedAttempt :=
  match policy, e.totalScore, new.totalScore with
  | .keepBest, some best, some score =>
    -- the first best attempt stays on ties
    ⟨best < score, some (max best score), combinedPassed e.passed new.passed,
      saturatingSucc e.attemptCount⟩
  | _, _, _ => ⟨true, new.totalScore, new.passed, saturatingSucc e.attemptCount⟩

def decide (now : Instant) (config : Config) (existing : Option ExistingAttempt)
    (new : NewSubmission) :
    Except DenyReason AcceptedAttempt :=
  match existing with
  | none => .ok ⟨true, new.totalScore, new.passed, 1⟩
  | some e =>
    match denial now config e with
    | some reason => .error reason
    | none => .ok (nextAttempt config.policy e new)

section

variable {now : Instant} {config : Config} {e : ExistingAttempt} {new : NewSubmission}
  {a : AcceptedAttempt}

theorem denial_eq_none :
    denial now config e = none ↔
      ¬ (config.lockOnPass = true ∧ e.passed = some true) ∧
        ¬ (0 < config.maxAttempts ∧ config.maxAttempts ≤ e.attemptCount) ∧
        (0 < config.cooldownSeconds → e.lastAttemptAt + seconds config.cooldownSeconds ≤ now) := by
  unfold denial
  by_cases hpassed : config.lockOnPass = true ∧ e.passed = some true
  · simp [hpassed]
  by_cases hexhausted : 0 < config.maxAttempts ∧ config.maxAttempts ≤ e.attemptCount
  · simp [hpassed, hexhausted]
  by_cases hcooldown : 0 < config.cooldownSeconds
  · by_cases hnow : now < e.lastAttemptAt + seconds config.cooldownSeconds
    · simp [hpassed, hexhausted, hcooldown, hnow]
    · simp [hpassed, hexhausted, hcooldown, hnow, Int.not_lt.1 hnow]
  · simp [hpassed, hexhausted, hcooldown]

/-- A further attempt is accepted when nothing denies it. -/
theorem decide_some_eq_ok :
    decide now config (some e) new = .ok a ↔ denial now config e = none ∧
      a = nextAttempt config.policy e new := by
  rw [decide]
  cases denial now config e with
  | none => simp [eq_comm]
  | some reason => simp

theorem nextAttempt_attemptCount (policy : Policy) :
    (nextAttempt policy e new).attemptCount = saturatingSucc e.attemptCount := by
  unfold nextAttempt
  split <;> rfl

theorem nextAttempt_keepBest {best score : Int32} (hbest : e.totalScore = some best)
    (hscore : new.totalScore = some score) :
    nextAttempt .keepBest e new =
      ⟨best < score, some (max best score), combinedPassed e.passed new.passed,
        saturatingSucc e.attemptCount⟩ := by
  unfold nextAttempt
  rw [hbest, hscore]

theorem nextAttempt_keepLatest :
    nextAttempt .keepLatest e new = ⟨true, new.totalScore, new.passed,
      saturatingSucc e.attemptCount⟩ := rfl

theorem nextAttempt_overwrite {policy : Policy}
    (h : (nextAttempt policy e new).overwriteAnswers = true) :
    (nextAttempt policy e new).totalScore = new.totalScore := by
  unfold nextAttempt at h ⊢
  split
  · rename_i best score hbest hscore
    simp only [hbest, hscore, decide_eq_true_eq] at h
    rw [hscore, Option.some.injEq]
    exact if_pos (Int32.le_of_lt h)
  · rfl

theorem nextAttempt_record {policy : Policy}
    (h : (nextAttempt policy e new).overwriteAnswers = false) :
    (nextAttempt policy e new).totalScore = e.totalScore := by
  unfold nextAttempt at h ⊢
  split
  · rename_i best score hbest hscore
    simp only [hbest, hscore, decide_eq_false_iff_not] at h
    rw [hbest, Option.some.injEq]
    show (if best ≤ score then score else best) = best
    split
    · rename_i hle
      exact Int32.le_antisymm (Int32.not_lt.1 h) hle
    · rfl
  · rename_i hnot
    split at h
    · rename_i best score hbest hscore
      exact absurd hscore (hnot best score rfl hbest)
    · cases h

theorem saturatingSucc_toInt (n : Int32) :
    (saturatingSucc n).toInt = min (n.toInt + 1) (2 ^ 31 - 1) := by
  have hlt := n.toInt_lt
  have hle := n.le_toInt
  unfold saturatingSucc
  by_cases h : n = Int32.maxValue
  · rw [if_pos h, h]
    decide
  · have hne : n.toInt ≠ 2 ^ 31 - 1 := fun heq => h (Int32.toInt_inj.1 (heq.trans (by decide)))
    rw [if_neg h, Int32.toInt_add, Int32.toInt_one, Int.bmod_eq_of_le (by omega) (by omega)]
    omega

end

end Retry

end FormRespondentRole
