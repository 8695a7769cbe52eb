import FormRespondentRole.Retry

/-!
# The advertised wait

The seconds that a refusal for the cooldown names, against the wait that is left: they are the least
that suffice, unless the wait passes a whole number of seconds by a part of a millisecond, which the
code cuts off (`advertised_wait_least_iff`).
-/

namespace FormRespondentRole

open Foundations

namespace Retry

/-- A new attempt at `now` is refused for the cooldown. -/
def CoolingDown (now : Instant) (config : Config) (e : ExistingAttempt)
    (new : NewSubmission) : Prop :=
  ∃ retryAfterSeconds nextAttemptAt,
    decide now config (some e) new = .error (.cooldown retryAfterSeconds nextAttemptAt)

/-- From `wait` seconds after `now` on, no attempt is refused for the cooldown. -/
def Suffices (now : Instant) (config : Config) (e : ExistingAttempt) (wait : Int) : Prop :=
  ∀ later new, now + seconds wait ≤ later → ¬CoolingDown later config e new

/-- The least positive number of seconds that suffices. -/
def LeastWait (now : Instant) (config : Config) (e : ExistingAttempt) (wait : Int) : Prop :=
  IsLeast {w | 1 ≤ w ∧ Suffices now config e w} wait

/-- What is left at `now` of the cooldown after the last attempt. -/
def remaining (now : Instant) (config : Config) (e : ExistingAttempt) : Int :=
  e.lastAttemptAt + seconds config.cooldownSeconds - now

section

variable {now later next : Int} {config : Config} {e : ExistingAttempt} {new new' : NewSubmission}
  {wait : Int}

/-- What a refusal for the cooldown names. -/
theorem denial_cooldown (h : denial now config e = some (.cooldown wait next)) :
    next = e.lastAttemptAt + seconds config.cooldownSeconds ∧ now < next ∧
      wait = max ((max ((next - now).tdiv 1000000) 0 + 999).tdiv 1000) 1 := by
  rw [denial] at h
  split at h
  · cases h
  split at h
  · cases h
  split at h
  · dsimp only at h
    split at h
    · rename_i hnow
      cases h
      exact ⟨rfl, hnow, rfl⟩
    · cases h
  · cases h

private theorem coolingDown_iff : CoolingDown now config e new ↔
    ∃ wait next, denial now config e = some (.cooldown wait next) := by
  rw [CoolingDown, decide]
  cases hdenial : denial now config e with
  | none => simp
  | some reason => simp

/-- Once the cooldown is what refuses an attempt, it refuses every one up to the time that the
refusal names. -/
theorem coolingDown_later_iff (h : denial now config e = some (.cooldown wait next)) :
    CoolingDown later config e new' ↔ later < next := by
  obtain ⟨rfl, hnow, -⟩ := denial_cooldown h
  rw [coolingDown_iff]
  constructor
  · rintro ⟨wait', next', h'⟩
    obtain ⟨rfl, hlater, -⟩ := denial_cooldown h'
    exact hlater
  · intro hlater
    rw [denial] at h ⊢
    split at h
    · cases h
    split at h
    · cases h
    split at h
    · rename_i hpassed hexhausted hcooldown
      rw [if_neg hpassed, if_neg hexhausted, if_pos hcooldown]
      exact ⟨_, _, if_pos hlater⟩
    · cases h

private theorem suffices_iff (h : denial now config e = some (.cooldown wait next)) (w : Int) :
    Suffices now config e w ↔ next ≤ now + seconds w := by
  constructor
  · intro hw
    have hnot := hw (now + seconds w) ⟨none, none⟩ le_rfl
    rw [coolingDown_later_iff h] at hnot
    exact not_lt.1 hnot
  · intro hw later new hlater
    rw [coolingDown_later_iff h]
    exact not_lt.2 (hw.trans hlater)

private theorem leastWait_iff (h : denial now config e = some (.cooldown wait next)) (w : Int) :
    LeastWait now config e w ↔ now + 1000000000 * (w - 1) < next ∧ next ≤ now + 1000000000 * w := by
  obtain ⟨-, hnow, -⟩ := denial_cooldown h
  have hnow : now < next := hnow
  have hmem : ∀ w, w ∈ {w | 1 ≤ w ∧ Suffices now config e w} ↔
      1 ≤ w ∧ next ≤ now + 1000000000 * w := by
    intro w
    rw [Set.mem_ofPred_eq, suffices_iff h, seconds, Int.mul_comm]
  constructor
  · rintro ⟨hw, hleast⟩
    obtain ⟨hone, hsuffices⟩ := (hmem w).1 hw
    refine ⟨?_, hsuffices⟩
    by_contra hless
    by_cases hw1 : w = 1
    · omega
    · have hbelow : w ≤ w - 1 := hleast ((hmem (w - 1)).2 ⟨by omega, not_lt.1 hless⟩)
      omega
  · rintro ⟨hless, hsuffices⟩
    refine ⟨(hmem w).2 ⟨by omega, hsuffices⟩, fun w' hw' => ?_⟩
    obtain ⟨-, hw'⟩ := (hmem w').1 hw'
    omega

/-- Cutting off the milliseconds' fraction does no harm unless it is all that is left over. -/
private theorem ceil_millis_iff (hnow : now < next) (w : Int)
    (hw : w = max ((max ((next - now).tdiv 1000000) 0 + 999).tdiv 1000) 1) :
    (now + 1000000000 * (w - 1) < next ∧ next ≤ now + 1000000000 * w) ↔
      ¬(1000000000 ≤ next - now ∧ 0 < (next - now) % 1000000000 ∧
        (next - now) % 1000000000 < 1000000) := by
  have hmillis : (next - now).tdiv 1000000 = (next - now) / 1000000 :=
    Int.tdiv_eq_ediv_of_nonneg (by omega)
  rw [hmillis, Int.tdiv_eq_ediv_of_nonneg (by omega)] at hw
  omega

end

/-- The seconds that a refusal names are the least that suffice, unless the wait that is left is a
positive number of whole seconds and less than a millisecond more. -/
theorem advertised_wait_least_iff {now next : Instant} {config : Config} {e : ExistingAttempt}
    {new : NewSubmission} {wait : Int}
    (h : decide now config (some e) new = .error (.cooldown wait next)) :
    LeastWait now config e wait ↔
      ¬(seconds 1 ≤ remaining now config e ∧ 0 < remaining now config e % seconds 1 ∧
        remaining now config e % seconds 1 < 1000000) := by
  have hdenial : denial now config e = some (.cooldown wait next) := by
    rw [decide] at h
    split at h
    · rename_i reason hreason
      cases h
      exact hreason
    · cases h
  obtain ⟨hnext, hnow, hwait⟩ := denial_cooldown hdenial
  rw [leastWait_iff hdenial, remaining, ← hnext]
  exact ceil_millis_iff hnow wait hwait

/-- Cooldown of an hour, the attempts not counted. -/
def hourly : Config := ⟨0, 3600, .keepBest, true⟩

def firstAttempt : ExistingAttempt := ⟨1, 0, none, none⟩

/-- Half an hour before the next attempt. -/
theorem advertised_wait_least_iff_halfHour : LeastWait (seconds 1800) hourly firstAttempt 1800 := by
  have hrefused : decide (seconds 1800) hourly (some firstAttempt) ⟨none, none⟩ =
      .error (.cooldown 1800 (seconds 3600)) := rfl
  exact (advertised_wait_least_iff hrefused).2 (by decide)

/-- One second and a nanosecond before the next attempt, the refusal names one second. -/
theorem not_advertised_wait_least :
    ¬∀ (now next : Instant) (config : Config) (e : ExistingAttempt) (new : NewSubmission)
      (wait : Int),
      decide now config (some e) new = .error (.cooldown wait next) →
        LeastWait now config e wait := by
  intro h
  obtain ⟨⟨-, hsuffices⟩, -⟩ :=
    h (seconds 3599 - 1) (seconds 3600) hourly firstAttempt ⟨none, none⟩ 1 rfl
  exact hsuffices (seconds 3600 - 1) ⟨none, none⟩ (by decide) ⟨1, seconds 3600, rfl⟩

end Retry

end FormRespondentRole
