import Mathlib.Order.Monotone.Basic
import Servicrab.Config.Valid
import Servicrab.Core.Lifecycle

/-!
# The backoff between restarts

`backoff_for_attempt` doubles the delay with a shift of 64 bits, cuts the factor to 32 bits and falls
back on the longest delay where the product is no `Duration` (`lifecycle.rs`). With the delays that
the validation accepts, none of this can be seen: the factor is cut only where the product is past
the longest delay already.

## Main results

* `RestartTracker.backoffForAttempt_eq`: where the delays leave room, the backoff is exact.
* `RestartTracker.monotone_backoffForAttempt`.
* `RestartTracker.backoff_exact`: the backoff of a service that was accepted.
-/

namespace Servicrab

namespace RestartTracker

variable {t : RestartTracker}

/-- The factor is the power of two, as long as it has 32 bits. -/
theorem factor_eq (attempt : ℕ) :
    min (if attempt < 64 then 2 ^ attempt else 2 ^ 64 - 1) u32Max = min (2 ^ attempt) u32Max := by
  split_ifs with h
  · rfl
  · have hpow : 2 ^ 64 ≤ 2 ^ attempt := Nat.pow_le_pow_right (by decide) (not_lt.mp h)
    have hcut : u32Max ≤ 2 ^ 64 - 1 := by decide
    rw [min_eq_right hcut, min_eq_right]
    omega

/-- **The backoff is exact** when the longest delay is a `Duration` and is reached before the factor
is cut. -/
theorem backoffForAttempt_eq (hmax : t.restartMaxDelay ≤ durationMax)
    (hcut : t.restartMaxDelay ≤ t.restartDelay * u32Max) (attempt : ℕ) :
    t.backoffForAttempt attempt = min (t.restartDelay * 2 ^ attempt) t.restartMaxDelay := by
  simp only [backoffForAttempt, factor_eq]
  rcases le_total (2 ^ attempt) u32Max with hfactor | hfactor
  · rw [min_eq_left hfactor]
    split_ifs with hoverflow
    · rfl
    · rw [min_self, min_eq_right]
      exact hmax.trans (not_le.mp hoverflow).le
  · -- Both products are past the longest delay.
    have hexact : t.restartMaxDelay ≤ t.restartDelay * 2 ^ attempt :=
      hcut.trans (Nat.mul_le_mul_left _ hfactor)
    rw [min_eq_right hfactor, min_eq_right hexact]
    split_ifs
    · exact min_eq_right hcut
    · exact min_self _

/-- The exact backoff never decreases as the attempt grows. -/
theorem monotone_backoffForAttempt (hmax : t.restartMaxDelay ≤ durationMax)
    (hcut : t.restartMaxDelay ≤ t.restartDelay * u32Max) : Monotone t.backoffForAttempt := by
  intro attempt later hle
  rw [backoffForAttempt_eq hmax hcut, backoffForAttempt_eq hmax hcut]
  have hpow : 2 ^ attempt ≤ 2 ^ later := Nat.pow_le_pow_right (by decide) hle
  exact min_le_min_right _ (Nat.mul_le_mul_left _ hpow)

end RestartTracker

/-- The ranges leave room for every backoff. -/
theorem Service.InRange.backoff {service : Service} (h : service.InRange) :
    service.restartMaxDelay ≤ durationMax ∧
      service.restartMaxDelay ≤ service.restartDelay * u32Max := by
  have hlong : service.restartMaxDelay ≤ dur24h := h.restartMaxDelay.2
  have hshort : dur100ms ≤ service.restartDelay := h.restartDelay.1
  have hroom : dur24h ≤ dur100ms * u32Max := by decide
  exact ⟨hlong.trans (by decide),
    hlong.trans (hroom.trans (Nat.mul_le_mul_right _ hshort))⟩

/-- **The backoff of a service that was accepted** is its delay, doubled at each attempt, up to its
longest delay; whatever its tracker went through. -/
theorem RestartTracker.backoff_exact (host : Host) (raw : RawConfig) (sourcePath : String)
    (config : LoadedConfig) (warnings : List ConfigWarning)
    (haccepted : validateRaw host raw sourcePath = .ok (config, warnings)) (name : ServiceName)
    (service : Service) (hservice : config.services[name]? = some service)
    (policy : RestartPolicy) (attempts : ℕ) :
    let t := { fromService service with policy := policy, attempts := attempts }
    (∀ attempt, t.backoffForAttempt attempt =
      min (service.restartDelay * 2 ^ attempt) service.restartMaxDelay) ∧
      Monotone t.backoffForAttempt := by
  obtain ⟨hmax, hcut⟩ :=
    ((invariant_of_validateRaw haccepted).inRange name service
      hservice).backoff
  exact ⟨fun attempt => backoffForAttempt_eq hmax hcut attempt,
    monotone_backoffForAttempt hmax hcut⟩

/-- The delay is half a second, and grows up to half a minute. -/
theorem RestartTracker.backoff_exact_web : ∃ config warnings service,
    validateRaw exampleHost exampleStack "/srv/servicrab.toml" = .ok (config, warnings) ∧
      config.services[(⟨"web"⟩ : ServiceName)]? = some service ∧
        (fromService service).backoffForAttempt 2 = .ofSecs 2 ∧
          (fromService service).backoffForAttempt 70 = .ofSecs 30 ∧
            Monotone (fromService service).backoffForAttempt := by
  let read (config : LoadedConfig) : Option (Duration × Duration) :=
    config.services[(⟨"web"⟩ : ServiceName)]?.map fun service =>
      (service.restartDelay, service.restartMaxDelay)
  have hread : (validateRaw exampleHost exampleStack "/srv/servicrab.toml").toOption.map
      (fun loaded => read loaded.1) = some (some (.ofMillis 500, .ofSecs 30)) := by decide +kernel
  obtain ⟨config, warnings, haccepted, hconfig⟩ := exists_accepted read hread
  obtain ⟨service, hservice, hdelays⟩ := Option.map_eq_some_iff.mp hconfig
  obtain ⟨hdelay, hmax⟩ := Prod.mk.inj hdelays
  obtain ⟨hexact, hmono⟩ := backoff_exact _ _ _ config warnings haccepted ⟨"web"⟩ service hservice
    service.restart 0
  refine ⟨config, warnings, service, haccepted, hservice, ?_, ?_, hmono⟩
  · exact (hexact 2).trans (by rw [hdelay, hmax]; decide)
  · exact (hexact 70).trans (by rw [hdelay, hmax]; decide)

end Servicrab
