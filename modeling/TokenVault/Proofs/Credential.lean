import TokenVault.Credential
import TokenVault.Proofs.Time

/-!
# When a credential is due for a refresh

The time that is left stops at the ends of its range and is rounded down to whole seconds, the
window loses its part of a second, and a window that is too long is cut off.  All of this errs
on the side of an early refresh: `Credential.needsRefresh_exact`.
-/

namespace TokenVault

/-- How long a duration is, in billionths of a second. -/
def Duration.total (d : Duration) : Nat := d.seconds.toNat * 1000000000 + d.nanos

namespace Credential

/-- The milliseconds that are left until an expiry, or the nearest time to them. -/
def remaining (expiry : Int64) (now : Reading) : Int :=
  max leastTime (min (expiry.toInt - now.millis.toInt) greatestTime)

theorem remaining_of_fits {expiry : Int64} {now : Reading}
    (h : FitsTime (expiry.toInt - now.millis.toInt)) :
    remaining expiry now = expiry.toInt - now.millis.toInt := by
  obtain ⟨hlow, hhigh⟩ := h
  rw [remaining]
  omega

/-- Whole seconds are those of the milliseconds that are left, rounded down. -/
theorem expiresIn?_of_expiry {c : Credential} {expiry : Int64} (h : c.expiry = some expiry)
    (now : Reading) : ∃ seconds : Int64, c.expiresIn? now = some seconds ∧
      seconds.toInt = remaining expiry now / 1000 := by
  refine ⟨_, by rw [expiresIn?, h, Option.map_some], ?_⟩
  rw [toInt_saturate, Int.fdiv_eq_ediv_of_nonneg _ (by decide), ← remaining]
  have hbounds : leastTime ≤ remaining expiry now ∧ remaining expiry now ≤ greatestTime := by
    rw [remaining, leastTime, greatestTime]
    omega
  rw [leastTime, greatestTime] at hbounds
  exact Int64.toInt_ofInt_of_le (by omega) (by omega)

/-- A credential is due for a refresh when less than a second more than the whole seconds of the
window is left. -/
theorem needsRefresh_iff {c : Credential} {expiry : Int64} (h : c.expiry = some expiry)
    (now : Reading) (window : Duration) :
    c.needsRefresh now window = true ↔
      remaining expiry now < 1000 * (min (window.seconds.toNat : Int) greatestTime + 1) := by
  obtain ⟨seconds, hseconds, hvalue⟩ := expiresIn?_of_expiry h now
  rw [needsRefresh, hseconds, Option.any_some, decide_eq_true_eq, Int64.le_iff_toInt_le, hvalue,
    Duration.wholeSeconds, toInt_span]
  omega

/-- Without an expiry there is nothing to refresh. -/
theorem needsRefresh_of_no_expiry {c : Credential} (h : c.expiry = none) (now : Reading)
    (window : Duration) : c.needsRefresh now window = false := by
  rw [needsRefresh, expiresIn?, h]
  rfl

/-! ### The window -/

variable {c : Credential} {expiry : Int64} {now : Reading} {window : Duration}

/-- A credential that expires within the window is due. -/
theorem needsRefresh_of_within (h : c.expiry = some expiry)
    (hwithin : (expiry.toInt - now.millis.toInt) * 1000000 ≤ window.total) :
    c.needsRefresh now window = true := by
  have hnanos := window.nanos_lt
  rw [Duration.total] at hwithin
  rw [needsRefresh_iff h, remaining, leastTime, greatestTime]
  omega

/-- A credential that is due expires before the window and another second are over. -/
theorem within_of_needsRefresh (h : c.expiry = some expiry)
    (hfits : FitsTime (expiry.toInt - now.millis.toInt))
    (hdue : c.needsRefresh now window = true) :
    expiry.toInt - now.millis.toInt < 1000 * ((window.seconds.toNat : Int) + 1) := by
  rw [needsRefresh_iff h, remaining_of_fits hfits] at hdue
  omega

/-- A credential that is due stays due: at every later time, and for every longer window. -/
theorem needsRefresh_mono {later : Reading} {longer : Duration}
    (hlater : now.millis ≤ later.millis) (hlonger : window.total ≤ longer.total)
    (hdue : c.needsRefresh now window = true) : c.needsRefresh later longer = true := by
  cases h : c.expiry with
  | none =>
    rw [needsRefresh_of_no_expiry h] at hdue
    cases hdue
  | some expiry =>
    have hwhole : window.seconds.toNat ≤ longer.seconds.toNat := by
      have hnanos := longer.nanos_lt
      simp only [Duration.total] at hlonger
      omega
    rw [Int64.le_iff_toInt_le] at hlater
    rw [needsRefresh_iff h, remaining] at hdue ⊢
    omega

/-! ### Setting the expiry -/

/-- At the time at which a credential is given its lifetime, that is what is left of it. -/
theorem expiresIn?_expiringIn {seconds : Int64} (hspan : FitsTime (1000 * seconds.toInt))
    (hsum : FitsTime (now.millis.toInt + 1000 * seconds.toInt)) :
    (c.expiringIn seconds now).expiresIn? now = some seconds := by
  have hmillis : (millisOf seconds).toInt = 1000 * seconds.toInt := by
    rw [millisOf, Int.mul_comm, toInt_saturate_of_fits hspan.1 hspan.2]
  have hexpiry : (c.expiringIn seconds now).expiry =
      some (saturate (now.millis.toInt + 1000 * seconds.toInt)) := by
    rw [expiringIn, withExpiry, hmillis]
  obtain ⟨left, hleft, hvalue⟩ := expiresIn?_of_expiry hexpiry now
  have hdifference : (saturate (now.millis.toInt + 1000 * seconds.toInt)).toInt -
      now.millis.toInt = 1000 * seconds.toInt := by
    rw [toInt_saturate_of_fits hsum.1 hsum.2]
    omega
  rw [remaining_of_fits (by rwa [hdifference]), hdifference,
    Int.mul_ediv_cancel_left _ (by decide)] at hvalue
  rw [hleft, Int64.toInt_inj.1 hvalue]

/-- When a credential is due for a refresh, in exact integers: always when its expiry is within
the window, to the billionth of a second; and never, where the difference of the times is a time,
when it is a second beyond the whole seconds of the window.  Once due, it stays due as time goes
on and for longer windows.  A lifetime that any credential is given is the lifetime that is
left. -/
theorem needsRefresh_exact (c : Credential) (clock : FixedClock) (window : Duration) :
    (∀ expiry, c.expiry = some expiry →
      ((expiry.toInt - clock.millis.toInt) * 1000000 ≤ (window.total : Int) →
        c.needsRefresh clock.reading window = true) ∧
      (FitsTime (expiry.toInt - clock.millis.toInt) →
        c.needsRefresh clock.reading window = true →
          expiry.toInt - clock.millis.toInt < 1000 * ((window.seconds.toNat : Int) + 1))) ∧
    (c.needsRefresh clock.reading window = true →
      ∀ (later : FixedClock) (longer : Duration), clock.millis ≤ later.millis →
        window.total ≤ longer.total → c.needsRefresh later.reading longer = true) ∧
    ∀ seconds : Int64, FitsTime (1000 * seconds.toInt) →
      FitsTime (clock.millis.toInt + 1000 * seconds.toInt) →
        (c.expiringIn seconds clock.reading).expiresIn? clock.reading = some seconds := by
  have hreading : clock.reading.millis = clock.millis := rfl
  rw [← hreading]
  refine ⟨fun expiry hexpiry => ⟨?within, ?beyond⟩, ?later, ?set⟩
  case within => exact needsRefresh_of_within hexpiry
  case beyond => exact within_of_needsRefresh hexpiry
  case later =>
    intro hdue later longer hlater hlonger
    exact needsRefresh_mono hlater hlonger hdue
  case set =>
    intro seconds hspan hsum
    exact expiresIn?_expiringIn hspan hsum

/-- A minute and 999 milliseconds are left.  That is within a window of a minute and 999
milliseconds, and so within every longer one at every later time; and what is then left is less
than 61 seconds.  A credential without an expiry that is given as many seconds as a clock can
count has them left in full. -/
theorem needsRefresh_exact_to_the_millisecond :
    ((ofAccessToken "a").withExpiry 60999).needsRefresh (FixedClock.mk 0).reading
        (.ofParts 60 999000000) = true ∧
      (60999 : Int64).toInt - (0 : Int64).toInt < 1000 * ((60 : Int) + 1) ∧
      ((ofAccessToken "a").withExpiry 60999).needsRefresh (FixedClock.mk Int64.maxValue).reading
        (.ofParts 18446744073709551615 999999999) = true ∧
      (ofAccessToken "a").expiry = none ∧
      ((ofAccessToken "a").expiringIn 9223372036854775 (FixedClock.mk 0).reading).expiresIn?
        (FixedClock.mk 0).reading = some 9223372036854775 := by
  obtain ⟨hexpires, hlater, -⟩ := needsRefresh_exact ((ofAccessToken "a").withExpiry 60999)
    (.mk 0) (.ofParts 60 999000000)
  obtain ⟨hwithin, hbeyond⟩ := hexpires 60999 rfl
  have hdue := hwithin (by decide)
  refine ⟨hdue, hbeyond (by decide) hdue, hlater hdue _ _ (by decide) (by decide), rfl, ?_⟩
  exact (needsRefresh_exact (ofAccessToken "a") (.mk 0) (.ofSeconds 60)).2.2 9223372036854775
    (by decide) (by decide)

end Credential

end TokenVault
