import TokenVault.Proofs.Clock
import TokenVault.Proofs.Token.Issued

/-!
# Tokens that have expired

A token that has expired is refused at every later time, for the same reason
(`Verifier.verify_of_expired`).  So what a clock that is moved on makes of such a token depends on
whether it goes back: it does not before it passes the end of its range
(`FixedClock.never_back_unless_past_end`), and then the token may be accepted again
(`FixedClock.accepted_past_end`).
-/

namespace TokenVault

namespace Payload

/-- A payload that has expired is not valid. -/
theorem not_validAt_of_expired {payload : Payload} {exp : Int64} {clock : FixedClock}
    {skew : UInt64} (hexp : payload.exp = some exp)
    (hexpired : exp.toInt + min (skew.toNat : Int) greatestTime ≤ clock.seconds.toInt) :
    payload.validAt clock.seconds skew = false := by
  rw [Bool.eq_false_iff, Ne, validAt_iff]
  rintro ⟨-, hunexpired⟩
  exact absurd (hunexpired exp hexp) (Int.not_lt.2 hexpired)

/-- Claims nothing but to expire at the epoch. -/
def untilEpoch : Payload := { empty with exp := some 0 }

end Payload

namespace Verifier

variable {verifier : Verifier} {token : String} {signed : SignedToken} {exp : Int64}
  {clock later : FixedClock}

/-- A genuine token is refused for the time if its payload is not valid. -/
theorem verify_eq_time {now : Int64} (htext : SignedToken.ofText token = .ok signed)
    (hgenuine : signed.Genuine verifier.key)
    (htime : signed.payload.validAt now verifier.skew = false) :
    verifier.verify now token = .error .time := by
  have hcheck := SignedToken.check_eq_ok_iff.2 hgenuine
  simp [verify, htext, hcheck, htime]

/-- The verdict on a token that has expired is the same at every later time, and it is not
accepted. -/
theorem verify_of_expired (htext : SignedToken.ofText token = .ok signed)
    (hexp : signed.payload.exp = some exp)
    (hexpired : exp.toInt + min (verifier.skew.toNat : Int) greatestTime ≤ clock.seconds.toInt)
    (hlater : clock.seconds ≤ later.seconds) :
    verifier.verify later.seconds token = verifier.verify clock.seconds token ∧
      ∀ accepted, verifier.verify later.seconds token ≠ .ok accepted := by
  have hnow := Payload.not_validAt_of_expired hexp hexpired
  have hthen := Payload.not_validAt_of_expired hexp
    (hexpired.trans (Int64.le_iff_toInt_le.1 hlater))
  constructor
  · by_cases hgenuine : signed.Genuine verifier.key
    · rw [verify_eq_time htext hgenuine hnow, verify_eq_time htext hgenuine hthen]
    · refine verify_of_not_genuine (fun read hread => ?_) clock.seconds later.seconds rfl
      obtain rfl := Except.ok.inj (htext.symm.trans hread)
      exact hgenuine
  · intro accepted haccepted
    obtain ⟨hread, -, htime, -⟩ := verify_eq_ok_iff.1 haccepted
    obtain rfl := Except.ok.inj (htext.symm.trans hread)
    exact Bool.false_ne_true (hthen.symm.trans htime)

/-! ### A token that expires at the epoch -/

/-- A key to sign and to check it with. -/
def epochKey : MacKey := ⟨[0x6B], by decide⟩

theorem exists_untilEpoch : ∃ token signed,
    signToken (.mac epochKey) (.ofAlgorithm .hs256) Payload.untilEpoch = .ok token ∧
      SignedToken.ofText token = .ok signed ∧ signed.Genuine (.mac epochKey) ∧
        signed.payload = Payload.untilEpoch := by
  obtain ⟨token, hsigned⟩ : ∃ token,
      signToken (.mac epochKey) (.ofAlgorithm .hs256) Payload.untilEpoch = .ok token :=
    ⟨_, signToken_eq_ok_iff.2 ⟨.hs256, _, rfl, rfl, rfl⟩⟩
  obtain ⟨signed, htext, hgenuine, -, hpayload⟩ := ofText_signToken
    (fun claim hclaim => absurd hclaim List.not_mem_nil) (by decide) hsigned
  exact ⟨token, signed, hsigned, htext, hgenuine, hpayload⟩

end Verifier

namespace FixedClock

/-- How a clock moves on, wherever it stands.  A move that does not pass the end of the range leads
where it should and not back, in milliseconds or in seconds; one that does goes round, from a time
that is not before the epoch to one that is.  A move of which nothing is cut off counts whole
seconds and leaves the part of a second.  A clock that is set, like one that is made, stops at the
ends instead.  A token that has expired for a verifier with this clock keeps its verdict, and is not
accepted, through any number of moves that do not pass the end together. -/
theorem never_back_unless_past_end (clock : FixedClock) :
    (∀ seconds : Int64, 0 ≤ seconds → clock.ahead [seconds] ≤ greatestTime →
      (clock.advance seconds).millis.toInt = clock.ahead [seconds] ∧
        clock.millis ≤ (clock.advance seconds).millis ∧
          clock.seconds ≤ (clock.advance seconds).seconds) ∧
    (∀ seconds : Int64, greatestTime < clock.ahead [seconds] →
      (clock.advance seconds).millis.toInt = clock.ahead [seconds] - 2 ^ 64 ∧
        (clock.advance seconds).seconds.toInt < 0 ∧ 0 ≤ clock.seconds.toInt) ∧
    (∀ seconds : Int64, FitsTime (1000 * seconds.toInt) →
      FitsTime (clock.millis.toInt + 1000 * seconds.toInt) →
        (clock.advance seconds).seconds.toInt = clock.seconds.toInt + seconds.toInt ∧
          (clock.advance seconds).millis.toInt % 1000 = clock.millis.toInt % 1000) ∧
    (∀ seconds : Int64, clock.set seconds = ofSeconds seconds ∧
      (ofSeconds seconds).millis.toInt =
        max leastTime (min (1000 * seconds.toInt) greatestTime)) ∧
    ∀ (verifier : Verifier) (token : String) (signed : SignedToken) (exp : Int64),
      SignedToken.ofText token = .ok signed → signed.payload.exp = some exp →
      exp.toInt + min (verifier.skew.toNat : Int) greatestTime ≤ clock.seconds.toInt →
      ∀ moves : List Int64, (∀ seconds ∈ moves, 0 ≤ seconds) →
        clock.ahead moves ≤ greatestTime →
          verifier.verify (clock.advanceAll moves).seconds token =
            verifier.verify clock.seconds token ∧
          ∀ accepted, verifier.verify (clock.advanceAll moves).seconds token ≠ .ok accepted := by
  refine ⟨?onward, ?past, ?exact, ?set, ?expired⟩
  case onward =>
    intro seconds hnonneg hroom
    have hmoves := List.forall_mem_singleton.2 hnonneg
    have hahead := toInt_advanceAll_of_fits (fits_ahead hmoves hroom)
    have hmillis := le_advanceAll hmoves hroom
    rw [advanceAll_singleton] at hahead hmillis
    exact ⟨hahead, hmillis, seconds_mono hmillis⟩
  case past => exact fun seconds => advance_past_end
  case exact => exact fun seconds => advance_exact
  case set => exact fun seconds => ⟨rfl, toInt_millisOf seconds⟩
  case expired =>
    intro verifier token signed exp htext hexp hexpired moves hmoves hroom
    exact Verifier.verify_of_expired htext hexp hexpired
      (seconds_mono (le_advanceAll hmoves hroom))

/-- With the usual skew of five minutes a token that expires at the epoch is refused when these are
over, and it still is in the last second that a clock shows.  Moved by a second more, the clock
shows a time before the epoch. -/
theorem never_back_up_to_end :
    (ofSeconds 300).seconds ≤ ((ofSeconds 300).advance 9223372036854475).seconds ∧
      ((ofSeconds 300).advance 9223372036854475).seconds.toInt =
        (ofSeconds 300).seconds.toInt + 9223372036854475 ∧
      ((ofSeconds 300).advance 9223372036854476).seconds.toInt < 0 ∧
      ∃ token, signToken (.mac Verifier.epochKey) (.ofAlgorithm .hs256) Payload.untilEpoch =
          .ok token ∧
        (Verifier.ofKey (.mac Verifier.epochKey)).verify
          ((ofSeconds 300).advanceAll [1, 9223372036854474]).seconds token = .error .time := by
  obtain ⟨honward, hpast, hexact, -, hexpired⟩ := never_back_unless_past_end (ofSeconds 300)
  obtain ⟨token, signed, hsigned, htext, hgenuine, hpayload⟩ := Verifier.exists_untilEpoch
  have hover : (0 : Int64).toInt +
      min ((Verifier.ofKey (.mac Verifier.epochKey)).skew.toNat : Int) greatestTime ≤
        (ofSeconds 300).seconds.toInt := by decide
  have hnow : (Verifier.ofKey (.mac Verifier.epochKey)).verify (ofSeconds 300).seconds token =
      .error .time := by
    refine Verifier.verify_eq_time htext hgenuine ?_
    rw [hpayload]
    exact Payload.not_validAt_of_expired rfl hover
  have hmoves : ∀ seconds ∈ ([1, 9223372036854474] : List Int64), 0 ≤ seconds :=
    List.forall_mem_cons.2 ⟨by decide, List.forall_mem_singleton.2 (by decide)⟩
  refine ⟨(honward _ (by decide) (by decide)).2.2, (hexact _ (by decide) (by decide)).1,
    (hpast _ (by decide)).2.1, token, hsigned, ?_⟩
  rw [← hnow]
  exact (hexpired (.ofKey (.mac Verifier.epochKey)) token signed 0 htext (by rw [hpayload]; rfl)
    hover _ hmoves (by decide)).1

/-- In the last second that a clock shows the token is refused.  The clock is moved on by a second,
goes back, and the token is accepted. -/
theorem accepted_past_end :
    ((ofSeconds 9223372036854775).advance 1).millis < (ofSeconds 9223372036854775).millis ∧
      ((ofSeconds 9223372036854775).advance 1).seconds < (ofSeconds 9223372036854775).seconds ∧
      ∃ token, signToken (.mac Verifier.epochKey) (.ofAlgorithm .hs256) Payload.untilEpoch =
          .ok token ∧
        (Verifier.ofKey (.mac Verifier.epochKey)).verify (ofSeconds 9223372036854775).seconds
          token = .error .time ∧
        ∃ accepted, (Verifier.ofKey (.mac Verifier.epochKey)).verify
          ((ofSeconds 9223372036854775).advance 1).seconds token = .ok accepted := by
  obtain ⟨token, signed, hsigned, htext, hgenuine, hpayload⟩ := Verifier.exists_untilEpoch
  refine ⟨by decide, by decide, token, hsigned, ?refused, signed, ?accepted⟩
  case refused =>
    refine Verifier.verify_eq_time htext hgenuine ?_
    rw [hpayload]
    decide
  case accepted =>
    refine Verifier.verify_eq_ok_iff.2 ⟨htext, hgenuine, ?_, .inl rfl, .inl rfl⟩
    rw [hpayload]
    decide

end FixedClock

end TokenVault
