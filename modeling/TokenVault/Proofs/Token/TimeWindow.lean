import TokenVault.Proofs.Time
import TokenVault.Token.Payload

/-!
# The window of a payload

When a payload is valid.  The checks add and subtract the skew with sums that stop at the ends
of the range; as long as the time is not the greatest one, nothing of that shows
(`Payload.validAt_iff_of_lt`), and no clock that counts milliseconds comes that far
(`Payload.validAt_iff`).
-/

namespace TokenVault.Payload

/-- The window in which a payload is valid, in exact integers, at all times but the greatest. -/
theorem validAt_iff_of_lt (payload : Payload) {now : Int64} (hnow : now.toInt < greatestTime)
    (skew : UInt64) :
    payload.validAt now skew = true ↔
      (∀ iat ∈ payload.iat, iat.toInt - min (skew.toNat : Int) greatestTime ≤ now.toInt) ∧
        ∀ exp ∈ payload.exp, now.toInt < exp.toInt + min (skew.toNat : Int) greatestTime := by
  have hissued (iat : Int64) : saturate (iat.toInt - (span skew).toInt) ≤ now ↔
      iat.toInt - min (skew.toNat : Int) greatestTime ≤ now.toInt := by
    have hiat := iat.toInt_lt
    rw [toInt_span]
    refine saturate_le_iff ?_
    rw [greatestTime]
    omega
  have hunexpired (exp : Int64) : now < saturate (exp.toInt + (span skew).toInt) ↔
      now.toInt < exp.toInt + min (skew.toNat : Int) greatestTime := by
    have hexp := exp.le_toInt
    rw [toInt_span]
    refine lt_saturate_iff hnow ?_
    rw [leastTime, greatestTime]
    omega
  simp only [validAt, Bool.and_eq_true, Option.all_eq_true, decide_eq_true_eq, hissued,
    hunexpired, Option.mem_def]

/-- At the greatest time every payload that expires has expired, however large the skew. -/
theorem not_validAt_greatestTime {payload : Payload} {exp now : Int64}
    (hexp : payload.exp = some exp) (hnow : now.toInt = greatestTime) (skew : UInt64) :
    payload.validAt now skew = false := by
  have hlate : ¬now < saturate (exp.toInt + (span skew).toInt) := by
    rw [Int64.lt_iff_toInt_lt, toInt_saturate, hnow, leastTime, greatestTime]
    omega
  simp [validAt, hexp, hlate]

/-- The window in which a payload is valid, by what a clock shows. -/
theorem validAt_iff (payload : Payload) (clock : FixedClock) (skew : UInt64) :
    payload.validAt clock.seconds skew = true ↔
      (∀ iat ∈ payload.iat,
        iat.toInt - min (skew.toNat : Int) greatestTime ≤ clock.seconds.toInt) ∧
      ∀ exp ∈ payload.exp,
        clock.seconds.toInt < exp.toInt + min (skew.toNat : Int) greatestTime :=
  payload.validAt_iff_of_lt clock.seconds_lt_greatestTime skew

/-- Only two claims are looked at. -/
theorem validAt_congr {a b : Payload} (hiat : a.iat = b.iat) (hexp : a.exp = b.exp) (now : Int64)
    (skew : UInt64) : a.validAt now skew = b.validAt now skew := by
  rw [validAt, validAt, hiat, hexp]

/-- A payload is valid, at whatever time a clock shows and for whatever skew, exactly if the time
in whole seconds is in the window that the skew opens around its claims, all in exact integers;
and the claims other than `iat` and `exp` make no difference. -/
theorem validAt_exact (payload : Payload) (millis : Int64) (skew : UInt64) :
    (payload.validAt (FixedClock.mk millis).reading.seconds skew = true ↔
      (payload.iat = none ∨ ∃ iat, payload.iat = some iat ∧
        iat.toInt - min (skew.toNat : Int) (2 ^ 63 - 1) ≤ ⌊(millis.toInt : ℚ) / 1000⌋) ∧
      (payload.exp = none ∨ ∃ exp, payload.exp = some exp ∧
        ⌊(millis.toInt : ℚ) / 1000⌋ < exp.toInt + min (skew.toNat : Int) (2 ^ 63 - 1))) ∧
    ∀ other : Payload, other.iat = payload.iat → other.exp = payload.exp →
      other.validAt (FixedClock.mk millis).reading.seconds skew =
        payload.validAt (FixedClock.mk millis).reading.seconds skew := by
  have hgreatest : greatestTime = 2 ^ 63 - 1 := by decide
  constructor
  · rw [FixedClock.reading, validAt_iff, FixedClock.seconds_eq_floor, hgreatest]
    apply and_congr
    · cases payload.iat with
      | none => simp
      | some iat => simp
    · cases payload.exp with
      | none => simp
      | some exp => simp
  · intro other hiat hexp
    exact validAt_congr hiat hexp _ skew

/-- A payload that is issued at the greatest time and valid with the greatest skew from the epoch
on, but not a millisecond before it, whether it names a time `nbf` or not. -/
theorem validAt_exact_at_ends :
    let payload : Payload := { empty with iat := some Int64.maxValue, exp := some 0 }
    payload.validAt (FixedClock.mk 0).reading.seconds 18446744073709551615 = true ∧
      payload.validAt (FixedClock.mk (-1)).reading.seconds 18446744073709551615 = false ∧
      { payload with nbf := some 1 }.validAt (FixedClock.mk 0).reading.seconds
        18446744073709551615 = true := by
  intro payload
  have hwindow (millis : Int64) := validAt_exact payload millis 18446744073709551615
  have hepoch : ⌊((0 : Int64).toInt : ℚ) / 1000⌋ = 0 := by decide +kernel
  have hbefore : ⌊((-1 : Int64).toInt : ℚ) / 1000⌋ = -1 := by decide +kernel
  have hvalid : payload.validAt (FixedClock.mk 0).reading.seconds 18446744073709551615 = true := by
    refine (hwindow 0).1.2 ⟨.inr ⟨Int64.maxValue, rfl, ?_⟩, .inr ⟨0, rfl, ?_⟩⟩
    · rw [hepoch]
      decide
    · rw [hepoch]
      decide
  refine ⟨hvalid, ?_, ((hwindow 0).2 _ rfl rfl).trans hvalid⟩
  rw [Bool.eq_false_iff, Ne, (hwindow (-1)).1, hbefore]
  rintro ⟨habsent | ⟨iat, hiat, hissued⟩, -⟩
  · cases habsent
  · obtain rfl := Option.some.inj hiat
    exact absurd hissued (by decide)

end TokenVault.Payload
