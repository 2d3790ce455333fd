import TokenVault.Text.Bytes

/-!
# Big-endian numbers

`Bytes.toNat` and `Bytes.ofNat` are inverse to each other on numbers that fit the width.
-/

namespace TokenVault.Bytes

theorem toNat_append_singleton (bytes : Bytes) (b : UInt8) :
    toNat (bytes ++ [b]) = toNat bytes * 256 + b.toNat := by
  rw [toNat, List.foldl_append]
  rfl

/-- The first octet counts for as many places as follow it. -/
theorem toNat_cons (b : UInt8) (rest : Bytes) :
    toNat (b :: rest) = b.toNat * Nat.pow 256 rest.length + toNat rest := by
  have hfold : ∀ (bytes : Bytes) (acc : Nat),
      bytes.foldl (fun acc b => acc * 256 + b.toNat) acc =
        acc * Nat.pow 256 bytes.length + toNat bytes := by
    intro bytes
    induction bytes with
    | nil => simp [toNat]
    | cons c rest ih =>
      intro acc
      rw [toNat, List.foldl_cons, List.foldl_cons, ih, ih, List.length_cons, Nat.pow_eq,
        Nat.pow_eq, Nat.pow_succ, Nat.zero_mul, Nat.zero_add, Nat.add_mul, Nat.mul_assoc,
        Nat.mul_comm 256, Nat.add_assoc]
  have hrest := hfold rest b.toNat
  rwa [toNat, List.foldl_cons, Nat.zero_mul, Nat.zero_add]

/-- Octets without a leading zero denote a number that takes all their places. -/
theorem le_toNat {bytes : Bytes} (hne : bytes ≠ []) (hhead : bytes.head? ≠ some 0) :
    Nat.pow 256 (bytes.length - 1) ≤ toNat bytes := by
  cases bytes with
  | nil => exact absurd rfl hne
  | cons b rest =>
    have hb : b ≠ 0 := by simpa using hhead
    have hpositive : 0 < b.toNat := by
      apply Nat.pos_of_ne_zero
      intro hzero
      exact hb (UInt8.toNat_inj.1 hzero)
    rw [toNat_cons, List.length_cons, Nat.add_sub_cancel]
    exact Nat.le_trans (Nat.le_mul_of_pos_left _ hpositive) (Nat.le_add_right _ _)

/-- A number that fits the width is read back from its octets. -/
theorem toNat_ofNat {width n : Nat} (h : n < Nat.pow 256 width) : toNat (ofNat width n) = n := by
  induction width generalizing n with
  | zero =>
    have hzero : n = 0 := by simpa using h
    subst hzero
    rfl
  | succ width ih =>
    have hquotient : n / 256 < Nat.pow 256 width := by
      rw [Nat.pow_eq, Nat.pow_succ] at h
      exact Nat.div_lt_of_lt_mul (by rwa [Nat.mul_comm] at h)
    rw [ofNat, toNat_append_singleton, ih hquotient, UInt8.toNat_ofNat']
    omega

/-- Octets are written again for the number that they denote. -/
theorem ofNat_toNat (bytes : Bytes) : ofNat bytes.length (toNat bytes) = bytes := by
  induction hlength : bytes.length generalizing bytes with
  | zero =>
    rw [List.length_eq_zero_iff.1 hlength]
    rfl
  | succ width ih =>
    rcases List.eq_nil_or_concat bytes with rfl | ⟨rest, b, rfl⟩
    · simp at hlength
    · have hrest : rest.length = width := by simpa using hlength
      have hb := b.toNat_lt
      have hquotient : (toNat rest * 256 + b.toNat) / 256 = toNat rest := by omega
      rw [List.concat_eq_append, ofNat, toNat_append_singleton, hquotient, ih rest hrest]
      congr 2
      apply UInt8.toNat_inj.1
      rw [UInt8.toNat_ofNat']
      omega

theorem ofNat_zero (width : Nat) : ofNat width 0 = List.replicate width 0 := by
  induction width with
  | zero => rfl
  | succ width ih =>
    rw [ofNat, Nat.zero_div, ih, List.replicate_succ']
    rfl

/-- Octets that are not all zero denote a positive number. -/
theorem toNat_pos {bytes : Bytes} {b : UInt8} (hmem : b ∈ bytes) (hb : b ≠ 0) :
    0 < toNat bytes := by
  apply Nat.pos_of_ne_zero
  intro hzero
  have hall := ofNat_toNat bytes
  rw [hzero, ofNat_zero] at hall
  rw [← hall] at hmem
  exact hb (List.eq_of_mem_replicate hmem)

end TokenVault.Bytes
