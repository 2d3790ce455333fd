import TokenVault.Proofs.Json.Grammar
import TokenVault.Proofs.Result

/-!
# Literals read back

A reader takes a literal for the text that it stands for, and for nothing else
(`StringLiteral.read_eq_ok_iff`).  A text is written octet by octet, each as a piece that stands
for it, so it is read back: `Literal.read_escape`.
-/

namespace TokenVault.Json

namespace Literal

/-! ### What unescaping yields -/

theorem StandsFor.form {raw octets : Bytes} (h : StandsFor raw octets) : Form raw := by
  induction h with
  | nil => exact .nil
  | plain hplain _ ih => exact .plain hplain ih
  | escape hescape _ ih => exact .escape hescape ih
  | unit hunit _ _ _ ih => exact .unit hunit ih
  | pair hhigh _ hlow _ _ ih => exact .unit hhigh (.unit hlow ih)

theorem simpleEscape?_numbered : simpleEscape? numbered = none := by decide

theorem isTrailing_of_isLeading {n : Nat} (h : isLeading n = true) : isTrailing n = false := by
  simp only [isLeading, isTrailing, Bool.and_eq_true, decide_eq_true_eq, Bool.and_eq_false_iff,
    decide_eq_false_iff_not] at h ⊢
  omega

/-- What a literal stands for is what unescaping yields. -/
theorem unescape_of_standsFor {raw octets : Bytes} (h : StandsFor raw octets) (closed : Bool)
    (offset : Nat) (taken : Bytes) :
    unescape closed offset taken raw = .ok (taken.reverse ++ octets) := by
  induction h generalizing offset taken with
  | nil => simp [unescape]
  | plain hplain _ ih =>
    rw [unescape.eq_def]
    simp [hplain.2.1, ih]
  | escape hescape _ ih =>
    rw [unescape.eq_def]
    simp [hescape, ih]
  | unit hunit hleading htrailing _ ih =>
    rw [unescape.eq_def]
    simp [simpleEscape?_numbered, hunit, hleading, htrailing, ih]
  | pair hhigh hleading hlow htrailing _ ih =>
    have hnot := isTrailing_of_isLeading hleading
    rw [unescape.eq_def]
    simp [simpleEscape?_numbered, hhigh, hleading, hnot, hlow, htrailing, ih]

/-- Unescaping yields nothing but what a literal stands for. -/
theorem standsFor_of_unescape {raw : Bytes} (hform : Form raw) {offset : Nat}
    {taken result : Bytes} (h : unescape true offset taken raw = .ok result) :
    ∃ octets, StandsFor raw octets ∧ result = taken.reverse ++ octets := by
  -- half of a pair takes the unit after it along, so the recursion is not on the next piece
  cases hform with
  | nil =>
    rw [unescape, Except.ok.injEq] at h
    exact ⟨[], .nil, by simp [h]⟩
  | plain hplain hrest =>
    rw [unescape.eq_def] at h
    simp only [ne_eq, hplain.2.1, not_false_eq_true, if_true] at h
    obtain ⟨octets, hstands, rfl⟩ := standsFor_of_unescape hrest h
    exact ⟨_, .plain hplain hstands, by simp⟩
  | escape hescape hrest =>
    rw [unescape.eq_def] at h
    simp only [ne_eq, not_true_eq_false, if_false, hescape] at h
    obtain ⟨octets, hstands, rfl⟩ := standsFor_of_unescape hrest h
    exact ⟨_, .escape hescape hstands, by simp⟩
  | @unit _ _ _ _ n _ hunit hrest =>
    rw [unescape.eq_def] at h
    simp only [ne_eq, not_true_eq_false, if_false, simpleEscape?_numbered, hunit] at h
    cases htrailing : isTrailing n with
    | true => simp [htrailing] at h
    | false =>
      cases hleading : isLeading n with
      | false =>
        simp only [htrailing, hleading, Bool.not_false, Bool.false_eq_true, if_true, if_false] at h
        obtain ⟨octets, hstands, rfl⟩ := standsFor_of_unescape hrest h
        exact ⟨_, .unit hunit hleading htrailing hstands, by simp⟩
      | true =>
        simp only [htrailing, hleading, Bool.not_true, Bool.false_eq_true, if_false] at h
        cases hrest with
        | nil => simp at h
        | plain hplain _ => simp [hplain.2.1] at h
        | @escape kind _ _ hescape _ =>
          have hkind : kind ≠ numbered := by
            rintro rfl
            rw [simpleEscape?_numbered] at hescape
            cases hescape
          simp [hkind] at h
        | @unit _ _ _ _ low _ hlow hmore =>
          simp only [not_true_eq_false, if_false, hlow] at h
          cases hlowTrailing : isTrailing low with
          | false => simp [hlowTrailing] at h
          | true =>
            simp only [hlowTrailing, Bool.not_true, Bool.false_eq_true, if_false] at h
            obtain ⟨octets, hstands, hresult⟩ := standsFor_of_unescape hmore h
            refine ⟨_, .pair hunit hleading hlow hlowTrailing hstands, ?_⟩
            rw [hresult, List.reverse_append, List.reverse_reverse, List.append_assoc]
termination_by raw.length

/-! ### What is written -/

/-- A control character, written by its number, stands for itself. -/
theorem control_spec {octet : UInt8} (h : octet < 0x20) :
    unit? 0x30 0x30 (hexSymbol (octet / 16)) (hexSymbol (octet % 16)) = some octet.toNat ∧
      isTrailing octet.toNat = false ∧ isLeading octet.toNat = false ∧
        codePoint octet.toNat = [octet] := by
  have hall : ∀ n < 0x20, unit? 0x30 0x30 (hexSymbol (UInt8.ofNat n / 16))
      (hexSymbol (UInt8.ofNat n % 16)) = some n ∧ isTrailing n = false ∧ isLeading n = false ∧
        codePoint n = [UInt8.ofNat n] := by
    decide
  have hoctet := hall octet.toNat (UInt8.lt_iff_toNat_lt.1 h)
  rwa [UInt8.ofNat_toNat] at hoctet

/-- The piece that is written for an octet stands for that octet. -/
theorem standsFor_escapeOctet (octet : UInt8) {raw octets : Bytes} (h : StandsFor raw octets) :
    StandsFor (escapeOctet octet ++ raw) (octet :: octets) := by
  unfold escapeOctet
  split
  · next hoctet => subst hoctet; exact .escape rfl h
  split
  · next hoctet => subst hoctet; exact .escape rfl h
  split
  · next hoctet => subst hoctet; exact .escape rfl h
  split
  · next hoctet => subst hoctet; exact .escape rfl h
  split
  · next hoctet => subst hoctet; exact .escape rfl h
  split
  · next hoctet => subst hoctet; exact .escape rfl h
  split
  · next hoctet => subst hoctet; exact .escape rfl h
  split
  · next hcontrol =>
    obtain ⟨hunit, htrailing, hleading, hcode⟩ := control_spec hcontrol
    have hstands := StandsFor.unit hunit hleading htrailing h
    rwa [hcode] at hstands
  · next hquote hbackslash _ _ _ _ _ hcontrol =>
    exact .plain ⟨hquote, hbackslash, UInt8.not_lt.1 hcontrol⟩ h

theorem standsFor_flatMap (octets : Bytes) : StandsFor (octets.flatMap escapeOctet) octets := by
  induction octets with
  | nil => exact .nil
  | cons octet rest ih => exact standsFor_escapeOctet octet ih

/-- What is written of a text stands for it. -/
theorem standsFor_escape (text : String) : StandsFor (escape text) (Bytes.ofText text) :=
  standsFor_flatMap (Bytes.ofText text)

/-! ### What is read -/

theorem read_of_standsFor (start : Nat) {raw : Bytes} {text : String}
    (h : StandsFor raw (Bytes.ofText text)) : read start raw = .ok text := by
  rw [read, unescape_of_standsFor h]
  simp

/-- A text is read back from what is written between its quotes. -/
theorem read_escape (start : Nat) (text : String) : read start (escape text) = .ok text :=
  read_of_standsFor start (standsFor_escape text)

end Literal

/-- The literal of a text, as a writer puts it. -/
def StringLiteral.ofText (text : String) : StringLiteral :=
  ⟨Literal.escape text, (Literal.standsFor_escape text).form⟩

/-- A literal is read as the text that it stands for. -/
theorem StringLiteral.read_eq_ok_iff (literal : StringLiteral) (start : Nat) (text : String) :
    Literal.read start literal.raw = .ok text ↔ literal.Denotes text := by
  refine ⟨fun h => ?_, Literal.read_of_standsFor start⟩
  rw [Literal.read] at h
  obtain ⟨octets, hunescape, h⟩ := Result.bind_eq_ok_iff.1 h
  obtain ⟨_, hstands, heq⟩ := Literal.standsFor_of_unescape literal.form hunescape
  rw [List.reverse_nil, List.nil_append] at heq
  subst heq
  cases htext : Bytes.text? octets with
  | none => simp [htext] at h
  | some read =>
    simp only [htext, Result.pure_eq_ok, Except.ok.injEq] at h
    subst h
    rw [StringLiteral.Denotes, Bytes.ofText_of_text? htext]
    exact hstands

/-- A literal stands for one text at most. -/
theorem StringLiteral.Denotes.unique {literal : StringLiteral} {a b : String}
    (ha : literal.Denotes a) (hb : literal.Denotes b) : a = b := by
  have hread := (literal.read_eq_ok_iff 0 a).2 ha
  rw [(literal.read_eq_ok_iff 0 b).2 hb, Except.ok.injEq] at hread
  exact hread.symm

end TokenVault.Json
