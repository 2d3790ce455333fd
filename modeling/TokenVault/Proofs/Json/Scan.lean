import TokenVault.Proofs.Json.Grammar

/-!
# Scanning documents

A document that holds a tree is scanned as a node that holds the tree, and nothing is left over:
`Document.scan_of_document`.  A number ends only with the octet after it, so a state counts as
good as another (`Settles`) if no such octet and no end of the input can tell the two apart.
-/

namespace TokenVault.Json

namespace Scan

/-- The octets that may follow a value: a comma, a closing bracket or a blank. -/
def Ends (octet : UInt8) : Prop := octet ∈ [0x2C, 0x5D, 0x7D, 0x20, 0x0A, 0x0D, 0x09]

instance (octet : UInt8) : Decidable (Ends octet) :=
  inferInstanceAs (Decidable (octet ∈ [0x2C, 0x5D, 0x7D, 0x20, 0x0A, 0x0D, 0x09]))

-- A number in a state that may be its last is not the number delivered, yet no octet that ends
-- it tells the two apart: runs are compared up to that.
/-- Whether one state is as good as another wherever a value may end. -/
structure Settles (s s' : State) : Prop where
  step : ∀ offset octet, Ends octet → step offset octet s = step offset octet s'
  finish : ∀ offset, finish offset s = finish offset s'

namespace Settles

theorem refl (s : State) : Settles s s := ⟨fun _ _ _ => rfl, fun _ => rfl⟩

theorem run_eq {s s' : State} (h : Settles s s') (offset : Nat) {octet : UInt8}
    (hoctet : Ends octet) (rest : Bytes) :
    run offset (octet :: rest) s = run offset (octet :: rest) s' := by
  rw [run, run, h.step offset octet hoctet]

end Settles

theorem run_append (offset : Nat) (a b : Bytes) (s : State) :
    run offset (a ++ b) s = run (offset + a.length) b (run offset a s) := by
  induction a generalizing offset s with
  | nil => rfl
  | cons octet rest ih =>
    rw [List.cons_append, run, run, ih, List.length_cons]
    congr 1
    omega

/-! ### Between the parts -/

/-- Whether a state is between literals, numbers and words. -/
def Between : Expected → Prop
  | .word _ _ | .number _ _ _ | .literal _ _ _ _ => False
  | .value | .firstItem | .nextItem | .firstKey | .nextKey | .colon | .more => True

theorem step_between {expected : Expected} (h : Between expected) (stack : List Frame)
    (offset : Nat) (octet : UInt8) :
    step offset octet (.running stack expected) = between stack offset octet expected := by
  cases expected with
  | word node rest => exact h.elim
  | number start taken phase => exact h.elim
  | literal isKey start taken phase => exact h.elim
  | value | firstItem | nextItem | firstKey | nextKey | colon | more => rfl

theorem run_blanks (expected : Expected) (h : Between expected) (stack : List Frame)
    (offset : Nat) {blanks : Bytes} (hblanks : ∀ octet ∈ blanks, isBlank octet = true) :
    run offset blanks (.running stack expected) = .running stack expected := by
  induction blanks generalizing offset with
  | nil => rfl
  | cons octet rest ih =>
    have hoctet := hblanks octet List.mem_cons_self
    rw [run, step_between h, between, if_pos hoctet]
    exact ih (offset + 1) fun o ho => hblanks o (List.mem_cons_of_mem octet ho)

/-- Whether a value may come next. -/
def TakesValue (expected : Expected) : Prop :=
  expected = .value ∨ expected = .firstItem ∨ expected = .nextItem

theorem TakesValue.between {expected : Expected} (h : TakesValue expected) :
    Between expected := by
  rcases h with rfl | rfl | rfl <;> exact trivial

/-- The first octet of a value is taken in the same way wherever a value may come. -/
theorem step_begin {expected : Expected} (h : TakesValue expected) (stack : List Frame)
    (offset : Nat) (octet : UInt8) (hblank : isBlank octet = false) (hclosing : octet ≠ 0x5D) :
    step offset octet (.running stack expected) = begin stack offset octet := by
  rw [step_between h.between, between, hblank, if_neg (by decide)]
  rcases h with rfl | rfl | rfl
  · rfl
  · rw [part, if_neg hclosing]
  · rw [part, if_neg hclosing]

/-! ### Words -/

theorem run_null {expected : Expected} (h : TakesValue expected) (stack : List Frame)
    (offset : Nat) :
    run offset Value.null.compact (.running stack expected) = deliver (.null offset) stack := by
  have hfirst := step_begin h stack offset 0x6E (by decide) (by decide)
  show run offset [0x6E, 0x75, 0x6C, 0x6C] _ = _
  rw [run, hfirst]
  rfl

theorem run_boolean {expected : Expected} (h : TakesValue expected) (stack : List Frame)
    (offset : Nat) (b : Bool) :
    run offset (Value.boolean b).compact (.running stack expected) =
      deliver (.boolean offset b) stack := by
  cases b with
  | true =>
    have hfirst := step_begin h stack offset 0x74 (by decide) (by decide)
    show run offset [0x74, 0x72, 0x75, 0x65] _ = _
    rw [run, hfirst]
    rfl
  | false =>
    have hfirst := step_begin h stack offset 0x66 (by decide) (by decide)
    show run offset [0x66, 0x61, 0x6C, 0x73, 0x65] _ = _
    rw [run, hfirst]
    rfl

/-! ### Literals -/

theorem step_hexDigit (stack : List Frame) (isKey : Bool) (start : Nat) (taken : Bytes)
    (offset left : Nat) {octet : UInt8} (h : (Literal.hexValue? octet).isSome = true) :
    step offset octet (.running stack (.literal isKey start taken (.digits (left + 1) true))) =
      .running stack (.literal isKey start (octet :: taken) (.digits left true)) := by
  rw [step, literal]
  simp [h]

theorem step_lastHexDigit (stack : List Frame) (isKey : Bool) (start : Nat) (taken : Bytes)
    (offset : Nat) {octet : UInt8} (h : (Literal.hexValue? octet).isSome = true) :
    step offset octet (.running stack (.literal isKey start taken (.digits 0 true))) =
      .running stack (.literal isKey start (octet :: taken) .plain) := by
  rw [step, literal]
  simp [h]

theorem hexDigits_of_unit? {a b c d : UInt8} {n : Nat} (h : Literal.unit? a b c d = some n) :
    (Literal.hexValue? a).isSome = true ∧ (Literal.hexValue? b).isSome = true ∧
      (Literal.hexValue? c).isSome = true ∧ (Literal.hexValue? d).isSome = true := by
  simp only [Literal.unit?, Option.bind_eq_bind, Option.bind_eq_some_iff] at h
  obtain ⟨_, ha, _, hb, _, hc, _, hd, -⟩ := h
  simp [ha, hb, hc, hd]

/-- What may stand between two quotes stays within the literal. -/
theorem run_form (stack : List Frame) (isKey : Bool) (start : Nat) {raw : Bytes}
    (h : Literal.Form raw) (taken : Bytes) (offset : Nat) :
    run offset raw (.running stack (.literal isKey start taken .plain)) =
      .running stack (.literal isKey start (raw.reverse ++ taken) .plain) := by
  induction h generalizing taken offset with
  | nil => rfl
  | @plain octet rest hplain _ ih =>
    obtain ⟨hquote, hbackslash, hcontrol⟩ := hplain
    have hstep : step offset octet (.running stack (.literal isKey start taken .plain)) =
        .running stack (.literal isKey start (octet :: taken) .plain) := by
      simp [step, literal, hquote, hbackslash, UInt8.not_lt.2 hcontrol]
    rw [run, hstep, ih]
    simp
  | @escape kind octet rest hescape _ ih =>
    have hstep : step (offset + 1) kind
        (.running stack (.literal isKey start (Literal.backslash :: taken) .escaped)) =
        .running stack (.literal isKey start (kind :: Literal.backslash :: taken) .plain) := by
      simp [step, literal, hescape]
    show run (offset + 1) (kind :: rest)
      (.running stack (.literal isKey start (Literal.backslash :: taken) .escaped)) = _
    rw [run, hstep, ih]
    simp
  | @unit a b c d n rest hunit _ ih =>
    obtain ⟨ha, hb, hc, hd⟩ := hexDigits_of_unit? hunit
    show run (offset + 2) (a :: b :: c :: d :: rest) (.running stack
      (.literal isKey start (Literal.numbered :: Literal.backslash :: taken) (.digits 3 true))) = _
    rw [run, step_hexDigit _ _ _ _ _ _ ha, run, step_hexDigit _ _ _ _ _ _ hb, run,
      step_hexDigit _ _ _ _ _ _ hc, run, step_lastHexDigit _ _ _ _ _ hd, ih]
    simp

/-- A literal is taken up to its closing quote. -/
theorem run_literal (stack : List Frame) (isKey : Bool) (offset : Nat) (l : StringLiteral) :
    run (offset + 1) (l.raw ++ [Literal.quote]) (.running stack (.literal isKey offset [] .plain)) =
      closeLiteral stack isKey offset l.raw.reverse := by
  rw [run_append, run_form stack isKey offset l.form, List.append_nil]
  rfl

theorem run_string {expected : Expected} (h : TakesValue expected) (stack : List Frame)
    (offset : Nat) (l : StringLiteral) :
    run offset (quoted l.raw) (.running stack expected) = deliver (.string offset l.raw) stack := by
  have hfirst := step_begin h stack offset Literal.quote (by decide) (by decide)
  rw [quoted, run, hfirst]
  show run (offset + 1) _ (.running stack (.literal false offset [] .plain)) = _
  rw [run_literal]
  show deliver (.string offset l.raw.reverse.reverse) stack = _
  rw [List.reverse_reverse]

/-- A key is taken with the colon and the blanks around it. -/
theorem run_key {expected : Expected} (h : expected = .firstKey ∨ expected = .nextKey)
    (rest : List Frame) (start : Nat) (members : List (Key × Node)) (offset : Nat)
    (key : StringLiteral) {gap space : Bytes} (hgap : Blanks gap) (hspace : Blanks space)
    (octets : Bytes) :
    run offset (quoted key.raw ++ (gap ++ 0x3A :: (space ++ octets)))
        (.running (.object start members :: rest) expected) =
      run (offset + (quoted key.raw).length + gap.length + 1 + space.length) octets
        (.running (.member start members ⟨offset, key.raw⟩ :: rest) .value) := by
  have hfirst : step offset Literal.quote (.running (.object start members :: rest) expected) =
      .running (.object start members :: rest) (.literal true offset [] .plain) := by
    rcases h with rfl | rfl <;> rfl
  have hkey : run offset (quoted key.raw) (.running (.object start members :: rest) expected) =
      .running (.member start members ⟨offset, key.raw⟩ :: rest) .colon := by
    rw [quoted, run, hfirst, run_literal, closeLiteral, List.reverse_reverse]
    rfl
  have hcolon : ∀ stack offset,
      step offset 0x3A (.running stack .colon) = .running stack .value := fun _ _ => rfl
  rw [run_append, hkey, run_append, run_blanks .colon trivial _ _ hgap, run, hcolon, run_append,
    run_blanks .value trivial _ _ hspace]

/-! ### Numbers -/

/-- A number goes on. -/
theorem step_number {phase next : NumberPhase} {octet : UInt8} (h : phase.next octet = some next)
    (stack : List Frame) (start : Nat) (taken : Bytes) (offset : Nat) :
    step offset octet (.running stack (.number start taken phase)) =
      .running stack (.number start (octet :: taken) next) := by
  rw [step, number, h]

/-- A number that may end does so where a value may end. -/
theorem next_of_ends {phase : NumberPhase} (h : phase.complete = true) {octet : UInt8}
    (hoctet : Ends octet) : phase.next octet = none ∧ Number.isDigit octet = false := by
  have hall : NumberPhase.next octet .zero = none ∧ NumberPhase.next octet .whole = none ∧
      NumberPhase.next octet .fraction = none ∧ NumberPhase.next octet .exponent = none ∧
        Number.isDigit octet = false := by
    simp only [Ends, List.mem_cons, List.not_mem_nil, or_false] at hoctet
    rcases hoctet with rfl | rfl | rfl | rfl | rfl | rfl | rfl <;> decide
  obtain ⟨hzero, hwhole, hfraction, hexponent, hdigit⟩ := hall
  cases phase with
  | zero => exact ⟨hzero, hdigit⟩
  | whole => exact ⟨hwhole, hdigit⟩
  | fraction => exact ⟨hfraction, hdigit⟩
  | exponent => exact ⟨hexponent, hdigit⟩
  | minus | point | exponentMark | exponentSign => cases h

/-- Once a number is complete, it is as good as delivered. -/
theorem settles_number {phase : NumberPhase} (h : phase.complete = true) (stack : List Frame)
    (start : Nat) (taken : Bytes) :
    Settles (.running stack (.number start taken phase))
      (deliver (.number start taken.reverse) stack) := by
  constructor
  · intro offset octet hoctet
    obtain ⟨hnext, hdigit⟩ := next_of_ends h hoctet
    rw [step, number, hnext]
    simp only [h, hdigit, Bool.false_eq_true, and_false, not_false_eq_true, and_self, if_true]
    match stack with
    | [] | .array _ _ :: _ | .object _ _ :: _ | .member _ _ _ :: _ => rfl
  · intro offset
    rw [finish]
    simp only [h, if_true]
    match stack with
    | [] | .array _ _ :: _ | .object _ _ :: _ | .member _ _ _ :: _ => rfl

/-- Digits in a phase that they do not end. -/
theorem run_digits {phase : NumberPhase}
    (hphase : ∀ octet, Number.isDigit octet = true → phase.next octet = some phase)
    (stack : List Frame) (start : Nat) (taken : Bytes) (offset : Nat) {digits : Bytes}
    (h : ∀ octet ∈ digits, Number.isDigit octet = true) :
    run offset digits (.running stack (.number start taken phase)) =
      .running stack (.number start (digits.reverse ++ taken) phase) := by
  induction digits generalizing taken offset with
  | nil => rfl
  | cons octet rest ih =>
    rw [run, step_number (hphase octet (h octet List.mem_cons_self)),
      ih _ _ fun o ho => h o (List.mem_cons_of_mem octet ho)]
    simp

/-- Digits in a phase that the first of them ends. -/
theorem run_firstDigits {phase next : NumberPhase}
    (hfirst : ∀ octet, Number.isDigit octet = true → phase.next octet = some next)
    (hnext : ∀ octet, Number.isDigit octet = true → next.next octet = some next)
    (stack : List Frame) (start : Nat) (taken : Bytes) (offset : Nat) {digits : Bytes}
    (h : Number.Digits digits) :
    run offset digits (.running stack (.number start taken phase)) =
      .running stack (.number start (digits.reverse ++ taken) next) := by
  obtain ⟨hne, hdigits⟩ := h
  obtain ⟨octet, rest, rfl⟩ := List.exists_cons_of_ne_nil hne
  obtain ⟨hoctet, hrest⟩ := List.forall_mem_cons.1 hdigits
  rw [run, step_number (hfirst octet hoctet), run_digits hnext stack start _ _ hrest]
  simp

theorem ne_of_isDigit {a b : UInt8} (ha : Number.isDigit a = true)
    (hb : Number.isDigit b = false) : a ≠ b := by
  rintro rfl
  rw [ha] at hb
  cases hb

/-- A digit is no point, mark or sign. -/
theorem digit_ne {octet : UInt8} (h : Number.isDigit octet = true) :
    octet ≠ 0x2B ∧ octet ≠ 0x2D ∧ octet ≠ 0x2E ∧ octet ≠ 0x45 ∧ octet ≠ 0x65 :=
  ⟨ne_of_isDigit h rfl, ne_of_isDigit h rfl, ne_of_isDigit h rfl, ne_of_isDigit h rfl,
    ne_of_isDigit h rfl⟩

theorem next_fraction {octet : UInt8} (h : Number.isDigit octet = true) :
    NumberPhase.next octet .fraction = some .fraction := by
  rw [NumberPhase.next, if_pos h]

theorem next_exponent {octet : UInt8} (h : Number.isDigit octet = true) :
    NumberPhase.next octet .exponent = some .exponent := by
  rw [NumberPhase.next, if_pos h]

/-- The digits before the point, from a state that takes the first of them. -/
theorem run_whole (stack : List Frame) (start : Nat) (taken : Bytes) (offset : Nat)
    {whole : Bytes} (h : Number.Whole whole) {s : State}
    (hzero : step offset 0x30 s = .running stack (.number start (0x30 :: taken) .zero))
    (hdigit : ∀ octet, Number.isDigit octet = true → octet ≠ 0x30 →
      step offset octet s = .running stack (.number start (octet :: taken) .whole)) :
    ∃ phase, (phase = .zero ∨ phase = .whole) ∧ run offset whole s =
      .running stack (.number start (whole.reverse ++ taken) phase) := by
  obtain ⟨⟨hne, hdigits⟩, hhead⟩ := h
  obtain ⟨octet, rest, rfl⟩ := List.exists_cons_of_ne_nil hne
  obtain ⟨hoctet, hrest⟩ := List.forall_mem_cons.1 hdigits
  by_cases hfirst : octet = 0x30
  · subst hfirst
    obtain rfl : rest = [] := by simpa using hhead rfl
    exact ⟨.zero, .inl rfl, by rw [run, hzero]; rfl⟩
  · refine ⟨.whole, .inr rfl, ?_⟩
    rw [run, hdigit octet hoctet hfirst,
      run_digits (fun o ho => by rw [NumberPhase.next, if_pos ho]) stack start _ _ hrest]
    simp

/-- The point and the digits after it. -/
theorem run_fraction {phase : NumberPhase} (hphase : phase = .zero ∨ phase = .whole)
    (stack : List Frame) (start : Nat) (taken : Bytes) (offset : Nat) {fraction : Bytes}
    (h : Number.Fraction fraction) :
    ∃ next, (next = .zero ∨ next = .whole ∨ next = .fraction) ∧
      run offset fraction (.running stack (.number start taken phase)) =
        .running stack (.number start (fraction.reverse ++ taken) next) := by
  rcases h with rfl | ⟨digits, rfl, hdigits⟩
  · exact ⟨phase, hphase.imp id .inl, rfl⟩
  · have hpoint : phase.next 0x2E = some .point := by
      rcases hphase with rfl | rfl <;> rfl
    refine ⟨.fraction, .inr (.inr rfl), ?_⟩
    rw [run, step_number hpoint, run_firstDigits (fun o ho => by rw [NumberPhase.next, if_pos ho])
      (fun _ => next_fraction) stack start _ _ hdigits]
    simp

/-- The mark of an exponent, its sign and its digits. -/
theorem run_exponent {phase : NumberPhase}
    (hphase : phase = .zero ∨ phase = .whole ∨ phase = .fraction) (stack : List Frame) (start : Nat)
    (taken : Bytes) (offset : Nat) {exponent : Bytes} (h : Number.Exponent exponent) :
    ∃ next, NumberPhase.complete next = true ∧
      run offset exponent (.running stack (.number start taken phase)) =
        .running stack (.number start (exponent.reverse ++ taken) next) := by
  rcases h with rfl | ⟨mark, sign, digits, rfl, hmark, hsign, hdigits⟩
  · refine ⟨phase, ?_, rfl⟩
    rcases hphase with rfl | rfl | rfl <;> rfl
  · have hnext : phase.next mark = some .exponentMark := by
      rcases hphase with rfl | rfl | rfl <;> rcases hmark with rfl | rfl <;> rfl
    refine ⟨.exponent, rfl, ?_⟩
    rw [run, step_number hnext, run_append]
    -- without a sign the digits come right after the mark
    rcases hsign with rfl | hsign
    · rw [run, run_firstDigits (fun o ho => ?_) (fun _ => next_exponent) stack start _ _ hdigits]
      · simp
      · obtain ⟨hplus, hminus, -⟩ := digit_ne ho
        rw [NumberPhase.next, if_neg (by simp [hplus, hminus]), if_pos ho]
    · have hafter : ∀ o, Number.isDigit o = true →
          NumberPhase.next o .exponentSign = some .exponent := fun o ho => by
        rw [NumberPhase.next, if_pos ho]
      have hsigned : run (offset + 1) sign (.running stack
          (.number start (mark :: taken) .exponentMark)) =
            .running stack (.number start (sign.reverse ++ mark :: taken) .exponentSign) := by
        rcases hsign with rfl | rfl <;> rfl
      rw [hsigned, run_firstDigits hafter (fun _ => next_exponent) stack start _ _ hdigits]
      simp

/-- A digit is no bracket, quote, sign or blank. -/
theorem digit_range {octet : UInt8} (h : Number.isDigit octet = true) :
    octet ≠ 0x5B ∧ octet ≠ 0x7B ∧ octet ≠ Literal.quote ∧ octet ≠ 0x2D ∧
      isBlank octet = false ∧ octet ≠ 0x5D := by
  refine ⟨ne_of_isDigit h rfl, ne_of_isDigit h rfl, ne_of_isDigit h rfl, ne_of_isDigit h rfl, ?_,
    ne_of_isDigit h rfl⟩
  simp [isBlank, ne_of_isDigit (b := 0x20) h rfl, ne_of_isDigit (b := 0x0A) h rfl,
    ne_of_isDigit (b := 0x0D) h rfl, ne_of_isDigit (b := 0x09) h rfl]

theorem step_firstDigit {expected : Expected} (hexpected : TakesValue expected)
    (stack : List Frame) (offset : Nat) {octet : UInt8} (h : Number.isDigit octet = true)
    (hne : octet ≠ 0x30) :
    step offset octet (.running stack expected) =
      .running stack (.number offset [octet] .whole) := by
  obtain ⟨harray, hobject, hquote, hminus, hblank, hclosing⟩ := digit_range h
  rw [step_begin hexpected stack offset octet hblank hclosing, begin, if_neg harray,
    if_neg hobject, if_neg hquote, if_neg hminus, if_neg hne, if_pos h]

/-- The sign of a number and the digits before its point. -/
theorem run_signed {expected : Expected} (hexpected : TakesValue expected) (stack : List Frame)
    (offset : Nat) {sign whole : Bytes} (hsign : sign = [] ∨ sign = [0x2D])
    (h : Number.Whole whole) :
    ∃ phase, (phase = .zero ∨ phase = .whole) ∧
      run offset (sign ++ whole) (.running stack expected) =
        .running stack (.number offset (sign ++ whole).reverse phase) := by
  rcases hsign with rfl | rfl
  · have hzero : step offset 0x30 (.running stack expected) =
        .running stack (.number offset [0x30] .zero) := by
      rw [step_begin hexpected stack offset 0x30 (by decide) (by decide)]
      rfl
    obtain ⟨phase, hphase, hrun⟩ := run_whole stack offset [] offset h hzero
      fun octet hdigit hne => step_firstDigit hexpected stack offset hdigit hne
    exact ⟨phase, hphase, by rw [List.nil_append, hrun, List.append_nil]⟩
  · have hminus : step offset 0x2D (.running stack expected) =
        .running stack (.number offset [0x2D] .minus) := by
      rw [step_begin hexpected stack offset 0x2D (by decide) (by decide)]
      rfl
    obtain ⟨phase, hphase, hrun⟩ := run_whole stack offset [0x2D] (offset + 1) h
      (s := .running stack (.number offset [0x2D] .minus)) rfl
      fun octet hdigit hne => step_number (by rw [NumberPhase.next, if_neg hne, if_pos hdigit])
        stack offset [0x2D] (offset + 1)
    exact ⟨phase, hphase, by rw [List.singleton_append, run, hminus, hrun, List.reverse_cons]⟩

/-- A number is scanned as one that may end where it ends. -/
theorem run_numberLiteral {expected : Expected} (h : TakesValue expected) (stack : List Frame)
    (offset : Nat) (l : NumberLiteral) :
    ∃ phase, NumberPhase.complete phase = true ∧ run offset l.raw (.running stack expected) =
      .running stack (.number offset l.raw.reverse phase) := by
  obtain ⟨sign, whole, fraction, exponent, hraw, hsign, hwhole, hfraction, hexponent⟩ := l.form
  obtain ⟨first, hfirst, hrun⟩ := run_signed h stack offset hsign hwhole
  obtain ⟨second, hsecond, hrun'⟩ := run_fraction hfirst stack offset (sign ++ whole).reverse
    (offset + (sign ++ whole).length) hfraction
  obtain ⟨third, hthird, hrun''⟩ := run_exponent hsecond stack offset
    (fraction.reverse ++ (sign ++ whole).reverse)
    (offset + (sign ++ whole).length + fraction.length) hexponent
  refine ⟨third, hthird, ?_⟩
  rw [hraw, ← List.append_assoc, run_append, hrun, run_append, hrun', hrun'']
  simp

/-! ### Blanks, brackets and commas after a part -/

theorem ends_of_blank {octet : UInt8} (h : isBlank octet = true) : Ends octet := by
  simp only [isBlank, Bool.or_eq_true, decide_eq_true_eq] at h
  rcases h with ((rfl | rfl) | rfl) | rfl <;> decide

/-- Blanks after a part are taken as between parts. -/
theorem Settles.blanks {s : State} {stack : List Frame} (h : Settles s (.running stack .more))
    (offset : Nat) {blanks : Bytes} (hblanks : Blanks blanks) :
    Settles (run offset blanks s) (.running stack .more) := by
  cases blanks with
  | nil => exact h
  | cons blank more =>
    have hblank := ends_of_blank (hblanks blank List.mem_cons_self)
    rw [h.run_eq offset hblank, run_blanks .more trivial stack offset hblanks]
    exact .refl _

/-- Blanks after the value of the document are taken as such. -/
theorem Settles.trailing {s : State} {root : Node} (h : Settles s (.complete root))
    (offset : Nat) {blanks : Bytes} (hblanks : Blanks blanks) :
    Settles (run offset blanks s) (.complete root) := by
  induction blanks generalizing s offset with
  | nil => exact h
  | cons blank more ih =>
    have hblank := hblanks blank List.mem_cons_self
    have hstep : Scan.step offset blank (.complete root) = .complete root := if_pos hblank
    rw [h.run_eq offset (ends_of_blank hblank), run, hstep]
    exact ih (.refl _) (offset + 1) fun octet ho => hblanks octet (List.mem_cons_of_mem blank ho)

theorem step_openArray {expected : Expected} (h : TakesValue expected) (stack : List Frame)
    (offset : Nat) :
    step offset 0x5B (.running stack expected) = .running (.array offset [] :: stack) .firstItem :=
  step_begin h stack offset 0x5B (by decide) (by decide)

theorem step_openObject {expected : Expected} (h : TakesValue expected) (stack : List Frame)
    (offset : Nat) :
    step offset 0x7B (.running stack expected) = .running (.object offset [] :: stack) .firstKey :=
  step_begin h stack offset 0x7B (by decide) (by decide)

section

variable {s : State} {stack : List Frame} {start : Nat}

theorem run_closeArray {nodes : List Node}
    (h : Settles s (.running (.array start nodes :: stack) .more)) (offset : Nat) :
    run offset [0x5D] s =
      deliver (.array start nodes.reverse (.closed (offset + 1))) stack :=
  h.run_eq offset (by decide) []

theorem run_closeObject {nodes : List (Key × Node)}
    (h : Settles s (.running (.object start nodes :: stack) .more)) (offset : Nat) :
    run offset [0x7D] s =
      deliver (.object start nodes.reverse (.closed (offset + 1))) stack :=
  h.run_eq offset (by decide) []

theorem run_commaArray {nodes : List Node}
    (h : Settles s (.running (.array start nodes :: stack) .more)) (offset : Nat) (rest : Bytes) :
    run offset (0x2C :: rest) s =
      run (offset + 1) rest (.running (.array start nodes :: stack) .nextItem) :=
  h.run_eq offset (by decide) rest

theorem run_commaObject {nodes : List (Key × Node)}
    (h : Settles s (.running (.object start nodes :: stack) .more)) (offset : Nat) (rest : Bytes) :
    run offset (0x2C :: rest) s =
      run (offset + 1) rest (.running (.object start nodes :: stack) .nextKey) :=
  h.run_eq offset (by decide) rest

end

/-! ### Values -/

-- The statements on values, items and members are proved together, by recursion on the tree.
mutual

/-- What spells a tree is scanned as a node that holds it, wherever it stands. -/
theorem run_written : ∀ (tree : Tree) {octets : Bytes}, tree.Written octets →
    ∀ (offset : Nat) (stack : List Frame) (expected : Expected), TakesValue expected →
      ∃ node, tree.ScannedAs node ∧
        Settles (run offset octets (.running stack expected)) (deliver node stack)
  | .null, _, hwritten, offset, stack, expected, h => by
    refine ⟨.null offset, trivial, ?_⟩
    rw [show _ = Value.null.compact from hwritten, run_null h]
    exact .refl _
  | .boolean b, _, hwritten, offset, stack, expected, h => by
    refine ⟨.boolean offset b, rfl, ?_⟩
    rw [show _ = (Value.boolean b).compact from hwritten, run_boolean h]
    exact .refl _
  | .number l, _, hwritten, offset, stack, expected, h => by
    obtain ⟨phase, hphase, hrun⟩ := run_numberLiteral h stack offset l
    refine ⟨.number offset l.raw, rfl, ?_⟩
    -- the number is not delivered before the octet after it
    have hsettles := settles_number hphase stack offset l.raw.reverse
    rw [List.reverse_reverse] at hsettles
    rw [show _ = l.raw from hwritten, hrun]
    exact hsettles
  | .string l, _, hwritten, offset, stack, expected, h => by
    refine ⟨.string offset l.raw, rfl, ?_⟩
    rw [show _ = quoted l.raw from hwritten, run_string h]
    exact .refl _
  | .array [], _, ⟨inner, heq, hinner⟩, offset, stack, expected, h => by
    refine ⟨.array offset [] (.closed (offset + 1 + inner.length + 1)), trivial, ?_⟩
    rw [heq, run, step_openArray h, run_append, run_blanks .firstItem trivial _ _ hinner]
    exact .refl _
  | .array (item :: rest), _, ⟨inner, heq, hinner⟩, offset, stack, expected, h => by
    obtain ⟨nodes, hnodes, hsettles⟩ := run_items (item :: rest) (List.cons_ne_nil _ _) hinner
      (offset + 1) offset [] stack .firstItem (.inr (.inl rfl))
    refine ⟨.array offset nodes (.closed (offset + 1 + inner.length + 1)), hnodes, ?_⟩
    rw [heq, run, step_openArray h, run_append, run_closeArray hsettles, List.append_nil,
      List.reverse_reverse]
    exact .refl _
  | .object [], _, ⟨inner, heq, hinner⟩, offset, stack, expected, h => by
    refine ⟨.object offset [] (.closed (offset + 1 + inner.length + 1)), trivial, ?_⟩
    rw [heq, run, step_openObject h, run_append, run_blanks .firstKey trivial _ _ hinner]
    exact .refl _
  | .object (member :: rest), _, ⟨inner, heq, hinner⟩, offset, stack, expected, h => by
    obtain ⟨nodes, hnodes, hsettles⟩ := run_members (member :: rest) (List.cons_ne_nil _ _) hinner
      (offset + 1) offset [] stack .firstKey (.inl rfl)
    refine ⟨.object offset nodes (.closed (offset + 1 + inner.length + 1)), hnodes, ?_⟩
    rw [heq, run, step_openObject h, run_append, run_closeObject hsettles, List.append_nil,
      List.reverse_reverse]
    exact .refl _

/-- Items are added to the array that is open. -/
theorem run_items : ∀ (items : List Tree) {octets : Bytes}, items ≠ [] →
    ItemsWritten items octets →
      ∀ (offset start : Nat) (nodes : List Node) (stack : List Frame) (expected : Expected),
        TakesValue expected → ∃ more, ItemsScannedAs items more ∧
          Settles (run offset octets (.running (.array start nodes :: stack) expected))
            (.running (.array start (more.reverse ++ nodes) :: stack) .more)
  | [], _, hne, _, _, _, _, _, _, _ => absurd rfl hne
  | item :: rest, _, _, ⟨before, text, after, tail, heq, hbefore, htext, hafter, htail⟩, offset,
      start, nodes, stack, expected, h => by
    obtain ⟨node, hnode, hdelivered⟩ := run_written item htext (offset + before.length)
      (.array start nodes :: stack) expected h
    have hsettles : Settles _ (.running (.array start (node :: nodes) :: stack) .more) :=
      hdelivered.blanks (offset + before.length + text.length) hafter
    rw [heq, run_append, run_blanks expected h.between _ _ hbefore, run_append, run_append]
    rcases htail with ⟨rfl, rfl⟩ | ⟨hrest, octets, rfl, hoctets⟩
    · exact ⟨[node], ⟨hnode, trivial⟩, hsettles⟩
    · obtain ⟨more, hmore, hmoreSettles⟩ := run_items rest hrest hoctets
        (offset + before.length + text.length + after.length + 1) start (node :: nodes) stack
        .nextItem (.inr (.inr rfl))
      refine ⟨node :: more, ⟨hnode, hmore⟩, ?_⟩
      rw [run_commaArray hsettles, List.reverse_cons, List.append_assoc]
      exact hmoreSettles

/-- Members are added to the object that is open. -/
theorem run_members : ∀ (members : List (StringLiteral × Tree)) {octets : Bytes},
    members ≠ [] → MembersWritten members octets →
      ∀ (offset start : Nat) (nodes : List (Key × Node)) (stack : List Frame)
        (expected : Expected), expected = .firstKey ∨ expected = .nextKey →
          ∃ more, MembersScannedAs members more ∧
            Settles (run offset octets (.running (.object start nodes :: stack) expected))
              (.running (.object start (more.reverse ++ nodes) :: stack) .more)
  | [], _, hne, _, _, _, _, _, _, _ => absurd rfl hne
  | (key, value) :: rest, _, _, ⟨before, gap, space, text, after, tail, heq, hbefore, hgap, hspace,
      htext, hafter, htail⟩, offset, start, nodes, stack, expected, h => by
    have hbetween : Between expected := by rcases h with rfl | rfl <;> exact trivial
    obtain ⟨node, hnode, hdelivered⟩ := run_written value htext
      (offset + before.length + (quoted key.raw).length + gap.length + 1 + space.length)
      (.member start nodes ⟨offset + before.length, key.raw⟩ :: stack) .value (.inl rfl)
    have hsettles : Settles _ (.running (.object start
        ((⟨offset + before.length, key.raw⟩, node) :: nodes) :: stack) .more) :=
      hdelivered.blanks (offset + before.length + (quoted key.raw).length + gap.length + 1 +
        space.length + text.length) hafter
    rw [heq, run_append, run_blanks expected hbetween _ _ hbefore, run_key h _ _ _ _ _ hgap hspace,
      run_append, run_append]
    rcases htail with ⟨rfl, rfl⟩ | ⟨hrest, octets, rfl, hoctets⟩
    · exact ⟨[(⟨offset + before.length, key.raw⟩, node)], ⟨rfl, hnode, trivial⟩, hsettles⟩
    · obtain ⟨more, hmore, hmoreSettles⟩ := run_members rest hrest hoctets
        (offset + before.length + (quoted key.raw).length + gap.length + 1 + space.length +
          text.length + after.length + 1) start
        ((⟨offset + before.length, key.raw⟩, node) :: nodes) stack .nextKey (.inr rfl)
      refine ⟨(⟨offset + before.length, key.raw⟩, node) :: more, ⟨rfl, hnode, hmore⟩, ?_⟩
      rw [run_commaObject hsettles, List.reverse_cons, List.append_assoc]
      exact hmoreSettles

end

end Scan

open Scan in
/-- A document that holds a tree is scanned as a node that holds it, and nothing is left over. -/
theorem Document.scan_of_document {tree : Tree} {input : Bytes} (h : tree.Document input) :
    ∃ node, tree.ScannedAs node ∧ Document.scan input = ⟨node, none⟩ := by
  obtain ⟨before, text, after, rfl, hbefore, htext, hafter⟩ := h
  obtain ⟨node, hnode, hdelivered⟩ := run_written tree htext before.length [] .value (.inl rfl)
  have hsettles : Settles _ (.complete node) :=
    hdelivered.trailing (before.length + text.length) hafter
  refine ⟨node, hnode, ?_⟩
  rw [Document.scan, run_append, Nat.zero_add, run_blanks .value trivial _ _ hbefore, run_append,
    hsettles.finish]
  rfl

end TokenVault.Json
