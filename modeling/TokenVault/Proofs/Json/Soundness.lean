import TokenVault.Proofs.Json.Meaning
import TokenVault.Proofs.Json.Number
import TokenVault.Proofs.Json.Scan

/-!
# Nothing but documents is scanned

The converse of `Document.scan_of_document`: if a scan finds a value that is complete, and nothing
after it, then the input is a document that holds the value (`Document.exists_of_scan`).  Every
octet keeps an invariant (`Taken`): what has been taken so far spells what is open, up to where
the next part begins, and then what there is of that part.
-/

namespace TokenVault.Json

/-! ### Parts between commas -/

/-- Whether octets are parts with commas between them. -/
def Separated {α : Type} (Part : α → Bytes → Prop) : List α → Bytes → Prop
  | [], octets => Blanks octets
  | x :: rest, octets => ∃ before part after tail, octets = before ++ (part ++ (after ++ tail)) ∧
      Blanks before ∧ Part x part ∧ Blanks after ∧
        (rest = [] ∧ tail = [] ∨
          rest ≠ [] ∧ ∃ others, tail = 0x2C :: others ∧ Separated Part rest others)

/-- Whether octets are a key, a colon and a value that spell a member. -/
def MemberWritten (member : StringLiteral × Tree) (part : Bytes) : Prop :=
  ∃ gap space text, part = quoted member.1.raw ++ (gap ++ 0x3A :: (space ++ text)) ∧
    Blanks gap ∧ Blanks space ∧ member.2.Written text

theorem itemsWritten_iff {items : List Tree} {octets : Bytes} :
    ItemsWritten items octets ↔ Separated Tree.Written items octets := by
  induction items generalizing octets with
  | nil => rw [ItemsWritten, Separated]
  | cons item rest ih => simp only [ItemsWritten, Separated, ih]

theorem membersWritten_iff {members : List (StringLiteral × Tree)} {octets : Bytes} :
    MembersWritten members octets ↔ Separated MemberWritten members octets := by
  induction members generalizing octets with
  | nil => rw [MembersWritten, Separated]
  | cons member rest ih =>
    obtain ⟨key, value⟩ := member
    simp only [MembersWritten, Separated, ih]
    constructor
    · rintro ⟨before, gap, space, text, after, tail, rfl, hbefore, hgap, hspace, htext, hafter,
        htail⟩
      exact ⟨before, _, after, tail, by simp, hbefore, ⟨gap, space, text, rfl, hgap, hspace, htext⟩,
        hafter, htail⟩
    · rintro ⟨before, part, after, tail, rfl, hbefore, ⟨gap, space, text, rfl, hgap, hspace, htext⟩,
        hafter, htail⟩
      exact ⟨before, gap, space, text, after, tail, by simp, hbefore, hgap, hspace, htext, hafter,
        htail⟩

theorem Blanks.append {a b : Bytes} (ha : Blanks a) (hb : Blanks b) : Blanks (a ++ b) :=
  fun octet hoctet => (List.mem_append.1 hoctet).elim (ha octet) (hb octet)

theorem blanks_nil : Blanks [] := fun _ => List.not_mem_nil.elim

theorem blanks_singleton {octet : UInt8} (h : isBlank octet = true) : Blanks [octet] :=
  fun _ hmem => List.mem_singleton.1 hmem ▸ h

section

variable {α : Type} {Part : α → Bytes → Prop} {xs ys : List α} {a b : Bytes}

/-- Parts after a comma are added to those before it. -/
theorem Separated.append (h : Separated Part xs a) (hxs : xs ≠ []) (hb : Separated Part ys b)
    (hys : ys ≠ []) : Separated Part (xs ++ ys) (a ++ 0x2C :: b) := by
  induction xs generalizing a with
  | nil => exact absurd rfl hxs
  | cons x rest ih =>
    obtain ⟨before, part, after, tail, rfl, hbefore, hpart, hafter, htail⟩ := h
    rcases htail with ⟨rfl, rfl⟩ | ⟨hrest, others, rfl, hothers⟩
    · exact ⟨before, part, after, 0x2C :: b, by simp, hbefore, hpart, hafter,
        .inr ⟨hys, b, rfl, hb⟩⟩
    · exact ⟨before, part, after, 0x2C :: (others ++ 0x2C :: b), by simp, hbefore, hpart, hafter,
        .inr ⟨by simp [hrest], _, rfl, ih hothers hrest⟩⟩

/-- Blanks after the last part belong to it. -/
theorem Separated.append_blanks (h : Separated Part xs a) (hb : Blanks b) :
    Separated Part xs (a ++ b) := by
  induction xs generalizing a with
  | nil => exact Blanks.append h hb
  | cons x rest ih =>
    obtain ⟨before, part, after, tail, rfl, hbefore, hpart, hafter, htail⟩ := h
    rcases htail with ⟨rfl, rfl⟩ | ⟨hrest, others, rfl, hothers⟩
    · exact ⟨before, part, after ++ b, [], by simp, hbefore, hpart, hafter.append hb,
        .inl ⟨rfl, rfl⟩⟩
    · exact ⟨before, part, after, 0x2C :: (others ++ b), by simp, hbefore, hpart, hafter,
        .inr ⟨hrest, _, rfl, ih hothers⟩⟩

/-- Whether octets are parts after which another one may come. -/
inductive Leads (Part : α → Bytes → Prop) : List α → Bytes → Prop
  | first {blanks : Bytes} : Blanks blanks → Leads Part [] blanks
  | next {xs : List α} {inner blanks : Bytes} : xs ≠ [] → Separated Part xs inner →
      Blanks blanks → Leads Part xs (inner ++ 0x2C :: blanks)

theorem Leads.append_blanks (h : Leads Part xs a) (hb : Blanks b) : Leads Part xs (a ++ b) := by
  cases h with
  | first ha => exact .first (ha.append hb)
  | next hxs hinner hblanks =>
    rw [List.append_assoc, List.cons_append]
    exact .next hxs hinner (hblanks.append hb)

/-- One more part. -/
theorem Leads.add {x : α} (h : Leads Part xs a) (hx : Part x b) :
    Separated Part (xs ++ [x]) (a ++ b) := by
  have hlast : ∀ {before : Bytes}, Blanks before → Separated Part [x] (before ++ b) :=
    fun {before} hbefore =>
      ⟨before, b, [], [], by simp, hbefore, hx, blanks_nil, .inl ⟨rfl, rfl⟩⟩
  cases h with
  | first ha => exact hlast ha
  | next hxs hinner hblanks =>
    rw [List.append_assoc, List.cons_append]
    exact hinner.append hxs (hlast hblanks) (List.cons_ne_nil _ _)

end

/-! ### Literals and numbers that have begun -/

theorem Literal.Form.append {a b : Bytes} (ha : Form a) (hb : Form b) : Form (a ++ b) := by
  induction ha with
  | nil => exact hb
  | plain hplain _ ih => exact .plain hplain ih
  | escape hescape _ ih => exact .escape hescape ih
  | unit hunit _ ih => exact .unit hunit ih

namespace Scan

/-- What there is of a literal. -/
def LiteralPhase.Begins : LiteralPhase → Bytes → Prop
  | .plain, raw => Literal.Form raw
  | .escaped, raw => ∃ before, Literal.Form before ∧ raw = before ++ [Literal.backslash]
  | .digits left valid, raw => ∃ before digits, Literal.Form before ∧
      raw = before ++ Literal.backslash :: Literal.numbered :: digits ∧ digits.length + left = 3 ∧
        (valid = true → ∀ octet ∈ digits, (Literal.hexValue? octet).isSome = true)

/-- An integer as it is written. -/
def Whole (raw : Bytes) : Prop :=
  ∃ sign whole, raw = sign ++ whole ∧ (sign = [] ∨ sign = [0x2D]) ∧ Number.Whole whole

/-- A number without an exponent as it is written. -/
def Mantissa (raw : Bytes) : Prop :=
  ∃ whole fraction, raw = whole ++ fraction ∧ Whole whole ∧ Number.Fraction fraction

/-- What there is of a number. -/
def NumberPhase.Begins : NumberPhase → Bytes → Prop
  | .minus, raw => raw = [0x2D]
  | .zero, raw => ∃ sign, raw = sign ++ [0x30] ∧ (sign = [] ∨ sign = [0x2D])
  | .whole, raw => ∃ sign whole, raw = sign ++ whole ∧ (sign = [] ∨ sign = [0x2D]) ∧
      Number.Digits whole ∧ whole.head? ≠ some 0x30
  | .point, raw => ∃ whole, raw = whole ++ [0x2E] ∧ Whole whole
  | .fraction, raw => ∃ whole digits, raw = whole ++ 0x2E :: digits ∧ Whole whole ∧
      Number.Digits digits
  | .exponentMark, raw => ∃ mantissa mark, raw = mantissa ++ [mark] ∧ Mantissa mantissa ∧
      (mark = 0x65 ∨ mark = 0x45)
  | .exponentSign, raw => ∃ mantissa mark sign, raw = mantissa ++ mark :: sign ∧
      Mantissa mantissa ∧ (mark = 0x65 ∨ mark = 0x45) ∧ (sign = [0x2B] ∨ sign = [0x2D])
  | .exponent, raw => ∃ mantissa mark sign digits, raw = mantissa ++ mark :: (sign ++ digits) ∧
      Mantissa mantissa ∧ (mark = 0x65 ∨ mark = 0x45) ∧
        (sign = [] ∨ sign = [0x2B] ∨ sign = [0x2D]) ∧ Number.Digits digits

theorem whole_of_digits {sign whole : Bytes} (hsign : sign = [] ∨ sign = [0x2D])
    (hdigits : Number.Digits whole) (hhead : whole.head? ≠ some 0x30) : Whole (sign ++ whole) :=
  ⟨sign, whole, rfl, hsign, hdigits, fun h => absurd h hhead⟩

theorem whole_of_zero {sign : Bytes} (hsign : sign = [] ∨ sign = [0x2D]) :
    Whole (sign ++ [0x30]) :=
  ⟨sign, [0x30], rfl, hsign, Number.digits_singleton rfl, fun _ => rfl⟩

theorem Whole.mantissa {raw : Bytes} (h : Whole raw) : Mantissa raw :=
  ⟨raw, [], by simp, h, .inl rfl⟩

theorem Mantissa.form {raw exponent : Bytes} (h : Mantissa raw)
    (hexponent : Number.Exponent exponent) : Number.Form (raw ++ exponent) := by
  obtain ⟨_, fraction, rfl, ⟨sign, whole, rfl, hsign, hwhole⟩, hfraction⟩ := h
  exact ⟨sign, whole, fraction, exponent, by simp, hsign, hwhole, hfraction, hexponent⟩

namespace NumberPhase.Begins

variable {phase next : NumberPhase} {raw : Bytes} {octet : UInt8}

/-- A number that may end is one. -/
theorem form (h : phase.Begins raw) (hcomplete : phase.complete = true) : Number.Form raw := by
  cases phase with
  | zero =>
    obtain ⟨sign, rfl, hsign⟩ := h
    simpa using (whole_of_zero hsign).mantissa.form (.inl rfl)
  | whole =>
    obtain ⟨sign, whole, rfl, hsign, hdigits, hhead⟩ := h
    simpa using (whole_of_digits hsign hdigits hhead).mantissa.form (.inl rfl)
  | fraction =>
    obtain ⟨whole, digits, rfl, hwhole, hdigits⟩ := h
    have hmantissa : Mantissa (whole ++ 0x2E :: digits) :=
      ⟨whole, _, rfl, hwhole, .inr ⟨digits, rfl, hdigits⟩⟩
    simpa using hmantissa.form (.inl rfl)
  | exponent =>
    obtain ⟨mantissa, mark, sign, digits, rfl, hmantissa, hmark, hsign, hdigits⟩ := h
    exact hmantissa.form (.inr ⟨mark, sign, digits, rfl, hmark, hsign, hdigits⟩)
  | minus | point | exponentMark | exponentSign => cases hcomplete

theorem mark (hmantissa : Mantissa raw) (hoctet : octet = 0x65 ∨ octet = 0x45) :
    NumberPhase.Begins .exponentMark (raw ++ [octet]) :=
  ⟨raw, octet, rfl, hmantissa, hoctet⟩

theorem point (hwhole : Whole raw) : NumberPhase.Begins .point (raw ++ [0x2E]) :=
  ⟨raw, rfl, hwhole⟩

/-- A number that goes on. -/
theorem step (h : phase.Begins raw) (hnext : phase.next octet = some next) :
    next.Begins (raw ++ [octet]) := by
  cases phase with
  | minus =>
    obtain rfl : raw = [0x2D] := h
    rw [NumberPhase.next] at hnext
    split at hnext
    · next hzero => cases hnext; subst hzero; exact ⟨[0x2D], rfl, .inr rfl⟩
    · next hzero =>
      split at hnext
      · next hdigit =>
        cases hnext
        exact ⟨[0x2D], [octet], rfl, .inr rfl, Number.digits_singleton hdigit, by simpa using hzero⟩
      · cases hnext
  | zero =>
    obtain ⟨sign, rfl, hsign⟩ := h
    rw [NumberPhase.next] at hnext
    split at hnext
    · next hpoint => cases hnext; subst hpoint; exact point (whole_of_zero hsign)
    · split at hnext
      · next hmark => cases hnext; exact mark (whole_of_zero hsign).mantissa hmark
      · cases hnext
  | whole =>
    obtain ⟨sign, whole, rfl, hsign, hdigits, hhead⟩ := h
    have hwhole := whole_of_digits hsign hdigits hhead
    rw [NumberPhase.next] at hnext
    split at hnext
    · next hdigit =>
      cases hnext
      refine ⟨sign, whole ++ [octet], by simp, hsign, hdigits.append (by simpa using hdigit), ?_⟩
      rwa [List.head?_append_of_ne_nil whole hdigits.1]
    · split at hnext
      · next hpoint => cases hnext; subst hpoint; exact point hwhole
      · split at hnext
        · next hmark => cases hnext; exact mark hwhole.mantissa hmark
        · cases hnext
  | point =>
    obtain ⟨whole, rfl, hwhole⟩ := h
    rw [NumberPhase.next] at hnext
    split at hnext
    · next hdigit =>
      cases hnext
      exact ⟨whole, [octet], by simp, hwhole, Number.digits_singleton hdigit⟩
    · cases hnext
  | fraction =>
    obtain ⟨whole, digits, rfl, hwhole, hdigits⟩ := h
    have hmantissa : Mantissa (whole ++ 0x2E :: digits) :=
      ⟨whole, _, rfl, hwhole, .inr ⟨digits, rfl, hdigits⟩⟩
    rw [NumberPhase.next] at hnext
    split at hnext
    · next hdigit =>
      cases hnext
      exact ⟨whole, digits ++ [octet], by simp, hwhole, hdigits.append (by simpa using hdigit)⟩
    · split at hnext
      · next hmark => cases hnext; exact mark hmantissa hmark
      · cases hnext
  | exponentMark =>
    obtain ⟨mantissa, first, rfl, hmantissa, hfirst⟩ := h
    rw [NumberPhase.next] at hnext
    split at hnext
    · next hsign =>
      cases hnext
      exact ⟨mantissa, first, [octet], by simp, hmantissa, hfirst, by simpa using hsign⟩
    · split at hnext
      · next hdigit =>
        cases hnext
        exact ⟨mantissa, first, [], [octet], by simp, hmantissa, hfirst, .inl rfl,
          Number.digits_singleton hdigit⟩
      · cases hnext
  | exponentSign =>
    obtain ⟨mantissa, first, sign, rfl, hmantissa, hfirst, hsign⟩ := h
    rw [NumberPhase.next] at hnext
    split at hnext
    · next hdigit =>
      cases hnext
      exact ⟨mantissa, first, sign, [octet], by simp, hmantissa, hfirst, .inr hsign,
        Number.digits_singleton hdigit⟩
    · cases hnext
  | exponent =>
    obtain ⟨mantissa, first, sign, digits, rfl, hmantissa, hfirst, hsign, hdigits⟩ := h
    rw [NumberPhase.next] at hnext
    split at hnext
    · next hdigit =>
      cases hnext
      exact ⟨mantissa, first, sign, digits ++ [octet], by simp, hmantissa, hfirst, hsign,
        hdigits.append (by simpa using hdigit)⟩
    · cases hnext

end NumberPhase.Begins

/-! ### Faults -/

/-- Whether a document is at fault: something is left over, or its value is not complete. -/
def AtFault (document : Document) : Prop :=
  document.excess ≠ none ∨ document.root.skip ≠ .ok ()

theorem skip_unwind {fault : Fault} {node : Node} (h : node.skip ≠ .ok ()) (stack : List Frame) :
    (unwind fault node stack).skip ≠ .ok () := by
  -- what is open around a fault is closed by the fault
  induction stack generalizing node with
  | nil => exact h
  | cons frame rest ih =>
    cases frame with
    | array start items => exact ih (by simp [Node.skip])
    | object start members => exact ih (by simp [Node.skip])
    | member start members key => exact ih (by simp [Node.skip])

theorem atFault_unwind {fault : Fault} {node : Node} (h : node.skip ≠ .ok ())
    (stack : List Frame) : AtFault ⟨unwind fault node stack, none⟩ :=
  .inr (skip_unwind h stack)

/-- Whether a state is a scan that is over and has come to a fault. -/
def Faulty (s : State) : Prop := ∃ document, s = .stopped document ∧ AtFault document

theorem faulty_breakValue (stack : List Frame) (start : Nat) (fault : Fault) :
    Faulty (breakValue stack start fault) :=
  ⟨_, rfl, atFault_unwind (by simp [Node.skip]) stack⟩

theorem faulty_breakFrame (fault : Fault) (stack : List Frame) :
    Faulty (breakFrame fault stack) := by
  match stack with
  | [] => exact ⟨_, rfl, .inr (by simp [Node.skip])⟩
  | .array _ _ :: rest => exact ⟨_, rfl, atFault_unwind (by simp [Node.skip]) rest⟩
  | .object _ _ :: rest => exact ⟨_, rfl, atFault_unwind (by simp [Node.skip]) rest⟩
  | .member _ _ _ :: rest => exact ⟨_, rfl, atFault_unwind (by simp [Node.skip]) rest⟩

theorem faulty_breakLiteral (stack : List Frame) (isKey : Bool) (start : Nat) (taken : Bytes)
    (fault : Fault) : Faulty (breakLiteral stack isKey start taken fault) := by
  unfold breakLiteral
  split
  · exact faulty_breakFrame _ _
  · exact faulty_breakValue _ _ _

theorem faulty_endBetween (stack : List Frame) (offset : Nat) (expected : Expected) :
    Faulty (endBetween stack offset expected) := by
  cases expected with
  | value | colon => exact faulty_breakValue _ _ _
  | nextItem | nextKey | firstItem | firstKey | more | word | number | literal =>
    exact faulty_breakFrame _ _

/-! ### What has been taken -/

mutual

/-- Whether octets open a stack, and a value may come after them. -/
inductive Awaits : List Frame → Bytes → Prop
  | root {blanks : Bytes} : Blanks blanks → Awaits [] blanks
  | item {rest : List Frame} {outer lead : Bytes} {start : Nat} {nodes : List Node}
      {items : List Tree} : Awaits rest outer → ItemsScannedAs items nodes.reverse →
        Leads Tree.Written items lead → Awaits (.array start nodes :: rest) (outer ++ 0x5B :: lead)
  | value {rest : List Frame} {opened gap space : Bytes} {start : Nat}
      {nodes : List (Key × Node)} {key : Key} {literal : StringLiteral} :
      AwaitsKey rest nodes opened → key.raw = literal.raw → Blanks gap → Blanks space →
        Awaits (.member start nodes key :: rest)
          (opened ++ (quoted literal.raw ++ (gap ++ 0x3A :: space)))

/-- Whether octets open a stack and an object with members in it, and a key may come after them. -/
inductive AwaitsKey : List Frame → List (Key × Node) → Bytes → Prop
  | member {rest : List Frame} {outer lead : Bytes} {nodes : List (Key × Node)}
      {members : List (StringLiteral × Tree)} : Awaits rest outer →
        MembersScannedAs members nodes.reverse → Leads MemberWritten members lead →
          AwaitsKey rest nodes (outer ++ 0x7B :: lead)

end

/-- Whether a state is that of a scan that has taken some octets. -/
inductive Taken : State → Bytes → Prop
  | value {stack : List Frame} {taken : Bytes} : Awaits stack taken →
      Taken (.running stack .value) taken
  | firstItem {rest : List Frame} {taken : Bytes} {start : Nat} :
      Awaits (.array start [] :: rest) taken →
        Taken (.running (.array start [] :: rest) .firstItem) taken
  | nextItem {rest : List Frame} {taken : Bytes} {start : Nat} {nodes : List Node} :
      Awaits (.array start nodes :: rest) taken →
        Taken (.running (.array start nodes :: rest) .nextItem) taken
  | moreItems {rest : List Frame} {outer inner : Bytes} {start : Nat} {nodes : List Node}
      {items : List Tree} : Awaits rest outer → ItemsScannedAs items nodes.reverse →
        items ≠ [] → Separated Tree.Written items inner →
          Taken (.running (.array start nodes :: rest) .more) (outer ++ 0x5B :: inner)
  | firstKey {rest : List Frame} {taken : Bytes} {start : Nat} : AwaitsKey rest [] taken →
      Taken (.running (.object start [] :: rest) .firstKey) taken
  | nextKey {rest : List Frame} {taken : Bytes} {start : Nat} {nodes : List (Key × Node)} :
      AwaitsKey rest nodes taken →
        Taken (.running (.object start nodes :: rest) .nextKey) taken
  | moreMembers {rest : List Frame} {outer inner : Bytes} {start : Nat}
      {nodes : List (Key × Node)} {members : List (StringLiteral × Tree)} : Awaits rest outer →
        MembersScannedAs members nodes.reverse → members ≠ [] →
          Separated MemberWritten members inner →
            Taken (.running (.object start nodes :: rest) .more) (outer ++ 0x7B :: inner)
  | key {rest : List Frame} {opened raw : Bytes} {start keyStart : Nat}
      {nodes : List (Key × Node)} {phase : LiteralPhase} : AwaitsKey rest nodes opened →
        phase.Begins raw →
          Taken (.running (.object start nodes :: rest) (.literal true keyStart raw.reverse phase))
            (opened ++ Literal.quote :: raw)
  | colon {rest : List Frame} {opened gap : Bytes} {start : Nat} {nodes : List (Key × Node)}
      {key : Key} {literal : StringLiteral} : AwaitsKey rest nodes opened →
        key.raw = literal.raw → Blanks gap →
          Taken (.running (.member start nodes key :: rest) .colon)
            (opened ++ (quoted literal.raw ++ gap))
  | string {stack : List Frame} {outer raw : Bytes} {start : Nat} {phase : LiteralPhase} :
      Awaits stack outer → phase.Begins raw →
        Taken (.running stack (.literal false start raw.reverse phase))
          (outer ++ Literal.quote :: raw)
  | number {stack : List Frame} {outer raw : Bytes} {start : Nat} {phase : NumberPhase} :
      Awaits stack outer → phase.Begins raw →
        Taken (.running stack (.number start raw.reverse phase)) (outer ++ raw)
  | word {stack : List Frame} {outer begun rest : Bytes} {node : Node} (tree : Tree) :
      Awaits stack outer → tree.Written (begun ++ rest) → tree.ScannedAs node → rest ≠ [] →
        Taken (.running stack (.word node rest)) (outer ++ begun)
  | complete {tree : Tree} {root : Node} {taken : Bytes} : tree.Document taken →
      tree.ScannedAs root → Taken (.complete root) taken
  | stopped {document : Document} {taken : Bytes} : AtFault document →
      Taken (.stopped document) taken

theorem finish_between {expected : Expected} (h : Between expected) (stack : List Frame)
    (offset : Nat) :
    finish offset (.running stack expected) = endBetween stack offset expected := by
  cases expected with
  | word node rest => exact h.elim
  | number start taken phase => exact h.elim
  | literal isKey start taken phase => exact h.elim
  | value | firstItem | nextItem | firstKey | nextKey | colon | more => rfl

theorem Faulty.taken {s : State} (h : Faulty s) (taken : Bytes) : Taken s taken := by
  obtain ⟨document, rfl, hdocument⟩ := h
  exact .stopped hdocument

theorem Awaits.blanks {stack : List Frame} {taken blanks : Bytes} (h : Awaits stack taken)
    (hblanks : Blanks blanks) : Awaits stack (taken ++ blanks) := by
  cases h with
  | root hbefore => exact .root (hbefore.append hblanks)
  | item houter hitems hlead =>
    rw [List.append_assoc, List.cons_append]
    exact .item houter hitems (hlead.append_blanks hblanks)
  | value hopened hkey hgap hspace =>
    simp only [List.append_assoc, List.cons_append]
    exact .value hopened hkey hgap (hspace.append hblanks)

theorem AwaitsKey.blanks {rest : List Frame} {nodes : List (Key × Node)} {taken blanks : Bytes}
    (h : AwaitsKey rest nodes taken) (hblanks : Blanks blanks) :
    AwaitsKey rest nodes (taken ++ blanks) := by
  obtain ⟨houter, hmembers, hlead⟩ := h
  rw [List.append_assoc, List.cons_append]
  exact .member houter hmembers (hlead.append_blanks hblanks)

theorem itemsScannedAs_append {items items' : List Tree} {nodes nodes' : List Node}
    (h : ItemsScannedAs items nodes) (h' : ItemsScannedAs items' nodes') :
    ItemsScannedAs (items ++ items') (nodes ++ nodes') := by
  induction items generalizing nodes with
  | nil =>
    cases nodes with
    | nil => exact h'
    | cons => exact h.elim
  | cons item rest ih =>
    cases nodes with
    | nil => exact h.elim
    | cons node others => exact ⟨h.1, ih h.2⟩

theorem membersScannedAs_append {members members' : List (StringLiteral × Tree)}
    {nodes nodes' : List (Key × Node)} (h : MembersScannedAs members nodes)
    (h' : MembersScannedAs members' nodes') :
    MembersScannedAs (members ++ members') (nodes ++ nodes') := by
  induction members generalizing nodes with
  | nil =>
    cases nodes with
    | nil => exact h'
    | cons => exact h.elim
  | cons member rest ih =>
    cases nodes with
    | nil => exact h.elim
    | cons node others => exact ⟨h.1, h.2.1, ih h.2.2⟩

/-- A value that has been taken is put where it belongs. -/
theorem Awaits.deliver {stack : List Frame} {outer text : Bytes} {node : Node}
    (h : Awaits stack outer) (tree : Tree) (htext : tree.Written text)
    (hnode : tree.ScannedAs node) : Taken (Scan.deliver node stack) (outer ++ text) := by
  cases h with
  | root hblanks =>
    exact .complete ⟨outer, text, [], by simp, hblanks, htext, blanks_nil⟩ hnode
  | item houter hitems hlead =>
    rw [List.append_assoc, List.cons_append]
    refine .moreItems houter ?_ (by simp) (hlead.add htext)
    rw [List.reverse_cons]
    exact itemsScannedAs_append hitems ⟨hnode, trivial⟩
  | @value rest opened gap space start nodes key literal hopened hkey hgap hspace =>
    obtain ⟨houter, hmembers, hlead⟩ := hopened
    have hmember : MemberWritten (literal, tree)
        (quoted literal.raw ++ (gap ++ 0x3A :: (space ++ text))) :=
      ⟨gap, space, text, rfl, hgap, hspace, htext⟩
    simp only [List.append_assoc, List.cons_append]
    refine .moreMembers houter ?_ (by simp) (hlead.add hmember)
    rw [List.reverse_cons]
    exact membersScannedAs_append hmembers ⟨hkey, hnode, trivial⟩

/-! ### One octet after the other -/

section

variable {stack : List Frame} {taken : Bytes} {offset : Nat} {octet : UInt8}

theorem Awaits.begin (h : Awaits stack taken) :
    Taken (Scan.begin stack offset octet) (taken ++ [octet]) := by
  have hnumber : ∀ {phase : NumberPhase}, phase.Begins [octet] →
      Taken (.running stack (.number offset [octet].reverse phase)) (taken ++ [octet]) :=
    fun hphase => .number h hphase
  have hstring : Taken (.running stack (.literal false offset [].reverse .plain))
      (taken ++ [Literal.quote]) := .string h Literal.Form.nil
  have hitems : ItemsScannedAs [] [] := trivial
  have hmembers : MembersScannedAs [] [] := trivial
  unfold Scan.begin
  split
  · next hoctet => subst hoctet; exact .firstItem (.item h hitems (.first blanks_nil))
  split
  · next hoctet => subst hoctet; exact .firstKey (.member h hmembers (.first blanks_nil))
  split
  · next hoctet => subst hoctet; exact hstring
  split
  · next hoctet => subst hoctet; exact hnumber rfl
  split
  · next hoctet => subst hoctet; exact hnumber ⟨[], rfl, .inl rfl⟩
  split
  · next hzero hdigit =>
    exact hnumber ⟨[], [octet], rfl, .inl rfl, Number.digits_singleton hdigit, by simpa using hzero⟩
  split
  · next hoctet => subst hoctet; exact .word .null h rfl trivial (List.cons_ne_nil _ _)
  split
  · next hoctet => subst hoctet; exact .word (.boolean true) h rfl rfl (List.cons_ne_nil _ _)
  split
  · next hoctet => subst hoctet; exact .word (.boolean false) h rfl rfl (List.cons_ne_nil _ _)
  · exact (faulty_breakValue _ _ _).taken _

/-- The closing bracket of an array. -/
theorem Awaits.closeArray {start stop : Nat} {nodes : List Node} {inner : Bytes}
    {items : List Tree} (h : Awaits stack taken) (hitems : ItemsScannedAs items nodes)
    (hinner : Separated Tree.Written items inner) :
    Taken (Scan.deliver (.array start nodes (.closed stop)) stack)
      ((taken ++ 0x5B :: inner) ++ [0x5D]) := by
  rw [List.append_assoc, List.cons_append]
  exact h.deliver (.array items) ⟨inner, rfl, itemsWritten_iff.2 hinner⟩ hitems

/-- The closing bracket of an object. -/
theorem Awaits.closeObject {start stop : Nat} {nodes : List (Key × Node)} {inner : Bytes}
    {members : List (StringLiteral × Tree)} (h : Awaits stack taken)
    (hmembers : MembersScannedAs members nodes) (hinner : Separated MemberWritten members inner) :
    Taken (Scan.deliver (.object start nodes (.closed stop)) stack)
      ((taken ++ 0x7B :: inner) ++ [0x7D]) := by
  rw [List.append_assoc, List.cons_append]
  exact h.deliver (.object members) ⟨inner, rfl, membersWritten_iff.2 hinner⟩ hmembers

/-- The closing bracket of an array without items. -/
theorem Awaits.closeNoItems {rest : List Frame} {start stop : Nat}
    (h : Awaits (.array start [] :: rest) taken) :
    Taken (Scan.deliver (.array start [] (.closed stop)) rest) (taken ++ [0x5D]) := by
  cases h with
  | @item _ _ _ _ _ items houter hitems hlead =>
    cases items with
    | nil =>
      cases hlead with
      | first hblanks => exact houter.closeArray hitems hblanks
      | next hne => exact absurd rfl hne
    | cons => exact hitems.elim

/-- The closing bracket of an object without members. -/
theorem AwaitsKey.closeNoMembers {rest : List Frame} {start stop : Nat}
    (h : AwaitsKey rest [] taken) :
    Taken (Scan.deliver (.object start [] (.closed stop)) rest) (taken ++ [0x7D]) := by
  obtain @⟨_, _, _, _, members, houter, hmembers, hlead⟩ := h
  cases members with
  | nil =>
    cases hlead with
    | first hblanks => exact houter.closeObject hmembers hblanks
    | next hne => exact absurd rfl hne
  | cons => exact hmembers.elim

/-- Blanks change nothing between the parts. -/
theorem Taken.blank {expected : Expected} (h : Taken (.running stack expected) taken)
    (hbetween : Between expected) (hoctet : isBlank octet = true) :
    Taken (.running stack expected) (taken ++ [octet]) := by
  have hblank := blanks_singleton hoctet
  cases h with
  | value hawaits => exact .value (hawaits.blanks hblank)
  | firstItem hawaits => exact .firstItem (hawaits.blanks hblank)
  | nextItem hawaits => exact .nextItem (hawaits.blanks hblank)
  | firstKey hawaits => exact .firstKey (hawaits.blanks hblank)
  | nextKey hawaits => exact .nextKey (hawaits.blanks hblank)
  | moreItems houter hitems hne hinner =>
    rw [List.append_assoc, List.cons_append]
    exact .moreItems houter hitems hne (hinner.append_blanks hblank)
  | moreMembers houter hmembers hne hinner =>
    rw [List.append_assoc, List.cons_append]
    exact .moreMembers houter hmembers hne (hinner.append_blanks hblank)
  | colon hawaits hkey hgap =>
    simp only [List.append_assoc]
    exact .colon hawaits hkey (hgap.append hblank)
  | key | string | number | word => exact hbetween.elim

theorem AwaitsKey.quote {rest : List Frame} {nodes : List (Key × Node)} {start : Nat}
    (h : AwaitsKey rest nodes taken) :
    Taken (.running (.object start nodes :: rest) (.literal true offset [] .plain))
      (taken ++ [Literal.quote]) := by
  have hbegun : Taken
      (.running (.object start nodes :: rest) (.literal true offset [].reverse .plain))
      (taken ++ [Literal.quote]) := .key h Literal.Form.nil
  exact hbegun

theorem part_more : part stack offset octet .more = proceed offset octet stack := rfl

/-- An octet that is not blank between the parts. -/
theorem Taken.part {expected : Expected} (h : Taken (.running stack expected) taken)
    (hbetween : Between expected) :
    Taken (part stack offset octet expected) (taken ++ [octet]) := by
  have hfault := fun fault stack => (faulty_breakFrame fault stack).taken (taken ++ [octet])
  cases h with
  | value hawaits => exact hawaits.begin
  | firstItem hawaits =>
    rw [Scan.part]
    split
    · next hoctet => subst hoctet; exact hawaits.closeNoItems
    · exact hawaits.begin
  | nextItem hawaits =>
    rw [Scan.part]
    split
    · exact hfault _ _
    · exact hawaits.begin
  | firstKey hawaits =>
    rw [Scan.part]
    split
    · next hoctet => subst hoctet; exact hawaits.quote
    split
    · next hoctet => subst hoctet; exact hawaits.closeNoMembers
    · exact hfault _ _
  | nextKey hawaits =>
    rw [Scan.part]
    split
    · next hoctet => subst hoctet; exact hawaits.quote
    split
    · exact hfault _ _
    · exact hfault _ _
  | moreItems houter hitems hne hinner =>
    rw [part_more, proceed]
    split
    · next hoctet =>
      subst hoctet
      rw [List.append_assoc, List.cons_append]
      exact .nextItem (.item houter hitems (.next hne hinner blanks_nil))
    split
    · next hoctet => subst hoctet; exact houter.closeArray hitems hinner
    · exact hfault _ _
  | moreMembers houter hmembers hne hinner =>
    rw [part_more, proceed]
    split
    · next hoctet =>
      subst hoctet
      rw [List.append_assoc, List.cons_append]
      exact .nextKey (.member houter hmembers (.next hne hinner blanks_nil))
    split
    · next hoctet => subst hoctet; exact houter.closeObject hmembers hinner
    · exact hfault _ _
  | colon hawaits hkey hgap =>
    rw [Scan.part]
    split
    · next hoctet =>
      subst hoctet
      simp only [List.append_assoc]
      exact .value (.value hawaits hkey hgap blanks_nil)
    · exact (faulty_breakValue _ _ _).taken _
  | key | string | number | word => exact hbetween.elim

theorem Taken.between {expected : Expected} (h : Taken (.running stack expected) taken)
    (hbetween : Between expected) :
    Taken (Scan.between stack offset octet expected) (taken ++ [octet]) := by
  unfold Scan.between
  split
  · next hblank => exact h.blank hbetween hblank
  · exact h.part hbetween

theorem Taken.afterRoot {root : Node} (h : Taken (.complete root) taken) :
    Taken (Scan.afterRoot root offset octet) (taken ++ [octet]) := by
  cases h with
  | complete hdocument hroot =>
    obtain ⟨before, text, after, rfl, hbefore, htext, hafter⟩ := hdocument
    unfold Scan.afterRoot
    split
    · next hblank =>
      exact .complete ⟨before, text, after ++ [octet], by simp, hbefore, htext,
        hafter.append (blanks_singleton hblank)⟩ hroot
    · exact .stopped (.inl (Option.some_ne_none _))

theorem unit?_of_isSome {a b c d : UInt8} (h : ∀ octet ∈ [a, b, c, d],
    (Literal.hexValue? octet).isSome = true) : ∃ n, Literal.unit? a b c d = some n := by
  simp only [List.mem_cons, List.not_mem_nil, or_false, forall_eq_or_imp, forall_eq,
    Option.isSome_iff_exists] at h
  obtain ⟨⟨_, ha⟩, ⟨_, hb⟩, ⟨_, hc⟩, ⟨_, hd⟩⟩ := h
  exact ⟨_, by rw [Literal.unit?, ha, hb, hc, hd]; rfl⟩

/-- An octet within a literal goes on with it, closes it or breaks it off. -/
theorem LiteralPhase.Begins.literal {phase : LiteralPhase} {raw : Bytes} (h : phase.Begins raw)
    (stack : List Frame) (offset : Nat) (isKey : Bool) (start : Nat) (octet : UInt8) :
    (∃ next, next.Begins (raw ++ [octet]) ∧
      literal stack offset isKey start raw.reverse octet phase =
        .running stack (.literal isKey start (raw ++ [octet]).reverse next)) ∨
    (octet = Literal.quote ∧ Literal.Form raw ∧
      literal stack offset isKey start raw.reverse octet phase =
        closeLiteral stack isKey start raw.reverse) ∨
    Faulty (literal stack offset isKey start raw.reverse octet phase) := by
  rw [List.reverse_append, List.reverse_singleton, List.singleton_append]
  cases phase with
  | plain =>
    rw [Scan.literal]
    split
    · next hquote => exact .inr (.inl ⟨hquote, h, rfl⟩)
    split
    · next hbackslash => exact .inl ⟨.escaped, ⟨raw, h, by rw [hbackslash]⟩, rfl⟩
    split
    · exact .inr (.inr (faulty_breakLiteral _ _ _ _ _))
    · next hquote hbackslash hcontrol =>
      have hplain : Literal.Plain octet := ⟨hquote, hbackslash, UInt8.not_lt.1 hcontrol⟩
      exact .inl ⟨.plain, Literal.Form.append h (.plain hplain .nil), rfl⟩
  | escaped =>
    obtain ⟨before, hbefore, rfl⟩ := h
    rw [Scan.literal]
    split
    · next hescape =>
      obtain ⟨_, hsimple⟩ := Option.isSome_iff_exists.1 hescape
      refine .inl ⟨.plain, ?_, rfl⟩
      rw [List.append_assoc]
      exact hbefore.append (.escape hsimple .nil)
    split
    · next hnumbered =>
      exact .inl ⟨.digits 3 true, ⟨before, [], hbefore, by rw [hnumbered]; simp, rfl, by simp⟩, rfl⟩
    · exact .inr (.inr (faulty_breakLiteral _ _ _ _ _))
  | digits left valid =>
    obtain ⟨before, digits, hbefore, rfl, hlength, hvalid⟩ := h
    have hdigits : (valid && (Literal.hexValue? octet).isSome) = true →
        ∀ o ∈ digits ++ [octet], (Literal.hexValue? o).isSome = true := by
      intro hboth
      rw [Bool.and_eq_true] at hboth
      simpa [hboth.2, or_imp, forall_and] using hvalid hboth.1
    cases left with
    | succ left =>
      refine .inl ⟨.digits left (valid && (Literal.hexValue? octet).isSome),
        ⟨before, digits ++ [octet], hbefore, by simp, ?_, hdigits⟩, rfl⟩
      rw [List.length_append, List.length_singleton]
      omega
    | zero =>
      rw [Scan.literal]
      dsimp only
      split
      · next hboth =>
        obtain ⟨a, b, c, rfl⟩ := List.length_eq_three.1 hlength
        obtain ⟨_, hunit⟩ := unit?_of_isSome (hdigits hboth)
        refine .inl ⟨.plain, ?_, rfl⟩
        rw [List.append_assoc]
        exact hbefore.append (.unit hunit .nil)
      · exact .inr (.inr (faulty_breakLiteral _ _ _ _ _))

/-- One octet of a number or after it. -/
theorem NumberPhase.Begins.number {phase : NumberPhase} {raw : Bytes} (h : phase.Begins raw)
    (hawaits : Awaits stack taken) (start : Nat) :
    Taken (number stack offset start raw.reverse phase octet) (taken ++ raw ++ [octet]) := by
  unfold Scan.number
  split
  · next next hnext =>
    have hgoes : Taken (.running stack (.number start (raw ++ [octet]).reverse next))
        (taken ++ (raw ++ [octet])) := .number hawaits (h.step hnext)
    rwa [List.reverse_append, List.reverse_singleton, List.singleton_append,
      ← List.append_assoc] at hgoes
  split
  · next hcomplete =>
    -- the number ends before the octet, which is taken as after any other value
    have hdelivered : Taken (deliver (.number start raw) stack) (taken ++ raw) :=
      hawaits.deliver (.number ⟨raw, h.form hcomplete.1⟩) rfl rfl
    rw [List.reverse_reverse]
    match stack, hdelivered with
    | [], hdelivered => exact hdelivered.afterRoot
    | .array _ _ :: _, hdelivered => exact hdelivered.between trivial
    | .object _ _ :: _, hdelivered => exact hdelivered.between trivial
    | .member _ _ _ :: _, hdelivered => exact hdelivered.between trivial
  · exact (faulty_breakValue _ _ _).taken _

/-- Every octet is taken. -/
theorem Taken.step {s : State} (h : Taken s taken) :
    Taken (step offset octet s) (taken ++ [octet]) := by
  match s with
  | .running stack expected =>
    by_cases hbetween : Between expected
    · rw [step_between hbetween]
      exact h.between hbetween
    cases h with
    | value | firstItem | nextItem | moreItems | firstKey | nextKey | moreMembers | colon =>
      exact absurd trivial hbetween
    | @key rest opened raw start keyStart nodes phase hawaits hphase =>
      rw [Scan.step, List.append_assoc, List.cons_append]
      rcases hphase.literal (.object start nodes :: rest) offset true keyStart octet with
        ⟨next, hnext, heq⟩ | ⟨rfl, hform, heq⟩ | hfaulty
      · rw [heq]
        exact .key hawaits hnext
      · have hclosed : Taken (.running (.member start nodes ⟨keyStart, raw⟩ :: rest) .colon)
            (opened ++ (quoted (StringLiteral.mk raw hform).raw ++ [])) :=
          .colon hawaits rfl blanks_nil
        rw [List.append_nil] at hclosed
        rw [heq, closeLiteral, List.reverse_reverse, if_pos rfl]
        exact hclosed
      · exact hfaulty.taken _
    | @string stack outer raw start phase hawaits hphase =>
      rw [Scan.step, List.append_assoc, List.cons_append]
      rcases hphase.literal stack offset false start octet with
        ⟨next, hnext, heq⟩ | ⟨rfl, hform, heq⟩ | hfaulty
      · rw [heq]
        exact .string hawaits hnext
      · rw [heq]
        exact hawaits.deliver (.string ⟨_, hform⟩) rfl (List.reverse_reverse _)
      · exact hfaulty.taken _
    | number hawaits hphase => exact hphase.number hawaits _
    | @word _ outer begun rest node tree hawaits htext hnode hne =>
      obtain ⟨first, rest, rfl⟩ := List.exists_cons_of_ne_nil hne
      rw [Scan.step, List.append_assoc]
      split
      · next hfirst =>
        subst hfirst
        split
        · next hrest => subst hrest; exact hawaits.deliver tree htext hnode
        · next hrest => exact .word tree hawaits (by simpa using htext) hnode hrest
      · exact (faulty_breakValue _ _ _).taken _
  | .complete root => exact h.afterRoot
  | .stopped document =>
    cases h with
    | stopped hfault => exact .stopped hfault

end

/-- All octets are taken. -/
theorem Taken.run {s : State} {taken : Bytes} (h : Taken s taken) (offset : Nat) (octets : Bytes) :
    Taken (run offset octets s) (taken ++ octets) := by
  induction octets generalizing offset s taken with
  | nil => rwa [List.append_nil]
  | cons octet rest ih =>
    rw [Scan.run, List.append_cons]
    exact ih h.step (offset + 1)

/-- At the end of the input the value of the document is complete, or there is a fault. -/
theorem Taken.finish {s : State} {taken : Bytes} (h : Taken s taken) (offset : Nat) :
    (∃ root, Scan.finish offset s = .complete root ∧ Taken (.complete root) taken) ∨
      Faulty (Scan.finish offset s) := by
  cases s with
  | running stack expected =>
    by_cases hbetween : Between expected
    · rw [finish_between hbetween]
      exact .inr (faulty_endBetween _ _ _)
    cases h with
    | value | firstItem | nextItem | moreItems | firstKey | nextKey | moreMembers | colon =>
      exact absurd trivial hbetween
    | key | string =>
      rw [Scan.finish]
      exact .inr (faulty_breakLiteral _ _ _ _ _)
    | @number _ outer raw start phase hawaits hphase =>
      rw [Scan.finish]
      split
      · next hcomplete =>
        have hdelivered : Taken (deliver (.number start raw) stack) (outer ++ raw) :=
          hawaits.deliver (.number ⟨raw, hphase.form hcomplete⟩) rfl rfl
        rw [List.reverse_reverse]
        cases stack with
        | nil => exact .inl ⟨_, rfl, hdelivered⟩
        | cons frame rest =>
          -- the number is not all of the document, so something that is open is cut off
          cases frame with
          | array | object | member => exact .inr (faulty_endBetween _ _ _)
      · exact .inr (faulty_breakValue _ _ _)
    | word => exact .inr (faulty_breakValue _ _ _)
  | complete root => exact .inl ⟨root, rfl, h⟩
  | stopped document =>
    cases h with
    | stopped hfault => exact .inr ⟨document, rfl, hfault⟩

end Scan

open Scan in
/-- A complete value with nothing left over is that of a document. -/
theorem Document.exists_of_scan {input : Bytes} (hexcess : (Document.scan input).excess = none)
    (hskip : (Document.scan input).root.skip = .ok ()) :
    ∃ tree : Tree, tree.Document input ∧ tree.ScannedAs (Document.scan input).root := by
  have htaken : Taken (run 0 input (.running [] .value)) input :=
    Taken.run (.value (.root blanks_nil)) 0 input
  unfold Document.scan at hexcess hskip ⊢
  rcases htaken.finish input.length with ⟨root, heq, hroot⟩ | ⟨document, heq, hfault⟩
  · cases hroot with
    | @complete tree _ _ hdocument hscanned => exact ⟨tree, hdocument, by rw [heq]; exact hscanned⟩
  · rw [heq] at hexcess hskip
    rcases hfault with hfault | hfault
    · exact absurd hexcess hfault
    · exact absurd hskip hfault

/-- What takes only complete values takes only those of documents. -/
theorem Document.exists_of_read {α : Type} {take : Node → Except Report α}
    (htake : ∀ {node x}, take node = .ok x → node.skip = .ok ()) {input : Bytes} {x : α}
    (h : Document.read input take = .ok x) :
    ∃ (tree : Tree) (node : Node), tree.Document input ∧ tree.ScannedAs node ∧
      take node = .ok x := by
  obtain ⟨hroot, hexcess⟩ := (Document.read_eq_ok_iff input take x).1 h
  obtain ⟨tree, hdocument, hscanned⟩ := Document.exists_of_scan hexcess (htake hroot)
  exact ⟨tree, _, hdocument, hscanned, hroot⟩

end TokenVault.Json
