import TokenVault.Proofs.Json.Literal
import TokenVault.Proofs.Text.Utf8

/-!
# Literals that can be read

In a document that is a text, every literal has a text of its own, unless half of a pair of
escapes stands alone in it: `Tree.Document.legible`.  Quotes, backslashes and what they escape are
ASCII characters, so cutting a document at them leaves texts.
-/

namespace TokenVault.Json

open Bytes (IsText)

/-- Whether no half of a pair of escapes stands alone in a literal. -/
def StringLiteral.Paired (literal : StringLiteral) : Prop :=
  ∃ octets, Literal.StandsFor literal.raw octets

/-- Whether a literal stands for a text. -/
def StringLiteral.Legible (literal : StringLiteral) : Prop := ∃ text, literal.Denotes text

/-! ### Literals in documents that are texts -/

namespace Literal

theorem lt_of_simpleEscape? {kind octet : UInt8} (h : simpleEscape? kind = some octet) :
    kind < 0x80 ∧ octet < 0x80 := by
  have hall : ∀ kind, (simpleEscape? kind).all (fun octet => kind < 0x80 && octet < 0x80) = true :=
    Bytes.forall_octet (by decide +kernel)
  simpa [h] using hall kind

theorem lt_of_hexValue? {octet : UInt8} {value : Nat} (h : hexValue? octet = some value) :
    octet < 0x80 := by
  have hall : ∀ octet, (hexValue? octet).all (fun _ => octet < 0x80) = true :=
    Bytes.forall_octet (by decide +kernel)
  simpa [h] using hall octet

/-- What follows an escape by its number is a text if the whole is. -/
theorem isText_of_unit {a b c d : UInt8} {n : Nat} {p raw : Bytes}
    (hunit : unit? a b c d = some n)
    (h : IsText (p ++ backslash :: numbered :: a :: b :: c :: d :: raw)) :
    IsText p ∧ IsText raw := by
  have hdigits : ∀ octet ∈ [a, b, c, d], octet < 0x80 := by
    simp only [unit?, Option.bind_eq_bind, Option.bind_eq_some_iff] at hunit
    obtain ⟨_, ha, _, hb, _, hc, _, hd, -⟩ := hunit
    simpa using ⟨lt_of_hexValue? ha, lt_of_hexValue? hb, lt_of_hexValue? hc, lt_of_hexValue? hd⟩
  obtain ⟨hbefore, hrest⟩ := Bytes.isText_of_append_cons (by decide) h
  -- one octet after the other is cut off in front of the rest
  have hcut : ∀ {octet : UInt8} {rest : Bytes}, octet < 0x80 → IsText (octet :: rest) →
      IsText rest := fun hoctet hrest => (Bytes.isText_of_append_cons (a := []) hoctet hrest).2
  refine ⟨hbefore, hcut (hdigits d (by simp)) (hcut (hdigits c (by simp))
    (hcut (hdigits b (by simp)) (hcut (hdigits a (by simp)) (hcut ?_ hrest))))⟩
  decide

/-- What a literal stands for is a text if the literal is, together with octets before it that
stand for themselves. -/
theorem StandsFor.isText {raw octets p : Bytes} (h : StandsFor raw octets)
    (htext : IsText (p ++ raw)) : IsText (p ++ octets) := by
  -- a character may be several plain octets, so those before it are kept along
  induction h generalizing p with
  | nil => exact htext
  | @plain octet raw octets _ _ ih =>
    have hmoved : IsText ((p ++ [octet]) ++ raw) := by simpa using htext
    simpa using ih hmoved
  | @escape kind octet raw octets hescape _ ih =>
    obtain ⟨hkind, hoctet⟩ := lt_of_simpleEscape? hescape
    obtain ⟨hbefore, hrest⟩ := Bytes.isText_of_append_cons (by decide) htext
    obtain ⟨-, hraw⟩ := Bytes.isText_of_append_cons (a := []) hkind hrest
    exact hbefore.append ((Bytes.isText_singleton hoctet).append (ih (p := []) hraw))
  | unit hunit _ _ _ ih =>
    obtain ⟨hbefore, hraw⟩ := isText_of_unit hunit htext
    exact hbefore.append (IsText.append ⟨_, rfl⟩ (ih (p := []) hraw))
  | pair hhigh _ hlow _ _ ih =>
    obtain ⟨hbefore, hrest⟩ := isText_of_unit hhigh htext
    obtain ⟨-, hraw⟩ := isText_of_unit (p := []) hlow hrest
    exact hbefore.append (IsText.append ⟨_, rfl⟩ (ih (p := []) hraw))

end Literal

/-- A literal in a text stands for a text, unless half of a pair stands alone in it. -/
theorem StringLiteral.legible_of_infix {literal : StringLiteral} {input : Bytes}
    (hinput : IsText input) (h : quoted literal.raw <:+: input) (hpaired : literal.Paired) :
    literal.Legible := by
  obtain ⟨before, after, rfl⟩ := h
  obtain ⟨octets, hstands⟩ := hpaired
  have hopen : IsText (before ++ Literal.quote :: (literal.raw ++ Literal.quote :: after)) := by
    simpa [quoted] using hinput
  obtain ⟨-, hrest⟩ := Bytes.isText_of_append_cons (by decide) hopen
  obtain ⟨hraw, -⟩ := Bytes.isText_of_append_cons (by decide) hrest
  obtain ⟨text, rfl⟩ := hstands.isText (p := []) hraw
  exact ⟨text, hstands⟩

/-! ### The literals of a tree -/

mutual

/-- Whether something holds of every literal in a tree, the names of members included. -/
def Tree.EachLiteral (P : StringLiteral → Prop) : Tree → Prop
  | .string literal => P literal
  | .array items => EachLiteralOfItems P items
  | .object members => EachLiteralOfMembers P members
  | .null | .boolean _ | .number _ => True

/-- Whether something holds of every literal in items. -/
def EachLiteralOfItems (P : StringLiteral → Prop) : List Tree → Prop
  | [] => True
  | item :: rest => item.EachLiteral P ∧ EachLiteralOfItems P rest

/-- Whether something holds of every literal in members. -/
def EachLiteralOfMembers (P : StringLiteral → Prop) : List (StringLiteral × Tree) → Prop
  | [] => True
  | (key, value) :: rest => P key ∧ value.EachLiteral P ∧ EachLiteralOfMembers P rest

end

theorem eachLiteralOfItems_iff {P : StringLiteral → Prop} {items : List Tree} :
    EachLiteralOfItems P items ↔ ∀ item ∈ items, item.EachLiteral P := by
  induction items with
  | nil => simp [EachLiteralOfItems]
  | cons item rest ih => rw [EachLiteralOfItems, ih, List.forall_mem_cons]

theorem eachLiteralOfMembers_iff {P : StringLiteral → Prop}
    {members : List (StringLiteral × Tree)} :
    EachLiteralOfMembers P members ↔ ∀ member ∈ members, P member.1 ∧ member.2.EachLiteral P := by
  induction members with
  | nil => simp [EachLiteralOfMembers]
  | cons member rest ih => rw [EachLiteralOfMembers, ih, List.forall_mem_cons, and_assoc]

section

variable {P Q R : StringLiteral → Prop}

-- The statements on trees, items and members are proved together, by recursion on the tree.
mutual

theorem Tree.EachLiteral.imp₂ (himp : ∀ literal, P literal → Q literal → R literal) :
    ∀ {tree : Tree}, tree.EachLiteral P → tree.EachLiteral Q → tree.EachLiteral R
  | .null, _, _ | .boolean _, _, _ | .number _, _, _ => trivial
  | .string literal, hp, hq => himp literal hp hq
  | .array _, hp, hq => EachLiteralOfItems.imp₂ himp hp hq
  | .object _, hp, hq => EachLiteralOfMembers.imp₂ himp hp hq

theorem EachLiteralOfItems.imp₂ (himp : ∀ literal, P literal → Q literal → R literal) :
    ∀ {items : List Tree}, EachLiteralOfItems P items → EachLiteralOfItems Q items →
      EachLiteralOfItems R items
  | [], _, _ => trivial
  | _ :: _, hp, hq =>
    ⟨Tree.EachLiteral.imp₂ himp hp.1 hq.1, EachLiteralOfItems.imp₂ himp hp.2 hq.2⟩

theorem EachLiteralOfMembers.imp₂ (himp : ∀ literal, P literal → Q literal → R literal) :
    ∀ {members : List (StringLiteral × Tree)}, EachLiteralOfMembers P members →
      EachLiteralOfMembers Q members → EachLiteralOfMembers R members
  | [], _, _ => trivial
  | (key, _) :: _, hp, hq =>
    ⟨himp key hp.1 hq.1, Tree.EachLiteral.imp₂ himp hp.2.1 hq.2.1,
      EachLiteralOfMembers.imp₂ himp hp.2.2 hq.2.2⟩

end

end

mutual

/-- The literals of a tree stand, with their quotes, in what spells it. -/
theorem Tree.Written.eachLiteral : ∀ {tree : Tree} {octets input : Bytes}, tree.Written octets →
    octets <:+: input → tree.EachLiteral fun literal => quoted literal.raw <:+: input
  | .null, _, _, _, _ | .boolean _, _, _, _, _ | .number _, _, _, _, _ => trivial
  | .string literal, _, _, hwritten, hinput => by
    rw [show _ = quoted literal.raw from hwritten] at hinput
    exact hinput
  | .array _, _, _, ⟨inner, heq, hinner⟩, hinput =>
    ItemsWritten.eachLiteral hinner
      (List.IsInfix.trans ⟨[0x5B], [0x5D], by rw [heq]; simp⟩ hinput)
  | .object _, _, _, ⟨inner, heq, hinner⟩, hinput =>
    MembersWritten.eachLiteral hinner
      (List.IsInfix.trans ⟨[0x7B], [0x7D], by rw [heq]; simp⟩ hinput)

theorem ItemsWritten.eachLiteral : ∀ {items : List Tree} {octets input : Bytes},
    ItemsWritten items octets → octets <:+: input →
      EachLiteralOfItems (fun literal => quoted literal.raw <:+: input) items
  | [], _, _, _, _ => trivial
  | item :: rest, _, _, ⟨before, text, after, tail, heq, _, htext, _, htail⟩, hinput => by
    have hfirst : text <:+: _ :=
      List.IsInfix.trans ⟨before, after ++ tail, by rw [heq]; simp⟩ hinput
    refine ⟨Tree.Written.eachLiteral htext hfirst, ?_⟩
    rcases htail with ⟨rfl, -⟩ | ⟨-, others, rfl, hothers⟩
    · exact trivial
    · exact ItemsWritten.eachLiteral hothers (List.IsInfix.trans
        ⟨before ++ (text ++ (after ++ [0x2C])), [], by rw [heq]; simp⟩ hinput)

theorem MembersWritten.eachLiteral : ∀ {members : List (StringLiteral × Tree)}
    {octets input : Bytes}, MembersWritten members octets → octets <:+: input →
      EachLiteralOfMembers (fun literal => quoted literal.raw <:+: input) members
  | [], _, _, _, _ => trivial
  | (key, value) :: rest, _, _, ⟨before, gap, space, text, after, tail, heq, _, _, _, htext, _,
      htail⟩, hinput => by
    have hkey : quoted key.raw <:+: _ := List.IsInfix.trans
      ⟨before, gap ++ 0x3A :: (space ++ (text ++ (after ++ tail))), by rw [heq]; simp⟩ hinput
    have hvalue : text <:+: _ := List.IsInfix.trans
      ⟨before ++ (quoted key.raw ++ (gap ++ 0x3A :: space)), after ++ tail, by rw [heq]; simp⟩
      hinput
    refine ⟨hkey, Tree.Written.eachLiteral htext hvalue, ?_⟩
    rcases htail with ⟨rfl, -⟩ | ⟨-, others, rfl, hothers⟩
    · exact trivial
    · exact MembersWritten.eachLiteral hothers (List.IsInfix.trans
        ⟨before ++ (quoted key.raw ++ (gap ++ 0x3A :: (space ++ (text ++ (after ++ [0x2C]))))), [],
          by rw [heq]; simp⟩ hinput)

end

/-- Every literal of a document that is a text stands for a text, unless half of a pair stands
alone in it. -/
theorem Tree.Document.legible {tree : Tree} {input : Bytes} (h : tree.Document input)
    (hinput : IsText input) (hpaired : tree.EachLiteral StringLiteral.Paired) :
    tree.EachLiteral StringLiteral.Legible := by
  obtain ⟨before, text, after, rfl, -, hwritten, -⟩ := h
  have hplaced := hwritten.eachLiteral (List.infix_append' before text after)
  exact hplaced.imp₂ (fun literal => literal.legible_of_infix hinput) hpaired

end TokenVault.Json
