import Mathlib.Data.List.Forall2
import TokenVault.Proofs.Json.Literal
import TokenVault.Proofs.Json.Soundness

/-!
# Interchangeable texts

Two documents that have different letters and digits in one of their texts, and are the same apart
from that, are scanned side by side: what is open and what has been found stays alike with every
octet (`Scan.State.Alike.step`), so the nodes of both documents are alike
(`Document.scan_withText`), and every place is the same in both (`Position.after_alike`).
-/

namespace TokenVault

/-! ### Texts of letters and digits -/

/-- Whether two texts are of one length and consist of letters and digits. -/
structure Interchangeable (s t : String) : Prop where
  length : s.length = t.length
  left : ∀ c ∈ s.toList, c.isAlphanum = true
  right : ∀ c ∈ t.toList, c.isAlphanum = true

theorem interchangeable_letters : Interchangeable "A" "B" where
  length := rfl
  left c hc := by
    obtain rfl : c = 'A' := by simpa using hc
    rfl
  right c hc := by
    obtain rfl : c = 'B' := by simpa using hc
    rfl

namespace Bytes

/-- Whether an octet is a letter or a digit. -/
def isAlphanumeric (octet : UInt8) : Bool :=
  (0x30 ≤ octet && octet ≤ 0x39) || (0x41 ≤ octet && octet ≤ 0x5A) ||
    (0x61 ≤ octet && octet ≤ 0x7A)

theorem isAlphanumeric_of_char {c : Char} (h : c.isAlphanum = true) :
    c.toNat < 0x80 ∧ isAlphanumeric (UInt8.ofNat c.toNat) = true := by
  have hranges : ((0x41 ≤ c.toNat ∧ c.toNat ≤ 0x5A) ∨ (0x61 ≤ c.toNat ∧ c.toNat ≤ 0x7A)) ∨
      (0x30 ≤ c.toNat ∧ c.toNat ≤ 0x39) := by
    rcases Bool.or_eq_true_iff.1 h with hletter | hdigit
    · rcases Bool.or_eq_true_iff.1 hletter with hupper | hlower
      · exact .inl (.inl (of_decide_eq_true hupper))
      · have hbounds := Bool.and_eq_true_iff.1 hlower
        exact .inl (.inr ⟨of_decide_eq_true hbounds.1, of_decide_eq_true hbounds.2⟩)
    · exact .inr (Char.isDigit_iff_toNat.1 hdigit)
  refine ⟨by omega, ?_⟩
  simp only [isAlphanumeric, Bool.or_eq_true, Bool.and_eq_true, decide_eq_true_eq,
    UInt8.le_iff_toNat_le, UInt8.toNat_ofNat', UInt8.reduceToNat]
  omega

theorem ne_of_isAlphanumeric {a b : UInt8} (ha : isAlphanumeric a = true)
    (hb : isAlphanumeric b = false) : a ≠ b := by
  rintro rfl
  rw [ha] at hb
  cases hb

/-- A text of letters and digits is as many octets as it has characters. -/
theorem ofText_alphanumeric {text : String} (h : ∀ c ∈ text.toList, c.isAlphanum = true) :
    (ofText text).length = text.length ∧ ∀ octet ∈ ofText text, isAlphanumeric octet = true := by
  have hoctets : ofText text = text.toList.map fun c => UInt8.ofNat c.toNat := by
    rw [← ofText_ofList_of_ascii fun c hc => (isAlphanumeric_of_char (h c hc)).1,
      String.ofList_toList]
  rw [hoctets]
  refine ⟨by rw [List.length_map, String.length_toList], fun octet hoctet => ?_⟩
  obtain ⟨c, hc, rfl⟩ := List.mem_map.1 hoctet
  exact (isAlphanumeric_of_char (h c hc)).2

/-- Whether octets are told apart by no question that is answered with no for every letter and
every digit. -/
def Alike (a b : Bytes) : Prop :=
  ∀ p : UInt8 → Bool, (∀ octet, isAlphanumeric octet = true → p octet = false) → a.map p = b.map p

namespace Alike

variable {a b : Bytes}

theorem refl (a : Bytes) : Alike a a := fun _ _ => rfl

theorem append {c d : Bytes} (h : Alike a b) (h' : Alike c d) : Alike (a ++ c) (b ++ d) := by
  intro p hp
  rw [List.map_append, List.map_append, h p hp, h' p hp]

theorem take (h : Alike a b) (n : Nat) : Alike (a.take n) (b.take n) := by
  intro p hp
  rw [List.map_take, List.map_take, h p hp]

theorem drop (h : Alike a b) (n : Nat) : Alike (a.drop n) (b.drop n) := by
  intro p hp
  rw [List.map_drop, List.map_drop, h p hp]

theorem reverse (h : Alike a b) : Alike a.reverse b.reverse := by
  intro p hp
  rw [List.map_reverse, List.map_reverse, h p hp]

theorem length_takeWhile (h : Alike a b) {p q : UInt8 → Bool} (r : Bool → Bool)
    (hp : ∀ octet, isAlphanumeric octet = true → p octet = false) (hq : q = r ∘ p) :
    (a.takeWhile q).length = (b.takeWhile q).length := by
  have htaken : ∀ octets : Bytes, (octets.takeWhile q).length =
      ((octets.map p).takeWhile r).length := fun octets => by
    rw [List.takeWhile_map, List.length_map, hq]
  rw [htaken, htaken, h p hp]

end Alike

/-- Interchangeable texts are alike. -/
theorem alike_ofText {s t : String} (h : Interchangeable s t) : Alike (ofText s) (ofText t) := by
  obtain ⟨hs, hsAlphanumeric⟩ := ofText_alphanumeric h.left
  obtain ⟨ht, htAlphanumeric⟩ := ofText_alphanumeric h.right
  intro p hp
  have hmap : ∀ octets : Bytes, (∀ octet ∈ octets, isAlphanumeric octet = true) →
      octets.map p = List.replicate octets.length false := fun octets hall =>
    List.eq_replicate_iff.2 ⟨List.length_map _, fun b hb => by
      obtain ⟨octet, hoctet, rfl⟩ := List.mem_map.1 hb
      exact hp octet (hall octet hoctet)⟩
  rw [hmap _ hsAlphanumeric, hmap _ htAlphanumeric, hs, ht, h.length]

end Bytes

namespace Json

/-! ### Places -/

theorem isBlank_of_isAlphanumeric {octet : UInt8} (h : Bytes.isAlphanumeric octet = true) :
    isBlank octet = false := by
  have hne := fun {b : UInt8} => Bytes.ne_of_isAlphanumeric (b := b) h
  simp [isBlank, hne (b := 0x20) rfl, hne (b := 0x0A) rfl, hne (b := 0x0D) rfl,
    hne (b := 0x09) rfl]

theorem settle_alike {a b : Bytes} (h : Bytes.Alike a b) (offset : Nat) :
    settle a closingBrace offset = settle b closingBrace offset := by
  have hblanks : ((a.drop offset).takeWhile isBlank).length =
      ((b.drop offset).takeWhile isBlank).length :=
    (h.drop offset).length_takeWhile id (fun _ => isBlank_of_isAlphanumeric) rfl
  have hclosing : ∀ n, ((a.drop offset).drop n).head? = some closingBrace ↔
      ((b.drop offset).drop n).head? = some closingBrace := by
    intro n
    have hhead : ∀ octets : Bytes, octets.head? = some closingBrace ↔
        (octets.map (· == closingBrace)).head? = some true := fun octets => by
      cases octets <;> simp
    have hmap := ((h.drop offset).drop n) (· == closingBrace) fun octet hoctet =>
      beq_false_of_ne (Bytes.ne_of_isAlphanumeric hoctet rfl)
    rw [hhead, hhead, hmap]
  rw [settle, settle]
  simp only [hblanks, hclosing]

theorem Position.after_alike {a b : Bytes} (h : Bytes.Alike a b) (offset : Nat) :
    Position.after a offset = Position.after b offset := by
  have hno : ∀ octet, Bytes.isAlphanumeric octet = true → (octet == 0x0A) = false :=
    fun _ hoctet => beq_false_of_ne (Bytes.ne_of_isAlphanumeric hoctet rfl)
  have hlines : ∀ octets : Bytes, octets.count 0x0A = (octets.map (· == 0x0A)).count true :=
    fun octets => by simp [List.count, List.countP_map, Function.comp_def]
  have hcolumns := (h.take offset).reverse.length_takeWhile (q := fun octet => octet ≠ 0x0A) not hno
    (by funext octet; by_cases hoctet : octet = 0x0A <;> simp [hoctet])
  rw [Position.after, Position.after, hlines, hlines, h.take offset _ hno, hcolumns]

variable {s t : String}

/-! ### Nodes -/

/-- Whether two nodes are the same, but that texts in one may stand in place of texts in the
other. -/
inductive Node.Alike (s t : String) : Node → Node → Prop
  | refl (node : Node) : Alike s t node node
  | string (start : Nat) :
      Alike s t (.string start (Bytes.ofText s)) (.string start (Bytes.ofText t))
  | array {items items' : List Node} (start : Nat) (ending : Ending) :
      List.Forall₂ (Node.Alike s t) items items' →
        Alike s t (.array start items ending) (.array start items' ending)
  | object {members members' : List (Key × Node)} (start : Nat) (ending : Ending) :
      members.map (·.1) = members'.map (·.1) →
      List.Forall₂ (Node.Alike s t) (members.map (·.2)) (members'.map (·.2)) →
        Alike s t (.object start members ending) (.object start members' ending)

/-- Whether members have the same keys, and nodes that are alike. -/
structure MembersAlike (s t : String) (a b : List (Key × Node)) : Prop where
  keys : a.map (·.1) = b.map (·.1)
  nodes : List.Forall₂ (Node.Alike s t) (a.map (·.2)) (b.map (·.2))

theorem itemsAlike_refl (items : List Node) : List.Forall₂ (Node.Alike s t) items items :=
  List.forall₂_same.2 fun node _ => .refl node

namespace MembersAlike

variable {a b : List (Key × Node)}

theorem refl (members : List (Key × Node)) : MembersAlike s t members members :=
  ⟨rfl, itemsAlike_refl _⟩

theorem cons {key : Key} {node node' : Node} (hnode : Node.Alike s t node node')
    (h : MembersAlike s t a b) : MembersAlike s t ((key, node) :: a) ((key, node') :: b) :=
  ⟨congrArg (key :: ·) h.keys, .cons hnode h.nodes⟩

theorem reverse (h : MembersAlike s t a b) : MembersAlike s t a.reverse b.reverse :=
  ⟨by rw [List.map_reverse, List.map_reverse, h.keys],
    by rw [List.map_reverse, List.map_reverse]; exact List.rel_reverse h.nodes⟩

theorem object (h : MembersAlike s t a b) (start : Nat) (ending : Ending) :
    Node.Alike s t (.object start a ending) (.object start b ending) :=
  .object start ending h.keys h.nodes

end MembersAlike

/-! ### Scanning -/

namespace Scan

/-- Whether two arrays or objects that are open hold nodes that are alike. -/
inductive Frame.Alike (s t : String) : Frame → Frame → Prop
  | array {items items' : List Node} (start : Nat) :
      List.Forall₂ (Node.Alike s t) items items' →
        Alike s t (.array start items) (.array start items')
  | object {members members' : List (Key × Node)} (start : Nat) :
      MembersAlike s t members members' → Alike s t (.object start members) (.object start members')
  | member {members members' : List (Key × Node)} (start : Nat) (key : Key) :
      MembersAlike s t members members' →
        Alike s t (.member start members key) (.member start members' key)

/-- Whether two states of a scan are the same, but for nodes that are alike. -/
inductive State.Alike (s t : String) : State → State → Prop
  | running {stack stack' : List Frame} (expected : Expected) :
      List.Forall₂ (Frame.Alike s t) stack stack' →
        Alike s t (.running stack expected) (.running stack' expected)
  | complete {root root' : Node} : Node.Alike s t root root' →
      Alike s t (.complete root) (.complete root')
  | stopped {root root' : Node} (excess : Option Nat) : Node.Alike s t root root' →
      Alike s t (.stopped ⟨root, excess⟩) (.stopped ⟨root', excess⟩)

theorem Frame.Alike.refl (frame : Frame) : Frame.Alike s t frame frame := by
  cases frame with
  | array start items => exact .array start (itemsAlike_refl items)
  | object start members => exact .object start (.refl members)
  | member start members key => exact .member start key (.refl members)

section

variable {stack stack' : List Frame} (h : List.Forall₂ (Frame.Alike s t) stack stack')

include h

theorem unwind_alike (fault : Fault) {node node' : Node} (hnode : Node.Alike s t node node') :
    Node.Alike s t (unwind fault node stack) (unwind fault node' stack') := by
  induction h generalizing node node' with
  | nil => exact hnode
  | cons hframe _ ih =>
    cases hframe with
    | array start hitems => exact ih (.array start _ (List.rel_reverse (.cons hnode hitems)))
    | object start hmembers => exact ih (hmembers.reverse.object start _)
    | member start key hmembers => exact ih ((hmembers.cons hnode).reverse.object start _)

theorem breakValue_alike (start : Nat) (fault : Fault) :
    State.Alike s t (breakValue stack start fault) (breakValue stack' start fault) :=
  .stopped none (unwind_alike h fault (.refl _))

theorem breakFrame_alike (fault : Fault) :
    State.Alike s t (breakFrame fault stack) (breakFrame fault stack') := by
  cases h with
  | nil => exact .stopped none (.refl _)
  | cons hframe hrest =>
    cases hframe with
    | array start hitems =>
      exact .stopped none (unwind_alike hrest fault (.array start _ (List.rel_reverse hitems)))
    | object start hmembers =>
      exact .stopped none (unwind_alike hrest fault (hmembers.reverse.object start _))
    | member start key hmembers =>
      exact .stopped none (unwind_alike hrest fault (hmembers.reverse.object start _))

theorem deliver_alike {node node' : Node} (hnode : Node.Alike s t node node') :
    State.Alike s t (deliver node stack) (deliver node' stack') := by
  cases h with
  | nil => exact .complete hnode
  | cons hframe hrest =>
    cases hframe with
    | array start hitems => exact .running .more (.cons (.array start (.cons hnode hitems)) hrest)
    | object start hmembers => exact .running .more (.cons (.object start hmembers) hrest)
    | member start key hmembers =>
      exact .running .more (.cons (.object start (hmembers.cons hnode)) hrest)

theorem begin_alike (offset : Nat) (octet : UInt8) :
    State.Alike s t (begin stack offset octet) (begin stack' offset octet) := by
  unfold begin
  split_ifs
  · exact .running .firstItem (.cons (.array offset .nil) h)
  · exact .running .firstKey (.cons (.object offset (.refl [])) h)
  · exact .running _ h
  · exact .running _ h
  · exact .running _ h
  · exact .running _ h
  · exact .running _ h
  · exact .running _ h
  · exact .running _ h
  · exact breakValue_alike h _ _

theorem proceed_alike (offset : Nat) (octet : UInt8) :
    State.Alike s t (proceed offset octet stack) (proceed offset octet stack') := by
  have hfault := fun fault => breakFrame_alike h fault
  cases h with
  | nil => exact hfault _
  | cons hframe hrest =>
    cases hframe with
    | array start hitems =>
      rw [proceed, proceed]
      split_ifs
      · exact .running .nextItem (.cons (.array start hitems) hrest)
      · exact deliver_alike hrest (.array start _ (List.rel_reverse hitems))
      · exact hfault _
    | object start hmembers =>
      rw [proceed, proceed]
      split_ifs
      · exact .running .nextKey (.cons (.object start hmembers) hrest)
      · exact deliver_alike hrest (hmembers.reverse.object start _)
      · exact hfault _
    | member start key hmembers => exact hfault _

theorem part_alike (offset : Nat) (octet : UInt8) (expected : Expected) :
    State.Alike s t (part stack offset octet expected) (part stack' offset octet expected) := by
  have hfault := fun fault => breakFrame_alike h fault
  cases expected with
  | value => exact begin_alike h offset octet
  | firstItem =>
    rw [part, part]
    split_ifs
    · exact proceed_alike h offset octet
    · exact begin_alike h offset octet
  | nextItem =>
    rw [part, part]
    split_ifs
    · exact hfault _
    · exact begin_alike h offset octet
  | firstKey =>
    rw [part, part]
    split_ifs
    · exact .running _ h
    · exact proceed_alike h offset octet
    · exact hfault _
  | nextKey =>
    rw [part, part]
    split_ifs
    · exact .running _ h
    · exact hfault _
    · exact hfault _
  | colon =>
    rw [part, part]
    split_ifs
    · exact .running _ h
    · exact breakValue_alike h _ _
  | more | word | number | literal => exact proceed_alike h offset octet

theorem between_alike (offset : Nat) (octet : UInt8) (expected : Expected) :
    State.Alike s t (between stack offset octet expected)
      (between stack' offset octet expected) := by
  unfold between
  split_ifs
  · exact .running _ h
  · exact part_alike h offset octet expected

theorem breakLiteral_alike (isKey : Bool) (start : Nat) (taken : Bytes) (fault : Fault) :
    State.Alike s t (breakLiteral stack isKey start taken fault)
      (breakLiteral stack' isKey start taken fault) := by
  unfold breakLiteral
  split_ifs
  · exact breakFrame_alike h _
  · exact breakValue_alike h _ _

theorem closeLiteral_alike (isKey : Bool) (start : Nat) (taken : Bytes) :
    State.Alike s t (closeLiteral stack isKey start taken)
      (closeLiteral stack' isKey start taken) := by
  cases isKey with
  | false => exact deliver_alike h (.refl _)
  | true =>
    cases h with
    | nil => exact .running _ .nil
    | cons hframe hrest =>
      cases hframe with
      | array start hitems => exact .running _ (.cons (.array start hitems) hrest)
      | object start hmembers => exact .running _ (.cons (.member start _ hmembers) hrest)
      | member start key hmembers => exact .running _ (.cons (.member start key hmembers) hrest)

theorem literal_alike (offset : Nat) (isKey : Bool) (start : Nat) (taken : Bytes) (octet : UInt8)
    (phase : LiteralPhase) :
    State.Alike s t (literal stack offset isKey start taken octet phase)
      (literal stack' offset isKey start taken octet phase) := by
  cases phase with
  | plain =>
    rw [literal, literal]
    split_ifs
    · exact closeLiteral_alike h _ _ _
    · exact .running _ h
    · exact breakLiteral_alike h _ _ _ _
    · exact .running _ h
  | escaped =>
    rw [literal, literal]
    split_ifs
    · exact .running _ h
    · exact .running _ h
    · exact breakLiteral_alike h _ _ _ _
  | digits left valid =>
    cases left with
    | zero =>
      rw [literal, literal]
      dsimp only
      split_ifs
      · exact .running _ h
      · exact breakLiteral_alike h _ _ _ _
    | succ left => exact .running _ h

theorem endBetween_alike (offset : Nat) (expected : Expected) :
    State.Alike s t (endBetween stack offset expected) (endBetween stack' offset expected) := by
  have hopen : openFault offset stack = openFault offset stack' := by
    cases h with
    | nil => rfl
    | cons hframe _ => cases hframe <;> rfl
  have hfault := fun fault => breakFrame_alike h fault
  cases expected with
  | value | colon => exact breakValue_alike h _ _
  | nextItem | nextKey => exact hfault _
  | firstItem | firstKey | more | word | number | literal =>
    show State.Alike s t (breakFrame (openFault offset stack) stack)
      (breakFrame (openFault offset stack') stack')
    rw [hopen]
    exact hfault _

end

theorem afterRoot_alike {root root' : Node} (h : Node.Alike s t root root') (offset : Nat)
    (octet : UInt8) :
    State.Alike s t (afterRoot root offset octet) (afterRoot root' offset octet) := by
  unfold afterRoot
  split_ifs
  · exact .complete h
  · exact .stopped _ h

theorem number_alike {stack stack' : List Frame} (h : List.Forall₂ (Frame.Alike s t) stack stack')
    (offset start : Nat) (taken : Bytes) (phase : NumberPhase) (octet : UInt8) :
    State.Alike s t (number stack offset start taken phase octet)
      (number stack' offset start taken phase octet) := by
  unfold number
  cases phase.next octet with
  | some next => exact .running _ h
  | none =>
    dsimp only
    split_ifs
    · have hdelivered := deliver_alike h (.refl (.number start taken.reverse))
      generalize deliver (.number start taken.reverse) stack = s at hdelivered ⊢
      generalize deliver (.number start taken.reverse) stack' = s' at hdelivered ⊢
      cases hdelivered with
      | running expected hstack => exact between_alike hstack offset octet expected
      | complete hroot => exact afterRoot_alike hroot offset octet
      | stopped excess hroot => exact .stopped excess hroot
    · exact breakValue_alike h _ _

/-- One octet leaves states alike. -/
theorem State.Alike.step {a b : State} (h : State.Alike s t a b) (offset : Nat) (octet : UInt8) :
    State.Alike s t (step offset octet a) (step offset octet b) := by
  cases h with
  | @running stack stack' expected hstack =>
    by_cases hbetween : Between expected
    · rw [step_between hbetween, step_between hbetween]
      exact between_alike hstack offset octet expected
    cases expected with
    | word node rest =>
      cases rest with
      | nil => exact between_alike hstack offset octet _
      | cons first rest =>
        rw [Scan.step, Scan.step]
        split_ifs
        · exact deliver_alike hstack (.refl node)
        · exact .running _ hstack
        · exact breakValue_alike hstack _ _
    | number start taken phase => exact number_alike hstack offset start taken phase octet
    | literal isKey start taken phase =>
      exact literal_alike hstack offset isKey start taken octet phase
    | value | firstItem | nextItem | firstKey | nextKey | colon | more =>
      exact absurd trivial hbetween
  | complete hroot => exact afterRoot_alike hroot offset octet
  | stopped excess hroot => exact .stopped excess hroot

/-- The same octets leave states alike. -/
theorem State.Alike.run {a b : State} (h : State.Alike s t a b) (offset : Nat) (octets : Bytes) :
    State.Alike s t (run offset octets a) (run offset octets b) := by
  induction octets generalizing offset a b with
  | nil => exact h
  | cons octet rest ih => exact ih (h.step offset octet) (offset + 1)

/-- The end of the input leaves states alike. -/
theorem State.Alike.finish {a b : State} (h : State.Alike s t a b) (offset : Nat) :
    State.Alike s t (finish offset a) (finish offset b) := by
  cases h with
  | @running stack stack' expected hstack =>
    by_cases hbetween : Between expected
    · rw [finish_between hbetween, finish_between hbetween]
      exact endBetween_alike hstack offset expected
    cases expected with
    | word node rest => exact breakValue_alike hstack _ _
    | number start taken phase =>
      rw [Scan.finish, Scan.finish]
      split_ifs
      · have hdelivered := deliver_alike hstack (.refl (.number start taken.reverse))
        generalize deliver (.number start taken.reverse) stack = s at hdelivered ⊢
        generalize deliver (.number start taken.reverse) stack' = s' at hdelivered ⊢
        cases hdelivered with
        | running expected hstack => exact endBetween_alike hstack offset expected
        | complete hroot => exact .complete hroot
        | stopped excess hroot => exact .stopped excess hroot
      · exact breakValue_alike hstack _ _
    | literal isKey start taken phase => exact breakLiteral_alike hstack _ _ _ _
    | value | firstItem | nextItem | firstKey | nextKey | colon | more =>
      exact absurd trivial hbetween
  | complete hroot => exact .complete hroot
  | stopped excess hroot => exact .stopped excess hroot

theorem State.Alike.document {a b : State} (h : State.Alike s t a b) :
    Node.Alike s t a.document.root b.document.root ∧ a.document.excess = b.document.excess := by
  cases h with
  | running _ hstack => exact ⟨.refl _, rfl⟩
  | complete hroot => exact ⟨hroot, rfl⟩
  | stopped excess hroot => exact ⟨hroot, rfl⟩

end Scan

/-! ### Documents with a text in one place -/

/-- Whether octets are a document up to one of its values. -/
inductive UpToValue : Bytes → Prop
  | root {blanks : Bytes} : Blanks blanks → UpToValue blanks
  | item {outer lead : Bytes} {items : List Tree} : UpToValue outer →
      Leads Tree.Written items lead → UpToValue (outer ++ 0x5B :: lead)
  | member {outer lead gap space : Bytes} {members : List (StringLiteral × Tree)}
      {key : StringLiteral} : UpToValue outer → Leads MemberWritten members lead →
        Blanks gap → Blanks space →
          UpToValue (outer ++ 0x7B :: (lead ++ (quoted key.raw ++ (gap ++ 0x3A :: space))))

/-- The beginning of an object, up to the value of its first member. -/
def upToMember (name : String) : Bytes :=
  0x7B :: (quoted (StringLiteral.ofText name).raw ++ [0x3A])

theorem upToValue_upToMember (name : String) : UpToValue (upToMember name) := by
  have hmember : UpToValue
      ([] ++ 0x7B :: ([] ++ (quoted (StringLiteral.ofText name).raw ++ ([] ++ 0x3A :: [])))) :=
    .member (.root blanks_nil) (.first blanks_nil) blanks_nil blanks_nil
  exact hmember

/-- A document with a text in one place. -/
def withText (before after : Bytes) (text : String) : Bytes :=
  before ++ (quoted (Bytes.ofText text) ++ after)

section

open Scan

/-- Behind items and a comma, or no items, a value may come next. -/
theorem Leads.run_items {items : List Tree} {lead : Bytes} (h : Leads Tree.Written items lead)
    (stack : List Frame) (offset start : Nat) :
    ∃ nodes expected, TakesValue expected ∧
      run offset lead (.running (.array start [] :: stack) .firstItem) =
        .running (.array start nodes :: stack) expected := by
  cases h with
  | first hblanks =>
    exact ⟨_, .firstItem, .inr (.inl rfl), run_blanks .firstItem trivial _ _ hblanks⟩
  | next hne hinner hblanks =>
    obtain ⟨nodes, -, hsettles⟩ := Scan.run_items items hne (itemsWritten_iff.2 hinner) offset
      start [] stack .firstItem (.inr (.inl rfl))
    rw [run_append, run_commaArray hsettles, run_blanks .nextItem trivial _ _ hblanks]
    exact ⟨_, .nextItem, .inr (.inr rfl), rfl⟩

/-- Behind members and a comma, or no members, a key may come next. -/
theorem Leads.run_members {members : List (StringLiteral × Tree)} {lead : Bytes}
    (h : Leads MemberWritten members lead) (stack : List Frame) (offset start : Nat) :
    ∃ nodes expected, (expected = .firstKey ∨ expected = .nextKey) ∧
      run offset lead (.running (.object start [] :: stack) .firstKey) =
        .running (.object start nodes :: stack) expected := by
  cases h with
  | first hblanks => exact ⟨_, .firstKey, .inl rfl, run_blanks .firstKey trivial _ _ hblanks⟩
  | next hne hinner hblanks =>
    obtain ⟨nodes, -, hsettles⟩ := Scan.run_members members hne (membersWritten_iff.2 hinner)
      offset start [] stack .firstKey (.inl rfl)
    rw [run_append, run_commaObject hsettles, run_blanks .nextKey trivial _ _ hblanks]
    exact ⟨_, .nextKey, .inr rfl, rfl⟩

/-- Behind octets up to a value, a value may come next. -/
theorem UpToValue.run {before : Bytes} (h : UpToValue before) :
    ∃ stack expected, TakesValue expected ∧
      run 0 before (.running [] .value) = .running stack expected := by
  induction h with
  | root hblanks => exact ⟨[], .value, .inl rfl, run_blanks .value trivial [] 0 hblanks⟩
  | item _ hlead ih =>
    obtain ⟨stack, expected, hexpected, hrun⟩ := ih
    rw [run_append, hrun, Scan.run, step_openArray hexpected]
    obtain ⟨nodes, next, hnext, hrest⟩ := hlead.run_items stack _ _
    exact ⟨_, next, hnext, hrest⟩
  | @member outer _ gap space _ key _ hlead hgap hspace ih =>
    obtain ⟨stack, expected, hexpected, hrun⟩ := ih
    rw [run_append, hrun, Nat.zero_add, Scan.run, step_openObject hexpected, run_append]
    obtain ⟨nodes, next, hnext, hrest⟩ := hlead.run_members stack _ outer.length
    have hkey := fun offset => run_key hnext stack outer.length nodes offset key hgap hspace []
    simp only [List.append_nil] at hkey
    rw [hrest, hkey]
    exact ⟨_, .value, .inl rfl, rfl⟩

end

/-- A text of letters and digits stands for itself between quotes. -/
theorem standsFor_alphanumeric {text : String} (h : ∀ c ∈ text.toList, c.isAlphanum = true) :
    Literal.StandsFor (Bytes.ofText text) (Bytes.ofText text) := by
  obtain ⟨-, hoctets⟩ := Bytes.ofText_alphanumeric h
  generalize Bytes.ofText text = octets at hoctets
  induction octets with
  | nil => exact .nil
  | cons octet rest ih =>
    obtain ⟨hoctet, hrest⟩ := List.forall_mem_cons.1 hoctets
    have hcontrol : 0x20 ≤ octet := by
      simp only [Bytes.isAlphanumeric, Bool.or_eq_true, Bool.and_eq_true, decide_eq_true_eq,
        UInt8.le_iff_toNat_le, UInt8.reduceToNat] at hoctet ⊢
      omega
    exact .plain ⟨Bytes.ne_of_isAlphanumeric hoctet rfl, Bytes.ne_of_isAlphanumeric hoctet rfl,
      hcontrol⟩ (ih hrest)

theorem alike_withText (h : Interchangeable s t) (before after : Bytes) :
    Bytes.Alike (withText before after s) (withText before after t) := by
  have hquote : Bytes.Alike [Literal.quote] [Literal.quote] := .refl _
  exact (Bytes.Alike.refl before).append
    ((hquote.append ((Bytes.alike_ofText h).append hquote)).append (.refl after))

open Scan in
/-- Documents with interchangeable texts in one place are scanned alike. -/
theorem Document.scan_withText {before : Bytes} (hbefore : UpToValue before)
    (h : Interchangeable s t) (after : Bytes) :
    Node.Alike s t (Document.scan (withText before after s)).root
        (Document.scan (withText before after t)).root ∧
      (Document.scan (withText before after s)).excess =
        (Document.scan (withText before after t)).excess := by
  have hlength : (Bytes.ofText s).length = (Bytes.ofText t).length := by
    rw [(Bytes.ofText_alphanumeric h.left).1, (Bytes.ofText_alphanumeric h.right).1, h.length]
  obtain ⟨stack, expected, hexpected, hrun⟩ := hbefore.run
  have hstring : ∀ {text : String}, (∀ c ∈ text.toList, c.isAlphanum = true) →
      run 0 (withText before after text) (.running [] .value) =
        run (before.length + (quoted (Bytes.ofText text)).length) after
          (deliver (.string before.length (Bytes.ofText text)) stack) := by
    intro text htext
    have hdelivered := run_string hexpected stack before.length
      ⟨Bytes.ofText text, (standsFor_alphanumeric htext).form⟩
    rw [withText, run_append, hrun, Nat.zero_add, run_append, hdelivered]
  have hdelivered : State.Alike s t (deliver (.string before.length (Bytes.ofText s)) stack)
      (deliver (.string before.length (Bytes.ofText t)) stack) :=
    deliver_alike (List.forall₂_same.2 fun frame _ => .refl frame) (.string _)
  have hinput : (withText before after s).length = (withText before after t).length := by
    simp [withText, quoted, hlength]
  have hquoted : (quoted (Bytes.ofText s)).length = (quoted (Bytes.ofText t)).length := by
    simp [quoted, hlength]
  rw [Document.scan, Document.scan, hstring h.left, hstring h.right, hinput, hquoted]
  exact ((hdelivered.run _ after).finish _).document

end Json

end TokenVault
