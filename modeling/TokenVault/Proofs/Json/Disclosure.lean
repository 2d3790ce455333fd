import TokenVault.Json.Record
import TokenVault.Proofs.Json.Interchange
import TokenVault.Proofs.Result

/-!
# What a report discloses

Nodes that are alike but for a text are read side by side.  Whatever takes alike nodes in the same
way (`Schema.Alike`) takes both documents or neither, and refuses both at the same place and for the
same cause, but where the cause quotes the text (`Document.read_alike`).
-/

namespace TokenVault.Json

open Result (Both)

/-! ### Causes and reports -/

/-- Whether two causes are the same, but that each may quote a text of its own. -/
def Cause.Alike (s t : String) (a b : Cause) : Prop :=
  a = b ∨ ∃ expected, a = .mismatch (.string s) expected ∧ b = .mismatch (.string t) expected

/-- Whether two reports name one place, and causes that are alike. -/
structure Report.Alike (s t : String) (a b : Report) : Prop where
  cause : Cause.Alike s t a.cause b.cause
  offset : a.offset = b.offset

/-- Whether two errors name one position, and causes that are alike. -/
structure Error.Alike (s t : String) (a b : Error) : Prop where
  cause : Cause.Alike s t a.cause b.cause
  position : a.position = b.position

variable {s t : String}

theorem Report.Alike.refl (r : Report) : Report.Alike s t r r := ⟨.inl rfl, rfl⟩

theorem Error.Alike.refl (e : Error) : Error.Alike s t e e := ⟨.inl rfl, rfl⟩

theorem Report.Alike.on {a b : Report} (h : Report.Alike s t a b) {input input' : Bytes}
    (hinput : Bytes.Alike input input') : Error.Alike s t (a.on input) (b.on input') :=
  ⟨h.cause, by rw [Report.on, Report.on, h.offset, Position.after_alike hinput]⟩

/-- Whether two faults are the same, or carry errors that quote a text each where something else was
expected. -/
def SameOrQuoting {ε : Type} (s t : String) (carry : Error → ε) (e e' : ε) : Prop :=
  e = e' ∨ ∃ expected position, e = carry ⟨.mismatch (.string s) expected, position⟩ ∧
    e' = carry ⟨.mismatch (.string t) expected, position⟩

theorem Error.Alike.sameOrQuoting {a b : Error} (h : Error.Alike s t a b) {ε : Type}
    (carry : Error → ε) : SameOrQuoting s t carry (carry a) (carry b) := by
  obtain ⟨cause, position⟩ := a
  obtain ⟨cause', position'⟩ := b
  obtain rfl : position = position' := h.position
  rcases h.cause with hsame | ⟨expected, hs, ht⟩
  · obtain rfl : cause = cause' := hsame
    exact .inl rfl
  · obtain rfl : cause = _ := hs
    obtain rfl : cause' = _ := ht
    exact .inr ⟨expected, position, rfl, rfl⟩

/-- Whether two readings both succeed or both fail, with reports that are alike. -/
abbrev Agree (s t : String) {α β : Type} (x : Except Report α) (y : Except Report β) : Prop :=
  Both (Report.Alike s t) (fun _ _ => True) x y

theorem Agree.refl {α : Type} (x : Except Report α) : Agree s t x x :=
  Both.refl Report.Alike.refl (fun _ => trivial) x

theorem both_eq_refl {α : Type} (x : Except Report α) : Both (Report.Alike s t) (· = ·) x x :=
  Both.refl Report.Alike.refl (fun _ => rfl) x

/-! ### Single values -/

section

variable {node node' : Node}

theorem Node.Alike.mismatch (h : Node.Alike s t node node') (hst : Interchangeable s t)
    (expected : String) :
    Report.Alike s t (node.mismatch expected) (node'.mismatch expected) := by
  cases h with
  | refl => exact .refl _
  | string start =>
    have hread : ∀ {text : String}, (∀ c ∈ text.toList, c.isAlphanum = true) →
        (Node.string start (Bytes.ofText text)).mismatch expected =
          ⟨.mismatch (.string text) expected, start + text.length + 2⟩ := by
      intro text htext
      rw [Node.mismatch, Node.found, Literal.read_of_standsFor start (standsFor_alphanumeric htext),
        (Bytes.ofText_alphanumeric htext).1]
      rfl
    rw [hread hst.left, hread hst.right, hst.length]
    exact ⟨.inr ⟨expected, rfl, rfl⟩, rfl⟩
  | array => exact .refl _
  | object => exact .refl _

theorem Node.Alike.text (h : Node.Alike s t node node') (hst : Interchangeable s t) :
    Agree s t node.text node'.text := by
  cases h with
  | refl => exact Agree.refl _
  | string start =>
    rw [Node.text, Node.text, Literal.read_of_standsFor start (standsFor_alphanumeric hst.left),
      Literal.read_of_standsFor start (standsFor_alphanumeric hst.right)]
    exact .ok trivial
  | array start ending hitems =>
    exact .error (Node.Alike.mismatch (.array start ending hitems) hst _)
  | object start ending hkeys hnodes =>
    exact .error (Node.Alike.mismatch (.object start ending hkeys hnodes) hst _)

theorem Node.Alike.int64 (h : Node.Alike s t node node') (hst : Interchangeable s t) :
    Agree s t node.int64 node'.int64 := by
  have hmismatch := h.mismatch hst "i64"
  cases h with
  | refl => exact Agree.refl _
  | string | array | object => exact .error hmismatch

theorem Node.Alike.optional {α : Type} {take take' : Node → Except Report α}
    (h : Node.Alike s t node node')
    (htake : Agree s t (take node) (take' node')) :
    Agree s t (node.optional take) (node'.optional take') := by
  have hsome : Agree s t
      (do return some (← take node)) (do return some (← take' node')) :=
    htake.bind fun _ _ _ => .ok trivial
  cases h with
  | refl =>
    cases node with
    | null => exact .ok trivial
    | boolean | number | string | array | object | broken => exact hsome
  | string | array | object => exact hsome

theorem Node.Alike.stop (h : Node.Alike s t node node') (hst : Interchangeable s t) :
    node.stop = node'.stop := by
  cases h with
  | refl => rfl
  | string start =>
    rw [Node.stop, Node.stop, (Bytes.ofText_alphanumeric hst.left).1,
      (Bytes.ofText_alphanumeric hst.right).1, hst.length]
  | array start ending => cases ending <;> rfl
  | object start ending => cases ending <;> rfl

theorem Node.Alike.skip (h : Node.Alike s t node node') :
    Agree s t node.skip node'.skip := by
  have hsame : node.skip = node'.skip := by
    cases h with
    | refl | string => rfl
    | array start ending => cases ending <;> rfl
    | object start ending => cases ending <;> rfl
  rw [hsame]
  exact Agree.refl _

end

/-! ### Values of any kind -/

/-- Whether two values are of one kind, and arrays of values that are. -/
inductive Value.Alike : Value → Value → Prop
  | refl (value : Value) : Alike value value
  | string (a b : String) : Alike (.string a) (.string b)
  | array {items items' : List Value} : List.Forall₂ Value.Alike items items' →
      Alike (.array items) (.array items')
  | object (a b : List (String × Value)) : Alike (.object a) (.object b)

namespace MembersAlike

variable {key : Key} {node : Node} {rest members : List (Key × Node)}

theorem eq_nil (h : MembersAlike s t [] members) : members = [] :=
  List.map_eq_nil_iff.1 h.keys.symm

theorem exists_cons (h : MembersAlike s t ((key, node) :: rest) members) :
    ∃ node' rest', members = (key, node') :: rest' ∧ Node.Alike s t node node' ∧
      MembersAlike s t rest rest' := by
  obtain ⟨hkeys, hnodes⟩ := h
  cases members with
  | nil => cases hkeys
  | cons member rest' =>
    obtain ⟨key', node'⟩ := member
    obtain ⟨hkey, hrest⟩ := List.cons.inj hkeys
    obtain rfl : key = key' := hkey
    cases hnodes with
    | cons hnode hnodes => exact ⟨node', rest', rfl, hnode, hrest, hnodes⟩

end MembersAlike

-- The statements on nodes, items and members are proved together, by recursion on the node.
mutual

/-- Nodes that are alike are read as values that are alike. -/
theorem Node.Alike.read (hst : Interchangeable s t) : ∀ (node : Node) {node' : Node} (room : Nat),
    Node.Alike s t node node' →
      Both (Report.Alike s t) Value.Alike (node.read room) (node'.read room)
  | _, _, room, .refl node => Both.refl .refl .refl _
  | _, _, room, .string start => by
    rw [Node.read, Node.read, Literal.read_of_standsFor start (standsFor_alphanumeric hst.left),
      Literal.read_of_standsFor start (standsFor_alphanumeric hst.right)]
    exact .ok (.string s t)
  | .array _ items _, .array _ items' _, room, .array start ending hitems => by
    cases room with
    | zero => exact .error (.refl _)
    | succ room =>
      rw [Node.read, Node.read]
      exact (readItems_alike hst items room hitems).bind fun _ _ hvalues =>
        (both_eq_refl ending.stop).bind fun _ _ _ => .ok (.array hvalues)
  | .object _ members _, .object _ members' _, room, .object start ending hkeys hnodes => by
    cases room with
    | zero => exact .error (.refl _)
    | succ room =>
      rw [Node.read, Node.read]
      exact (readMembers_alike hst members room ⟨hkeys, hnodes⟩).bind fun _ _ _ =>
        (both_eq_refl ending.stop).bind fun _ _ _ => .ok (.object _ _)

/-- Items that are alike are read as values that are alike. -/
theorem readItems_alike (hst : Interchangeable s t) : ∀ (items : List Node) {items' : List Node}
    (room : Nat), List.Forall₂ (Node.Alike s t) items items' →
      Both (Report.Alike s t) (List.Forall₂ Value.Alike) (readItems room items)
        (readItems room items')
  | [], _, room, .nil => .ok .nil
  | node :: rest, _, room, .cons hnode hrest => by
    rw [readItems, readItems]
    exact (Node.Alike.read hst node room hnode).bind fun _ _ hvalue =>
      (readItems_alike hst rest room hrest).bind fun _ _ hvalues => .ok (.cons hvalue hvalues)

/-- Members that are alike are all read, or none of them. -/
theorem readMembers_alike (hst : Interchangeable s t) : ∀ (members : List (Key × Node))
    {members' : List (Key × Node)} (room : Nat), MembersAlike s t members members' →
      Agree s t (readMembers room members) (readMembers room members')
  | [], members', room, h => by
    obtain rfl := h.eq_nil
    exact .ok trivial
  | (key, node) :: rest, members', room, h => by
    obtain ⟨node', rest', rfl, hnode, hrest⟩ := h.exists_cons
    rw [readMembers, readMembers]
    exact (both_eq_refl key.read).bind fun _ _ _ =>
      (Node.Alike.read hst node room hnode).bind fun _ _ _ =>
        (readMembers_alike hst rest room hrest).bind fun _ _ _ => .ok trivial

end

/-! ### Records -/

/-- Whether two fields have one name, and take alike nodes in the same way. -/
structure Field.Alike {ρ : Type} (s t : String) (f g : Field ρ) : Prop where
  name : f.name = g.name
  take : ∀ {node node'}, Node.Alike s t node node' → ∀ r r',
    Agree s t (f.take node r) (g.take node' r')

/-- A field is taken alike if what it reads from a node is. -/
theorem Field.alike_of_read {ρ α : Type} {read read' : Node → Except Report α} (name : String)
    (set : α → ρ → ρ)
    (h : ∀ {node node'}, Node.Alike s t node node' → Agree s t (read node) (read' node')) :
    Field.Alike s t ⟨name, fun node r => do return set (← read node) r⟩
      ⟨name, fun node r => do return set (← read' node) r⟩ :=
  ⟨rfl, fun hnode _ _ => (h hnode).bind fun _ _ _ => .ok trivial⟩

/-- Whether two records are read in one way, but for what alike nodes are read as. -/
structure Schema.Alike {ρ : Type} (s t : String) (a b : Schema ρ) : Prop where
  expected : a.expected = b.expected
  required : a.required = b.required
  positional : a.positional = b.positional
  fields : List.Forall₂ (Field.Alike s t) a.fields b.fields
  other : ∀ (name : String) {node node'}, Node.Alike s t node node' → ∀ r r',
    Agree s t (a.other name node r) (b.other name node' r')

theorem find?_alike {ρ : Type} {fields fields' : List (Field ρ)}
    (h : List.Forall₂ (Field.Alike s t) fields fields') (p : String → Bool) :
    Option.Rel (Field.Alike s t) (fields.find? fun f => p f.name)
      (fields'.find? fun f => p f.name) := by
  induction h with
  | nil => exact .none
  | @cons f g rest rest' hfield _ ih =>
    rw [List.find?_cons, List.find?_cons, ← hfield.name]
    cases p f.name with
    | true => exact .some hfield
    | false => exact ih

namespace Schema.Alike

variable {ρ : Type} {a b : Schema ρ} {input input' : Bytes}

theorem takeMembers (h : Schema.Alike s t a b) (hinput : Bytes.Alike input input')
    {members members' : List (Key × Node)} (hmembers : MembersAlike s t members members')
    (seen : List String) (r r' : ρ) :
    Both (Report.Alike s t) (fun x y => x.1 = y.1) (a.takeMembers input seen r members)
      (b.takeMembers input' seen r' members') := by
  induction members generalizing members' seen r r' with
  | nil =>
    obtain rfl := hmembers.eq_nil
    rw [Schema.takeMembers, Schema.takeMembers]
    exact .ok rfl
  | cons member rest ih =>
    obtain ⟨key, node⟩ := member
    obtain ⟨node', rest', rfl, hnode, hrest⟩ := hmembers.exists_cons
    rw [Schema.takeMembers, Schema.takeMembers]
    refine (both_eq_refl key.read).bind fun name name' hname => ?_
    obtain rfl : name = name' := hname
    have hfield := find?_alike h.fields fun x => decide (x = name)
    generalize a.fields.find? (fun f => decide (f.name = name)) = f at hfield ⊢
    generalize b.fields.find? (fun f => decide (f.name = name)) = g at hfield ⊢
    cases hfield with
    | none => exact (h.other name hnode r r').bind fun _ _ _ => ih hrest seen _ _
    | some hfield =>
      dsimp only
      split_ifs
      · rw [settle_alike hinput]
        exact .error (.refl _)
      · exact (hfield.take hnode r r').bind fun _ _ _ => ih hrest _ _ _

theorem readObject (h : Schema.Alike s t a b) (hinput : Bytes.Alike input input')
    {members members' : List (Key × Node)} (hmembers : MembersAlike s t members members')
    (ending : Ending) :
    Agree s t (a.readObject input members ending) (b.readObject input' members' ending) := by
  have hempty := h.takeMembers hinput hmembers [] a.empty b.empty
  rw [Schema.readObject, Schema.readObject]
  refine hempty.bind fun x y hseen => ?_
  obtain ⟨seen, record⟩ := x
  obtain ⟨seen', record'⟩ := y
  obtain rfl : seen = seen' := hseen
  refine (both_eq_refl ending.stop).bind fun stop stop' hstop => ?_
  obtain rfl : stop = stop' := hstop
  have hrequired : List.Forall₂ (Field.Alike s t) (a.fields.take a.required)
      (b.fields.take b.required) := by
    rw [← h.required]
    exact List.forall₂_take _ h.fields
  have hmissing := find?_alike hrequired fun x => decide (x ∉ seen)
  generalize (a.fields.take a.required).find? (fun f => decide (f.name ∉ seen)) = f at hmissing ⊢
  generalize (b.fields.take b.required).find? (fun f => decide (f.name ∉ seen)) = g at hmissing ⊢
  cases hmissing with
  | none => exact .ok trivial
  | some hfield =>
    dsimp only
    rw [hfield.name]
    exact .error (.refl _)

theorem takeItems {fields fields' : List (Field ρ)}
    (hfields : List.Forall₂ (Field.Alike s t) fields fields') {items items' : List Node}
    (hitems : List.Forall₂ (Node.Alike s t) items items') (taken : Nat) (r r' : ρ) :
    Both (Report.Alike s t)
      (fun x y => x.2.1 = y.2.1 ∧ List.Forall₂ (Node.Alike s t) x.2.2 y.2.2)
      (Json.takeItems taken r fields items) (Json.takeItems taken r' fields' items') := by
  induction hfields generalizing items items' taken r r' with
  | nil =>
    rw [Json.takeItems, Json.takeItems]
    · exact .ok ⟨rfl, hitems⟩
    all_goals simp
  | cons hfield hrest ih =>
    cases hitems with
    | nil =>
      rw [Json.takeItems, Json.takeItems]
      · exact .ok ⟨rfl, .nil⟩
      all_goals simp
    | cons hnode hnodes =>
      rw [Json.takeItems, Json.takeItems]
      exact (hfield.take hnode r r').bind fun _ _ _ => ih hnodes _ _ _

theorem endOfItems {rest rest' : List Node} (h : List.Forall₂ (Node.Alike s t) rest rest')
    (ending : Ending) : Agree s t (Json.endOfItems rest ending) (Json.endOfItems rest' ending) := by
  cases h with
  | nil => exact .refl _
  | @cons node node' _ _ hnode _ =>
    have hstart : node.start = node'.start := by cases hnode <;> rfl
    show Agree s t (.error ⟨.trailingCharacters, node.start + 1⟩)
      (.error ⟨.trailingCharacters, node'.start + 1⟩)
    rw [hstart]
    exact .refl _

theorem readArray (h : Schema.Alike s t a b) {items items' : List Node}
    (hitems : List.Forall₂ (Node.Alike s t) items items') (ending : Ending) :
    Agree s t (a.readArray items ending) (b.readArray items' ending) := by
  have hlength : a.fields.length = b.fields.length := h.fields.length_eq
  rw [Schema.readArray, Schema.readArray]
  refine (takeItems h.fields hitems 0 a.empty b.empty).bind fun x y hxy => ?_
  obtain ⟨record, taken, rest⟩ := x
  obtain ⟨record', taken', rest'⟩ := y
  obtain ⟨htaken, hrest⟩ := hxy
  obtain rfl : taken = taken' := htaken
  simp only [← hlength, ← h.required, ← h.expected]
  split_ifs
  · exact (endOfItems hrest ending).bind fun _ _ _ => .ok trivial
  · refine (both_eq_refl ending.stop).bind fun stop stop' hstop => ?_
    obtain rfl : stop = stop' := hstop
    exact .error (.refl _)
  · exact (both_eq_refl ending.stop).bind fun _ _ _ => .ok trivial

/-- Records are both read from alike nodes, or both refused alike. -/
theorem read (h : Schema.Alike s t a b) (hinput : Bytes.Alike input input')
    (hst : Interchangeable s t) {node node' : Node} (hnode : Node.Alike s t node node') :
    Agree s t (a.read input node) (b.read input' node') := by
  have hmismatch := hnode.mismatch hst a.expected
  have harray : ∀ {start items items' ending}, List.Forall₂ (Node.Alike s t) items items' →
      Report.Alike s t ((Node.array start items ending).mismatch a.expected)
        ((Node.array start items' ending).mismatch a.expected) →
      Agree s t (a.read input (.array start items ending))
        (b.read input' (.array start items' ending)) := by
    intro start items items' ending hitems hmismatch
    rw [Schema.read, Schema.read, ← h.positional, ← h.expected]
    split_ifs
    · exact h.readArray hitems ending
    · exact .error hmismatch
  cases hnode with
  | refl =>
    cases node with
    | object start members ending => exact h.readObject hinput (.refl members) ending
    | array start items ending => exact harray (itemsAlike_refl items) hmismatch
    | null | boolean | number | string | broken =>
      rw [Schema.read, Schema.read, ← h.expected]
      · exact .error hmismatch
      all_goals simp
  | string start =>
    rw [Schema.read, Schema.read, ← h.expected]
    · exact .error hmismatch
    all_goals simp
  | array start ending hitems => exact harray hitems hmismatch
  | object start ending hkeys hnodes => exact h.readObject hinput ⟨hkeys, hnodes⟩ ending

end Schema.Alike

/-! ### Documents -/

/-- Documents with interchangeable texts in one place are both taken or both refused, if nodes that
are alike are, and the causes to refuse them are the same but where they quote the texts. -/
theorem Document.read_alike {α β : Type} {S : α → β → Prop} {take : Node → Except Report α}
    {take' : Node → Except Report β} {before : Bytes} (hbefore : UpToValue before)
    (hst : Interchangeable s t) (after : Bytes)
    (htake : ∀ {node node'}, Node.Alike s t node node' →
      Both (Report.Alike s t) S (take node) (take' node')) :
    Both (Error.Alike s t) S (Document.read (withText before after s) take)
      (Document.read (withText before after t) take') := by
  have hinput := alike_withText hst before after
  obtain ⟨hroot, hexcess⟩ := Document.scan_withText hbefore hst after
  have htaken := htake hroot
  unfold Document.read
  dsimp only
  rw [← hexcess]
  generalize take (Document.scan (withText before after s)).root = x at htaken ⊢
  generalize take' (Document.scan (withText before after t)).root = y at htaken ⊢
  cases htaken with
  | error hreport => exact .error (hreport.on hinput)
  | ok hvalue =>
    cases (Document.scan (withText before after s)).excess with
    | none => exact .ok hvalue
    | some offset => exact .error (Report.Alike.on (.refl _) hinput)

end TokenVault.Json
