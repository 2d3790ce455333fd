import TokenVault.Json.Print
import TokenVault.Json.Record
import TokenVault.Proofs.Json.Read
import TokenVault.Proofs.Json.Written

/-!
# Reading records that were written

What a record makes of one member is `takeMember`.  Members that take one record to another
(`Takes`) can be put together (`Takes.append`), so a record is read back from what is written
of it field by field: `Schema.ofOctets_write`.
-/

namespace TokenVault.Json

/-! ### Values of fields -/

theorem Node.text_of_spelledBy {text : String} {node : Node}
    (h : (Value.string text).SpelledBy node) : node.text = .ok text := by
  obtain ⟨start, rfl⟩ := h.string
  rw [Node.text, Literal.read_escape]

theorem Node.int64_of_spelledBy {n : Int64} {node : Node}
    (h : (Value.number (.ofInt64 n)).SpelledBy node) : node.int64 = .ok n := by
  obtain ⟨start, rfl⟩ := h.number
  have hrange : n.toInt < 0x8000000000000000 := n.toInt_lt
  rw [Node.int64, Number.ofInt64, readNumber_integer]
  simp only [hrange, if_true, Int64.ofInt_toInt]

/-- A value other than `null` is taken as an optional one that is there. -/
theorem Node.optional_of_spelledBy {α : Type} {take : Node → Except Report α} {x : α}
    {v : Value} {node : Node} (hv : v ≠ .null) (h : v.SpelledBy node)
    (htake : take node = .ok x) : node.optional take = .ok (some x) := by
  have hnull : ∀ start, node ≠ .null start := by
    rintro start rfl
    cases v with
    | null => exact hv rfl
    | boolean | number | string | array | object => exact h.elim
  unfold Node.optional
  split
  · exact absurd rfl (hnull _)
  · rw [htake]
    rfl

/-! ### Optional members -/

section

variable {α : Type} {name : String} {write : α → Value}

theorem mem_optionalMember {value : Option α} {e : String × Value} :
    e ∈ optionalMember name write value ↔ ∃ x, value = some x ∧ e = (name, write x) := by
  cases value <;> simp [optionalMember]

theorem sublist_optionalMember (value : Option α) :
    ((optionalMember name write value).map (·.1)).Sublist [name] := by
  cases value with
  | none => exact List.nil_sublist [name]
  | some x => exact List.Sublist.refl [name]

end

namespace Schema

variable {ρ : Type} {schema : Schema ρ}

/-! ### Members -/

/-- What a record makes of a member with this name. -/
def takeMember (schema : Schema ρ) (name : String) (node : Node) (record : ρ) :
    Except Report ρ :=
  match schema.fields.find? (·.name = name) with
  | some field => field.take node record
  | none => schema.other name node record

/-- Whether a field has this name. -/
def Knows (schema : Schema ρ) (name : String) : Prop :=
  (schema.fields.find? (·.name = name)).isSome = true

theorem takeMember_field {field : Field ρ} {name : String}
    (h : schema.fields.find? (·.name = name) = some field) (node : Node) (record : ρ) :
    schema.takeMember name node record = field.take node record := by
  rw [takeMember, h]

theorem takeMember_other {name : String}
    (h : schema.fields.find? (·.name = name) = none) (node : Node) (record : ρ) :
    schema.takeMember name node record = schema.other name node record := by
  rw [takeMember, h]

/-- The names of known members that have been seen, after one more member. -/
def noted (schema : Schema ρ) (seen : List String) (name : String) : List String :=
  if (schema.fields.find? (·.name = name)).isSome then name :: seen else seen

theorem mem_noted {seen : List String} {name other : String} :
    other ∈ schema.noted seen name ↔ (other = name ∧ schema.Knows name) ∨ other ∈ seen := by
  unfold noted Knows
  split
  · next h => simp [h]
  · next h => simp [h]

/-- A member whose name has not been seen before is taken by itself. -/
theorem takeMembers_cons (input : Bytes) {seen : List String} (record : ρ) {key : Key}
    {name : String} (node : Node) (rest : List (Key × Node)) (hkey : key.read = .ok name)
    (hseen : name ∉ seen) :
    schema.takeMembers input seen record ((key, node) :: rest) =
      (schema.takeMember name node record >>= fun record =>
        schema.takeMembers input (schema.noted seen name) record rest) := by
  rw [takeMembers, hkey, Result.ok_bind, noted]
  cases hfield : schema.fields.find? (·.name = name) with
  | some field =>
    rw [takeMember_field hfield]
    exact if_neg hseen
  | none =>
    rw [takeMember_other hfield]
    rfl

/-- Whether members, however they are spelled, take one record to another. -/
def Takes (schema : Schema ρ) : List (String × Value) → ρ → ρ → Prop
  | [], record, record' => record = record'
  | (name, value) :: rest, record, record' =>
    ∃ next, (∀ node, value.SpelledBy node → schema.takeMember name node record = .ok next) ∧
      Takes schema rest next record'

/-- Whether one of some members, however they are spelled, is refused for this cause. -/
def Refuses (schema : Schema ρ) (cause : Cause) : List (String × Value) → ρ → Prop
  | [], _ => False
  | (name, value) :: rest, record =>
    (∀ node, value.SpelledBy node →
        ∃ offset, schema.takeMember name node record = .error ⟨cause, offset⟩) ∨
      ∃ next, (∀ node, value.SpelledBy node → schema.takeMember name node record = .ok next) ∧
        Refuses schema cause rest next

theorem Takes.append {a b : List (String × Value)} {r s t : ρ} (ha : schema.Takes a r s)
    (hb : schema.Takes b s t) : schema.Takes (a ++ b) r t := by
  induction a generalizing r with
  | nil =>
    rw [show r = s from ha]
    exact hb
  | cons member rest ih =>
    obtain ⟨next, hfirst, hrest⟩ := ha
    exact ⟨next, hfirst, ih hrest⟩

theorem Takes.append_refuses {cause : Cause} {a b : List (String × Value)} {r s : ρ}
    (ha : schema.Takes a r s) (hb : schema.Refuses cause b s) :
    schema.Refuses cause (a ++ b) r := by
  induction a generalizing r with
  | nil =>
    rw [show r = s from ha]
    exact hb
  | cons member rest ih =>
    obtain ⟨next, hfirst, hrest⟩ := ha
    exact .inr ⟨next, hfirst, ih hrest⟩

theorem takes_singleton {name : String} {value : Value} {r s : ρ}
    (h : ∀ node, value.SpelledBy node → schema.takeMember name node r = .ok s) :
    schema.Takes [(name, value)] r s :=
  ⟨s, h, rfl⟩

/-- An optional member takes a record without a value for it to one with the value. -/
theorem takes_optionalMember {α : Type} {name : String} {write : α → Value}
    {take : Node → Except Report α} (set : Option α → ρ → ρ) (value : Option α) (record : ρ)
    (hfield : schema.fields.find? (·.name = name) =
      some ⟨name, fun node r => do return set (← node.optional take) r⟩)
    (hwrite : ∀ x, write x ≠ .null)
    (htake : ∀ x node, (write x).SpelledBy node → take node = .ok x)
    (hset : ∀ x, set x (set none record) = set x record) :
    schema.Takes (optionalMember name write value) (set none record) (set value record) := by
  cases value with
  | none => rfl
  | some x =>
    refine takes_singleton fun node hnode => ?_
    rw [takeMember_field hfield]
    show (node.optional take >>= fun value => pure (set value (set none record))) = _
    rw [Node.optional_of_spelledBy (hwrite x) hnode (htake x node hnode), Result.ok_bind, hset]
    rfl

theorem takes_optionalText {name : String} (set : Option String → ρ → ρ) (text : Option String)
    (record : ρ)
    (hfield : schema.fields.find? (·.name = name) =
      some ⟨name, fun node r => do return set (← node.optional Node.text) r⟩)
    (hset : ∀ x, set x (set none record) = set x record) :
    schema.Takes (optionalMember name .string text) (set none record) (set text record) :=
  takes_optionalMember set text record hfield (fun _ h => Value.noConfusion h)
    (fun _ _ => Node.text_of_spelledBy) hset

theorem takes_optionalInt64 {name : String} (set : Option Int64 → ρ → ρ) (n : Option Int64)
    (record : ρ)
    (hfield : schema.fields.find? (·.name = name) =
      some ⟨name, fun node r => do return set (← node.optional Node.int64) r⟩)
    (hset : ∀ x, set x (set none record) = set x record) :
    schema.Takes (optionalMember name (fun n => .number (.ofInt64 n)) n) (set none record)
      (set n record) :=
  takes_optionalMember set n record hfield (fun _ h => Value.noConfusion h)
    (fun _ _ => Node.int64_of_spelledBy) hset

/-! ### Objects -/

variable {members : List (String × Value)} {nodes : List (Key × Node)}

/-- Members with different names, none of which has been seen before, are taken in order. -/
theorem takeMembers_of_takes (input : Bytes) {seen : List String} {record record' : ρ}
    (hspelled : MembersSpelledBy members nodes) (htakes : schema.Takes members record record')
    (hdistinct : (members.map (·.1)).Nodup) (hseen : ∀ name ∈ members.map (·.1), name ∉ seen) :
    ∃ seen', schema.takeMembers input seen record nodes = .ok (seen', record') ∧
      ∀ name, (name ∈ members.map (·.1) ∧ schema.Knows name) ∨ name ∈ seen → name ∈ seen' := by
  -- the induction carries that no name still to come has been seen
  induction members generalizing nodes seen record with
  | nil =>
    cases nodes with
    | nil =>
      rw [show record = record' from htakes]
      exact ⟨seen, rfl, by simp⟩
    | cons node rest => exact hspelled.elim
  | cons member rest ih =>
    cases nodes with
    | nil => exact hspelled.elim
    | cons first more =>
      obtain ⟨hkey, hnode, hmore⟩ := hspelled
      obtain ⟨next, hfirst, hrest⟩ := htakes
      obtain ⟨hname, hdistinct⟩ := List.nodup_cons.1 hdistinct
      have hnoted : ∀ name ∈ rest.map (·.1), name ∉ schema.noted seen member.1 := by
        intro name hmem hnoted
        rcases mem_noted.1 hnoted with ⟨rfl, -⟩ | hold
        · exact hname hmem
        · exact hseen name (List.mem_cons_of_mem member.1 hmem) hold
      obtain ⟨seen', htaken, hall⟩ := ih hmore hrest hdistinct hnoted
      refine ⟨seen', ?_, fun name h => hall name ?_⟩
      · rw [takeMembers_cons input record first.2 more (Key.read_of_raw hkey)
          (hseen member.1 List.mem_cons_self), hfirst first.2 hnode]
        exact htaken
      · rw [mem_noted]
        rcases h with ⟨hmem, hknows⟩ | hold
        · rcases List.mem_cons.1 hmem with rfl | hmem
          · exact .inr (.inl ⟨rfl, hknows⟩)
          · exact .inl ⟨hmem, hknows⟩
        · exact .inr (.inr hold)

/-- The first member that is refused decides. -/
theorem takeMembers_of_refuses (input : Bytes) {seen : List String} {record : ρ} {cause : Cause}
    (hspelled : MembersSpelledBy members nodes) (hrefuses : schema.Refuses cause members record)
    (hdistinct : (members.map (·.1)).Nodup) (hseen : ∀ name ∈ members.map (·.1), name ∉ seen) :
    ∃ offset, schema.takeMembers input seen record nodes = .error ⟨cause, offset⟩ := by
  induction members generalizing nodes seen record with
  | nil => exact hrefuses.elim
  | cons member rest ih =>
    cases nodes with
    | nil => exact hspelled.elim
    | cons first more =>
      obtain ⟨hkey, hnode, hmore⟩ := hspelled
      obtain ⟨hname, hdistinct⟩ := List.nodup_cons.1 hdistinct
      rw [takeMembers_cons input record first.2 more (Key.read_of_raw hkey)
        (hseen member.1 List.mem_cons_self)]
      rcases hrefuses with hfirst | ⟨next, hfirst, hrest⟩
      · obtain ⟨offset, htake⟩ := hfirst first.2 hnode
        exact ⟨offset, by rw [htake]; rfl⟩
      · rw [hfirst first.2 hnode]
        refine ih hmore hrest hdistinct fun name hmem hnoted => ?_
        rcases mem_noted.1 hnoted with ⟨rfl, -⟩ | hold
        · exact hname hmem
        · exact hseen name (List.mem_cons_of_mem member.1 hmem) hold

/-- A node that spells an object is read as the record that its members make. -/
theorem read_of_takes (input : Bytes) {node : Node} {record : ρ}
    (hspelled : (Value.object members).SpelledBy node)
    (htakes : schema.Takes members schema.empty record) (hdistinct : (members.map (·.1)).Nodup)
    (hrequired : ∀ field ∈ schema.fields.take schema.required,
      field.name ∈ members.map (·.1)) :
    schema.read input node = .ok record := by
  obtain ⟨start, nodes, stop, rfl, hnodes⟩ := hspelled.object
  obtain ⟨seen, htaken, hall⟩ := takeMembers_of_takes input hnodes htakes hdistinct
    fun _ _ => List.not_mem_nil
  -- every field that is required is among the members, so none is reported as missing
  have hmissing : (schema.fields.take schema.required).find? (·.name ∉ seen) = none := by
    refine List.find?_eq_none.2 fun field hfield => ?_
    have hknows : schema.Knows field.name :=
      List.find?_isSome.2 ⟨field, List.mem_of_mem_take hfield, by simp⟩
    simpa using hall field.name (.inl ⟨hrequired field hfield, hknows⟩)
  rw [Schema.read, readObject, htaken, Result.ok_bind]
  simp only [Ending.stop, Result.ok_bind, hmissing]
  rfl

theorem read_of_refuses (input : Bytes) {node : Node} {cause : Cause}
    (hspelled : (Value.object members).SpelledBy node)
    (hrefuses : schema.Refuses cause members schema.empty)
    (hdistinct : (members.map (·.1)).Nodup) :
    ∃ offset, schema.read input node = .error ⟨cause, offset⟩ := by
  obtain ⟨start, nodes, stop, rfl, hnodes⟩ := hspelled.object
  obtain ⟨offset, htaken⟩ := takeMembers_of_refuses input hnodes hrefuses hdistinct
    fun _ _ => List.not_mem_nil
  refine ⟨offset, ?_⟩
  rw [Schema.read, readObject, htaken]
  rfl

/-! ### Documents -/

/-- A record is read back from an object that is written, in whatever layout, if its members
make the record. -/
theorem ofOctets_write (l : Layout) (level : Nat) {record : ρ}
    (htakes : schema.Takes members schema.empty record) (hdistinct : (members.map (·.1)).Nodup)
    (hrequired : ∀ field ∈ schema.fields.take schema.required,
      field.name ∈ members.map (·.1)) :
    schema.ofOctets (l.write level (.object members)) = .ok record := by
  obtain ⟨node, hnode, hscan⟩ := Document.scan_write l level (.object members)
  rw [Schema.ofOctets, Document.read, hscan]
  simp only [read_of_takes _ hnode htakes hdistinct hrequired]

/-- A record is not read if one of the members that are written is refused. -/
theorem ofOctets_write_of_refuses (l : Layout) (level : Nat) {cause : Cause}
    (hrefuses : schema.Refuses cause members schema.empty)
    (hdistinct : (members.map (·.1)).Nodup) :
    ∃ e, schema.ofOctets (l.write level (.object members)) = .error e ∧ e.cause = cause := by
  obtain ⟨node, hnode, hscan⟩ := Document.scan_write l level (.object members)
  obtain ⟨offset, hread⟩ :=
    read_of_refuses (l.write level (.object members)) hnode hrefuses hdistinct
  refine ⟨Report.on ⟨cause, offset⟩ (l.write level (.object members)), ?_, rfl⟩
  rw [Schema.ofOctets, Document.read, hscan]
  simp only [hread]

end Schema

end TokenVault.Json
