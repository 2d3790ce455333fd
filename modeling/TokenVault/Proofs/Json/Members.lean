import Mathlib.Data.List.Forall2
import Mathlib.Data.List.Nodup
import TokenVault.Proofs.Json.Meaning
import TokenVault.Proofs.Json.Record

/-!
# Records read from any members

What a record makes of one member is a step, and what it makes of a document is a run of steps,
one for each member in the order of writing.  A document is read exactly if there is such a run,
no known name occurs twice and no required one is missing: `Schema.ofOctets_eq_ok_iff`.  What a
field holds after a run is told by the last member with its name: `Schema.Run.last`.
-/

namespace TokenVault.Json

/-! ### Names and values of members -/

/-- Whether the keys of members stand for these names, and their values are these. -/
def Named (members : List (StringLiteral × Tree)) (named : List (String × Tree)) : Prop :=
  List.Forall₂ (fun member e => member.1.Denotes e.1 ∧ member.2 = e.2) members named

/-- The values of the members with a name, in the order of writing. -/
def valuesOf (named : List (String × Tree)) (name : String) : List Tree :=
  (named.filter (·.1 = name)).map (·.2)

/-- Whether exactly one member has this name, and what is written of `value` is its value. -/
def Holds {α : Type} (named : List (String × Tree)) (name : String) (write : α → Value)
    (value : α) : Prop :=
  ∃ tree, valuesOf named name = [tree] ∧ tree.Denotes (write value)

/-- Whether an optional value is what members say: none if no member has the name, and otherwise
the value of the only one, where `null` stands for none. -/
def HoldsOptional {α : Type} (named : List (String × Tree)) (name : String) (write : α → Value)
    (value : Option α) : Prop :=
  valuesOf named name = [] ∧ value = none ∨ Holds named name (orNull write) value

/-- Whether a value is that of the last member with a name, and missing if there is no member. -/
def HoldsLast (named : List (String × Tree)) (name : String) (value : Option Value) : Prop :=
  valuesOf named name = [] ∧ value = none ∨
    ∃ tree v, (valuesOf named name).getLast? = some tree ∧ tree.Denotes v ∧ value = some v

/-- Whether a name occurs twice among the keys of members, however they are written. -/
def Repeats (members : List (StringLiteral × Tree)) (name : String) : Prop :=
  ∃ first second, [first, second].Sublist members ∧ first.1.Denotes name ∧ second.1.Denotes name

section

variable {named : List (String × Tree)} {name : String} {tree : Tree}

theorem valuesOf_cons_self (rest : List (String × Tree)) :
    valuesOf ((name, tree) :: rest) name = tree :: valuesOf rest name := by
  simp [valuesOf]

theorem valuesOf_cons_of_ne {other : String} (h : other ≠ name) (rest : List (String × Tree)) :
    valuesOf ((other, tree) :: rest) name = valuesOf rest name := by
  simp [valuesOf, h]

theorem length_valuesOf : (valuesOf named name).length = (named.map (·.1)).count name := by
  induction named with
  | nil => rfl
  | cons e rest ih =>
    by_cases h : e.1 = name
    · subst h
      rw [valuesOf_cons_self, List.length_cons, ih, List.map_cons, List.count_cons_self]
    · rw [valuesOf_cons_of_ne h, ih, List.map_cons, List.count_cons_of_ne h]

theorem mem_of_mem_valuesOf (h : tree ∈ valuesOf named name) : (name, tree) ∈ named := by
  obtain ⟨e, he, rfl⟩ := List.mem_map.1 h
  obtain ⟨hmem, hname⟩ := List.mem_filter.1 he
  rw [← of_decide_eq_true hname]
  exact hmem

theorem Holds.denotes_of_mem {α : Type} {write : α → Value} {value : α}
    (h : Holds named name write value) (hmem : (name, tree) ∈ named) :
    tree.Denotes (write value) := by
  obtain ⟨other, hother, hdenotes⟩ := h
  have hvalue : tree ∈ valuesOf named name :=
    List.mem_map.2 ⟨(name, tree), List.mem_filter.2 ⟨hmem, by simp⟩, rfl⟩
  rw [hother, List.mem_singleton] at hvalue
  rwa [hvalue]

theorem HoldsOptional.denotes_of_mem {α : Type} {write : α → Value} {value : Option α}
    (h : HoldsOptional named name write value) (hmem : (name, tree) ∈ named) :
    tree.Denotes (orNull write value) := by
  rcases h with ⟨hnone, -⟩ | h
  · have hvalue : tree ∈ valuesOf named name :=
      List.mem_map.2 ⟨(name, tree), List.mem_filter.2 ⟨hmem, by simp⟩, rfl⟩
    rw [hnone] at hvalue
    exact absurd hvalue List.not_mem_nil
  · exact h.denotes_of_mem hmem

theorem Holds.length {α : Type} {write : α → Value} {value : α}
    (h : Holds named name write value) : (valuesOf named name).length = 1 := by
  obtain ⟨tree, htree, -⟩ := h
  rw [htree]
  rfl

theorem HoldsOptional.length_le {α : Type} {write : α → Value} {value : Option α}
    (h : HoldsOptional named name write value) : (valuesOf named name).length ≤ 1 := by
  rcases h with ⟨hnone, -⟩ | h
  · rw [hnone]
    exact Nat.zero_le 1
  · exact Nat.le_of_eq h.length

theorem Holds.unique {α : Type} {write : α → Value} (hwrite : ∀ x y, write x = write y → x = y)
    {a b : α} (ha : Holds named name write a) (hb : Holds named name write b) : a = b := by
  obtain ⟨tree, htree, ha⟩ := ha
  obtain ⟨other, hother, hb⟩ := hb
  rw [htree, List.singleton_inj] at hother
  subst hother
  exact hwrite a b (Tree.Denotes.unique tree ha hb)

theorem orNull_inj {α : Type} {write : α → Value} (hnull : ∀ x, write x ≠ .null)
    (hwrite : ∀ x y, write x = write y → x = y) (a b : Option α)
    (h : orNull write a = orNull write b) : a = b := by
  cases a with
  | none =>
    cases b with
    | none => rfl
    | some y => exact absurd h.symm (hnull y)
  | some x =>
    cases b with
    | none => exact absurd h (hnull x)
    | some y => rw [hwrite x y h]

theorem HoldsOptional.unique {α : Type} {write : α → Value} (hnull : ∀ x, write x ≠ .null)
    (hwrite : ∀ x y, write x = write y → x = y) {a b : Option α}
    (ha : HoldsOptional named name write a) (hb : HoldsOptional named name write b) : a = b := by
  rcases ha with ⟨hnone, rfl⟩ | ha
  · rcases hb with ⟨-, rfl⟩ | hb
    · rfl
    · have hlength := hb.length
      rw [hnone] at hlength
      exact absurd hlength (by decide)
  · rcases hb with ⟨hnone, rfl⟩ | hb
    · have hlength := ha.length
      rw [hnone] at hlength
      exact absurd hlength (by decide)
    · exact ha.unique (orNull_inj hnull hwrite) hb

theorem HoldsLast.unique {a b : Option Value} (ha : HoldsLast named name a)
    (hb : HoldsLast named name b) : a = b := by
  rcases ha with ⟨hnone, rfl⟩ | ⟨tree, v, htree, hv, rfl⟩
  · rcases hb with ⟨-, rfl⟩ | ⟨tree, v, htree, -⟩
    · rfl
    · simp [hnone] at htree
  · rcases hb with ⟨hnone, -⟩ | ⟨other, w, hother, hw, rfl⟩
    · simp [hnone] at htree
    · rw [htree, Option.some.injEq] at hother
      subst hother
      rw [Tree.Denotes.unique tree hv hw]

end

/-- Members whose keys stand for a name are counted among the values of that name. -/
theorem Named.length_le {members : List (StringLiteral × Tree)} {named : List (String × Tree)}
    (h : Named members named) {name : String} {some : List (StringLiteral × Tree)}
    (hsome : some.Sublist members) (hname : ∀ member ∈ some, member.1.Denotes name) :
    some.length ≤ (valuesOf named name).length := by
  induction h generalizing some with
  | nil =>
    rw [List.sublist_nil.1 hsome]
    exact Nat.zero_le _
  | @cons member e members named hmember hrest ih =>
    obtain ⟨other, tree⟩ := e
    cases hsome with
    | cons _ hsome =>
      refine Nat.le_trans (ih hsome hname) ?_
      by_cases hother : other = name
      · subst hother
        rw [valuesOf_cons_self]
        exact Nat.le_succ _
      · rw [valuesOf_cons_of_ne hother]
    | @cons_cons some _ _ hsome =>
      obtain ⟨hfirst, hname⟩ := List.forall_mem_cons.1 hname
      obtain rfl := hmember.1.unique hfirst
      rw [valuesOf_cons_self]
      exact Nat.succ_le_succ (ih hsome hname)

theorem Named.exists_member {members : List (StringLiteral × Tree)} {named : List (String × Tree)}
    (h : Named members named) {e : String × Tree} (he : e ∈ named) :
    ∃ member ∈ members, member.1.Denotes e.1 ∧ member.2 = e.2 := by
  induction h with
  | nil => exact absurd he List.not_mem_nil
  | @cons member first members named hmember _ ih =>
    rcases List.mem_cons.1 he with rfl | he
    · exact ⟨member, List.mem_cons_self, hmember⟩
    · obtain ⟨other, hother, hsame⟩ := ih he
      exact ⟨other, List.mem_cons_of_mem member hother, hsame⟩

/-- The values of members are free of floating-point numbers if the object is. -/
theorem Named.floatFree {members : List (StringLiteral × Tree)} {named : List (String × Tree)}
    (h : Named members named) (hfree : FloatFreeNamed members) : ∀ e ∈ named, e.2.FloatFree := by
  induction h with
  | nil => exact fun _ => List.not_mem_nil.elim
  | @cons member e members named hmember _ ih =>
    refine List.forall_mem_cons.2 ⟨?_, ih hfree.2⟩
    rw [← hmember.2]
    exact hfree.1

theorem Repeats.two_le {members : List (StringLiteral × Tree)} {name : String}
    (h : Repeats members name) {named : List (String × Tree)} (hnamed : Named members named) :
    2 ≤ (valuesOf named name).length := by
  obtain ⟨first, second, hsublist, hfirst, hsecond⟩ := h
  refine hnamed.length_le hsublist fun member hmember => ?_
  rcases List.mem_cons.1 hmember with rfl | hmember
  · exact hfirst
  · rwa [List.mem_singleton.1 hmember]

namespace Schema

variable {ρ : Type} {schema : Schema ρ} {Step : String → Tree → ρ → ρ → Prop}

/-! ### Steps and runs -/

/-- Whether a relation says what a record makes of one member, wherever its value stands. -/
def Makes (schema : Schema ρ) (Step : String → Tree → ρ → ρ → Prop) : Prop :=
  ∀ (name : String) (tree : Tree) (node : Node), tree.ScannedAs node → ∀ record next : ρ,
    schema.takeMember name node record = .ok next ↔ Step name tree record next

/-- Whether members lead from one record to another, one step for each in the order of writing. -/
inductive Run (Step : String → Tree → ρ → ρ → Prop) : List (String × Tree) → ρ → ρ → Prop
  | nil (record : ρ) : Run Step [] record record
  | cons {name : String} {tree : Tree} {rest : List (String × Tree)} {record next last : ρ} :
      Step name tree record next → Run Step rest next last →
        Run Step ((name, tree) :: rest) record last

/-- Whether steps under one name decide a part of the record, and other steps leave it. -/
def Decides {β : Type} (Step : String → Tree → ρ → ρ → Prop) (name : String) (get : ρ → β)
    (Means : Tree → β → Prop) : Prop :=
  ∀ other tree r s, Step other tree r s →
    (other = name → Means tree (get s)) ∧ (other ≠ name → get s = get r)

namespace Run

variable {named : List (String × Tree)} {record final : ρ}

/-- The last member with a name tells the part of the record that the name decides, and without
one the part is as before. -/
theorem last {β : Type} {get : ρ → β} {name : String} {Means : Tree → β → Prop}
    (hdecides : Decides Step name get Means) (h : Run Step named record final) :
    (valuesOf named name = [] → get final = get record) ∧
      ∀ tree, (valuesOf named name).getLast? = some tree → Means tree (get final) := by
  induction h with
  | nil record => exact ⟨fun _ => rfl, fun tree htree => by simp [valuesOf] at htree⟩
  | @cons other tree rest record next last hfirst _ ih =>
    obtain ⟨hown, hothers⟩ := hdecides _ _ _ _ hfirst
    obtain ⟨hnone, hsome⟩ := ih
    by_cases hname : other = name
    · subst hname
      rw [valuesOf_cons_self]
      refine ⟨fun h => absurd h (List.cons_ne_nil _ _), fun tree' htree' => ?_⟩
      -- the first member counts only if no later one has its name
      cases hrest : valuesOf rest other with
      | nil =>
        rw [hrest, List.getLast?_singleton, Option.some.injEq] at htree'
        subst htree'
        rw [hnone hrest]
        exact hown rfl
      | cons second more =>
        rw [hrest, List.getLast?_cons_cons, ← hrest] at htree'
        exact hsome tree' htree'
    · rw [valuesOf_cons_of_ne hname]
      exact ⟨fun h => (hnone h).trans (hothers hname), hsome⟩

/-- A field that its name decides holds the value of the only member with the name. -/
theorem holds {α : Type} {get : ρ → α} {name : String} {write : α → Value}
    (hdecides : Decides Step name get fun tree x => tree.Denotes (write x))
    (h : Run Step named record final) (honce : (valuesOf named name).length ≤ 1)
    (hthere : name ∈ named.map (·.1)) : Holds named name write (get final) := by
  obtain ⟨-, hlast⟩ := h.last hdecides
  have hcount := List.count_pos_iff.2 hthere
  rw [← length_valuesOf] at hcount
  obtain ⟨tree, htree⟩ := List.length_eq_one_iff.1 (Nat.le_antisymm honce hcount)
  exact ⟨tree, htree, hlast tree (by rw [htree]; rfl)⟩

theorem holdsOptional {α : Type} {get : ρ → Option α} {name : String} {write : α → Value}
    (hdecides : Decides Step name get fun tree x => tree.Denotes (orNull write x))
    (h : Run Step named record final) (honce : (valuesOf named name).length ≤ 1)
    (hempty : get record = none) : HoldsOptional named name write (get final) := by
  by_cases hthere : name ∈ named.map (·.1)
  · exact .inr (h.holds hdecides honce hthere)
  · have hnone : valuesOf named name = [] := by
      rw [← List.length_eq_zero_iff, length_valuesOf]
      exact List.count_eq_zero.2 hthere
    obtain ⟨hkept, -⟩ := h.last hdecides
    exact .inl ⟨hnone, (hkept hnone).trans hempty⟩

/-- A part that its name decides is told by the last member with the name. -/
theorem holdsLast {get : ρ → Option Value} {name : String}
    (hdecides : Decides Step name get fun tree x => ∃ v, tree.Denotes v ∧ x = some v)
    (h : Run Step named record final) (hempty : get record = none) :
    HoldsLast named name (get final) := by
  obtain ⟨hkept, hlast⟩ := h.last hdecides
  cases hvalue : (valuesOf named name).getLast? with
  | none =>
    have hnone := List.getLast?_eq_none_iff.1 hvalue
    exact .inl ⟨hnone, (hkept hnone).trans hempty⟩
  | some tree =>
    obtain ⟨v, hv, hget⟩ := hlast tree hvalue
    exact .inr ⟨tree, v, hvalue, hv, hget⟩

/-- What no step changes is at last as it was. -/
theorem keeps {β : Type} {get : ρ → β}
    (hstep : ∀ name tree r s, Step name tree r s → get s = get r)
    (h : Run Step named record final) : get final = get record := by
  induction h with
  | nil record => rfl
  | cons hfirst _ ih => exact ih.trans (hstep _ _ _ _ hfirst)

/-- If every member can be taken whatever the record is, there is a run. -/
theorem exists_of_forall (h : ∀ e ∈ named, ∀ r, ∃ s, Step e.1 e.2 r s) (record : ρ) :
    ∃ final, Run Step named record final := by
  induction named generalizing record with
  | nil => exact ⟨record, .nil record⟩
  | cons e rest ih =>
    obtain ⟨hfirst, hrest⟩ := List.forall_mem_cons.1 h
    obtain ⟨next, hnext⟩ := hfirst record
    obtain ⟨last, hlast⟩ := ih hrest next
    exact ⟨last, .cons hnext hlast⟩

/-- Every member of a run has been taken. -/
theorem taken (h : Run Step named record final) : ∀ e ∈ named, ∃ r s, Step e.1 e.2 r s := by
  induction h with
  | nil record => exact fun _ => List.not_mem_nil.elim
  | cons hfirst _ ih => exact List.forall_mem_cons.2 ⟨⟨_, _, hfirst⟩, ih⟩

end Run

/-! ### Known names -/

/-- The known names of members, in the order of writing. -/
def known (schema : Schema ρ) (named : List (String × Tree)) : List String :=
  (named.map (·.1)).filter fun name => (schema.fields.find? (·.name = name)).isSome

theorem known_append_noted (seen : List String) (name : String) (tree : Tree)
    (rest : List (String × Tree)) :
    (schema.known ((name, tree) :: rest)).reverse ++ seen =
      (schema.known rest).reverse ++ schema.noted seen name := by
  rw [known, List.map_cons, List.filter_cons, noted]
  split
  · rw [List.reverse_cons, List.append_assoc]
    rfl
  · rfl

theorem knows_iff {name : String} : schema.Knows name ↔ name ∈ schema.fields.map (·.name) := by
  rw [Knows, List.find?_isSome, List.mem_map]
  simp

theorem knows_of_mem {field : Field ρ} (h : field ∈ schema.fields) : schema.Knows field.name :=
  knows_iff.2 (List.mem_map_of_mem h)

theorem mem_known_iff {named : List (String × Tree)} {name : String} (h : schema.Knows name) :
    name ∈ schema.known named ↔ name ∈ named.map (·.1) := by
  rw [known, List.mem_filter]
  exact and_iff_left h

/-- No known name occurs twice. -/
theorem nodup_known_iff {named : List (String × Tree)} :
    (schema.known named).Nodup ↔ ∀ name, schema.Knows name → (valuesOf named name).length ≤ 1 := by
  rw [List.nodup_iff_count_le_one]
  refine forall_congr' fun name => ?_
  rw [length_valuesOf]
  by_cases h : schema.Knows name
  · have hcount : (schema.known named).count name = (named.map (·.1)).count name :=
      List.count_filter h
    rw [hcount]
    exact ⟨fun hle _ => hle, fun hle => hle h⟩
  · have hcount : (schema.known named).count name = 0 :=
      List.count_eq_zero.2 fun hmem => h (List.mem_filter.1 hmem).2
    rw [hcount]
    exact iff_of_true (Nat.zero_le 1) fun hknows => absurd hknows h

/-! ### Reading -/

/-- A member is taken if its key can be read, its name is not a known one that has been seen,
and the record takes its value. -/
theorem takeMembers_cons_eq_ok_iff (input : Bytes) (seen : List String) (record : ρ) (key : Key)
    (node : Node) (rest : List (Key × Node)) (result : List String × ρ) :
    schema.takeMembers input seen record ((key, node) :: rest) = .ok result ↔
      ∃ name, key.read = .ok name ∧ ¬(schema.Knows name ∧ name ∈ seen) ∧
        ∃ next, schema.takeMember name node record = .ok next ∧
          schema.takeMembers input (schema.noted seen name) next rest = .ok result := by
  rw [takeMembers, Result.bind_eq_ok_iff]
  refine exists_congr fun name => and_congr_right fun _ => ?_
  unfold Knows takeMember noted
  cases hfield : schema.fields.find? (·.name = name) with
  | some field =>
    by_cases hseen : name ∈ seen
    · simp [hseen]
    · simp [hseen, Result.bind_eq_ok_iff]
  | none => simp [Result.bind_eq_ok_iff]

theorem takeMembers_eq_ok_iff (hmakes : schema.Makes Step) (input : Bytes)
    {members : List (StringLiteral × Tree)} {nodes : List (Key × Node)}
    (hnodes : MembersScannedAs members nodes) {seen : List String} (hseen : seen.Nodup) (record : ρ)
    (result : List String × ρ) :
    schema.takeMembers input seen record nodes = .ok result ↔
      ∃ named, Named members named ∧ Run Step named record result.2 ∧
        result.1 = (schema.known named).reverse ++ seen ∧ result.1.Nodup := by
  induction members generalizing nodes seen record with
  | nil =>
    cases nodes with
    | cons node rest => exact hnodes.elim
    | nil =>
      rw [takeMembers, Except.ok.injEq]
      constructor
      · rintro rfl
        exact ⟨[], .nil, .nil record, rfl, hseen⟩
      · rintro ⟨named, hnamed, hrun, hresult, -⟩
        obtain rfl := List.forall₂_nil_left_iff.1 hnamed
        obtain ⟨names, last⟩ := result
        cases hrun
        exact Prod.ext hresult.symm rfl
  | cons member rest ih =>
    cases nodes with
    | nil => exact hnodes.elim
    | cons node more =>
      obtain ⟨literal, tree⟩ := member
      obtain ⟨key, node⟩ := node
      obtain ⟨hkey, hnode, hmore⟩ := hnodes
      simp only [takeMembers_cons_eq_ok_iff, Key.read_eq_ok_iff hkey,
        hmakes _ tree node hnode]
      constructor
      · rintro ⟨name, hname, hnew, next, hstep, htaken⟩
        have hnoted : (schema.noted seen name).Nodup := by
          rw [noted]
          split
          · next hknows => exact List.nodup_cons.2 ⟨fun hmem => hnew ⟨hknows, hmem⟩, hseen⟩
          · exact hseen
        obtain ⟨named, hnamed, hrun, hresult, hnodup⟩ := (ih hmore hnoted next).1 htaken
        refine ⟨(name, tree) :: named, .cons ⟨hname, rfl⟩ hnamed, .cons hstep hrun, ?_, hnodup⟩
        rw [hresult, known_append_noted]
      · rintro ⟨named, hnamed, hrun, hresult, hnodup⟩
        cases hnamed with
        | @cons _ e _ named hfirst hrest =>
          obtain ⟨name, other⟩ := e
          obtain ⟨hname, rfl⟩ := hfirst
          cases hrun with
          | @cons _ _ _ _ next _ hstep hrun =>
            rw [known_append_noted] at hresult
            have hnoted : (schema.noted seen name).Nodup := by
              rw [hresult] at hnodup
              exact (List.nodup_append.1 hnodup).2.1
            refine ⟨name, hname, ?_, next, hstep, (ih hmore hnoted next).2
              ⟨named, hrest, hrun, hresult, hnodup⟩⟩
            rintro ⟨hknows, hmem⟩
            have hcons : schema.noted seen name = name :: seen := if_pos hknows
            rw [hcons] at hnoted
            exact (List.nodup_cons.1 hnoted).1 hmem

/-- Whether a record can be read from members: no known name occurs twice, and no required one is
missing. -/
structure Fills (schema : Schema ρ) (named : List (String × Tree)) : Prop where
  once : ∀ name, schema.Knows name → (valuesOf named name).length ≤ 1
  there : ∀ field ∈ schema.fields.take schema.required, field.name ∈ named.map (·.1)

/-- An object is read as what its members lead to, if no known name occurs twice and no required
one is missing. -/
theorem readObject_eq_ok_iff (hmakes : schema.Makes Step) (input : Bytes)
    {members : List (StringLiteral × Tree)} {nodes : List (Key × Node)}
    (hnodes : MembersScannedAs members nodes) (stop : Nat) (record : ρ) :
    schema.readObject input nodes (.closed stop) = .ok record ↔
      ∃ named, Named members named ∧ Run Step named schema.empty record ∧ schema.Fills named := by
  have hmissing : ∀ named, (schema.fields.take schema.required).find?
      (·.name ∉ (schema.known named).reverse ++ []) = none ↔
        ∀ field ∈ schema.fields.take schema.required, field.name ∈ named.map (·.1) := by
    intro named
    rw [List.find?_eq_none]
    refine forall₂_congr fun field hfield => ?_
    rw [← mem_known_iff (knows_of_mem (List.mem_of_mem_take hfield))]
    simp
  rw [readObject, Result.bind_eq_ok_iff]
  simp only [takeMembers_eq_ok_iff hmakes input hnodes List.nodup_nil, Ending.stop, Result.ok_bind]
  constructor
  · rintro ⟨⟨seen, last⟩, ⟨named, hnamed, hrun, hseen, hnodup⟩, hlast⟩
    simp only at hseen hnodup hlast
    subst hseen
    rw [List.append_nil, List.nodup_reverse] at hnodup
    split at hlast
    · simp at hlast
    · next hnone =>
      rw [Result.pure_eq_ok, Except.ok.injEq] at hlast
      subst hlast
      exact ⟨named, hnamed, hrun, nodup_known_iff.1 hnodup, (hmissing named).1 hnone⟩
  · rintro ⟨named, hnamed, hrun, honce, hthere⟩
    refine ⟨((schema.known named).reverse ++ [], record), ⟨named, hnamed, hrun, rfl, ?_⟩, ?_⟩
    · rw [List.append_nil, List.nodup_reverse]
      exact nodup_known_iff.2 honce
    · simp only [(hmissing named).2 hthere]
      rfl

/-- A document is read as what its members lead to, if no known name occurs twice and no
required one is missing. -/
theorem ofOctets_eq_ok_iff (hmakes : schema.Makes Step) {members : List (StringLiteral × Tree)}
    {input : Bytes} (h : (Tree.object members).Document input) (record : ρ) :
    schema.ofOctets input = .ok record ↔
      ∃ named, Named members named ∧ Run Step named schema.empty record ∧ schema.Fills named := by
  obtain ⟨node, hnode, hscan⟩ := Document.scan_of_document h
  obtain ⟨start, nodes, stop, rfl, hnodes⟩ := hnode.object
  have hdocument : schema.ofOctets input = .ok record ↔
      schema.readObject input nodes (.closed stop) = .ok record := by
    rw [ofOctets, Document.read_eq_ok_iff, hscan]
    exact and_iff_left rfl
  rw [hdocument, readObject_eq_ok_iff hmakes input hnodes stop record]

/-- A document in which a known name occurs twice is not read. -/
theorem ofOctets_of_repeats (hmakes : schema.Makes Step) {members : List (StringLiteral × Tree)}
    {input : Bytes} (h : (Tree.object members).Document input) {name : String}
    (hknows : schema.Knows name) (hrepeats : Repeats members name) :
    ∃ e, schema.ofOctets input = .error e := by
  cases hread : schema.ofOctets input with
  | error e => exact ⟨e, rfl⟩
  | ok record =>
    obtain ⟨named, hnamed, -, hfills⟩ := (ofOctets_eq_ok_iff hmakes h record).1 hread
    exact absurd (Nat.le_trans (hrepeats.two_le hnamed) (hfills.once name hknows)) (by decide)

/-- A record that is not written as an array is read from an object. -/
theorem object_of_read (hpositional : schema.positional = false) {input : Bytes} {node : Node}
    {record : ρ} (h : schema.read input node = .ok record) :
    ∃ start members ending, node = .object start members ending ∧
      schema.readObject input members ending = .ok record := by
  cases node with
  | object start members ending => exact ⟨start, members, ending, rfl, h⟩
  | array start items ending => simp [read, hpositional] at h
  | null | boolean | number | string | broken => exact absurd h (by simp [read])

theorem object_of_ofOctets (hpositional : schema.positional = false) {tree : Tree} {input : Bytes}
    {record : ρ} (htree : tree.Document input) (h : schema.ofOctets input = .ok record) :
    ∃ members, tree = .object members := by
  obtain ⟨node, hnode, hscan⟩ := Document.scan_of_document htree
  rw [ofOctets, Document.read_eq_ok_iff, hscan] at h
  obtain ⟨start, nodes, ending, rfl, -⟩ := object_of_read hpositional h.1
  cases tree with
  | object members => exact ⟨members, rfl⟩
  | null | boolean | number | string | array => exact hnode.elim

/-! ### What members keep -/

section

variable {Inv : ρ → Prop}
  (hstep : ∀ name node r s, schema.takeMember name node r = .ok s → Inv r → Inv s)

include hstep

theorem takeMembers_invariant {input : Bytes} {seen : List String} {record : ρ}
    {nodes : List (Key × Node)} {result : List String × ρ}
    (h : schema.takeMembers input seen record nodes = .ok result) (hrecord : Inv record) :
    Inv result.2 := by
  induction nodes generalizing seen record with
  | nil =>
    rw [takeMembers, Except.ok.injEq] at h
    rwa [← h]
  | cons node rest ih =>
    obtain ⟨name, -, -, next, htake, hrest⟩ := (takeMembers_cons_eq_ok_iff _ _ _ _ _ _ _).1 h
    exact ih hrest (hstep name node.2 record next htake hrecord)

/-- What holds of the empty record, and is kept by every member, holds of every record that is
read. -/
theorem ofOctets_invariant (hpositional : schema.positional = false) (hempty : Inv schema.empty)
    {input : Bytes} {record : ρ} (h : schema.ofOctets input = .ok record) : Inv record := by
  rw [ofOctets, Document.read_eq_ok_iff] at h
  obtain ⟨start, nodes, ending, -, hread⟩ := object_of_read hpositional h.1
  obtain ⟨result, htaken, hrest⟩ := Result.bind_eq_ok_iff.1 hread
  obtain ⟨stop, -, hlast⟩ := Result.bind_eq_ok_iff.1 hrest
  have hresult := takeMembers_invariant hstep htaken hempty
  split at hlast
  · simp at hlast
  · rw [Result.pure_eq_ok, Except.ok.injEq] at hlast
    rwa [← hlast]

end

/-! ### Steps by fields -/

/-- A member is taken by the field that has its name, or by the rule for all others. -/
theorem takeMember_cases {name : String} {node : Node} {record next : ρ}
    (h : schema.takeMember name node record = .ok next) :
    (∃ field ∈ schema.fields, field.name = name ∧ field.take node record = .ok next) ∨
      name ∉ schema.fields.map (·.name) ∧ schema.other name node record = .ok next := by
  unfold takeMember at h
  cases hfield : schema.fields.find? (·.name = name) with
  | some field =>
    rw [hfield] at h
    exact .inl ⟨field, List.mem_of_find?_eq_some hfield, by simpa using List.find?_some hfield, h⟩
  | none =>
    rw [hfield] at h
    refine .inr ⟨fun hmem => ?_, h⟩
    obtain ⟨field, hin, hname⟩ := List.mem_map.1 hmem
    exact absurd (List.find?_eq_none.1 hfield field hin) (by simpa using hname)

/-- A member that a field takes is put into the record by it. -/
theorem takeMember_of_take {α : Type} {name : String} {node : Node}
    {take : Node → Except Report α} {x : α} (set : α → ρ → ρ) (record : ρ)
    (hfield : schema.fields.find? (·.name = name) =
      some ⟨name, fun node r => do return set (← take node) r⟩) (htake : take node = .ok x) :
    schema.takeMember name node record = .ok (set x record) := by
  rw [takeMember_field hfield]
  exact Result.bind_eq_ok_iff.2 ⟨x, htake, rfl⟩

end Schema

end TokenVault.Json
