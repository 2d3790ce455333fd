import Mathlib.Data.List.Perm.Subperm
import TokenVault.Proofs.Json.Members
import TokenVault.Proofs.Json.Soundness

/-!
# Records written as arrays

A record that may be written as an array of its fields is read from the items as from members
with the names of the fields in order, where the last ones may be missing: `Schema.read_eq_ok_iff`
covers both ways to write a record.  A record is read only from a document, so what input holds
one is known altogether (`Schema.exists_document_iff`).
-/

namespace TokenVault.Json

theorem ItemsScannedAs.length_eq {items : List Tree} {nodes : List Node}
    (h : ItemsScannedAs items nodes) : nodes.length = items.length := by
  induction items generalizing nodes with
  | nil =>
    cases nodes with
    | nil => rfl
    | cons node rest => exact h.elim
  | cons item others ih =>
    cases nodes with
    | nil => exact h.elim
    | cons node rest => rw [List.length_cons, List.length_cons, ih h.2]

namespace Schema

variable {ρ : Type} {schema : Schema ρ} {Step : String → Tree → ρ → ρ → Prop}

/-- The members that a record is written as: those of an object, or the items of an array with the
names of the fields in order. -/
inductive Lists (schema : Schema ρ) : Tree → List (String × Tree) → Prop
  | object {members : List (StringLiteral × Tree)} {named : List (String × Tree)} :
      Named members named → Lists schema (.object members) named
  | array {items : List Tree} : schema.positional = true →
      items.length ≤ schema.fields.length →
        Lists schema (.array items) ((schema.fields.map (·.name)).zip items)

theorem run_nil_iff {record final : ρ} : Run Step [] record final ↔ final = record := by
  constructor
  · intro h
    cases h
    rfl
  · rintro rfl
    exact .nil final

theorem run_cons_iff {name : String} {tree : Tree} {rest : List (String × Tree)}
    {record final : ρ} :
    Run Step ((name, tree) :: rest) record final ↔
      ∃ next, Step name tree record next ∧ Run Step rest next final := by
  constructor
  · intro h
    cases h with
    | cons hfirst hrest => exact ⟨_, hfirst, hrest⟩
  · rintro ⟨next, hfirst, hrest⟩
    exact .cons hfirst hrest

/-- What a field makes of an item is what the record makes of a member with its name. -/
theorem takeItems_eq_ok_iff (hmakes : schema.Makes Step) {fields : List (Field ρ)}
    (hfields : ∀ field ∈ fields, schema.fields.find? (·.name = field.name) = some field)
    {items : List Tree} {nodes : List Node} (hnodes : ItemsScannedAs items nodes) (taken : Nat)
    (record : ρ) (result : ρ × Nat × List Node) :
    takeItems taken record fields nodes = .ok result ↔
      Run Step ((fields.map (·.name)).zip items) record result.1 ∧
        result.2 = (taken + min fields.length items.length, nodes.drop fields.length) := by
  obtain ⟨final, left⟩ := result
  induction fields generalizing items nodes taken record with
  | nil =>
    rw [takeItems] <;> simp [run_nil_iff, eq_comm]
  | cons field rest ih =>
    obtain ⟨hfield, hrest⟩ := List.forall_mem_cons.1 hfields
    cases items with
    | nil =>
      cases nodes with
      | cons node more => exact hnodes.elim
      | nil => rw [takeItems] <;> simp [run_nil_iff, eq_comm]
    | cons item others =>
      cases nodes with
      | nil => exact hnodes.elim
      | cons node more =>
        have htake := hmakes field.name item node hnodes.1 record
        simp only [takeMember_field hfield] at htake
        have hcount : taken + 1 + min rest.length others.length =
            taken + min (field :: rest).length (item :: others).length := by
          simp only [List.length_cons]
          omega
        rw [takeItems, Result.bind_eq_ok_iff, List.map_cons, List.zip_cons_cons, run_cons_iff]
        simp only [htake, ih hrest hnodes.2, hcount, List.length_cons, List.drop_succ_cons,
          exists_and_right, ← and_assoc]

theorem find?_of_nodup {fields : List (Field ρ)} (h : (fields.map (·.name)).Nodup)
    {field : Field ρ} (hmem : field ∈ fields) :
    fields.find? (·.name = field.name) = some field := by
  induction fields with
  | nil => exact absurd hmem List.not_mem_nil
  | cons first rest ih =>
    obtain ⟨hfirst, hrest⟩ := List.nodup_cons.1 h
    rcases List.mem_cons.1 hmem with rfl | hmem
    · simp
    · have hne : first.name ≠ field.name := fun heq =>
        hfirst (List.mem_map.2 ⟨field, hmem, heq.symm⟩)
      rw [List.find?_cons_of_neg (by simpa using hne), ih hrest hmem]

theorem endOfItems_closed_eq_ok_iff {rest : List Node} {stop : Nat} {result : Unit} :
    endOfItems rest (.closed stop) = .ok result ↔ rest = [] := by
  cases rest with
  | nil => simp [endOfItems]
  | cons node more => simp [endOfItems]

/-- An array is read as what its items lead to, if there are no more of them than fields and no
required one is missing. -/
theorem readArray_eq_ok_iff (hmakes : schema.Makes Step)
    (hdistinct : (schema.fields.map (·.name)).Nodup)
    (hrequired : schema.required ≤ schema.fields.length) {items : List Tree} {nodes : List Node}
    (hnodes : ItemsScannedAs items nodes) (stop : Nat) (record : ρ) :
    schema.readArray nodes (.closed stop) = .ok record ↔
      schema.required ≤ items.length ∧ items.length ≤ schema.fields.length ∧
        Run Step ((schema.fields.map (·.name)).zip items) schema.empty record := by
  have hlength := hnodes.length_eq
  have hleft : nodes.drop schema.fields.length = [] ↔ items.length ≤ schema.fields.length := by
    rw [List.drop_eq_nil_iff, hlength]
  rw [readArray, Result.bind_eq_ok_iff]
  simp only [takeItems_eq_ok_iff hmakes (fun _ => find?_of_nodup hdistinct) hnodes, Nat.zero_add]
  constructor
  · rintro ⟨⟨final, taken, rest⟩, ⟨hrun, hrest⟩, hlast⟩
    obtain ⟨rfl, rfl⟩ := Prod.mk.inj hrest
    simp only at hrun hlast
    split at hlast
    · next hall =>
      obtain ⟨_, hend, hlast⟩ := Result.bind_eq_ok_iff.1 hlast
      cases hlast
      exact ⟨by omega, hleft.1 (endOfItems_closed_eq_ok_iff.1 hend), hrun⟩
    · simp only [Ending.stop, Result.ok_bind] at hlast
      split at hlast
      · cases hlast
      · cases hlast
        exact ⟨by omega, by omega, hrun⟩
  · rintro ⟨hthere, hfits, hrun⟩
    refine ⟨(record, _, _), ⟨hrun, rfl⟩, ?_⟩
    simp only [hleft.2 hfits, endOfItems, Ending.stop, Result.ok_bind]
    split
    · rfl
    · rw [if_neg (by omega)]
      rfl

/-- Items are there under the names of as many fields as there are items, each once. -/
theorem fills_zip_iff (hdistinct : (schema.fields.map (·.name)).Nodup)
    (hrequired : schema.required ≤ schema.fields.length) {items : List Tree}
    (hfits : items.length ≤ schema.fields.length) :
    schema.Fills ((schema.fields.map (·.name)).zip items) ↔ schema.required ≤ items.length := by
  have hnames : ((schema.fields.map (·.name)).zip items).map (·.1) =
      (schema.fields.map (·.name)).take items.length := by
    have hlength : items.length ≤ (schema.fields.map (·.name)).length := by
      rwa [List.length_map]
    rw [List.zip_eq_zip_take_min, Nat.min_eq_right hlength, List.take_length, List.map_fst_zip]
    rw [List.length_take]
    exact Nat.min_le_left _ _
  constructor
  · intro hfills
    have hsubset : (schema.fields.map (·.name)).take schema.required ⊆
        (schema.fields.map (·.name)).take items.length := by
      rw [← hnames, ← List.map_take]
      intro name hname
      obtain ⟨field, hfield, rfl⟩ := List.mem_map.1 hname
      exact hfills.there field hfield
    have hfirst := hdistinct.sublist (List.take_sublist schema.required _)
    have hle := (List.subperm_of_subset hfirst hsubset).length_le
    rw [List.length_take, List.length_take, List.length_map] at hle
    omega
  · intro hthere
    refine ⟨fun name _ => ?_, fun field hfield => ?_⟩
    · rw [length_valuesOf, hnames]
      exact List.nodup_iff_count_le_one.1 (hdistinct.sublist (List.take_sublist _ _)) name
    · rw [hnames, ← List.map_take]
      exact List.mem_map_of_mem (List.take_subset_take_left _ hthere hfield)

/-- A node is read as the record that the members lead to which it is written as. -/
theorem read_eq_ok_iff (hmakes : schema.Makes Step)
    (hdistinct : (schema.fields.map (·.name)).Nodup)
    (hrequired : schema.required ≤ schema.fields.length) (input : Bytes) {tree : Tree} {node : Node}
    (h : tree.ScannedAs node) (record : ρ) :
    schema.read input node = .ok record ↔
      ∃ named, schema.Lists tree named ∧ Run Step named schema.empty record ∧
        schema.Fills named := by
  cases tree with
  | object members =>
    obtain ⟨start, nodes, stop, rfl, hnodes⟩ := h.object
    rw [read, readObject_eq_ok_iff hmakes input hnodes stop record]
    refine exists_congr fun named => and_congr_left fun _ => ⟨.object, fun hlists => ?_⟩
    cases hlists with
    | object hnamed => exact hnamed
  | array items =>
    obtain ⟨start, nodes, stop, rfl, hnodes⟩ := h.array
    cases hpositional : schema.positional with
    | false =>
      constructor
      · intro hread
        simp [read, hpositional] at hread
      · rintro ⟨named, hlists, -⟩
        cases hlists with
        | array hallowed _ => rw [hpositional] at hallowed; cases hallowed
    | true =>
      rw [read, hpositional, if_pos rfl,
        readArray_eq_ok_iff hmakes hdistinct hrequired hnodes stop record]
      constructor
      · rintro ⟨hthere, hfits, hrun⟩
        exact ⟨_, .array hpositional hfits, hrun,
          (fills_zip_iff hdistinct hrequired hfits).2 hthere⟩
      · rintro ⟨named, hlists, hrun, hfills⟩
        cases hlists with
        | array _ hfits =>
          exact ⟨(fills_zip_iff hdistinct hrequired hfits).1 hfills, hfits, hrun⟩
  | null | boolean | number | string =>
    have hread : schema.read input node = .error (node.mismatch schema.expected) := by
      cases node with
      | null | boolean | number | string => rfl
      | array | object | broken => exact h.elim
    rw [hread]
    constructor
    · intro hcontra
      cases hcontra
    · rintro ⟨named, hlists, -⟩
      cases hlists

theorem endOfItems_broken {rest : List Node} {fault : Fault} {result : Unit} :
    endOfItems rest (.broken fault) ≠ .ok result := by
  intro h
  cases rest with
  | nil =>
    rw [endOfItems] at h
    split at h <;> cases h
  | cons node more => cases h

/-- A record is read only from a value that is complete. -/
theorem skip_of_read {input : Bytes} {node : Node} {record : ρ}
    (h : schema.read input node = .ok record) : node.skip = .ok () := by
  have hstop : ∀ {fault : Fault} {stop : Nat}, (Ending.broken fault).stop ≠ .ok stop :=
    fun h => by cases h
  match node with
  | .object _ _ (.closed _) | .array _ _ (.closed _) => rfl
  | .object _ members (.broken fault) =>
    obtain ⟨_, -, hrest⟩ := Result.bind_eq_ok_iff.1 h
    obtain ⟨_, hend, -⟩ := Result.bind_eq_ok_iff.1 hrest
    exact absurd hend hstop
  | .array _ items (.broken fault) =>
    rw [read] at h
    split at h
    · obtain ⟨_, -, hrest⟩ := Result.bind_eq_ok_iff.1 h
      dsimp only at hrest
      split at hrest
      · obtain ⟨_, hend, -⟩ := Result.bind_eq_ok_iff.1 hrest
        exact absurd hend endOfItems_broken
      · obtain ⟨_, hend, -⟩ := Result.bind_eq_ok_iff.1 hrest
        exact absurd hend hstop
    · cases h
  | .null _ | .boolean _ _ | .number _ _ | .string _ _ => rfl
  | .broken _ _ => cases h

/-- What holds a record is a document, and its members lead to the record. -/
theorem exists_document_iff (hmakes : schema.Makes Step)
    (hdistinct : (schema.fields.map (·.name)).Nodup)
    (hrequired : schema.required ≤ schema.fields.length) {input : Bytes} {record : ρ} :
    schema.ofOctets input = .ok record ↔
      ∃ (tree : Tree) (named : List (String × Tree)), tree.Document input ∧
        schema.Lists tree named ∧ Run Step named schema.empty record ∧ schema.Fills named := by
  constructor
  · intro h
    obtain ⟨tree, node, hdocument, hscanned, hread⟩ := Document.exists_of_read skip_of_read h
    obtain ⟨named, hnamed⟩ :=
      (read_eq_ok_iff hmakes hdistinct hrequired input hscanned record).1 hread
    exact ⟨tree, named, hdocument, hnamed⟩
  · rintro ⟨tree, named, hdocument, hnamed⟩
    obtain ⟨node, hscanned, hscan⟩ := Document.scan_of_document hdocument
    rw [ofOctets, Document.read_eq_ok_iff, hscan]
    exact ⟨(read_eq_ok_iff hmakes hdistinct hrequired input hscanned record).2 ⟨named, hnamed⟩, rfl⟩

end Schema

end TokenVault.Json
