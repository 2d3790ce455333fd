/-!
# Sorted maps

Finite maps from texts, kept in ascending order of their keys: by the first character in
which two keys differ, which is also the order of their UTF-8 octets.  The order is part of
the type, so two maps with the same entries are the same map, and what is written from one
depends on its entries alone.
-/

namespace TokenVault

/-- A finite map from texts, in ascending order of its keys. -/
structure SortedMap (α : Type) where
  entries : List (String × α)
  sorted : entries.Pairwise fun a b => a.1 < b.1
  deriving DecidableEq

namespace SortedMap

variable {α : Type}

/-- Puts an entry at its place in a sorted list.  If there is one with the same key, `choose`
picks a value from the new one and the old one. -/
def insertEntry (choose : α → α → α) (key : String) (value : α) :
    List (String × α) → List (String × α)
  | [] => [(key, value)]
  | entry :: rest =>
    if key < entry.1 then (key, value) :: entry :: rest
    else if key = entry.1 then (key, choose value entry.2) :: rest
    else entry :: insertEntry choose key value rest

theorem mem_insertEntry {choose : α → α → α} {key : String} {value : α}
    {entries : List (String × α)} {e : String × α}
    (h : e ∈ insertEntry choose key value entries) : e.1 = key ∨ e ∈ entries := by
  induction entries with
  | nil =>
    simp only [insertEntry, List.mem_singleton] at h
    exact .inl (h ▸ rfl)
  | cons entry rest ih =>
    unfold insertEntry at h
    split at h
    · rcases List.mem_cons.1 h with h | h
      · exact .inl (h ▸ rfl)
      · exact .inr h
    · split at h
      · rcases List.mem_cons.1 h with h | h
        · exact .inl (h ▸ rfl)
        · exact .inr (List.mem_cons_of_mem _ h)
      · rcases List.mem_cons.1 h with h | h
        · exact .inr (h ▸ List.mem_cons_self)
        · exact (ih h).imp id (List.mem_cons_of_mem _)

theorem pairwise_insertEntry (choose : α → α → α) (key : String) (value : α)
    {entries : List (String × α)} (h : entries.Pairwise fun a b => a.1 < b.1) :
    (insertEntry choose key value entries).Pairwise fun a b => a.1 < b.1 := by
  induction entries with
  | nil => simp [insertEntry]
  | cons entry rest ih =>
    rw [List.pairwise_cons] at h
    unfold insertEntry
    split
    · next hbefore =>
      refine List.pairwise_cons.2 ⟨?_, List.pairwise_cons.2 h⟩
      intro e he
      rcases List.mem_cons.1 he with rfl | he
      · exact hbefore
      · exact String.lt_trans hbefore (h.1 e he)
    · next hnot =>
      split
      · next heq =>
        exact List.pairwise_cons.2 ⟨fun e he => heq ▸ h.1 e he, h.2⟩
      · next hne =>
        refine List.pairwise_cons.2 ⟨fun e he => ?_, ih h.2⟩
        rcases mem_insertEntry he with hkey | he
        · have hle : entry.1 ≤ key := String.not_lt.1 hnot
          by_cases hlt : entry.1 < key
          · exact hkey ▸ hlt
          · exact absurd (String.le_antisymm (String.not_lt.1 hlt) hle) hne
        · exact h.1 e he

/-- The map without entries. -/
def empty : SortedMap α := ⟨[], .nil⟩

/-- The map with one more entry, which takes the place of one with the same key. -/
def insert (m : SortedMap α) (key : String) (value : α) : SortedMap α :=
  ⟨insertEntry (fun new _ => new) key value m.entries, pairwise_insertEntry _ key value m.sorted⟩

/-- The map with one more entry, unless there is one with the same key. -/
def supply (m : SortedMap α) (key : String) (value : α) : SortedMap α :=
  ⟨insertEntry (fun _ old => old) key value m.entries, pairwise_insertEntry _ key value m.sorted⟩

/-- The map without the entry for a key. -/
def erase (m : SortedMap α) (key : String) : SortedMap α :=
  ⟨m.entries.filter (·.1 ≠ key), m.sorted.filter _⟩

/-- The value for a key. -/
def get? (m : SortedMap α) (key : String) : Option α :=
  (m.entries.find? (·.1 = key)).map (·.2)

/-- Whether there is a value for a key. -/
def contains (m : SortedMap α) (key : String) : Bool := (m.get? key).isSome

/-- The keys, in ascending order. -/
def keys (m : SortedMap α) : List String := m.entries.map (·.1)

/-- The map of a list of entries.  Of several with one key the last counts, so they are
taken from the end on. -/
def ofList (entries : List (String × α)) : SortedMap α :=
  entries.foldr (fun e m => m.supply e.1 e.2) empty

@[simp] theorem ofList_nil : ofList ([] : List (String × α)) = empty := rfl

@[simp] theorem ofList_cons (e : String × α) (entries : List (String × α)) :
    ofList (e :: entries) = (ofList entries).supply e.1 e.2 := rfl

@[ext] theorem ext {m n : SortedMap α} (h : m.entries = n.entries) : m = n := by
  cases m
  cases n
  simp_all

example : (ofList [("b", 1), ("a", 2), ("b", 3)]).entries = [("a", 2), ("b", 3)] := by
  decide +kernel

end SortedMap

end TokenVault
