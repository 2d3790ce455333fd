import TokenVault.Proofs.Text.Utf8
import TokenVault.SortedMap

/-!
# Laws of sorted maps

Lookup is the view of a sorted map: each change is stated by what it does to `get?`, and a
map is determined by it (`ext_get?`).  A list that is sorted already is the list of entries of
the map that it makes (`entries_ofList`).
-/

namespace TokenVault.SortedMap

variable {α : Type}

/-! ### Lookup -/

@[simp] theorem get?_empty (key : String) : (empty : SortedMap α).get? key = none := rfl

theorem find?_cons_of_ne {entry : String × α} {key : String} (h : ¬entry.1 = key)
    (rest : List (String × α)) :
    (entry :: rest).find? (·.1 = key) = rest.find? (·.1 = key) := by
  simp [h]

theorem find?_insertEntry (choose : α → α → α) (key other : String) (value : α)
    {entries : List (String × α)} (h : entries.Pairwise fun a b => a.1 < b.1) :
    ((insertEntry choose key value entries).find? (·.1 = other)).map (·.2) =
      if other = key then
        some (((entries.find? (·.1 = key)).map fun e => choose value e.2).getD value)
      else (entries.find? (·.1 = other)).map (·.2) := by
  induction entries with
  | nil =>
    by_cases hkey : other = key
    · simp [insertEntry, hkey]
    · simp [insertEntry, hkey, Ne.symm hkey]
  | cons entry rest ih =>
    obtain ⟨hfirst, hrest⟩ := List.pairwise_cons.1 h
    unfold insertEntry
    split
    · next hbefore =>
      -- the key comes before all others, so none of them has it
      have habsent : (entry :: rest).find? (·.1 = key) = none := by
        refine List.find?_eq_none.2 fun e he => ?_
        have hlt : key < e.1 := by
          rcases List.mem_cons.1 he with rfl | he
          · exact hbefore
          · exact String.lt_trans hbefore (hfirst e he)
        simpa using fun heq : e.1 = key => String.lt_irrefl key (heq ▸ hlt)
      by_cases hkey : other = key
      · simp [hkey, habsent]
      · rw [find?_cons_of_ne (Ne.symm hkey), if_neg hkey]
    · split
      · next heq =>
        by_cases hkey : other = key
        · simp [hkey, ← heq]
        · have hne : ¬entry.1 = other := fun h => hkey (h ▸ heq.symm)
          simp [hkey, Ne.symm hkey, hne]
      · next hne =>
        by_cases hother : entry.1 = other
        · have hkey : ¬other = key := fun h => hne (h ▸ hother.symm)
          simp [hother, hkey]
        · rw [find?_cons_of_ne hother, find?_cons_of_ne hother, find?_cons_of_ne (Ne.symm hne)]
          exact ih hrest

theorem get?_insert (m : SortedMap α) (key other : String) (value : α) :
    (m.insert key value).get? other = if other = key then some value else m.get? other := by
  rw [insert, get?, find?_insertEntry _ _ _ _ m.sorted, get?]
  cases m.entries.find? (·.1 = key) with
  | none => rfl
  | some e => rfl

theorem get?_erase (m : SortedMap α) (key other : String) :
    (m.erase key).get? other = if other = key then none else m.get? other := by
  rw [erase, get?, List.find?_filter]
  by_cases hkey : other = key
  · subst hkey
    simp
  · rw [if_neg hkey, get?]
    congr 2
    funext e
    by_cases he : e.1 = other
    · simp [he, hkey]
    · simp [he]

theorem get?_supply (m : SortedMap α) (key other : String) (value : α) :
    (m.supply key value).get? other =
      if other = key then some ((m.get? key).getD value) else m.get? other := by
  rw [supply, get?, find?_insertEntry _ _ _ _ m.sorted, get?, get?]

theorem mem_keys_iff (m : SortedMap α) (key : String) : key ∈ m.keys ↔ m.contains key = true := by
  simp [keys, contains, get?]

/-! ### Keys -/

theorem map_insertEntry_congr {choose choose' : α → α → α} {key : String} {value value' : α}
    {a b : List (String × α)} (h : a.map (·.1) = b.map (·.1)) :
    (insertEntry choose key value a).map (·.1) = (insertEntry choose' key value' b).map (·.1) := by
  induction a generalizing b with
  | nil =>
    obtain rfl := List.map_eq_nil_iff.1 h.symm
    rfl
  | cons entry rest ih =>
    cases b with
    | nil => cases h
    | cons entry' rest' =>
      obtain ⟨hkey, hrest⟩ := List.cons.inj h
      simp only [insertEntry, hkey]
      split_ifs
      · simp only [List.map_cons, hkey, hrest]
      · simp only [List.map_cons, hrest]
      · simp only [List.map_cons, hkey, ih hrest]

section

variable {m n : SortedMap α} (h : m.keys = n.keys)

include h

/-- The keys of a map after a change depend on the keys before it alone. -/
theorem keys_insert_congr (key : String) (value value' : α) :
    (m.insert key value).keys = (n.insert key value').keys := map_insertEntry_congr h

theorem keys_supply_congr (key : String) (value value' : α) :
    (m.supply key value).keys = (n.supply key value').keys := map_insertEntry_congr h

theorem keys_erase_congr (key : String) : (m.erase key).keys = (n.erase key).keys := by
  have herased : ∀ m : SortedMap α, (m.erase key).keys = m.keys.filter (· ≠ key) := fun m => by
    rw [keys, keys, erase, List.filter_map]
    rfl
  rw [herased, herased, h]

theorem contains_congr (key : String) : m.contains key = n.contains key := by
  rw [Bool.eq_iff_iff, ← mem_keys_iff, ← mem_keys_iff, h]

end

theorem keys_ofList_congr {a b : List (String × α)} (h : a.map (·.1) = b.map (·.1)) :
    (ofList a).keys = (ofList b).keys := by
  induction a generalizing b with
  | nil =>
    obtain rfl := List.map_eq_nil_iff.1 h.symm
    rfl
  | cons entry rest ih =>
    cases b with
    | nil => cases h
    | cons entry' rest' =>
      obtain ⟨hkey, hrest⟩ := List.cons.inj h
      have hkey : entry.1 = entry'.1 := hkey
      rw [ofList_cons, ofList_cons, hkey]
      exact keys_supply_congr (ih hrest) _ _ _

/-! ### Order -/

/-- The keys of a map stand in ascending order of their UTF-8 octets. -/
theorem pairwise_keys (m : SortedMap α) :
    m.keys.Pairwise fun a b => Bytes.ofText a < Bytes.ofText b := by
  rw [keys, List.pairwise_map]
  exact m.sorted.imp Bytes.ofText_lt_ofText

theorem nodup_entries (m : SortedMap α) : m.entries.Nodup := by
  refine m.sorted.imp fun {a b} (hlt : a.1 < b.1) => ?_
  rintro rfl
  exact String.lt_irrefl _ hlt

theorem nodup_keys (m : SortedMap α) : m.keys.Nodup := by
  refine List.pairwise_map.2 (m.sorted.imp fun {a b} (hlt : a.1 < b.1) heq => ?_)
  exact String.lt_irrefl _ (heq ▸ hlt)

theorem mem_entries_iff (m : SortedMap α) (e : String × α) :
    e ∈ m.entries ↔ m.get? e.1 = some e.2 := by
  obtain ⟨entries, sorted⟩ := m
  rw [get?]
  induction entries with
  | nil => simp
  | cons entry rest ih =>
    obtain ⟨hfirst, hrest⟩ := List.pairwise_cons.1 sorted
    by_cases hkey : entry.1 = e.1
    · have habsent : e ∉ rest := fun he => String.lt_irrefl _ (hkey ▸ hfirst e he)
      simp [hkey, habsent, Prod.ext_iff, eq_comm]
    · have hne : e ≠ entry := fun heq => hkey (heq ▸ rfl)
      rw [find?_cons_of_ne hkey, List.mem_cons, or_iff_right hne]
      exact ih hrest

/-- What is known of every key is known after an insertion if it is known of the new key. -/
theorem forall_keys_insert {P : String → Prop} {m : SortedMap α} {key : String} {value : α}
    (hkey : P key) (h : ∀ e ∈ m.entries, P e.1) : ∀ e ∈ (m.insert key value).entries, P e.1 := by
  intro e he
  rcases mem_insertEntry he with heq | hold
  · rwa [heq]
  · exact h e hold

/-- What a list of entries makes is taken from the list. -/
theorem mem_of_mem_ofList {entries : List (String × α)} {e : String × α}
    (h : e ∈ (ofList entries).entries) : e ∈ entries := by
  induction entries with
  | nil => exact h
  | cons entry rest ih =>
    rw [ofList_cons, mem_entries_iff, get?_supply] at h
    split at h
    · next hkey =>
      cases hold : (ofList rest).get? entry.1 with
      | none =>
        rw [hold, Option.getD_none, Option.some.injEq] at h
        exact List.mem_cons.2 (.inl (Prod.ext hkey h.symm))
      | some value =>
        rw [hold, Option.getD_some, Option.some.injEq] at h
        refine List.mem_cons_of_mem entry (ih ((mem_entries_iff _ _).2 ?_))
        rw [hkey, hold, h]
    · exact List.mem_cons_of_mem entry (ih ((mem_entries_iff _ _).2 h))

/-- The value of the last entry with a key. -/
def lastValue (entries : List (String × α)) (key : String) : Option α :=
  (entries.filter (·.1 = key)).getLast?.map (·.2)

/-- Of several entries with one key the last counts. -/
theorem get?_ofList (entries : List (String × α)) (key : String) :
    (ofList entries).get? key = lastValue entries key := by
  induction entries with
  | nil => rfl
  | cons entry rest ih =>
    rw [ofList_cons, get?_supply]
    by_cases hkey : key = entry.1
    · subst hkey
      rw [if_pos rfl, ih, lastValue, lastValue, List.filter_cons_of_pos (by simp),
        List.getLast?_cons]
      cases (rest.filter (·.1 = entry.1)).getLast? <;> rfl
    · rw [if_neg hkey, ih, lastValue, lastValue, List.filter_cons_of_neg (by simp [Ne.symm hkey])]

/-- A map is determined by what is found in it. -/
theorem ext_get? {m n : SortedMap α} (h : ∀ key, m.get? key = n.get? key) : m = n := by
  apply ext
  have hperm : m.entries.Perm n.entries := by
    refine (List.perm_ext_iff_of_nodup m.nodup_entries n.nodup_entries).2 fun e => ?_
    rw [mem_entries_iff, mem_entries_iff, h]
  exact hperm.eq_of_pairwise (fun a b _ _ hab hba => absurd hba (String.lt_asymm hab)) m.sorted
    n.sorted

/-- An entry beyond all others is put at the end. -/
theorem insertEntry_of_lt (choose : α → α → α) {key : String} (value : α)
    {entries : List (String × α)} (h : ∀ e ∈ entries, e.1 < key) :
    insertEntry choose key value entries = entries ++ [(key, value)] := by
  induction entries with
  | nil => rfl
  | cons entry rest ih =>
    have hentry := h entry List.mem_cons_self
    rw [insertEntry, if_neg (String.lt_asymm hentry),
      if_neg fun heq => String.lt_irrefl _ (heq ▸ hentry),
      ih fun e he => h e (List.mem_cons_of_mem entry he)]
    rfl

/-- A list that is sorted already is taken as it is. -/
theorem entries_ofList {entries : List (String × α)}
    (h : entries.Pairwise fun a b => a.1 < b.1) : (ofList entries).entries = entries := by
  induction entries with
  | nil => rfl
  | cons entry rest ih =>
    obtain ⟨hfirst, hrest⟩ := List.pairwise_cons.1 h
    rw [ofList_cons, supply]
    show insertEntry _ _ _ (ofList rest).entries = _
    rw [ih hrest]
    cases rest with
    | nil => rfl
    | cons next more => rw [insertEntry, if_pos (hfirst next List.mem_cons_self)]

theorem ofList_entries (m : SortedMap α) : ofList m.entries = m :=
  ext (entries_ofList m.sorted)

/-- Entries put in one after the other, in ascending order and beyond those of the map, are
added to its list. -/
theorem entries_foldl_insert {entries : List (String × α)} (m : SortedMap α)
    (h : (m.entries ++ entries).Pairwise fun a b => a.1 < b.1) :
    (entries.foldl (fun m e => m.insert e.1 e.2) m).entries = m.entries ++ entries := by
  induction entries generalizing m with
  | nil => exact (List.append_nil _).symm
  | cons entry rest ih =>
    have hlast : (m.insert entry.1 entry.2).entries = m.entries ++ [entry] :=
      insertEntry_of_lt _ _ fun e he =>
        (List.pairwise_append.1 h).2.2 e he entry List.mem_cons_self
    rw [List.foldl_cons, ih, hlast, List.append_assoc, List.singleton_append]
    rwa [hlast, List.append_assoc, List.singleton_append]

theorem foldl_insert_empty (m : SortedMap α) :
    m.entries.foldl (fun m e => m.insert e.1 e.2) empty = m :=
  ext (entries_foldl_insert empty m.sorted)

end TokenVault.SortedMap
