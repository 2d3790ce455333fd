import TokenVault.Token.Compact

/-!
# Segments

Splitting at dots is the inverse of joining with dots: the three segments of a token are the
texts without dots that it consists of (`segmentsOf_eq_three_iff`), and there is one segment
more than there are dots (`length_segmentsOf`).
-/

namespace TokenVault

theorem splitAtDots_cons (c : Char) {rest segment : List Char} {more : List (List Char)}
    (h : splitAtDots rest = segment :: more) :
    splitAtDots (c :: rest) =
      if c = '.' then [] :: segment :: more else (c :: segment) :: more := by
  unfold splitAtDots at h ⊢
  rw [List.foldr_cons, h]

theorem splitAtDots_eq_splitOn (chars : List Char) : splitAtDots chars = chars.splitOn '.' := by
  induction chars with
  | nil => rfl
  | cons c rest ih =>
    obtain ⟨segment, more, hrest⟩ := List.exists_cons_of_ne_nil (List.splitOn_ne_nil '.' rest)
    rw [List.splitOn_cons_eq_if_modifyHead, hrest, splitAtDots_cons c (ih.trans hrest)]
    simp

theorem length_splitAtDots (chars : List Char) :
    (splitAtDots chars).length = chars.count '.' + 1 := by
  rw [splitAtDots_eq_splitOn]
  induction chars with
  | nil => rfl
  | cons c rest ih =>
    rw [List.splitOn_cons_eq_if_modifyHead, List.count_cons]
    by_cases hc : c = '.'
    · simp [hc, ih]
    · simp [hc, ih]

theorem not_mem_of_mem_splitAtDots {chars segment : List Char}
    (h : segment ∈ splitAtDots chars) : '.' ∉ segment := by
  rw [splitAtDots_eq_splitOn] at h
  induction chars generalizing segment with
  | nil => simp_all
  | cons c rest ih =>
    rw [List.splitOn_cons_eq_if_modifyHead] at h
    obtain ⟨first, more, hrest⟩ := List.exists_cons_of_ne_nil (List.splitOn_ne_nil '.' rest)
    rw [hrest] at h ih
    by_cases hc : c = '.'
    · simp only [hc, beq_self_eq_true, if_true] at h
      rcases List.mem_cons.1 h with rfl | h
      · exact List.not_mem_nil
      · exact ih h
    · simp only [beq_iff_eq, hc, if_false, List.modifyHead_cons] at h
      rcases List.mem_cons.1 h with rfl | h
      · intro hdot
        rcases List.mem_cons.1 hdot with hdot | hdot
        · exact hc hdot.symm
        · exact ih List.mem_cons_self hdot
      · exact ih (List.mem_cons_of_mem first h)

theorem length_segmentsOf (token : String) :
    (segmentsOf token).length = token.toList.count '.' + 1 := by
  rw [segmentsOf, List.length_map, length_splitAtDots]

/-- A token has three segments if it consists of them, and none of them contains a dot. -/
theorem segmentsOf_eq_three_iff {token a b c : String} :
    segmentsOf token = [a, b, c] ↔
      token = a ++ "." ++ b ++ "." ++ c ∧ '.' ∉ a.toList ∧ '.' ∉ b.toList ∧ '.' ∉ c.toList := by
  constructor
  · intro h
    have hsplit : splitAtDots token.toList = [a.toList, b.toList, c.toList] := by
      have hlist := congrArg (List.map String.toList) h
      simpa [segmentsOf, Function.comp_def] using hlist
    have hdots : ∀ segment ∈ [a.toList, b.toList, c.toList], '.' ∉ segment := by
      rw [← hsplit]
      exact fun segment => not_mem_of_mem_splitAtDots
    exact ⟨eq_append_of_segmentsOf h, hdots _ (by simp), hdots _ (by simp), hdots _ (by simp)⟩
  · rintro ⟨rfl, ha, hb, hc⟩
    have hsplit : splitAtDots (a ++ "." ++ b ++ "." ++ c).toList =
        [a.toList, b.toList, c.toList] := by
      rw [splitAtDots_eq_splitOn]
      simp [List.splitOn_append_cons_self_of_not_mem ha,
        List.splitOn_append_cons_self_of_not_mem hb, List.splitOn_eq_singleton hc]
    rw [segmentsOf, hsplit]
    simp

/-- Where the text before a dot ends is determined by how many dots there are in it. -/
theorem append_dot_inj {a b s t : String} (hcount : a.toList.count '.' = b.toList.count '.')
    (h : a ++ "." ++ s = b ++ "." ++ t) : a = b ∧ s = t := by
  have hlists : a.toList ++ '.' :: s.toList = b.toList ++ '.' :: t.toList := by
    simpa using congrArg String.toList h
  have hsplit := congrArg (List.splitOn '.') hlists
  rw [List.splitOn_append_cons_self, List.splitOn_append_cons_self] at hsplit
  have hlength : (List.splitOn '.' a.toList).length = (List.splitOn '.' b.toList).length := by
    rw [← splitAtDots_eq_splitOn, ← splitAtDots_eq_splitOn, length_splitAtDots,
      length_splitAtDots, hcount]
  obtain ⟨hfirst, hlast⟩ := List.append_inj hsplit hlength
  have hjoin (chars : List Char) := @List.intercalate_splitOn _ chars _ _ '.'
  constructor
  · exact String.toList_inj.1 (by rw [← hjoin a.toList, hfirst, hjoin])
  · exact String.toList_inj.1 (by rw [← hjoin s.toList, hlast, hjoin])

end TokenVault
