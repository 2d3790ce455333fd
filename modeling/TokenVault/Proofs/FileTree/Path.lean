import Mathlib.Data.List.Infix
import Mathlib.Data.List.TakeWhile
import TokenVault.FileTree.Path

/-!
# Paths taken apart

What a path is followed by is known from its part up to the last slash and the part after it
(`exists_split`).  Its components without single dots (`moves`) are those of its parent and
one more (`parent?_spec`), so the directory of a file is on the way to the file
(`directory_spec`).
-/

namespace TokenVault.Path

/-! ### Parts between slashes -/

theorem parts_ne_nil (path : Bytes) : parts path ≠ [] := by
  induction path with
  | nil => exact List.cons_ne_nil _ _
  | cons octet rest ih =>
    obtain ⟨part, more, hrest⟩ := List.exists_cons_of_ne_nil ih
    unfold parts at hrest ⊢
    rw [List.foldr_cons, hrest]
    simp only
    split
    · exact List.cons_ne_nil _ _
    · exact List.cons_ne_nil _ _

theorem parts_cons (octet : UInt8) {rest part : Bytes} {more : List Bytes}
    (h : parts rest = part :: more) :
    parts (octet :: rest) =
      if octet = slash then [] :: part :: more else (octet :: part) :: more := by
  unfold parts at h ⊢
  rw [List.foldr_cons, h]

/-- The parts of two paths with a slash between them. -/
theorem parts_append (a b : Bytes) : parts (a ++ slash :: b) = parts a ++ parts b := by
  induction a with
  | nil =>
    obtain ⟨part, more, hb⟩ := List.exists_cons_of_ne_nil (parts_ne_nil b)
    rw [List.nil_append, parts_cons slash hb, if_pos rfl, hb]
    rfl
  | cons octet rest ih =>
    obtain ⟨part, more, hrest⟩ := List.exists_cons_of_ne_nil (parts_ne_nil rest)
    have happend : parts (rest ++ slash :: b) = part :: (more ++ parts b) := by
      rw [ih, hrest, List.cons_append]
    rw [List.cons_append, parts_cons octet happend, parts_cons octet hrest]
    split
    · rfl
    · rfl

theorem parts_of_not_mem {path : Bytes} (h : slash ∉ path) : parts path = [path] := by
  induction path with
  | nil => rfl
  | cons octet rest ih =>
    obtain ⟨hoctet, hrest⟩ := not_or.1 (mt List.mem_cons.2 h)
    rw [parts_cons octet (ih hrest), if_neg (Ne.symm hoctet)]

/-- A path is a single part, or the last one stands after a slash. -/
theorem last_part (path : Bytes) :
    slash ∉ path ∨ ∃ outer last, path = outer ++ slash :: last ∧ slash ∉ last := by
  induction path with
  | nil => exact .inl List.not_mem_nil
  | cons octet rest ih =>
    rcases ih with hrest | ⟨outer, last, rfl, hlast⟩
    · by_cases hoctet : octet = slash
      · exact .inr ⟨[], rest, by rw [hoctet, List.nil_append], hrest⟩
      · refine .inl fun hmem => ?_
        rcases List.mem_cons.1 hmem with hmem | hmem
        · exact hoctet hmem.symm
        · exact hrest hmem
    · exact .inr ⟨octet :: outer, last, rfl, hlast⟩

/-! ### Components -/

theorem getLast?_ne_slash {path : Bytes} (h : slash ∉ path) : path.getLast? ≠ some slash :=
  fun hlast => h (List.mem_of_getLast? hlast)

theorem components_of_not_mem {path : Bytes} (h : slash ∉ path) (hne : path ≠ []) :
    components path = [path] := by
  rw [components, parts_of_not_mem h, if_neg (getLast?_ne_slash h)]
  simp [hne]

theorem getLast?_append_slash (outer last : Bytes) :
    (outer ++ slash :: last).getLast? = some (last.getLast?.getD slash) := by
  rw [List.getLast?_append, List.getLast?_cons]
  rfl

/-- The components of a path whose last part is known.  If that part is empty the path ends in a
slash. -/
theorem components_append {outer last : Bytes} (h : slash ∉ last) :
    components (outer ++ slash :: last) =
      (parts outer).filter (· ≠ []) ++ [if last = [] then here else last] := by
  rw [components, parts_append, parts_of_not_mem h, getLast?_append_slash, List.filter_append]
  by_cases hlast : last = []
  · subst hlast
    simp
  · obtain ⟨octet, hoctet⟩ := Option.ne_none_iff_exists'.1 (mt List.getLast?_eq_none_iff.1 hlast)
    have hne : octet ≠ slash := by
      rintro rfl
      exact getLast?_ne_slash h hoctet
    rw [hoctet]
    simp [hlast, hne]

/-- A path taken apart: the components that lead to its last part, and that part.  Whatever is
written after the path is written after the last part. -/
structure Split (path : Bytes) (outer : List Bytes) (last : Bytes) : Prop where
  components_eq : path ≠ [] → components path = outer ++ [if last = [] then here else last]
  components_append : ∀ suffix, suffix ≠ [] → slash ∉ suffix →
    components (path ++ suffix) = outer ++ [last ++ suffix]

theorem exists_split (path : Bytes) : ∃ outer last, Split path outer last := by
  rcases last_part path with hpath | ⟨outer, last, rfl, hlast⟩
  · refine ⟨[], path, fun hne => ?_, fun suffix hsuffix hslash => ?_⟩
    · rw [components_of_not_mem hpath hne, if_neg hne]
      rfl
    · refine components_of_not_mem ?_ (by simp [hsuffix])
      exact fun hmem => (List.mem_append.1 hmem).elim hpath hslash
  · refine ⟨_, last, fun _ => components_append hlast, fun suffix hsuffix hslash => ?_⟩
    have hnot : slash ∉ last ++ suffix := fun hmem =>
      (List.mem_append.1 hmem).elim hlast hslash
    have hne : last ++ suffix ≠ [] := by simp [hsuffix]
    rw [List.append_assoc, List.cons_append, components_append hnot, if_neg hne]

/-! ### Components that lead elsewhere -/

/-- The components of a path without those that stay where they are. -/
def moves (path : Bytes) : List Bytes := (components path).filter (· ≠ here)

theorem moves_eq (path : Bytes) :
    moves path = (parts path).filter fun part => part ≠ [] ∧ part ≠ here := by
  have hend : (if path.getLast? = some slash then [here] else []).filter
      (fun part : Bytes => part ≠ here) = [] := by
    split
    · rfl
    · rfl
  rw [moves, components, List.filter_append, hend, List.append_nil, List.filter_filter]
  refine List.filter_congr fun part _ => ?_
  by_cases hnil : part = []
  · simp [hnil]
  · simp [hnil]

/-- What a single part contributes. -/
theorem moves_of_not_mem {path : Bytes} (h : slash ∉ path) :
    moves path = if path = [] ∨ path = here then [] else [path] := by
  rw [moves_eq, parts_of_not_mem h]
  by_cases hstays : path = [] ∨ path = here
  · rw [if_pos hstays]
    rcases hstays with rfl | rfl
    · rfl
    · rfl
  · rw [if_neg hstays]
    rw [not_or] at hstays
    simp [hstays]

theorem moves_append (a b : Bytes) : moves (a ++ slash :: b) = moves a ++ moves b := by
  rw [moves_eq, moves_eq, moves_eq, parts_append, List.filter_append]

theorem moves_append_slash (path : Bytes) : moves (path ++ [slash]) = moves path := by
  rw [moves_append path [], moves_of_not_mem List.not_mem_nil, if_pos (.inl rfl), List.append_nil]

/-! ### Parents -/

/-- Trimming a path leaves a first part of it. -/
theorem trimBackwards_suffix (path : Bytes) : trimBackwards path <:+ path := by
  induction path using trimBackwards.induct with
  | case1 => exact List.suffix_rfl
  | case2 octet => exact List.suffix_rfl
  | case3 second rest ih =>
    rw [trimBackwards, if_pos rfl]
    exact ih.trans (List.suffix_cons _ _)
  | case4 first second rest hslash hdot ih =>
    rw [trimBackwards, if_neg hslash, if_pos hdot]
    exact ih.trans (List.suffix_cons _ _)
  | case5 first second rest hslash hdot =>
    rw [trimBackwards, if_neg hslash, if_neg hdot]

theorem trimBackwards_ne_nil {path : Bytes} (h : path ≠ []) : trimBackwards path ≠ [] := by
  induction path using trimBackwards.induct with
  | case1 => exact absurd rfl h
  | case2 octet => exact List.cons_ne_nil _ _
  | case3 second rest ih =>
    rw [trimBackwards, if_pos rfl]
    exact ih (List.cons_ne_nil _ _)
  | case4 first second rest hslash hdot ih =>
    rw [trimBackwards, if_neg hslash, if_pos hdot]
    exact ih (List.cons_ne_nil _ _)
  | case5 first second rest hslash hdot =>
    rw [trimBackwards, if_neg hslash, if_neg hdot]
    exact List.cons_ne_nil _ _

/-- Trimming a path takes nothing away that leads elsewhere. -/
theorem moves_trimBackwards (path : Bytes) :
    moves (trimBackwards path).reverse = moves path.reverse := by
  induction path using trimBackwards.induct with
  | case1 => rfl
  | case2 octet => rfl
  | case3 second rest ih =>
    rw [trimBackwards, if_pos rfl, ih]
    conv_rhs => rw [List.reverse_cons, moves_append_slash]
  | case4 first second rest hslash hdot ih =>
    rw [trimBackwards, if_neg hslash, if_pos hdot, ih]
    obtain ⟨rfl, rfl⟩ := hdot
    have hdotted : (dot :: slash :: rest).reverse = rest.reverse ++ slash :: [dot] := by simp
    have hhere : moves [dot] = [] := moves_of_not_mem (by decide)
    rw [hdotted, moves_append, hhere, List.append_nil, List.reverse_cons, moves_append_slash]
  | case5 first second rest hslash hdot => rw [trimBackwards, if_neg hslash, if_neg hdot]

/-- A path that has been trimmed ends neither in a slash nor in a dot after a slash, unless it is
the root. -/
theorem trimBackwards_eq_cons {path rest : Bytes} {first second : UInt8}
    (h : trimBackwards path = first :: second :: rest) :
    first ≠ slash ∧ ¬(first = dot ∧ second = slash) := by
  induction path using trimBackwards.induct with
  | case1 => cases h
  | case2 octet => cases h
  | case3 second rest ih =>
    rw [trimBackwards, if_pos rfl] at h
    exact ih h
  | case4 first second rest hslash hdot ih =>
    rw [trimBackwards, if_neg hslash, if_pos hdot] at h
    exact ih h
  | case5 first second rest hslash hdot =>
    rw [trimBackwards, if_neg hslash, if_neg hdot] at h
    cases h
    exact ⟨hslash, hdot⟩

/-- Whether a path ends neither in a slash nor in a dot after a slash, unless it is the root. -/
def Trimmed (path : Bytes) : Prop := ∃ backwards, path = (trimBackwards backwards).reverse

theorem trimmed_here : Trimmed here := ⟨here, rfl⟩

/-- A trimmed path has no slashes to lose. -/
theorem Trimmed.withoutSlashes {path : Bytes} (h : Trimmed path) : withoutSlashes path = path := by
  obtain ⟨backwards, rfl⟩ := h
  rw [Path.withoutSlashes, List.reverse_reverse]
  cases htrimmed : trimBackwards backwards with
  | nil => rfl
  | cons first rest =>
    cases rest with
    | nil =>
      by_cases hfirst : first = slash
      · simp [hfirst]
      · simp [hfirst]
    | cons second rest =>
      obtain ⟨hfirst, -⟩ := trimBackwards_eq_cons htrimmed
      simp [hfirst]

/-- The slashes at the end of a path do not lead elsewhere. -/
theorem moves_withoutSlashes (path : Bytes) : moves (withoutSlashes path) = moves path := by
  have hdrop : ∀ backwards : Bytes,
      moves (backwards.dropWhile (· = slash)).reverse = moves backwards.reverse := by
    intro backwards
    induction backwards with
    | nil => rfl
    | cons octet rest ih =>
      by_cases hoctet : octet = slash
      · rw [List.dropWhile_cons_of_pos (by simp [hoctet]), ih, List.reverse_cons, hoctet,
          moves_append_slash]
      · rw [List.dropWhile_cons_of_neg (by simp [hoctet])]
  show moves (if (path.reverse.dropWhile (· = slash)).reverse = [] then path
    else (path.reverse.dropWhile (· = slash)).reverse) = moves path
  split
  · rfl
  · rw [hdrop, List.reverse_reverse]

/-- What the parent of a path is: a trimmed first part of it, from which one more component leads
on. -/
theorem parent?_spec {path parent : Bytes} (h : parent? path = some parent) (hne : parent ≠ []) :
    parent <+: path ∧ Trimmed parent ∧
      ∃ name, name ≠ here ∧ moves path = moves parent ++ [name] := by
  unfold parent? at h
  simp only at h
  split at h
  · cases h
  · next hroot =>
    rw [not_or] at hroot
    obtain ⟨hnil, hslash⟩ := hroot
    obtain rfl := Option.some.inj h
    have hmoves := moves_trimBackwards path.reverse
    have hfirst : (trimBackwards path.reverse).reverse <+: path := by
      have hreverse := List.reverse_prefix.2 (trimBackwards_suffix path.reverse)
      rwa [List.reverse_reverse] at hreverse
    generalize hbackwards : trimBackwards path.reverse = backwards at *
    -- backwards, the last name stands before the slash that ends what the parent is made from
    have hsplit := List.takeWhile_append_dropWhile (p := (· ≠ slash)) (l := backwards)
    have hname : slash ∉ backwards.takeWhile (· ≠ slash) := fun hmem => by
      simpa using List.mem_takeWhile_imp hmem
    generalize backwards.takeWhile (· ≠ slash) = name at *
    cases houter : backwards.dropWhile (· ≠ slash) with
    | nil =>
      rw [houter] at hne
      exact absurd rfl hne
    | cons octet outer =>
      have hoctet : octet = slash := by
        have hhead := List.head?_dropWhile_not (· ≠ slash) backwards
        rw [houter] at hhead
        simpa using hhead
      subst hoctet
      rw [houter] at hsplit
      refine ⟨?_, ⟨_, rfl⟩, name.reverse, ?_, ?_⟩
      · have houterFirst : (trimBackwards (slash :: outer)).reverse <+: backwards.reverse :=
          List.reverse_prefix.2 ((trimBackwards_suffix _).trans ⟨name, hsplit⟩)
        exact houterFirst.trans hfirst
      · intro hhere
        have hdot : name = [dot] := by rw [← List.reverse_reverse name, hhere]; rfl
        rw [hdot] at hsplit
        exact (trimBackwards_eq_cons (hbackwards.trans hsplit.symm)).2 ⟨rfl, rfl⟩
      · have hnameNil : name ≠ [] := by
          rintro rfl
          cases outer with
          | nil => exact hslash hsplit.symm
          | cons second rest =>
            exact (trimBackwards_eq_cons (hbackwards.trans hsplit.symm)).1 rfl
        have hnameHere : name ≠ here := by
          rintro rfl
          exact (trimBackwards_eq_cons (hbackwards.trans hsplit.symm)).2 ⟨rfl, rfl⟩
        have hreverse : backwards.reverse = outer.reverse ++ slash :: name.reverse := by
          rw [← hsplit]
          simp
        have hlast : moves name.reverse = [name.reverse] := by
          rw [moves_of_not_mem (mt List.mem_reverse.1 hname), if_neg]
          rintro (hnil | hhere)
          · exact hnameNil (List.reverse_eq_nil_iff.1 hnil)
          · exact hnameHere (by rw [← List.reverse_reverse name, hhere]; rfl)
        rw [moves_trimBackwards, List.reverse_cons, moves_append_slash, ← hlast, ← moves_append,
          ← hreverse, hmoves, List.reverse_reverse]

/-- What holds of the directories above a trimmed path: each of them is trimmed and lies in the
next one, up to one that has no parent. -/
theorem Trimmed.ancestors_induction {P : Bytes → List Bytes → Prop} (nil : P [] [])
    (alone : ∀ path, Trimmed path → path ≠ [] → P path [path])
    (below : ∀ path parent, Trimmed path → path ≠ [] → parent? path = some parent →
      parent ≠ [] → Trimmed parent → P parent (ancestors parent) →
        P path (path :: ancestors parent))
    {path : Bytes} (h : Trimmed path) : P path (ancestors path) := by
  induction path using ancestors.induct with
  | case1 =>
    rw [ancestors, if_pos rfl]
    exact nil
  | case2 path hne parent hparent hshorter ih =>
    rw [ancestors, if_neg hne, hparent]
    simp only [if_pos hshorter]
    by_cases hnil : parent = []
    · rw [hnil, ancestors, if_pos rfl]
      exact alone path h hne
    · obtain ⟨-, htrimmed, -⟩ := parent?_spec hparent hnil
      exact below path parent h hne hparent hnil htrimmed (ih htrimmed)
  | case3 path hne parent hparent hshorter =>
    rw [ancestors, if_neg hne, hparent]
    simp only [if_neg hshorter]
    exact alone path h hne
  | case4 path hne hparent =>
    rw [ancestors, if_neg hne, hparent]
    exact alone path h hne

/-- The last name of a path is the last of its moves. -/
theorem moves_of_lastName? {path name : Bytes} (h : lastName? path = some name) :
    name ≠ here ∧ name ≠ up ∧ ∃ outer, moves path = outer ++ [name] := by
  obtain ⟨hlast, hname⟩ := Option.filter_eq_some_iff.1 h
  obtain ⟨outer, houter⟩ := List.getLast?_eq_some_iff.1 hlast
  simp only [Bool.and_eq_true, bne_iff_ne] at hname
  refine ⟨hname.1, hname.2, outer.filter (· ≠ here), ?_⟩
  rw [← moves_withoutSlashes, moves, houter, List.filter_append,
    List.filter_cons_of_pos (by simpa using hname.1), List.filter_nil]

/-- The directory of a file is the working directory, or on the way to the file. -/
theorem directory_spec (path : Bytes) : directory path = here ∨
    directory path ≠ [] ∧ directory path <+: path ∧ Trimmed (directory path) ∧
      ∃ name, name ≠ here ∧ moves path = moves (directory path) ++ [name] := by
  unfold directory
  split
  · next octet rest hparent =>
    exact .inr ⟨List.cons_ne_nil _ _, parent?_spec hparent (List.cons_ne_nil _ _)⟩
  · exact .inl rfl

/-- The directory of a file is on the way to the last part of its path. -/
theorem Split.directory {path : Bytes} {outer : List Bytes} {last : Bytes}
    (h : Split path outer last) :
    directory path = here ∨ moves (directory path) <+: outer.filter (· ≠ here) := by
  rcases directory_spec path with hhere | ⟨hne, hfirst, -, name, -, hmoves⟩
  · exact .inl hhere
  · have hpath : path ≠ [] := by
      rintro rfl
      exact hne (List.prefix_nil.1 hfirst)
    rw [moves, h.components_eq hpath, List.filter_append] at hmoves
    generalize (if last = [] then here else last) = part at hmoves
    by_cases hpart : part = here
    · rw [hpart, List.filter_cons_of_neg (by simp), List.filter_nil, List.append_nil] at hmoves
      exact .inr ⟨[name], hmoves.symm⟩
    · rw [List.filter_cons_of_pos (by simpa using hpart), List.filter_nil] at hmoves
      exact .inr ((List.append_inj' hmoves rfl).1 ▸ List.prefix_rfl)

theorem isAbsolute_append {suffix : Bytes} (h : slash ∉ suffix) (path : Bytes) :
    isAbsolute (path ++ suffix) = isAbsolute path := by
  cases path with
  | nil =>
    cases suffix with
    | nil => rfl
    | cons octet rest =>
      have hoctet : octet ≠ slash := fun heq => h (heq ▸ List.mem_cons_self)
      simp [isAbsolute, hoctet]
  | cons octet rest => rfl

theorem isAbsolute_eq {path outer : Bytes} (h : outer <+: path) (hne : outer ≠ []) :
    isAbsolute outer = isAbsolute path := by
  obtain ⟨rest, rfl⟩ := h
  obtain ⟨octet, more, rfl⟩ := List.exists_cons_of_ne_nil hne
  rfl

/-! ### Paths that end in a name -/

/-- A path that ends in a name, as the path of a file does. -/
structure EndsIn (path name : Bytes) : Prop where
  path_eq : path = name ∨ ∃ outer, path = outer ++ slash :: name
  slash_not_mem : slash ∉ name
  ne_nil : name ≠ []
  ne_here : name ≠ here
  ne_up : name ≠ up

theorem EndsIn.path_ne_nil {path name : Bytes} (h : EndsIn path name) : path ≠ [] := by
  rcases h.path_eq with rfl | ⟨outer, rfl⟩
  · exact h.ne_nil
  · simp

/-- What is written after a path is written after its name. -/
theorem EndsIn.append {path name suffix : Bytes} (h : EndsIn path name) (hsuffix : suffix ≠ [])
    (hslash : slash ∉ suffix) : EndsIn (path ++ suffix) (name ++ suffix) where
  path_eq := by
    rcases h.path_eq with rfl | ⟨outer, rfl⟩
    · exact .inl rfl
    · exact .inr ⟨outer, by rw [List.append_assoc, List.cons_append]⟩
  slash_not_mem hmem := (List.mem_append.1 hmem).elim h.slash_not_mem hslash
  ne_nil hnil := hsuffix (List.append_eq_nil_iff.1 hnil).2
  ne_here heq := by
    rcases List.append_eq_singleton_iff.1 heq with ⟨hnil, -⟩ | ⟨-, hnil⟩
    · exact h.ne_nil hnil
    · exact hsuffix hnil
  ne_up heq := by
    rcases List.append_eq_cons_iff.1 heq with ⟨hnil, -⟩ | ⟨rest, hname, hrest⟩
    · exact h.ne_nil hnil
    · rcases List.append_eq_singleton_iff.1 hrest.symm with ⟨rfl, -⟩ | ⟨-, hnil⟩
      · exact h.ne_here hname
      · exact hsuffix hnil

/-- A name at the end of a path is not trimmed. -/
theorem trimBackwards_name {name : Bytes} (hslash : slash ∉ name) (hne : name ≠ [])
    (hhere : name ≠ here) (rest : Bytes) :
    trimBackwards (name.reverse ++ rest) = name.reverse ++ rest := by
  have hmem : ∀ octet ∈ name.reverse, octet ≠ slash := by
    rintro octet hoctet rfl
    exact hslash (List.mem_reverse.1 hoctet)
  have hdot : name.reverse ≠ [dot] := fun heq => hhere (List.reverse_eq_iff.1 heq)
  obtain ⟨first, more, hname⟩ := List.exists_cons_of_ne_nil (mt List.reverse_eq_nil_iff.1 hne)
  rw [hname] at hmem hdot ⊢
  have hfirst := hmem first List.mem_cons_self
  cases more with
  | nil =>
    have hfirstDot : first ≠ dot := fun heq => hdot (congrArg (fun octet => [octet]) heq)
    cases rest with
    | nil => rfl
    | cons second rest =>
      show trimBackwards (first :: second :: rest) = first :: second :: rest
      rw [trimBackwards, if_neg hfirst, if_neg fun hboth => hfirstDot hboth.1]
  | cons second more =>
    have hsecond := hmem second (List.mem_cons_of_mem _ List.mem_cons_self)
    show trimBackwards (first :: second :: (more ++ rest)) = first :: second :: (more ++ rest)
    rw [trimBackwards, if_neg hfirst, if_neg fun hboth => hsecond hboth.2]

/-- The parent of a path that ends in a name is what stands before the name, trimmed. -/
theorem parent?_name {path name outer : Bytes} (hslash : slash ∉ name) (hne : name ≠ [])
    (hhere : name ≠ here) (hpath : path.reverse = name.reverse ++ outer)
    (houter : outer = [] ∨ ∃ rest, outer = slash :: rest) :
    parent? path = some (trimBackwards outer).reverse := by
  have hmem : ∀ octet ∈ name.reverse, decide (octet ≠ slash) = true := by
    rintro octet hoctet
    refine decide_eq_true ?_
    rintro rfl
    exact hslash (List.mem_reverse.1 hoctet)
  have hreverse : name.reverse ≠ [] := mt List.reverse_eq_nil_iff.1 hne
  unfold parent?
  simp only [hpath, trimBackwards_name hslash hne hhere]
  rw [if_neg, List.dropWhile_append_of_pos hmem]
  · rcases houter with rfl | ⟨rest, rfl⟩
    · rfl
    · rw [List.dropWhile_cons_of_neg (by simp)]
  · rintro (hnil | hroot)
    · exact hreverse (List.append_eq_nil_iff.1 hnil).1
    · obtain ⟨octet, rest, hcons⟩ := List.exists_cons_of_ne_nil hreverse
      rw [hcons, List.cons_append] at hroot
      have hoctet := hmem octet (hcons ▸ List.mem_cons_self)
      rw [(List.cons.inj hroot).1] at hoctet
      simp at hoctet

/-- A path and the path of a file beside it have one directory. -/
theorem EndsIn.directory_append {path name suffix : Bytes} (h : EndsIn path name)
    (hsuffix : suffix ≠ []) (hslash : slash ∉ suffix) :
    directory (path ++ suffix) = directory path := by
  obtain ⟨outer, hpath, houter⟩ : ∃ outer, path.reverse = name.reverse ++ outer ∧
      (outer = [] ∨ ∃ rest, outer = slash :: rest) := by
    rcases h.path_eq with rfl | ⟨outer, rfl⟩
    · exact ⟨[], (List.append_nil _).symm, .inl rfl⟩
    · exact ⟨slash :: outer.reverse, by simp, .inr ⟨_, rfl⟩⟩
  have happend : (path ++ suffix).reverse = (name ++ suffix).reverse ++ outer := by
    rw [List.reverse_append, hpath, ← List.append_assoc, ← List.reverse_append]
  have h' := h.append hsuffix hslash
  rw [directory, directory, parent?_name h.slash_not_mem h.ne_nil h.ne_here hpath houter,
    parent?_name h'.slash_not_mem h'.ne_nil h'.ne_here happend houter]

/-- What leads to a path that ends in a name leads to its directory, and the name leads on. -/
theorem EndsIn.directory_spec {path name : Bytes} (h : EndsIn path name) :
    isAbsolute (directory path) = isAbsolute path ∧
      ∃ outer, components path = outer ++ [name] ∧
        outer.filter (· ≠ here) = moves (directory path) := by
  rcases h.path_eq with rfl | ⟨outer, rfl⟩
  · have hparent : parent? path = some [] :=
      parent?_name h.slash_not_mem h.ne_nil h.ne_here (List.append_nil _).symm (.inl rfl)
    have hdirectory : directory path = here := by rw [directory, hparent]
    refine ⟨?_, [], components_of_not_mem h.slash_not_mem h.ne_nil, ?_⟩
    · have habsolute : isAbsolute path = false := by
        refine decide_eq_false fun hhead => ?_
        exact h.slash_not_mem (List.mem_of_mem_head? hhead)
      rw [hdirectory, habsolute]
      rfl
    · rw [hdirectory]
      rfl
  · have hreverse : (outer ++ slash :: name).reverse =
        name.reverse ++ slash :: outer.reverse := by simp
    have hparent := parent?_name h.slash_not_mem h.ne_nil h.ne_here hreverse (.inr ⟨_, rfl⟩)
    have hne : (trimBackwards (slash :: outer.reverse)).reverse ≠ [] :=
      mt List.reverse_eq_nil_iff.1 (trimBackwards_ne_nil (List.cons_ne_nil _ _))
    have hdirectory : directory (outer ++ slash :: name) =
        (trimBackwards (slash :: outer.reverse)).reverse := by
      obtain ⟨octet, rest, hcons⟩ := List.exists_cons_of_ne_nil hne
      rw [directory, hparent, hcons]
    have hmoves : moves (directory (outer ++ slash :: name)) = moves outer := by
      rw [hdirectory, moves_trimBackwards, List.reverse_cons, List.reverse_reverse,
        moves_append_slash]
    refine ⟨?_, (parts outer).filter (· ≠ []), ?_, ?_⟩
    · refine isAbsolute_eq ?_ (hdirectory ▸ hne)
      have hfirst := List.reverse_prefix.2 (trimBackwards_suffix (slash :: outer.reverse))
      rw [List.reverse_cons, List.reverse_reverse] at hfirst
      rw [hdirectory]
      exact hfirst.trans ⟨name, by simp⟩
    · rw [components_append h.slash_not_mem, if_neg h.ne_nil]
    · rw [hmoves, moves_eq, List.filter_filter]
      refine List.filter_congr fun part _ => ?_
      rw [Bool.and_comm, ← Bool.decide_and]

end TokenVault.Path
