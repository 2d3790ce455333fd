import TokenVault.Proofs.Store.Atomic
import TokenVault.Proofs.Store.Records

/-!
# What a store file may be

The contents of a store are read from an object whose values are records, and from no other
document (`Contents.ofOctets_eq_ok_iff`); of several members with one key the last counts.  So a
store is loaded exactly if its file is such an object: `Store.load_exact`.
-/

namespace TokenVault

open Json (Named Schema StringLiteral Tree)

namespace Contents

/-- Whether members are written for entries, one for each in order. -/
def Lists (members : List (StringLiteral × Tree)) (entries : List (String × Credential)) : Prop :=
  List.Forall₂ (fun member e => member.1.Denotes e.1 ∧ Credential.Records member.2 e.2) members
    entries

theorem readMembers_eq_ok_iff (input : Bytes) {members : List (StringLiteral × Tree)}
    {nodes : List (Json.Key × Json.Node)} (h : Json.MembersScannedAs members nodes)
    (entries : List (String × Credential)) :
    readMembers input nodes = .ok entries ↔ Lists members entries := by
  induction members generalizing nodes entries with
  | nil =>
    cases nodes with
    | cons node rest => exact h.elim
    | nil =>
      rw [readMembers, Except.ok.injEq, Lists, List.forall₂_nil_left_iff, eq_comm]
  | cons member more ih =>
    cases nodes with
    | nil => exact h.elim
    | cons node rest =>
      obtain ⟨literal, tree⟩ := member
      obtain ⟨key, node⟩ := node
      obtain ⟨hkey, hnode, hrest⟩ := h
      simp only [readMembers, Result.bind_eq_ok_iff, Json.Key.read_eq_ok_iff hkey,
        Credential.read_eq_ok_iff input hnode, ih hrest, Result.pure_eq_ok, Except.ok.injEq]
      constructor
      · rintro ⟨name, hname, credential, hrecord, others, hothers, rfl⟩
        exact .cons ⟨hname, hrecord⟩ hothers
      · intro hlists
        cases hlists with
        | @cons _ e _ others hfirst hothers =>
          exact ⟨e.1, hfirst.1, e.2, hfirst.2, others, hothers, rfl⟩

/-- What spells a tree does not start with a blank. -/
theorem exists_not_blank {tree : Tree} {octets : Bytes} (h : tree.Written octets) :
    ∃ octet ∈ octets, Text.isBlankOctet octet = false := by
  cases tree with
  | null => exact ⟨0x6E, by rw [show octets = _ from h]; decide, by decide⟩
  | boolean b =>
    cases b with
    | true =>
      exact ⟨0x74, by rw [show octets = [0x74, 0x72, 0x75, 0x65] from h]; decide, by decide⟩
    | false =>
      exact ⟨0x66, by rw [show octets = [0x66, 0x61, 0x6C, 0x73, 0x65] from h]; decide, by decide⟩
  | number literal =>
    obtain ⟨sign, whole, fraction, exponent, hraw, -, ⟨⟨hne, hdigits⟩, -⟩, -⟩ := literal.form
    obtain ⟨octet, hoctet⟩ := List.exists_mem_of_ne_nil whole hne
    have hdigit : ∀ octet, Json.Number.isDigit octet = true → Text.isBlankOctet octet = false :=
      Bytes.forall_octet (by decide +kernel)
    refine ⟨octet, ?_, hdigit octet (hdigits octet hoctet)⟩
    rw [show octets = literal.raw from h, hraw]
    simp [hoctet]
  | string literal =>
    refine ⟨Json.Literal.quote, ?_, by decide⟩
    rw [show octets = Json.quoted literal.raw from h]
    simp [Json.quoted]
  | array items =>
    obtain ⟨inner, rfl, -⟩ := h
    exact ⟨0x5B, List.mem_cons_self, by decide⟩
  | object members =>
    obtain ⟨inner, rfl, -⟩ := h
    exact ⟨0x7B, List.mem_cons_self, by decide⟩

/-- Contents are read from an object with a record for each entry, and from no other document. -/
theorem ofOctets_eq_ok_iff {tree : Tree} {input : Bytes} (h : tree.Document input)
    (contents : Contents) :
    ofOctets input = .ok contents ↔
      ∃ members entries, tree = .object members ∧ Lists members entries ∧
        contents = SortedMap.ofList entries := by
  obtain ⟨node, hnode, hscan⟩ := Json.Document.scan_of_document h
  have hblank : input.all Text.isBlankOctet = false := by
    obtain ⟨before, text, after, rfl, -, hwritten, -⟩ := h
    obtain ⟨octet, hmem, hoctet⟩ := exists_not_blank hwritten
    exact List.all_eq_false.2 ⟨octet, by simp [hmem], by simp [hoctet]⟩
  rw [ofOctets, hblank, if_neg Bool.false_ne_true, Json.Document.read_eq_ok_iff, hscan]
  simp only [and_true]
  cases tree with
  | object members =>
    obtain ⟨start, nodes, stop, rfl, hnodes⟩ := hnode.object
    simp only [read, Result.bind_eq_ok_iff, readMembers_eq_ok_iff input hnodes, Json.Ending.stop,
      Result.ok_bind, Result.pure_eq_ok, Except.ok.injEq]
    constructor
    · rintro ⟨entries, hentries, rfl⟩
      exact ⟨members, entries, rfl, hentries, rfl⟩
    · rintro ⟨_, entries, hsame, hentries, rfl⟩
      obtain rfl := Tree.object.inj hsame
      exact ⟨entries, hentries, rfl⟩
  | null | boolean | number | string | array =>
    have hread : read input node = .error (node.mismatch "a map") := by
      cases node with
      | null | boolean | number | string | array => rfl
      | object | broken => exact hnode.elim
    rw [hread]
    constructor
    · intro hcontra
      cases hcontra
    · rintro ⟨_, _, hsame, -⟩
      cases hsame

/-- Members of which every literal can be read are written for entries exactly if every value is a
record. -/
theorem exists_lists_iff {members : List (StringLiteral × Tree)}
    (h : ∀ member ∈ members, member.1.Legible ∧ member.2.EachLiteral StringLiteral.Legible) :
    (∃ entries, Lists members entries) ↔
      ∀ member ∈ members, Credential.IsRecord member.2 := by
  induction members with
  | nil => exact iff_of_true ⟨[], .nil⟩ fun _ => List.not_mem_nil.elim
  | cons member rest ih =>
    obtain ⟨⟨hkey, hvalue⟩, hrest⟩ := List.forall_mem_cons.1 h
    rw [List.forall_mem_cons, ← ih hrest, Credential.isRecord_iff hvalue]
    constructor
    · rintro ⟨entries, hlists⟩
      cases hlists with
      | cons hfirst hothers => exact ⟨⟨_, hfirst.2⟩, _, hothers⟩
    · rintro ⟨⟨credential, hrecord⟩, entries, hothers⟩
      obtain ⟨name, hname⟩ := hkey
      exact ⟨(name, credential) :: entries, .cons ⟨hname, hrecord⟩ hothers⟩

/-- In a document of which every literal can be read there are contents exactly if every value is
a record. -/
theorem exists_ofOctets_iff {tree : Tree} {input : Bytes} (h : tree.Document input)
    (hlegible : tree.EachLiteral StringLiteral.Legible) :
    (∃ contents, ofOctets input = .ok contents) ↔
      ∃ members, tree = .object members ∧ ∀ member ∈ members, Credential.IsRecord member.2 := by
  simp only [ofOctets_eq_ok_iff h]
  constructor
  · rintro ⟨_, members, entries, rfl, hlists, -⟩
    exact ⟨members, rfl,
      (exists_lists_iff (Json.eachLiteralOfMembers_iff.1 hlegible)).1 ⟨entries, hlists⟩⟩
  · rintro ⟨members, rfl, hrecords⟩
    obtain ⟨entries, hlists⟩ :=
      (exists_lists_iff (Json.eachLiteralOfMembers_iff.1 hlegible)).2 hrecords
    exact ⟨_, members, entries, rfl, hlists, rfl⟩

end Contents

namespace Store

open FileTree

variable {store : Store} {files : FileTree}

theorem reachesDirectory_of_inspect (hfiles : files.Sound) {entry : Entry}
    (h : files.inspect store.path = .ok entry) : files.reachesDirectory store.directory = true := by
  obtain ⟨location, hresolve⟩ := inspect_eq_ok_iff.1 h
  exact hfiles.reachesDirectory_iff.2 (enters_directory_of_resolve hresolve)

/-- Whether there is a file for the lock of a store, or nothing in place of it. -/
def LockFree (store : Store) (files : FileTree) : Prop :=
  ∃ place, files.resolve false store.lockPath = .ok place ∧
    (place.occupant = none ∨ ∃ mode content, place.occupant = some (.file mode content))

theorem LockFree.filePath (h : store.LockFree files) (hfiles : files.Sound) :
    ∃ location, files.FilePath store.lockPath location := by
  obtain ⟨place, hresolve, hfree⟩ := h
  rw [hfiles.occupant_of_resolve hresolve] at hfree
  exact ⟨place.location, hfiles.filePath hresolve hfree⟩

theorem LockFree.ne_link (h : store.LockFree files) (target : Bytes) :
    files.inspect store.lockPath ≠ .ok (.link target) := by
  obtain ⟨place, hresolve, hfree⟩ := h
  intro hlink
  obtain ⟨location, hfound⟩ := inspect_eq_ok_iff.1 hlink
  rw [hfound, Except.ok.injEq] at hresolve
  subst hresolve
  rcases hfree with hnone | ⟨mode, content, hfile⟩
  · cases hnone
  · cases hfile

section

variable (hfiles : files.Sound) {mode : Nat} {octets : Bytes}
  (hdata : files.inspect store.path = .ok (.file mode octets)) (hlock : store.LockFree files)

include hfiles hdata hlock

/-- A file with contents is loaded. -/
theorem load_of_contents {contents : Contents} (h : Contents.ofOctets octets = .ok contents) :
    (store.perform .load files).result = .ok (.contents contents) := by
  obtain ⟨location, hresolve⟩ := inspect_eq_ok_iff.1 hdata
  have husable : Usable store files contents :=
    ⟨reachesDirectory_of_inspect hfiles hdata, ⟨_, hresolve, h⟩, hlock⟩
  obtain ⟨u, ⟨events, hperform⟩, -⟩ := (husable.opens hfiles).perform .load
  rw [hperform]
  rfl

/-- A file without contents is refused, and the error says what is wrong with it. -/
theorem load_of_error {cause : Json.Error} (h : Contents.ofOctets octets = .error cause) :
    (store.perform .load files).result = .error (.corrupt store.path cause) := by
  obtain ⟨location, hresolve⟩ := inspect_eq_ok_iff.1 hdata
  obtain ⟨place, hlockPath⟩ := hlock.filePath hfiles
  have hopen := hlockPath.openFile_eq fileMode
  have hunlinked : ∀ {t : FileTree}, t.inspect store.path = .ok (.file mode octets) →
      (refuseLink store.path).Gives t () t := fun hinspect => ⟨[], by rw [refuseLink, hinspect]⟩
  have hroom : (store.makeRoom .none).Gives files () files :=
    ⟨[], makeRoom_of_enters hfiles (enters_directory_of_resolve hresolve) .none⟩
  have hacquire : (store.acquire .none).Gives files () _ :=
    (hunlinked hdata).bind (hroom.bind ((gives_refuseLink hlockPath).bind
      ((Step.gives_change_iff.2 hopen).bind (Step.gives_tell _ _))))
  -- once the lock has been opened the file is what it was
  have hlocked := lockOpened_of_openFile hlock.ne_link hopen
  have hopened := (hlocked.grows hfiles).inspect hfiles hdata
  have hcorrupt : store.readFile.Fails _ (.corrupt store.path cause) _ :=
    ⟨[], by rw [readFile, (hlocked.sound hfiles).content_of_inspect hopened]; simp only [h]; rfl⟩
  have hread : (store.readContents .none).Fails _ (.corrupt store.path cause) _ :=
    (hunlinked hopened).bind_fails hcorrupt
  exact (hacquire.bind_fails
    ((Step.fails_afterwards_iff.2 (hread.bind _)).bind _)).result_eq.1

theorem load_eq_ok_iff {contents : Contents} :
    (store.perform .load files).result = .ok (.contents contents) ↔
      Contents.ofOctets octets = .ok contents := by
  refine ⟨fun h => ?_, load_of_contents hfiles hdata hlock⟩
  cases hcontents : Contents.ofOctets octets with
  | ok found =>
    rw [load_of_contents hfiles hdata hlock hcontents, Except.ok.injEq] at h
    rw [Reply.contents.inj h]
  | error cause =>
    rw [load_of_error hfiles hdata hlock hcontents] at h
    cases h

end

/-- A store whose file is a text loads it exactly if the text is an object of which every value is
a record.  It then holds, for each key, the credential in the last record with that key; a field
that is missing or `null` is none.  Every other document is a storage fault. -/
theorem load_exact (hfiles : files.Sound) {mode : Nat} {text : String} {tree : Tree}
    (hdata : files.inspect store.path = .ok (.file mode (Bytes.ofText text)))
    (hlock : store.LockFree files)
    (htree : tree.Document (Bytes.ofText text))
    (hpaired : tree.EachLiteral StringLiteral.Paired) :
    ((∃ contents, (store.perform .load files).result = .ok (.contents contents)) ↔
      ∃ members, tree = .object members ∧ ∀ member ∈ members, Credential.IsRecord member.2) ∧
    (∀ contents, (store.perform .load files).result = .ok (.contents contents) →
      ∃ members entries, tree = .object members ∧ Contents.Lists members entries ∧
        ∀ key, contents.get? key = SortedMap.lastValue entries key) ∧
    ((¬∃ members, tree = .object members ∧ ∀ member ∈ members, Credential.IsRecord member.2) →
      ∃ e, (store.perform .load files).result = .error e ∧ e.kind = .storeFault) := by
  have hload : ∀ contents, (store.perform .load files).result = .ok (.contents contents) ↔
      Contents.ofOctets (Bytes.ofText text) = .ok contents :=
    fun _ => load_eq_ok_iff hfiles hdata hlock
  have hexact := Contents.exists_ofOctets_iff htree (htree.legible ⟨text, rfl⟩ hpaired)
  refine ⟨(exists_congr hload).trans hexact, fun contents hresult => ?_, fun hnot => ?_⟩
  · obtain ⟨members, entries, hmembers, hlists, rfl⟩ :=
      (Contents.ofOctets_eq_ok_iff htree contents).1 ((hload contents).1 hresult)
    exact ⟨members, entries, hmembers, hlists, SortedMap.get?_ofList entries⟩
  · cases hcontents : Contents.ofOctets (Bytes.ofText text) with
    | ok contents => exact absurd (hexact.1 ⟨contents, hcontents⟩) hnot
    | error cause => exact ⟨_, load_of_error hfiles hdata hlock hcontents, rfl⟩

/-- Two records for one key: an array, and an object after it. -/
def twoRecords : Json.Value :=
  .object [("u", .array [.string "a", .null]), ("u", .object [("accessToken", .string "b")])]

/-- The path `/s`, where there is a file with two records for one key. -/
def recordsInRoot : FileTree :=
  FileTree.empty.put [Bytes.ofText "s"] (.file fileMode (Bytes.ofText
    "\x7b\"u\":[\"a\",null],\"u\":\x7b\"accessToken\":\"b\"\x7d\x7d"))

theorem load_exact_two_records : recordsInRoot.Sound ∧
    LockFree ⟨History.pathInRoot⟩ recordsInRoot ∧
    ∃ contents, (perform ⟨History.pathInRoot⟩ .load recordsInRoot).result =
      .ok (.contents contents) := by
  have hsound : recordsInRoot.Sound :=
    History.sound_empty.put_file ⟨.inl rfl, [], _, rfl, 0o755, rfl⟩ _ _
  have hdata : recordsInRoot.inspect History.pathInRoot = .ok (.file fileMode (Bytes.ofText
      "\x7b\"u\":[\"a\",null],\"u\":\x7b\"accessToken\":\"b\"\x7d\x7d")) := by decide +kernel
  have hlock : LockFree ⟨History.pathInRoot⟩ recordsInRoot :=
    ⟨.vacant [Bytes.ofText "s.lock"], by decide +kernel, .inl rfl⟩
  have hdocument : twoRecords.tree.Document (Bytes.ofText
      "\x7b\"u\":[\"a\",null],\"u\":\x7b\"accessToken\":\"b\"\x7d\x7d") :=
    Json.Layout.tight.document_write 0 twoRecords
  have hplain : ∀ text, (StringLiteral.ofText text).Paired :=
    fun text => ⟨_, Json.Literal.standsFor_escape text⟩
  have hpaired : twoRecords.tree.EachLiteral StringLiteral.Paired :=
    ⟨hplain "u", ⟨hplain "a", trivial, trivial⟩, hplain "u",
      ⟨hplain "accessToken", hplain "b", trivial⟩, trivial⟩
  refine ⟨hsound, hlock, (load_exact hsound hdata hlock hdocument hpaired).1.2 ⟨_, rfl, ?_⟩⟩
  refine List.forall_mem_cons.2 ⟨?_, List.forall_mem_cons.2 ⟨?_, fun _ => List.not_mem_nil.elim⟩⟩
  · exact ⟨_, .array (by decide) (by decide), ⟨_, rfl⟩, .inr ⟨_, rfl, .inl rfl⟩, .inl rfl⟩
  · exact ⟨[("accessToken", .string (.ofText "b"))],
      .object (.cons ⟨Json.Literal.standsFor_escape "accessToken", rfl⟩ .nil),
      ⟨_, rfl⟩, .inl rfl, .inl rfl⟩

end Store

end TokenVault
