import TokenVault.Proofs.FileTree.Alike
import TokenVault.Proofs.Json.Disclosure
import TokenVault.Proofs.Store.Contents
import TokenVault.Proofs.Store.Grammar
import TokenVault.Store.Basic

/-!
# What a store discloses

Two stores whose files have interchangeable texts in one place answer and tell the same: whoever
sees the events and the errors does not learn the text (`Store.perform_alike`), with one exception.
A text that stands in place of a record, of a number or of all records is quoted in the error, as
any other value would be.
-/

namespace TokenVault

open Json (Field SameOrQuoting UpToValue withText)
open Result (Both)

variable {s t : String}

/-! ### Contents -/

theorem Credential.schema_alike (hst : Interchangeable s t) :
    Json.Schema.Alike s t schema schema where
  expected := rfl
  required := rfl
  positional := rfl
  fields :=
    .cons (Field.alike_of_read "accessToken" (fun x (c : Credential) => { c with accessToken := x })
      fun h => h.text hst) <|
    .cons (Field.alike_of_read "refreshToken"
      (fun x (c : Credential) => { c with refreshToken := x }) fun h => h.optional (h.text hst)) <|
    .cons (Field.alike_of_read "expirationTimeMilliseconds"
      (fun x (c : Credential) => { c with expiry := x }) fun h => h.optional (h.int64 hst)) .nil
  other _ _ _ h _ _ := h.skip.bind fun _ _ _ => .ok trivial

namespace Contents

/-- Whether two files are read as contents with the same keys, or refused alike. -/
def ReadAlike (s t : String) (a b : Bytes) : Prop :=
  Both (Json.Error.Alike s t) (fun x y : Contents => x.keys = y.keys) (ofOctets a) (ofOctets b)

theorem ReadAlike.refl (octets : Bytes) : ReadAlike s t octets octets := by
  have hsame : ∀ x : Contents, x.keys = x.keys := fun _ => rfl
  exact Both.refl Json.Error.Alike.refl hsame _

/-- What is written of contents with the same keys is read alike. -/
theorem readAlike_octets {a b : Contents} (h : a.keys = b.keys) :
    ReadAlike s t a.octets b.octets := by
  rw [ReadAlike, ofOctets_octets, ofOctets_octets]
  exact .ok h

theorem readMembers_alike (hst : Interchangeable s t) {input input' : Bytes}
    (hinput : Bytes.Alike input input') {members members' : List (Json.Key × Json.Node)}
    (h : Json.MembersAlike s t members members') :
    Both (Json.Report.Alike s t) (fun x y => x.map (·.1) = y.map (·.1))
      (readMembers input members) (readMembers input' members') := by
  induction members generalizing members' with
  | nil =>
    obtain rfl := h.eq_nil
    exact .ok rfl
  | cons member rest ih =>
    obtain ⟨key, node⟩ := member
    obtain ⟨node', rest', rfl, hnode, hrest⟩ := h.exists_cons
    rw [readMembers, readMembers]
    refine (Json.both_eq_refl key.read).bind fun name name' hname => ?_
    obtain rfl : name = name' := hname
    exact ((Credential.schema_alike hst).read hinput hst hnode).bind fun _ _ _ =>
      (ih hrest).bind fun _ _ hnames => .ok (congrArg (name :: ·) hnames)

theorem read_alike (hst : Interchangeable s t) {input input' : Bytes}
    (hinput : Bytes.Alike input input') {node node' : Json.Node}
    (h : Json.Node.Alike s t node node') :
    Both (Json.Report.Alike s t) (fun x y : Contents => x.keys = y.keys) (read input node)
      (read input' node') := by
  have hmismatch := h.mismatch hst "a map"
  have hobject : ∀ {start members members' ending}, Json.MembersAlike s t members members' →
      Both (Json.Report.Alike s t) (fun x y : Contents => x.keys = y.keys)
        (read input (.object start members ending)) (read input' (.object start members' ending)) :=
    fun {_ _ _ ending} hmembers => (readMembers_alike hst hinput hmembers).bind fun _ _ hnames =>
      (Json.both_eq_refl ending.stop).bind fun _ _ _ => .ok (SortedMap.keys_ofList_congr hnames)
  cases h with
  | refl =>
    cases node with
    | object start members ending => exact hobject (.refl members)
    | null | boolean | number | string | array | broken => exact .error hmismatch
  | string | array => exact .error hmismatch
  | object start ending hkeys hnodes => exact hobject ⟨hkeys, hnodes⟩

/-- Files with interchangeable texts in one place are read alike. -/
theorem readAlike_withText {before : Bytes} (hbefore : UpToValue before) (hst : Interchangeable s t)
    (after : Bytes) : ReadAlike s t (withText before after s) (withText before after t) := by
  have hinput := Json.alike_withText hst before after
  have hblank : ∀ text, (withText before after text).all Text.isBlankOctet = false := fun text =>
    List.all_eq_false.2 ⟨Json.Literal.quote, by simp [withText, Json.quoted], by decide⟩
  rw [ReadAlike, ofOctets, ofOctets, hblank, hblank]
  exact Json.Document.read_alike hbefore hst after fun h => read_alike hst hinput h

end Contents

/-! ### Steps -/

section

variable (R : Bytes → Bytes → Prop) (E : StoreError → StoreError → Prop) {α β : Type}

/-- Whether two outcomes tell the same, have related results and leave files that are alike.  After
a failure the files do not matter: there may be part of a file among them. -/
structure Outcome.Alike (S : α → α → Prop) (x y : Outcome α) : Prop where
  events : x.events = y.events
  result : Both E S x.result y.result
  tree : ∀ value, x.result = .ok value → FileTree.Alike R x.tree y.tree

/-- Whether two steps have outcomes that are alike wherever the files before are. -/
def Step.Alike (S : α → α → Prop) (x y : Step α) : Prop :=
  ∀ a b, FileTree.Alike R a b → Outcome.Alike R E S (x a) (y b)

end

section

variable {R : Bytes → Bytes → Prop} {E : StoreError → StoreError → Prop} {α β : Type}
  {S : α → α → Prop} {S' : β → β → Prop}

theorem Outcome.Alike.ok {x y : FileTree} (h : FileTree.Alike R x y) (events : List Event)
    {value value' : α} (hvalue : S value value') :
    Outcome.Alike R E S ⟨x, events, .ok value⟩ ⟨y, events, .ok value'⟩ :=
  ⟨rfl, .ok hvalue, fun _ _ => h⟩

theorem Outcome.Alike.error {e e' : StoreError} (he : E e e') (events : List Event)
    (x y : FileTree) : Outcome.Alike R E S ⟨x, events, .error e⟩ ⟨y, events, .error e'⟩ :=
  ⟨rfl, .error he, nofun⟩

namespace Step

theorem alike_pure {x y : α} (h : S x y) : Alike R E S (pure x) (pure y) :=
  fun _ _ htree => .ok htree [] h

theorem alike_tell (events : List Event) :
    Alike R E (fun _ _ => True) (tell events) (tell events) :=
  fun _ _ htree => .ok htree events trivial

theorem Alike.bind {x y : Step α} {f g : α → Step β} (h : Alike R E S x y)
    (hnext : ∀ a b, S a b → Alike R E S' (f a) (g b)) : Alike R E S' (x >>= f) (y >>= g) := by
  intro a b htree
  obtain ⟨hevents, hresult, hkept⟩ := h a b htree
  show Outcome.Alike R E S' (andThen x f a) (andThen y g b)
  unfold andThen
  generalize x a = x at hkept hevents hresult ⊢
  generalize y b = y at hkept hevents hresult ⊢
  obtain ⟨tree, events, result⟩ := x
  obtain ⟨tree', events', result'⟩ := y
  obtain rfl : events = events' := hevents
  cases hresult with
  | error he => exact .error he events tree tree'
  | ok hvalue =>
    obtain ⟨hmore, hresult, hrest⟩ := hnext _ _ hvalue _ _ (hkept _ rfl)
    exact ⟨congrArg (events ++ ·) hmore, hresult, hrest⟩

theorem Alike.afterwards {x y : Step α} (h : Alike R E S x y) (events : List Event) :
    Alike R E S (x.afterwards (tell events)) (y.afterwards (tell events)) := by
  intro a b htree
  obtain ⟨hevents, hresult, hkept⟩ := h a b htree
  exact ⟨congrArg (· ++ events) hevents, hresult, hkept⟩

variable {faults : Faults} {call : SystemCall} {fault : SystemError → StoreError}

theorem alike_change {alter : FileTree → Except SystemError FileTree} (hE : ∀ e, E e e)
    (h : ∀ a b, FileTree.Alike R a b → Both (· = ·) (FileTree.Alike R) (alter a) (alter b)) :
    Alike R E (fun _ _ => True) (change alter fault) (change alter fault) := by
  intro a b htree
  have haltered := h a b htree
  unfold change
  generalize alter a = x at haltered ⊢
  generalize alter b = y at haltered ⊢
  cases haltered with
  | ok haltered => exact .ok haltered [] trivial
  | error hsame =>
    obtain rfl := hsame
    exact .error (hE _) [] a b

/-- What the system refuses does not depend on the files. -/
theorem Alike.attempt {x y : Step α} (h : Alike R E S x y) (hE : ∀ e, E e e) :
    Alike R E S (faults.attempt call fault x) (faults.attempt call fault y) := by
  unfold Faults.attempt
  split
  · exact fun a b _ => .error (hE _) [] a b
  · exact h

theorem Alike.discarding {x y : Step α} (h : Alike R E S x y) (place : Location) :
    Alike R E S (faults.discarding place x) (faults.discarding place y) := by
  intro a b htree
  obtain ⟨hevents, hresult, hkept⟩ := h a b htree
  unfold Faults.discarding
  generalize x a = x at hkept hevents hresult ⊢
  generalize y b = y at hkept hevents hresult ⊢
  obtain ⟨tree, events, result⟩ := x
  obtain ⟨tree', events', result'⟩ := y
  obtain rfl : events = events' := hevents
  cases hresult with
  | error he =>
    cases faults.refusal .remove with
    | none => exact .error he events _ _
    | some wording => exact .error he events _ _
  | ok hvalue => exact .ok (hkept _ rfl) events hvalue

/-- Nothing shows of what has been written in part. -/
theorem alike_write {x y : Bytes} (h : R x y) (hE : ∀ e, E e e) (place : Location) (mode : Nat) :
    Alike R E (fun _ _ => True) (faults.write place mode x) (faults.write place mode y) := by
  intro a b htree
  unfold Faults.write
  cases faults.refusal .write with
  | some wording => exact .error (hE _) [] _ _
  | none => exact .ok (htree.put place (.file mode h)) [] trivial

end Step

namespace Store

variable (hE : ∀ e, E e e)

include hE

theorem refuseLink_alike (path : Bytes) :
    Step.Alike R E (fun _ _ => True) (refuseLink path) (refuseLink path) := by
  intro a b htree
  have hentry := htree.inspect path
  unfold refuseLink
  generalize a.inspect path = x at hentry ⊢
  generalize b.inspect path = y at hentry ⊢
  cases hentry with
  | @error e _ hsame =>
    obtain rfl := hsame
    cases e with
    | notFound => exact .ok htree [] trivial
    | _ => exact .error (hE _) [] a b
  | ok hentry =>
    cases hentry with
    | link target => exact .error (hE _) _ a b
    | file | directory => exact .ok htree [] trivial

variable (store : Store) (faults : Faults)

theorem makeRoom_alike :
    Step.Alike R E (fun _ _ => True) (store.makeRoom faults) (store.makeRoom faults) := by
  intro a b htree
  obtain ⟨hmade, hresult⟩ := htree.makeNewDirectories
    (fun dir => faults.refusal (.makeDirectory dir)) directoryMode
    (Path.ancestors store.directory)
  unfold makeRoom
  rw [htree.reaches]
  split_ifs
  · exact .ok htree [] trivial
  · generalize a.makeNewDirectories _ directoryMode (Path.ancestors store.directory) = x
      at hmade hresult ⊢
    generalize b.makeNewDirectories _ directoryMode (Path.ancestors store.directory) = y
      at hmade hresult ⊢
    obtain ⟨tree, result⟩ := x
    obtain ⟨tree', result'⟩ := y
    obtain rfl : result = result' := hresult
    cases result with
    | ok => exact .ok hmade [] trivial
    | error e => exact .error (hE _) [] tree tree'

/-- Nothing is read of any file before the lock is held. -/
theorem acquire_alike (hempty : R [] []) :
    Step.Alike R E (fun _ _ => True) (store.acquire faults) (store.acquire faults) := by
  have hopen : Step.Alike R E (fun _ _ => True) store.openLock store.openLock :=
    Step.alike_change hE fun _ _ htree => htree.openFile hempty store.lockPath fileMode
  unfold acquire
  exact ((refuseLink_alike hE store.path).attempt hE).bind fun _ _ _ =>
    (makeRoom_alike hE store faults).bind fun _ _ _ =>
    ((refuseLink_alike hE store.lockPath).attempt hE).bind fun _ _ _ =>
    (hopen.attempt hE).bind fun _ _ _ => (Step.alike_tell _).attempt hE

theorem openTemporary_alike (hempty : R [] []) :
    Step.Alike R E (· = ·) store.openTemporary store.openTemporary := by
  intro a b htree
  have hfollow := htree.follow store.directory
  have hname : ∀ tree : FileTree, unusedName tree = Bytes.ofText ".tmp" ++ List.replicate
      (((tree.entries.map (·.1)).map fun key => (key.location.getLast?.getD []).length).foldl max 0)
      0x78 := fun tree => by
    rw [unusedName, List.map_map]
    rfl
  unfold openTemporary
  rw [hname a, hname b, htree.keys]
  generalize a.follow store.directory = x at hfollow ⊢
  generalize b.follow store.directory = y at hfollow ⊢
  cases hfollow with
  | error hsame =>
    obtain rfl := hsame
    exact .error (hE _) [] a b
  | @ok x y hxy =>
    obtain ⟨location, entry⟩ := x
    obtain ⟨location', entry'⟩ := y
    obtain ⟨hlocation, hentry⟩ := hxy
    obtain rfl : location = location' := hlocation
    cases hentry with
    | directory => exact .ok (htree.put _ (.file fileMode hempty)) [] rfl
    | file | link => exact .error (hE _) [] a b

theorem writeOut_alike {x y : Bytes} (h : R x y) (place : Location) :
    Step.Alike R E (fun _ _ => True) (writeOut faults place x) (writeOut faults place y) := by
  have hdone : Step.Alike R E (fun _ _ => True) (pure () : Step Unit) (pure ()) :=
    Step.alike_pure trivial
  unfold writeOut
  exact (Step.alike_write h hE place fileMode).bind fun _ _ _ =>
    (hdone.attempt hE).bind fun _ _ _ => hdone.attempt hE

theorem replaceBy_alike (place : Location) :
    Step.Alike R E (fun _ _ => True) (store.replaceBy faults place)
      (store.replaceBy faults place) :=
  ((Step.alike_change hE fun _ _ htree => htree.moveTo place store.path).attempt hE).discarding
    place

theorem commit_alike {x y : Contents} (hempty : R [] []) (h : R x.octets y.octets)
    (hkeys : x.keys = y.keys) :
    Step.Alike R E (fun _ _ => True) (store.commit faults x) (store.commit faults y) := by
  have hlength : x.entries.length = y.entries.length := by
    simpa [SortedMap.keys] using congrArg List.length hkeys
  unfold commit
  rw [hlength]
  refine ((openTemporary_alike hE store hempty).attempt hE).bind fun place _ hsame => ?_
  obtain rfl := hsame
  exact ((writeOut_alike hE faults h place).discarding place).bind fun _ _ _ =>
    (replaceBy_alike hE store faults place).bind fun _ _ _ => Step.alike_tell _

end Store

end

/-! ### Requests -/

/-- The contents after a request have keys that depend on the keys before it alone. -/
theorem Request.keys_after_congr {x y : Contents} (h : x.keys = y.keys) (request : Request) :
    (request.after x).keys = (request.after y).keys := by
  cases request with
  | load | get | keys => exact h
  | store key credential => exact SortedMap.keys_insert_congr h key _ _
  | delete key => exact SortedMap.keys_erase_congr h key
  | clear => rfl

theorem Request.notice_congr {x y : Contents} (h : x.keys = y.keys) (path : Bytes)
    (request : Request) : request.notice path x = request.notice path y := by
  cases request with
  | load | get | keys | store | clear => rfl
  | delete key => rw [notice, notice, SortedMap.contains_congr h]

namespace Store

/-- Whether two steps of a store tell the same and are refused alike on files that are read
alike. -/
abbrev Discreet {α : Type} (store : Store) (s t : String) (S : α → α → Prop) (x y : Step α) :
    Prop :=
  Step.Alike (Contents.ReadAlike s t) (SameOrQuoting s t (StoreError.corrupt store.path)) S x y

theorem readFile_alike (store : Store) :
    store.Discreet s t (fun x y => x.keys = y.keys) store.readFile store.readFile := by
  intro a b htree
  have hcontent := htree.content store.path
  unfold readFile
  generalize a.content store.path = x at hcontent ⊢
  generalize b.content store.path = y at hcontent ⊢
  cases hcontent with
  | ok hread =>
    exact ⟨rfl, hread.mapError fun _ _ h => h.sameOrQuoting _, fun _ _ => htree⟩
  | @error e _ hsame =>
    obtain rfl := hsame
    cases e with
    | notFound => exact .ok htree [] rfl
    | _ => exact .error (.inl rfl) [] a b

theorem grant_alike (store : Store) (faults : Faults) (request : Request) :
    store.Discreet s t (fun x y => x.keys = y.keys) (store.grant faults request)
      (store.grant faults request) := by
  have hE : ∀ e, SameOrQuoting s t (StoreError.corrupt store.path) e e := fun _ => .inl rfl
  have hread : store.Discreet s t (fun x y => x.keys = y.keys) (store.readContents faults)
      (store.readContents faults) :=
    ((refuseLink_alike hE store.path).attempt hE).bind fun _ _ _ =>
      (readFile_alike store).attempt hE
  refine hread.bind fun x y hkeys => ?_
  have hafter := request.keys_after_congr hkeys
  have hcommit : store.Discreet s t (fun _ _ => True) (store.commit faults (request.after x))
      (store.commit faults (request.after y)) :=
    commit_alike hE store faults (.refl []) (Contents.readAlike_octets hafter) hafter
  cases request.changes with
  | true => exact hcommit.bind fun _ _ _ => Step.alike_pure hkeys
  | false => exact Step.alike_pure hkeys

/-- A request on files that are read alike tells the same and is refused alike. -/
theorem perform_alike (store : Store) (faults : Faults) (request : Request) :
    store.Discreet s t (fun _ _ => True) (store.performUnder faults request)
      (store.performUnder faults request) := by
  refine (acquire_alike (fun _ => .inl rfl) store faults (.refl [])).bind fun _ _ _ => ?_
  refine ((grant_alike store faults request).afterwards _).bind fun x y hkeys => ?_
  rw [request.notice_congr hkeys]
  exact (Step.alike_tell _).bind fun _ _ _ => Step.alike_pure trivial

/-- So do requests one after the other. -/
theorem performAll_alike (store : Store) (requests : List Request) :
    store.Discreet s t (fun _ _ => True) (store.performAll requests)
      (store.performAll requests) := by
  induction requests with
  | nil => exact Step.alike_pure trivial
  | cons request rest ih =>
    exact (perform_alike store .none request).bind fun _ _ _ => ih.bind fun _ _ _ =>
      Step.alike_pure trivial

/-- Whatever the system refuses, a request tells the same whatever letters and digits stand in one
text of a file, and is refused for the same reason, but where that text is quoted because something
else was expected. -/
theorem discreet_unless_quoted {before : Bytes} (hbefore : UpToValue before)
    (hst : Interchangeable s t) (after : Bytes) (store : Store) (faults : Faults)
    (request : Request) (files : FileTree) (location : Location) (mode : Nat) :
    let outcome := fun text => store.performUnder faults request
      (files.put location (.file mode (withText before after text)))
    (outcome s).events = (outcome t).events ∧
      ((∃ reply, (outcome s).result = .ok reply) ↔ ∃ reply, (outcome t).result = .ok reply) ∧
      ∀ e, (outcome s).result = .error e → ∃ e', (outcome t).result = .error e' ∧
        e'.kind = e.kind ∧ (e'.message = e.message ∨ ∃ expected position,
          e = .corrupt store.path ⟨.mismatch (.string s) expected, position⟩ ∧
            e' = .corrupt store.path ⟨.mismatch (.string t) expected, position⟩) := by
  have hfiles : FileTree.Alike (Contents.ReadAlike s t) files files := .refl .refl files
  obtain ⟨hevents, hresult, -⟩ := perform_alike store faults request _ _
    (hfiles.put location (.file mode (Contents.readAlike_withText hbefore hst after)))
  refine ⟨hevents, hresult.exists_ok_iff, fun e he => ?_⟩
  obtain ⟨e', he', halike⟩ := hresult.exists_error he
  refine ⟨e', he', ?_⟩
  rcases halike with rfl | ⟨expected, position, rfl, rfl⟩
  · exact ⟨rfl, .inl rfl⟩
  · exact ⟨rfl, .inr ⟨expected, position, rfl, rfl⟩⟩

/-- The path `/s`, where there is a file with a text in place of a record. -/
def textInRoot (text : String) : FileTree :=
  FileTree.empty.put [Bytes.ofText "s"]
    (.file fileMode (withText (Json.upToMember "u") (Bytes.ofText "\x7d") text))

theorem load_textInRoot {text : String} {cause : Json.Error}
    (h : Contents.ofOctets (withText (Json.upToMember "u") (Bytes.ofText "\x7d") text) =
      .error cause) :
    (perform ⟨History.pathInRoot⟩ .load (textInRoot text)).result =
      .error (.corrupt History.pathInRoot cause) := by
  have hsound : (textInRoot text).Sound :=
    History.sound_empty.put_file ⟨.inl rfl, [], _, rfl, 0o755, rfl⟩ _ _
  have hdata : (textInRoot text).inspect History.pathInRoot = .ok (.file fileMode
      (withText (Json.upToMember "u") (Bytes.ofText "\x7d") text)) := by rfl
  have hlock : LockFree ⟨History.pathInRoot⟩ (textInRoot text) :=
    ⟨.vacant [Bytes.ofText "s.lock"], by rfl, .inl rfl⟩
  exact load_of_error hsound hdata hlock h

theorem discreet_unless_quoted_load :
    UpToValue (Json.upToMember "u") ∧ Interchangeable "A" "B" ∧
      (perform ⟨History.pathInRoot⟩ .load (textInRoot "A")).events =
        (perform ⟨History.pathInRoot⟩ .load (textInRoot "B")).events ∧
      ∃ e, (perform ⟨History.pathInRoot⟩ .load (textInRoot "B")).result = .error e ∧
        e.kind = .storeFault := by
  obtain ⟨hevents, -, herrors⟩ := discreet_unless_quoted (Json.upToValue_upToMember "u")
    interchangeable_letters (Bytes.ofText "\x7d") ⟨History.pathInRoot⟩ .none .load .empty
    [Bytes.ofText "s"] fileMode
  obtain ⟨e, he, hkind, -⟩ := herrors _ (load_textInRoot rfl)
  exact ⟨Json.upToValue_upToMember "u", interchangeable_letters, hevents, e, he, hkind⟩

/-- Messages show the text that stands in place of a record. -/
theorem messages_show_text :
    ¬∀ (before after : Bytes) (s t : String) (tree : Json.Tree) (store : Store) (request : Request)
      (files : FileTree) (location : Location) (mode : Nat) (e e' : StoreError),
      UpToValue before → Interchangeable s t → tree.Document (withText before after s) →
      (store.perform request (files.put location (.file mode (withText before after s)))).result =
        .error e →
      (store.perform request (files.put location (.file mode (withText before after t)))).result =
        .error e' →
        e'.message = e.message := by
  intro hall
  have hdocument : (Json.Value.object [("u", .string "A")]).tree.Document
      (withText (Json.upToMember "u") (Bytes.ofText "\x7d") "A") :=
    Json.Layout.tight.document_write 0 _
  have hsame := hall _ _ "A" "B" _ _ _ _ _ _ _ _ (Json.upToValue_upToMember "u")
    interchangeable_letters hdocument (load_textInRoot rfl) (load_textInRoot rfl)
  revert hsame
  decide

end Store

end TokenVault
