import TokenVault.Proofs.Json.Layout
import TokenVault.Proofs.Json.Positional
import TokenVault.Proofs.Token.Parsing
import TokenVault.Proofs.Token.Reading

/-!
# The shape of a token

Which values the segments of a token hold, among all values that a document can hold
(`SignedToken.shapes`).  A payload is an object.  A header may be an array as well, with its fields
in order and the last ones left out: the two segments are not read alike, and readers that ask for
an object do not take such a token (`SignedToken.shapes_differ`).
-/

namespace TokenVault

open Json (Named Schema Tree)

namespace Header

/-- Whether a tree has the shape of a header: that of an object, or of an array with an item for
the name of the algorithm and no more items than there are fields. -/
inductive Shape : Tree → Prop
  | object (members : List (Json.StringLiteral × Tree)) : Shape (.object members)
  | array {items : List Tree} : 1 ≤ items.length → items.length ≤ recognised.length →
      Shape (.array items)

variable {header : Header} {input : Bytes}

/-- What holds a header is a document, and the fields of the header are what its members or items
say. -/
theorem exists_document_iff :
    ofOctets input = .ok header ↔
      ∃ (tree : Tree) (named : List (String × Tree)), tree.Document input ∧
        schema.Lists tree named ∧ header.ReadFrom named := by
  rw [ofOctets, Schema.exists_document_iff makes_takes (by decide) (by decide)]
  simp only [run_iff]

theorem ReadFrom.shape {tree : Tree} {named : List (String × Tree)} (h : header.ReadFrom named)
    (hlists : schema.Lists tree named) : Shape tree := by
  cases hlists with
  | object => exact .object _
  | @array items _ hfits =>
    refine .array (Nat.pos_of_ne_zero fun hnone => ?_) hfits
    -- without an item there is no name of an algorithm
    obtain ⟨_, hvalue, -⟩ := h.alg
    rw [List.length_eq_zero_iff.1 hnone, List.zip_nil_right] at hvalue
    cases hvalue

theorem shape_of_ofOctets {tree : Tree} (htree : tree.Document input)
    (h : ofOctets input = .ok header) : Shape tree := by
  obtain ⟨node, hnode, hscan⟩ := Json.Document.scan_of_document htree
  rw [ofOctets, Schema.ofOctets, Json.Document.read_eq_ok_iff, hscan,
    Schema.read_eq_ok_iff makes_takes (by decide) (by decide) input hnode] at h
  obtain ⟨named, hlists, hnamed⟩ := h.1
  exact (run_iff.1 hnamed).shape hlists

end Header

namespace Payload

variable {payload : Payload} {input : Bytes}

/-- What holds a payload is an object, and the claims are what its members say. -/
theorem exists_document_iff :
    ofOctets input = .ok payload ↔
      ∃ (members : List (Json.StringLiteral × Tree)) (named : List (String × Tree)),
        (Tree.object members).Document input ∧ Named members named ∧ payload.ReadFrom named := by
  have hdistinct : registered.Nodup := by decide
  rw [ofOctets, Schema.exists_document_iff (makes_takes input) hdistinct (Nat.zero_le _)]
  simp only [run_iff]
  constructor
  · rintro ⟨tree, named, hdocument, hlists, hread⟩
    cases hlists with
    | object hnamed => exact ⟨_, named, hdocument, hnamed, hread⟩
    | array hpositional => cases hpositional
  · rintro ⟨members, named, hdocument, hnamed, hread⟩
    exact ⟨.object members, named, hdocument, .object hnamed, hread⟩

end Payload

namespace SignedToken

/-- A token that is read holds a header and an object; a token that holds any other value in place
of either is refused as malformed, whatever is in place of the other. -/
theorem shapes (token : String) :
    (∀ signed, ofText token = .ok signed →
      ∃ (headerOctets payloadOctets : Bytes) (header : Tree)
        (members : List (Json.StringLiteral × Tree)),
        segmentsOf token = [Base64Url.encode headerOctets, Base64Url.encode payloadOctets,
          Base64Url.encode signed.signature] ∧
        header.Document headerOctets ∧ Header.Shape header ∧
        (Tree.object members).Document payloadOctets) ∧
    ∀ (headerOctets payloadOctets signature : Bytes) (tree : Tree),
      segmentsOf token = [Base64Url.encode headerOctets, Base64Url.encode payloadOctets,
        Base64Url.encode signature] →
      (tree.Document headerOctets ∧ ¬Header.Shape tree ∨
        tree.Document payloadOctets ∧ ¬∃ members, tree = .object members) →
        ∃ e, ofText token = .error e ∧ e.kind = .malformedToken := by
  constructor
  · intro signed h
    obtain ⟨headerOctets, payloadOctets, hsegments, hheader, hpayload, -⟩ := ofText_eq_ok_iff.1 h
    obtain ⟨header, named, hdocument, hlists, hread⟩ := Header.exists_document_iff.1 hheader
    obtain ⟨members, _, hobject, -⟩ := Payload.exists_document_iff.1 hpayload
    exact ⟨headerOctets, payloadOctets, header, members, hsegments, hdocument, hread.shape hlists,
      hobject⟩
  · intro headerOctets payloadOctets signature tree hsegments hother
    rw [ofText_of_segments hsegments]
    simp only [Base64Url.decode_encode, Result.mapError_ok, Result.ok_bind]
    cases hheader : Header.ofOctets headerOctets with
    | error cause => exact ⟨.header cause, rfl, rfl⟩
    | ok header =>
      cases hpayload : Payload.ofOctets payloadOctets with
      | error cause => exact ⟨.payload cause, rfl, rfl⟩
      | ok payload =>
        rcases hother with ⟨hdocument, hnot⟩ | ⟨hdocument, hnot⟩
        · exact absurd (Header.shape_of_ofOctets hdocument hheader) hnot
        · exact absurd (Schema.object_of_ofOctets rfl hdocument hpayload) hnot

/-- A text in an array. -/
def textInArray : Json.Value := .array [.string "HS256"]

/-- No claims. -/
def noClaims : Json.Value := .object []

/-- A token with two values and an empty signature. -/
def holding (header payload : Json.Value) : String :=
  Base64Url.encode header.compact ++ "." ++ Base64Url.encode payload.compact ++ "." ++
    Base64Url.encode []

theorem segmentsOf_holding (header payload : Json.Value) :
    segmentsOf (holding header payload) = [Base64Url.encode header.compact,
      Base64Url.encode payload.compact, Base64Url.encode []] :=
  segmentsOf_eq_three_iff.2 ⟨rfl, Base64Url.dot_not_mem_encode _,
    Base64Url.dot_not_mem_encode _, Base64Url.dot_not_mem_encode _⟩

theorem document_compact (value : Json.Value) : value.tree.Document value.compact := by
  rw [Json.Value.compact_eq_write 0]
  exact Json.Layout.tight.document_write 0 value

theorem shapes_payload_in_array :
    ∃ e, ofText (holding noClaims textInArray) = .error e ∧ e.kind = .malformedToken := by
  refine (shapes _).2 _ _ [] _ (segmentsOf_holding _ _) (.inr ⟨document_compact _, ?_⟩)
  rintro ⟨members, hobject⟩
  cases hobject

/-- Not only objects are read: a header may stand in an array. -/
theorem shapes_differ :
    ¬∀ token signed, ofText token = .ok signed →
      ∃ (headerOctets payloadOctets : Bytes) (members claims : List (Json.StringLiteral × Tree)),
        segmentsOf token = [Base64Url.encode headerOctets, Base64Url.encode payloadOctets,
          Base64Url.encode signed.signature] ∧
        (Tree.object members).Document headerOctets ∧
        (Tree.object claims).Document payloadOctets := by
  intro hall
  have hheader : Header.ofOctets textInArray.compact = .ok ⟨"HS256", none, none, none⟩ := by
    rfl
  have hpayload : Payload.ofOctets noClaims.compact = .ok .empty := by
    rfl
  let signed : SignedToken := ⟨⟨"HS256", none, none, none⟩, .empty, [],
    Base64Url.encode textInArray.compact ++ "." ++ Base64Url.encode noClaims.compact⟩
  obtain ⟨headerOctets, _, members, _, hsame, hobject, -⟩ := hall _ signed
    (ofText_eq_ok_iff.2 ⟨_, _, segmentsOf_holding textInArray noClaims, hheader, hpayload, rfl⟩)
  rw [segmentsOf_holding] at hsame
  obtain rfl := Base64Url.encode_injective (List.cons.inj hsame).1
  -- the same octets cannot be scanned as an array and as an object
  obtain ⟨node, hnode, hscan⟩ := Json.Document.scan_of_document hobject
  obtain ⟨node', hnode', hscan'⟩ := Json.Document.scan_of_document (document_compact textInArray)
  obtain ⟨start, nodes, stop, rfl, -⟩ := hnode.object
  obtain ⟨start', nodes', stop', rfl, -⟩ := hnode'.array
  rw [hscan] at hscan'
  cases hscan'

end SignedToken

end TokenVault
