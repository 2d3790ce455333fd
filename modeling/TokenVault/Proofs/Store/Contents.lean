import TokenVault.Proofs.Json.Record
import TokenVault.Proofs.SortedMap
import TokenVault.Store.Contents

/-!
# Contents read back

What is written of the contents of a store is read as those contents: each credential is read
back from its members, and the keys stand in the order in which they are kept.  The file is
never blank, so it is not taken for an empty one.
-/

namespace TokenVault

open Json (Schema)

namespace Credential

theorem takes_members (credential : Credential) :
    schema.Takes credential.members schema.empty credential := by
  obtain ⟨accessToken, refreshToken, expiry⟩ := credential
  have haccess : schema.Takes [("accessToken", .string accessToken)] schema.empty
      ⟨accessToken, none, none⟩ := by
    refine Schema.takes_singleton fun node hnode => ?_
    show (node.text >>= fun text => pure (Credential.mk text none none)) = _
    rw [Json.Node.text_of_spelledBy hnode]
    rfl
  have hrefresh : schema.Takes (Json.optionalMember "refreshToken" .string refreshToken)
      ⟨accessToken, none, none⟩ ⟨accessToken, refreshToken, none⟩ :=
    Schema.takes_optionalText (fun x (c : Credential) => { c with refreshToken := x })
      refreshToken ⟨accessToken, none, none⟩ rfl fun _ => rfl
  have hexpiry : schema.Takes
      (Json.optionalMember "expirationTimeMilliseconds"
        (fun millis => .number (.ofInt64 millis)) expiry)
      ⟨accessToken, refreshToken, none⟩ ⟨accessToken, refreshToken, expiry⟩ :=
    Schema.takes_optionalInt64 (fun x (c : Credential) => { c with expiry := x }) expiry
      ⟨accessToken, refreshToken, none⟩ rfl fun _ => rfl
  exact (haccess.append hrefresh).append hexpiry

theorem nodup_members (credential : Credential) : (credential.members.map (·.1)).Nodup := by
  have hsublist : (credential.members.map (·.1)).Sublist
      ["accessToken", "refreshToken", "expirationTimeMilliseconds"] := by
    simp only [members, List.map_append]
    exact ((List.Sublist.refl ["accessToken"]).append (Json.sublist_optionalMember _)).append
      (Json.sublist_optionalMember _)
  exact hsublist.nodup (by decide)

/-- A credential is read back from a node that spells it. -/
theorem read_of_spelledBy (input : Bytes) (credential : Credential) {node : Json.Node}
    (h : credential.toValue.SpelledBy node) : schema.read input node = .ok credential := by
  refine Schema.read_of_takes input h credential.takes_members credential.nodup_members ?_
  intro field hfield
  obtain rfl := List.mem_singleton.1 hfield
  simp [members]

end Credential

namespace Contents

/-- The entries are read back in the order in which they are written. -/
theorem readMembers_of_spelledBy (input : Bytes) {entries : List (String × Credential)}
    {nodes : List (Json.Key × Json.Node)}
    (h : Json.MembersSpelledBy (entries.map fun e => (e.1, e.2.toValue)) nodes) :
    readMembers input nodes = .ok entries := by
  induction entries generalizing nodes with
  | nil =>
    cases nodes with
    | nil => rfl
    | cons node rest => exact h.elim
  | cons entry rest ih =>
    cases nodes with
    | nil => exact h.elim
    | cons member nodes =>
      obtain ⟨key, node⟩ := member
      obtain ⟨hkey, hnode, hrest⟩ := h
      rw [readMembers, Json.Key.read_of_raw hkey, Result.ok_bind,
        entry.2.read_of_spelledBy input hnode, Result.ok_bind, ih hrest]
      rfl

theorem read_of_spelledBy (input : Bytes) (contents : Contents) {node : Json.Node}
    (h : contents.toValue.SpelledBy node) : read input node = .ok contents := by
  obtain ⟨start, nodes, stop, rfl, hmembers⟩ := Json.Value.SpelledBy.object h
  show (readMembers input nodes >>= fun entries => _) = _
  rw [readMembers_of_spelledBy input hmembers, Result.ok_bind]
  show Except.ok (SortedMap.ofList contents.entries) = _
  rw [SortedMap.ofList_entries]

/-- The file starts with a brace and not with a blank. -/
theorem not_blank (contents : Contents) : contents.octets.all Text.isBlankOctet = false := by
  have hbrace : ∃ rest, contents.octets = 0x7B :: rest := by
    rw [octets, Json.Value.spread_eq_write, toValue, Json.Layout.write]
    cases Json.Layout.lines.writeMembers (0 + 1) _ with
    | nil => exact ⟨_, rfl⟩
    | cons part rest => exact ⟨_, rfl⟩
  obtain ⟨rest, hrest⟩ := hbrace
  rw [hrest]
  rfl

/-- Contents are read back from what is written of them. -/
theorem ofOctets_octets (contents : Contents) : ofOctets contents.octets = .ok contents := by
  rw [ofOctets, contents.not_blank, if_neg Bool.false_ne_true, octets,
    Json.Value.spread_eq_write]
  obtain ⟨node, hnode, hscan⟩ :=
    Json.Document.scan_write .lines 0 contents.toValue
  rw [Json.Document.read, hscan]
  simp only [contents.read_of_spelledBy _ hnode]

/-- A file without any octets holds nothing. -/
theorem ofOctets_nil : ofOctets [] = .ok .empty := rfl

end Contents

end TokenVault
