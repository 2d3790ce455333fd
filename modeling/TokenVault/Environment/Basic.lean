import TokenVault.Text.Bytes

/-!
# Environments

The variables that a program is started with.  Each stands as its name, an equals sign and
the octets of its value.  Whoever asks for a name gets what follows it and an equals sign, so
a name that has an equals sign in it asks for a part of a value.  What is no text counts as
missing.
-/

namespace TokenVault

/-- Variables with the octets of their values.  Of several entries with one name the first
counts. -/
structure Environment where
  entries : List (String × Bytes)
  deriving DecidableEq

namespace Environment

/-- The environment without variables. -/
def empty : Environment := ⟨[]⟩

/-- The octet `=`. -/
def equals : UInt8 := 0x3D

/-- What follows some octets at the front of others. -/
def after? (front octets : Bytes) : Option Bytes :=
  if front.isPrefixOf octets then some (octets.drop front.length) else none

/-- What follows a name and an equals sign.  Up to its first equals sign a name is that of a
variable; the rest of it stands in the value. -/
def octets? (environment : Environment) (name : String) : Option Bytes :=
  let value := environment.entries.lookup (String.ofList (name.toList.takeWhile (· ≠ '=')))
  match name.toList.dropWhile (· ≠ '=') with
  | [] => value
  | _ :: rest => value.bind (after? (Bytes.ofText (String.ofList rest) ++ [equals]))

/-- What follows a name and an equals sign, if it is a text. -/
def text? (environment : Environment) (name : String) : Option String :=
  (environment.octets? name).bind Bytes.text?

/-- The environment in which a variable has a value. -/
def define (environment : Environment) (name value : String) : Environment :=
  ⟨(name, Bytes.ofText value) :: environment.entries⟩

/-- The environment in which a variable has a value: the one it had, if any. -/
def supply (environment : Environment) (name value : String) : Environment :=
  match environment.text? name with
  | some _ => environment
  | none => environment.define name value

/-- A name without an equals sign is that of a variable. -/
theorem octets?_of_not_mem {name : String} (environment : Environment)
    (h : '=' ∉ name.toList) : environment.octets? name = environment.entries.lookup name := by
  have hsplit (chars : List Char) (h : '=' ∉ chars) :
      chars.takeWhile (· ≠ '=') = chars ∧ chars.dropWhile (· ≠ '=') = [] := by
    induction chars with
    | nil => simp
    | cons c rest ih =>
      have hc : c ≠ '=' := fun hc => h (by simp [hc])
      have hrest := ih (fun hmem => h (List.mem_cons_of_mem c hmem))
      simp only [List.takeWhile_cons, List.dropWhile_cons, hc, ne_eq, not_false_eq_true,
        decide_true, if_true]
      exact ⟨congrArg (c :: ·) hrest.1, hrest.2⟩
  obtain ⟨htake, hdrop⟩ := hsplit name.toList h
  unfold octets?
  rw [hdrop, htake, String.ofList_toList]

theorem text?_define (environment : Environment) {name : String} (value : String)
    (h : '=' ∉ name.toList) : (environment.define name value).text? name = some value := by
  simp [text?, octets?_of_not_mem _ h, define]

theorem text?_define_of_ne (environment : Environment) {name other : String}
    (value : String) (hother : '=' ∉ other.toList) (h : other ≠ name) :
    (environment.define name value).text? other = environment.text? other := by
  have hbeq : (other == name) = false := by simp [h]
  simp [text?, octets?_of_not_mem _ hother, define, List.lookup_cons, hbeq]

/-- A variable that has a value keeps it. -/
theorem text?_supply_of_some {environment : Environment} {name old : String}
    (value : String) (h : environment.text? name = some old) :
    (environment.supply name value).text? name = some old := by
  simp [supply, h]

example : (empty.define "A" "B=C=z").text? "A=B" = some "C=z" := by decide +kernel

end Environment

end TokenVault
