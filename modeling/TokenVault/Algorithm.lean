import TokenVault.Digest

/-!
# Signature algorithms

The closed table of names that a token header may carry.  A name selects a family of keys
and a digest; a name outside the table selects nothing, and there is no default.
-/

namespace TokenVault

/-- The families of keys. -/
inductive Family
  /-- Shared secrets. -/
  | mac
  /-- Key pairs. -/
  | rsa
  deriving DecidableEq, Repr

/-- How a family is called in messages. -/
def Family.name : Family → String
  | mac => "MAC"
  | rsa => "RSA"

/-- A signature algorithm. -/
inductive Algorithm
  | hs256
  | hs384
  | hs512
  | rs256
  | rs384
  | rs512
  deriving DecidableEq, Repr

namespace Algorithm

/-- Every algorithm, in the order of the table. -/
def all : List Algorithm := [hs256, hs384, hs512, rs256, rs384, rs512]

/-- The registered name. -/
def name : Algorithm → String
  | hs256 => "HS256"
  | hs384 => "HS384"
  | hs512 => "HS512"
  | rs256 => "RS256"
  | rs384 => "RS384"
  | rs512 => "RS512"

/-- The family of keys that an algorithm takes. -/
def family : Algorithm → Family
  | hs256 | hs384 | hs512 => .mac
  | rs256 | rs384 | rs512 => .rsa

/-- The digest that an algorithm signs. -/
def digest : Algorithm → Digest
  | hs256 | rs256 => .sha256
  | hs384 | rs384 => .sha384
  | hs512 | rs512 => .sha512

/-- The algorithm with this exact name. -/
def ofName? (name : String) : Option Algorithm := all.find? fun a => a.name = name

theorem mem_all (a : Algorithm) : a ∈ all := by cases a <;> decide

theorem ofName?_name (a : Algorithm) : ofName? a.name = some a := by cases a <;> decide

theorem name_of_ofName? {name : String} {a : Algorithm} (h : ofName? name = some a) :
    a.name = name := by
  simpa using List.find?_some h

theorem ofName?_eq_some_iff {name : String} {a : Algorithm} :
    ofName? name = some a ↔ a.name = name := by
  constructor
  · exact name_of_ofName?
  · rintro rfl
    exact ofName?_name a

/-- Family and digest together determine the algorithm. -/
theorem eq_of_family_digest {a b : Algorithm} (hfamily : a.family = b.family)
    (hdigest : a.digest = b.digest) : a = b := by
  cases a <;> cases b <;> simp_all [family, digest]

end Algorithm

end TokenVault
