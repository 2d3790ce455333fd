import TokenVault.Environment.Basic
import TokenVault.Environment.Line
import TokenVault.Environment.Value

/-!
# Definition files

A definition file gives values to variables that have none.  It is followed line by line
up to the first line that makes no sense; what came before counts.
-/

namespace TokenVault

namespace DefinitionFile

/-- What a line says. -/
inductive Statement
  | nothing
  | define (name value : String)
  | malformed
  deriving DecidableEq, Repr

/-- Whether a name may begin with a character. -/
def startsName (c : Char) : Bool := c.isAlpha || c = '_'

/-- Whether a name may contain a character. -/
def continuesName (c : Char) : Bool := c.isAlphanum || c = '_' || c = '.'

/-- Takes a name, and blanks after it. -/
def takeName : List Char → Option (String × List Char)
  | [] => none
  | c :: rest =>
    if startsName c then
      let chars := c :: rest
      some (String.ofList (chars.takeWhile continuesName),
        (chars.dropWhile continuesName).dropWhile Text.isBlank)
    else none

/-- The word that may stand before a name. -/
def exporting : String := "export"

/-- What a definition of a name says, of which the part after the name is given. -/
def defining (value : List Char → List Char) (name : String) : List Char → Statement
  | '=' :: rest =>
    let rest := rest.dropWhile Text.isBlank
    if rest.head? = some '#' then .define name ""
    else
      match readValue value (.bare false) rest with
      | some chars => .define name (String.ofList chars)
      | none => .malformed
  | _ => .malformed

/-- The characters without blanks around them. -/
def trimmed (chars : List Char) : List Char :=
  ((chars.reverse.dropWhile Text.isBlank).reverse).dropWhile Text.isBlank

/-- What a line says. -/
def Statement.ofLine (value : List Char → List Char) (line : List Char) : Statement :=
  match trimmed line with
  | [] => .nothing
  | '#' :: _ => .nothing
  | chars =>
    match takeName chars with
    | none => .malformed
    | some (name, rest) =>
      if name = exporting ∧ rest.head? ≠ some '=' then
        match takeName rest with
        | none => .malformed
        | some (name, rest) => defining value name rest
      else defining value name rest

end DefinitionFile

namespace Environment

/-- The value of a name in a definition file: that of the variable, or else that of the
last definition before; otherwise nothing. -/
def resolve (environment : Environment) (earlier : List (String × String))
    (name : List Char) : List Char :=
  let name := String.ofList name
  match environment.text? name with
  | some value => value.toList
  | none => ((earlier.lookup name).getD "").toList

/-- Follows the lines of a definition file. -/
def follow (environment : Environment) (earlier : List (String × String)) :
    List (List Char) → Environment
  | [] => environment
  | line :: rest =>
    match DefinitionFile.Statement.ofLine (environment.resolve earlier) line with
    | .nothing => environment.follow earlier rest
    | .define name value =>
      (environment.supply name value).follow ((name, value) :: earlier) rest
    | .malformed => environment

/-- The environment with the definitions of a file. -/
def withFile (environment : Environment) (file : Bytes) : Environment :=
  environment.follow [] (DefinitionFile.lines file)

end Environment

end TokenVault
