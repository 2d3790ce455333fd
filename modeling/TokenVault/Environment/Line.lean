import TokenVault.Text.Bytes

/-!
# Lines of a definition file

A line of the file goes on behind its end while a quote is open or a backslash or blank is
the last thing in it, and ends early at a comment.  The lines that are given are those up
to the first that is no text or is never completed.
-/

namespace TokenVault.DefinitionFile

/-- The two kinds of quote. -/
inductive Quote
  | single
  | double
  deriving DecidableEq, Repr

/-- How a quote is written. -/
def Quote.mark : Quote → Char
  | single => '\''
  | double => '"'

/-- What has been read of a line. -/
inductive LineState
  | plain
  /-- A blank has been read, so a comment may follow. -/
  | afterBlank
  | escaped
  | quoted (quote : Quote)
  | quotedEscaped (quote : Quote)
  deriving DecidableEq, Repr

/-- What has been read when a character outside of quotes follows. -/
def LineState.outside (c : Char) (otherwise : LineState) : LineState :=
  if c = '\\' then escaped
  else if c = Quote.double.mark then quoted .double
  else if c = Quote.single.mark then quoted .single
  else otherwise

/-- What has been read when a character follows. -/
def LineState.next (c : Char) : LineState → LineState
  | plain =>
    if Text.isBlank c ∧ c ≠ '\n' ∧ c ≠ '\r' then afterBlank else outside c plain
  | afterBlank => outside c plain
  | escaped => plain
  | quoted quote =>
    if c = '\\' then quotedEscaped quote else if c = quote.mark then plain else quoted quote
  | quotedEscaped quote => quoted quote

/-- What has been read when characters follow. -/
def LineState.run (state : LineState) (chars : List Char) : LineState :=
  chars.foldl (fun state c => state.next c) state

/-- The characters before a comment, if there is one. -/
def beforeComment? (state : LineState) : List Char → Option (List Char)
  | [] => none
  | c :: rest =>
    if state = .afterBlank ∧ c = '#' then some []
    else (beforeComment? (state.next c) rest).map (c :: ·)

/-- Drops a line end from characters of which the last one comes first. -/
def dropLineEnd : List Char → List Char
  | '\n' :: '\r' :: before => before
  | '\n' :: before => before
  | reversed => reversed

/-- A line of which the first parts have been read. -/
structure OpenLine where
  state : LineState
  /-- The characters, last one first. -/
  reversed : List Char
  /-- The first character that is no blank, if there is one. -/
  first : Option Char
  deriving DecidableEq, Repr

namespace OpenLine

/-- A line of which nothing has been read. -/
def start : OpenLine := ⟨.plain, [], none⟩

/-- The line after one more part. -/
def push (line : OpenLine) (part : List Char) : OpenLine :=
  ⟨line.state.run part, part.reverse ++ line.reversed,
    line.first.or (part.dropWhile Text.isBlank).head?⟩

/-- The characters of a line, in order. -/
def chars (line : OpenLine) : List Char := line.reversed.reverse

@[simp] theorem chars_push (line : OpenLine) (part : List Char) :
    (line.push part).chars = line.chars ++ part := by
  simp [push, chars]

end OpenLine

/-- Splits after each line feed. -/
def splitLines : Bytes → List Bytes
  | [] => []
  | octet :: rest =>
    if octet = 0x0A then [octet] :: splitLines rest
    else
      match splitLines rest with
      | line :: lines => (octet :: line) :: lines
      | [] => [[octet]]

/-- Puts lines together, given what has been read of the first one. -/
def joinLines (before : OpenLine) : List Bytes → List (List Char)
  | [] => []
  | part :: rest =>
    match Bytes.text? part with
    | none => []
    | some text =>
      let line := before.push text.toList
      if line.first = some '#' then [] :: joinLines .start rest
      else
        match beforeComment? before.state text.toList, line.state with
        | some kept, _ => (before.chars ++ kept) :: joinLines .start rest
        | none, .plain => (dropLineEnd line.reversed).reverse :: joinLines .start rest
        | none, _ => joinLines line rest

/-- The file without a mark of its byte order. -/
def withoutMark : Bytes → Bytes
  | 0xEF :: 0xBB :: 0xBF :: rest => rest
  | file => file

/-- The lines of a file. -/
def lines (file : Bytes) : List (List Char) := joinLines .start (splitLines (withoutMark file))

/-- Nothing is lost when a file is split. -/
theorem flatten_splitLines (file : Bytes) : (splitLines file).flatten = file := by
  induction file with
  | nil => rfl
  | cons octet rest ih =>
    unfold splitLines
    split
    · simp [ih]
    · split
      · next h => rw [h] at ih; simpa using ih
      · next h => rw [h] at ih; simpa using ih

end TokenVault.DefinitionFile
