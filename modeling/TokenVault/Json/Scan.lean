import TokenVault.Json.Node

/-!
# Scanning

Documents are scanned one octet at a time.  The state is the stack of open arrays and
objects, the innermost first, and what may come next.  There is no limit to the depth: the
stack holds what is open, and a fault closes all of it.
-/

namespace TokenVault.Json

/-- Whether an octet may stand between the parts of a document. -/
def isBlank (octet : UInt8) : Bool :=
  octet = 0x20 || octet = 0x0A || octet = 0x0D || octet = 0x09

namespace Scan

/-- An array or object that is open, with what it holds so far, the last first. -/
inductive Frame
  | array (start : Nat) (items : List Node)
  | object (start : Nat) (members : List (Key × Node))
  /-- An object that waits for the value of a key. -/
  | member (start : Nat) (members : List (Key × Node)) (key : Key)

/-- How far a number has come. -/
inductive NumberPhase
  | minus
  | zero
  | whole
  | point
  | fraction
  | exponentMark
  | exponentSign
  | exponent
  deriving DecidableEq

/-- Whether a number may end here. -/
def NumberPhase.complete : NumberPhase → Bool
  | zero | whole | fraction | exponent => true
  | minus | point | exponentMark | exponentSign => false

/-- How far the octets of a literal have come. -/
inductive LiteralPhase
  | plain
  | escaped
  /-- Within four hexadecimal digits; whether all so far were such digits. -/
  | digits (left : Nat) (valid : Bool)
  deriving DecidableEq

/-- What may come next. -/
inductive Expected
  | value
  | firstItem
  | nextItem
  | firstKey
  | nextKey
  | colon
  /-- A comma or the end, after an item, a member or the whole document. -/
  | more
  /-- The rest of a word that stands for `node`. -/
  | word (node : Node) (rest : Bytes)
  /-- More of a number, whose octets so far are in `taken`, the last first. -/
  | number (start : Nat) (taken : Bytes) (phase : NumberPhase)
  /-- More of a literal, a key or a value. -/
  | literal (isKey : Bool) (start : Nat) (taken : Bytes) (phase : LiteralPhase)

/-- The state of a scan. -/
inductive State
  | running (stack : List Frame) (expected : Expected)
  /-- The value of the document is complete. -/
  | complete (root : Node)
  /-- The scan is over. -/
  | stopped (document : Document)

/-- Closes all that is open around a broken value. -/
def unwind (fault : Fault) : Node → List Frame → Node
  | node, [] => node
  | node, .array start items :: rest =>
    unwind fault (.array start (node :: items).reverse (.broken fault)) rest
  | _, .object start members :: rest =>
    unwind fault (.object start members.reverse (.broken fault)) rest
  | node, .member start members key :: rest =>
    unwind fault (.object start ((key, node) :: members).reverse (.broken fault)) rest

/-- The value that stands at `start` is at fault. -/
def breakValue (stack : List Frame) (start : Nat) (fault : Fault) : State :=
  .stopped ⟨unwind fault (.broken start fault) stack, none⟩

/-- The innermost open array or object is at fault. -/
def breakFrame (fault : Fault) : List Frame → State
  | [] => .stopped ⟨.broken 0 fault, none⟩
  | .array start items :: rest =>
    .stopped ⟨unwind fault (.array start items.reverse (.broken fault)) rest, none⟩
  | .object start members :: rest | .member start members _ :: rest =>
    .stopped ⟨unwind fault (.object start members.reverse (.broken fault)) rest, none⟩

/-- Puts a complete value into the innermost open array or object. -/
def deliver (node : Node) : List Frame → State
  | [] => .complete node
  | .array start items :: rest => .running (.array start (node :: items) :: rest) .more
  | .object start members :: rest => .running (.object start members :: rest) .more
  | .member start members key :: rest =>
    .running (.object start ((key, node) :: members) :: rest) .more

/-- The octet at `offset` is the first of a value. -/
def begin (stack : List Frame) (offset : Nat) (octet : UInt8) : State :=
  if octet = 0x5B then .running (.array offset [] :: stack) .firstItem
  else if octet = 0x7B then .running (.object offset [] :: stack) .firstKey
  else if octet = Literal.quote then .running stack (.literal false offset [] .plain)
  else if octet = 0x2D then .running stack (.number offset [octet] .minus)
  else if octet = 0x30 then .running stack (.number offset [octet] .zero)
  else if Number.isDigit octet then .running stack (.number offset [octet] .whole)
  else if octet = 0x6E then .running stack (.word (.null offset) [0x75, 0x6C, 0x6C])
  else if octet = 0x74 then .running stack (.word (.boolean offset true) [0x72, 0x75, 0x65])
  else if octet = 0x66 then
    .running stack (.word (.boolean offset false) [0x61, 0x6C, 0x73, 0x65])
  else breakValue stack offset (.plain .expectedValue (offset + 1))

/-- The octet at `offset` comes after an item or a member. -/
def proceed (offset : Nat) (octet : UInt8) : List Frame → State
  | .array start items :: rest =>
    if octet = 0x2C then .running (.array start items :: rest) .nextItem
    else if octet = 0x5D then
      deliver (.array start items.reverse (.closed (offset + 1))) rest
    else breakFrame (.plain .expectedListEnd (offset + 1)) (.array start items :: rest)
  | .object start members :: rest =>
    if octet = 0x2C then .running (.object start members :: rest) .nextKey
    else if octet = 0x7D then
      deliver (.object start members.reverse (.closed (offset + 1))) rest
    else breakFrame (.plain .expectedObjectEnd (offset + 1)) (.object start members :: rest)
  | stack => breakFrame (.plain .expectedObjectEnd (offset + 1)) stack

/-- One octet that is not blank, between literals, numbers and words. -/
def part (stack : List Frame) (offset : Nat) (octet : UInt8) : Expected → State
  | .value => begin stack offset octet
  | .firstItem =>
    if octet = 0x5D then proceed offset octet stack else begin stack offset octet
  | .nextItem =>
    if octet = 0x5D then
      breakFrame ⟨⟨.trailingComma, offset + 1⟩, ⟨.expectedValue, offset + 1⟩⟩ stack
    else begin stack offset octet
  | .firstKey =>
    if octet = Literal.quote then .running stack (.literal true offset [] .plain)
    else if octet = 0x7D then proceed offset octet stack
    else breakFrame (.plain .keyNotString (offset + 1)) stack
  | .nextKey =>
    if octet = Literal.quote then .running stack (.literal true offset [] .plain)
    else if octet = 0x7D then
      breakFrame ⟨⟨.trailingComma, offset + 1⟩, ⟨.keyNotString, offset + 1⟩⟩ stack
    else breakFrame (.plain .keyNotString (offset + 1)) stack
  | .colon =>
    if octet = 0x3A then .running stack .value
    else breakValue stack offset (.plain .expectedColon (offset + 1))
  | _ => proceed offset octet stack

/-- One octet after the value of the document. -/
def afterRoot (root : Node) (offset : Nat) (octet : UInt8) : State :=
  if isBlank octet then .complete root else .stopped ⟨root, some offset⟩

/-- One octet between literals, numbers and words. -/
def between (stack : List Frame) (offset : Nat) (octet : UInt8) (expected : Expected) :
    State :=
  if isBlank octet then .running stack expected else part stack offset octet expected

/-- The phase of a number after one more octet, if the number goes on. -/
def NumberPhase.next (octet : UInt8) : NumberPhase → Option NumberPhase
  | .minus =>
    if octet = 0x30 then some .zero else if Number.isDigit octet then some .whole else none
  | .zero =>
    if octet = 0x2E then some .point
    else if octet = 0x65 ∨ octet = 0x45 then some .exponentMark else none
  | .whole =>
    if Number.isDigit octet then some .whole
    else if octet = 0x2E then some .point
    else if octet = 0x65 ∨ octet = 0x45 then some .exponentMark else none
  | .point => if Number.isDigit octet then some .fraction else none
  | .fraction =>
    if Number.isDigit octet then some .fraction
    else if octet = 0x65 ∨ octet = 0x45 then some .exponentMark else none
  | .exponentMark =>
    if octet = 0x2B ∨ octet = 0x2D then some .exponentSign
    else if Number.isDigit octet then some .exponent else none
  | .exponentSign | .exponent => if Number.isDigit octet then some .exponent else none

/-- One octet of a number or after it.  A zero is not followed by a digit. -/
def number (stack : List Frame) (offset start : Nat) (taken : Bytes) (phase : NumberPhase)
    (octet : UInt8) : State :=
  match phase.next octet with
  | some next => .running stack (.number start (octet :: taken) next)
  | none =>
    if phase.complete ∧ ¬(phase = .zero ∧ Number.isDigit octet) then
      match deliver (.number start taken.reverse) stack with
      | .running stack expected => between stack offset octet expected
      | .complete root => afterRoot root offset octet
      | stopped => stopped
    else breakValue stack start (.plain .invalidNumber (offset + 1))

/-- A literal breaks off. -/
def breakLiteral (stack : List Frame) (isKey : Bool) (start : Nat) (taken : Bytes)
    (fault : Fault) : State :=
  let fault := Literal.broken start taken.reverse fault
  if isKey then breakFrame fault stack else breakValue stack start fault

/-- A literal is complete. -/
def closeLiteral (stack : List Frame) (isKey : Bool) (start : Nat) (taken : Bytes) : State :=
  if isKey then
    match stack with
    | .object objectStart members :: rest =>
      .running (.member objectStart members ⟨start, taken.reverse⟩ :: rest) .colon
    | stack => .running stack .colon
  else deliver (.string start taken.reverse) stack

/-- One octet of a literal. -/
def literal (stack : List Frame) (offset : Nat) (isKey : Bool) (start : Nat) (taken : Bytes)
    (octet : UInt8) (phase : LiteralPhase) : State :=
  let goOn := fun phase => State.running stack (.literal isKey start (octet :: taken) phase)
  let refuse := breakLiteral stack isKey start (octet :: taken)
  match phase with
  | .plain =>
    if octet = Literal.quote then closeLiteral stack isKey start taken
    else if octet = Literal.backslash then goOn .escaped
    else if octet < 0x20 then
      refuse ⟨⟨.controlCharacter, offset + 1⟩, ⟨.controlCharacter, offset⟩⟩
    else goOn .plain
  | .escaped =>
    if (Literal.simpleEscape? octet).isSome then goOn .plain
    else if octet = Literal.numbered then goOn (.digits 3 true)
    else refuse (.plain .invalidEscape (offset + 1))
  | .digits left valid =>
    let valid := valid && (Literal.hexValue? octet).isSome
    match left with
    | left + 1 => goOn (.digits left valid)
    | 0 => if valid then goOn .plain else refuse (.plain .invalidEscape (offset + 1))

/-- One octet, at `offset`. -/
def step (offset : Nat) (octet : UInt8) : State → State
  | .running stack expected =>
    match expected with
    | .word node (first :: rest) =>
      if octet = first then
        if rest = [] then deliver node stack else .running stack (.word node rest)
      else breakValue stack node.start (.plain .expectedWord (offset + 1))
    | .number start taken phase => number stack offset start taken phase octet
    | .literal isKey start taken phase => literal stack offset isKey start taken octet phase
    | expected => between stack offset octet expected
  | .complete root => afterRoot root offset octet
  | .stopped document => .stopped document

/-- The fault of an array or object that the end of the input leaves open. -/
def openFault (offset : Nat) : List Frame → Fault
  | .array _ _ :: _ => .plain .endInList offset
  | _ => .plain .endInObject offset

/-- The end of the input where a value or a part of an array or object is expected. -/
def endBetween (stack : List Frame) (offset : Nat) : Expected → State
  | .value => breakValue stack offset (.plain .endInValue offset)
  | .nextItem => breakFrame (.plain .endInValue offset) stack
  | .nextKey => breakFrame ⟨⟨.endInValue, offset⟩, ⟨.endInObject, offset⟩⟩ stack
  | .colon => breakValue stack offset (.plain .endInObject offset)
  | _ => breakFrame (openFault offset stack) stack

/-- The end of the input, after `offset` octets. -/
def finish (offset : Nat) : State → State
  | .running stack expected =>
    match expected with
    | .word node _ => breakValue stack node.start (.plain .endInValue offset)
    | .number start taken phase =>
      if phase.complete then
        match deliver (.number start taken.reverse) stack with
        | .running stack expected => endBetween stack offset expected
        | done => done
      else breakValue stack start ⟨⟨.endInValue, offset⟩, ⟨.invalidNumber, offset⟩⟩
    | .literal isKey start taken _ =>
      breakLiteral stack isKey start taken (.plain .endInString offset)
    | expected => endBetween stack offset expected
  | done => done

/-- The state after octets, the first of which stands at `offset`. -/
def run (offset : Nat) : Bytes → State → State
  | [], state => state
  | octet :: rest, state => run (offset + 1) rest (step offset octet state)

/-- The document that a finished scan has found. -/
def State.document : State → Document
  | .complete root => ⟨root, none⟩
  | .stopped document => document
  | .running _ _ => ⟨.broken 0 (.plain .endInValue 0), none⟩

end Scan

/-- Scans a document. -/
def Document.scan (input : Bytes) : Document :=
  (Scan.finish input.length (Scan.run 0 input (.running [] .value))).document

end TokenVault.Json
