import ReadmeTables.Json.Token
/-!
Reading JSON.

The reader goes through the tokens once and keeps the lists and objects that are still open
on a stack. The first token that does not fit decides the error, which names the line, the
column and the position of that token, or of the end of the text. Any depth is read here; where
a stack is used up is a matter of the host.
-/

namespace ReadmeTables.Json

inductive Error where
  | malformed (fault : Fault) (line column position : Nat)
  | tooManyDigits (count : Nat)
deriving DecidableEq

-- An error at a position, with the line and column that it has in the text.
def Error.at (chars : List Char) (fault : Fault) (position : Nat) : Error :=
  let passed := chars.take position
  let line := passed.count '\n' + 1
  let column := (passed.reverse.takeWhile (· ≠ '\n')).length + 1
  .malformed fault line column position

-- A list or object that is open, with what it holds so far, last first.
inductive Frame where
  | list (done : List Value)
  | object (done : List (Text × Value)) (key : Text)

-- What may come next: a value (or the end of a list just begun), the end of a value, a key
-- (or the end of an object just begun), or the colon after a key.
inductive Expect where
  | value
  | firstItem
  | afterValue (value : Value)
  | key
  | firstKey
  | colon

-- An object that waits for its next key is kept apart from the open frames.
structure State where
  expect : Expect
  frames : List Frame
  members : List (Text × Value)
  key : Text

inductive StepFault where
  | at (fault : Fault) (position : Nat)
  | longNumber (digits : Nat)

def State.done (s : State) (value : Value) : State :=
  { s with expect := .afterValue value }

-- Takes a token as the beginning of a value.
def State.takeValue (s : State) (i : Nat) : Token → Except StepFault State
  | .beginList => .ok { s with expect := .firstItem, frames := .list [] :: s.frames }
  | .beginObject => .ok { s with expect := .firstKey, members := [] }
  | .scalar value => .ok (s.done value)
  | .text t => .ok (s.done (.text t))
  | .brokenText fault position => .error (.at fault position)
  | .longNumber digits => .error (.longNumber digits)
  | _ => .error (.at .value i)

def State.takeKey (s : State) (i : Nat) : Token → Except StepFault State
  | .text t => .ok { s with expect := .colon, key := t }
  | .brokenText fault position => .error (.at fault position)
  | _ => .error (.at .key i)

-- Closes an object.
def State.closeObject (s : State) : State :=
  s.done (.object (Members.ofList s.members.reverse))

-- Takes a token after a value: the end of what holds it, or a comma.
def State.takeAfter (s : State) (value : Value) (i : Nat) (token : Token) :
    Except StepFault State :=
  match s.frames, token with
  | [], _ => .error (.at .extraData i)
  | .list done :: frames, .comma =>
    .ok { s with expect := .value, frames := .list (value :: done) :: frames }
  | .list done :: frames, .endList =>
    .ok { s with expect := .afterValue (.list (value :: done).reverse), frames := frames }
  | .object done key :: frames, .comma =>
    .ok { s with expect := .key, frames := frames, members := (key, value) :: done }
  | .object done key :: frames, .endObject =>
    .ok (State.closeObject { s with frames := frames, members := (key, value) :: done })
  | _ :: _, _ => .error (.at .comma i)

def State.step (s : State) (i : Nat) (token : Token) : Except StepFault State :=
  match s.expect, token with
  | .firstItem, .endList =>
    match s.frames with
    | .list _ :: frames => .ok { s with expect := .afterValue (.list []), frames := frames }
    | _ => .error (.at .value i)
  | .firstItem, token => s.takeValue i token
  | .value, token => s.takeValue i token
  | .firstKey, .endObject => .ok s.closeObject
  | .firstKey, token => s.takeKey i token
  | .key, token => s.takeKey i token
  | .colon, .colon =>
    .ok { s with expect := .value, frames := .object s.members s.key :: s.frames }
  | .colon, _ => .error (.at .colon i)
  | .afterValue value, token => s.takeAfter value i token

-- The value that is complete at the end of the text, or what is missing there.
def State.finish (s : State) (last : Nat) : Except StepFault Value :=
  match s.expect with
  | .afterValue value => if s.frames.isEmpty then .ok value else .error (.at .comma last)
  | .value | .firstItem => .error (.at .value last)
  | .key | .firstKey => .error (.at .key last)
  | .colon => .error (.at .colon last)

def readTokens (last : Nat) : State → List (Nat × Token) → Except StepFault Value
  | s, [] => s.finish last
  | s, (i, token) :: rest => do
    let next ← s.step i token
    readTokens last next rest

def startState : State := ⟨.value, [], [], []⟩

-- The value of a text.
def read (chars : List Char) : Except Error Value :=
  if chars.head? = some '\uFEFF' then .error (.at chars .byteOrderMark 0)
  else
    let (tokens, last) := scan chars
    match readTokens last startState tokens with
    | .ok value => .ok value
    | .error (.at fault position) => .error (.at chars fault position)
    | .error (.longNumber digits) => .error (.tooManyDigits digits)

-- The message for a number of too many digits.
def digitLimitMessage (count : Nat) : Text :=
  "Exceeds the limit (4300 digits) for integer string conversion: value has "
    ++ Text.ofNat count ++ " digits; use sys.set_int_max_str_digits() to increase the limit"

def Error.message : Error → Text
  | .malformed fault line column position =>
    fault.message ++ ": line " ++ Text.ofNat line ++ " column " ++ Text.ofNat column
      ++ " (char " ++ Text.ofNat position ++ ")"
  | .tooManyDigits count => digitLimitMessage count

end ReadmeTables.Json
