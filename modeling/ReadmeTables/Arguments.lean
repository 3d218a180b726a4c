import ReadmeTables.Number.Literal
import ReadmeTables.Text.Quoted
/-!
The arguments of the command line.

Each argument is first taken on its own: a switch, perhaps with a value behind an equals
sign, or a plain argument. A long switch may be cut short as long as it is clear which one is
meant, and short switches may be written together. After two dashes all arguments are plain.
The first plain argument is the project. Arguments that nothing asks for are collected and
refused at the end.

The conventions are those before version 3.11.9. Since then three things are taken otherwise: a
group with a letter that stands for no switch, as in -vx, a value behind a short switch, as in
-v=v, and two dashes as the value of a long one, as in --log-file=--.
-/

namespace ReadmeTables

inductive Switch where
  | help
  | input
  | dryRun
  | logFile
  | verbose
deriving DecidableEq

namespace Switch

-- All spellings, in the order in which the help lists them.
def spellings : List (Text × Switch) :=
  [("-h", help), ("--help", help), ("--input", input), ("--dry-run", dryRun),
   ("--log-file", logFile), ("-v", verbose), ("--verbose", verbose)]

def ofSpelling? (t : Text) : Option Switch :=
  (spellings.find? fun entry => entry.1 = t).map Prod.snd

-- The switch of a letter behind a single dash.
def ofLetter? (c : CodePoint) : Option Switch :=
  ofSpelling? [.scalar '-', c]

-- The name of a switch in messages.
def name (switch : Switch) : Text :=
  Text.join "/" ((spellings.filter fun entry => entry.2 = switch).map Prod.fst)

def takesValue : Switch → Bool
  | input | logFile => true
  | help | dryRun | verbose => false

end Switch

-- The value of a switch. Two dashes count as no value.
inductive SwitchValue where
  | text (t : Text)
  | void
deriving DecidableEq

structure Arguments where
  project : Text
  input : Option SwitchValue
  dryRun : Bool
  logFile : Option SwitchValue
  verbose : Bool
deriving DecidableEq

namespace Arguments

def default : Arguments :=
  ⟨".", none, false, none, false⟩

-- What is wrong with a command line.
inductive Mistake where
  | ambiguous (argument : Text) (candidates : List Text)
  | missingValue (switch : Switch)
  | unwantedValue (switch : Switch) (value : Text)
  | unrecognized (arguments : List Text)
deriving DecidableEq

def aboutSwitch (switch : Switch) (t : Text) : Text :=
  "argument " ++ switch.name ++ ": " ++ t

def Mistake.message : Mistake → Text
  | ambiguous argument candidates =>
    "ambiguous option: " ++ argument ++ " could match " ++ Text.join ", " candidates
  | missingValue switch => aboutSwitch switch "expected one argument"
  | unwantedValue switch value =>
    aboutSwitch switch ("ignored explicit argument " ++ Text.quoted value)
  | unrecognized arguments => "unrecognized arguments: " ++ Text.join " " arguments

-- An argument on its own. The letters of a group are those after its first switch.
inductive Reading where
  | plain
  | separator
  | long (switch : Switch) (value : Option Text)
  | group (switch : Switch) (letters : Option Text)
  | unknown
deriving DecidableEq

def dash : CodePoint := .scalar '-'

def twoDashes : Text := "--"

-- The parts of a text before and after the first equals sign.
def splitValue (t : Text) : Text × Option Text :=
  let name := t.before (.scalar '=')
  match t.drop name.length with
  | [] => (name, none)
  | _ :: value => (name, some value)

def isDecimal : CodePoint → Bool
  | .scalar c => (Number.decimalValue? c).isSome
  | .surrogate _ => false

def isDigits (t : Text) : Bool :=
  !t.isEmpty && t.all isDecimal

-- Whether a text looks like a negative number, with or without a point. A final line feed
-- makes no difference.
def isNegativeNumber : Text → Bool
  | [] => false
  | c :: rest =>
    let body := if rest.getLast? = some (.scalar '\n') then rest.dropLast else rest
    let fraction := body.dropWhile isDecimal
    c = dash && (isDigits body || (fraction.head? = some (.scalar '.') && isDigits fraction.tail))

-- A switch as it was spelled.
def spelled (spelling : Text) (switch : Switch) (value : Option Text) : Reading :=
  if spelling.startsWith twoDashes then .long switch value else .group switch value

-- What begins with a dash and names no switch. A number is plain, and so is what has a space.
def readRest (t : Text) : Reading :=
  if isNegativeNumber t ∨ CodePoint.scalar ' ' ∈ t then .plain else .unknown

-- A long switch, cut short or not known.
def readLong (t : Text) : Except Mistake Reading :=
  let (name, value) := splitValue t
  match Switch.spellings.filter fun entry => entry.1.startsWith name with
  | [] => .ok (readRest t)
  | [(_, switch)] => .ok (.long switch value)
  | candidates => .error (.ambiguous t (candidates.map Prod.fst))

-- A group of letters behind a single dash.
def readGroup (t letters : Text) : Reading :=
  match letters with
  | [] => .plain
  | letter :: rest =>
    match Switch.ofLetter? letter with
    | some switch => .group switch (some rest)
    | none => readRest t

def read (t : Text) : Except Mistake Reading :=
  match t with
  | [] => .ok .plain
  | c :: rest =>
    if c ≠ dash then .ok .plain
    else
      match Switch.ofSpelling? t with
      | some switch => .ok (spelled t switch none)
      | none =>
        let (name, value) := splitValue t
        match Switch.ofSpelling? name with
        | some switch => .ok (spelled name switch value)
        | none => if t.startsWith twoDashes then readLong t else .ok (readGroup t rest)

-- Takes each argument on its own; after two dashes all are plain.
def readAll : List Text → Except Mistake (List (Text × Reading))
  | [] => .ok []
  | t :: rest =>
    if t = twoDashes then .ok ((t, .separator) :: rest.map fun t => (t, .plain))
    else do
      let reading ← read t
      let readings ← readAll rest
      .ok ((t, reading) :: readings)

-- The switches of a group. None of them takes a value, so the rest of a group must be
-- letters of switches, too.
def groupSwitches (switch : Switch) : Text → Except Mistake (List Switch)
  | [] => .ok [switch]
  | letter :: rest =>
    match Switch.ofLetter? letter with
    | some next => (switch :: ·) <$> groupSwitches next rest
    | none => .error (.unwantedValue switch (letter :: rest))

-- Why a command line gives no arguments to run with.
inductive Stop where
  | help
  | mistake (mistake : Mistake)
deriving DecidableEq

-- The arguments so far, whether the project is among them, and what nothing asks for.
structure State where
  arguments : Arguments
  hasProject : Bool
  extras : List Text
deriving DecidableEq

namespace State

def turnOn (s : State) : Switch → Except Stop State
  | .help => .error .help
  | .dryRun => .ok { s with arguments := { s.arguments with dryRun := true } }
  | .verbose => .ok { s with arguments := { s.arguments with verbose := true } }
  | .input | .logFile => .ok s

def turnAllOn (s : State) (switches : List Switch) : Except Stop State :=
  switches.foldlM turnOn s

def setValue (s : State) (switch : Switch) (value : SwitchValue) : State :=
  match switch with
  | .input => { s with arguments := { s.arguments with input := some value } }
  | .logFile => { s with arguments := { s.arguments with logFile := some value } }
  | .help | .dryRun | .verbose => s

def setProject (s : State) (t : Text) : State :=
  { s with arguments := { s.arguments with project := t }, hasProject := true }

def addExtra (s : State) (t : Text) : State :=
  { s with extras := s.extras ++ [t] }

end State

-- A value behind an equals sign.
def valueOf (t : Text) : SwitchValue :=
  if t = twoDashes then .void else .text t

def mistake (m : Mistake) : Except Stop α :=
  .error (.mistake m)

-- Goes through the arguments. Two dashes before the project or right behind it are dropped.
def gather (s : State) : List (Text × Reading) → Except Stop State
  | [] => .ok s
  | (t, .unknown) :: rest => gather (s.addExtra t) rest
  | (t, .separator) :: rest => gather (if s.hasProject then s.addExtra t else s) rest
  | (t, .plain) :: (u, .separator) :: rest =>
    if s.hasProject then gather ((s.addExtra t).addExtra u) rest else gather (s.setProject t) rest
  | (t, .plain) :: rest =>
    gather (if s.hasProject then s.addExtra t else s.setProject t) rest
  | (_, .group switch none) :: rest => do
    let s ← s.turnOn switch
    gather s rest
  | (_, .group switch (some [])) :: _ => mistake (.unwantedValue switch [])
  | (_, .group switch (some letters)) :: rest => do
    let switches ← (groupSwitches switch letters).mapError .mistake
    let s ← s.turnAllOn switches
    gather s rest
  | (_, .long switch (some value)) :: rest =>
    if switch.takesValue then gather (s.setValue switch (valueOf value)) rest
    else mistake (.unwantedValue switch value)
  | (_, .long switch none) :: rest =>
    if switch.takesValue then
      match rest with
      | (value, .plain) :: rest => gather (s.setValue switch (.text value)) rest
      | _ => mistake (.missingValue switch)
    else do
      let s ← s.turnOn switch
      gather s rest

-- The arguments of a command line.
def ofTexts (texts : List Text) : Except Stop Arguments := do
  let readings ← (readAll texts).mapError .mistake
  let s ← gather ⟨default, false, []⟩ readings
  if s.extras = [] then .ok s.arguments else mistake (.unrecognized s.extras)

end Arguments

end ReadmeTables
