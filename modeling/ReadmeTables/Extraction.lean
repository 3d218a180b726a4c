import ReadmeTables.Fragments
import ReadmeTables.Log
import ReadmeTables.Markdown
import ReadmeTables.Reflection.Reading
/-!
Collecting fragments from a reflection document.

A document has sections, a section has modules, and every module whose name begins as asked
and which is neither a variable nor a type alias adds a fragment under the component of its
section.
-/

namespace ReadmeTables

open Json (Value Members)
open Reflection (Node Kind)

-- Where a section's file lies, and the component that it belongs to.
structure SectionPath where
  file : Text
  component : Text
deriving DecidableEq

-- The name of a section is a quoted path; its first directory is the component.
def SectionPath.ofName (name : Text) : SectionPath :=
  let file := name.without '"'
  ⟨file, file.before '/'⟩

namespace Extraction

def defaultPrefix : Text := "MDC"

-- The kinds of values that cannot hold sections.
inductive NotIterable where
  | bool
  | whole
  | real
deriving DecidableEq

def NotIterable.message : NotIterable → Text
  | bool => "'bool' object is not iterable"
  | whole => "'int' object is not iterable"
  | real => "'float' object is not iterable"

-- A section as it is handed over: read already, or still JSON.
inductive Entry where
  | node (node : Node)
  | value (value : Value)

-- A document as it is handed over: a JSON value, or a list of sections.
inductive Root where
  | value (value : Value)
  | entries (entries : List Entry)

-- The section that an entry is; what is no object is none.
def Entry.node? : Entry → Option Node
  | node n => some n
  | value v => Node.ofValue? v

-- The items of a value that should be a list. What counts as nothing has none, and so have
-- texts and objects, whose items are never sections; of other values items cannot be asked.
def items : Value → Except NotIterable (List Value)
  | .null => .ok []
  | .bool b => if b then .error .bool else .ok []
  | .whole n => if n = 0 then .ok [] else .error .whole
  | .real x => if x.isZero then .ok [] else .error .real
  | .text _ => .ok []
  | .object _ => .ok []
  | .list items => .ok items

-- Where the sections of a document are: its children if it is an object, else itself.
def sectionsValue : Value → Value
  | .object members => (Members.get? "children" members).getD .null
  | value => value

def Root.sections : Root → Except NotIterable (List Node)
  | value v => (items (sectionsValue v)).map fun items => items.filterMap Node.ofValue?
  | entries es => .ok (es.filterMap Entry.node?)

-- What a walk has collected and logged.
structure State where
  fragments : Fragments
  log : List Log.Record
deriving DecidableEq

def State.initial : State := ⟨Fragments.empty, []⟩

def State.record (s : State) (level : Log.Level) (message : Text) : State :=
  { s with log := s.log ++ [⟨level, Log.extraction, message⟩] }

def isSkipped (kind : Kind) : Bool :=
  kind = Kind.variableKind ∨ kind = Kind.typeAlias

-- Adds the fragment of a module to a component.
def addModule (start component : Text) (s : State) (module : Node) : State :=
  if ¬ module.name.startsWith start then s
  else if isSkipped module.kind then
    s.record .debug ("Skipping " ++ module.name ++ " (" ++ module.kind.label ++ ")")
  else { s with fragments := s.fragments.append component (Markdown.fragment module) }

-- Goes through the modules of a section; a section without any is passed over in silence.
def addSection (start : Text) (s : State) (section_ : Node) : State :=
  let path := SectionPath.ofName section_.name
  if section_.members.isEmpty then s
  else
    section_.members.foldl (addModule start path.component)
      (s.record .info ("-- generating docs for " ++ path.file))

def addSections (start : Text) (s : State) (sections : List Node) : State :=
  sections.foldl (addSection start) s

-- Goes through a document. Nothing has been collected or logged when this fails.
def addDocument (start : Text) (s : State) (root : Root) : Except NotIterable State :=
  root.sections.map (addSections start s)

end Extraction

end ReadmeTables
