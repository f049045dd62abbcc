/-!
# Kinds of events, and sets of kinds

There are five kinds of events. A set of kinds is one byte with a bit for each; the three bits
above have no meaning, and a set that carries them keeps them until it is truncated.
-/

namespace RenderFarm

inductive EventKind where
  | sceneLoaded
  | lineComputed
  | sceneRendered
  | evalError
  | stdoutWritten
  deriving DecidableEq, Repr

namespace EventKind

/-- Every kind, in the order of their bits. -/
def all : List EventKind :=
  [sceneLoaded, lineComputed, sceneRendered, evalError, stdoutWritten]

def bit : EventKind → UInt8
  | sceneLoaded => 1
  | lineComputed => 2
  | sceneRendered => 4
  | evalError => 8
  | stdoutWritten => 16

def label : EventKind → String
  | sceneLoaded => "SCENE_LOADED"
  | lineComputed => "LINE_COMPUTED"
  | sceneRendered => "SCENE_RENDERED"
  | evalError => "EVAL_ERROR"
  | stdoutWritten => "STDOUT_WRITTEN"

end EventKind

/-- A set of event kinds, one bit for each. -/
structure EventKinds where
  bits : UInt8
  deriving DecidableEq, Inhabited, Repr

namespace EventKinds

def none : EventKinds := ⟨0⟩

def all : EventKinds := ⟨31⟩

/-- The kinds that a display follows. -/
def render : EventKinds := ⟨7⟩

def single (kind : EventKind) : EventKinds := ⟨kind.bit⟩

/-- The bits that have a meaning. -/
def truncate (kinds : EventKinds) : EventKinds := ⟨kinds.bits &&& all.bits⟩

/-- The set with these bits, if all of them have a meaning. -/
def ofBits? (bits : UInt8) : Option EventKinds :=
  if bits &&& all.bits = bits then some ⟨bits⟩ else Option.none

def union (a b : EventKinds) : EventKinds := ⟨a.bits ||| b.bits⟩

def inter (a b : EventKinds) : EventKinds := ⟨a.bits &&& b.bits⟩

def diff (a b : EventKinds) : EventKinds := ⟨a.bits &&& ~~~b.bits⟩

/-- The kinds in exactly one of the two sets. -/
def symmDiff (a b : EventKinds) : EventKinds := ⟨a.bits ^^^ b.bits⟩

/-- The kinds outside a set, among those that have a meaning. -/
def compl (a : EventKinds) : EventKinds := truncate ⟨~~~a.bits⟩

def isEmpty (a : EventKinds) : Bool := a.bits == 0

/-- Whether every kind with a meaning is in the set. -/
def isAll (a : EventKinds) : Bool := a.bits &&& all.bits == all.bits

/-- Whether the first set holds all of the second. -/
def contains (a b : EventKinds) : Bool := a.bits &&& b.bits == b.bits

def intersects (a b : EventKinds) : Bool := a.bits &&& b.bits != 0

/-- Whether the set holds one kind. -/
def has (a : EventKinds) (kind : EventKind) : Bool := a.intersects (single kind)

/-- The kinds in the set, in the order of their bits. -/
def toList (a : EventKinds) : List EventKind := EventKind.all.filter a.has

/-- The labels of the kinds in the set between bars; the empty set is written as a number. -/
def describe (a : EventKinds) : String :=
  let inner := if a.toList.isEmpty then "0x0" else " | ".intercalate (a.toList.map EventKind.label)
  "EventKinds(" ++ inner ++ ")"

end EventKinds

end RenderFarm
