import FormulaLine.Log.Event

namespace FormulaLine
namespace Log

/-!
The journal: which events are recorded, and where.

Setting the journal up replaces its level and closes all of its outlets before it
opens new ones.  An event belongs to a source, and a source passes what it admits
to itself and to the known sources above it, which are told by the dots of its name.
Of these the whole program alone has a level and outlets.  Where no outlet is
reached, the console shows the bare text of warnings and graver events.

Whether a source admits a level is decided once and remembered until the level of
the journal is set again.
-/

/-- Where lines are written. -/
inductive Sink where
  | console
  | file (path : List Char)
  deriving DecidableEq

/-- A sink that has been opened for writing. -/
structure Outlet where
  /-- How many outlets were opened before. -/
  number : Nat
  sink : Sink
  deriving DecidableEq

/-- A request to set the journal up. -/
structure Setup where
  levelName : List Char
  /-- The file that is to be written besides the console. -/
  path : Option (List Char)

namespace Setup

def level (request : Setup) : Except Level.ReservedName Level :=
  Level.ofName request.levelName

/-- The reason for which the request is refused. -/
def refusal? (request : Setup) : Option Level.ReservedName :=
  match request.level with
  | .ok _ => none
  | .error name => some name

/-- The wanted sinks: the console, and the file if its path is not empty. -/
def sinks (request : Setup) : List Sink :=
  match request.path with
  | some (c :: rest) => [.console, .file (c :: rest)]
  | _ => [.console]

/-- The reason for which the first of the refused requests is refused. -/
def firstRefusal? (requests : List Setup) : Option Level.ReservedName :=
  requests.findSome? refusal?

end Setup

/-- What has been decided on events of one level from one source. -/
structure Verdict where
  source : List Char
  level : Level
  admitted : Bool

structure Journal where
  /-- The level of the whole program. -/
  level : Level
  /-- The outlets of the whole program, in the order in which they are written. -/
  outlets : List Outlet
  /-- How many outlets have been opened. -/
  opened : Nat
  /-- The names of the sources that have been asked for. -/
  known : List (List Char)
  /-- What has been decided since the level was set. -/
  verdicts : List Verdict

namespace Journal

/-- The journal before it is set up. -/
def initial : Journal where
  level := .notSet
  outlets := []
  opened := 0
  known := [programName]
  verdicts := []

def sinks (journal : Journal) : List Sink :=
  journal.outlets.map Outlet.sink

/-! ### Setting up -/

def setLevel (journal : Journal) (level : Level) : Journal :=
  { journal with level := level, verdicts := [] }

def detach (journal : Journal) (outlet : Outlet) : Journal :=
  { journal with outlets := journal.outlets.erase outlet }

/-- Detaches the outlets one by one, going through the list as it is at first. -/
def detachAll (journal : Journal) : Journal :=
  journal.outlets.foldl detach journal

/-- Adds an outlet that is not there yet. -/
def attach (journal : Journal) (outlet : Outlet) : Journal :=
  if outlet ∈ journal.outlets then journal
  else { journal with outlets := journal.outlets ++ [outlet] }

/-- Opens a sink and attaches the outlet. -/
def openSink (journal : Journal) (sink : Sink) : Journal :=
  { journal with opened := journal.opened + 1 }.attach ⟨journal.opened, sink⟩

/-- Sets the journal up anew.  A request that is refused leaves it as it is. -/
def setup (journal : Journal) (request : Setup) : Journal :=
  match request.level with
  | .ok level => request.sinks.foldl openSink (journal.setLevel level).detachAll
  | .error _ => journal

/-- The journal after it is set up by each request in turn. -/
def ofSetups (requests : List Setup) : Journal :=
  requests.foldl setup initial

/-! ### Sources -/

/-- The known sources above a source, nearest first, where its name is read from
its end.  Each dot ends the name of a source that may be above.  If that source is
not known, the character before the dot is passed over without being looked at. -/
def aboveReversed (known : List (List Char)) : List Char → List (List Char)
  | [] => []
  | [_] => []
  | c :: d :: rest =>
    if c = '.' then
      if (d :: rest).reverse ∈ known then (d :: rest).reverse :: aboveReversed known (d :: rest)
      else aboveReversed known rest
    else aboveReversed known (d :: rest)

/-- A source, and the known sources above it. -/
def lineage (journal : Journal) (source : List Char) : List (List Char) :=
  source :: aboveReversed journal.known source.reverse

/-- The level of one source by itself. -/
def levelAt (journal : Journal) (source : List Char) : Level :=
  if source = programName then journal.level else .notSet

/-- The outlets of one source by itself. -/
def outletsAt (journal : Journal) (source : List Char) : List Outlet :=
  if source = programName then journal.outlets else []

/-- The least level that a source admits: the first that is set on its lineage, or
that of warnings. -/
def threshold (journal : Journal) (source : List Char) : Level :=
  (((journal.lineage source).map journal.levelAt).find? (· ≠ .notSet)).getD .warning

/-- Whether events of the level from the source are recorded. -/
def admits (journal : Journal) (source : List Char) (level : Level) : Bool :=
  match journal.verdicts.find? fun v => v.source = source ∧ v.level = level with
  | some v => v.admitted
  | none => (journal.threshold source).rank ≤ level.rank

/-! ### Recording -/

/-- The journal after an event has been recorded or not. -/
def note (journal : Journal) (event : Event) : Journal :=
  { journal with
    known := journal.known.insert event.source
    verdicts := ⟨event.source, event.level, journal.admits event.source event.level⟩ ::
      journal.verdicts }

/-- Something written to a sink. -/
structure Entry where
  sink : Sink
  text : List Char
  deriving DecidableEq

/-- What is written for an event at the time given by `stamp`. -/
def entries (journal : Journal) (stamp : List Char) (event : Event) : List Entry :=
  if journal.admits event.source event.level then
    match (journal.lineage event.source).flatMap journal.outletsAt with
    | [] =>
      if Level.warning.rank ≤ event.level.rank then [⟨.console, event.body ++ ['\n']⟩] else []
    | outlets => outlets.map fun outlet => ⟨outlet.sink, event.line stamp ++ ['\n']⟩
  else []

/-- What is written for several events, one after the other. -/
def written (stamp : List Char) (journal : Journal) : List Event → List Entry
  | [] => []
  | event :: rest => journal.entries stamp event ++ (journal.note event).written stamp rest

/-- What a sink holds after the events. -/
def contents (journal : Journal) (stamp : List Char) (sink : Sink) (events : List Event) :
    List Char :=
  ((journal.written stamp events).filter fun entry => entry.sink == sink).flatMap Entry.text

end Journal
end Log
end FormulaLine
