import FormulaLine.Log.Journal
import Mathlib.Data.List.Basic
import Mathlib.Data.List.Nodup

namespace FormulaLine
namespace Log
namespace Journal

/-!
# A journal that is set up again and again

A request that is accepted leaves no trace of those before it: going through a copy
of the outlets detaches every one, and the new ones are attached to an empty list.
What has been decided under the former level is forgotten with it.

That an event reaches the outlets depends on the names of the sources.  The dots of
a name are looked at from its end, and a dot directly before one that has led to no
known source is passed over.  In the name of a part this never hits the dot behind
the name of the program, unless the part itself begins with a dot.  Then it may be
hit, and whether it is depends on the sources known so far.
-/

/-! ## Outlets -/

theorem foldl_detach (journal : Journal) (outlets : List Outlet) :
    outlets.foldl detach journal =
      { journal with outlets := outlets.foldl List.erase journal.outlets } := by
  induction outlets generalizing journal with
  | nil => rfl
  | cons outlet outlets ih => rw [List.foldl_cons, ih, List.foldl_cons, detach]

theorem foldl_erase_self (outlets : List Outlet) : outlets.foldl List.erase outlets = [] := by
  induction outlets with
  | nil => rfl
  | cons outlet outlets ih => rw [List.foldl_cons, List.erase_cons_head, ih]

theorem detachAll_eq (journal : Journal) : journal.detachAll = { journal with outlets := [] } := by
  rw [detachAll, foldl_detach, foldl_erase_self]

/-- An outlet with a new number is not there yet. -/
theorem openSink_eq {journal : Journal}
    (older : ∀ outlet ∈ journal.outlets, outlet.number < journal.opened) (sink : Sink) :
    journal.openSink sink =
      { journal with
        outlets := journal.outlets ++ [⟨journal.opened, sink⟩]
        opened := journal.opened + 1 } := by
  have new : ⟨journal.opened, sink⟩ ∉ journal.outlets := fun member =>
    Nat.lt_irrefl _ (older _ member)
  rw [openSink, attach, if_neg new]

/-- The outlets of sinks that are opened in turn. -/
def outletsFrom (number : Nat) (sinks : List Sink) : List Outlet :=
  (sinks.zipIdx number).map fun numbered => ⟨numbered.2, numbered.1⟩

theorem map_sink_outletsFrom (number : Nat) (sinks : List Sink) :
    (outletsFrom number sinks).map Outlet.sink = sinks := by
  rw [outletsFrom, List.map_map]
  exact List.zipIdx_map_fst number sinks

theorem foldl_openSink {journal : Journal}
    (older : ∀ outlet ∈ journal.outlets, outlet.number < journal.opened) (sinks : List Sink) :
    sinks.foldl openSink journal =
      { journal with
        outlets := journal.outlets ++ outletsFrom journal.opened sinks
        opened := journal.opened + sinks.length } := by
  induction sinks generalizing journal with
  | nil => simp [outletsFrom]
  | cons sink sinks ih =>
      have stillOlder : ∀ outlet ∈ journal.outlets ++ [⟨journal.opened, sink⟩],
          outlet.number < journal.opened + 1 := by
        intro outlet member
        rcases List.mem_append.mp member with old | new
        · exact Nat.lt_succ_of_lt (older outlet old)
        · rw [List.mem_singleton.mp new]
          exact Nat.lt_succ_self _
      rw [List.foldl_cons, openSink_eq older, ih stillOlder]
      simp [outletsFrom, List.zipIdx_cons, Nat.add_assoc, Nat.add_comm 1]

/-- Of the journal before, only what is known is kept. -/
theorem setup_of_accepted {request : Setup} {level : Level} (accepted : request.level = .ok level)
    (journal : Journal) :
    journal.setup request =
      { level := level
        outlets := outletsFrom journal.opened request.sinks
        opened := journal.opened + request.sinks.length
        known := journal.known
        verdicts := [] } := by
  rw [setup, accepted]
  simp only [detachAll_eq, setLevel]
  rw [foldl_openSink (by simp)]
  rfl

theorem setup_of_refused {request : Setup} (refused : request.refusal? ≠ none) (journal : Journal) :
    journal.setup request = journal := by
  rw [setup]
  cases settled : request.level with
  | ok level => simp [Setup.refusal?, settled] at refused
  | error name => rfl

theorem sinks_eq (request : Setup) :
    request.sinks = .console :: ((request.path.filter (· ≠ [])).map .file).toList := by
  rcases request with ⟨name, _ | _ | ⟨c, rest⟩⟩ <;> rfl

theorem nodup_sinks (request : Setup) : request.sinks.Nodup := by
  rw [sinks_eq]
  cases request.path.filter (· ≠ []) with
  | none => simp
  | some path => simp

/-! ## Sources above a source -/

section Above

variable {known : List (List Char)}

theorem aboveReversed_known {name : List Char} (nonempty : name ≠ [])
    (isKnown : name.reverse ∈ known) :
    aboveReversed known ('.' :: name) = name.reverse :: aboveReversed known name := by
  rcases List.exists_cons_of_ne_nil nonempty with ⟨c, rest, rfl⟩
  rw [aboveReversed, if_pos rfl, if_pos isKnown]

theorem aboveReversed_unknown {c : Char} {name : List Char}
    (unknown : (c :: name).reverse ∉ known) :
    aboveReversed known ('.' :: c :: name) = aboveReversed known name := by
  rw [aboveReversed, if_pos rfl, if_neg unknown]

theorem aboveReversed_other {c : Char} (other : c ≠ '.') (name : List Char) :
    aboveReversed known (c :: name) = aboveReversed known name := by
  cases name with
  | nil => rfl
  | cons d rest => rw [aboveReversed, if_neg other]

theorem aboveReversed_of_undotted {name : List Char} (undotted : '.' ∉ name) :
    aboveReversed known name = [] := by
  induction name with
  | nil => rfl
  | cons c name ih =>
      rw [List.mem_cons, not_or] at undotted
      rw [aboveReversed_other (Ne.symm undotted.1), ih undotted.2]

/-- Above a part of the program is the program, at last, and between them are only
sources with longer names.  The part is read from its end, and does not begin with
a dot. -/
theorem aboveReversed_part (isKnown : programName ∈ known) : ∀ part : List Char,
    part.getLast? ≠ some '.' →
      ∃ between, aboveReversed known (part ++ '.' :: programName.reverse) =
          between ++ [programName] ∧
        ∀ source ∈ between, programName.length < source.length
  | [], _ => by
      refine ⟨[], ?_, by simp⟩
      rw [List.nil_append, aboveReversed_known (by decide) (by simpa using isKnown),
        aboveReversed_of_undotted (by decide), List.reverse_reverse, List.nil_append]
  | [c], undotted => by
      have other : c ≠ '.' := by simpa using undotted
      rcases aboveReversed_part isKnown [] (by simp) with ⟨between, above, longer⟩
      exact ⟨between, by rw [List.cons_append, aboveReversed_other other, above], longer⟩
  | c :: d :: part, undotted => by
      rw [List.getLast?_cons_cons] at undotted
      rcases aboveReversed_part isKnown (d :: part) undotted with ⟨between, above, longer⟩
      by_cases dot : c = '.'
      · subst dot
        by_cases found : (d :: part ++ '.' :: programName.reverse).reverse ∈ known
        · refine ⟨(d :: part ++ '.' :: programName.reverse).reverse :: between, ?_, ?_⟩
          · rw [List.cons_append, aboveReversed_known (by simp) found, above]
            rfl
          · rw [List.forall_mem_cons]
            exact ⟨by simp, longer⟩
        · -- the character that is passed over belongs to the part
          have undotted' : part.getLast? ≠ some '.' := by
            cases part with
            | nil => simp
            | cons e part => rwa [List.getLast?_cons_cons] at undotted
          rcases aboveReversed_part isKnown part undotted' with ⟨between, above, longer⟩
          exact ⟨between, (aboveReversed_unknown found).trans above, longer⟩
      · exact ⟨between, by rw [List.cons_append, aboveReversed_other dot, above], longer⟩

end Above

/-- A source below the program whichever other sources are known: the program
itself, or a part whose name does not begin with a dot. -/
def BelowProgram (source : List Char) : Prop :=
  ∃ part, source = sourceName part ∧ part.head? ≠ some '.'

section Lineage

variable {journal : Journal} {source : List Char}

theorem lineage_eq (isKnown : programName ∈ journal.known) (below : BelowProgram source) :
    ∃ between, journal.lineage source = between ++ [programName] ∧ programName ∉ between := by
  rcases below with ⟨part, rfl, undotted⟩
  by_cases whole : part = programName
  · refine ⟨[], ?_, List.not_mem_nil⟩
    rw [sourceName, if_pos whole, lineage, aboveReversed_of_undotted (by decide)]
    rfl
  · have undotted' : part.reverse.getLast? ≠ some '.' := by rwa [List.getLast?_reverse]
    rcases aboveReversed_part isKnown part.reverse undotted' with ⟨between, above, longer⟩
    have reversed : (sourceName part).reverse = part.reverse ++ '.' :: programName.reverse := by
      simp [sourceName, whole]
    refine ⟨sourceName part :: between, ?_, ?_⟩
    · rw [lineage, reversed, above]
      rfl
    · rw [List.mem_cons, not_or]
      constructor
      · intro same
        have size := congrArg List.length same
        simp [sourceName, whole] at size
      · exact fun member => Nat.lt_irrefl _ (longer _ member)

/-- The least level that is recorded below the program. -/
def least (journal : Journal) : Level :=
  if journal.level = .notSet then .warning else journal.level

theorem threshold_eq (isKnown : programName ∈ journal.known) (below : BelowProgram source) :
    journal.threshold source = journal.least := by
  rcases lineage_eq isKnown below with ⟨between, parts, apart⟩
  have unset : ((between.map journal.levelAt).find? (· ≠ .notSet)) = none := by
    rw [List.find?_eq_none]
    intro level member
    rcases List.mem_map.mp member with ⟨other, isBetween, rfl⟩
    have differs : other ≠ programName := fun same => apart (same ▸ isBetween)
    simp [levelAt, differs]
  rw [threshold, parts, List.map_append, List.find?_append, unset, least]
  by_cases isSet : journal.level = .notSet
  · simp [levelAt, isSet]
  · simp [levelAt, isSet]

theorem flatMap_outletsAt_eq (isKnown : programName ∈ journal.known)
    (below : BelowProgram source) :
    (journal.lineage source).flatMap journal.outletsAt = journal.outlets := by
  rcases lineage_eq isKnown below with ⟨between, parts, apart⟩
  have nowhere : between.flatMap journal.outletsAt = [] := by
    rw [List.flatMap_eq_nil_iff]
    intro other isBetween
    have differs : other ≠ programName := fun same => apart (same ▸ isBetween)
    rw [outletsAt, if_neg differs]
  rw [parts, List.flatMap_append, nowhere, List.flatMap_singleton, List.nil_append, outletsAt,
    if_pos rfl]

end Lineage

/-! ## Verdicts -/

/-- What has been decided below the program agrees with the level of the journal. -/
structure WellKept (journal : Journal) : Prop where
  program_known : programName ∈ journal.known
  admitted_iff : ∀ verdict ∈ journal.verdicts, BelowProgram verdict.source →
    (verdict.admitted = true ↔ journal.least.rank ≤ verdict.level.rank)

theorem wellKept_initial : WellKept initial where
  program_known := List.mem_cons_self
  admitted_iff := by simp [initial]

theorem WellKept.admits_iff {journal : Journal} (kept : WellKept journal) {source : List Char}
    (below : BelowProgram source) (level : Level) :
    journal.admits source level = true ↔ journal.least.rank ≤ level.rank := by
  rw [admits]
  split
  · next verdict found =>
      have same := List.find?_some found
      simp only [decide_eq_true_eq] at same
      rw [kept.admitted_iff verdict (List.mem_of_find?_eq_some found) (same.1 ▸ below), same.2]
  · rw [threshold_eq kept.program_known below, decide_eq_true_eq]

theorem WellKept.note {journal : Journal} (kept : WellKept journal) (event : Event) :
    WellKept (journal.note event) where
  program_known := List.mem_insert_of_mem kept.program_known
  admitted_iff := by
    intro verdict member below
    rcases List.mem_cons.mp member with rfl | old
    · exact kept.admits_iff below event.level
    · exact kept.admitted_iff verdict old below

theorem WellKept.setup {journal : Journal} (kept : WellKept journal) (request : Setup) :
    WellKept (journal.setup request) := by
  cases settled : request.level with
  | ok level =>
      rw [setup_of_accepted settled]
      exact ⟨kept.program_known, by simp⟩
  | error name =>
      rw [setup_of_refused (by simp [Setup.refusal?, settled])]
      exact kept

/-! ## Runs -/

/-- What is done to a journal: it is set up, or an event is handed to it. -/
inductive Act where
  | setup (request : Setup)
  | log (event : Event)

/-- The journal after an act. -/
def after (journal : Journal) : Act → Journal
  | .setup request => journal.setup request
  | .log event => journal.note event

/-- The journal after acts of any kind, done in turn. -/
def ofActs (acts : List Act) : Journal :=
  acts.foldl after initial

theorem wellKept_ofActs (acts : List Act) : WellKept (ofActs acts) := by
  apply List.foldlRecOn acts after wellKept_initial
  intro journal kept act _
  cases act with
  | setup request => exact kept.setup request
  | log event => exact kept.note event

/-- Neither events nor refused requests change where events are recorded. -/
theorem foldl_after_of_refused {acts : List Act}
    (refused : ∀ request, .setup request ∈ acts → request.refusal? ≠ none) (journal : Journal) :
    (acts.foldl after journal).level = journal.level ∧
      (acts.foldl after journal).outlets = journal.outlets := by
  induction acts generalizing journal with
  | nil => exact ⟨rfl, rfl⟩
  | cons act acts ih =>
      have later := ih (fun request member => refused request (List.mem_cons_of_mem act member))
      cases act with
      | setup request =>
          have unchanged := setup_of_refused (refused request List.mem_cons_self) journal
          rw [List.foldl_cons, after, unchanged]
          exact later journal
      | log event => exact later (journal.note event)

/-- The last request that is accepted decides where events are recorded. -/
theorem ofActs_of_accepted {request : Setup} {level : Level}
    (accepted : request.level = .ok level) (former : List Act) {later : List Act}
    (refused : ∀ other, .setup other ∈ later → other.refusal? ≠ none) :
    (ofActs (former ++ .setup request :: later)).level = level ∧
      (ofActs (former ++ .setup request :: later)).sinks = request.sinks := by
  rcases foldl_after_of_refused refused ((ofActs former).setup request) with
    ⟨levelKept, outletsKept⟩
  rw [ofActs, List.foldl_append, List.foldl_cons]
  constructor
  · exact levelKept.trans (by rw [setup_of_accepted accepted])
  · rw [sinks]
    refine (congrArg (List.map Outlet.sink) outletsKept).trans ?_
    rw [setup_of_accepted accepted, map_sink_outletsFrom]

/-! ## Recording -/

/-- What is written for one event below the program. -/
theorem WellKept.entries_eq {journal : Journal} (kept : WellKept journal)
    (isOpen : journal.outlets ≠ []) (stamp : List Char) {event : Event}
    (below : BelowProgram event.source) :
    journal.entries stamp event =
      if journal.least.rank ≤ event.level.rank then
        journal.sinks.map fun sink => ⟨sink, event.line stamp ++ ['\n']⟩
      else [] := by
  have reached := flatMap_outletsAt_eq kept.program_known below
  rcases List.exists_cons_of_ne_nil isOpen with ⟨outlet, outlets, parts⟩
  by_cases grave : journal.least.rank ≤ event.level.rank
  · rw [entries, if_pos ((kept.admits_iff below event.level).mpr grave), if_pos grave, reached,
      sinks, parts, List.map_map]
    rfl
  · rw [entries, if_neg (mt (kept.admits_iff below event.level).mp grave), if_neg grave]

/-- What is written for events below the program: nothing of it depends on the
events before. -/
theorem WellKept.written_eq {journal : Journal} (kept : WellKept journal)
    (isOpen : journal.outlets ≠ []) (stamp : List Char) {events : List Event}
    (below : ∀ event ∈ events, BelowProgram event.source) :
    journal.written stamp events =
      (events.filter fun event => journal.least.rank ≤ event.level.rank).flatMap fun event =>
        journal.sinks.map fun sink => ⟨sink, event.line stamp ++ ['\n']⟩ := by
  induction events generalizing journal with
  | nil => rfl
  | cons event events ih =>
      rw [List.forall_mem_cons] at below
      have later := ih (kept.note event) isOpen below.2
      rw [written, kept.entries_eq isOpen stamp below.1, later]
      by_cases grave : journal.least.rank ≤ event.level.rank
      · rw [if_pos grave, List.filter_cons_of_pos (by simpa using grave), List.flatMap_cons]
        rfl
      · rw [if_neg grave, List.filter_cons_of_neg (by simpa using grave), List.nil_append]
        rfl

/-- A sink that is open once gets every line once. -/
theorem contents_eq {journal : Journal} {stamp : List Char} {events recorded : List Event}
    (written : journal.written stamp events = recorded.flatMap fun event =>
      journal.sinks.map fun sink => ⟨sink, event.line stamp ++ ['\n']⟩)
    (nodup : journal.sinks.Nodup) {sink : Sink} (member : sink ∈ journal.sinks) :
    journal.contents stamp sink events =
      recorded.flatMap fun event => event.line stamp ++ ['\n'] := by
  have once : journal.sinks.filter (fun other => other == sink) = [sink] := by
    rw [List.filter_beq, List.count_eq_one_of_mem nodup member, List.replicate_one]
  have share (text : List Char) :
      ((journal.sinks.map fun sink => Entry.mk sink text).filter
        fun entry => entry.sink == sink) = [⟨sink, text⟩] := by
    rw [List.filter_map]
    exact congrArg (List.map fun sink => Entry.mk sink text) once
  rw [contents, written, List.filter_flatMap, List.flatMap_assoc]
  simp only [share, List.flatMap_singleton]

/-- After the last accepted request, whatever was done before and whatever has been
logged or refused since, the journal has the level and the sinks of that request,
each opened once, and an event below the program is written once to each of them,
in order, if its level is grave enough. -/
theorem reconfigured {former later : List Act} {request : Setup} {level : Level}
    (accepted : request.level = .ok level)
    (refused : ∀ other, .setup other ∈ later → other.refusal? ≠ none) :
    let journal := ofActs (former ++ .setup request :: later)
    journal.level = level ∧
    journal.sinks = .console :: ((request.path.filter (· ≠ [])).map .file).toList ∧
    journal.sinks.Nodup ∧
    (∀ (present : Journal) other, other.refusal? ≠ none → present.setup other = present) ∧
    ∀ stamp events, (∀ event ∈ events, BelowProgram event.source) →
      let least := if level = .notSet then Level.warning else level
      let recorded := events.filter fun event => least.rank ≤ event.level.rank
      journal.written stamp events = (recorded.flatMap fun event =>
        journal.sinks.map fun sink => ⟨sink, event.line stamp ++ ['\n']⟩) ∧
      ∀ sink ∈ journal.sinks, journal.contents stamp sink events =
        recorded.flatMap fun event => event.line stamp ++ ['\n'] := by
  intro journal
  rcases ofActs_of_accepted accepted former refused with ⟨levelOf, sinksOf⟩
  have kept : WellKept journal := wellKept_ofActs _
  have nodup : journal.sinks.Nodup := sinksOf ▸ nodup_sinks request
  have shown : journal.sinks = .console :: ((request.path.filter (· ≠ [])).map .file).toList :=
    sinksOf.trans (sinks_eq request)
  have isOpen : journal.outlets ≠ [] := by
    intro none
    rw [sinks, none] at shown
    cases shown
  refine ⟨levelOf, shown, nodup, fun present other refused => setup_of_refused refused present, ?_⟩
  intro stamp events below
  have written := kept.written_eq isOpen stamp below
  rw [least, levelOf] at written
  exact ⟨written, fun sink member => contents_eq written nodup member⟩

theorem reconfigured_of_session :
    let former : List Act :=
      [.log ⟨sourceName ".x".toList, .info, "early".toList, none⟩,
        .setup ⟨"error".toList, some "log".toList⟩,
        .log ⟨sourceName "cli".toList, .info, "lost".toList, none⟩]
    let request : Setup := ⟨"info".toList, some "log".toList⟩
    let later : List Act := [.setup ⟨"_styles".toList, none⟩]
    let event : Event := ⟨sourceName "cli".toList, .info, "hi".toList, none⟩
    request.level = .ok .info ∧
    (∀ other, .setup other ∈ later → other.refusal? ≠ none) ∧
    BelowProgram event.source ∧
    ∀ sink ∈ [Sink.console, .file "log".toList],
      (ofActs (former ++ .setup request :: later)).contents "now".toList sink [event] =
        "now [INFO] implicalc.cli: hi\n".toList := by
  intro former request later event
  have refused : ∀ other, .setup other ∈ later → other.refusal? ≠ none := by
    intro other member
    cases List.mem_singleton.mp member
    decide
  have below : BelowProgram event.source := ⟨"cli".toList, rfl, by decide⟩
  rcases @reconfigured former later request .info rfl refused with ⟨-, sinks, -, -, recorded⟩
  refine ⟨rfl, refused, below, ?_⟩
  intro sink member
  refine ((recorded "now".toList [event] (by simpa using below)).2 sink (sinks ▸ member)).trans ?_
  rfl

/-- An event of a part whose name begins with a dot is not recorded, although its
level is that of the journal; with two dots it depends on what else is known. -/
theorem unrecorded_behind_dot :
    let journal := ofActs [.setup ⟨"info".toList, none⟩]
    let dotted : Event := ⟨sourceName ".x".toList, .info, "hi".toList, none⟩
    let twice : Event := ⟨sourceName "..x".toList, .info, "hi".toList, none⟩
    let dot : Event := ⟨sourceName ".".toList, .info, "hi".toList, none⟩
    journal.sinks = [.console] ∧ journal.least.rank ≤ dotted.level.rank ∧
      journal.contents [] .console [dotted] = [] ∧
      journal.contents [] .console [twice] = " [INFO] implicalc...x: hi\n".toList ∧
      journal.contents [] .console [dot, twice] = [] := by
  decide

end Journal
end Log
end FormulaLine
