import Freehold.Session.Setup

/-!
# Sessions and their reports

A session carries out steps one after another on a state of its own, in one
store.  Every step is reported with its outcome and with all that happened since
the step before it, the last report being that of the clean-up.
-/

namespace Freehold

namespace Event

def text : Event → String
  | created serial value =>
    let serial := toString serial
    let value := toString value
    s!"new #{serial} {value}"
  | completed serial value =>
    let serial := toString serial
    let value := toString value
    s!"init #{serial} {value}"
  | moved serial =>
    let serial := toString serial
    s!"move #{serial}"
  | dropped serial value =>
    let serial := toString serial
    let value := toString value
    s!"drop #{serial} {value}"
  | createdUnit => "new zst"
  | droppedUnit => "drop zst"
  | remark text => text

end Event

namespace Call

/-- The answer to a request, or the name of the cause of its refusal. -/
def answered (render : α → List Shown) : Except ErrorKind α → List Shown
  | .ok value => render value
  | .error kind => [.text kind.name]

def shown (arena : Option Span) (call : Call) : Shown :=
  let place address size := (Whereabouts.locate arena address size).shown
  let block (block : Block) := [place block.address block.size, .count block.size]
  match call with
  | allocate layout answer =>
    .items ([.text "alloc", .count layout.size, .count layout.align] ++ answered block answer)
  | expand address size wanted answer =>
    .items ([.text "expand", place address size, .count size, .count wanted] ++
      answered (fun size => [.count size]) answer)
  | reallocate address size wanted answer =>
    .items ([.text "realloc", place address size, .count size, .count wanted] ++
      answered block answer)
  | deallocate address layout =>
    .items [.text "dealloc", place address layout.size, .count layout.size,
      .count layout.align]
  | advise address count hint =>
    .items [.text "advise", place address count, .count count, .text hint.name]

end Call

namespace Backend

def gauge : Backend → List (String × Shown)
  | stack arena => [("used", .count arena.used), ("remaining", .count arena.remaining)]
  | freeList list | basic list => [("free", .count list.freeBytes)]
  | heap _ | pages _ => []

end Backend

/-- What happened in a step: its outcome, if it has one, and the state after it. -/
structure Report where
  outcome : Option Outcome
  entries : List Entry
  live : Int
  gauge : List (String × Shown)
  notes : List (String × Shown) := []

namespace Report

/-- A list that is left out of a report when it is empty. -/
def unlessEmpty (name : String) (values : List Shown) : List (String × Shown) :=
  if values.isEmpty then [] else [(name, .items values)]

def answer (report : Report) : List (String × Shown) :=
  (report.outcome.map Outcome.answer).toList

def events (report : Report) : List (String × Shown) :=
  unlessEmpty "events"
    (report.entries.filterMap fun entry => entry.event?.map fun event => .text event.text)

def logs (report : Report) : List (String × Shown) :=
  unlessEmpty "logs"
    (report.entries.filterMap fun entry =>
      entry.log?.map fun log => .items [.text log.1.name, .text log.2])

def calls (arena : Option Span) (report : Report) : List (String × Shown) :=
  unlessEmpty "calls"
    (report.entries.filterMap fun entry => entry.call?.map (Call.shown arena))

/-- The report of a step that works through the recorded allocator. -/
def full (arena : Option Span) (report : Report) : Shown :=
  .fields (report.answer ++ report.events ++ report.logs ++ report.calls arena ++
    [("mem", .fields (("live", .number report.live) :: report.gauge))] ++ report.notes)

/-- The report of a step that calls the allocator itself.  The clean-up is no step, and
only its effect on the allocator is told. -/
def direct (report : Report) : Shown :=
  let logs := if report.outcome.isSome then report.logs else []
  .fields (report.answer ++ logs ++ report.gauge)

/-- The report of a step in which no memory is at stake. -/
def light (report : Report) : Shown :=
  .fields (report.answer ++ report.events ++ report.logs ++ report.notes)

end Report

/-- How a session goes: its steps, what it notes after a step, and its clean-up. -/
structure Session (ι σ : Type) where
  step : ι → σ → Effect (Outcome × σ)
  notes : ι → σ → List (String × Shown)
  finish : σ → Effect Unit

namespace Session

/-- Reports what has happened and starts the next record. -/
def observe (live : Int) (outcome : Option Outcome) (notes : List (String × Shown))
    (store : Store) : Report × Store :=
  ({ outcome := outcome
     entries := store.trace.reverse
     live := live + liveBlocks store.trace
     gauge := store.memory.backend.gauge
     notes := notes },
    { store with trace := [] })

def run (session : Session ι σ) (live : Int) (store : Store) (state : σ) :
    List ι → List Report × Report
  | [] =>
    let finished := (session.finish state).run store
    ([], (observe live none [] finished.2).1)
  | step :: rest =>
    let ((outcome, state), store) := (session.step step state).run store
    let (report, store) := observe live (some outcome) (session.notes step state) store
    let (reports, last) := session.run report.live store state rest
    (report :: reports, last)

/-- A session as a whole: the reports of its steps and of its clean-up. -/
def reports (session : Session ι σ) (setup : Setup) (state : σ) (steps : List ι)
    (render : Report → Shown) : Shown :=
  let (reports, last) := session.run 0 setup.store state steps
  .fields [("steps", .items (reports.map render)), ("end", render last)]

end Session
end Freehold
