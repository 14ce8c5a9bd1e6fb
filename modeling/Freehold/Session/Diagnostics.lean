import Freehold.Session.Report

/-!
# Sessions at the diagnostics desk

Records and traps go through a desk: a threshold, a sink for the records that
pass it, and a handler that sees every trap before it takes effect.  The steps of
these sessions log, trip traps and exchange the sink, the handler and the
threshold.  The library's own handler writes a record of level `error`.
-/

namespace Freehold

/-- The sink keeps records, or announces each of them. -/
inductive Sink where
  | keeping
  | announcing
  deriving DecidableEq

/-- The handler passes traps on, announces them, or reports them to the sink. -/
inductive TrapHandler where
  | passing
  | announcing
  | reporting
  deriving DecidableEq

structure Desk where
  threshold : Level := .warn
  sink : Sink := .keeping
  handler : TrapHandler := .passing

namespace Desk

def emit (desk : Desk) (level : Level) (message : String) : List Entry :=
  if desk.threshold.admits level then
    match desk.sink with
    | .keeping => [.log level message]
    | .announcing =>
      let level := level.name
      [.event (.remark s!"second sink: {level} {message}")]
  else []

/-- What a trap leaves behind, and the trap as the caller comes to know it. -/
def handle (desk : Desk) (trap : Trap) : List Entry × Trap :=
  match desk.handler with
  | .passing => ([], { message := trap.text })
  | .announcing =>
    let intercepted := trap.text
    ([.event (.remark s!"second handler: {intercepted}")], { message := "trapped" })
  | .reporting => (desk.emit .error trap.report, { message := "trapped" })

inductive Step where
  | maxLevel
  | setLevel (level : Level)
  | enabled (level : Level)
  | format (level : Level)
  | log (level : Level) (text : String) (n : Int)
  | install (sink : Sink)
  | style (color : Color) (text : String)
  | check (n limit : Int) (text : Option String)
  | trap (text : String) (n : Int)
  | handler (handler : TrapHandler)
  | unknown

def message (text : String) (n : Int) : String :=
  let n := toString n
  s!"{text} {n}"

def step (desk : Desk) : Step → Outcome × List Entry × Desk
  | .maxLevel => (.done (.text desk.threshold.name), [], desk)
  | .setLevel level => (.done .nothing, [], { desk with threshold := level })
  | .enabled level => (.done (.flag (desk.threshold.admits level)), [], desk)
  | .format level => (.done (.text level.styled), [], desk)
  | .log level text n => (.done .nothing, desk.emit level (message text n), desk)
  | .install sink => (.done .nothing, [], { desk with sink := sink })
  | .style color text => (.done (.text (color.paint text)), [], desk)
  | .check n limit text =>
    if n < limit then (.done .nothing, [], desk)
    else
      let text := (text.map (fun text => message text n)).getD ""
      let (entries, trap) := desk.handle { condition := "n < limit", message := text }
      (.trapped trap, entries, desk)
  | .trap text n =>
    let (entries, trap) := desk.handle { message := message text n }
    (.trapped trap, entries, desk)
  | .handler handler => (.done .nothing, [], { desk with handler := handler })
  | .unknown => (.refused .noSuchStep, [], desk)

def reports (desk : Desk) : List Step → List Report
  | [] => []
  | step :: rest =>
    let (outcome, entries, desk) := desk.step step
    let report : Report :=
      { outcome := some outcome, entries := entries, live := 0, gauge := [] }
    report :: desk.reports rest

def report (desk : Desk) (steps : List Step) : Shown :=
  .fields [("steps", .items ((desk.reports steps).map Report.light))]

end Desk
end Freehold
