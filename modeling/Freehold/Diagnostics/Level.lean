/-!
# Levels and styled text

A record has one of five levels of severity.  A level lets through the records
that are at least as severe as itself.  For a terminal, a text is wrapped in the
codes that make it bold and colored; each level has its color and a label of
five characters.
-/

namespace Freehold

inductive Level where
  | trace
  | debug
  | info
  | warn
  | error
  deriving DecidableEq

namespace Level

def all : List Level := [trace, debug, info, warn, error]

def severity : Level → Nat
  | trace => 0
  | debug => 1
  | info => 2
  | warn => 3
  | error => 4

def name : Level → String
  | trace => "Trace"
  | debug => "Debug"
  | info => "Info"
  | warn => "Warn"
  | error => "Error"

def ofName? (text : String) : Option Level :=
  all.find? (fun level => level.name == text)

def admits (threshold level : Level) : Bool :=
  decide (threshold.severity ≤ level.severity)

end Level

inductive Color where
  | darkGray
  | red
  | green
  | yellow
  | blue
  | magenta
  deriving DecidableEq

namespace Color

def all : List Color := [darkGray, red, green, yellow, blue, magenta]

def name : Color → String
  | darkGray => "DarkGray"
  | red => "Red"
  | green => "Green"
  | yellow => "Yellow"
  | blue => "Blue"
  | magenta => "Magenta"

def ofName? (text : String) : Option Color :=
  all.find? (fun color => color.name == text)

/-- The terminal code of a foreground color: dark ones from 30, light ones from 90. -/
def foreground : Color → Nat
  | darkGray => 90
  | red => 31
  | green => 32
  | yellow => 33
  | blue => 34
  | magenta => 35

def paint (color : Color) (text : String) : String :=
  let code := toString color.foreground
  s!"\x1b[{code};1m{text}\x1b[0m"

end Color

namespace Level

def color : Level → Color
  | trace => .magenta
  | debug => .blue
  | info => .green
  | warn => .yellow
  | error => .red

def label : Level → String
  | trace => "TRACE"
  | debug => "DEBUG"
  | info => " INFO"
  | warn => " WARN"
  | error => "ERROR"

def styled (level : Level) : String := level.color.paint level.label

end Level
end Freehold
