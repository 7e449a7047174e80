/-!
Diagnostic messages.
-/
namespace Tandem.Log

inductive Level
  | error
  | warn
  | info
  | debug
  | trace
  deriving DecidableEq, Repr

def Level.name : Level → String
  | .error => "ERROR"
  | .warn => "WARN"
  | .info => "INFO"
  | .debug => "DEBUG"
  | .trace => "TRACE"

/-- The position of a level, most severe first. -/
def Level.rank : Level → Nat
  | .error => 0
  | .warn => 1
  | .info => 2
  | .debug => 3
  | .trace => 4

/-- Whether messages of this level are shown when the threshold is `limit`. -/
def Level.shownAt (level limit : Level) : Bool := level.rank ≤ limit.rank

structure Line where
  level : Level
  text : String
  deriving DecidableEq, Repr

/-- One line of a log, the level first. -/
def Line.render (l : Line) : String := l.level.name ++ " " ++ l.text

def error (text : String) : Line := ⟨.error, text⟩
def warn (text : String) : Line := ⟨.warn, text⟩
def info (text : String) : Line := ⟨.info, text⟩
def debug (text : String) : Line := ⟨.debug, text⟩
def trace (text : String) : Line := ⟨.trace, text⟩

end Tandem.Log
