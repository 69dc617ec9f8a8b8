/-!
# Log lines

What the bench notes down while it works: a level, the part that speaks and the message.
-/

namespace GrammarBench

inductive LogLevel where
  | debug
  | warning
  deriving DecidableEq, Repr

def LogLevel.name : LogLevel → String
  | debug => "DEBUG"
  | warning => "WARNING"

structure LogLine where
  level : LogLevel
  speaker : String
  message : String
  deriving DecidableEq, Repr

/-- A log line as a line of text. -/
def LogLine.written (l : LogLine) : String := l.level.name ++ " " ++ l.speaker ++ ": " ++ l.message

end GrammarBench
