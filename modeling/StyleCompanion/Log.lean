/-
  Log records.

  Key definitions include:
    * `LogLevel`
    * `LogRecord`
-/

namespace StyleCompanion

/- How important a record is. -/
inductive LogLevel where
  | debug
  | info
  | warning
  | error
  | critical
  deriving DecidableEq, Repr

namespace LogLevel

/- The name of a level. -/
def name : LogLevel → String
  | .debug => "DEBUG"
  | .info => "INFO"
  | .warning => "WARNING"
  | .error => "ERROR"
  | .critical => "CRITICAL"

end LogLevel

/- One line of the log. -/
structure LogRecord where
  level : LogLevel
  text : String
  deriving DecidableEq, Repr

namespace LogRecord

/- A record for those who look for faults. -/
def debug (text : String) : LogRecord := ⟨.debug, text⟩

/- A record of the normal course of things. -/
def info (text : String) : LogRecord := ⟨.info, text⟩

/- A record of something unexpected. -/
def warning (text : String) : LogRecord := ⟨.warning, text⟩

/- A record of a failure. -/
def error (text : String) : LogRecord := ⟨.error, text⟩

end LogRecord

end StyleCompanion
