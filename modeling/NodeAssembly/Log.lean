/-! The records that parsing and running leave behind. A record has a level, a
message and named fields. -/

namespace NodeAssembly

inductive LogLevel where
  | debug
  | warning
deriving DecidableEq, Repr

structure LogRecord where
  level : LogLevel
  message : String
  fields : List (String × String)
deriving DecidableEq, Repr

/-- Whoever has a logger adds its fields to every record it makes. Without one
nothing is recorded. -/
structure Logger where
  fields : List (String × String)
deriving DecidableEq, Repr

/-- All records so far, the latest first. -/
abbrev Log := List LogRecord

def Log.add (log : Log) (logger : Option Logger) (level : LogLevel) (message : String)
    (fields : List (String × String)) : Log :=
  match logger with
  | some logger => ⟨level, message, logger.fields ++ fields⟩ :: log
  | none => log

/-- A logger for part of the work, with one more field. -/
def Logger.within (logger : Logger) (name text : String) : Logger :=
  ⟨logger.fields ++ [(name, text)]⟩

end NodeAssembly
