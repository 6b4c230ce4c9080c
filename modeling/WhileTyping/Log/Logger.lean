import WhileTyping.Log.Level

/-!
# Loggers

A logger lets through the lines up to its level and marks their level with a tag, in colour or not.
It can be set up from the two variables of the process environment that concern it.
-/

namespace WhileTyping.Log

structure Logger where
  level : Level := .warn
  coloured : Bool := true
  deriving DecidableEq, Repr

/-- The environment variables a logger reads, as raw bytes. -/
structure Settings where
  level : Option ByteArray := none
  noColour : Option ByteArray := none

/-- The level asked for: the text of the variable, unless it is unset, blank or no text at all. -/
def Settings.levelText? (s : Settings) : Option String :=
  (s.level.bind String.fromUTF8?).filter fun text => !(Text.strip text).isEmpty

namespace Logger

def enabled (l : Logger) (level : Level) : Bool := level ≤ l.level

def line (l : Logger) (level : Level) (target message : String) : String :=
  let tag := "[" ++ level.name ++ "]"
  let tag := if l.coloured then level.colour ++ tag ++ "\x1b[0m" else tag
  tag ++ " " ++ target ++ ": " ++ message

/-- What is written for a message: a line, or nothing above the logger's level. -/
def write (l : Logger) (level : Level) (target message : String) : String :=
  if l.enabled level then l.line level target message ++ "\n" else ""

/-- The logger after reading its variables. Colour is off when its variable is set to anything. A
level name that is not known is returned and leaves the level as it was. -/
def configure (l : Logger) (s : Settings) : Logger × Except String Unit :=
  let l := if s.noColour.isSome then { l with coloured := false } else l
  match s.levelText? with
  | none => (l, .ok ())
  | some text =>
    match Level.parse? text with
    | some level => ({ l with level := level }, .ok ())
    | none => (l, .error text)

end Logger

end WhileTyping.Log
