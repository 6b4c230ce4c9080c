import WhileTyping.Text.Blank

/-!
# Log levels

Levels from the most severe to the most detailed. A level is read from its name in any case of ASCII
letters, with blanks around it.
-/

namespace WhileTyping.Log

inductive Level where
  | error
  | warn
  | info
  | debug
  | trace
  deriving DecidableEq, Repr

namespace Level

def rank : Level → Nat
  | .error => 0
  | .warn => 1
  | .info => 2
  | .debug => 3
  | .trace => 4

instance : LE Level := ⟨fun a b => a.rank ≤ b.rank⟩

instance (a b : Level) : Decidable (a ≤ b) := inferInstanceAs (Decidable (a.rank ≤ b.rank))

instance : Ord Level := ⟨fun a b => compare a.rank b.rank⟩

def name : Level → String
  | .error => "ERROR"
  | .warn => "WARN"
  | .info => "INFO"
  | .debug => "DEBUG"
  | .trace => "TRACE"

/-- The terminal sequence that starts the colour of a level's tag. -/
def colour : Level → String
  | .error => "\x1b[31m"
  | .warn => "\x1b[33m"
  | .info => "\x1b[32m"
  | .debug => "\x1b[36m"
  | .trace => "\x1b[35m"

def ofLowerCase? : String → Option Level
  | "error" => some .error
  | "warn" | "warning" => some .warn
  | "info" => some .info
  | "debug" => some .debug
  | "trace" => some .trace
  | _ => none

def parse? (s : String) : Option Level := ofLowerCase? ((Text.strip s).map Char.toLower)

/-- What is said of a text that names no level. -/
def unknownMessage (s : String) : String := "invalid log level `" ++ s ++ "`"

end Level

end WhileTyping.Log
