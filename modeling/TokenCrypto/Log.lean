/-!
# Log set-up

Names of loggers, and the one-time set-up of the root logger: its level comes from the environment,
and one handler shows warnings and worse. A logger that has a handler is left alone.
-/

namespace TokenCrypto.Log

/-- The levels that may be named. -/
inductive Level where
  | debug
  | info
  | warning
  | error
  | critical
  deriving DecidableEq, Repr

namespace Level

def all : List Level := [debug, info, warning, error, critical]

def name : Level → String
  | debug => "DEBUG"
  | info => "INFO"
  | warning => "WARNING"
  | error => "ERROR"
  | critical => "CRITICAL"

def number : Level → Nat
  | debug => 10
  | info => 20
  | warning => 30
  | error => 40
  | critical => 50

/-- The capital of a character. Outside ASCII only those letters matter here whose capital is an
ASCII letter: the i without a dot and the long s. -/
def capital (c : Char) : Char :=
  if c = 'ı' then 'I' else if c = 'ſ' then 'S' else c.toUpper

/-- The level that a text names, in letters of any case. -/
def ofText? (text : String) : Option Level :=
  all.find? fun level => level.name.toList == text.toList.map capital

end Level

/-- A logger: how grave a message has to be for it, and the same for each of its handlers. A new
logger takes everything and has no handler. -/
structure Logger where
  level : Nat := 0
  handlers : List Level := []
  deriving DecidableEq, Repr

/-- The level for a text from the environment; a missing or unknown one stands for information. -/
def levelFor (text : Option String) : Level := (text.bind Level.ofText?).getD .info

/-- A logger set up for a text from the environment, unless it has a handler already. -/
def setUp (text : Option String) (logger : Logger) : Logger :=
  if logger.handlers.isEmpty then
    { level := (levelFor text).number, handlers := [.warning] }
  else logger

def clear (logger : Logger) : Logger := { logger with handlers := [] }

/-! ## Names -/

def rootName : String := "src.jose"

/-- The name of the logger for a module: a name below the root stays, the main module is called so,
and any other name is put below the root without the points in front of it. -/
def loggerName (module : String) : String :=
  if module.startsWith rootName then module
  else if module = "__main__" then rootName ++ ".main"
  else rootName ++ "." ++ String.ofList (module.toList.dropWhile (· = '.'))

end TokenCrypto.Log
