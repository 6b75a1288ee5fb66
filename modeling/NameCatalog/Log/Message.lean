import NameCatalog.Text.Pieces

/-!
# Log messages

A message has a severity and the name of the logger that it comes from. Severities are ranked, and
each is known by a word.
-/

namespace NameCatalog

inductive Severity where
  | debug
  | info
  | warning
  | error
  | critical
deriving DecidableEq, Repr

namespace Severity

def word : Severity → Text
  | debug => "DEBUG"
  | info => "INFO"
  | warning => "WARNING"
  | error => "ERROR"
  | critical => "CRITICAL"

def rank : Severity → Nat
  | debug => 10
  | info => 20
  | warning => 30
  | error => 40
  | critical => 50

def all : List Severity := [debug, info, warning, error, critical]

def ofWord? (s : Text) : Option Severity :=
  all.find? (·.word = s)

@[simp] theorem ofWord?_word (s : Severity) : ofWord? s.word = some s := by
  cases s <;> decide

theorem word_of_ofWord? {s : Text} {severity : Severity} (h : ofWord? s = some severity) :
    severity.word = s := by
  simpa using List.find?_some h

end Severity

/-- The logger that all others belong to. -/
def rootLogger : Text := "root"

/-- The name of a logger in its messages; the empty name is that of the root. -/
def loggerName (s : Text) : Text := if s = "" then rootLogger else s

structure Message where
  severity : Severity
  logger : Text
  text : Text
deriving DecidableEq, Repr

inductive LineField where
  | time
  | severity
  | logger
  | text
  | fixed (s : Text)
deriving DecidableEq, Repr

def lineLayout : List LineField :=
  [.time, .fixed " - ", .severity, .fixed " - [", .logger, .fixed "] - ", .text]

def LineField.template : LineField → Text
  | time => "%(asctime)s"
  | severity => "%(levelname)s"
  | logger => "%(name)s"
  | text => "%(message)s"
  | fixed s => s

def LineField.fill (moment : Text) (m : Message) : LineField → Text
  | time => moment
  | severity => m.severity.word
  | logger => m.logger
  | text => m.text
  | fixed s => s

def lineTemplate : Text :=
  Text.join "" (lineLayout.map LineField.template)

def timeTemplate : Text := "%Y-%m-%dT%H:%M:%S"

def Message.line (m : Message) (time : Text) : Text :=
  Text.join "" (lineLayout.map (LineField.fill time m))

end NameCatalog
