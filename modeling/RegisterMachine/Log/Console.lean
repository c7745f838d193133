import RegisterMachine.Log.Timestamp

set_option autoImplicit false

/-!
# Messages and the console

What is worth telling about a computation is a message: a text with a level.  Messages are logged to
a console in the order in which they arise.  It writes them one after the other, as its settings
say, each with the time at which it arises.  A message that the settings drop has its time, too:
what is logged after it arises neither earlier nor later for its not being written.

The settings say which messages are written and what their lines look like.  A message below the
minimum level is not written.  Others make one line each: the time and the level, as far as they are
shown, and the text.  On a terminal with colours warnings are bold and yellow, errors bold and red.
-/

namespace RegisterMachine.Log

/-- How serious a message is. -/
inductive Level where
  /-- Progress and results. -/
  | info
  /-- An expected failure. -/
  | warn
  /-- A run that was given up. -/
  | error
  deriving DecidableEq, Repr, Inhabited

namespace Level

/-- Levels by increasing seriousness. -/
def severity : Level → Nat
  | info => 1
  | warn => 2
  | error => 3

/-- The name under which a level appears in a log. -/
def name : Level → String
  | info => "INFO"
  | warn => "WARN"
  | error => "ERROR"

instance : ToString Level where
  toString := name

instance : Ord Level where
  compare l l' := compare l.severity l'.severity

instance : LE Level where
  le l l' := l.severity ≤ l'.severity

instance (l l' : Level) : Decidable (l ≤ l') :=
  inferInstanceAs (Decidable (l.severity ≤ l'.severity))

theorem le_trans {l l' l'' : Level} (h : l ≤ l') (h' : l' ≤ l'') : l ≤ l'' :=
  Nat.le_trans h h'

end Level

/-- A text to be logged. -/
structure Message where
  level : Level
  text : String
  deriving DecidableEq, Repr, Inhabited

/-! ## Writing messages -/

/-- What a log writes. -/
structure Settings where
  /-- Messages below this level are dropped. -/
  minLevel : Level := .info
  showTimestamp : Bool := true
  showLevel : Bool := true
  color : Bool := false
  deriving DecidableEq, Repr, Inhabited

/-- The terminal sequence that ends all colours and styles. -/
def resetStyle : String := "\x1b[0m"

/-- The terminal sequence that switches to the style of a level. -/
def Level.style : Level → String
  | info => ""
  | warn => "\x1b[1m\x1b[33m"
  | error => "\x1b[1m\x1b[31m"

/-- The name of a level in a column that is wide enough for all of them. -/
def Level.column (level : Level) : String := Alignment.left.pad 5 ' ' level.name

namespace Settings

/-- What stands before the text in a line. -/
def header (s : Settings) (now : Timestamp) (level : Level) : String :=
  (if s.showTimestamp then s!"{now} " else "") ++
    (if s.showLevel then s!"[{level.column}] " else "")

/-- The line of a message, with the line break. -/
def line (s : Settings) (now : Timestamp) (m : Message) : String :=
  s!"{s.header now m.level}{m.text}\n"

/-- What is written for a message. -/
def write (s : Settings) (clock : Instant) (m : Message) : String :=
  if s.minLevel ≤ m.level then
    let line := s.line (.ofInstant clock) m
    if s.color then resetStyle ++ m.level.style ++ line ++ resetStyle else line
  else ""

theorem write_of_lt {s : Settings} {m : Message} (clock : Instant) (h : ¬ s.minLevel ≤ m.level) :
    s.write clock m = "" := by
  simp [write, h]

end Settings

/-! ## The console -/

/-- Where messages are logged to. -/
structure Console where
  settings : Settings := {}
  /-- The time at which the message with the given number arises. -/
  clock : Nat → Instant := fun _ => {}
  /-- The number of messages that have arisen. -/
  arisen : Nat := 0
  written : String := ""

/-- Logs a message. -/
def Console.log (c : Console) (m : Message) : Console :=
  { c with
    arisen := c.arisen + 1
    written := c.written ++ c.settings.write (c.clock c.arisen) m }

end RegisterMachine.Log
