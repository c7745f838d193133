import RegisterMachine.Log.Console

set_option autoImplicit false

/-!
# What a console has written

The text on a console is made of the entries of the messages that have arisen, in their order, less
those below the minimum level.  Neither the times nor the entries depend on that level, so a higher
one takes away the entries of some messages and changes nothing about the others.
-/

namespace RegisterMachine.Log

/-- A message and the time at which it has arisen. -/
structure Stamped where
  time : Instant
  message : Message

/-- The mark of a level in the lines that show it. -/
def Level.mark : Level → String
  | info => "[INFO ] "
  | warn => "[WARN ] "
  | error => "[ERROR] "

/-- The terminal sequences before the lines of a level, where lines are in colour. -/
def Level.colours : Level → String
  | info => "\x1b[0m"
  | warn => "\x1b[0m\x1b[1m\x1b[33m"
  | error => "\x1b[0m\x1b[1m\x1b[31m"

theorem Level.column_eq_mark (level : Level) : "[" ++ level.column ++ "] " = level.mark := by
  cases level <;> decide +kernel

theorem Level.reset_append_style (level : Level) : resetStyle ++ level.style = level.colours := by
  cases level <;> decide +kernel

namespace Settings

variable {s : Settings} {level : Level} {entries : List Stamped}

/-- The entry of a message that is written: one line with the time and the level, as far as they are
shown, and the text, in colour if there are to be colours. -/
def entry (s : Settings) (e : Stamped) : String :=
  (if s.color then e.message.level.colours else "") ++
    (if s.showTimestamp then s!"{Timestamp.ofInstant e.time} " else "") ++
    (if s.showLevel then e.message.level.mark else "") ++
    e.message.text ++ "\n" ++ (if s.color then "\x1b[0m" else "")

/-- The text of some entries. -/
def text (s : Settings) (entries : List Stamped) : String := String.join (entries.map s.entry)

/-- The settings with another minimum level. -/
def atLevel (s : Settings) (level : Level) : Settings := { s with minLevel := level }

@[simp] theorem text_nil (s : Settings) : s.text [] = "" := rfl

@[simp] theorem text_cons (s : Settings) (e : Stamped) (entries : List Stamped) :
    s.text (e :: entries) = s.entry e ++ s.text entries := by
  simp [text]

theorem header_eq (s : Settings) (time : Timestamp) (level : Level) :
    s.header time level = (if s.showTimestamp then s!"{time} " else "") ++
      if s.showLevel then level.mark else "" := by
  rw [header, ← Level.column_eq_mark]
  rfl

/-- What is written for a message that is not below the minimum level is its entry. -/
theorem write_of_le {e : Stamped} (h : s.minLevel ≤ e.message.level) :
    s.write e.time e.message = s.entry e := by
  have hline : s.line (.ofInstant e.time) e.message =
      s.header (.ofInstant e.time) e.message.level ++ e.message.text ++ "\n" := rfl
  simp only [write, if_pos h, hline, header_eq, entry, ← Level.reset_append_style]
  cases s.color <;> simp [String.append_assoc, resetStyle]

/-- The entry of a message is its text between what depends on its time and its level alone. -/
theorem exists_entry_eq (s : Settings) (time : Instant) (level : Level) :
    ∃ before after : String, ∀ text : String,
      s.entry ⟨time, ⟨level, text⟩⟩ = before ++ text ++ "\n" ++ after := by
  refine ⟨(if s.color then level.colours else "") ++
    (if s.showTimestamp then s!"{Timestamp.ofInstant time} " else "") ++
    (if s.showLevel then level.mark else ""), if s.color then "\x1b[0m" else "", fun text => ?_⟩
  rw [entry]

theorem text_cons_ne_empty (s : Settings) (e : Stamped) (entries : List Stamped) :
    s.text (e :: entries) ≠ "" := by
  obtain ⟨before, after, hentry⟩ := s.exists_entry_eq e.time e.message.level
  rw [text_cons, show s.entry e = _ from hentry e.message.text]
  intro hempty
  simpa using congrArg String.toList hempty

end Settings

/-- The entries of the messages that are not below a level. -/
def fromLevel (level : Level) (entries : List Stamped) : List Stamped :=
  entries.filter fun e => decide (level ≤ e.message.level)

theorem fromLevel_cons_of_le {level : Level} {e : Stamped} (entries : List Stamped)
    (h : level ≤ e.message.level) :
    fromLevel level (e :: entries) = e :: fromLevel level entries := by
  simp [fromLevel, h]

theorem fromLevel_cons_of_not_le {level : Level} {e : Stamped} (entries : List Stamped)
    (h : ¬ level ≤ e.message.level) :
    fromLevel level (e :: entries) = fromLevel level entries := by
  simp [fromLevel, h]

/-- Messages below a level may be removed at any time. -/
theorem fromLevel_fromLevel_of_le {low high : Level} (h : low ≤ high) (entries : List Stamped) :
    fromLevel high (fromLevel low entries) = fromLevel high entries := by
  rw [fromLevel, fromLevel, List.filter_filter]
  refine List.filter_congr fun e _ => ?_
  rw [Bool.eq_iff_iff]
  simp only [Bool.and_eq_true, decide_eq_true_eq]
  exact ⟨And.left, fun hhigh => ⟨hhigh, Level.le_trans h hhigh⟩⟩

theorem Level.info_le (level : Level) : Level.info ≤ level := by
  cases level <;> decide

theorem Level.le_error (level : Level) : level ≤ Level.error := by
  cases level <;> decide

/-- Nothing is below the least level. -/
theorem fromLevel_info (entries : List Stamped) : fromLevel .info entries = entries := by
  simp [fromLevel, Level.info_le]

namespace Console

variable {c : Console} {m : Message} {messages messages' : List Message}

/-- Logs several messages, the first one first. -/
def logAll (c : Console) (messages : List Message) : Console := messages.foldl log c

/-- The messages with the times at which they arise if they are logged to this console next. -/
def stamped (c : Console) (messages : List Message) : List Stamped :=
  messages.mapIdx fun k m => ⟨c.clock (c.arisen + k), m⟩

@[simp] theorem settings_log (c : Console) (m : Message) : (c.log m).settings = c.settings := rfl

@[simp] theorem clock_log (c : Console) (m : Message) : (c.log m).clock = c.clock := rfl

@[simp] theorem arisen_log (c : Console) (m : Message) : (c.log m).arisen = c.arisen + 1 := rfl

@[simp] theorem logAll_nil (c : Console) : c.logAll [] = c := rfl

@[simp] theorem logAll_cons (c : Console) (m : Message) (messages : List Message) :
    c.logAll (m :: messages) = (c.log m).logAll messages := rfl

theorem logAll_append (c : Console) (messages messages' : List Message) :
    c.logAll (messages ++ messages') = (c.logAll messages).logAll messages' :=
  List.foldl_append

@[simp] theorem stamped_nil (c : Console) : c.stamped [] = [] := rfl

/-- The first message has the time that it is now, the others that of their turn. -/
theorem stamped_cons (c : Console) (m : Message) (messages : List Message) :
    c.stamped (m :: messages) = ⟨c.clock c.arisen, m⟩ :: (c.log m).stamped messages := by
  rw [stamped, List.mapIdx_cons, Nat.add_zero]
  simp only [stamped, clock_log, arisen_log, Nat.add_assoc, Nat.add_comm 1]

/-- A message is written exactly if it is not below the minimum level. -/
theorem written_log (c : Console) (m : Message) :
    (c.log m).written = c.written ++
      if c.settings.minLevel ≤ m.level then c.settings.entry ⟨c.clock c.arisen, m⟩ else "" := by
  rw [log]
  split
  case isTrue h => rw [← Settings.write_of_le h]
  case isFalse h => rw [Settings.write_of_lt _ h]

/-- Of the messages logged a console writes the entries of those that are not below its level. -/
theorem written_logAll (c : Console) (messages : List Message) :
    (c.logAll messages).written =
      c.written ++ c.settings.text (fromLevel c.settings.minLevel (c.stamped messages)) := by
  induction messages generalizing c with
  | nil => simp [fromLevel]
  | cons m messages ih =>
    rw [logAll_cons, ih, stamped_cons, settings_log, written_log]
    by_cases h : c.settings.minLevel ≤ m.level
    · rw [fromLevel_cons_of_le _ h, Settings.text_cons, String.append_assoc, if_pos h]
    · rw [fromLevel_cons_of_not_le _ h, if_neg h, String.append_empty]

/-- The console with another minimum level. -/
def atLevel (c : Console) (level : Level) : Console :=
  { c with settings := c.settings.atLevel level }

/-- At another minimum level the same entries are written, less those that are below it. -/
theorem written_logAll_atLevel (c : Console) (level : Level) (messages : List Message) :
    ((c.atLevel level).logAll messages).written =
      c.written ++ c.settings.text (fromLevel level (c.stamped messages)) :=
  written_logAll (c.atLevel level) messages

/-- A console that shows levels and no times. -/
def undated : Console where
  settings := { showTimestamp := false }

end Console

end RegisterMachine.Log
