import RegisterMachine.Proofs.Logged
import RegisterMachine.Proofs.Machine.Unwatched
import RegisterMachine.Proofs.Text

set_option autoImplicit false

/-!
# Reading a trace

The line that a trace shows for an executed instruction is made of numbers, a mnemonic and two
register files, with blanks between them and also inside the files.  Each of these parts can be told
from whatever comes after it, if that does not go on with a digit.  So a line has one reading, even
with more text behind it, and so has what a traced machine writes to a console: it tells which
instructions were executed, on which registers and with which result.
-/

namespace RegisterMachine

open Log (Console Message Settings)

variable {n : Nat} {rest rest' : List Char}

/-! ## Words and lists of words -/

theorem toList_toString_word (x : UInt64) : (toString x).toList = Nat.toDigits 10 x.toNat := by
  show (toString x.toNat).toList = _
  rw [Nat.toString_eq_repr, Nat.toList_repr]

theorem word_append_inj {x y : UInt64} (hrest : EndsNumber rest) (hrest' : EndsNumber rest')
    (h : (toString x).toList ++ rest = (toString y).toList ++ rest') : x = y ∧ rest = rest' := by
  rw [toList_toString_word, toList_toString_word] at h
  obtain ⟨hsame, hrests⟩ := toDigits_append_inj hrest hrest' h
  exact ⟨UInt64.toNat_inj.mp hsame, hrests⟩

/-- A word ends at a separator. -/
theorem word_append_cons_inj {x y : UInt64} {separator : Char} (hsep : separator.isDigit = false)
    (h : (toString x).toList ++ separator :: rest = (toString y).toList ++ separator :: rest') :
    x = y ∧ rest = rest' := by
  obtain ⟨hsame, hrests⟩ := word_append_inj (endsNumber_cons hsep) (endsNumber_cons hsep) h
  exact ⟨hsame, (List.cons.inj hrests).2⟩

/-- Words with commas between them. -/
def listed (words : List UInt64) : List Char :=
  [',', ' '].intercalate (words.map fun x => (toString x).toList)

@[simp] theorem listed_singleton (x : UInt64) : listed [x] = (toString x).toList :=
  List.intercalate_singleton

@[simp] theorem listed_cons_cons (x y : UInt64) (words : List UInt64) :
    listed (x :: y :: words) = (toString x).toList ++ ',' :: ' ' :: listed (y :: words) := by
  simp [listed, List.intercalate_cons_cons]

/-- As many words can be told from each other and from what comes after the bracket that closes
them. -/
theorem listed_append_inj {xs ys : List UInt64} (hlength : xs.length = ys.length)
    (h : listed xs ++ ']' :: rest = listed ys ++ ']' :: rest') : xs = ys ∧ rest = rest' := by
  induction xs generalizing ys with
  | nil =>
    obtain rfl := List.length_eq_zero_iff.mp hlength.symm
    exact ⟨rfl, (List.cons.inj h).2⟩
  | cons x xs ih =>
    cases ys with
    | nil => cases hlength
    | cons y ys =>
      have hlength' : xs.length = ys.length := Nat.succ.inj hlength
      cases xs with
      | nil =>
        obtain rfl := List.length_eq_zero_iff.mp hlength'.symm
        rw [listed_singleton, listed_singleton] at h
        obtain ⟨rfl, hrest⟩ := word_append_cons_inj (by decide) h
        exact ⟨rfl, hrest⟩
      | cons x' xs =>
        cases ys with
        | nil => cases hlength'
        | cons y' ys =>
          rw [listed_cons_cons, listed_cons_cons, List.append_assoc, List.append_assoc] at h
          obtain ⟨rfl, hblank⟩ := word_append_cons_inj (by decide) h
          obtain ⟨hwords, hrest⟩ := ih hlength' (List.cons.inj hblank).2
          exact ⟨congrArg (x :: ·) hwords, hrest⟩

/-! ## The parts of a line -/

theorem RegisterFile.toList_append (r : RegisterFile n) (rest : List Char) :
    (toString r).toList ++ rest = '[' :: (listed r.toList ++ ']' :: rest) := by
  show r.render.toList ++ rest = _
  simp [render, listed, String.toList_intercalate, Function.comp_def]

theorem RegisterFile.append_inj {r r' : RegisterFile n}
    (h : (toString r).toList ++ rest = (toString r').toList ++ rest') : r = r' ∧ rest = rest' := by
  rw [toList_append, toList_append] at h
  have hlength : r.toList.length = r'.toList.length := by simp [toList]
  obtain ⟨hwords, hrest⟩ := listed_append_inj hlength (List.cons.inj h).2
  exact ⟨RegisterFile.ext (Vector.toList_inj.mp hwords), hrest⟩

theorem Operands.toList_append (a b c : UInt64) (rest : List Char) :
    (toString (Operands.mk a b c)).toList ++ rest = (toString a).toList ++
      ' ' :: ((toString b).toList ++ ' ' :: ((toString c).toList ++ rest)) := by
  show (toString a ++ " " ++ toString b ++ " " ++ toString c).toList ++ rest = _
  simp

theorem Operands.append_inj {o o' : Operands} (hrest : EndsNumber rest) (hrest' : EndsNumber rest')
    (h : (toString o).toList ++ rest = (toString o').toList ++ rest') : o = o' ∧ rest = rest' := by
  obtain ⟨a, b, c⟩ := o
  obtain ⟨a', b', c'⟩ := o'
  rw [toList_append, toList_append] at h
  obtain ⟨rfl, hb⟩ := word_append_cons_inj (by decide) h
  obtain ⟨rfl, hc⟩ := word_append_cons_inj (by decide) hb
  obtain ⟨rfl, hrests⟩ := word_append_inj hrest hrest' hc
  exact ⟨rfl, hrests⟩

theorem Operation.length_mnemonic (op : Operation) : op.mnemonic.toList.length = 4 := by
  cases op <;> rfl

/-- No mnemonic is the beginning of another one, since all have the same length. -/
theorem Operation.append_inj {op op' : Operation}
    (h : (toString op).toList ++ rest = (toString op').toList ++ rest') :
    op = op' ∧ rest = rest' := by
  obtain ⟨hname, hrest⟩ := List.append_inj h (op.length_mnemonic.trans op'.length_mnemonic.symm)
  exact ⟨mnemonic_injective (String.toList_injective hname), hrest⟩

theorem Instruction.toList_append (op : Operation) (o : Operands) (rest : List Char) :
    (toString (Instruction.mk op o)).toList ++ rest =
      (toString op).toList ++ ' ' :: ((toString o).toList ++ rest) := by
  show (toString op ++ " " ++ toString o).toList ++ rest = _
  simp

theorem Instruction.append_inj {i i' : Instruction} (hrest : EndsNumber rest)
    (hrest' : EndsNumber rest')
    (h : (toString i).toList ++ rest = (toString i').toList ++ rest') : i = i' ∧ rest = rest' := by
  obtain ⟨op, o⟩ := i
  obtain ⟨op', o'⟩ := i'
  rw [toList_append, toList_append] at h
  obtain ⟨rfl, ho⟩ := Operation.append_inj h
  obtain ⟨rfl, hrests⟩ := Operands.append_inj hrest hrest' (List.cons.inj ho).2
  exact ⟨rfl, hrests⟩

namespace Execution

variable {e e' : Execution n} {ip ip' : Fin n}

theorem toList_line_append (e : Execution n) (ip : Fin n) (rest : List Char) :
    (e.line ip).toList ++ rest = ['i', 'p', '='] ++ (Nat.toDigits 10 ip.val ++
      ' ' :: ((toString e.before).toList ++ ' ' :: ((toString e.instruction).toList ++
        ' ' :: ((toString e.after).toList ++ rest)))) := by
  show ("ip=" ++ toString ip.val ++ " " ++ toString e.before ++ " " ++ toString e.instruction ++
    " " ++ toString e.after).toList ++ rest = _
  simp

/-- A line has one reading, whatever comes after it. -/
theorem line_append_inj (h : (e.line ip).toList ++ rest = (e'.line ip').toList ++ rest') :
    ip = ip' ∧ e = e' ∧ rest = rest' := by
  have hblank (text : List Char) : EndsNumber (' ' :: text) := endsNumber_cons (by decide)
  obtain ⟨before, i, after⟩ := e
  obtain ⟨before', i', after'⟩ := e'
  rw [toList_line_append, toList_line_append] at h
  obtain ⟨hip, hbefore⟩ := toDigits_append_inj (hblank _) (hblank _) (List.append_cancel_left h)
  obtain ⟨rfl, hinstruction⟩ := RegisterFile.append_inj (List.cons.inj hbefore).2
  obtain ⟨rfl, hafter⟩ :=
    Instruction.append_inj (hblank _) (hblank _) (List.cons.inj hinstruction).2
  obtain ⟨rfl, hrest⟩ := RegisterFile.append_inj (List.cons.inj hafter).2
  exact ⟨Fin.ext hip, rfl, hrest⟩

end Execution

/-! ## The text of a trace -/

/-- What a trace logs about some executions. -/
def traceMessages (ip : Fin n) (es : List (Execution n)) : List Message :=
  es.map fun e => ⟨.info, e.line ip⟩

/-- A message that is told from the line of a trace by its second character. -/
def Closes (m : Message) : Prop := m.level = .info ∧ ∃ c ∈ m.text.toList[1]?, c ≠ 'p'

theorem closes_haltMessage (m : Machine n) : Closes m.haltMessage := by
  rw [Machine.haltMessage]
  split
  · refine ⟨rfl, 'h', ?_, by decide⟩
    show ("checkpoint value repeated after " ++ toString m.steps ++ " steps, registers " ++
      toString m.registers).toList[1]? = some 'h'
    simp
  · refine ⟨rfl, 'n', ?_, by decide⟩
    show ("instruction pointer " ++ toString m.ip ++ " left the program after " ++
      toString m.steps ++ " steps").toList[1]? = some 'n'
    simp

section

variable {c : Console} {ip ip' : Fin n} {es es' : List (Execution n)} {ends ends' : List Message}

theorem text_ne_of_closes (hends : ∀ m ∈ ends, Closes m) (e : Execution n) (ip : Fin n)
    (more : List Message) :
    c.settings.text (c.stamped ends) ≠
      c.settings.text (c.stamped (⟨.info, e.line ip⟩ :: more)) := by
  intro h
  obtain ⟨before, after, hentry⟩ := c.settings.exists_entry_eq (c.clock c.arisen) .info
  cases ends with
  | nil =>
    rw [Console.stamped_cons] at h
    exact Settings.text_cons_ne_empty _ _ _ h.symm
  | cons m ends =>
    obtain ⟨level, text⟩ := m
    obtain ⟨rfl, second, hsecond, hne⟩ := hends _ List.mem_cons_self
    rw [Console.stamped_cons, Console.stamped_cons, Settings.text_cons, Settings.text_cons, hentry,
      hentry] at h
    have hlists := congrArg String.toList h
    simp only [String.toList_append, List.append_assoc, List.append_cancel_left_eq,
      Execution.toList_line_append] at hlists
    have hp : second = 'p' := by
      have hsame := congrArg (·[1]?) hlists
      rw [List.getElem?_append_left (List.getElem?_eq_some_iff.mp hsecond).1, hsecond] at hsame
      exact Option.some.inj hsame
    exact hne hp

/-- The text that a trace leaves on a console tells the executed instructions, and the instruction
pointer as well if there are any. -/
theorem executions_eq_of_text_eq (hends : ∀ m ∈ ends, Closes m) (hends' : ∀ m ∈ ends', Closes m)
    (h : c.settings.text (c.stamped (traceMessages ip es ++ ends)) =
      c.settings.text (c.stamped (traceMessages ip' es' ++ ends'))) :
    es = es' ∧ (es ≠ [] → ip = ip') := by
  induction es generalizing c es' with
  | nil =>
    cases es' with
    | nil => exact ⟨rfl, fun hne => absurd rfl hne⟩
    | cons e' es' => exact absurd h (text_ne_of_closes hends e' ip' _)
  | cons e es ih =>
    cases es' with
    | nil => exact absurd h.symm (text_ne_of_closes hends' e ip _)
    | cons e' es' =>
      obtain ⟨before, after, hentry⟩ := c.settings.exists_entry_eq (c.clock c.arisen) .info
      simp only [traceMessages, List.map_cons, List.cons_append, Console.stamped_cons,
        Settings.text_cons, hentry] at h
      have hlists := congrArg String.toList h
      simp only [String.toList_append, List.append_assoc, List.append_cancel_left_eq] at hlists
      obtain ⟨rfl, rfl, hrest⟩ := Execution.line_append_inj hlists
      have htext := String.toList_injective
        (List.append_cancel_left (List.append_cancel_left hrest))
      obtain ⟨rfl, -⟩ := ih (c := c.log ⟨.info, e.line ip⟩) htext
      exact ⟨rfl, fun _ => rfl⟩

end

namespace Machine

variable {m m' : Machine n} {k k' : Nat} {c : Console} {ends ends' : List Message}

/-- The instructions that two machines execute in so many moves are the same, one after the other,
and so are the registers that they pass through. -/
structure SameRun (m : Machine n) (k : Nat) (m' : Machine n) (k' : Nat) : Prop where
  /-- The executed instructions are the same, on the same registers and with the same results. -/
  executions_eq : m.executions k = m'.executions k'
  /-- If there are any, the same register is the instruction pointer. -/
  pointer_eq : m.executions k ≠ [] → m.ipRegister = m'.ipRegister
  /-- The registers are the same from the first instruction until after the last one. -/
  trajectory_eq : m.executions k ≠ [] → ∀ j ≤ (m.executions k).length,
    m.bare.trajectory m.registers j = m'.bare.trajectory m'.registers j

/-- Traced machines whose messages leave the same text on a console have run in the same way. -/
theorem sameRun_of_written_eq (htrace : m.trace = true) (htrace' : m'.trace = true)
    (hends : ∀ m ∈ ends, Closes m) (hends' : ∀ m ∈ ends', Closes m)
    (hlevel : c.settings.minLevel = .info)
    (h : (c.logAll (m.stepMessages k ++ ends)).written =
      (c.logAll (m'.stepMessages k' ++ ends')).written) : m.SameRun k m' k' := by
  have hmessages {m : Machine n} (k : Nat) (htrace : m.trace = true) :
      m.stepMessages k = traceMessages m.ipRegister (m.executions k) := if_pos htrace
  rw [Console.written_logAll, Console.written_logAll, hlevel, Log.fromLevel_info,
    Log.fromLevel_info, hmessages k htrace, hmessages k' htrace'] at h
  obtain ⟨hexecutions, hpointer⟩ :=
    executions_eq_of_text_eq hends hends' ((String.append_right_inj _).mp h)
  refine ⟨hexecutions, hpointer, fun hne j hj => ?_⟩
  obtain ⟨last, hchronicle⟩ := exists_chronicle_executions m k
  obtain ⟨last', hchronicle'⟩ := exists_chronicle_executions m' k'
  rw [← hexecutions] at hchronicle'
  exact hchronicle.trajectory_congr hchronicle' (hpointer hne) hne hj

theorem closes_of_mem_haltMessages {result : Option (Except Fault (Machine n))} :
    ∀ m ∈ Logged.haltMessages result, Closes m := by
  intro m hm
  rcases result with - | (fault | final)
  · cases hm
  · cases hm
  · rw [List.mem_singleton.mp hm]
    exact closes_haltMessage final

/-- **Traces have one reading.**  Lines that are the same text name the same instruction pointer and
show the same instruction, with all its operands, between the same registers.  Traced machines that
write the same text to a console, be it by some moves or by a whole run with the line for its end,
have executed the same instructions on the same registers. -/
theorem traces_decode_uniquely (n : Nat) :
    (∀ (e e' : Execution n) (ip ip' : Fin n), e.line ip = e'.line ip' →
      ip = ip' ∧ e.before = e'.before ∧ e.instruction = e'.instruction ∧ e.after = e'.after) ∧
    ∀ (m m' : Machine n) (c : Console),
      m.trace = true → m'.trace = true → c.settings.minLevel = .info →
      (∀ k k', ((Logged.stepMachineTimes k m).run.run c).2.written =
          ((Logged.stepMachineTimes k' m').run.run c).2.written → m.SameRun k m' k') ∧
      (((Logged.runMachine m).run.run c).2.written = ((Logged.runMachine m').run.run c).2.written →
        m.SameRun (moveBound n) m' (moveBound n)) := by
  refine ⟨?_, ?_⟩
  · intro e e' ip ip' h
    have hlists : (e.line ip).toList ++ [] = (e'.line ip').toList ++ [] := by rw [h]
    obtain ⟨hip, rfl, -⟩ := Execution.line_append_inj hlists
    exact ⟨hip, rfl, rfl, rfl⟩
  · intro m m' c htrace htrace' hlevel
    refine ⟨fun k k' h => ?_, fun h => ?_⟩
    · rw [Logged.emits_stepMachineTimes k m c, Logged.emits_stepMachineTimes k' m' c] at h
      rw [← List.append_nil (m.stepMessages k), ← List.append_nil (m'.stepMessages k')] at h
      have hnone : ∀ message ∈ ([] : List Message), Closes message :=
        fun _ hm => absurd hm List.not_mem_nil
      exact sameRun_of_written_eq htrace htrace' hnone hnone hlevel h
    · have hrun (m : Machine n) := Logged.emits_runMachineFor (moveBound n) m c
      rw [Logged.runMachine, Logged.runMachine, hrun m, hrun m'] at h
      exact sameRun_of_written_eq htrace htrace' closes_of_mem_haltMessages
        closes_of_mem_haltMessages hlevel h

/-- The loop that goes back and forth is stopped by its checkpoint at the seventh move, and so
writes what six moves write without a checkpoint.  Both have executed the same six instructions, and
the line of the fourth one has no other reading. -/
theorem traces_decode_uniquely_toggling :
    (∃ m m' : Machine 2, m ≠ m' ∧ m.trace = true ∧ m'.trace = true ∧
      ((Logged.stepMachineTimes 7 m).run.run {}).2.written =
        ((Logged.stepMachineTimes 6 m').run.run {}).2.written ∧
      m.executions 7 = m'.executions 6 ∧ (m.executions 7).length = 6 ∧
      (m.executions 7)[3]? = some ⟨⟨#v[0, 1]⟩, ⟨.addi, ⟨1, 1, 1⟩⟩, ⟨#v[0, 2]⟩⟩) ∧
    ∀ (e : Execution 2) (ip : Fin 2), e.line ip = "ip=0 [0, 1] addi 1 1 1 [0, 2]" →
      ip = 0 ∧ e.before = ⟨#v[0, 1]⟩ ∧ e.instruction = ⟨.addi, ⟨1, 1, 1⟩⟩ ∧
        e.after = ⟨#v[0, 2]⟩ := by
  refine ⟨⟨(start toggling ⟨#v[0, 0]⟩ ⟨0, ⟨1, Nat.one_lt_two⟩⟩).withTrace true,
    (startUnwatched toggling ⟨#v[0, 0]⟩).withTrace true, by decide, rfl, rfl, ?_⟩, ?_⟩
  · have hwritten :
        ((Logged.stepMachineTimes 7 ((start toggling ⟨#v[0, 0]⟩
          ⟨0, ⟨1, Nat.one_lt_two⟩⟩).withTrace true)).run.run {}).2.written =
        ((Logged.stepMachineTimes 6
          ((startUnwatched toggling ⟨#v[0, 0]⟩).withTrace true)).run.run {}).2.written := by
      decide +kernel
    have hsame := ((traces_decode_uniquely 2).2 _ _ {} rfl rfl rfl).1 7 6 hwritten
    exact ⟨hwritten, hsame.executions_eq, by decide +kernel, by decide +kernel⟩
  · intro e ip h
    have hline : Execution.line ⟨⟨#v[0, 1]⟩, ⟨.addi, ⟨1, 1, 1⟩⟩, ⟨#v[0, 2]⟩⟩ (0 : Fin 2) =
        "ip=0 [0, 1] addi 1 1 1 [0, 2]" := by
      decide +kernel
    exact (traces_decode_uniquely 2).1 e _ ip 0 (h.trans hline.symm)

end Machine

end RegisterMachine
