import RegisterMachine.Proofs.BindingTable.Inclusion
import RegisterMachine.Proofs.Machine.Recurrence
import RegisterMachine.Proofs.PlainRun

set_option autoImplicit false

/-!
# Straight-line programs

If no instruction of a program names the instruction pointer, the pointer only counts: the machine
executes the instructions from its start to the end of the program, one after the other.  A plain
run of the same instructions, encoded with any table that binds their operations, does the same to
all other registers.  A checkpoint is passed at most once, and so never stops the machine.
-/

namespace RegisterMachine

open Instruction (performAll?)

namespace BareMachine

variable {n : Nat} {b : BareMachine n} {w : Watch n} {r initial : RegisterFile n} {d k : Nat}

/-- No instruction of the program names the instruction pointer, and all registers that they name
exist.  The positions of the program are words. -/
structure StraightLine (b : BareMachine n) : Prop where
  /-- The length of the program is a word. -/
  size_lt : b.program.size < UInt64.size
  /-- All registers that are named exist. -/
  inRange : ∀ i ∈ b.program, i.InRange n
  /-- The instruction pointer is not named. -/
  avoids : ∀ i ∈ b.program, i.Avoids b.ipRegister

/-- The instructions from a position on. -/
def remaining (b : BareMachine n) (position : Nat) : List Instruction :=
  b.program.toList.drop position

theorem StraightLine.position_put (h : b.StraightLine) (r : RegisterFile n) {p : Nat}
    (hp : p ≤ b.program.size) : b.position (r.put b.ipRegister (.ofNat p)) = p := by
  rw [position, RegisterFile.word_put_self, UInt64.toNat_ofNat_of_lt']
  exact Nat.lt_of_le_of_lt hp h.size_lt

/-- An instruction has the same effect on the other registers wherever the pointer is, and the
pointer is raised. -/
theorem StraightLine.next?_put {i : Instruction} {p : Nat} {after : RegisterFile n}
    (h : b.StraightLine) (hi : b.program[p]? = some i) (hperform : i.perform? r = some after) :
    b.next? (r.put b.ipRegister (.ofNat p)) = some (after.put b.ipRegister (.ofNat (p + 1))) := by
  obtain ⟨hlt, -⟩ := Array.getElem?_eq_some_iff.mp hi
  have hfetch : b.fetch? (r.put b.ipRegister (.ofNat p)) = some i := by
    rw [fetch?, h.position_put r (by omega), hi]
  have havoids := h.avoids i (Array.mem_of_getElem? hi)
  rw [next?, hfetch, Option.bind_some, havoids.perform?_put, hperform, Option.map_some,
    Option.map_some, Machine.advance, RegisterFile.put_put, RegisterFile.word_put_self,
    UInt64.ofNat_add]
  rfl

/-- After `d` instructions the machine has the registers that these instructions leave, but for the
instruction pointer, which has been raised `d` times. -/
theorem StraightLine.exists_performAll? (h : b.StraightLine)
    (hd : b.position initial + d ≤ b.program.size) :
    ∃ after, performAll? ((b.remaining (b.position initial)).take d) initial = some after ∧
      b.trajectory initial d =
        some (after.put b.ipRegister (.ofNat (b.position initial + d))) := by
  induction d with
  | zero =>
    refine ⟨initial, by simp, ?_⟩
    rw [trajectory_zero, Nat.add_zero, position, UInt64.ofNat_toNat, RegisterFile.put_word]
  | succ d ih =>
    obtain ⟨r, hperform, htrajectory⟩ := ih (by omega)
    have hlt : b.position initial + d < b.program.size := by omega
    have hi := Array.getElem?_eq_getElem hlt
    obtain ⟨after, hafter⟩ :=
      Instruction.exists_perform?_iff (r := r) |>.mpr (h.inRange _ (Array.mem_of_getElem? hi))
    have htake : (b.remaining (b.position initial)).take (d + 1) =
        (b.remaining (b.position initial)).take d ++ [b.program[b.position initial + d]] := by
      rw [List.take_add_one, remaining, List.getElem?_drop, Array.getElem?_toList, hi]
      rfl
    refine ⟨after, ?_, ?_⟩
    · rw [htake, Instruction.performAll?_append_singleton hperform, hafter]
    · rw [trajectory_succ_of_eq_some htrajectory, h.next?_put hi hafter, Nat.add_assoc]

/-- The instruction pointer counts the instructions. -/
theorem StraightLine.position_eq (h : b.StraightLine)
    (hd : b.position initial + d ≤ b.program.size) (hr : b.trajectory initial d = some r) :
    b.position r = b.position initial + d := by
  obtain ⟨after, -, htrajectory⟩ := h.exists_performAll? hd
  rw [hr] at htrajectory
  cases htrajectory
  exact h.position_put after hd

/-! ## A checkpoint on the line -/

/-- A position is visited once if it lies between the start and the point reached, else never. -/
theorem StraightLine.length_visits (h : b.StraightLine)
    (hd : b.position initial + d ≤ b.program.size) :
    (b.visits initial w d).length =
      if b.position initial ≤ w.position ∧ w.position < b.position initial + d then 1 else 0 := by
  induction d with
  | zero =>
    rw [if_neg (by omega)]
    rfl
  | succ d ih =>
    have hle : b.position initial + d ≤ b.program.size := by omega
    obtain ⟨after, -, htrajectory⟩ := h.exists_performAll? hle
    rw [visits_succ htrajectory, List.length_append, ih hle, watched?,
      h.position_eq hle htrajectory]
    by_cases hhere : b.position initial + d = w.position
    · rw [if_pos hhere, if_neg (by omega), if_pos (by omega)]
      rfl
    · rw [if_neg hhere]
      split
      · rw [if_pos (by omega)]
        rfl
      · rw [if_neg (by omega)]
        rfl

theorem StraightLine.summary_visits_ne_none_iff (h : b.StraightLine)
    (hd : b.position initial + d ≤ b.program.size) :
    CheckpointReport.summary (b.visits initial w d) ≠ none ↔
      b.position initial ≤ w.position ∧ w.position < b.position initial + d := by
  rw [Ne, CheckpointReport.summary_eq_none_iff, ← List.length_eq_zero_iff, h.length_visits hd]
  split
  · simp [*]
  · simp [*]

theorem StraightLine.distinct_eq_one {report : CheckpointReport} (h : b.StraightLine)
    (hd : b.position initial + d ≤ b.program.size)
    (hreport : CheckpointReport.summary (b.visits initial w d) = some report) :
    report.distinct = 1 := by
  have hseen : CheckpointReport.summary (b.visits initial w d) ≠ none := by
    rw [hreport]
    exact Option.some_ne_none report
  have hvisited := (h.summary_visits_ne_none_iff hd).mp hseen
  rw [CheckpointReport.distinct_of_summary hreport, h.length_visits hd, if_pos hvisited]

/-- No value is repeated, since no position is visited twice. -/
theorem StraightLine.not_repeats (h : b.StraightLine)
    (hd : b.position initial + d ≤ b.program.size) : ¬ b.Repeats initial w d := by
  rintro ⟨r, hr, hposition, m, hm, r', hr', hposition', -⟩
  rw [h.position_eq hd hr] at hposition
  rw [h.position_eq (by omega) hr'] at hposition'
  omega

/-- The trajectory ends where all instructions have been executed, at the end of the program. -/
theorem StraightLine.endsAt (h : b.StraightLine) (hstart : b.position initial ≤ b.program.size) :
    b.EndsAt initial w (b.program.size - b.position initial) ∧
      b.Leaves initial (b.program.size - b.position initial) := by
  have hleaves : b.Leaves initial (b.program.size - b.position initial) := by
    have hle : b.position initial + (b.program.size - b.position initial) ≤ b.program.size := by
      omega
    obtain ⟨after, -, htrajectory⟩ := h.exists_performAll? hle
    rw [leaves_iff htrajectory, h.position_eq hle htrajectory]
    omega
  refine ⟨⟨Or.inl hleaves, ?_⟩, hleaves⟩
  intro m hm
  have hle : b.position initial + m ≤ b.program.size := by omega
  rintro (hearlier | hrepeats)
  · obtain ⟨after, -, htrajectory⟩ := h.exists_performAll? hle
    rw [leaves_iff htrajectory, h.position_eq hle htrajectory] at hearlier
    omega
  · exact h.not_repeats hle hrepeats

end BareMachine

namespace Machine

open BareMachine

variable {n : Nat} {b : BareMachine n} {initial : RegisterFile n}

/-- The run of a straight-line program comes to its end, with a report on the one visit to the
position of the checkpoint, if there is one. -/
theorem runProgram_of_straightLine {r : RegisterFile n} {checkpoint : Option Checkpoint}
    (h : b.StraightLine) (hstart : b.position initial ≤ b.program.size)
    (hr : b.trajectory initial (b.program.size - b.position initial) = some r)
    (hcheckpoint : ∀ c ∈ checkpoint, c.register < n) :
    ∃ report,
      runProgram b.program b.ipRegister initial checkpoint =
        some (.ok { registers := r
                    state := .leftProgram
                    steps := .ofNat (b.program.size - b.position initial)
                    report }) ∧
      (report ≠ none ↔
        ∃ c ∈ checkpoint, b.position initial ≤ c.position ∧ c.position < b.program.size) ∧
      ∀ summary ∈ report, summary.distinct = 1 := by
  cases checkpoint with
  | none =>
    obtain ⟨-, hleaves⟩ := h.endsAt (w := ⟨0, b.ipRegister⟩) hstart
    exact ⟨none, runProgram_of_leaves hr hleaves, by simp, by simp⟩
  | some c =>
    have hend : b.position initial + (b.program.size - b.position initial) = b.program.size := by
      omega
    obtain ⟨hends, hleaves⟩ := h.endsAt (w := ⟨c.position, c.register, hcheckpoint c rfl⟩) hstart
    refine ⟨_, runProgram_of_endsAt hends hr rfl fun m hm => hm.step_of_leaves hleaves, ?_, ?_⟩
    · rw [h.summary_visits_ne_none_iff hend.le, hend]
      simp
    · intro report hreport
      exact h.distinct_eq_one hend.le hreport

/-- **Both ways of running agree on straight-line programs.**  Let no instruction of a program name
the instruction pointer `p`, which at the start is at position `k`, and let a table bind all
operations of the program.  Then the machine leaves the program after the instructions from `k` on,
with the pointer at the end; all other registers are those after the plain run of these
instructions, encoded with the table.  A checkpoint has seen something exactly if its position is
one of theirs, and then one value. -/
theorem straightLine_runs_agree (b : BareMachine n) (initial : RegisterFile n) (t : BindingTable)
    (checkpoint : Option Checkpoint) (hstraight : b.StraightLine)
    (hstart : b.position initial ≤ b.program.size)
    (hbound : ∀ i ∈ b.program, t.opcodeOf? i.operation ≠ none)
    (hcheckpoint : ∀ c ∈ checkpoint, c.register < n) :
    ∃ raws after outcome,
      t.encodeAll? (b.remaining (b.position initial)) = some raws ∧
      t.run raws initial = .ok after ∧
      runProgram b.program b.ipRegister initial checkpoint = some (.ok outcome) ∧
      outcome.state = .leftProgram ∧
      outcome.steps.toNat = b.program.size - b.position initial ∧
      (outcome.registers.word b.ipRegister).toNat = b.program.size ∧
      (∀ j ≠ b.ipRegister, outcome.registers.word j = after.word j) ∧
      (outcome.report ≠ none ↔
        ∃ c ∈ checkpoint, b.position initial ≤ c.position ∧ c.position < b.program.size) ∧
      ∀ report ∈ outcome.report, report.distinct = 1 := by
  have hend : b.position initial + (b.program.size - b.position initial) = b.program.size := by
    omega
  have hsize := hstraight.size_lt
  obtain ⟨after, hperform, htrajectory⟩ := hstraight.exists_performAll? hend.le
  have hall : (b.remaining (b.position initial)).take (b.program.size - b.position initial) =
      b.remaining (b.position initial) := by
    refine List.take_of_length_le ?_
    rw [remaining, List.length_drop, Array.length_toList]
  rw [hall] at hperform
  rw [hend] at htrajectory
  obtain ⟨raws, hraws⟩ : ∃ raws, t.encodeAll? (b.remaining (b.position initial)) = some raws := by
    refine BindingTable.exists_encodeAll? fun i hi => hbound i ?_
    exact Array.mem_toList_iff.mp (List.mem_of_mem_drop hi)
  obtain ⟨report, hrun, hreport, hdistinct⟩ :=
    runProgram_of_straightLine hstraight hstart htrajectory hcheckpoint
  refine ⟨raws, after, _, hraws, BindingTable.run_of_encodeAll? hraws hperform, hrun, rfl, ?_,
    ?_, ?_, hreport, hdistinct⟩
  · exact UInt64.toNat_ofNat_of_lt' (by omega)
  · rw [RegisterFile.word_put_self, UInt64.toNat_ofNat_of_lt' hsize]
  · intro j hj
    exact RegisterFile.word_put_of_ne _ hj.symm

/-- Three instructions that name the registers 1 and 2.  Zero stands among their inputs as a literal
and as a word that is not looked at. -/
def shifting : BareMachine 3 where
  program := #[⟨.addi, ⟨1, 0, 2⟩⟩, ⟨.setr, ⟨2, 0, 1⟩⟩, ⟨.addi, ⟨1, 7, 1⟩⟩]
  ipRegister := 0

theorem straightLine_shifting : shifting.StraightLine where
  size_lt := by decide
  inRange := by decide +kernel
  avoids := by decide +kernel

/-- Started at the second instruction, with a checkpoint at the third, the machine executes two
instructions and has then the registers 1 and 2 of the plain run. -/
theorem straightLine_runs_agree_shifting :
    shifting.StraightLine ∧ shifting.position ⟨#v[1, 4, 9]⟩ ≤ shifting.program.size ∧
      ∃ t t' : BindingTable, (∅ : BindingTable).insert 5 .addi = .ok t ∧ t.insert 9 .setr = .ok t' ∧
        (∀ i ∈ shifting.program, t'.opcodeOf? i.operation ≠ none) ∧
        ∃ raws after outcome,
          t'.encodeAll? [⟨.setr, ⟨2, 0, 1⟩⟩, ⟨.addi, ⟨1, 7, 1⟩⟩] = some raws ∧
          t'.run raws (⟨#v[1, 4, 9]⟩ : RegisterFile 3) = .ok after ∧
          runProgram shifting.program 0 ⟨#v[1, 4, 9]⟩ (some ⟨2, 1⟩) = some (.ok outcome) ∧
          outcome.state = .leftProgram ∧ outcome.steps.toNat = 2 ∧
          outcome.registers.word 1 = after.word 1 ∧ outcome.report ≠ none := by
  have hstart : shifting.position ⟨#v[1, 4, 9]⟩ ≤ shifting.program.size := by decide +kernel
  obtain ⟨t, ht⟩ : ∃ t, (∅ : BindingTable).insert 5 .addi = .ok t :=
    BindingTable.exists_insert_eq_ok (BindingTable.get?_empty 5) (by simp)
  have hopen : t.get? 9 = none := by
    rw [BindingTable.get?_of_insert_of_ne ht (by decide), BindingTable.get?_empty]
  obtain ⟨t', ht'⟩ : ∃ t', t.insert 9 .setr = .ok t' :=
    BindingTable.exists_insert_eq_ok hopen (by simp [BindingTable.range_of_insert ht])
  have hbound : ∀ i ∈ shifting.program, t'.opcodeOf? i.operation ≠ none := by
    have haddi : t'.opcodeOf? .addi = some 5 := by
      rw [← BindingTable.get?_eq_some_iff]
      exact BindingTable.le_of_insert ht' 5 .addi (BindingTable.get?_self_of_insert ht)
    have hsetr : t'.opcodeOf? .setr = some 9 := by
      rw [← BindingTable.get?_eq_some_iff]
      exact BindingTable.get?_self_of_insert ht'
    simp [shifting, haddi, hsetr]
  obtain ⟨raws, after, outcome, hraws, hplain, hrun, hstate, hsteps, -, hregisters, hreport, -⟩ :=
    straightLine_runs_agree shifting ⟨#v[1, 4, 9]⟩ t' (some ⟨2, 1⟩) straightLine_shifting hstart
      hbound (by decide)
  exact ⟨straightLine_shifting, hstart, t, t', ht, ht', hbound, raws, after, outcome, hraws, hplain,
    hrun, hstate, hsteps, hregisters 1 (by decide),
    hreport.mpr ⟨⟨2, 1⟩, rfl, by decide +kernel, by decide +kernel⟩⟩

end Machine

end RegisterMachine
