import RegisterMachine.Proofs.Machine.Following
import RegisterMachine.Proofs.Machine.Monitor

set_option autoImplicit false

/-!
# Checkpointed runs

A checkpoint watches a register at one position.  Read off the trajectory of the bare machine, its
run ends at the first point where the instruction pointer has left the program, or where it is at
the position of the checkpoint with a value in the watched register that was there at an earlier
visit.  The machine with the checkpoint ends at exactly this point, and its report sums up the
visits before it.

The end is never later than one round after the first file that comes back, which is why the run
with bounded moves misses none.
-/

namespace RegisterMachine

/-- A position, and the register that is watched whenever the instruction pointer is there. -/
structure Watch (n : Nat) where
  position : Nat
  register : Fin n

/-- The checkpoint that watches the register at the position. -/
def Watch.checkpoint {n : Nat} (w : Watch n) : Checkpoint := ⟨w.position, w.register⟩

namespace BareMachine

variable {n : Nat} {b : BareMachine n} {w : Watch n} {r initial : RegisterFile n}
  {j k p q : Nat} {v : UInt64}

/-! ## The end of a checkpointed trajectory -/

/-- The value in the watched register, if the instruction pointer is at the watched position. -/
def watched? (b : BareMachine n) (w : Watch n) (r : RegisterFile n) : Option UInt64 :=
  if b.position r = w.position then some (r.word w.register) else none

/-- The values in the watched register at the visits before a point of the trajectory. -/
def visits (b : BareMachine n) (initial : RegisterFile n) (w : Watch n) (k : Nat) : List UInt64 :=
  (List.range k).filterMap fun m => (b.trajectory initial m).bind (b.watched? w)

/-- At this point of the trajectory the instruction pointer is outside the program. -/
def Leaves (b : BareMachine n) (initial : RegisterFile n) (k : Nat) : Prop :=
  ∃ r ∈ b.trajectory initial k, b.program.size ≤ b.position r

/-- At this point of the trajectory the instruction pointer is at the watched position, with a value
in the watched register that was there at an earlier visit. -/
def Repeats (b : BareMachine n) (initial : RegisterFile n) (w : Watch n) (k : Nat) : Prop :=
  ∃ r ∈ b.trajectory initial k, b.position r = w.position ∧
    ∃ m < k, ∃ r' ∈ b.trajectory initial m, b.position r' = w.position ∧
      r'.word w.register = r.word w.register

/-- The first point of the trajectory at which the machine leaves the program or repeats a value. -/
def EndsAt (b : BareMachine n) (initial : RegisterFile n) (w : Watch n) (k : Nat) : Prop :=
  (b.Leaves initial k ∨ b.Repeats initial w k) ∧
    ∀ m < k, ¬ (b.Leaves initial m ∨ b.Repeats initial w m)

instance (b : BareMachine n) (initial : RegisterFile n) (k : Nat) :
    Decidable (b.Leaves initial k) :=
  inferInstanceAs (Decidable (∃ r ∈ b.trajectory initial k, b.program.size ≤ b.position r))

instance (b : BareMachine n) (initial : RegisterFile n) (w : Watch n) (k : Nat) :
    Decidable (b.Repeats initial w k) :=
  inferInstanceAs (Decidable (∃ r ∈ b.trajectory initial k, b.position r = w.position ∧
    ∃ m < k, ∃ r' ∈ b.trajectory initial m, b.position r' = w.position ∧
      r'.word w.register = r.word w.register))

instance (b : BareMachine n) (initial : RegisterFile n) (w : Watch n) (k : Nat) :
    Decidable (b.EndsAt initial w k) :=
  inferInstanceAs (Decidable ((b.Leaves initial k ∨ b.Repeats initial w k) ∧
    ∀ m < k, ¬ (b.Leaves initial m ∨ b.Repeats initial w m)))

theorem mem_visits_iff :
    v ∈ b.visits initial w k ↔
      ∃ m < k, ∃ r ∈ b.trajectory initial m, b.position r = w.position ∧
        r.word w.register = v := by
  simp [visits, watched?, Option.bind_eq_some_iff]

theorem visits_succ (h : b.trajectory initial k = some r) :
    b.visits initial w (k + 1) = b.visits initial w k ++ (b.watched? w r).toList := by
  have hlast : [k].filterMap (fun m => (b.trajectory initial m).bind (b.watched? w)) =
      (b.watched? w r).toList := by
    rw [List.filterMap_cons, h, Option.bind_some]
    cases b.watched? w r with
    | none => rfl
    | some v => rfl
  rw [visits, List.range_succ, List.filterMap_append, hlast, visits]

theorem leaves_iff (h : b.trajectory initial k = some r) :
    b.Leaves initial k ↔ b.program.size ≤ b.position r := by
  simp [Leaves, h]

theorem repeats_iff (h : b.trajectory initial k = some r) :
    b.Repeats initial w k ↔
      b.position r = w.position ∧ r.word w.register ∈ b.visits initial w k := by
  simp only [Repeats, h, Option.mem_def, Option.some.injEq, exists_eq_left', mem_visits_iff]

/-- A repeated visit is inside the program, as the visit before was. -/
theorem Repeats.position_lt (h : b.Repeats initial w k) (hr : b.trajectory initial k = some r) :
    b.position r < b.program.size := by
  obtain ⟨r', hr', hposition, m, hm, r'', hr'', hposition', -⟩ := h
  rw [Option.mem_def, hr] at hr'
  cases hr'
  rw [hposition, ← hposition']
  exact position_lt_of_trajectory hr hm hr''

/-- A trajectory that never leaves the program and never names a register that does not exist goes
on for ever. -/
theorem exists_trajectory_of_never_leaves (hinside : ∀ k, ¬ b.Leaves initial k)
    (hrange : ∀ k, ∀ r ∈ b.trajectory initial k, ∀ i ∈ b.fetch? r, i.InRange n) (k : Nat) :
    ∃ r, b.trajectory initial k = some r := by
  induction k using Nat.strongRecOn with
  | ind k ih =>
    rw [exists_trajectory_iff]
    intro m hm
    obtain ⟨r, hr⟩ := ih m hm
    cases hfetch : b.fetch? r with
    | none => exact absurd ((leaves_iff hr).mpr (fetch?_eq_none_iff.mp hfetch)) (hinside m)
    | some i => exact ⟨r, hr, i, hfetch, hrange m r hr i hfetch⟩

/-! ## A bound on the end -/

/-- A watched position on a round of the trajectory is seen again with the same value, one round
later. -/
theorem repeats_of_recurs (hpq : p < q)
    (h : b.trajectory initial p = b.trajectory initial q) (hpj : p ≤ j)
    (hr : b.trajectory initial j = some r) (hposition : b.position r = w.position) :
    b.Repeats initial w (j + (q - p)) := by
  obtain ⟨d, rfl⟩ := Nat.exists_eq_add_of_le hpj
  have hround : b.trajectory initial (p + d + (q - p)) = some r := by
    rw [show p + d + (q - p) = q + d by omega, ← trajectory_add_of_recurs h, hr]
  exact ⟨r, hround, hposition, p + d, by omega, r, hr, hposition, rfl⟩

/-- The trajectory ends within two rounds through all register files. -/
theorem EndsAt.lt_moveBound (h : b.EndsAt initial w k) : k < Machine.moveBound n := by
  show k < 2 * fileCount n + 1
  obtain ⟨hends, hfirst⟩ := h
  have hreached : ∃ r, b.trajectory initial k = some r := by
    rcases hends with ⟨r, hr, -⟩ | ⟨r, hr, -⟩
    · exact ⟨r, hr⟩
    · exact ⟨r, hr⟩
  obtain ⟨r, hr⟩ := hreached
  by_contra hlate
  obtain ⟨r', hr'⟩ := exists_trajectory_of_le hr (show fileCount n ≤ k by omega)
  obtain ⟨p, q, hpq, hq, hsame⟩ := exists_recurs hr'
  -- The file at the end was reached before, in the round from `p` to `q`.
  obtain ⟨j, hpj, hjq, hj⟩ := exists_lt_of_recurs hpq hsame (show p ≤ k by omega)
  rw [hr] at hj
  rcases hends with hleaves | hrepeats
  · rw [leaves_iff hr] at hleaves
    exact hfirst j (by omega) (Or.inl ((leaves_iff hj).mpr hleaves))
  · exact hfirst (j + (q - p)) (by omega)
      (Or.inr (repeats_of_recurs hpq hsame hpj hj ((repeats_iff hr).mp hrepeats).1))

end BareMachine

/-! ## The machine with a checkpoint -/

namespace Machine

open BareMachine

variable {n : Nat} {m m' : Machine n} {b : BareMachine n} {w : Watch n}
  {r r' initial : RegisterFile n} {k : Nat}

/-- The running machine has executed the first `k` instructions, and its monitor has seen the visits
before this point. -/
structure Checkpointed (m : Machine n) (b : BareMachine n) (initial : RegisterFile n) (w : Watch n)
    (k : Nat) : Prop where
  /-- The machine is on the trajectory. -/
  follows : m.Follows b initial k
  /-- It has not halted. -/
  running : m.state = .running
  /-- Its monitor is that of the watch and has seen the visits. -/
  watches : ∃ monitor, m.monitor = some monitor ∧ monitor.position = w.position ∧
    monitor.register = w.register ∧ monitor.Records (b.visits initial w k)

/-- The machine that is about to start. -/
def start (b : BareMachine n) (initial : RegisterFile n) (w : Watch n) : Machine n where
  program := b.program
  ipRegister := b.ipRegister
  registers := initial
  monitor := some { position := w.position, register := w.register }

theorem prepare_eq_start (b : BareMachine n) (initial : RegisterFile n) (w : Watch n) :
    prepare b.program b.ipRegister initial (some ⟨w.position, w.register⟩) =
      .ok (start b initial w) := by
  simp [prepare, create, withCheckpoint, register, start, bind, Except.bind, pure, Except.pure]

theorem checkpointed_start (b : BareMachine n) (initial : RegisterFile n) (w : Watch n) :
    (start b initial w).Checkpointed b initial w 0 where
  follows := ⟨rfl, rfl, rfl⟩
  running := rfl
  watches := ⟨_, rfl, rfl, rfl, by simp [visits], rfl⟩

/-- With or without a checkpoint, a machine halts where the trajectory leaves the program. -/
theorem Follows.step_of_leaves (h : m.Follows b initial k) (running : m.state = .running)
    (hleaves : b.Leaves initial k) : m.step = .ok { m with state := .leftProgram } := by
  obtain ⟨rfl, htrajectory, -⟩ := h
  rw [leaves_iff htrajectory, ← fetch?_eq_none_iff] at hleaves
  rw [step, move_of_outside running hleaves]

theorem Checkpointed.step_of_leaves (h : m.Checkpointed b initial w k)
    (hleaves : b.Leaves initial k) : m.step = .ok { m with state := .leftProgram } :=
  h.follows.step_of_leaves h.running hleaves

theorem Checkpointed.step_of_repeats (h : m.Checkpointed b initial w k)
    (hrepeats : b.Repeats initial w k) : m.step = .ok { m with state := .valueRepeated } := by
  obtain ⟨⟨rfl, htrajectory, -⟩, hrunning, monitor, hmonitor, hposition, hregister, hrecords⟩ := h
  have hinside := hrepeats.position_lt htrajectory
  rw [repeats_iff htrajectory, ← hposition, ← hregister] at hrepeats
  have hmove : m.move = .stop :=
    move_of_repeated hrunning (Array.getElem?_eq_getElem hinside) hmonitor hrepeats.1.symm
      (hrecords.observe_of_mem hrepeats.2)
  rw [step, hmove]

/-- A machine that does not repeat a value executes the instruction at its pointer, with a monitor
that has seen one visit more if this is one. -/
theorem Checkpointed.exists_move_eq_execute {i : Instruction} (h : m.Checkpointed b initial w k)
    (hi : b.fetch? m.registers = some i) (hnew : ¬ b.Repeats initial w k) :
    ∃ monitor, m.move = .execute i (some monitor) ∧ monitor.position = w.position ∧
      monitor.register = w.register ∧ monitor.Records (b.visits initial w (k + 1)) := by
  obtain ⟨⟨rfl, htrajectory, -⟩, hrunning, monitor, hmonitor, hposition, hregister, hrecords⟩ := h
  rw [repeats_iff htrajectory] at hnew
  by_cases hhere : m.bare.position m.registers = w.position
  · have hnot : m.registers.word w.register ∉ m.bare.visits initial w k :=
      fun hmem => hnew ⟨hhere, hmem⟩
    have hobserve : monitor.observe (m.registers.word monitor.register) =
        (.new, monitor.record (m.registers.word w.register)) := by
      rw [hregister]
      exact hrecords.observe_of_not_mem hnot
    refine ⟨_, move_of_new hrunning hi hmonitor (hposition.trans hhere.symm) hobserve, ?_, ?_, ?_⟩
    · rw [CheckpointMonitor.position_record, hposition]
    · rw [CheckpointMonitor.register_record, hregister]
    · rw [visits_succ htrajectory, watched?, if_pos hhere]
      exact hrecords.record hnot
  · have helsewhere : monitor.position ≠ m.bare.position m.registers := by
      rw [hposition]
      exact Ne.symm hhere
    refine ⟨monitor, move_of_elsewhere hrunning hi hmonitor helsewhere, hposition, hregister, ?_⟩
    rw [visits_succ htrajectory, watched?, if_neg hhere, Option.toList_none, List.append_nil]
    exact hrecords

/-- A machine that neither leaves the program nor repeats a value goes one step along the
trajectory. -/
theorem Checkpointed.step_of_next (h : m.Checkpointed b initial w k)
    (hnext : b.trajectory initial (k + 1) = some r') (hnew : ¬ b.Repeats initial w k) :
    ∃ m', m.step = .ok m' ∧ m'.Checkpointed b initial w (k + 1) := by
  rw [trajectory_succ_of_eq_some h.follows.on_trajectory] at hnext
  obtain ⟨i, hi, -⟩ := exists_next?_iff.mp ⟨r', hnext⟩
  obtain ⟨monitor, hmove, hposition, hregister, hrecords⟩ := h.exists_move_eq_execute hi hnew
  obtain ⟨m', hstep, hfollows, hstate, hmonitor⟩ := h.follows.step_of_execute hmove hi hnext
  exact ⟨m', hstep, hfollows, hstate.trans h.running, monitor, hmonitor, hposition, hregister,
    hrecords⟩

/-- As long as no value is repeated, the machine gets as far as the trajectory. -/
theorem exists_checkpointed (hr : b.trajectory initial k = some r)
    (hnew : ∀ j < k, ¬ b.Repeats initial w j) :
    ∃ m, (start b initial w).stepTimes k = .ok m ∧ m.Checkpointed b initial w k := by
  induction k generalizing r with
  | zero => exact ⟨_, rfl, checkpointed_start b initial w⟩
  | succ k ih =>
    obtain ⟨r', hr'⟩ := exists_trajectory_of_le hr (Nat.le_succ k)
    obtain ⟨m, hm, hcheckpointed⟩ := ih hr' fun j hj => hnew j (by omega)
    obtain ⟨m', hstep, hcheckpointed'⟩ :=
      hcheckpointed.step_of_next hr (hnew k (Nat.lt_succ_self k))
    exact ⟨m', by rw [stepTimes_succ_of_stepTimes hm, hstep], hcheckpointed'⟩

/-! ## The whole run -/

/-- If the machine halts where the trajectory ends, the outcome is the file there, with the number
of instructions before and the report on the visits before. -/
theorem exists_haltsAfter_of_endsAt {state : RunState} (hends : b.EndsAt initial w k)
    (hr : b.trajectory initial k = some r) (halted : state.isHalted = true)
    (hstep : ∀ m : Machine n, m.Checkpointed b initial w k → m.step = .ok { m with state }) :
    ∃ final, (start b initial w).HaltsAfter k final ∧
      final.outcome = { registers := r
                        state
                        steps := .ofNat k
                        report := CheckpointReport.summary (b.visits initial w k) } := by
  obtain ⟨m, hm, hcheckpointed⟩ :=
    exists_checkpointed hr fun j hj hrepeats => hends.2 j hj (Or.inr hrepeats)
  have hlast : (start b initial w).stepTimes (k + 1) = .ok { m with state } := by
    rw [stepTimes_succ_of_stepTimes hm, hstep m hcheckpointed]
  refine ⟨{ m with state }, ⟨⟨m, hm, hcheckpointed.running⟩, hlast, halted⟩, ?_⟩
  obtain ⟨⟨-, htrajectory, hsteps⟩, -, monitor, hmonitor, -, -, hrecords⟩ := hcheckpointed
  rw [hr] at htrajectory
  cases htrajectory
  simp only [outcome, hsteps, hmonitor, Option.bind_some, hrecords.report_eq]

theorem runProgram_of_endsAt {state : RunState} (hends : b.EndsAt initial w k)
    (hr : b.trajectory initial k = some r) (halted : state.isHalted = true)
    (hstep : ∀ m : Machine n, m.Checkpointed b initial w k → m.step = .ok { m with state }) :
    runProgram b.program b.ipRegister initial (some ⟨w.position, w.register⟩) =
      some (.ok { registers := r
                  state
                  steps := .ofNat k
                  report := CheckpointReport.summary (b.visits initial w k) }) := by
  obtain ⟨final, hhalts, houtcome⟩ := exists_haltsAfter_of_endsAt hends hr halted hstep
  rw [hhalts.runProgram_eq hends.lt_moveBound (prepare_eq_start b initial w), houtcome]

/-- **Checkpointed runs are what the trajectory says.**  If the trajectory of the bare machine ends,
by leaving the program or by repeating a value at the checkpoint, the run halts with the file at the
end, the number of instructions before it modulo `2 ^ 64`, the state that tells which of the two it
was, and the report on the visits before the end.  If it does not end, and no instruction names a
register that does not exist, the run never halts. -/
theorem runProgram_follows_trajectory (b : BareMachine n) (initial : RegisterFile n) (w : Watch n) :
    (∀ k r, b.EndsAt initial w k → b.trajectory initial k = some r →
      (b.Leaves initial k →
        runProgram b.program b.ipRegister initial (some ⟨w.position, w.register⟩) =
          some (.ok { registers := r
                      state := .leftProgram
                      steps := .ofNat k
                      report := CheckpointReport.summary (b.visits initial w k) })) ∧
      (b.Repeats initial w k →
        runProgram b.program b.ipRegister initial (some ⟨w.position, w.register⟩) =
          some (.ok { registers := r
                      state := .valueRepeated
                      steps := .ofNat k
                      report := CheckpointReport.summary (b.visits initial w k) }))) ∧
    ((∀ k, ¬ (b.Leaves initial k ∨ b.Repeats initial w k)) →
      (∀ k, ∀ r ∈ b.trajectory initial k, ∀ i ∈ b.fetch? r, i.InRange n) →
      runProgram b.program b.ipRegister initial (some ⟨w.position, w.register⟩) = none ∧
        ∃ m, prepare b.program b.ipRegister initial (some ⟨w.position, w.register⟩) = .ok m ∧
          ∀ k, ∃ m', m.stepTimes k = .ok m' ∧ m'.state = .running) := by
  refine ⟨?_, ?_⟩
  · intro k r hends hr
    refine ⟨fun hleaves => ?_, fun hrepeats => ?_⟩
    · exact runProgram_of_endsAt hends hr rfl fun m hm => hm.step_of_leaves hleaves
    · exact runProgram_of_endsAt hends hr rfl fun m hm => hm.step_of_repeats hrepeats
  · intro hnever hrange
    have hrunning : ∀ k, ∃ m', (start b initial w).stepTimes k = .ok m' ∧ m'.state = .running := by
      intro k
      obtain ⟨r, hr⟩ := exists_trajectory_of_never_leaves
        (fun j hleaves => hnever j (Or.inl hleaves)) hrange k
      obtain ⟨m', hm', hcheckpointed⟩ :=
        exists_checkpointed hr fun j _ hrepeats => hnever j (Or.inr hrepeats)
      exact ⟨m', hm', hcheckpointed.running⟩
    refine ⟨?_, start b initial w, prepare_eq_start b initial w, hrunning⟩
    obtain ⟨m', hm', hstate⟩ := hrunning (moveBound n)
    have hrun : (start b initial w).run = none := by
      refine runFor_eq_none_of_running hm' ?_
      rw [hstate]
      rfl
    simp only [runProgram, prepare_eq_start, hrun, Option.map_none]

/-- A loop in which register 1 goes back and forth between zero and one: it is raised, its lowest
bit is kept, and the pointer is sent back to the start. -/
def toggling : BareMachine 2 where
  program := #[⟨.addi, ⟨1, 1, 1⟩⟩, ⟨.bani, ⟨1, 1, 1⟩⟩, ⟨.seti, ⟨18446744073709551615, 0, 0⟩⟩]
  ipRegister := 0

/-- A loop of one instruction, which sends the pointer back to itself. -/
def idling : BareMachine 1 where
  program := #[⟨.seti, ⟨18446744073709551615, 0, 0⟩⟩]
  ipRegister := 0

theorem trajectory_idling (k : Nat) :
    idling.trajectory ⟨#v[0]⟩ k = some ⟨#v[0]⟩ := by
  induction k with
  | zero => rfl
  | succ k ih =>
    rw [trajectory_succ_of_eq_some ih]
    decide +kernel

/-- The loop is stopped when the value zero is there for the second time, after two rounds.  Started
behind its last instruction it leaves the program at once, and the checkpoint has seen nothing.  A
loop that never comes to the position of its checkpoint never halts. -/
theorem runProgram_follows_trajectory_toggling :
    (toggling.EndsAt ⟨#v[0, 0]⟩ ⟨0, 1⟩ 6 ∧ toggling.Repeats ⟨#v[0, 0]⟩ ⟨0, 1⟩ 6 ∧
      runProgram toggling.program 0 ⟨#v[0, 0]⟩ (some ⟨0, 1⟩) =
        some (.ok ⟨⟨#v[0, 0]⟩, .valueRepeated, 6, some ⟨0, 1, 0, 1, 2⟩⟩)) ∧
    (toggling.EndsAt ⟨#v[3, 0]⟩ ⟨0, 1⟩ 0 ∧ toggling.Leaves ⟨#v[3, 0]⟩ 0 ∧
      runProgram toggling.program 0 ⟨#v[3, 0]⟩ (some ⟨0, 1⟩) =
        some (.ok ⟨⟨#v[3, 0]⟩, .leftProgram, 0, none⟩)) ∧
    (∀ k, ¬ (idling.Leaves ⟨#v[0]⟩ k ∨ idling.Repeats ⟨#v[0]⟩ ⟨1, 0⟩ k)) ∧
    (∀ k, ∀ r ∈ idling.trajectory ⟨#v[0]⟩ k, ∀ i ∈ idling.fetch? r, i.InRange 1) ∧
      runProgram idling.program 0 ⟨#v[0]⟩ (some ⟨1, 0⟩) = none := by
  refine ⟨?_, ?_, ?_⟩
  · have hends : toggling.EndsAt ⟨#v[0, 0]⟩ ⟨0, 1⟩ 6 := by decide +kernel
    have hrepeats : toggling.Repeats ⟨#v[0, 0]⟩ ⟨0, 1⟩ 6 := by decide +kernel
    have hreached : toggling.trajectory ⟨#v[0, 0]⟩ 6 = some ⟨#v[0, 0]⟩ := by decide +kernel
    have hreport : CheckpointReport.summary (toggling.visits ⟨#v[0, 0]⟩ ⟨0, 1⟩ 6) =
        some ⟨0, 1, 0, 1, 2⟩ := by
      decide +kernel
    obtain ⟨hrun, -⟩ := runProgram_follows_trajectory toggling ⟨#v[0, 0]⟩ ⟨0, 1⟩
    have hresult := (hrun 6 _ hends hreached).2 hrepeats
    rw [hreport] at hresult
    exact ⟨hends, hrepeats, hresult⟩
  · have hends : toggling.EndsAt ⟨#v[3, 0]⟩ ⟨0, 1⟩ 0 := by decide +kernel
    have hleaves : toggling.Leaves ⟨#v[3, 0]⟩ 0 := by decide +kernel
    obtain ⟨hrun, -⟩ := runProgram_follows_trajectory toggling ⟨#v[3, 0]⟩ ⟨0, 1⟩
    exact ⟨hends, hleaves, (hrun 0 _ hends rfl).1 hleaves⟩
  · have hnever : ∀ k, ¬ (idling.Leaves ⟨#v[0]⟩ k ∨ idling.Repeats ⟨#v[0]⟩ ⟨1, 0⟩ k) := by
      intro k
      rw [leaves_iff (trajectory_idling k), repeats_iff (trajectory_idling k)]
      rintro (hout | ⟨hhere, -⟩)
      · exact absurd hout (by decide +kernel)
      · exact absurd hhere (by decide +kernel)
    have hrange : ∀ k, ∀ r ∈ idling.trajectory ⟨#v[0]⟩ k, ∀ i ∈ idling.fetch? r, i.InRange 1 := by
      intro k r hr
      rw [trajectory_idling, Option.mem_def] at hr
      cases hr
      decide +kernel
    obtain ⟨-, hnone⟩ := runProgram_follows_trajectory idling ⟨#v[0]⟩ ⟨1, 0⟩
    exact ⟨hnever, hrange, (hnone hnever hrange).1⟩

end Machine

end RegisterMachine
