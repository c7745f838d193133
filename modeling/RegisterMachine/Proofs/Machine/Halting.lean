import RegisterMachine.Proofs.Machine.Moves

set_option autoImplicit false

/-!
# Runs that never halt

`Machine.run` makes a bounded number of moves and takes a machine that is still running then for one
that never halts.  It is right in this for every machine, whatever its checkpoint has seen: within
as many instructions as there are register files the trajectory comes back to a file, and if a
second round does not stop the machine, then nothing ever will.

So a run has the result in which the moves of the machine end, if they do, and none otherwise.
-/

namespace RegisterMachine.Machine

open BareMachine

variable {n : Nat} {m m' last : Machine n} {monitor : CheckpointMonitor n} {r : RegisterFile n}
  {result : Except Fault (Machine n)} {j k : Nat}

/-! ## Running machines -/

/-- After `k` moves the machine is still running. -/
structure RunsTo (m : Machine n) (k : Nat) (m' : Machine n) : Prop where
  /-- These moves are made. -/
  moves : m.stepTimes k = .ok m'
  /-- None of them is a halt. -/
  running : m'.state = .running

theorem RunsTo.proceed (h : m.RunsTo k m') (hnext : m'.bare.next? m'.registers = some r)
    (hnew : ¬ m'.Repeating) : m.RunsTo (k + 1) (m'.proceed r) where
  moves := by rw [stepTimes_succ_of_stepTimes h.moves, step_of_next h.running hnext hnew]
  running := h.running

/-- The last move has executed an instruction. -/
theorem RunsTo.exists_proceed (h : m.RunsTo (k + 1) last) :
    ∃ m' r, m.RunsTo k m' ∧ m'.bare.next? m'.registers = some r ∧ ¬ m'.Repeating ∧
      last = m'.proceed r := by
  obtain ⟨m', hm', hstep⟩ := exists_stepTimes_of_succ h.moves
  obtain ⟨r, hnext, hnew, rfl⟩ := exists_proceed_of_step hstep h.running
  exact ⟨m', r, ⟨hm', state_eq_running_of_step hstep h.running⟩, hnext, hnew, rfl⟩

theorem RunsTo.exists_of_le (h : m.RunsTo k last) (hjk : j ≤ k) : ∃ m', m.RunsTo j m' := by
  induction k generalizing last with
  | zero =>
    cases Nat.le_zero.mp hjk
    exact ⟨last, h⟩
  | succ k ih =>
    rcases Nat.le_succ_iff.mp hjk with hle | rfl
    · obtain ⟨m', r, hm', -⟩ := h.exists_proceed
      exact ih hm' hle
    · exact ⟨last, h⟩

theorem RunsTo.bare_eq (h : m.RunsTo k m') : m'.bare = m.bare := by
  induction k generalizing m' with
  | zero =>
    cases h.moves
    rfl
  | succ k ih =>
    obtain ⟨before, r, hbefore, -, -, rfl⟩ := h.exists_proceed
    rw [bare_proceed, ih hbefore]

/-- A machine that is running has gone along the trajectory from its registers. -/
theorem RunsTo.trajectory_eq (h : m.RunsTo k m') :
    m.bare.trajectory m.registers k = some m'.registers := by
  induction k generalizing m' with
  | zero =>
    cases h.moves
    rfl
  | succ k ih =>
    obtain ⟨before, r, hbefore, hnext, -, rfl⟩ := h.exists_proceed
    rw [trajectory_succ_of_eq_some (ih hbefore), ← hbefore.bare_eq, hnext, registers_proceed]

/-- The checkpoint, if there is one, is the same and has seen the visits since. -/
theorem RunsTo.exists_monitor_eq_map (h : m.RunsTo k m') :
    ∃ f : CheckpointMonitor n → CheckpointMonitor n, m'.monitor = m.monitor.map f ∧
      ∀ monitor, (f monitor).watch = monitor.watch ∧
        ∀ v, v ∈ (f monitor).seen ↔
          v ∈ monitor.seen ∨ v ∈ m.bare.visits m.registers monitor.watch k := by
  induction k generalizing m' with
  | zero =>
    cases h.moves
    exact ⟨id, by simp, fun monitor => ⟨rfl, by simp [visits]⟩⟩
  | succ k ih =>
    obtain ⟨before, r, hbefore, -, -, rfl⟩ := h.exists_proceed
    obtain ⟨f, hmap, hf⟩ := ih hbefore
    refine ⟨fun monitor => (f monitor).passing before.bare before.registers, ?_, ?_⟩
    · rw [monitor_proceed, hmap, Option.map_map]
      rfl
    · intro monitor
      obtain ⟨hwatch, hseen⟩ := hf monitor
      refine ⟨by rw [CheckpointMonitor.watch_passing, hwatch], ?_⟩
      intro v
      rw [CheckpointMonitor.mem_seen_passing_iff, hseen, hwatch, hbefore.bare_eq,
        visits_succ hbefore.trajectory_eq, List.mem_append, or_assoc]

/-- A value is seen again if it was seen at first or at a visit since. -/
theorem RunsTo.repeating_iff (h : m.RunsTo k m') :
    m'.Repeating ↔
      ∃ monitor ∈ m.monitor, ∃ v ∈ m.bare.watched? monitor.watch m'.registers,
        v ∈ monitor.seen ∨ v ∈ m.bare.visits m.registers monitor.watch k := by
  obtain ⟨f, hmap, hf⟩ := h.exists_monitor_eq_map
  simp only [Repeating, hmap, h.bare_eq, Option.mem_def, Option.map_eq_some_iff,
    exists_exists_and_eq_and, (hf _).1, (hf _).2]

/-! ## A second round without a halt -/

/-- A machine that is running after two rounds through all register files never halts. -/
theorem RunsTo.exists_of_moveBound (h : m.RunsTo (moveBound n) last) (k : Nat) :
    ∃ m', m.RunsTo k m' := by
  have hbound : moveBound n = 2 * fileCount n + 1 := rfl
  obtain ⟨first, hfirst⟩ := h.exists_of_le (j := fileCount n) (by omega)
  obtain ⟨p, q, hpq, hq, hsame⟩ := exists_recurs hfirst.trajectory_eq
  induction k with
  | zero => exact h.exists_of_le (Nat.zero_le _)
  | succ k ih =>
    obtain ⟨m', hm'⟩ := ih
    rcases Nat.lt_or_ge k (moveBound n) with hlt | hge
    · exact h.exists_of_le hlt
    · -- The same file was there in the first round, where an instruction was executed.
      obtain ⟨d, hd, hround⟩ : ∃ d, p + d < q ∧
          m.bare.trajectory m.registers (p + d) = m.bare.trajectory m.registers k := by
        obtain ⟨j, hpj, hjq, hj⟩ := exists_lt_of_recurs hpq hsame (show p ≤ k by omega)
        obtain ⟨d, rfl⟩ := Nat.exists_eq_add_of_le hpj
        exact ⟨d, hjq, hj⟩
      have hagain := trajectory_add_of_recurs hsame d
      rw [hm'.trajectory_eq] at hround
      rw [hround] at hagain
      obtain ⟨next, hnext⟩ := h.exists_of_le (j := q + d + 1) (by omega)
      obtain ⟨second, r, hsecond, hexecuted, hnew, -⟩ := hnext.exists_proceed
      have hregisters : second.registers = m'.registers :=
        Option.some.inj (hsecond.trajectory_eq.symm.trans hagain.symm)
      rw [hsecond.bare_eq, hregisters] at hexecuted
      refine ⟨m'.proceed r, hm'.proceed (by rwa [hm'.bare_eq]) ?_⟩
      rw [hm'.repeating_iff]
      rintro ⟨monitor, hmonitor, v, hv, -⟩
      -- What the checkpoint sees it saw in the first round, so the second would have stopped.
      have hvisited : v ∈ m.bare.visits m.registers monitor.watch (q + d) := by
        rw [Option.mem_def, watched?_eq_some_iff] at hv
        exact mem_visits_iff.mpr ⟨p + d, by omega, m'.registers, hround, hv⟩
      apply hnew
      rw [hsecond.repeating_iff, hregisters]
      exact ⟨monitor, hmonitor, v, hv, Or.inr hvisited⟩

/-! ## What a run answers -/

/-- A result after which nothing more happens: a fault, or a machine that has halted. -/
def IsFinal (result : Except Fault (Machine n)) : Prop :=
  ∀ m, result = .ok m → m.state.isHalted = true

theorem stepTimes_add (m : Machine n) (j k : Nat) :
    m.stepTimes (j + k) = (m.stepTimes j).bind fun m' => m'.stepTimes k := by
  induction j generalizing m with
  | zero =>
    rw [Nat.zero_add]
    rfl
  | succ j ih =>
    rw [Nat.succ_add, stepTimes, stepTimes]
    cases m.step with
    | error fault => rfl
    | ok next => exact ih next

/-- More moves do not change a final result. -/
theorem IsFinal.stepTimes_eq_of_le (h : IsFinal (m.stepTimes j)) (hjk : j ≤ k) :
    m.stepTimes k = m.stepTimes j := by
  obtain ⟨d, rfl⟩ := Nat.exists_eq_add_of_le hjk
  rw [stepTimes_add]
  cases hm' : m.stepTimes j with
  | error fault => rfl
  | ok m' => exact stepTimes_of_isHalted (h m' hm') d

/-- The moves of a machine end in one result only. -/
theorem IsFinal.stepTimes_unique (h : IsFinal (m.stepTimes j)) (h' : IsFinal (m.stepTimes k)) :
    m.stepTimes j = m.stepTimes k := by
  rcases Nat.le_total j k with hle | hle
  · exact (h.stepTimes_eq_of_le hle).symm
  · exact h'.stepTimes_eq_of_le hle

/-- The result of a run is final, and the moves of the machine have it. -/
theorem stepTimes_of_runFor (h : m.runFor k = some result) :
    IsFinal result ∧ m.stepTimes k = result := by
  induction k generalizing m with
  | zero => cases h
  | succ k ih =>
    cases hstep : m.step with
    | error fault =>
      rw [runFor_succ_of_error k hstep] at h
      cases h
      exact ⟨fun m' hm' => (by cases hm'), by rw [stepTimes, hstep]⟩
    | ok next =>
      rw [stepTimes_succ_of_step k hstep]
      cases hhalted : next.state.isHalted with
      | true =>
        rw [runFor_succ_of_halted k hstep hhalted] at h
        cases h
        exact ⟨fun m' hm' => (by cases hm'; exact hhalted), stepTimes_of_isHalted hhalted k⟩
      | false =>
        rw [runFor_succ_of_running k hstep hhalted] at h
        exact ih h

theorem exists_runsTo_of_runFor_eq_none (running : m.state = .running)
    (h : m.runFor k = none) : ∃ m', m.RunsTo k m' := by
  induction k generalizing m with
  | zero => exact ⟨m, rfl, running⟩
  | succ k ih =>
    cases hstep : m.step with
    | error fault =>
      rw [runFor_succ_of_error k hstep] at h
      cases h
    | ok next =>
      cases hstate : next.state with
      | running =>
        rw [runFor_succ_of_running k hstep (by rw [hstate]; rfl)] at h
        obtain ⟨m', hm'⟩ := ih hstate h
        exact ⟨m', by rw [stepTimes_succ_of_step k hstep, hm'.moves], hm'.running⟩
      | leftProgram | valueRepeated =>
        rw [runFor_succ_of_halted k hstep (by rw [hstate]; rfl)] at h
        cases h

/-- **A run has no result exactly if the machine never halts**, whatever its checkpoint has seen. -/
theorem run_eq_none_iff : m.run = none ↔ ∀ k, ∃ m', m.RunsTo k m' := by
  constructor
  · intro hrun
    cases hstate : m.state with
    | running =>
      obtain ⟨last, hlast⟩ := exists_runsTo_of_runFor_eq_none hstate hrun
      exact hlast.exists_of_moveBound
    | leftProgram | valueRepeated =>
      -- A machine that has halted is the result of its run.
      have hhalted : m.state.isHalted = true := by rw [hstate]; rfl
      rw [run, moveBound, runFor_succ_of_halted _ (step_of_isHalted hhalted) hhalted] at hrun
      cases hrun
  · intro hforever
    obtain ⟨m', hm'⟩ := hforever (moveBound n)
    refine runFor_eq_none_of_running hm'.moves ?_
    rw [hm'.running]
    rfl

/-- The result of a run is the one in which the moves of the machine end. -/
theorem run_eq_some_iff : m.run = some result ↔ IsFinal result ∧ ∃ k, m.stepTimes k = result := by
  constructor
  · intro hrun
    obtain ⟨hfinal, hmoves⟩ := stepTimes_of_runFor hrun
    exact ⟨hfinal, _, hmoves⟩
  · rintro ⟨hfinal, k, rfl⟩
    cases hrun : m.run with
    | none =>
      obtain ⟨m', hm'⟩ := run_eq_none_iff.mp hrun k
      have hhalted := hfinal m' hm'.moves
      rw [hm'.running] at hhalted
      cases hhalted
    | some result =>
      obtain ⟨hfinal', rfl⟩ := stepTimes_of_runFor hrun
      rw [hfinal.stepTimes_unique hfinal']

/-- If what is done to a machine can as well be done after any number of its moves, then it can be
done after its run. -/
theorem run_map {f : Machine n → Machine n} (hstate : ∀ m : Machine n, (f m).state = m.state)
    (hmoves : ∀ k, (f m).stepTimes k = (m.stepTimes k).map f) :
    (f m).run = m.run.map fun result => result.map f := by
  cases hrun : m.run with
  | none =>
    rw [Option.map_none, run_eq_none_iff]
    intro k
    obtain ⟨m', hm', hrunning⟩ := run_eq_none_iff.mp hrun k
    exact ⟨f m', by rw [hmoves, hm', Except.map], (hstate m').trans hrunning⟩
  | some result =>
    obtain ⟨hfinal, k, rfl⟩ := run_eq_some_iff.mp hrun
    rw [Option.map_some, run_eq_some_iff]
    refine ⟨?_, k, hmoves k⟩
    intro m' hm'
    cases hlast : m.stepTimes k with
    | error fault =>
      rw [hlast] at hm'
      cases hm'
    | ok last =>
      rw [hlast] at hm'
      cases hm'
      rw [hstate]
      exact hfinal last hlast

end RegisterMachine.Machine
