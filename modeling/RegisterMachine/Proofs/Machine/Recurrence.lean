import RegisterMachine.Proofs.Machine.Unwatched

set_option autoImplicit false

/-!
# Register files that come back

What a machine does next depends on its registers alone, as long as no checkpoint stops it.  So a
register file that comes back comes back again and again: the machine goes round in a loop for ever.
Since there are finitely many register files, a program that names no register that does not exist
leaves the program if no file comes back, and never else.

A checkpoint at a position on the loop sees the same value one round later at the latest, and stops
the machine.
-/

namespace RegisterMachine

namespace BareMachine

variable {n : Nat} {b : BareMachine n} {w : Watch n} {r initial : RegisterFile n} {j k p q : Nat}

/-! ## Trajectories with a file that comes back -/

/-- The trajectory has the same file after `p` and after `q` instructions. -/
def Recurs (b : BareMachine n) (initial : RegisterFile n) (p q : Nat) : Prop :=
  p < q ∧ ∃ r, b.trajectory initial p = some r ∧ b.trajectory initial q = some r

theorem Recurs.trajectory_eq (h : b.Recurs initial p q) :
    b.trajectory initial p = b.trajectory initial q := by
  obtain ⟨-, r, hp, hq⟩ := h
  rw [hp, hq]

/-- A trajectory that comes back to a file never ends. -/
theorem Recurs.exists_trajectory (h : b.Recurs initial p q) (k : Nat) :
    ∃ r, b.trajectory initial k = some r := by
  have hsame := h.trajectory_eq
  obtain ⟨hpq, r, -, hq⟩ := h
  rcases Nat.lt_or_ge k p with hlt | hge
  · exact exists_trajectory_of_le hq (by omega)
  · obtain ⟨j, -, hjq, hj⟩ := exists_lt_of_recurs hpq hsame hge
    obtain ⟨r', hr'⟩ := exists_trajectory_of_le hq (show j ≤ q by omega)
    exact ⟨r', hj.symm.trans hr'⟩

theorem Recurs.not_leaves (h : b.Recurs initial p q) (k : Nat) : ¬ b.Leaves initial k := by
  obtain ⟨r, hr⟩ := h.exists_trajectory k
  obtain ⟨r', hr'⟩ := h.exists_trajectory (k + 1)
  rw [leaves_iff hr, Nat.not_le]
  exact position_lt_of_trajectory hr' (Nat.lt_succ_self k) hr

/-- A trajectory with a watched position on its loop ends at the latest when it is there one round
later, by repeating a value. -/
theorem Recurs.exists_endsAt (h : b.Recurs initial p q) (hpj : p ≤ j)
    (hr : b.trajectory initial j = some r) (hposition : b.position r = w.position) :
    ∃ k ≤ j + (q - p), b.EndsAt initial w k ∧ b.Repeats initial w k := by
  have hrepeats := repeats_of_recurs h.1 h.trajectory_eq hpj hr hposition
  have hexists : ∃ k, b.Repeats initial w k := ⟨_, hrepeats⟩
  refine ⟨Nat.find hexists, Nat.find_min' hexists hrepeats,
    ⟨Or.inr (Nat.find_spec hexists), ?_⟩, Nat.find_spec hexists⟩
  rintro m hm (hleaves | hearlier)
  · exact h.not_leaves m hleaves
  · exact Nat.find_min hexists hm hearlier

/-- Where a value is repeated, the checkpoint has seen something. -/
theorem Repeats.summary_visits_ne_none (h : b.Repeats initial w k) :
    CheckpointReport.summary (b.visits initial w k) ≠ none := by
  obtain ⟨r, hr, -⟩ := id h
  rw [repeats_iff hr] at h
  rw [Ne, CheckpointReport.summary_eq_none_iff]
  exact List.ne_nil_of_mem h.2

/-- A trajectory to which no file comes back is shorter than the list of all files. -/
theorem lt_fileCount_of_not_recurs (hnever : ∀ p q, ¬ b.Recurs initial p q)
    (hr : b.trajectory initial k = some r) : k < fileCount n := by
  by_contra hlong
  obtain ⟨r', hr'⟩ := exists_trajectory_of_le hr (Nat.le_of_not_lt hlong)
  obtain ⟨p, q, hpq, hq, hsame⟩ := exists_recurs hr'
  obtain ⟨r'', hr''⟩ := exists_trajectory_of_le hr' hq
  exact hnever p q ⟨hpq, r'', hsame.trans hr'', hr''⟩

/-- If moreover all registers that the program names exist, the trajectory leaves the program. -/
theorem exists_leaves_of_not_recurs (hrange : ∀ i ∈ b.program, i.InRange n)
    (hnever : ∀ p q, ¬ b.Recurs initial p q) :
    ∃ k r, b.trajectory initial k = some r ∧ b.Leaves initial k := by
  by_contra hstays
  have hinside : ∀ k, ¬ b.Leaves initial k := by
    intro k hleaves
    obtain ⟨r, hr, -⟩ := id hleaves
    exact hstays ⟨k, r, hr, hleaves⟩
  have hfetched : ∀ k, ∀ r ∈ b.trajectory initial k, ∀ i ∈ b.fetch? r, i.InRange n := by
    intro k r _ i hi
    exact hrange i (Array.mem_of_getElem? hi)
  obtain ⟨r, hr⟩ := exists_trajectory_of_never_leaves hinside hfetched (fileCount n)
  exact Nat.lt_irrefl _ (lt_fileCount_of_not_recurs hnever hr)

end BareMachine

/-! ## Machines that go round in a loop -/

namespace Machine

open BareMachine

variable {n : Nat} {b : BareMachine n} {initial : RegisterFile n} {k p q : Nat}

/-- The machine has the same registers after `p` moves and, still running, after `q` moves.  Each of
these moves has then executed an instruction, and since the instruction pointer was inside the
program after `p` moves, so it is after `q`. -/
def Loops (m : Machine n) (p q : Nat) : Prop :=
  p < q ∧ ∃ mp mq, m.stepTimes p = .ok mp ∧ m.stepTimes q = .ok mq ∧ mq.state = .running ∧
    mp.registers = mq.registers

/-- The run of a machine without a checkpoint ends where the trajectory leaves the program. -/
theorem runProgram_of_leaves {r : RegisterFile n} (hr : b.trajectory initial k = some r)
    (hleaves : b.Leaves initial k) :
    runProgram b.program b.ipRegister initial none =
      some (.ok { registers := r
                  state := .leftProgram
                  steps := .ofNat k
                  report := none }) := by
  have hlt : k < fileCount n :=
    lt_fileCount_of_not_recurs (fun _ _ hrecurs => hrecurs.not_leaves k hleaves) hr
  obtain ⟨final, hhalts, houtcome⟩ := exists_haltsAfter_of_leaves hr hleaves
  rw [hhalts.runProgram_eq ?_ (prepare_eq_startUnwatched b initial), houtcome]
  show k < 2 * fileCount n + 1
  omega

theorem loops_startUnwatched_iff :
    (startUnwatched b initial).Loops p q ↔ b.Recurs initial p q := by
  constructor
  · rintro ⟨hpq, mp, mq, hp, hq, hrunning, hsame⟩
    have hrunning' := state_eq_running_of_le hq hrunning hp (show p ≤ q by omega)
    have htrajectory := (unwatched_of_running hp hrunning').follows.on_trajectory
    have htrajectory' := (unwatched_of_running hq hrunning).follows.on_trajectory
    exact ⟨hpq, mp.registers, htrajectory, by rw [htrajectory', hsame]⟩
  · rintro ⟨hpq, r, hp, hq⟩
    obtain ⟨mp, hmp, hunwatched⟩ := exists_unwatched hp
    obtain ⟨mq, hmq, hunwatched'⟩ := exists_unwatched hq
    have hsame : mp.registers = mq.registers := by
      rw [hunwatched.follows.registers_eq hp, hunwatched'.follows.registers_eq hq]
    exact ⟨hpq, mp, mq, hmp, hmq, hunwatched'.running, hsame⟩

/-- A machine that goes round in a loop is running after any number of moves. -/
theorem Loops.exists_running (h : (startUnwatched b initial).Loops p q) (k : Nat) :
    ∃ m', (startUnwatched b initial).stepTimes k = .ok m' ∧ m'.state = .running := by
  rw [loops_startUnwatched_iff] at h
  obtain ⟨r, hr⟩ := h.exists_trajectory k
  obtain ⟨m', hm', hunwatched⟩ := exists_unwatched hr
  exact ⟨m', hm', hunwatched.running⟩

/-- **A checkpoint on a loop stops it.**  Let the machine without a checkpoint come back after `q`
instructions to the registers that it had after `p`.  A checkpoint at any position on the loop,
reached after `j` instructions, halts the run by a repeated value, whichever register it watches,
after at most one round more, and the report tells what it has seen. -/
theorem checkpoint_stops_loop (b : BareMachine n) (initial : RegisterFile n) :
    ∃ m, prepare b.program b.ipRegister initial none = .ok m ∧
      ∀ p q, m.Loops p q → ∀ j mj, p ≤ j → j < q → m.stepTimes j = .ok mj → ∀ register : Fin n,
        ∃ watched final k,
          prepare b.program b.ipRegister initial (some ⟨mj.ip.toNat, register⟩) = .ok watched ∧
          watched.HaltsAfter k final ∧ k ≤ j + (q - p) ∧
          runProgram b.program b.ipRegister initial (some ⟨mj.ip.toNat, register⟩) =
            some (.ok final.outcome) ∧
          final.outcome.state = .valueRepeated ∧ final.outcome.steps = .ofNat k ∧
          final.outcome.report ≠ none := by
  refine ⟨startUnwatched b initial, prepare_eq_startUnwatched b initial, ?_⟩
  intro p q hloops j mj hpj hjq hj register
  obtain ⟨-, -, mq, -, hq, hrunning, -⟩ := id hloops
  rw [loops_startUnwatched_iff] at hloops
  have hrunning' := state_eq_running_of_le hq hrunning hj (show j ≤ q by omega)
  have hfollows := (unwatched_of_running hj hrunning').follows
  have hprepare := prepare_eq_start b initial ⟨mj.ip.toNat, register⟩
  obtain ⟨k, hk, hends, hrepeats⟩ :=
    hloops.exists_endsAt (w := ⟨mj.ip.toNat, register⟩) hpj hfollows.on_trajectory
      hfollows.position_eq
  obtain ⟨r, hr, -⟩ := id hrepeats
  obtain ⟨final, hhalts, houtcome⟩ := exists_haltsAfter_of_endsAt hends hr rfl
    fun m' hm' => hm'.step_of_repeats hrepeats
  refine ⟨_, final, k, hprepare, hhalts, hk,
    hhalts.runProgram_eq hends.lt_moveBound hprepare, ?_, ?_, ?_⟩
  · rw [houtcome]
  · rw [houtcome]
  · rw [houtcome]
    exact hrepeats.summary_visits_ne_none

/-- The loop of six instructions is stopped by a checkpoint at the position of its second one, which
watches the register that goes back and forth. -/
theorem checkpoint_stops_loop_toggling :
    (startUnwatched toggling ⟨#v[0, 0]⟩).Loops 0 6 ∧
      ∃ mj, (startUnwatched toggling ⟨#v[0, 0]⟩).stepTimes 1 = .ok mj ∧ mj.ip.toNat = 1 ∧
        ∃ watched final k,
          prepare toggling.program 0 ⟨#v[0, 0]⟩ (some ⟨1, 1⟩) = .ok watched ∧
          watched.HaltsAfter k final ∧ k ≤ 1 + 6 ∧
          runProgram toggling.program 0 ⟨#v[0, 0]⟩ (some ⟨1, 1⟩) = some (.ok final.outcome) ∧
          final.outcome.state = .valueRepeated ∧ final.outcome.report ≠ none := by
  have hloops : (startUnwatched toggling ⟨#v[0, 0]⟩).Loops 0 6 :=
    loops_startUnwatched_iff.mpr ⟨by decide, _, rfl, by decide +kernel⟩
  have hreached : toggling.trajectory ⟨#v[0, 0]⟩ 1 = some ⟨#v[1, 1]⟩ := by decide +kernel
  obtain ⟨mj, hj, hunwatched⟩ := exists_unwatched hreached
  have hposition : mj.ip.toNat = 1 := by
    rw [← hunwatched.follows.position_eq, hunwatched.follows.registers_eq hreached]
    decide +kernel
  obtain ⟨m, hm, hstops⟩ := checkpoint_stops_loop toggling ⟨#v[0, 0]⟩
  rw [prepare_eq_startUnwatched] at hm
  cases hm
  obtain ⟨watched, final, k, hprepare, hhalts, hk, hrun, hstate, -, hreport⟩ :=
    hstops 0 6 hloops 1 mj (by decide) (by decide) hj 1
  rw [hposition] at hprepare hrun
  exact ⟨hloops, mj, hj, hposition, watched, final, k, hprepare, hhalts, hk, hrun, hstate, hreport⟩

/-- **Without a checkpoint, a machine halts exactly if no register file comes back.**  If no
instruction names a register that does not exist, the machine leaves the program after some moves
exactly if there are not two points of the run, inside the program, with the same registers.  If
there are, the machine is running after any number of moves, and only then its run has no end. -/
theorem leaves_program_iff_not_loops (b : BareMachine n) (initial : RegisterFile n)
    (hrange : ∀ i ∈ b.program, i.InRange n) :
    ∃ m, prepare b.program b.ipRegister initial none = .ok m ∧
      ((∃ k m', m.stepTimes k = .ok m' ∧ m'.state = .leftProgram) ↔ ¬ ∃ p q, m.Loops p q) ∧
      ((∃ p q, m.Loops p q) → ∀ k, ∃ m', m.stepTimes k = .ok m' ∧ m'.state = .running) ∧
      (runProgram b.program b.ipRegister initial none = none ↔ ∃ p q, m.Loops p q) := by
  have hprepare := prepare_eq_startUnwatched b initial
  have hforever : (∃ p q, (startUnwatched b initial).Loops p q) →
      ∀ k, ∃ m', (startUnwatched b initial).stepTimes k = .ok m' ∧ m'.state = .running := by
    rintro ⟨p, q, hloops⟩
    exact hloops.exists_running
  have hends : (¬ ∃ p q, (startUnwatched b initial).Loops p q) →
      ∃ k r, b.trajectory initial k = some r ∧ b.Leaves initial k := by
    intro hnever
    refine exists_leaves_of_not_recurs hrange ?_
    intro p q hrecurs
    exact hnever ⟨p, q, loops_startUnwatched_iff.mpr hrecurs⟩
  refine ⟨startUnwatched b initial, hprepare, ⟨?_, ?_⟩, hforever, ⟨?_, ?_⟩⟩
  · rintro ⟨k, m', hm', hleft⟩ hloops
    obtain ⟨m'', hm'', hrunning⟩ := hforever hloops k
    rw [hm'] at hm''
    cases hm''
    rw [hleft] at hrunning
    cases hrunning
  · intro hnever
    obtain ⟨k, r, hr, hleaves⟩ := hends hnever
    obtain ⟨final, hfinal, houtcome⟩ := exists_haltsAfter_of_leaves hr hleaves
    exact ⟨k + 1, final, hfinal.halts, congrArg Outcome.state houtcome⟩
  · intro hrun
    by_contra hnever
    obtain ⟨k, r, hr, hleaves⟩ := hends hnever
    rw [runProgram_of_leaves hr hleaves] at hrun
    cases hrun
  · intro hloops
    obtain ⟨m', hm', hrunning⟩ := hforever hloops (moveBound n)
    exact runProgram_eq_none_of_running hprepare hm' hrunning

/-- A program of one instruction, which raises register 1. -/
def counting : BareMachine 2 where
  program := #[⟨.addi, ⟨1, 1, 1⟩⟩]
  ipRegister := ⟨0, Nat.zero_lt_two⟩

/-- The loop has no end.  The program of one instruction comes to its end, so no file comes back. -/
theorem leaves_program_iff_not_loops_toggling :
    (∀ i ∈ toggling.program, i.InRange 2) ∧
      runProgram toggling.program 0 ⟨#v[0, 0]⟩ none = none ∧
      (∀ i ∈ counting.program, i.InRange 2) ∧
      ¬ ∃ p q, (startUnwatched counting ⟨#v[0, 5]⟩).Loops p q := by
  have hrange : ∀ i ∈ toggling.program, i.InRange 2 := by decide +kernel
  have hrange' : ∀ i ∈ counting.program, i.InRange 2 := by decide +kernel
  refine ⟨hrange, ?_, hrange', ?_⟩
  · obtain ⟨m, hm, -, -, hend⟩ := leaves_program_iff_not_loops toggling ⟨#v[0, 0]⟩ hrange
    rw [prepare_eq_startUnwatched] at hm
    cases hm
    exact hend.mpr ⟨0, 6, loops_startUnwatched_iff.mpr ⟨by decide, _, rfl, by decide +kernel⟩⟩
  · have hreached : counting.trajectory ⟨#v[0, 5]⟩ 1 = some ⟨#v[1, 6]⟩ := by decide +kernel
    obtain ⟨final, hhalts, houtcome⟩ := exists_haltsAfter_of_leaves hreached (by decide +kernel)
    obtain ⟨m, hm, hleaves, -, -⟩ := leaves_program_iff_not_loops counting ⟨#v[0, 5]⟩ hrange'
    rw [prepare_eq_startUnwatched] at hm
    cases hm
    exact hleaves.mp ⟨2, final, hhalts.halts, congrArg Outcome.state houtcome⟩

end Machine

end RegisterMachine
