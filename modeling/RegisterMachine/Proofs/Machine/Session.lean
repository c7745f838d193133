import RegisterMachine.Proofs.Machine.Command
import RegisterMachine.Proofs.Machine.Halting
import RegisterMachine.Proofs.Machine.Unwatched

set_option autoImplicit false

/-!
# Machines driven by hand

Whatever a machine is commanded to do, it is on the trajectory of the bare machine, as far along as
it has counted, and once it has halted nothing moves it any more.

What its checkpoint reports is the visits since that checkpoint was set, and these are the values
that the trajectory shows from there on.
-/

namespace RegisterMachine.Machine

open BareMachine

variable {n : Nat} {m next start last : Machine n} {b : BareMachine n} {w : Watch n}
  {r r' initial : RegisterFile n} {d k : Nat}

/-! ## On the trajectory -/

theorem Follows.proceed (h : m.Follows b initial k) (hnext : m.bare.next? m.registers = some r) :
    (m.proceed r).Follows b initial (k + 1) := by
  obtain ⟨rfl, htrajectory, hsteps⟩ := h
  refine ⟨rfl, ?_, ?_⟩
  · rw [trajectory_succ_of_eq_some htrajectory, hnext, registers_proceed]
  · rw [steps_proceed, hsteps, UInt64.ofNat_add]
    rfl

/-- What is true of a machine after some commands. -/
structure Driven (b : BareMachine n) (initial : RegisterFile n) (commands : List Command)
    (m : Machine n) : Prop where
  /-- It is on the trajectory, and not further than moves were asked for. -/
  follows : ∃ k ≤ commands.count .step, m.Follows b initial k
  /-- Its checkpoint is the last one set. -/
  in_force : m.monitor.map (fun monitor => monitor.watch.checkpoint) = inForce commands
  /-- If it has left the program, its instruction pointer is outside. -/
  outside : m.state = .leftProgram → b.program.size ≤ b.position m.registers

theorem Driven.step {commands : List Command} (h : m.Driven b initial commands)
    (hstep : m.step = .ok next) : next.Driven b initial (commands ++ [.step]) := by
  obtain ⟨⟨k, hk, hfollows⟩, hforce, houtside⟩ := h
  have hcount : (commands ++ [Command.step]).count .step = commands.count .step + 1 := by
    simp
  cases moves_of_step hstep with
  | rest => exact ⟨⟨k, by omega, hfollows⟩, by rwa [inForce_append_step], houtside⟩
  | leave _ houtside' =>
    refine ⟨⟨k, by omega, hfollows.bare_eq, hfollows.on_trajectory, hfollows.steps_eq⟩,
      by rwa [inForce_append_step], fun _ => ?_⟩
    rw [← hfollows.bare_eq]
    exact fetch?_eq_none_iff.mp houtside'
  | stop =>
    exact ⟨⟨k, by omega, hfollows.bare_eq, hfollows.on_trajectory, hfollows.steps_eq⟩,
      by rwa [inForce_append_step], fun hleft => by cases hleft⟩
  | proceed running hnext =>
    refine ⟨⟨k + 1, by omega, hfollows.proceed hnext⟩, ?_, ?_⟩
    · rw [inForce_append_step, ← hforce, monitor_proceed, Option.map_map]
      simp only [Function.comp_def, CheckpointMonitor.watch_passing]
    · rw [state_proceed, running]
      rintro ⟨⟩

theorem Driven.carryOut {commands : List Command} {command : Command}
    (h : m.Driven b initial commands) (hnext : m.carryOut command = .ok next) :
    next.Driven b initial (commands ++ [command]) := by
  cases command with
  | step => exact h.step hnext
  | trace on =>
    cases hnext
    obtain ⟨⟨k, hk, hfollows⟩, hforce, houtside⟩ := h
    exact ⟨⟨k, by simpa using hk, hfollows.bare_eq, hfollows.on_trajectory, hfollows.steps_eq⟩,
      by rwa [inForce_append_trace], houtside⟩
  | watch checkpoint =>
    obtain ⟨w, rfl, rfl⟩ := withCheckpoint_eq_ok_iff.mp hnext
    obtain ⟨⟨k, hk, hfollows⟩, -, houtside⟩ := h
    exact ⟨⟨k, by simpa using hk, hfollows.bare_eq, hfollows.on_trajectory, hfollows.steps_eq⟩,
      by rw [inForce_append_watch]; rfl, houtside⟩

theorem driven_of_carryOutAll {commands : List Command}
    (h : (startUnwatched b initial).carryOutAll commands = .ok m) :
    m.Driven b initial commands := by
  induction commands using List.reverseRecOn generalizing m with
  | nil =>
    cases h
    exact ⟨⟨0, Nat.zero_le _, rfl, rfl, rfl⟩, rfl, by rintro ⟨⟩⟩
  | append_singleton commands command ih =>
    obtain ⟨m', hm', hlast⟩ := exists_of_carryOutAll_append h
    rw [carryOutAll_singleton] at hlast
    exact (ih hm').carryOut hlast

/-! ## Why a machine has stopped -/

/-- A checkpoint that sees a value is the one in force, and the instruction pointer is there. -/
theorem Driven.exists_inForce {commands : List Command} (h : m.Driven b initial commands)
    (hrepeating : m.Repeating) :
    ∃ c, inForce commands = some c ∧ b.position m.registers = c.position := by
  obtain ⟨⟨k, -, hfollows⟩, hforce, -⟩ := h
  obtain ⟨monitor, hmonitor, v, hv, -⟩ := hrepeating
  rw [Option.mem_def] at hmonitor hv
  rw [hfollows.bare_eq, watched?_eq_some_iff] at hv
  rw [hmonitor, Option.map_some] at hforce
  exact ⟨_, hforce.symm, hv.1⟩

/-- A running machine is stopped by a move at which its checkpoint sees a value again. -/
theorem repeating_of_carryOut {command : Command} (running : m.state = .running)
    (h : m.carryOut command = .ok next) (stopped : next.state = .valueRepeated) :
    command = .step ∧ m.Repeating ∧ next = { m with state := .valueRepeated } := by
  cases command with
  | step =>
    cases moves_of_step (show m.step = .ok next from h) with
    | rest halted =>
      rw [running] at halted
      cases halted
    | leave => cases stopped
    | stop _ inside hrepeating => exact ⟨rfl, hrepeating, rfl⟩
    | proceed =>
      rw [state_proceed, running] at stopped
      cases stopped
  | trace on =>
    cases h
    rw [show (m.withTrace on).state = m.state from rfl, running] at stopped
    cases stopped
  | watch checkpoint =>
    obtain ⟨w, -, rfl⟩ := withCheckpoint_eq_ok_iff.mp h
    rw [show (m.watching w).state = m.state from rfl, running] at stopped
    cases stopped

/-- A machine whose checkpoint has seen a value again was stopped by one of the moves, and has its
registers from then. -/
theorem exists_stop_of_carryOutAll {commands : List Command} (running : start.state = .running)
    (h : start.carryOutAll commands = .ok m) (stopped : m.state = .valueRepeated) :
    ∃ before rest mid, commands = before ++ .step :: rest ∧
      start.carryOutAll before = .ok mid ∧ mid.state = .running ∧ mid.Repeating ∧
      mid.step = .ok { mid with state := .valueRepeated } ∧ m.registers = mid.registers := by
  induction commands using List.reverseRecOn generalizing m with
  | nil =>
    cases h
    rw [running] at stopped
    cases stopped
  | append_singleton commands command ih =>
    obtain ⟨m', hm', hlast⟩ := exists_of_carryOutAll_append h
    rw [carryOutAll_singleton] at hlast
    cases hstate : m'.state with
    | running =>
      obtain ⟨rfl, hrepeating, rfl⟩ := repeating_of_carryOut hstate hlast stopped
      exact ⟨commands, [], m', rfl, hm', hstate, hrepeating, hlast, rfl⟩
    | leftProgram =>
      obtain ⟨-, -, hsame⟩ := carryOut_of_isHalted (by rw [hstate]; rfl) hlast
      rw [hsame, hstate] at stopped
      cases stopped
    | valueRepeated =>
      obtain ⟨hregisters, -, -⟩ := carryOut_of_isHalted (by rw [hstate]; rfl) hlast
      obtain ⟨before, rest, mid, rfl, hmid, hrunning, hrepeating, hstep, hsame⟩ := ih hm' hstate
      exact ⟨before, rest ++ [command], mid, by simp, hmid, hrunning, hrepeating, hstep,
        hregisters.trans hsame⟩

/-! ## What the checkpoint in force has seen -/

/-- Since its registers were `r` the machine has executed `d` instructions, and its checkpoint has
seen the visits on the way, at each of which the value was new. -/
structure WatchedSince (m : Machine n) (r : RegisterFile n) (w : Watch n) (d : Nat) : Prop where
  /-- It has gone along the trajectory. -/
  reached : m.bare.trajectory r d = some m.registers
  /-- Its monitor is that of the watch and has seen the visits. -/
  watches : ∃ monitor, m.monitor = some monitor ∧ monitor.watch = w ∧
    monitor.Records (m.bare.visits r w d)
  /-- No value was there twice. -/
  distinct : (m.bare.visits r w d).Nodup

theorem watchedSince_watching (m : Machine n) (w : Watch n) :
    (m.watching w).WatchedSince m.registers w 0 where
  reached := rfl
  watches := ⟨_, rfl, rfl, by simp [visits], rfl⟩
  distinct := by simp [visits]

theorem WatchedSince.proceed (h : m.WatchedSince r w d)
    (hnext : m.bare.next? m.registers = some r') (hnew : ¬ m.Repeating) :
    (m.proceed r').WatchedSince r w (d + 1) := by
  obtain ⟨hreached, ⟨monitor, hmonitor, rfl, hrecords⟩, hdistinct⟩ := h
  have hvisits := visits_succ (w := monitor.watch) hreached
  have hunseen : ∀ v ∈ m.bare.watched? monitor.watch m.registers,
      v ∉ m.bare.visits r monitor.watch d := by
    intro v hv hvisited
    exact hnew ⟨monitor, hmonitor, v, hv, (hrecords.mem_seen_iff v).mpr hvisited⟩
  refine ⟨?_, ?_, ?_⟩
  · rw [bare_proceed, trajectory_succ_of_eq_some hreached, hnext, registers_proceed]
  · refine ⟨monitor.passing m.bare m.registers, ?_, CheckpointMonitor.watch_passing _ _ _, ?_⟩
    · rw [monitor_proceed, hmonitor, Option.map_some]
    · rw [bare_proceed, hvisits]
      exact hrecords.passing hunseen
  · rw [bare_proceed, hvisits, List.nodup_append]
    refine ⟨hdistinct, by cases m.bare.watched? monitor.watch m.registers <;> simp, ?_⟩
    intro v hvisited v' hv' hsame
    rw [Option.mem_toList] at hv'
    exact hunseen v' hv' (hsame ▸ hvisited)

/-- A command that sets no checkpoint leaves the one in force with the visits since it was set. -/
theorem WatchedSince.carryOut {command : Command} (h : m.WatchedSince r w d)
    (hnext : m.carryOut command = .ok next) (hkept : ∀ c, command ≠ .watch c) :
    ∃ e, next.WatchedSince r w (d + e) ∧ next.bare = m.bare ∧ next.steps = m.steps + .ofNat e := by
  have hstays : ∀ m' : Machine n, m'.bare = m.bare → m'.registers = m.registers →
      m'.monitor = m.monitor → m'.WatchedSince r w d := by
    intro m' hbare hregisters hmonitor
    obtain ⟨hreached, hwatches, hdistinct⟩ := h
    rw [← hbare] at hreached hwatches hdistinct
    exact ⟨by rw [hreached, hregisters], by rwa [hmonitor], hdistinct⟩
  cases command with
  | step =>
    cases moves_of_step (show m.step = .ok next from hnext) with
    | rest => exact ⟨0, h, rfl, by simp⟩
    | leave => exact ⟨0, hstays _ rfl rfl rfl, rfl, by simp⟩
    | stop => exact ⟨0, hstays _ rfl rfl rfl, rfl, by simp⟩
    | proceed _ hmoved hnew => exact ⟨1, h.proceed hmoved hnew, rfl, rfl⟩
  | trace on =>
    cases hnext
    exact ⟨0, hstays _ rfl rfl rfl, rfl, by simp [withTrace]⟩
  | watch checkpoint => exact absurd rfl (hkept checkpoint)

theorem WatchedSince.carryOutAll {commands : List Command} (h : m.WatchedSince r w d)
    (hlast : m.carryOutAll commands = .ok last) (hkept : ∀ c, .watch c ∉ commands) :
    ∃ e, last.WatchedSince r w (d + e) ∧ last.bare = m.bare ∧
      last.steps = m.steps + .ofNat e := by
  induction commands generalizing m d with
  | nil =>
    cases hlast
    exact ⟨0, h, rfl, by simp⟩
  | cons command commands ih =>
    obtain ⟨next, hnext, hrest⟩ := exists_of_carryOutAll_cons hlast
    have hkept' : ∀ c, command ≠ .watch c := by
      rintro c rfl
      exact hkept c List.mem_cons_self
    obtain ⟨e, hwatched, hbare, hsteps⟩ := h.carryOut hnext hkept'
    obtain ⟨e', hwatched', hbare', hsteps'⟩ :=
      ih hwatched hrest fun c hc => hkept c (List.mem_cons_of_mem command hc)
    refine ⟨e + e', by rwa [← Nat.add_assoc], hbare'.trans hbare, ?_⟩
    rw [hsteps', hsteps, UInt64.ofNat_add, UInt64.add_assoc]

/-! ## The whole session -/

theorem create_eq_startUnwatched (b : BareMachine n) (initial : RegisterFile n) :
    create b.program b.ipRegister initial = .ok (startUnwatched b initial) := by
  simp [create, register, startUnwatched, bind, Except.bind, pure, Except.pure]

theorem not_mem_append_replicate_step {commands : List Command} (h : ∀ c, .watch c ∉ commands)
    (j : Nat) : ∀ c, .watch c ∉ commands ++ List.replicate j .step := by
  intro c hc
  rcases List.mem_append.mp hc with hold | hnew
  · exact h c hold
  · cases List.eq_of_mem_replicate hnew

/-- Without a checkpoint a session ends without a report. -/
theorem report_of_unwatched {commands : List Command}
    (h : (startUnwatched b initial).carryOutAll commands = .ok m)
    (hnone : ∀ c, .watch c ∉ commands) : m.outcome.report = none := by
  have hforce := (driven_of_carryOutAll h).in_force
  rw [inForce_eq_none hnone, Option.map_eq_none_iff] at hforce
  rw [outcome, hforce, Option.bind_none]

/-- The report at the end of a session is the one on the visits since the last checkpoint was
set. -/
theorem report_of_watched {before after : List Command} {c : Checkpoint}
    (h : start.carryOutAll (before ++ .watch c :: after) = .ok m)
    (hlast : ∀ c', .watch c' ∉ after) :
    ∃ set, start.carryOutAll before = .ok set ∧ ∃ w : Watch n, w.checkpoint = c ∧
      ∃ d, set.bare.trajectory set.registers d = some m.registers ∧
        m.steps = set.steps + .ofNat d ∧ (set.bare.visits set.registers w d).Nodup ∧
        m.outcome.report = CheckpointReport.summary (set.bare.visits set.registers w d) := by
  obtain ⟨set, hset, hafter⟩ := exists_of_carryOutAll_append h
  obtain ⟨next, hnext, hrest⟩ := exists_of_carryOutAll_cons hafter
  obtain ⟨w, hw, rfl⟩ := withCheckpoint_eq_ok_iff.mp hnext
  obtain ⟨d, ⟨hreached, ⟨monitor, hmonitor, -, hrecords⟩, hdistinct⟩, hbare, hsteps⟩ :=
    (watchedSince_watching set w).carryOutAll hrest hlast
  rw [Nat.zero_add] at hreached hrecords hdistinct
  rw [hbare] at hreached hrecords hdistinct
  refine ⟨set, hset, w, hw, d, hreached, hsteps, hdistinct, ?_⟩
  rw [outcome, hmonitor, Option.bind_some, hrecords.report_eq]
  rfl

/-- **Driving a machine by hand never leaves the trajectory.**  Commands fail only at a checkpoint
that names a register that does not exist, or at an instruction that does.  After all others the
machine has the registers of the trajectory after as many instructions as it has counted.  A move of
a running machine either counts one more or halts it where it is, and then nothing changes
registers, count or state any more.  A machine that has left the program points outside, and one
whose checkpoint saw a value again points to the position of the checkpoint in force when it was
stopped.  If the machine is run to its end, the report is the one on the different values that were
there since the last checkpoint was set. -/
theorem session_stays_on_trajectory (b : BareMachine n) (initial : RegisterFile n) :
    ∃ start, create b.program b.ipRegister initial = .ok start ∧ ∀ commands,
      (∀ fault, start.carryOutAll commands = .error fault →
        ∃ before command rest m, commands = before ++ command :: rest ∧
          start.carryOutAll before = .ok m ∧
          ((∃ c, command = .watch c ∧ n ≤ c.register ∧
              fault = .invalidRegisterIndex c.register n) ∨
            (command = .step ∧ m.state = .running ∧
              ∃ i ∈ b.fetch? m.registers, ¬ i.InRange n ∧ fault = .operandOutOfRange i n))) ∧
      ∀ m, start.carryOutAll commands = .ok m →
        (∃ k ≤ commands.count .step, b.trajectory initial k = some m.registers ∧
          m.steps = .ofNat k) ∧
        (commands.count .step < UInt64.size →
          b.trajectory initial m.steps.toNat = some m.registers) ∧
        (∀ next, m.state = .running → m.step = .ok next →
          (next.steps = m.steps + 1 ∧ next.state = .running) ∨
            (next.state.isHalted = true ∧ next.registers = m.registers ∧
              next.steps = m.steps)) ∧
        (m.state.isHalted = true → ∀ more last, m.carryOutAll more = .ok last →
          last.registers = m.registers ∧ last.steps = m.steps ∧ last.state = m.state) ∧
        (m.state = .leftProgram → b.program.size ≤ m.ip.toNat) ∧
        (m.state = .valueRepeated →
          ∃ before rest mid c, commands = before ++ .step :: rest ∧
            start.carryOutAll before = .ok mid ∧ mid.state = .running ∧
            mid.step = .ok { mid with state := .valueRepeated } ∧
            inForce before = some c ∧ m.ip.toNat = c.position) ∧
        ∀ j final, m.stepTimes j = .ok final → final.state.isHalted = true →
          m.run = some (.ok final) ∧
          ((∀ c, .watch c ∉ commands) → final.outcome.report = none) ∧
          ∀ before c after, commands = before ++ .watch c :: after → (∀ c', .watch c' ∉ after) →
            ∃ set, start.carryOutAll before = .ok set ∧ ∃ w : Watch n, w.checkpoint = c ∧
              ∃ d, b.trajectory set.registers d = some final.registers ∧
                final.steps = set.steps + .ofNat d ∧
                (b.visits set.registers w d).Nodup ∧
                final.outcome.report =
                  CheckpointReport.summary (b.visits set.registers w d) := by
  refine ⟨startUnwatched b initial, create_eq_startUnwatched b initial, ?_⟩
  intro commands
  refine ⟨?_, ?_⟩
  · intro fault hfault
    obtain ⟨before, command, rest, m, hsplit, hm, hfails⟩ := exists_of_carryOutAll_eq_error hfault
    obtain ⟨⟨k, -, hfollows⟩, -, -⟩ := driven_of_carryOutAll hm
    have hcause := carryOut_eq_error hfails
    rw [hfollows.bare_eq] at hcause
    exact ⟨before, command, rest, m, hsplit, hm, hcause⟩
  · intro m hm
    obtain ⟨⟨k, hk, hfollows⟩, -, houtside⟩ := driven_of_carryOutAll hm
    refine ⟨⟨k, hk, hfollows.on_trajectory, hfollows.steps_eq⟩, ?_,
      fun next => step_of_running, fun halted more last => carryOutAll_of_isHalted halted, ?_, ?_,
      ?_⟩
    · intro hfew
      rw [hfollows.steps_eq, UInt64.toNat_ofNat_of_lt' (by omega)]
      exact hfollows.on_trajectory
    · intro hleft
      rw [← hfollows.position_eq]
      exact houtside hleft
    · intro hstopped
      obtain ⟨before, rest, mid, hsplit, hmid, hrunning, hrepeating, hstep, hsame⟩ :=
        exists_stop_of_carryOutAll rfl hm hstopped
      obtain ⟨c, hforce, hposition⟩ := (driven_of_carryOutAll hmid).exists_inForce hrepeating
      refine ⟨before, rest, mid, c, hsplit, hmid, hrunning, hstep, hforce, ?_⟩
      rw [← hfollows.position_eq, hsame, hposition]
    · intro j final hfinal halted
      have hsession : (startUnwatched b initial).carryOutAll
          (commands ++ List.replicate j .step) = .ok final := by
        rw [carryOutAll_append, hm]
        exact (carryOutAll_replicate_step m j).trans hfinal
      refine ⟨run_eq_some_iff.mpr ⟨?_, j, hfinal⟩, ?_, ?_⟩
      · rintro _ ⟨⟩
        exact halted
      · intro hnone
        exact report_of_unwatched hsession (not_mem_append_replicate_step hnone j)
      · rintro before c after rfl hlast
        rw [List.append_assoc, List.cons_append] at hsession
        obtain ⟨set, hset, hreport⟩ :=
          report_of_watched hsession (not_mem_append_replicate_step hlast j)
        obtain ⟨⟨k', -, hfollows'⟩, -, -⟩ := driven_of_carryOutAll hset
        rw [hfollows'.bare_eq] at hreport
        exact ⟨set, hset, hreport⟩

/-- A session in which a second checkpoint takes the place of the first. -/
def rewatching : List Command :=
  [.step, .watch ⟨1, 1⟩, .step, .trace true, .step, .watch ⟨0, 1⟩, .step]

/-- The session is held with the loop that goes back and forth, and the machine then run to its end.
It is stopped by the second checkpoint, which has seen the values one and zero; driven there by
hand, it points to the position of the checkpoint in force.  A checkpoint on a register that does
not exist is refused. -/
theorem session_stays_on_trajectory_toggling :
    ∃ start, create toggling.program 0 ⟨#v[0, 0]⟩ = .ok start ∧
      (∃ m final, start.carryOutAll rewatching = .ok m ∧
        toggling.trajectory ⟨#v[0, 0]⟩ m.steps.toNat = some m.registers ∧
        m.stepTimes 6 = .ok final ∧ final.state = .valueRepeated ∧ m.run = some (.ok final) ∧
        final.outcome.report = some ⟨1, 0, 0, 1, 2⟩ ∧
        ∃ set w d, start.carryOutAll (rewatching.take 5) = .ok set ∧ w.checkpoint = ⟨0, 1⟩ ∧
          toggling.trajectory set.registers d = some final.registers ∧
          final.outcome.report = CheckpointReport.summary (toggling.visits set.registers w d)) ∧
      (∃ last before rest c,
        start.carryOutAll (rewatching ++ List.replicate 6 .step) = .ok last ∧
        last.state = .valueRepeated ∧
        rewatching ++ List.replicate 6 .step = before ++ .step :: rest ∧
        inForce before = some c ∧ last.ip.toNat = c.position) ∧
      start.carryOutAll [.step, .watch ⟨0, 7⟩] = .error (.invalidRegisterIndex 7 2) ∧
      ∃ before c rest, [Command.step, .watch ⟨0, 7⟩] = before ++ .watch c :: rest ∧
        2 ≤ c.register := by
  obtain ⟨start, hstart, hsession⟩ := session_stays_on_trajectory toggling ⟨#v[0, 0]⟩
  rw [create_eq_startUnwatched] at hstart
  cases hstart
  have hcomputed : ((startUnwatched toggling ⟨#v[0, 0]⟩).carryOutAll
      (rewatching ++ List.replicate 6 .step)).toOption.map outcome =
        some ⟨⟨#v[0, 1]⟩, .valueRepeated, 9, some ⟨1, 0, 0, 1, 2⟩⟩ := by
    decide +kernel
  have hrefused : (startUnwatched toggling ⟨#v[0, 0]⟩).carryOutAll [.step, .watch ⟨0, 7⟩] =
      .error (.invalidRegisterIndex 7 2) := by
    decide +kernel
  cases hlast : (startUnwatched toggling ⟨#v[0, 0]⟩).carryOutAll
      (rewatching ++ List.replicate 6 .step) with
  | error fault =>
    rw [hlast] at hcomputed
    cases hcomputed
  | ok final =>
    rw [hlast] at hcomputed
    have houtcome : final.outcome = _ := Option.some.inj hcomputed
    have hstate : final.state = .valueRepeated := congrArg Outcome.state houtcome
    obtain ⟨m, hm, hmoves⟩ := exists_of_carryOutAll_append hlast
    rw [carryOutAll_replicate_step] at hmoves
    refine ⟨_, create_eq_startUnwatched toggling ⟨#v[0, 0]⟩, ?_, ?_, hrefused, ?_⟩
    · obtain ⟨-, hcounted, -, -, -, -, hrun⟩ := (hsession rewatching).2 m hm
      obtain ⟨hresult, -, hreport⟩ := hrun 6 final hmoves (by rw [hstate]; rfl)
      obtain ⟨set, hset, w, hw, d, hreached, -, -, hsummary⟩ :=
        hreport (rewatching.take 5) ⟨0, 1⟩ [.step] rfl (by simp)
      exact ⟨m, final, hm, hcounted (by decide), hmoves, hstate, hresult,
        congrArg Outcome.report houtcome, set, w, d, hset, hw, hreached, hsummary⟩
    · obtain ⟨-, -, -, -, -, hstopped, -⟩ := (hsession _).2 final hlast
      obtain ⟨before, rest, mid, c, hsplit, -, -, -, hforce, hposition⟩ := hstopped hstate
      exact ⟨final, before, rest, c, hlast, hstate, hsplit, hforce, hposition⟩
    · obtain ⟨before, command, rest, mid, hsplit, -, hcause⟩ := (hsession _).1 _ hrefused
      rcases hcause with ⟨c, rfl, hle, -⟩ | ⟨-, -, i, -, -, hfault⟩
      · exact ⟨before, c, rest, hsplit, hle⟩
      · cases hfault

end RegisterMachine.Machine
