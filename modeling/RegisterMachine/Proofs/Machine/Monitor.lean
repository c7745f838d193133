import Mathlib.Data.List.Induction
import Mathlib.Data.List.Perm.Lattice
import Mathlib.Order.Bounds.Defs
import RegisterMachine.Machine

set_option autoImplicit false

/-!
# What a checkpoint monitor has seen

A monitor keeps the set of the values seen and a report that it extends by one value after the
other.  Both say the same about the list of different values in the order in which they came: the
set has its members, and the report its first and last value, its least and greatest, and its
length.

A monitor may go on observing after it has seen a value again.  Then its answers tell which values
of the sequence were there before, and what it has recorded is always the list of the different
values in the order of their first occurrence: a value that comes again changes nothing, and another
one is added at the end.
-/

namespace RegisterMachine

namespace CheckpointReport

/-- The report on a list of different values, in the order in which they came; none on no values. -/
def summary (values : List UInt64) : Option CheckpointReport := do
  let firstSeen ← values.head?
  let lastDistinct ← values.getLast?
  let lowest ← values.min?
  let highest ← values.max?
  return { firstSeen, lastDistinct, lowest, highest, distinct := values.length }

@[simp] theorem summary_nil : summary [] = none := rfl

theorem summary_eq_none_iff {values : List UInt64} : summary values = none ↔ values = [] := by
  cases values with
  | nil => simp
  | cons v vs => simp [summary, List.getLast?_cons, List.max?_cons']

theorem distinct_of_summary {values : List UInt64} {report : CheckpointReport}
    (h : summary values = some report) : report.distinct = values.length := by
  simp only [summary, bind, Option.bind_eq_some_iff, pure, Option.some.injEq] at h
  obtain ⟨_, -, _, -, _, -, _, -, rfl⟩ := h
  rfl

/-- The report on one more value extends the report on the values before. -/
theorem summary_append_singleton {values : List UInt64} {report : CheckpointReport}
    (h : summary values = some report) (v : UInt64) :
    summary (values ++ [v]) = some (report.extend v) := by
  cases values with
  | nil => cases h
  | cons x xs =>
    simp only [summary, List.head?_cons, List.getLast?_cons, List.min?_cons', List.max?_cons',
      bind, Option.bind_some, pure, Option.some.injEq] at h
    rw [← h]
    simp only [summary, extend, List.cons_append, List.head?_cons, List.getLast?_cons,
      List.getLast?_concat, Option.getD_some, List.min?_cons', List.max?_cons', List.foldl_append,
      List.foldl_cons, List.foldl_nil, List.length_cons, List.length_append, List.length_nil, bind,
      Option.bind_some, pure]

end CheckpointReport

namespace CheckpointMonitor

variable {n : Nat} {m : CheckpointMonitor n} {values : List UInt64} {v : UInt64}

/-- The monitor has seen exactly these values, each of them once, in this order. -/
structure Records (m : CheckpointMonitor n) (values : List UInt64) : Prop where
  /-- The values seen are the members of the list. -/
  mem_seen_iff : ∀ v, v ∈ m.seen ↔ v ∈ values
  /-- The report is the one on the list. -/
  report_eq : m.report = CheckpointReport.summary values

/-- The monitor after a value that was not seen before. -/
def record (m : CheckpointMonitor n) (v : UInt64) : CheckpointMonitor n := (m.observe v).2

@[simp] theorem position_record (m : CheckpointMonitor n) (v : UInt64) :
    (m.record v).position = m.position := by
  by_cases h : v ∈ m.seen <;> simp [record, observe, h]

@[simp] theorem register_record (m : CheckpointMonitor n) (v : UInt64) :
    (m.record v).register = m.register := by
  by_cases h : v ∈ m.seen <;> simp [record, observe, h]

theorem observe_of_not_mem (h : v ∉ m.seen) : m.observe v = (.new, m.record v) := by
  simp [record, observe, h]

theorem Records.observe_of_mem (h : m.Records values) (hv : v ∈ values) :
    m.observe v = (.repeated, m) :=
  CheckpointMonitor.observe_of_mem ((h.mem_seen_iff v).mpr hv)

theorem Records.observe_of_not_mem (h : m.Records values) (hv : v ∉ values) :
    m.observe v = (.new, m.record v) :=
  CheckpointMonitor.observe_of_not_mem fun hmem => hv ((h.mem_seen_iff v).mp hmem)

/-- A new value comes last in what the monitor has seen. -/
theorem Records.record (h : m.Records values) (hv : v ∉ values) :
    (m.record v).Records (values ++ [v]) := by
  have hnew : v ∉ m.seen := fun hmem => hv ((h.mem_seen_iff v).mp hmem)
  refine ⟨?_, ?_⟩
  · intro w
    simp only [CheckpointMonitor.record, observe, hnew, if_false, Std.ExtTreeSet.mem_insert,
      Std.LawfulEqCmp.compare_eq_iff_eq, h.mem_seen_iff, List.mem_append, List.mem_singleton]
    constructor
    · rintro (rfl | hw)
      · exact Or.inr rfl
      · exact Or.inl hw
    · rintro (hw | rfl)
      · exact Or.inr hw
      · exact Or.inl rfl
  · simp only [CheckpointMonitor.record, observe, hnew, if_false, h.report_eq]
    cases hreport : CheckpointReport.summary values with
    | none =>
      rw [CheckpointReport.summary_eq_none_iff.mp hreport]
      rfl
    | some report => exact (CheckpointReport.summary_append_singleton hreport v).symm

end CheckpointMonitor

/-! ## First occurrences -/

/-- A value is added to the first occurrences unless it is one of them. -/
theorem eraseDups_append_singleton (values : List UInt64) (v : UInt64) :
    (values ++ [v]).eraseDups =
      if v ∈ values then values.eraseDups else values.eraseDups ++ [v] := by
  have hsingle : [v].eraseDups = [v] := by simp [List.eraseDups_cons]
  rw [List.eraseDups_append]
  by_cases hv : v ∈ values <;> simp [List.removeAll, hv, hsingle]

theorem nodup_eraseDups (values : List UInt64) : values.eraseDups.Nodup := by
  induction values using List.reverseRecOn with
  | nil => simp
  | append_singleton values v ih =>
    rw [eraseDups_append_singleton]
    by_cases hv : v ∈ values
    · rwa [if_pos hv]
    · rw [if_neg hv, List.nodup_append_comm, List.singleton_append, List.nodup_cons,
        List.mem_eraseDups]
      exact ⟨hv, ih⟩

/-- Of two words the greater one is the maximum. -/
instance lawfulOrderMaxUInt64 : Std.LawfulOrderMax UInt64 where
  max_le_iff a b c := by
    show (if a ≤ b then b else a) ≤ c ↔ _
    simp only [UInt64.le_iff_toNat_le]
    split <;> omega
  max_eq_or a b := by
    show (if a ≤ b then b else a) = a ∨ (if a ≤ b then b else a) = b
    split
    · exact .inr rfl
    · exact .inl rfl

namespace CheckpointReport

/-- The report is that of these values, in this order. -/
structure SumsUp (report : CheckpointReport) (values : List UInt64) : Prop where
  /-- The first value. -/
  first : values.head? = some report.firstSeen
  /-- The last value. -/
  last : values.getLast? = some report.lastDistinct
  /-- The least value. -/
  lowest : IsLeast {v | v ∈ values} report.lowest
  /-- The greatest value. -/
  highest : IsGreatest {v | v ∈ values} report.highest
  /-- The number of values. -/
  distinct : report.distinct = values.length

variable {report : CheckpointReport} {values : List UInt64}

theorem sumsUp_of_summary (h : summary values = some report) : report.SumsUp values := by
  simp only [summary, bind, Option.bind_eq_some_iff, pure, Option.some.injEq] at h
  obtain ⟨firstSeen, hfirst, lastDistinct, hlast, lowest, hlowest, highest, hhighest, rfl⟩ := h
  exact ⟨hfirst, hlast, List.min?_eq_some_iff.mp hlowest, List.max?_eq_some_iff.mp hhighest, rfl⟩

/-- The first value is one of those whose least and greatest are reported, and so is the last. -/
theorem SumsUp.between (h : report.SumsUp values) :
    (report.lowest ≤ report.firstSeen ∧ report.firstSeen ≤ report.highest) ∧
      report.lowest ≤ report.lastDistinct ∧ report.lastDistinct ≤ report.highest := by
  have hfirst : report.firstSeen ∈ values := List.mem_of_head? h.first
  have hlast : report.lastDistinct ∈ values := List.mem_of_getLast? h.last
  exact ⟨⟨h.lowest.2 hfirst, h.highest.2 hfirst⟩, h.lowest.2 hlast, h.highest.2 hlast⟩

end CheckpointReport

namespace CheckpointMonitor

variable {n : Nat} {m : CheckpointMonitor n} {values : List UInt64}

/-- A monitor that has seen nothing yet. -/
def fresh (position : Nat) (register : Fin n) : CheckpointMonitor n where
  position := position
  register := register

/-- The monitor after some values, whether or not it has seen them before. -/
def recordAll (m : CheckpointMonitor n) (values : List UInt64) : CheckpointMonitor n :=
  values.foldl record m

theorem recordAll_append_singleton (m : CheckpointMonitor n) (values : List UInt64) (v : UInt64) :
    m.recordAll (values ++ [v]) = (m.recordAll values).record v := by
  rw [recordAll, List.foldl_append]
  rfl

theorem Records.record_of_mem {v : UInt64} (h : m.Records values) (hv : v ∈ values) :
    m.record v = m := by
  rw [CheckpointMonitor.record, h.observe_of_mem hv]

/-- The values seen are as many as those recorded. -/
theorem Records.size_seen (h : m.Records values) (hnodup : values.Nodup) :
    m.seen.size = values.length := by
  have hdistinct : m.seen.toList.Nodup :=
    Std.ExtTreeSet.distinct_toList.imp fun hne heq =>
      hne (Std.LawfulEqCmp.compare_eq_iff_eq.mpr heq)
  have hperm : m.seen.toList.Perm values := by
    rw [List.perm_ext_iff_of_nodup hdistinct hnodup]
    intro v
    rw [Std.ExtTreeSet.mem_toList, h.mem_seen_iff]
  rw [← Std.ExtTreeSet.length_toList, hperm.length_eq]

/-- What is recorded of any values are their first occurrences. -/
theorem records_recordAll (position : Nat) (register : Fin n) (values : List UInt64) :
    ((fresh position register).recordAll values).Records values.eraseDups := by
  induction values using List.reverseRecOn with
  | nil => exact ⟨by simp [recordAll, fresh], rfl⟩
  | append_singleton values v ih =>
    rw [recordAll_append_singleton, eraseDups_append_singleton]
    by_cases hv : v ∈ values
    · rw [if_pos hv, ih.record_of_mem (List.mem_eraseDups.mpr hv)]
      exact ih
    · rw [if_neg hv]
      exact ih.record fun hmem => hv (List.mem_eraseDups.mp hmem)

/-- **A monitor sums up what it observes.**  Let a fresh monitor observe some values one after the
other.  It answers that a value is repeated exactly if the value is one of those before, and then it
stays as it is.  In the end it has no report exactly if there are no values.  Otherwise its report
is that of the first occurrences, in their order: the first and the last one, the least and the
greatest one, and their number, which is also that of the values seen.  The first and the last one
are between the least and the greatest one. -/
theorem monitor_sums_up (position : Nat) (register : Fin n) (values : List UInt64) :
    (∀ k v, values[k]? = some v →
      ((((fresh position register).recordAll (values.take k)).observe v).1 = .repeated ↔
        v ∈ values.take k) ∧
      ((((fresh position register).recordAll (values.take k)).observe v).1 = .repeated →
        (fresh position register).recordAll (values.take (k + 1)) =
          (fresh position register).recordAll (values.take k))) ∧
    (((fresh position register).recordAll values).report = none ↔ values.eraseDups = []) ∧
    ∀ report, ((fresh position register).recordAll values).report = some report →
      report.SumsUp values.eraseDups ∧
      report.distinct = ((fresh position register).recordAll values).seen.size ∧
      (report.lowest ≤ report.firstSeen ∧ report.firstSeen ≤ report.highest) ∧
      report.lowest ≤ report.lastDistinct ∧ report.lastDistinct ≤ report.highest := by
  have hrecords (values : List UInt64) := records_recordAll position register values
  refine ⟨fun k v hv => ?_, ?_, fun report hreport => ?_⟩
  · have hseen : v ∈ ((fresh position register).recordAll (values.take k)).seen ↔
        v ∈ values.take k := by
      rw [(hrecords _).mem_seen_iff, List.mem_eraseDups]
    refine ⟨observe_fst_eq_repeated_iff.trans hseen, fun hrepeated => ?_⟩
    have hmem : v ∈ values.take k := hseen.mp (observe_fst_eq_repeated_iff.mp hrepeated)
    rw [List.take_add_one, hv, Option.toList_some, recordAll_append_singleton]
    exact (hrecords _).record_of_mem (List.mem_eraseDups.mpr hmem)
  · rw [(hrecords values).report_eq, CheckpointReport.summary_eq_none_iff]
  · rw [(hrecords values).report_eq] at hreport
    have hsums := CheckpointReport.sumsUp_of_summary hreport
    refine ⟨hsums, ?_, hsums.between⟩
    rw [hsums.distinct, (hrecords values).size_seen (nodup_eraseDups values)]

/-- The least and the greatest word come in the middle, and two values come again. -/
theorem monitor_sums_up_extremes :
    ([5, 0, 5, 18446744073709551615, 0, 7] : List UInt64)[2]? = some 5 ∧
    (((fresh 0 (0 : Fin 1)).recordAll [5, 0]).observe 5).1 = .repeated ∧
    (fresh 0 (0 : Fin 1)).recordAll [5, 0, 5] = (fresh 0 (0 : Fin 1)).recordAll [5, 0] ∧
    ∃ report, ((fresh 0 (0 : Fin 1)).recordAll [5, 0, 5, 18446744073709551615, 0, 7]).report =
        some report ∧
      report.lowest = 0 ∧ report.highest = 18446744073709551615 ∧
      report.SumsUp [5, 0, 18446744073709551615, 7] ∧
      report.distinct =
        ((fresh 0 (0 : Fin 1)).recordAll [5, 0, 5, 18446744073709551615, 0, 7]).seen.size := by
  obtain ⟨hanswers, -, hreports⟩ :=
    monitor_sums_up 0 (0 : Fin 1) [5, 0, 5, 18446744073709551615, 0, 7]
  obtain ⟨hrepeated, hkept⟩ := hanswers 2 5 rfl
  have hmem : (5 : UInt64) ∈ [5, 0, 5, 18446744073709551615, 0, 7].take 2 := by decide
  have hreport : ((fresh 0 (0 : Fin 1)).recordAll [5, 0, 5, 18446744073709551615, 0, 7]).report =
      some ⟨5, 7, 0, 18446744073709551615, 4⟩ := by
    decide +kernel
  obtain ⟨hsums, hsize, -⟩ := hreports _ hreport
  have hfirst : ([5, 0, 5, 18446744073709551615, 0, 7] : List UInt64).eraseDups =
      [5, 0, 18446744073709551615, 7] := by
    decide +kernel
  rw [hfirst] at hsums
  exact ⟨rfl, hrepeated.mpr hmem, hkept (hrepeated.mpr hmem), _, hreport, rfl, rfl, hsums, hsize⟩

end CheckpointMonitor

end RegisterMachine
