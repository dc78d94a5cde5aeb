import Mathlib.Data.List.Induction
import Lrc20.Lib.Largest
import Lrc20.Lib.Runs

/-! The network-adjusted time, which the offsets of the peers move, and the timers. -/

open scoped List
open Runs

namespace Lrc20.P2p

def maxTimeAdjustment : Int64 := 70 * 60

def minTimeSamples : Nat := 5

def maxTimeSamples : Nat := 200

structure AdjustedTime (K : Type) where
  sources : List K
  samples : List Int64
  offset : Int64

namespace AdjustedTime

variable {K : Type} [DecidableEq K] {calls : List (K × Int64)}

def new : AdjustedTime K := ⟨[], [0], 0⟩

/-- The median of samples, which are never none. -/
def medianOffset (samples : List Int64) : Int64 :=
  (samples.insertionSort (· ≤ ·)).getD (samples.length / 2) 0

/-- There are enough samples, and a true median. -/
abbrev Adjusts (samples : List Int64) : Prop :=
  ¬samples.length < minTimeSamples ∧ samples.length % 2 = 1

/-- Without overflow checks, the `abs` of `i64::MIN` is that value. -/
def recordOffset (time : AdjustedTime K) (call : K × Int64) : AdjustedTime K :=
  if time.sources.length = maxTimeSamples then time
  else if call.1 ∈ time.sources then time
  else
    let samples := time.samples ++ [call.2]
    let offset :=
      if Adjusts samples then
        if (medianOffset samples).abs ≤ maxTimeAdjustment then medianOffset samples else 0
      else time.offset
    ⟨time.sources ++ [call.1], samples, offset⟩

def run (calls : List (K × Int64)) : AdjustedTime K := calls.foldl recordOffset new

/-- What is asked of the offset: it is bounded and depends on one sample of each of so many
sources, an update takes the median or zero, and no absolute value overflows. -/
structure Sound (calls : List (K × Int64)) : Prop where
  bounded : (run calls).offset.toInt.natAbs ≤ maxTimeAdjustment.toInt
  counted : ∃ kept, kept <+ calls ∧ (kept.map Prod.fst).Nodup ∧ kept.length ≤ maxTimeSamples ∧
    run kept = run calls ∧ (run calls).samples = 0 :: kept.map Prod.snd
  updated : ∀ call, let after := run (calls ++ [call])
    if after.samples ≠ (run calls).samples ∧ Adjusts after.samples then
      after.offset = 0 ∨ after.offset = medianOffset after.samples
    else after.offset = (run calls).offset
  noOverflow : Adjusts (run calls).samples →
    (medianOffset (run calls).samples).abs.toInt = (medianOffset (run calls).samples).toInt.natAbs

theorem run_concat (call : K × Int64) : run (calls ++ [call]) = recordOffset (run calls) call :=
  List.foldl_concat _ _ _ _

/-- The calls that count: one for each source, and at most so many. -/
theorem counted (calls : List (K × Int64)) :
    ∃ kept, kept <+ calls ∧ (kept.map Prod.fst).Nodup ∧ kept.length ≤ maxTimeSamples ∧
      run kept = run calls ∧ (run calls).sources = kept.map Prod.fst ∧
      (run calls).samples = 0 :: kept.map Prod.snd := by
  induction calls using List.reverseRecOn with
  | nil => exact ⟨[], by simp [run, new]⟩
  | append_singleton calls call ih =>
    obtain ⟨kept, within, once, few, same, sources, samples⟩ := ih
    have grows := within.trans (List.sublist_append_left calls [call])
    rw [run_concat]
    unfold recordOffset
    split_ifs with full known
    · exact ⟨kept, grows, once, few, same, sources, samples⟩
    · exact ⟨kept, grows, once, few, same, sources, samples⟩
    · rw [sources] at full known
      refine ⟨kept ++ [call], within.append (List.Sublist.refl _), ?_, ?_, ?_, ?_, ?_⟩
      · rw [List.map_append]
        exact List.concat_eq_append ▸ once.concat known
      · simp at full ⊢
        omega
      · rw [run_concat, same, recordOffset, if_neg (sources ▸ full), if_neg (sources ▸ known)]
      · simp [sources]
      · simp [samples]

/-- The absolute value is right but for the least number, which it leaves as it is. -/
theorem toInt_abs {median : Int64} (other : median ≠ Int64.minValue) :
    median.abs.toInt = median.toInt.natAbs :=
  BitVec.toInt_abs_eq_natAbs_of_ne_intMin fun least => other (Int64.toBitVec_inj.mp least)

/-- The offset stays bounded as long as no median is the least number. -/
theorem bounded (medians : ∀ front, front <+: calls →
      Adjusts (run front).samples → medianOffset (run front).samples ≠ Int64.minValue) :
    (run calls).offset.toInt.natAbs ≤ maxTimeAdjustment.toInt := by
  induction calls using List.reverseRecOn with
  | nil => simp [run, new, maxTimeAdjustment]
  | append_singleton calls call ih =>
    have before := ih fun front within => medians front (within.trans (List.prefix_append _ _))
    have last := medians _ List.prefix_rfl
    rw [run_concat] at last ⊢
    unfold recordOffset at last ⊢
    split_ifs at last ⊢
    · exact before
    · exact before
    · simp only at last ⊢
      split_ifs with adjusts small
      · exact toInt_abs (last adjusts) ▸ Int64.le_iff_toInt_le.mp small
      · decide
      · exact before

/-- After each call of a sequence all holds, exactly when no call finds the least number as the
median. -/
theorem offset_sound_iff (calls : List (K × Int64)) :
    (∀ front, front <+: calls → Sound front) ↔ ∀ front, front <+: calls →
      Adjusts (run front).samples → medianOffset (run front).samples ≠ Int64.minValue := by
  constructor
  · intro sound front isFront adjusts least
    have exact := (sound front isFront).noOverflow adjusts
    rw [least] at exact
    exact absurd exact (by decide)
  · intro medians front isFront
    obtain ⟨kept, within, once, few, same, -, samples⟩ := counted front
    refine ⟨bounded fun earlier first => medians earlier (first.trans isFront),
      ⟨kept, within, once, few, same, samples⟩, fun call => ?_, fun adjusts => ?_⟩
    · rw [run_concat]
      unfold recordOffset
      split_ifs
      · simp
      · simp
      · by_cases adjusts : Adjusts ((run front).samples ++ [call.2])
        · simp only [if_pos adjusts]
          rw [if_pos ⟨by simp, adjusts⟩]
          split_ifs
          · exact .inr rfl
          · exact .inl rfl
        · simp only [adjusts, and_false, if_false]
    · exact toInt_abs (medians front isFront adjusts)

/-- Four sources that report the least offset put the time off by it. -/
theorem least_offset_adopted :
    (run ((List.range 4).map (·, Int64.minValue))).offset = Int64.minValue := by
  decide +kernel

end AdjustedTime

/-- Times and durations are in milliseconds. -/
structure TimeoutManager (K : Type) where
  timeouts : List (K × Nat)
  threshold : Nat

namespace TimeoutManager

section

variable {K : Type} (sort : List (K × Nat) → List (K × Nat)) (manager : TimeoutManager K)

/-- `sort_unstable_by` time, the latest first, which leaves the order of equal times open. -/
structure SortsByTime : Prop where
  perm : ∀ timeouts, sort timeouts ~ timeouts
  sorted : ∀ timeouts, (sort timeouts).Pairwise fun a b => b.2 ≤ a.2

def new (threshold : Nat) : TimeoutManager K := ⟨[], threshold⟩

def diff (time other : Nat) : Nat := if other < time then time - other else other - time

def register (key : K) (time : Nat) : TimeoutManager K × Bool :=
  if manager.timeouts.any fun entry => diff entry.2 time < manager.threshold then (manager, false)
  else ({ manager with timeouts := sort (manager.timeouts ++ [(key, time)]) }, true)

def next (now : Nat) : Option Nat :=
  manager.timeouts.getLast?.map fun entry => if now ≤ entry.2 then entry.2 - now else 0

/-- The loop of `wake`, over the timeouts in the order they are popped. -/
def wakeLoop (now : Nat) : List (K × Nat) → List K → List (K × Nat) × List K
  | [], woken => ([], woken)
  | (key, time) :: rest, woken =>
    if time ≤ now then wakeLoop now rest (woken ++ [key]) else ((key, time) :: rest, woken)

def wake (now : Nat) (woken : List K) : TimeoutManager K × List K × Nat :=
  let (left, all) := wakeLoop now manager.timeouts.reverse woken
  ({ manager with timeouts := left.reverse }, all, all.length - woken.length)

inductive Call (K : Type) where
  | register (key : K) (time : Nat)
  | wake (now : Nat)

/-- The manager after a call, and the calls so far but for the registrations not accepted. -/
def step (state : TimeoutManager K × List (Call K)) (call : Call K) :
    TimeoutManager K × List (Call K) :=
  match call with
  | .register key time =>
    let registered := state.1.register sort key time
    (registered.1, if registered.2 then state.2 ++ [call] else state.2)
  | .wake now => ((state.1.wake now []).1, state.2 ++ [call])

def Call.wakes (time : Nat) : Call K → Bool
  | .register _ _ => false
  | .wake now => time ≤ now

/-- The registrations that are followed by no wake at or after their time. -/
def outstanding : List (Call K) → List (K × Nat)
  | [] => []
  | .register key time :: later =>
    if later.any (Call.wakes time) then outstanding later else (key, time) :: outstanding later
  | .wake _ :: later => outstanding later

/-- A wake gives the keys that are due in the order of their times, and keeps the rest. -/
def WakesDue : Prop :=
  ∀ now woken, let due := (manager.timeouts.filter (·.2 ≤ now)).reverse
    manager.wake now woken = ({ manager with timeouts := manager.timeouts.filter (now < ·.2) },
      woken ++ due.map Prod.fst, due.length) ∧ due.Pairwise fun a b => a.2 ≤ b.2

/-- What holds of the manager after a sequence of calls. -/
structure Exact (threshold : Nat) (state : TimeoutManager K × List (Call K)) : Prop where
  limit : state.1.threshold = threshold
  spaced : state.1.timeouts.Pairwise fun a b => b.2 + threshold ≤ a.2
  pending : state.1.timeouts ~ outstanding state.2

end

variable {K : Type} {sort : List (K × Nat) → List (K × Nat)} {now threshold : Nat}
  {state : TimeoutManager K × List (Call K)}

theorem outstanding_concat (call : Call K) (calls : List (Call K)) :
    outstanding (calls ++ [call]) =
      (outstanding calls).filter (fun entry => !call.wakes entry.2) ++ outstanding [call] := by
  induction calls with
  | nil => simp [outstanding]
  | cons first later ih =>
    cases first with
    | wake => exact ih
    | register key time =>
      rw [List.cons_append, outstanding, List.any_append, ih]
      cases woken : later.any (Call.wakes time) <;> cases last : call.wakes time <;>
        simp [outstanding, woken, last]

/-- What is due is popped first. -/
theorem wakeLoop_eq {timeouts : List (K × Nat)}
    (sorted : timeouts.Pairwise fun a b => a.2 ≤ b.2) : ∀ woken,
      wakeLoop now timeouts woken = (timeouts.filter (now < ·.2),
        woken ++ (timeouts.filter (·.2 ≤ now)).map Prod.fst) := by
  induction timeouts with
  | nil => simp [wakeLoop]
  | cons entry rest ih =>
    obtain ⟨key, time⟩ := entry
    intro woken
    obtain ⟨earliest, sorted⟩ := List.pairwise_cons.mp sorted
    unfold wakeLoop
    split_ifs with due
    · simp [ih sorted, due]
    · have late : now < time := Nat.lt_of_not_le due
      have later : ∀ other ∈ rest, now < other.2 := fun other mem =>
        lt_of_lt_of_le late (earliest other mem)
      rw [List.filter_eq_self.mpr (by simpa [late] using later),
        List.filter_eq_nil_iff.mpr (by simpa [late] using later)]
      simp

theorem Exact.wakesDue (inv : Exact threshold state) : state.1.WakesDue := by
  intro now woken
  have sorted : state.1.timeouts.reverse.Pairwise fun a b => a.2 ≤ b.2 :=
    List.pairwise_reverse.mpr (inv.spaced.imp fun apart => (Nat.le_add_right _ _).trans apart)
  constructor
  · simp [wake, wakeLoop_eq sorted, List.filter_reverse]
  · rw [← List.filter_reverse]
    exact sorted.filter _

/-- A registration that is not too close to another one is put among those in order. -/
theorem Exact.step (sorts : SortsByTime sort) (inv : Exact threshold state) (call : Call K) :
    Exact threshold (step sort state call) := by
  cases call with
  | wake now =>
    simp only [TimeoutManager.step, (inv.wakesDue now []).1]
    refine ⟨inv.limit, inv.spaced.filter _, ?_⟩
    rw [outstanding_concat, outstanding, outstanding, List.append_nil]
    simpa only [Call.wakes, ← decide_not, Nat.not_le] using inv.pending.filter _
  | register key time =>
    simp only [TimeoutManager.step, register]
    by_cases close : (state.1.timeouts.any fun entry => diff entry.2 time < state.1.threshold) = true
    · simp only [if_pos close]
      exact inv
    · simp only [if_neg close]
      have either : (state.1.timeouts ++ [(key, time)]).Pairwise fun a b =>
          a.2 + threshold ≤ b.2 ∨ b.2 + threshold ≤ a.2 := by
        refine List.pairwise_append.mpr ⟨inv.spaced.imp .inr, List.pairwise_singleton _ _, ?_⟩
        simp only [List.any_eq_true, decide_eq_true_eq, not_exists, not_and, diff, inv.limit] at close
        intro entry mem other isOther
        obtain rfl := List.mem_singleton.mp isOther
        have far := close entry mem
        split at far
        · exact .inr (by omega)
        · exact .inl (by omega)
      have spaced := ((sorts.perm _).pairwise_iff Or.symm).mpr either
      refine ⟨inv.limit, ((sorts.sorted _).and spaced).imp fun order => ?_, ?_⟩
      · obtain ⟨later, before | after⟩ := order
        · omega
        · exact after
      · rw [if_pos trivial, outstanding_concat]
        refine (sorts.perm _).trans ?_
        simpa [Call.wakes, outstanding] using inv.pending.append_right _

/-- After any calls, the timeouts are sorted and apart, and they are the accepted registrations
that no wake at or after their time has followed. A wake takes those that are due, and `next` is
the distance to the earliest. -/
theorem timeouts_exact (sorts : SortsByTime sort) (threshold : Nat) (calls : List (Call K)) :
    let state := runFrom (step sort) (new threshold, []) calls
    Exact threshold state ∧ state.1.WakesDue ∧
      ∀ now, state.1.next now = (state.1.timeouts.map Prod.snd).min?.map (· - now) := by
  intro state
  have inv : Exact threshold state := runFrom_invariant
    (fun _ call inv => inv.step sorts call) ⟨rfl, List.Pairwise.nil, .nil⟩ calls
  refine ⟨inv, inv.wakesDue, fun now => ?_⟩
  unfold next
  cases isLast : state.1.timeouts.getLast? with
  | none => simp [List.getLast?_eq_none_iff.mp isLast]
  | some last =>
    obtain ⟨front, whole⟩ := List.getLast?_eq_some_iff.mp isLast
    have least : (state.1.timeouts.map Prod.snd).min? = some last.2 := by
      refine List.min?_eq_some_iff.mpr ⟨List.mem_map_of_mem (List.mem_of_getLast? isLast), ?_⟩
      intro time mem
      obtain ⟨entry, isEntry, rfl⟩ := List.mem_map.mp mem
      have spaced := inv.spaced
      rw [whole] at spaced isEntry
      rcases List.mem_append.mp isEntry with before | same
      · exact Nat.le_of_add_right_le ((List.pairwise_append.mp spaced).2.2 entry before last (by simp))
      · rw [List.mem_singleton.mp same]
    rw [least]
    simp only [Option.map_some, Option.some.injEq]
    split_ifs <;> omega

/-- The second of three timeouts is too close to the first; one is due at 6. -/
theorem timeouts_exact_of_three :
    let state := runFrom (step (Largest.descending Prod.snd)) (new 2, [])
      [.register 'a' 5, .register 'b' 6, .register 'c' 8]
    state.1.timeouts ~ outstanding state.2 ∧ (state.1.wake 6 []).2 = (['a'], 1) := by
  obtain ⟨inv, wakes, -⟩ := timeouts_exact
    ⟨Largest.descending_perm Prod.snd, Largest.descending_sorted Prod.snd⟩ 2
    [Call.register 'a' 5, .register 'b' 6, .register 'c' 8]
  exact ⟨inv.pending, by rw [(wakes 6 []).1]; decide +kernel⟩

end TimeoutManager

end Lrc20.P2p
