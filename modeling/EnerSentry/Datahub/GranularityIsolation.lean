import Mathlib.Data.Finmap
import EnerSentry.Datahub.WindowAccounts

/-!
One sampler used at several granularities beside separate samplers, one for each. The windows of a
point are kept by their starts alone, whatever granularity they were opened at. The shared sampler
does what the separate ones do exactly as long as no call meets an open window of another granularity.
-/

namespace EnerSentry.Datahub
open EnerSentry.Lib

variable {K : Type*} [Reading K]

/-- A call with the granularity it is made at. -/
abbrev GranularityCall (K : Type*) [Reading K] := HistoryGranularity × SamplerCall K K

/-- The shared sampler, and one for the calls of each granularity. -/
abbrev SideBySide (K : Type*) [Reading K] := DownSampler K × (HistoryGranularity → DownSampler K)

def sharing : Runs.Step (DownSampler K) (GranularityCall K) (DownSampledSample K) :=
  fun ds call => sampling id call.1 ds call.2

/-- The separate sampler of a granularity takes the calls that are made at it. -/
def separately (call : GranularityCall K) (separate : HistoryGranularity → DownSampler K) :
    HistoryGranularity → DownSampler K :=
  Function.update separate call.1 (sampling id call.1 (separate call.1) call.2).1

def sideBySide : Runs.Step (SideBySide K) (GranularityCall K) (DownSampledSample K) :=
  Runs.watch sharing fun _ separate call _ => separately call separate

/-- The calls made at one granularity. -/
def callsAt (gran : HistoryGranularity) (calls : List (GranularityCall K)) : List (SamplerCall K K) :=
  (calls.filter fun call => call.1 = gran).map (·.2)

/-- Each separate sampler is a sampler that received the calls of its granularity and no others. -/
theorem separate_run (calls : List (GranularityCall K)) (x : SideBySide K) (gran : HistoryGranularity) :
    (Runs.run sideBySide x calls).2 gran = Runs.run (sampling id gran) (x.2 gran) (callsAt gran calls) := by
  induction calls generalizing x with
  | nil => rfl
  | cons call calls ih =>
    rw [Runs.run, ih]
    by_cases own : call.1 = gran
    · obtain rfl := own
      have first : callsAt call.1 (call :: calls) = call.2 :: callsAt call.1 calls := by simp [callsAt]
      rw [first, Runs.run]
      exact congrArg (fun ds => Runs.run (sampling id call.1) ds (callsAt call.1 calls)) (Function.update_self ..)
    · have none : callsAt gran (call :: calls) = callsAt gran calls := by simp [callsAt, own]
      rw [none]
      exact congrArg (fun ds => Runs.run (sampling id gran) ds (callsAt gran calls))
        (Function.update_of_ne (Ne.symm own) ..)

/-- The open windows of the shared sampler are those of the separate ones, each of one of them. -/
structure Divided (x : SideBySide K) : Prop where
  kept : ∀ gran p win b, ((x.2 gran).buckets p).lookup win = some b → (x.1.buckets p).lookup win = some b
  covered : ∀ p win, (x.1.buckets p).lookup win ≠ none → ∃ gran, ((x.2 gran).buckets p).lookup win ≠ none
  apart : ∀ gran gran' p win, ((x.2 gran).buckets p).lookup win ≠ none →
    ((x.2 gran').buckets p).lookup win ≠ none → gran = gran'

/-- What one call is asked: the records of the separate sampler, and no window merged, drained or doubled. -/
structure Isolated (x : SideBySide K) (call : GranularityCall K) : Prop where
  records : (sharing x.1 call).2.Perm (sampling id call.1 (x.2 call.1) call.2).2
  windows : Divided (sideBySide x call).1

/-- The call meets no open window of another granularity. -/
def Apart (x : SideBySide K) (call : GranularityCall K) : Prop :=
  match call.2 with
  | .feed p s => s.timestamp ≠ 0 → ∀ gran, gran ≠ call.1 →
      ((x.2 gran).buckets p).lookup (DownSampler.alignToWindow s.timestamp call.1) = none
  | .rollUp _ clock p nowMs => ∀ gran, gran ≠ call.1 →
      ∀ win < DownSampler.alignToWindow (DownSampler.rollTime clock nowMs) call.1,
        ((x.2 gran).buckets p).lookup win = none

section Windows
variable {x : SideBySide K} {gran : HistoryGranularity} {p : UInt32} {win : Nat} {call : GranularityCall K}

theorem divided_fresh : Divided (({}, fun _ => {}) : SideBySide K) :=
  ⟨fun _ _ _ _ found => absurd found.symm (Option.some_ne_none _), fun _ _ found => absurd rfl found,
    fun _ _ _ _ found => absurd rfl found⟩

/-- A window that no other granularity has open is as the separate sampler has it. -/
theorem Divided.own (divided : Divided x) (free : ∀ other, other ≠ gran → ((x.2 other).buckets p).lookup win = none) :
    (x.1.buckets p).lookup win = ((x.2 gran).buckets p).lookup win := by
  cases found : ((x.2 gran).buckets p).lookup win with
  | some b => exact divided.kept gran p win b found
  | none =>
    by_contra open_
    obtain ⟨owner, owned⟩ := divided.covered p win open_
    by_cases same : owner = gran
    · exact owned (same ▸ found)
    · exact owned (free owner same)

theorem separately_other {other : HistoryGranularity} (apart : other ≠ call.1) :
    (sideBySide x call).1.2 other = x.2 other := Function.update_of_ne apart ..

theorem separately_own : (sideBySide x call).1.2 call.1 = (sampling id call.1 (x.2 call.1) call.2).1 :=
  Function.update_self ..

/-- What a call does to one window: both samplers do the same to it and no other granularity has it open,
or neither touches it. -/
inductive Handles (x : SideBySide K) (call : GranularityCall K) (p : UInt32) (win : Nat) : Prop where
  | both (free : ∀ other, other ≠ call.1 → ((x.2 other).buckets p).lookup win = none)
      (same : ((sharing x.1 call).1.buckets p).lookup win =
        ((sampling id call.1 (x.2 call.1) call.2).1.buckets p).lookup win)
  | neither (shared : ((sharing x.1 call).1.buckets p).lookup win = (x.1.buckets p).lookup win)
      (separate : ((sampling id call.1 (x.2 call.1) call.2).1.buckets p).lookup win =
        ((x.2 call.1).buckets p).lookup win)

/-- Where a call touches nothing, every sampler has its windows as before. -/
theorem lookup_untouched (separate : ((sampling id call.1 (x.2 call.1) call.2).1.buckets p).lookup win =
    ((x.2 call.1).buckets p).lookup win) (other : HistoryGranularity) :
    (((sideBySide x call).1.2 other).buckets p).lookup win = ((x.2 other).buckets p).lookup win := by
  by_cases own : other = call.1
  · rw [own, separately_own, separate]
  · rw [separately_other own]

theorem Divided.step (divided : Divided x) (handles : ∀ p win, Handles x call p win) :
    Divided (sideBySide x call).1 := by
  have only : ∀ {p win}, (∀ other, other ≠ call.1 → ((x.2 other).buckets p).lookup win = none) → ∀ gran,
      (((sideBySide x call).1.2 gran).buckets p).lookup win ≠ none → gran = call.1 := by
    intro p win free gran open_
    by_contra other
    rw [separately_other other] at open_
    exact open_ (free gran other)
  refine ⟨fun gran p win b found => ?_, fun p win open_ => ?_, fun gran gran' p win open_ open' => ?_⟩
  · cases handles p win with
    | both free same =>
      obtain rfl := only free gran (by rw [found]; exact Option.some_ne_none b)
      rw [separately_own, ← same] at found
      exact found
    | neither shared separate =>
      rw [lookup_untouched separate] at found
      exact shared.trans (divided.kept gran p win b found)
  · cases handles p win with
    | both free same =>
      refine ⟨call.1, ?_⟩
      rw [separately_own, ← same]
      exact open_
    | neither shared separate =>
      obtain ⟨gran, owned⟩ := divided.covered p win (shared ▸ open_)
      exact ⟨gran, by rwa [lookup_untouched separate]⟩
  · cases handles p win with
    | both free same => rw [only free gran open_, only free gran' open']
    | neither shared separate =>
      rw [lookup_untouched separate] at open_ open'
      exact divided.apart gran gran' p win open_ open'

/-- Tables with the same windows before a time roll the same records up. -/
theorem rollUp_perm {ds ds' : DownSampler K} {order : HashOrder (Sigma fun _ : Nat => Bucket K)}
    {clock nowMs : Nat}
    (same : ∀ win < DownSampler.alignToWindow (DownSampler.rollTime clock nowMs) gran,
      (ds.buckets p).lookup win = (ds'.buckets p).lookup win) :
    (ds.rollUp order clock p gran nowMs).2.Perm (ds'.rollUp order clock p gran nowMs).2 := by
  let ended : Nat → Bool := fun win => win < DownSampler.alignToWindow (DownSampler.rollTime clock nowMs) gran
  have tables : (DownSampler.keep ended (ds.buckets p)).entries.Perm
      (DownSampler.keep ended (ds'.buckets p)).entries := by
    apply AList.toFinmap_eq.mp
    apply Finmap.ext_lookup
    intro win
    rw [Finmap.lookup_toFinmap, Finmap.lookup_toFinmap, DownSampler.lookup_keep, DownSampler.lookup_keep]
    split
    · rename_i before
      exact same win (of_decide_eq_true before)
    · rfl
  have visited := (order.perm (ds.buckets p).entries).filter fun e => ended e.1
  have visited' := (order.perm (ds'.buckets p).entries).filter fun e => ended e.1
  exact (visited.trans (tables.trans visited'.symm)).map fun e => e.2.close p

/-- Where no other granularity has a window open that the call meets, the samplers do the same. -/
theorem isolated_of_apart (divided : Divided x) (apart : Apart x call) : Isolated x call := by
  obtain ⟨gran, call⟩ := call
  cases call with
  | feed point s =>
    refine ⟨.nil, divided.step fun p win => ?_⟩
    by_cases stamped : s.timestamp = 0
    · have idle : ∀ ds : DownSampler K, ds.feed point (s.valued id) gran = ds := fun ds => if_pos stamped
      exact .neither (by simp only [sharing, sampling, idle]) (by simp only [sampling, idle])
    · have looked : ∀ ds : DownSampler K, ((ds.feed point (s.valued id) gran).buckets p).lookup win =
          if p = point ∧ win = DownSampler.alignToWindow s.timestamp gran then
            some ((((ds.buckets p).lookup win).getD {}).add win s.value)
          else (ds.buckets p).lookup win := fun ds => DownSampler.lookup_feed stamped
      by_cases met : p = point ∧ win = DownSampler.alignToWindow s.timestamp gran
      · obtain ⟨rfl, rfl⟩ := met
        have free := apart stamped
        refine .both free ?_
        simp only [sharing, sampling]
        rw [looked, looked, if_pos ⟨rfl, rfl⟩, if_pos ⟨rfl, rfl⟩, divided.own free]
      · refine .neither ?_ ?_
        · simp only [sharing, sampling]
          rw [looked, if_neg met]
        · simp only [sampling]
          rw [looked, if_neg met]
  | rollUp order clock point nowMs =>
    refine ⟨rollUp_perm fun win ended => divided.own fun other => (apart other · win ended),
      divided.step fun p win => ?_⟩
    by_cases met : p = point ∧ win < DownSampler.alignToWindow (DownSampler.rollTime clock nowMs) gran
    · obtain ⟨rfl, ended⟩ := met
      refine .both (fun other different => apart other different win ended) ?_
      simp only [sharing, sampling]
      rw [DownSampler.lookup_rollUp, DownSampler.lookup_rollUp, if_pos ⟨rfl, ended⟩, if_pos ⟨rfl, ended⟩]
    · refine .neither ?_ ?_
      · simp only [sharing, sampling]
        rw [DownSampler.lookup_rollUp, if_neg met]
      · simp only [sampling]
        rw [DownSampler.lookup_rollUp, if_neg met]

/-- A call that meets a window of another granularity merges into it or drains it. -/
theorem apart_of_isolated (isolated : Isolated x call) : Apart x call := by
  obtain ⟨gran, call⟩ := call
  obtain ⟨-, windows⟩ := isolated
  cases call with
  | feed point s =>
    intro stamped other different
    by_contra open_
    have fed : (((x.2 gran).feed point (s.valued id) gran).buckets point).lookup
        (DownSampler.alignToWindow s.timestamp gran) ≠ none := by
      have stamped' : (s.valued id).timestamp ≠ 0 := stamped
      rw [DownSampler.lookup_feed stamped', if_pos ⟨rfl, rfl⟩]
      exact Option.some_ne_none _
    have own : (((sideBySide x (gran, .feed point s)).1.2 gran).buckets point).lookup
        (DownSampler.alignToWindow s.timestamp gran) ≠ none := by
      rw [separately_own]
      exact fed
    have foreign : (((sideBySide x (gran, .feed point s)).1.2 other).buckets point).lookup
        (DownSampler.alignToWindow s.timestamp gran) ≠ none := by
      rw [separately_other different]
      exact open_
    exact different (windows.apart other gran point _ foreign own)
  | rollUp order clock point nowMs =>
    intro other different win ended
    by_contra open_
    obtain ⟨b, found⟩ := Option.ne_none_iff_exists'.mp open_
    rw [← separately_other different] at found
    have kept := windows.kept other point win b found
    have drained : ((x.1.rollUp order clock point gran nowMs).1.buckets point).lookup win = none := by
      rw [DownSampler.lookup_rollUp, if_pos ⟨rfl, ended⟩]
    exact absurd (drained.symm.trans kept) (by simp)

/-- The shared sampler is isolated in every call of a run exactly when no call meets an open window of
another granularity. -/
theorem granularities_isolated_iff (calls : List (GranularityCall K)) :
    (∀ v ∈ Runs.visits sideBySide (({}, fun _ => {}) : SideBySide K) calls, Isolated v.1 v.2) ↔
      ∀ v ∈ Runs.visits sideBySide (({}, fun _ => {}) : SideBySide K) calls, Apart v.1 v.2 := by
  suffices general : ∀ x : SideBySide K, Divided x →
      ((∀ v ∈ Runs.visits sideBySide x calls, Isolated v.1 v.2) ↔ ∀ v ∈ Runs.visits sideBySide x calls, Apart v.1 v.2)
    from general _ divided_fresh
  induction calls with
  | nil => exact fun x _ => ⟨fun _ _ none => (List.not_mem_nil none).elim, fun _ _ none => (List.not_mem_nil none).elim⟩
  | cons call calls ih =>
    intro x divided
    rw [Runs.visits, List.forall_mem_cons, List.forall_mem_cons]
    constructor
    · rintro ⟨here, later⟩
      exact ⟨apart_of_isolated here, (ih _ here.windows).mp later⟩
    · rintro ⟨here, later⟩
      have isolated := isolated_of_apart divided here
      exact ⟨isolated, (ih _ isolated.windows).mpr later⟩

end Windows

/-- Two samples of one minute, the first for the history in seconds and the second for that in minutes. -/
def mixed : List (GranularityCall (Extended ℚ)) :=
  [(.gran1s, .feed 1 ⟨60000, 1, .num 10⟩), (.gran1m, .feed 1 ⟨60500, 1, .num 30⟩)]

def secondsOver : GranularityCall (Extended ℚ) := (.gran1s, .rollUp (HashOrder.insertion _) 0 1 61000)

/-- The record of the second has both samples. -/
theorem isolated_fails : ¬∀ v ∈ Runs.visits sideBySide (({}, fun _ => {}) : SideBySide (Extended ℚ))
    (mixed ++ [secondsOver]), Isolated v.1 v.2 := by
  intro isolated
  have last := isolated (Runs.run sideBySide ({}, fun _ => {}) mixed, secondsOver)
    (Runs.visit_of_prefix (List.prefix_refl _))
  have counts := last.records.map fun r => r.sampleCount
  have shared : ((sharing (Runs.run sideBySide (({}, fun _ => {}) : SideBySide (Extended ℚ)) mixed).1 secondsOver).2.map
      fun r => r.sampleCount) = [2] := by decide +kernel
  have separate : ((sampling id .gran1s ((Runs.run sideBySide (({}, fun _ => {}) : SideBySide (Extended ℚ)) mixed).2
      .gran1s) secondsOver.2).2.map fun r => r.sampleCount) = [1] := by decide +kernel
  rw [shared] at counts
  exact absurd (counts.trans (.of_eq separate)) (by decide)

end EnerSentry.Datahub
