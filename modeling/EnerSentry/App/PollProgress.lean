import EnerSentry.App.DuePoll
import EnerSentry.App.PollAttribution

/-!
Whether polling goes on by itself. Ticks alone never give a pending poll up, so a response that
does not come leaves the driver waiting for as long as the connection stands. From every other
state the next segments of the plan get their turn, one at each tick, until one of them is sent.
-/

namespace EnerSentry.App
open EnerSentry.Lib EnerSentry.Protocol

variable {K : Type*}

namespace PollWorld

/-- A read went out, and the channel took it. -/
def ReadSent (out : List (PollOutput K)) : Prop :=
  ∃ linkId req n, .written linkId req n ∈ out ∧ 0 ≤ n ∧ isReadCode req.functionCode = true

/-- Ticks and nothing else, each with the channel as it finds it. -/
def ticks (channels : Nat → Channel) (n : Nat) : List PollEvent := (List.range n).map fun i => .tick (channels i)

/-- No poll is pending, an id is free, and there is a point at an address that can be asked. -/
structure CanPoll (points : List (PointRuntime K)) (w : PollWorld K) : Prop where
  free : w.driver.pending.active = false
  id : ¬w.engine.txIdAllocator.Exhausted
  point : ∃ pr ∈ points, pr.enabled = true ∧ 1 ≤ pr.slaveAddress ∧ pr.slaveAddress ≤ 247

/-- A tick that sends nothing leaves the engine and the pending poll alone. -/
structure Waits (w w' : PollWorld K) (passed : Nat) : Prop where
  engine : w'.engine = w.engine
  pending : w'.driver.pending = w.driver.pending
  running : w'.driver.running = w.driver.running
  next : w'.driver.nextSegIdx = w.driver.nextSegIdx + passed

section Due
variable {points : List (PointRuntime K)} {w w' : PollWorld K} {channel : Channel} {seg : Segment K}
  {req : ModbusRequest}

theorem ticks_succ (channels : Nat → Channel) (n : Nat) :
    ticks channels (n + 1) = .tick (channels 0) :: ticks (fun i => channels (i + 1)) n := by
  rw [ticks, List.range_succ_eq_map, List.map_cons, List.map_map]
  rfl

theorem onTimeout_undue (ready : Ready points w) (channel : Channel) (none : w.due = none) : ∃ passed,
    w.Waits (w.onTimeout channel).1 passed ∧ (w.turn ≠ .none → passed = 1) ∧ (w.onTimeout channel).2 = [] := by
  cases turn : w.turn with
  | none =>
    obtain ⟨d, turned, passed⟩ := onTimeout_none ready channel turn
    rw [passed]
    exact ⟨0, ⟨rfl, turned.pending, turned.running, turned.next⟩, fun some => absurd rfl some, rfl⟩
  | some seg =>
    obtain ⟨d, s, turned, -, quiet, -⟩ := onTimeout_some ready channel turn
    rw [due, turn, Option.bind_some] at none
    rw [quiet none]
    exact ⟨1, ⟨rfl, turned.pending, turned.running, turned.next⟩, fun _ => rfl, rfl⟩

theorem onTimeout_due (ready : Ready points w) (due : w.due = some req) (taken : 0 ≤ channel (buildRequest req)) :
    ReadSent (w.onTimeout channel).2 := by
  obtain ⟨seg, turn, drawn⟩ := Option.bind_eq_some_iff.mp due
  obtain ⟨d, s, -, -, -, sent⟩ := onTimeout_some ready channel turn
  obtain ⟨index, sends⟩ := sent req drawn
  rw [sends]
  refine ⟨_, req, _, List.mem_singleton.mpr rfl, taken, ?_⟩
  rw [(ModbusEngine.drawn_spec drawn).1]
  cases rt : seg.rt <;> simp [readRequest, fcForRead, rt, isReadCode]

/-- What is due shows that the driver can poll. -/
theorem canPoll_of_due (ready : Ready points w) (due : w.due = some req) : CanPoll points w := by
  obtain ⟨seg, turn, drawn⟩ := Option.bind_eq_some_iff.mp due
  obtain ⟨⟨-, free⟩, planned⟩ := Option.ite_none_right_eq_some.mp turn
  obtain ⟨-, nonzero, unused, built⟩ := ModbusEngine.drawn_spec drawn
  have member : seg ∈ buildSegments points := ready.segments ▸ List.mem_of_getElem? planned
  obtain ⟨pr, holds⟩ := points_buildSegments member
  obtain ⟨listed, reads⟩ := reads_buildSegments member holds
  refine ⟨free, fun full => ?_, pr, listed, reads.enabled, ?_⟩
  · exact absurd ((full _ nonzero).symm.trans unused) (by decide)
  · rw [reads.slave]
    exact ⟨built.1, built.2.1⟩

theorem buildable_of_point {pr : PointRuntime K} (reads : seg.Reads pr) (low : 1 ≤ pr.slaveAddress)
    (high : pr.slaveAddress ≤ 247) : (readRequest seg).Buildable := by
  rw [reads.slave] at low high
  refine ⟨low, high, ?_⟩
  have width := pointWidth_pos pr
  have first := reads.first
  have last := reads.last
  have some : seg.qty ≠ 0 := by
    intro zero
    rw [zero] at last
    simp only [UInt16.toNat_zero] at last
    omega
  have quantity : (seg.qty == 0) = false := beq_eq_false_iff_ne.mpr some
  have read : isReadCode (fcForRead seg.rt) = true := by cases seg.rt <;> decide
  simp only [requestPdu, readRequest, read, quantity, if_true, Bool.false_eq_true, if_false]
  exact Option.some_ne_none _

theorem Waits.canPoll {passed : Nat} (waits : w.Waits w' passed) : CanPoll points w' ↔ CanPoll points w := by
  constructor
  · rintro ⟨free, id, point⟩
    exact ⟨waits.pending ▸ free, waits.engine ▸ id, point⟩
  · rintro ⟨free, id, point⟩
    exact ⟨by rwa [waits.pending], by rwa [waits.engine], point⟩

/-- The driver can poll some segment of its plan. -/
theorem CanPoll.planned (can : CanPoll points w) (ready : Ready points w) :
    ∃ (i : Nat) (seg : Segment K) (req : ModbusRequest), w.driver.segments[i]? = some seg ∧
      w.engine.drawn (readRequest seg) = some req := by
  obtain ⟨pr, member, enabled, low, high⟩ := can.point
  obtain ⟨seg, planned, holds⟩ := planned_of_enabled member enabled
  obtain ⟨i, here⟩ := List.getElem?_of_mem planned
  have built := buildable_of_point (reads_buildSegments planned holds).2 low high
  have nonzero : w.engine.txIdAllocator.allocate.1 ≠ 0 := by
    obtain ⟨-, full⟩ | ⟨id, nonzero, -, allocated⟩ := w.engine.txIdAllocator.allocate_cases
    · exact absurd full can.id
    · rw [congrArg Prod.fst allocated]
      exact nonzero
  exact ⟨i, seg, _, ready.segments ▸ here, if_pos ⟨nonzero, built⟩⟩

/-- Going round from any index comes to every other one. -/
theorem turn_comes {i n : Nat} (inside : i < n) (m : Nat) : ∃ k, (m + k) % n = i := by
  have quotient := Nat.div_add_mod m n
  have rest := Nat.mod_lt m (Nat.zero_lt_of_lt inside)
  have round : m + (i + (n - m % n)) = i + n * (m / n + 1) := by
    rw [Nat.mul_add]
    omega
  refine ⟨i + (n - m % n), ?_⟩
  calc (m + (i + (n - m % n))) % n = (i + n * (m / n + 1)) % n := congrArg (· % n) round
    _ = i % n := Nat.add_mul_mod_self_left i n _
    _ = i := Nat.mod_eq_of_lt inside

variable [Zero K] [One K] [Add K] [Mul K] {cv : Conversions K}

/-- A driver that cannot poll never sends another read by ticks alone. -/
theorem silent_ticks (ready : Ready points w) (stuck : ¬CanPoll points w) (channels : Nat → Channel) (n : Nat) :
    Runs.outputs (step cv) w (ticks channels n) = [] := by
  induction n generalizing w channels with
  | zero => rfl
  | succ n ih =>
    have none : w.due = none := Option.eq_none_iff_forall_ne_some.mpr fun req due => stuck (canPoll_of_due ready due)
    obtain ⟨passed, waits, -, quiet⟩ := onTimeout_undue ready (channels 0) none
    rw [ticks_succ, Runs.outputs]
    simp only [step, quiet, List.nil_append]
    exact ih (ready.tick _) (fun can => stuck (waits.canPoll.mp can)) _

/-- A read that is due goes out with the first tick. -/
theorem sends_due (ready : Ready points w) (due : w.due = some req) {channels : Nat → Channel}
    (up : ∀ i frame, 0 ≤ channels i frame) : ∃ n, ReadSent (Runs.outputs (step cv) w (ticks channels n)) := by
  obtain ⟨linkId, r, result, member, sent⟩ := onTimeout_due ready due (up 0 _)
  refine ⟨1, linkId, r, result, ?_, sent⟩
  rw [ticks_succ, Runs.outputs]
  exact List.mem_append_left _ member

/-- A driver that can poll sends a read before the segment that it can send has its turn. -/
theorem sends_within (ready : Ready points w) (running : w.driver.running = true)
    (free : w.driver.pending.active = false) {k : Nat}
    (planned : w.driver.segments[(w.driver.nextSegIdx + k) % w.driver.segments.length]? = some seg)
    (drawn : w.engine.drawn (readRequest seg) = some req) {channels : Nat → Channel}
    (up : ∀ i frame, 0 ≤ channels i frame) :
    ∃ n, ReadSent (Runs.outputs (step cv) w (ticks channels n)) := by
  induction k generalizing w channels with
  | zero =>
    have due : w.due = some req := by
      rw [due, turn, if_pos ⟨running, free⟩, ← Nat.add_zero w.driver.nextSegIdx, planned, Option.bind_some, drawn]
    exact sends_due ready due up
  | succ k ih =>
    cases due : w.due with
    | some r => exact sends_due ready due up
    | none =>
      obtain ⟨passed, waits, counted, quiet⟩ := onTimeout_undue ready (channels 0) due
      have segments : (w.onTimeout (channels 0)).1.driver.segments = w.driver.segments :=
        (ready.tick (channels 0)).segments.trans ready.segments.symm
      have inside : w.driver.segments ≠ [] := by
        intro empty
        rw [empty] at planned
        cases planned
      have some : w.turn ≠ .none := by
        rw [turn, if_pos ⟨running, free⟩, List.getElem?_eq_getElem (Nat.mod_lt _ (List.length_pos_iff.mpr inside))]
        exact Option.some_ne_none _
      have next : (w.onTimeout (channels 0)).1.driver.nextSegIdx + k = w.driver.nextSegIdx + (k + 1) := by
        rw [waits.next, counted some]
        omega
      obtain ⟨n, linkId, r, result, member, sent⟩ := ih (ready.tick (channels 0)) (waits.running.trans running)
        (waits.pending ▸ free) (by rw [segments, next]; exact planned) (by rw [waits.engine]; exact drawn)
        (fun i => up (i + 1))
      refine ⟨n + 1, linkId, r, result, ?_, sent⟩
      rw [ticks_succ, Runs.outputs]
      exact List.mem_append_right _ member

end Due

section Progress
variable [Zero K] [One K] [Add K] [Mul K] (cv : Conversions K)

/-- With polling started and the link up, another read goes out by ticks alone exactly when no
poll is pending, an id is free and some enabled point can be asked. -/
theorem progress_iff (points : List (PointRuntime K)) (es : List PollEvent)
    (started : (Runs.run (step cv) (fresh points) es).driver.running = true)
    (channels : Nat → Channel) (up : ∀ i frame, 0 ≤ channels i frame) :
    (∃ n, ReadSent (Runs.outputs (step cv) (Runs.run (step cv) (fresh points) es) (ticks channels n))) ↔
      CanPoll points (Runs.run (step cv) (fresh points) es) := by
  have ready : Ready points (Runs.run (step cv) (fresh points) es) := ready_reached points es _ Runs.run_mem_reached
  constructor
  · rintro ⟨n, linkId, req, result, member, -⟩
    by_contra stuck
    rw [silent_ticks ready stuck channels n] at member
    cases member
  · intro can
    obtain ⟨i, seg, req, here, drawn⟩ := can.planned ready
    obtain ⟨k, comes⟩ := turn_comes (List.getElem?_eq_some_iff.mp here).1
      (Runs.run (step cv) (fresh points) es).driver.nextSegIdx
    exact sends_within ready started can.free (by rw [comes]; exact here) drawn up

end Progress

theorem progress_started :
    (∃ n, ReadSent (Runs.outputs (step integers) (Runs.run (step integers) (fresh apartPoints) [.startPolling 100])
      (ticks (fun _ bytes => bytes.length) n))) ↔
      CanPoll apartPoints (Runs.run (step integers) (fresh apartPoints) [.startPolling 100]) :=
  progress_iff integers apartPoints [.startPolling 100] rfl
    (fun _ bytes => bytes.length) fun _ _ => Int.natCast_nonneg _

/-- The response to the first poll is lost: polling is on, and no other read follows. -/
theorem progress_fails :
    (Runs.run (step integers) (fresh apartPoints)
      [.startPolling 100, .tick fun bytes => bytes.length]).driver.running = true ∧
      ¬∃ n, ReadSent (Runs.outputs (step integers)
        (Runs.run (step integers) (fresh apartPoints) [.startPolling 100, .tick fun bytes => bytes.length])
        (ticks (fun _ bytes => bytes.length) n)) := by
  refine ⟨by decide +kernel, ?_⟩
  rintro ⟨n, linkId, req, result, member, -⟩
  have stuck : ¬CanPoll apartPoints
      (Runs.run (step integers) (fresh apartPoints) [.startPolling 100, .tick fun bytes => bytes.length]) := by
    intro can
    exact absurd can.free (by decide +kernel)
  rw [silent_ticks (ready_reached apartPoints _ _ Runs.run_mem_reached) stuck] at member
  cases member

end PollWorld
end EnerSentry.App
