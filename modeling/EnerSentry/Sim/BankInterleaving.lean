import Mathlib.Algebra.Order.Field.Rat
import EnerSentry.Sim.GeneratedCells

/-!
Master writes and the data generator on one register bank. A write request copies a
snapshot and publishes the copy later; the generator publishes a private working copy that
never reads the bank. A register keeps its latest value throughout a run exactly when
every publisher already holds, in the cells it does not write itself, what was put there
last.
-/

namespace EnerSentry.Sim
open EnerSentry.Lib

section Writes

/-- A write of one or several holding registers, its bytes arbitrary otherwise. -/
abbrev WordWrite := { pdu : List UInt8 // pdu.headD 0 = 0x06 ∨ pdu.headD 0 = 0x10 }

/-- The registers a write request names, with their values, in the order of writing. -/
def writtenWords (pdu : List UInt8) : List (UInt16 × UInt16) :=
  if pdu.headD 0 = 0x06 then [(be16 pdu 1, be16 pdu 3)]
  else (List.range (be16 pdu 3).toNat).map (fun i => (be16 pdu 1 + UInt16.ofNat i, be16 pdu (6 + 2 * i)))

def applyWords (regs : SlaveRegset) (words : List (UInt16 × UInt16)) : SlaveRegset :=
  words.foldl (fun regs w => regs.setHolding w.1 w.2) regs

/-- The last value that a list of writes gives a register. -/
def wordAt (words : List (UInt16 × UInt16)) (a : UInt16) : Option UInt16 :=
  (words.reverse.find? (fun w => w.1 == a)).map (·.2)

theorem cell_applyWords (regs : SlaveRegset) (words : List (UInt16 × UInt16)) (a : UInt16) :
    (applyWords regs words).cell .holdingRegister a =
      match wordAt words a with
      | some v => (regs.cell .holdingRegister a).map (fun _ => v)
      | none => regs.cell .holdingRegister a := by
  induction words using List.reverseRecOn with
  | nil => rfl
  | append_singleton words w ih =>
    rw [applyWords, List.foldl_concat, cell_setHolding, ← applyWords, ih]
    by_cases same : a = w.1
    · subst same
      rw [if_pos ⟨rfl, rfl⟩]
      cases wordAt words w.1 <;> simp [wordAt, Function.comp_def]
    · have skip : (w.1 == a) = false := beq_false_of_ne (fun equal => same equal.symm)
      rw [if_neg (fun both => same both.2)]
      simp only [wordAt, List.reverse_append, List.reverse_singleton, List.singleton_append,
        List.find?_cons, skip]

theorem cell_applyWords_other (regs : SlaveRegset) (words : List (UInt16 × UInt16)) {t : RegisterType}
    (a : UInt16) (other : t ≠ .holdingRegister) : (applyWords regs words).cell t a = regs.cell t a := by
  induction words generalizing regs with
  | nil => rfl
  | cons w words ih =>
    rw [applyWords, List.foldl_cons, ← applyWords, ih, cell_setHolding, if_neg (fun both => other both.1)]

/-- A word write that succeeds makes its writes, all of them inside the register set. -/
theorem writeSingleRegister_succeeds (regs : SlaveRegset) (pdu : List UInt8)
    (succeeds : (writeSingleRegister regs pdu).1.exception = none) :
    (writeSingleRegister regs pdu).2 = regs.setHolding (be16 pdu 1) (be16 pdu 3) ∧
      (be16 pdu 1).toNat < regs.holding.length := by
  unfold writeSingleRegister at succeeds ⊢
  by_cases long : pdu.length != 5
  · simp [long, exceptionPdu] at succeeds
  · by_cases inside : (be16 pdu 1).toNat < regs.holding.length
    · simp only [long, Bool.false_eq_true, ↓reduceIte, Nat.not_le.mpr inside]
      exact ⟨trivial, inside⟩
    · simp [long, Nat.not_lt.mp inside, exceptionPdu] at succeeds

theorem writeRegisters_succeeds (regs : SlaveRegset) (pdu : List UInt8)
    (succeeds : (writeRegisters regs pdu).1.exception = none) :
    (writeRegisters regs pdu).2 = (List.range (be16 pdu 3).toNat).foldl (fun regs i =>
        regs.setHolding (be16 pdu 1 + UInt16.ofNat i) (be16 pdu (6 + 2 * i))) regs ∧
      (be16 pdu 1).toNat + (be16 pdu 3).toNat ≤ regs.holding.length := by
  unfold writeRegisters writeMultiple at succeeds ⊢
  simp only at succeeds ⊢
  split at succeeds
  · simp [exceptionPdu] at succeeds
  · rename_i formed
    rw [if_neg formed]
    by_cases inside : (be16 pdu 1).toNat + (be16 pdu 3).toNat ≤ regs.holding.length
    · rw [if_neg (Nat.not_lt.mpr inside)]
      exact ⟨rfl, inside⟩
    · rw [if_pos (Nat.not_le.mp inside)] at succeeds
      simp [exceptionPdu] at succeeds

theorem dispatch_wordWrite (regs : SlaveRegset) (pdu : WordWrite)
    (succeeds : (dispatchFull regs pdu.1 true).1.exception = none) :
    (dispatchFull regs pdu.1 true).2 = applyWords regs (writtenWords pdu.1) ∧
      ∀ w ∈ writtenWords pdu.1, w.1.toNat < regs.holding.length := by
  obtain ⟨pdu, code⟩ := pdu
  cases pdu with
  | nil => simp at code
  | cons fc rest =>
    rcases code with single | multiple
    · have named : fc = 0x06 := single
      subst named
      obtain ⟨stored, inside⟩ := writeSingleRegister_succeeds regs (0x06 :: rest) succeeds
      refine ⟨stored, fun w member => ?_⟩
      have one : w = (be16 (0x06 :: rest) 1, be16 (0x06 :: rest) 3) := List.mem_singleton.mp member
      rw [one]
      exact inside
    · have named : fc = 0x10 := multiple
      subst named
      obtain ⟨stored, inside⟩ := writeRegisters_succeeds regs (0x10 :: rest) succeeds
      have words : writtenWords (0x10 :: rest) = (List.range (be16 (0x10 :: rest) 3).toNat).map
          (fun i => (be16 (0x10 :: rest) 1 + UInt16.ofNat i, be16 (0x10 :: rest) (6 + 2 * i))) :=
        if_neg (show ¬(0x10 : UInt8) = 0x06 by decide)
      show _ = applyWords regs (writtenWords (0x10 :: rest)) ∧ ∀ w ∈ writtenWords (0x10 :: rest), _
      rw [words, applyWords, List.foldl_map]
      refine ⟨stored, fun w member => ?_⟩
      obtain ⟨i, below, rfl⟩ := List.mem_map.mp member
      have few := List.mem_range.mp below
      calc (be16 (0x10 :: rest) 1 + UInt16.ofNat i).toNat
        _ ≤ (be16 (0x10 :: rest) 1).toNat + (UInt16.ofNat i).toNat := by
          rw [UInt16.toNat_add]
          exact Nat.mod_le ..
        _ ≤ (be16 (0x10 :: rest) 1).toNat + i := by
          rw [UInt16.toNat_ofNat']
          exact Nat.add_le_add_left (Nat.mod_le ..) _
        _ < regs.holding.length := by omega

end Writes

/-- A request between its snapshot and its publish. -/
structure Serving where
  slaveId : UInt8
  pdu : WordWrite
  snapshot : SlaveRegset

structure SimWorld (K : Type*) [Arithmetic K] where
  bank : RegisterBank
  generator : PointGenerator K
  injector : FaultInjector K := {}
  allSlaves : List UInt8
  serving : Option Serving := none

/-- The steps that interleave. The emulator answers under a lock, so at most one request
is between its two halves; a tick is one step for every slave. -/
inductive SimEvent (K : Type*) [Arithmetic K] where
  | request (slaveId : UInt8) (pdu : WordWrite)
  | answer
  | generate (slave : UInt8)
  | fault (input : FaultInput K)

/-- The reply to a master; `none` where the slave is not served. -/
abbrev SimReply := UInt8 × Option DispatchResult

namespace SimWorld
variable {K : Type*} [Arithmetic K] (rd : Rounding K)

def step : Runs.Step (SimWorld K) (SimEvent K) SimReply := fun w event =>
  match event with
  | .request slaveId pdu =>
      if w.serving.isSome then (w, [])
      else if slaveId ∈ w.allSlaves then
        match w.bank.snapshot slaveId with
        | none => (w, [(slaveId, none)])
        | some snap => ({ w with serving := some ⟨slaveId, pdu, snap⟩ }, [])
      else (w, [(slaveId, none)])
  | .answer =>
      match w.serving with
      | none => (w, [])
      | some q =>
          let served := serveSnapshot w.bank q.slaveId q.snapshot q.pdu.1
          ({ w with bank := served.2, serving := none }, [(q.slaveId, some served.1)])
  | .generate slave =>
      if slave ∈ w.generator.slaves then
        let next := w.generator.generateSlave rd (some w.injector) slave
        ({ w with generator := next, bank := w.bank.publish slave (next.work slave) }, [])
      else (w, [])
  | .fault input => ({ w with injector := (w.injector.step input).1 }, [])

/-- The value last put into every cell, by a successful write or by the generator. -/
abbrev Latest := UInt8 → RegisterType → UInt16 → Option UInt16

/-- A request that is going to succeed. -/
def succeeds (q : Serving) : Bool := (dispatchFull q.snapshot q.pdu.1 true).1.exception.isNone

def putBy (q : Serving) (latest : RegisterType → UInt16 → Option UInt16) :
    RegisterType → UInt16 → Option UInt16
  | .holdingRegister, a =>
      match wordAt (writtenWords q.pdu.1) a with
      | some v => some v
      | none => latest .holdingRegister a
  | t, a => latest t a

def track (w : SimWorld K) (latest : Latest) (event : SimEvent K) (_ : List SimReply) : Latest :=
  match event with
  | .request _ _ => latest
  | .answer =>
      match w.serving with
      | none => latest
      | some q => if succeeds q then Function.update latest q.slaveId (putBy q (latest q.slaveId)) else latest
  | .generate slave =>
      if slave ∈ w.generator.slaves then
        let next := w.generator.generateSlave rd (some w.injector) slave
        Function.update latest slave (fun t a =>
          if w.generator.drives (some w.injector) slave t a then (next.work slave).cell t a else latest slave t a)
      else latest
  | .fault _ => latest

/-- Every published register set holds in every cell what was last put there. -/
def Kept (s : SimWorld K × Latest) : Prop :=
  ∀ slave t a v, s.2 slave t a = some v → (s.1.bank slave).bind (fun regs => regs.cell t a) = some v

/-- A register set holds what was last put into the cells outside `own`. -/
def UpToDate (regs : SlaveRegset) (latest : RegisterType → UInt16 → Option UInt16)
    (own : RegisterType → UInt16 → Prop) : Prop :=
  ∀ t a v, ¬own t a → latest t a = some v → regs.cell t a = some v

def addresses (q : Serving) (t : RegisterType) (a : UInt16) : Prop :=
  t = .holdingRegister ∧ (wordAt (writtenWords q.pdu.1) a).isSome

/-- Who publishes in this step holds the latest values of the cells it does not write: the
generator in its working copy, a successful write in its snapshot. -/
def Current (s : SimWorld K × Latest) : SimEvent K → Prop
  | .generate slave => slave ∈ s.1.generator.slaves →
      UpToDate (s.1.generator.work slave) (s.2 slave)
        (fun t a => s.1.generator.drives (some s.1.injector) slave t a = true)
  | .answer => ∀ q, s.1.serving = some q → succeeds q = true →
      UpToDate q.snapshot (s.2 q.slaveId) (addresses q)
  | _ => True

def watched : Runs.Step (SimWorld K × Latest) (SimEvent K) SimReply := Runs.watch (step rd) (track rd)

section Publish
variable {w w' : SimWorld K} (latest : Latest) {slave : UInt8} {base next : SlaveRegset}
  (put : RegisterType → UInt16 → Option UInt16) {own : RegisterType → UInt16 → Prop}

/-- A published set that was derived from `base` by writing the cells `own` is right exactly
when `base` was up to date elsewhere. -/
theorem kept_publish_iff (published : w'.bank = w.bank.publish slave next) (frames : Frames own base next)
    (outside : ∀ t a, ¬own t a → put t a = latest slave t a)
    (inside : ∀ t a v, own t a → put t a = some v → next.cell t a = some v) (kept : Kept (w, latest)) :
    Kept (w', Function.update latest slave put) ↔ UpToDate base (latest slave) own := by
  constructor
  · intro after t a v free last
    have held := after slave t a v (by simpa [outside t a free] using last)
    rw [published] at held
    exact (frames t a free).symm.trans (by simpa using held)
  · intro upToDate other t a v last
    by_cases same : other = slave
    · subst same
      simp only [published, RegisterBank.publish_same, Option.bind_some]
      simp only [Function.update_self] at last
      by_cases owned : own t a
      · exact inside t a v owned last
      · rw [frames t a owned]
        exact upToDate t a v owned (outside t a owned ▸ last)
    · simp only [published, RegisterBank.publish_other _ _ same]
      simp only [Function.update_of_ne same] at last
      exact kept other t a v last

end Publish

section Answer
variable {q : Serving}

theorem serveSnapshot_eq (bank : RegisterBank) (q : Serving) : serveSnapshot bank q.slaveId q.snapshot q.pdu.1 =
    ((dispatchFull q.snapshot q.pdu.1 true).1,
      if succeeds q then bank.publish q.slaveId (dispatchFull q.snapshot q.pdu.1 true).2 else bank) := by
  have write : isWriteCode (q.pdu.1.headD 0) = true := by
    rcases q.pdu.2 with single | multiple
    · rw [single]
      decide
    · rw [multiple]
      decide
  unfold serveSnapshot succeeds
  simp only [write, Bool.true_and]
  split <;> rfl

theorem frames_answer (success : succeeds q = true) :
    Frames (addresses q) q.snapshot (dispatchFull q.snapshot q.pdu.1 true).2 := by
  have applied := (dispatch_wordWrite q.snapshot q.pdu (by simpa [succeeds] using success)).1
  intro t a free
  rw [applied]
  by_cases holding : t = .holdingRegister
  · subst holding
    have silent : wordAt (writtenWords q.pdu.1) a = none := by simpa [addresses] using free
    rw [cell_applyWords, silent]
  · exact cell_applyWords_other _ _ a holding

/-- A successful write stores the values of the request. -/
theorem answer_stores (success : succeeds q = true) {a v : UInt16}
    (written : wordAt (writtenWords q.pdu.1) a = some v) :
    (dispatchFull q.snapshot q.pdu.1 true).2.cell .holdingRegister a = some v := by
  obtain ⟨applied, inside⟩ := dispatch_wordWrite q.snapshot q.pdu (by simpa [succeeds] using success)
  obtain ⟨w, found, rfl⟩ := Option.map_eq_some_iff.mp written
  have member : w ∈ writtenWords q.pdu.1 := List.mem_reverse.mp (List.mem_of_find?_eq_some found)
  have here : w.1 = a := by simpa using List.find?_some found
  have bound : a.toNat < q.snapshot.holding.length := here ▸ inside w member
  have present : q.snapshot.cell .holdingRegister a = some q.snapshot.holding[a.toNat] :=
    List.getElem?_eq_getElem bound
  rw [applied, cell_applyWords, written, present]
  rfl

/-- The answer puts nothing into the registers its request does not name. -/
theorem putBy_free {latest : RegisterType → UInt16 → Option UInt16} (t : RegisterType) (a : UInt16)
    (free : ¬addresses q t a) : putBy q latest t a = latest t a := by
  cases t with
  | holdingRegister =>
    have silent : wordAt (writtenWords q.pdu.1) a = none := by simpa [addresses] using free
    simp only [putBy, silent]
  | inputRegister => rfl
  | coil => rfl
  | discreteInput => rfl

theorem putBy_named {latest : RegisterType → UInt16 → Option UInt16} {t : RegisterType} {v : UInt16}
    (success : succeeds q = true) (named : addresses q t a) (last : putBy q latest t a = some v) :
    ((dispatchFull q.snapshot q.pdu.1 true).2).cell t a = some v := by
  obtain ⟨rfl, named⟩ := named
  obtain ⟨x, written⟩ := Option.isSome_iff_exists.mp named
  simp only [putBy, written, Option.some.injEq] at last
  exact last ▸ answer_stores success written

end Answer

/-- A step that neither publishes nor puts a value keeps the latest values. -/
theorem kept_of_same {s : SimWorld K × Latest} {event : SimEvent K} (kept : Kept s)
    (bank : ((step rd s.1 event).1).bank = s.1.bank) (latest : (watched rd s event).1.2 = s.2) :
    Kept (watched rd s event).1 := by
  intro slave t a v last
  rw [latest] at last
  have held := kept slave t a v last
  show (((step rd s.1 event).1).bank slave).bind _ = _
  rw [bank]
  exact held

theorem kept_generate_iff {w : SimWorld K} {latest : Latest} (kept : Kept (w, latest)) (slave : UInt8) :
    Kept (watched rd (w, latest) (.generate slave)).1 ↔ Current (w, latest) (.generate slave) := by
  by_cases turn : slave ∈ w.generator.slaves
  · have published : ((step rd w (.generate slave)).1).bank =
        w.bank.publish slave ((w.generator.generateSlave rd (some w.injector) slave).work slave) := by
      simp only [step, if_pos turn]
    have exact_iff := kept_publish_iff latest (fun t a => if w.generator.drives (some w.injector) slave t a then
        ((w.generator.generateSlave rd (some w.injector) slave).work slave).cell t a else latest slave t a)
      published (PointGenerator.frames_generateSlave rd (some w.injector) w.generator slave)
      (fun t a free => if_neg free) (fun t a v owned last => by rwa [if_pos owned] at last) kept
    simp only [Current, watched, Runs.watch, track, forall_const, turn] at exact_iff ⊢
    exact exact_iff
  · simp only [Current, watched, Runs.watch, track, step, turn, if_false, false_implies, iff_true]
    exact kept

theorem kept_answer_iff {w : SimWorld K} {latest : Latest} (kept : Kept (w, latest)) :
    Kept (watched rd (w, latest) .answer).1 ↔ Current (w, latest) .answer := by
  cases pending : w.serving with
  | none =>
    simp only [Current, watched, Runs.watch, track, step, pending, reduceCtorEq, false_implies, implies_true,
      iff_true]
    exact kept
  | some q =>
    have served : ((step rd w .answer).1).bank =
        if succeeds q then w.bank.publish q.slaveId (dispatchFull q.snapshot q.pdu.1 true).2 else w.bank := by
      simp only [step, pending, serveSnapshot_eq]
    cases success : succeeds q with
    | true =>
      rw [success, if_pos rfl] at served
      have exact_iff := kept_publish_iff latest (putBy q (latest q.slaveId)) served (frames_answer success)
        putBy_free (fun t a v => putBy_named success) kept
      simp only [Current, watched, Runs.watch, track, pending, success, if_true, Option.some.injEq,
        forall_eq', forall_const]
      exact exact_iff
    | false =>
      rw [success, if_neg Bool.false_ne_true] at served
      have silent : Current (w, latest) .answer := by
        intro other same success'
        cases pending.symm.trans same
        rw [success] at success'
        cases success'
      refine iff_of_true (kept_of_same rd kept served ?_) silent
      simp only [watched, Runs.watch, track, pending, success, Bool.false_eq_true, if_false]

/-- One step keeps the latest values exactly when its publisher is current. -/
theorem kept_step_iff {s : SimWorld K × Latest} (kept : Kept s) (event : SimEvent K) :
    Kept (watched rd s event).1 ↔ Current s event := by
  cases event with
  | request slaveId pdu =>
    refine iff_of_true (kept_of_same rd kept ?_ rfl) trivial
    simp only [step]
    repeat' split
    all_goals rfl
  | fault input => exact iff_of_true kept trivial
  | generate slave => exact kept_generate_iff rd kept slave
  | answer => exact kept_answer_iff rd kept

/-- Every register keeps its latest value throughout a run if and only if every publisher
of the run is current. -/
theorem kept_iff (w : SimWorld K) (events : List (SimEvent K)) :
    (∀ s ∈ Runs.reached (watched rd) (w, fun _ _ _ => none) events, Kept s) ↔
      ∀ v ∈ Runs.visits (watched rd) (w, fun _ _ _ => none) events, Current v.1 v.2 := by
  apply Runs.reached_iff (watched rd) events (B := fun _ => True) (J := Kept)
  · trivial
  · exact fun _ _ _ => trivial
  · exact fun slave t a v last => nomatch last
  · exact fun s kept => kept
  · exact fun s event _ kept current => (kept_step_iff rd kept event).mpr current
  · exact fun s event _ kept stale after => stale ((kept_step_iff rd kept event).mp after)

scoped instance : Arithmetic ℚ where

/-- One slave that is written to, with one generated point at address 0. -/
def oneSlave : SimWorld ℚ :=
  let points := fun id : UInt8 => if id = 1 then [{ pointName := "BMS1_SOC", scaleFactor := 1, offset := 0 }] else []
  { bank := fun id => if id = 1 then some (SlaveRegset.allocate 1 16 16) else none
    generator := PointGenerator.create 100 [1] points {}
    allSlaves := [1] }

def floored : Rounding ℚ := { finite := fun _ => true, round := fun x => (x + 1 / 2).floor, truncate := Rat.floor }

/-- A master writes 7 to register 5, which no point uses, and a tick follows. -/
def writeThenTick : List (SimEvent ℚ) :=
  [.generate 1, .request 1 ⟨[0x06, 0, 5, 0, 7], Or.inl rfl⟩, .answer, .generate 1]

/-- The next published snapshot holds 0 again. -/
theorem kept_fails :
    ¬∀ s ∈ Runs.reached (watched floored) (oneSlave, fun _ _ _ => none) writeThenTick, Kept s := by
  intro kept
  have last := kept _ Runs.run_mem_reached 1 .holdingRegister 5 7 (by decide +kernel)
  exact absurd last (by decide +kernel)

section Sequential
variable (w : SimWorld K)

/-- The two halves of a request that nothing comes between. -/
theorem request_answer (slaveId : UInt8) (pdu : WordWrite) (idle : w.serving = none) :
    (Runs.run (step rd) w [.request slaveId pdu, .answer]).bank =
        (dispatchBySlaveId slaveId w.bank w.allSlaves pdu.1).2 ∧
      Runs.outputs (step rd) w [.request slaveId pdu, .answer] =
        [(slaveId, (dispatchBySlaveId slaveId w.bank w.allSlaves pdu.1).1)] := by
  by_cases served : slaveId ∈ w.allSlaves
  · cases present : w.bank.snapshot slaveId with
    | none => simp [Runs.run, Runs.outputs, step, dispatchBySlaveId, idle, served, present]
    | some snap => simp [Runs.run, Runs.outputs, step, dispatchBySlaveId, idle, served, present]
  · simp [Runs.run, Runs.outputs, step, dispatchBySlaveId, idle, served]

/-- Turns that nothing comes between. -/
theorem run_turns (turns : List UInt8) (listed : ∀ slave ∈ turns, slave ∈ w.generator.slaves) :
    let done := turns.foldl (fun (gb : PointGenerator K × RegisterBank) slave =>
      let next := gb.1.generateSlave rd (some w.injector) slave
      (next, gb.2.publish slave (next.work slave))) (w.generator, w.bank)
    Runs.run (step rd) w (turns.map .generate) = { w with generator := done.1, bank := done.2 } := by
  induction turns generalizing w with
  | nil => rfl
  | cons slave turns ih =>
    have turn := listed slave List.mem_cons_self
    simp only [List.map_cons, Runs.run, step, if_pos turn, List.foldl_cons]
    rw [ih]
    intro later member
    rw [(PointGenerator.generateSlave_frame rd (some w.injector) w.generator slave).2.1]
    exact listed later (List.mem_cons_of_mem _ member)

/-- A tick is the clock of the faults followed by a turn for every slave. -/
theorem run_tick (nowMonoMs : Int) (clock : Nat → Int) :
    let tick := w.generator.generateTick rd w.injector nowMonoMs clock w.bank
    Runs.run (step rd) w (.fault (.tickSessions w.generator.tickMs nowMonoMs clock) ::
        w.generator.slaves.map .generate) =
      { w with injector := tick.1, generator := tick.2.1, bank := tick.2.2 } := by
  simp only [Runs.run, step]
  rw [run_turns]
  · rfl
  · exact fun slave member => member

end Sequential

end SimWorld
end EnerSentry.Sim
