import EnerSentry.Protocol.TransactionPairing

/-!
Writes that return -1. The id of a request is registered before its frame is built and before
the channel takes it, so each way out has something to take back. A refusal by the channel
takes nothing back, and a frame without an id of its own that cannot be built takes back too
much; every other failure leaves the tables as they were.
-/

namespace EnerSentry.Protocol
open EnerSentry.Lib

namespace ModbusEngine

/-- The in-flight table and the marks of the ids are the same. -/
def SameTables (e d : ModbusEngine) : Prop := d.inFlight = e.inFlight ∧ d.txIdAllocator = e.txIdAllocator

/-- If the write fails it leaves the tables as they were. -/
def Traceless (e : ModbusEngine) (channel : Option Channel) (req : ModbusRequest) (linkId : UInt32) : Prop :=
  (e.writeRequest channel req linkId).result = -1 → e.SameTables (e.writeRequest channel req linkId).engine

/-- A request that draws an id is taken by the channel, or cannot be built and the id has no
entry yet; another one can be built, or it names no id that is known. -/
def Clean (e : ModbusEngine) (channel : Option Channel) (req : ModbusRequest) : Prop :=
  ∀ c, channel = some c →
    (e.Pairs req → e.txIdAllocator.allocate.1 ≠ 0 →
      (req.Buildable → c (buildRequest { req with transactionId := e.txIdAllocator.allocate.1 }) ≠ -1) ∧
      (¬req.Buildable → e.inFlight e.txIdAllocator.allocate.1 = none)) ∧
    (¬e.Pairs req → ¬req.Buildable → req.transactionId ≠ 0 →
      e.inFlight req.transactionId = none ∧ e.txIdAllocator.used req.transactionId = false)

section Writes
variable {e : ModbusEngine} {tid : UInt16} {entry : InFlightEntry}

/-- Forgetting an id changes nothing exactly when there is nothing to forget. -/
theorem sameTables_forget (nonzero : tid ≠ 0) : e.SameTables (e.forget tid) ↔
    e.inFlight tid = none ∧ e.txIdAllocator.used tid = false := by
  have named : tid ≠ TransactionIdAllocator.invalidId := nonzero
  simp only [SameTables, forget, TransactionIdAllocator.release, if_neg named]
  constructor
  · rintro ⟨table, marks⟩
    have entry := congrFun table tid
    have mark := congrFun (congrArg TransactionIdAllocator.used marks) tid
    rw [Function.update_self] at entry
    simp only [Function.update_self] at mark
    exact ⟨entry.symm, mark.symm⟩
  · rintro ⟨entry, mark⟩
    refine ⟨update_none entry, congrArg TransactionIdAllocator.mk ?_⟩
    rw [← mark, Function.update_eq_self]

/-- A registration changes the marks. -/
theorem not_sameTables_register (free : e.txIdAllocator.used tid = false) : ¬e.SameTables (e.register tid entry) := by
  rintro ⟨-, marks⟩
  have allocator : (e.register tid entry).txIdAllocator = e.txIdAllocator.mark tid := by
    unfold register emplace
    split <;> rfl
  have mark := congrFun (congrArg TransactionIdAllocator.used (allocator.symm.trans marks)) tid
  simp only [TransactionIdAllocator.mark, Function.update_self, free] at mark
  exact absurd mark (by decide)

/-- A registration that is taken back changes nothing exactly when the id had no entry. -/
theorem sameTables_undone (nonzero : tid ≠ 0) (free : e.txIdAllocator.used tid = false) :
    e.SameTables ((e.register tid entry).forget tid) ↔ e.inFlight tid = none := by
  have named : tid ≠ TransactionIdAllocator.invalidId := nonzero
  have tables : ((e.register tid entry).forget tid).inFlight = Function.update e.inFlight tid none := by
    unfold register emplace
    split
    · rfl
    · simp only [forget, Function.update_idem]
  have allocator : (e.register tid entry).txIdAllocator = e.txIdAllocator.mark tid := by
    unfold register emplace
    split <;> rfl
  have marks : ((e.register tid entry).forget tid).txIdAllocator = e.txIdAllocator := by
    simp only [forget, allocator, TransactionIdAllocator.release, if_neg named, TransactionIdAllocator.mark,
      Function.update_idem]
    refine congrArg TransactionIdAllocator.mk ?_
    rw [← free, Function.update_eq_self]
  rw [SameTables, tables, marks]
  constructor
  · rintro ⟨same, -⟩
    have entry := congrFun same tid
    rw [Function.update_self] at entry
    exact entry.symm
  · exact fun none => ⟨update_none none, rfl⟩

/-- A write is traceless exactly when it is clean. -/
theorem traceless_iff (e : ModbusEngine) (channel : Option Channel) (req : ModbusRequest) (linkId : UInt32) :
    e.Traceless channel req linkId ↔ e.Clean channel req := by
  have written := write_cases e channel req linkId
  unfold Traceless Clean
  generalize e.writeRequest channel req linkId = w at written
  cases written with
  | closed absent => exact iff_of_true (fun _ => ⟨rfl, rfl⟩) (by simp [absent])
  | exhausted pairs full present drawn =>
    exact iff_of_true (fun _ => ⟨rfl, rfl⟩) fun c _ =>
      ⟨fun _ nonzero => absurd drawn nonzero, fun unpaired => absurd pairs unpaired⟩
  | undone pairs tid nonzero free broken present drawn =>
    obtain ⟨c, rfl⟩ := Option.ne_none_iff_exists'.mp present
    simp [sameTables_undone nonzero free, drawn, pairs, nonzero, broken]
  | paired pairs c present tid nonzero free built drawn =>
    subst present
    simp [not_sameTables_register free, drawn, pairs, nonzero, built]
  | dropped unpaired named broken present =>
    obtain ⟨c, rfl⟩ := Option.ne_none_iff_exists'.mp present
    simp [sameTables_forget named, unpaired, broken, named]
  | rejected unpaired unnamed broken present =>
    exact iff_of_true (fun _ => ⟨rfl, rfl⟩) fun c _ =>
      ⟨fun pairs => absurd pairs unpaired, fun _ _ named => absurd unnamed named⟩
  | passed unpaired c present built =>
    exact iff_of_true (fun _ => ⟨rfl, rfl⟩) fun c _ =>
      ⟨fun pairs => absurd pairs unpaired, fun _ broken => absurd built broken⟩

end Writes

/-- A write that fails, and cleanly. -/
def FailsClean (e : ModbusEngine) : EngineEvent → Prop
  | .write channel req linkId => (e.writeRequest channel req linkId).result = -1 ∧ e.Clean channel req
  | _ => False

/-- Exactly the clean writes fail without a trace; and any number of them leaves the tables as
they were, so that no id is lost and no response finds a request that was not sent. -/
theorem failed_writes (e : ModbusEngine) :
    (∀ channel req linkId, e.Traceless channel req linkId ↔ e.Clean channel req) ∧
      ∀ events, (∀ v ∈ Runs.visits step e events, v.1.FailsClean v.2) → e.SameTables (Runs.run step e events) := by
  refine ⟨traceless_iff e, fun events clean => ?_⟩
  apply Runs.reached_invariant step events (I := e.SameTables) (A := FailsClean)
    ⟨rfl, rfl⟩ ?_ clean _ Runs.run_mem_reached
  intro d event same fails
  cases event with
  | write channel req linkId =>
    obtain ⟨table, marks⟩ := (traceless_iff d channel req linkId).mpr fails.2 fails.1
    exact ⟨table.trans same.1, marks.trans same.2⟩
  | bytes data => exact fails.elim
  | connectionChanged connected => exact fails.elim

/-- The channel refuses a read, which keeps its id all the same. -/
theorem failed_write_leaves : ¬({ transport := .tcp } : ModbusEngine).Traceless (some fun _ => -1)
    { transport := .tcp, slaveAddress := 1, functionCode := 3, quantity := 1 } 7 := by
  intro traceless
  have same := traceless (by decide +kernel)
  have taken : (ModbusEngine.writeRequest { transport := .tcp } (some fun _ => -1)
      { transport := .tcp, slaveAddress := 1, functionCode := 3, quantity := 1 } 7).engine.inFlight 1 ≠ none := by
    decide +kernel
  exact taken (congrFun same.1 1)

end ModbusEngine
end EnerSentry.Protocol
