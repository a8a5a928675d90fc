import EnerSentry.Protocol.ModbusEngine

/-!
Everything one write can do to the engine, as a finite list of cases: which tables it
changes, what it returns and what the channel is handed. Later results read this list and
never the routine itself.
-/

namespace EnerSentry.Protocol
open EnerSentry.Lib

/-- A request that a frame can be built for. The transaction id has no part in it. -/
def ModbusRequest.Buildable (req : ModbusRequest) : Prop :=
  1 ≤ req.slaveAddress ∧ req.slaveAddress ≤ 247 ∧ requestPdu req ≠ none

instance (req : ModbusRequest) : Decidable req.Buildable := inferInstanceAs (Decidable (_ ∧ _ ∧ _))

theorem buildRequest_isEmpty (req : ModbusRequest) : (buildRequest req).isEmpty = true ↔ ¬req.Buildable := by
  unfold buildRequest ModbusRequest.Buildable
  by_cases outside : (req.slaveAddress < 1 || 247 < req.slaveAddress) = true
  · rw [if_pos outside]
    simp only [Bool.or_eq_true, decide_eq_true_eq] at outside
    refine iff_of_true rfl fun inside => ?_
    exact outside.elim (UInt8.not_lt.mpr inside.1) (UInt8.not_lt.mpr inside.2.1)
  · rw [if_neg outside]
    simp only [Bool.or_eq_true, decide_eq_true_eq, not_or, UInt8.not_lt] at outside
    cases pdu : requestPdu req with
    | none => simp
    | some pdu =>
      cases req.transport <;> simp [outside, withCrc, appendMbap, writeU16BE]

namespace TransactionIdAllocator
variable (t : TransactionIdAllocator)

/-- Every id but 0 is in use. -/
def Exhausted : Prop := ∀ id, id ≠ invalidId → t.used id = true

def mark (id : UInt16) : TransactionIdAllocator := { t with used := Function.update t.used id true }

theorem allocate_cases : (t.allocate = (invalidId, t) ∧ t.Exhausted) ∨
    ∃ id, id ≠ invalidId ∧ t.used id = false ∧ t.allocate = (id, t.mark id) := by
  unfold allocate
  cases found : ((List.range' 1 65535).map UInt16.ofNat).find? (fun id => !t.used id) with
  | none =>
    refine Or.inl ⟨rfl, fun id nonzero => ?_⟩
    have listed : id ∈ (List.range' 1 65535).map UInt16.ofNat := by
      have small := id.toNat_lt
      have positive : id.toNat ≠ 0 := fun zero => nonzero (UInt16.toNat_inj.mp zero)
      exact List.mem_map.mpr ⟨id.toNat, by rw [List.mem_range'_1]; omega, UInt16.ofNat_toNat⟩
    simpa using List.find?_eq_none.mp found id listed
  | some id =>
    have free : t.used id = false := by simpa using List.find?_some found
    obtain ⟨n, listed, rfl⟩ := List.mem_map.mp (List.mem_of_find?_eq_some found)
    rw [List.mem_range'_1] at listed
    refine Or.inr ⟨_, fun zero => ?_, free, rfl⟩
    have same : n % 65536 = 0 := congrArg UInt16.toNat zero
    omega

end TransactionIdAllocator

namespace ModbusEngine

/-- A request that gets a transaction id of its own. -/
def Pairs (e : ModbusEngine) (req : ModbusRequest) : Prop := e.transport = .tcp ∧ req.transport = .tcp

/-- A free id is taken for a request. -/
def register (e : ModbusEngine) (tid : UInt16) (entry : InFlightEntry) : ModbusEngine :=
  { e with txIdAllocator := e.txIdAllocator.mark tid }.emplace tid entry

/-- What a write comes to. -/
inductive WriteCase (e : ModbusEngine) (channel : Option Channel) (req : ModbusRequest) (linkId : UInt32) :
    Written → Prop
  | closed (absent : channel = none) : WriteCase e channel req linkId ⟨e, -1, none⟩
  | exhausted (pairs : e.Pairs req) (full : e.txIdAllocator.Exhausted) (present : channel ≠ none)
      (drawn : e.txIdAllocator.allocate.1 = 0) :
      WriteCase e channel req linkId ⟨e, -1, none⟩
  | undone (pairs : e.Pairs req) (tid : UInt16) (nonzero : tid ≠ 0) (free : e.txIdAllocator.used tid = false)
      (broken : ¬req.Buildable) (present : channel ≠ none) (drawn : e.txIdAllocator.allocate.1 = tid) :
      WriteCase e channel req linkId ⟨(e.register tid ⟨linkId, req.slaveAddress⟩).forget tid, -1, none⟩
  | paired (pairs : e.Pairs req) (c : Channel) (present : channel = some c) (tid : UInt16) (nonzero : tid ≠ 0)
      (free : e.txIdAllocator.used tid = false) (built : req.Buildable) (drawn : e.txIdAllocator.allocate.1 = tid) :
      WriteCase e channel req linkId ⟨e.register tid ⟨linkId, req.slaveAddress⟩,
        c (buildRequest { req with transactionId := tid }), some { req with transactionId := tid }⟩
  | dropped (unpaired : ¬e.Pairs req) (named : req.transactionId ≠ 0) (broken : ¬req.Buildable)
      (present : channel ≠ none) :
      WriteCase e channel req linkId ⟨e.forget req.transactionId, -1, none⟩
  | rejected (unpaired : ¬e.Pairs req) (unnamed : req.transactionId = 0) (broken : ¬req.Buildable)
      (present : channel ≠ none) :
      WriteCase e channel req linkId ⟨e, -1, none⟩
  | passed (unpaired : ¬e.Pairs req) (c : Channel) (present : channel = some c) (built : req.Buildable) :
      WriteCase e channel req linkId ⟨e, c (buildRequest req), some req⟩

theorem write_cases (e : ModbusEngine) (channel : Option Channel) (req : ModbusRequest) (linkId : UInt32) :
    WriteCase e channel req linkId (e.writeRequest channel req linkId) := by
  cases channel with
  | none => exact .closed rfl
  | some c =>
    have present : some c ≠ none := Option.some_ne_none c
    unfold writeRequest
    by_cases pairs : e.Pairs req
    · simp only [if_pos (show e.transport = .tcp ∧ req.transport = .tcp from pairs)]
      obtain ⟨allocated, full⟩ | ⟨tid, nonzero, free, allocated⟩ := e.txIdAllocator.allocate_cases
      · simp only [allocated, if_true]
        exact .exhausted pairs full present (congrArg Prod.fst allocated)
      · simp only [allocated, if_neg nonzero]
        unfold handOver
        by_cases built : req.Buildable
        · have whole : ¬(buildRequest { req with transactionId := tid }).isEmpty = true := by
            rw [buildRequest_isEmpty]
            exact not_not.mpr built
          simp only [if_neg whole]
          exact .paired pairs c rfl tid nonzero free built (congrArg Prod.fst allocated)
        · have empty := (buildRequest_isEmpty { req with transactionId := tid }).mpr built
          have named : ({ req with transactionId := tid } : ModbusRequest).transactionId ≠ 0 := nonzero
          simp only [if_pos empty, if_pos named]
          exact .undone pairs tid nonzero free built present (congrArg Prod.fst allocated)
    · simp only [if_neg (show ¬(e.transport = .tcp ∧ req.transport = .tcp) from pairs)]
      unfold handOver
      by_cases built : req.Buildable
      · have whole : ¬(buildRequest req).isEmpty = true := by
          rw [buildRequest_isEmpty]
          exact not_not.mpr built
        simp only [if_neg whole]
        exact .passed pairs c rfl built
      · simp only [if_pos ((buildRequest_isEmpty req).mpr built)]
        by_cases named : req.transactionId ≠ 0
        · rw [if_pos named]
          exact .dropped pairs named built present
        · rw [if_neg named]
          exact .rejected pairs (not_not.mp named) built present

/-- A request without an id of its own that cannot be built takes back the id it names. -/
theorem dropped_of_unpaired {e : ModbusEngine} {req : ModbusRequest} (c : Channel) (linkId : UInt32)
    (unpaired : ¬e.Pairs req) (named : req.transactionId ≠ 0) (broken : ¬req.Buildable) :
    e.writeRequest (some c) req linkId = ⟨e.forget req.transactionId, -1, none⟩ := by
  unfold writeRequest
  simp only [if_neg (show ¬(e.transport = .tcp ∧ req.transport = .tcp) from unpaired)]
  unfold handOver
  rw [if_pos ((buildRequest_isEmpty req).mpr broken), if_pos named]

end ModbusEngine
end EnerSentry.Protocol
