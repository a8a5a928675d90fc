import Std.Data.TreeMap.Lemmas
import EnerSentry.Datahub.DownSampler

/-!
The bus that hands samples to subscribers. A subscription is an entry of the table, and an index leads
from its handle to the place of the entry. Handles are counted from 1; the counter of 64 bits is taken
not to come round.
-/

namespace EnerSentry.Datahub

variable {σ K : Type*}

def kWildcardPointId : UInt32 := 0xFFFFFFFF

/-- A place of the table; `none` is the null pointer. -/
structure BusEntry (σ : Type*) where
  pointId : UInt32 := 0
  sub : Option σ := none
  deriving DecidableEq, Repr

structure DataBus (σ : Type*) where
  entries : List (BusEntry σ) := []
  handleIndex : Std.TreeMap Nat Nat := ∅
  nextHandle : Nat := 1

namespace BusEntry

def matchesPoint (e : BusEntry σ) (pointId : UInt32) : Bool :=
  e.pointId == pointId || e.pointId == kWildcardPointId

end BusEntry

namespace DataBus

def subscribe (bus : DataBus σ) (pointId : UInt32) (sub : Option σ) : DataBus σ × Nat :=
  match sub with
  | none => (bus, 0)
  | some sub =>
      ({ entries := bus.entries ++ [{ pointId := pointId, sub := some sub }]
         handleIndex := bus.handleIndex.insert bus.nextHandle bus.entries.length
         nextHandle := bus.nextHandle + 1 }, bus.nextHandle)

def subscribeWildcard (bus : DataBus σ) (sub : Option σ) : DataBus σ × Nat :=
  bus.subscribe kWildcardPointId sub

/-- The last entry moves into the hole, and the first handle found that leads to the last place is led to
its new place. -/
def unsubscribeImpl_locked (order : HashOrder (Nat × Nat)) (bus : DataBus σ) (handle : Nat) :
    DataBus σ × Bool :=
  match bus.handleIndex[handle]? with
  | none => (bus, false)
  | some idx =>
      let last := bus.entries.length - 1
      let index :=
        if idx ≠ last then
          match (order.visit bus.handleIndex.toList).find? fun hit => hit.2 = last with
          | some hit => bus.handleIndex.insert hit.1 idx
          | none => bus.handleIndex
        else bus.handleIndex
      let entries := if idx ≠ last then bus.entries.set idx (bus.entries.getD last {}) else bus.entries
      ({ bus with entries := entries.dropLast, handleIndex := index.erase handle }, true)

def unsubscribe (order : HashOrder (Nat × Nat)) (bus : DataBus σ) (handle : Nat) : DataBus σ × Bool :=
  if handle = 0 then (bus, false) else bus.unsubscribeImpl_locked order handle

/-- The subscribers that a broadcast collects, in the order of the table. -/
def targets (bus : DataBus σ) (pointId : UInt32) : List σ :=
  bus.entries.filterMap fun e => if e.matchesPoint pointId then e.sub else none

/-- The calls that a broadcast makes. -/
def broadcast (bus : DataBus σ) (s : Sample K) : List (σ × Sample K) :=
  (bus.targets s.pointId).map fun sub => (sub, s)

def subscriberCount (bus : DataBus σ) : Nat := bus.entries.length

def wildcardCount (bus : DataBus σ) : Nat := bus.entries.countP fun e => e.pointId == kWildcardPointId

end DataBus
end EnerSentry.Datahub
