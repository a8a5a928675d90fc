import EnerSentry.Business.AlarmEngine
import EnerSentry.Datahub.AlarmTables

/-!
The record store connected to the alarm engine. Both live in one thread, so every signal
is stored before the next one is emitted. The store has a data directory, otherwise it is
not connected at all.
-/

namespace EnerSentry.Business
open EnerSentry.Lib EnerSentry.Datahub

variable {K : Type*} [Zero K]

def AlarmLevel.toInt : AlarmLevel → Int
  | .info => 0
  | .warning => 1
  | .critical => 2

def toActiveRecord (ev : AlarmEvent K) : AlarmRecord K :=
  { id := ev.id, pointId := ev.pointId, level := ev.level.toInt, status := 0, triggerTime := ev.triggerTime,
    alarmValue := ev.alarmValue, threshold := ev.threshold, description := ev.description,
    blackboxId := ev.blackboxId }

/-- The store beside the tables it writes to. -/
structure AlarmRecordStore (K : Type*) [Zero K] where
  triggerByAlarmId : Nat → Option Nat := fun _ => none
  dropped : Nat := 0
  tables : AlarmTables K

namespace AlarmRecordStore
variable (cal : Calendar) (s : AlarmRecordStore K)

/-- The outcome of a write: a failed one is counted. -/
def wrote (result : AlarmTables K × Bool) : AlarmRecordStore K :=
  { s with tables := result.1, dropped := if result.2 then s.dropped else s.dropped + 1 }

def onAlarmTriggered (ev : AlarmEvent K) : AlarmRecordStore K :=
  { s with triggerByAlarmId := Function.update s.triggerByAlarmId ev.id (some ev.triggerTime) }.wrote
    (insertAlarmRecords cal s.tables [toActiveRecord ev])

def onAlarmRecovered (alarmId now : Nat) : AlarmRecordStore K :=
  match s.triggerByAlarmId alarmId with
  | none => s
  | some triggerTime =>
      { s with triggerByAlarmId := Function.update s.triggerByAlarmId alarmId none }.wrote
        (setAlarmRecovered cal s.tables triggerTime alarmId now)

def onAlarmAcknowledged (alarmId : Nat) (user : String) (now : Nat) : AlarmRecordStore K :=
  match s.triggerByAlarmId alarmId with
  | none => s
  | some triggerTime => s.wrote (setAlarmConfirmed cal s.tables triggerTime alarmId user now)

def onStormBatch (samples : List (AlarmEvent K)) : AlarmRecordStore K :=
  if samples.isEmpty then s
  else
    let triggers := samples.foldl
      (fun (t : Nat → Option Nat) ev => Function.update t ev.id (some ev.triggerTime)) s.triggerByAlarmId
    { s with triggerByAlarmId := triggers }.wrote
      (insertAlarmRecords cal s.tables (samples.map toActiveRecord))

/-- What the store does with a signal; `now` is the clock it reads. -/
def receive (now : Nat) : AlarmSignal K → AlarmRecordStore K
  | .alarmTriggered ev => s.onAlarmTriggered cal ev
  | .alarmRecovered alarmId => s.onAlarmRecovered cal alarmId now
  | .alarmAcknowledged alarmId user => s.onAlarmAcknowledged cal alarmId user now
  | .alarmStormTriggered _ _ samples => s.onStormBatch cal samples
  | _ => s

/-- All signals of one call, in order; `clock` gives the reading for each. -/
def receiveAll (clock : Nat → Nat) (signals : List (AlarmSignal K)) : AlarmRecordStore K :=
  signals.zipIdx.foldl (fun s x => s.receive cal (clock x.2) x.1) s

end AlarmRecordStore

/-- The alarms that a signal publishes. -/
def AlarmSignal.events : AlarmSignal K → List (AlarmEvent K)
  | .alarmTriggered ev => [ev]
  | .alarmStormTriggered _ _ samples => samples
  | _ => []

/-- The engine, the store that listens to it, and every alarm published so far. -/
structure AlarmSystem (K : Type*) [Zero K] where
  engine : AlarmEngine K := {}
  store : AlarmRecordStore K
  published : List (AlarmEvent K) := []

namespace AlarmSystem
variable [LT K] [DecidableLT K] [BEq K] [ToString K]

/-- An input of the engine with the clock readings of the store. -/
def step (cal : Calendar) : Runs.Step (AlarmSystem K) (AlarmInput K × (Nat → Nat)) (AlarmSignal K) :=
  fun s input =>
    let signals := (s.engine.step input.1).2
    ({ engine := (s.engine.step input.1).1
       store := s.store.receiveAll cal input.2 signals
       published := s.published ++ signals.flatMap AlarmSignal.events }, signals)

/-- A fresh process on a data directory with these tables. -/
def start (tables : AlarmTables K) : AlarmSystem K := { store := { tables := tables } }

end AlarmSystem
end EnerSentry.Business
