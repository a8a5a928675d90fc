import EnerSentry.Sim.ScenarioScript

/-!
The simulator engine as far as scenarios and faults go: starting and stopping, the loop of
the data thread, loading a scenario and the commands of the operator. Between two passes of
the loop any calls may come.
-/

namespace EnerSentry.Sim
open EnerSentry.Lib

variable {K : Type} [Zero K]

structure SimulatorEngine (K : Type) [Zero K] where
  running : Bool := false
  tickMs : UInt32 := 100
  tickCount : Nat := 0
  scenario : Option (ScenarioScript K) := none
  scenarioRunning : Bool := false
  pt : SimPointTable K := {}
  fi : Option (TimedInjector K) := none

/-- What comes of loading the point table. -/
inductive TableLoad (K : Type) where
  | throws
  | missing
  | loaded (pt : SimPointTable K)

inductive EngineEvent (K : Type) [Zero K] where
  /-- `readings` are those of the clock until the engine is stopped. The scenario that a configuration names is
  loaded with the data thread already running, by a `load` of its own. -/
  | start (tickMs : UInt32) (table : TableLoad K) (emulator : Bool) (readings : Nat → Int)
  | stop
  | load (path : String) (file : ScenarioFile K)
  | tick
  | injectFault (req : FaultOverride K)
  | recoverFault (h : FaultHandle)
  | abortFault (h : FaultHandle)

inductive EngineOutput (K : Type) [Zero K] where
  | fired (s : ScenarioStep K)
  | report (r : ScenarioReport)
  deriving DecidableEq

namespace SimulatorEngine

def start (e : SimulatorEngine K) (tickMs : UInt32) (table : TableLoad K) (emulator : Bool) (readings : Nat → Int) :
    SimulatorEngine K :=
  if e.running then e
  else
    let e := { e with tickMs := tickMs, fi := none }
    match table with
    | .throws => { e with scenario := none }
    | .missing => e
    | .loaded pt =>
        if emulator then { e with running := true, tickCount := 0, pt := pt, fi := some { readings := readings } }
        else e

/-- The engine's clock, in milliseconds since its first tick. -/
def nowMs (e : SimulatorEngine K) : Int := e.tickCount * e.tickMs.toNat

def stop (e : SimulatorEngine K) : SimulatorEngine K × List (EngineOutput K) :=
  let closed := { e with running := false, fi := none, scenario := none }
  if e.running then
    (closed, e.scenario.toList.map fun sc => .report (sc.finishReport e.nowMs !sc.allFired).report)
  else (closed, [])

/-- The steps whose flag has been set. -/
def newlyFired (old new : List (ScenarioStep K)) : List (ScenarioStep K) :=
  ((old.zip new).filter fun p => !p.1.fired && p.2.fired).map Prod.fst

section Ticks
variable [ToString K] [Add K] [Sub K] [Neg K] [Mul K] [Div K] [IntCast K] [LT K] [DecidableLT K]

/-- One pass of the loop of the data thread. -/
def dataTick (e : SimulatorEngine K) : SimulatorEngine K × List (EngineOutput K) :=
  -- The loop ticks the sessions, and the generator does so once more before its turn.
  let ticked (ti : TimedInjector K) := (ti.tickSessions e.tickMs).tickSessions e.tickMs
  match e.running, e.fi with
  | true, some ti =>
      match e.scenario, e.scenarioRunning with
      | some sc, true =>
          let r := sc.drive e.nowMs ti e.pt
          ({ e with
              scenario := some r.1
              scenarioRunning := !r.1.allFired
              fi := some (ticked r.2.1)
              tickCount := e.tickCount + 1 },
            (newlyFired sc.steps r.1.steps).map .fired)
      | _, _ => ({ e with fi := some (ticked ti), tickCount := e.tickCount + 1 }, [])
  | _, _ => (e, [])

end Ticks

def loadScenario [IntCast K] (e : SimulatorEngine K) (truncate : K → Int) (path : String) (file : ScenarioFile K) :
    SimulatorEngine K :=
  if path.isEmpty then e
  else
    let sc := ScenarioScript.load {} truncate file
    if sc.2 then { e with scenario := some sc.1, scenarioRunning := true } else e

def injectFault (e : SimulatorEngine K) (req : FaultOverride K) : SimulatorEngine K :=
  { e with fi := e.fi.map fun ti => (ti.trigger req).1 }

def recoverFault (e : SimulatorEngine K) (h : FaultHandle) : SimulatorEngine K :=
  { e with fi := e.fi.map fun ti => (ti.recover h 0).1 }

def abortFault (e : SimulatorEngine K) (h : FaultHandle) : SimulatorEngine K :=
  { e with fi := e.fi.map fun ti => (ti.abort h).1 }

variable [ToString K] [Add K] [Sub K] [Neg K] [Mul K] [Div K] [IntCast K] [LT K] [DecidableLT K]

def step (truncate : K → Int) : Runs.Step (SimulatorEngine K) (EngineEvent K) (EngineOutput K) := fun e event =>
  match event with
  | .start tickMs table emulator readings => (e.start tickMs table emulator readings, [])
  | .stop => e.stop
  | .load path file => (e.loadScenario truncate path file, [])
  | .tick => e.dataTick
  | .injectFault req => (e.injectFault req, [])
  | .recoverFault h => (e.recoverFault h, [])
  | .abortFault h => (e.abortFault h, [])

end SimulatorEngine
end EnerSentry.Sim
