import Mathlib.Data.List.Infix
import Mathlib.Order.Lattice
import EnerSentry.Sim.FaultInjector
import EnerSentry.Sim.RegisterBank

/-!
The data generator of the simulator. It advances a small physical model of every slave,
writes the values of the slave's points into a private working copy of its register set,
lays the active faults over them and publishes the copy. Values are of any type with the
arithmetic the physics uses; rounding them to integers is a parameter.
-/

namespace EnerSentry.Sim

inductive DeviceKind where
  | bms | pcs | meter | liquid | fire
  deriving DecidableEq, Repr

structure SimPoint (K : Type*) where
  pointName : String
  regType : RegisterType := .holdingRegister
  registerAddr : UInt16 := 0
  scaleFactor : K
  offset : K
  enabled : Bool := true

/-- How values become integers: whether one is a finite number, and the two roundings. -/
structure Rounding (K : Type*) where
  finite : K → Bool
  round : K → Int
  truncate : K → Int

/-- The arithmetic of the physics, on ordered values. -/
class Arithmetic (K : Type*) extends Zero K, One K, Add K, Sub K, Neg K, Mul K, Div K, IntCast K, LinearOrder K

section Numbers
variable {K : Type*} [Arithmetic K]

def ratio (n d : Int) : K := (n : K) / (d : K)

variable (K)

structure PhysicsConstants where
  kHeat : K := ratio 8 10000
  rInt : K := ratio 5 1000
  kCool : K := ratio 2 100
  tAmb : K := (25 : Int)
  pcsLineV0 : K := (400 : Int)
  pcsFreqHz0 : K := (50 : Int)
  capacityAh : K := (280 : Int)
  pcsActiveKwSetpoint : K := (0 : Int)
  pcsReactiveKvarSetpoint : K := (0 : Int)
  bmsCurrentASetpoint : K := (0 : Int)

structure SlaveRuntimeState where
  socPct : K := (80 : Int)
  sohPct : K := (99 : Int)
  maxTempC : K := (35 : Int)
  avgTempC : K := (33 : Int)
  totalV : K := (0 : Int)
  currentA : K := (0 : Int)
  pcsActiveKw : K := (0 : Int)
  pcsReactiveKvar : K := (0 : Int)
  pcsLineV : K := (400 : Int)
  pcsFreqHz : K := (50 : Int)

structure PointGenerator where
  tickMs : UInt32 := 100
  slaves : List UInt8
  onSlave : UInt8 → List (SimPoint K)
  phy : PhysicsConstants K := {}
  state : UInt8 → SlaveRuntimeState K := fun _ => {}
  work : UInt8 → SlaveRegset
  pcsRefSlave : UInt8 := 0

end Numbers

namespace SimPoint
variable {K : Type*}

def named (p : SimPoint K) (key : String) : Bool := key.toList <:+: p.pointName.toList

def isAlarmWord (p : SimPoint K) : Bool := "_AlarmWord".toList <:+ p.pointName.toList

def isWord (p : SimPoint K) : Bool := p.regType == .holdingRegister || p.regType == .inputRegister

end SimPoint

/-- The first point whose name tells decides. -/
def inferKindFromName {K : Type*} : List (SimPoint K) → DeviceKind
  | [] => .bms
  | p :: ps =>
      if p.named "PCS_" then .pcs
      else if p.named "Meter" then .meter
      else if p.named "Liquid" then .liquid
      else if p.named "Fire" then .fire
      else inferKindFromName ps

namespace PointGenerator

variable {K : Type*} [Arithmetic K]

section Setup

/-- The size of a slave's working copy, from the highest address of its points. -/
def workSize (points : List (SimPoint K)) : Nat :=
  max (points.foldl (fun top p => max top p.registerAddr.toNat) 0 + 16) 128

def create (tickMs : UInt32) (slaves : List UInt8) (onSlave : UInt8 → List (SimPoint K)) (phy : PhysicsConstants K) :
    PointGenerator K :=
  { tickMs := tickMs
    slaves := slaves
    onSlave := onSlave
    phy := phy
    work := fun id =>
      if id ∈ slaves then SlaveRegset.allocate id (workSize (onSlave id)) (workSize (onSlave id)) else {}
    pcsRefSlave := (slaves.find? (fun id => inferKindFromName (onSlave id) == .pcs)).getD 0 }

def setState (g : PointGenerator K) (slave : UInt8) (st : SlaveRuntimeState K) : PointGenerator K :=
  { g with state := Function.update g.state slave st }

def setWork (g : PointGenerator K) (slave : UInt8) (regs : SlaveRegset) : PointGenerator K :=
  { g with work := Function.update g.work slave regs }

end Setup

section Physics

def clamp (x lo hi : K) : K := if x < lo then lo else if hi < x then hi else x

def kOcvTableSocPct : List Int := [0, 5, 10, 20, 30, 40, 50, 60, 70, 80, 90, 100]

/-- The open circuit voltages of these states of charge, in hundredths of a volt. -/
def kOcvTableVolts : List Int := [250, 280, 300, 320, 326, 328, 330, 332, 335, 340, 345, 365]

def ocvFromSoc (socPct : K) : K :=
  let soc := fun i => ((kOcvTableSocPct.getD i 0 : Int) : K)
  let volts := fun i => (ratio (kOcvTableVolts.getD i 0) 100 : K)
  if socPct ≤ soc 0 then volts 0
  else if soc 11 ≤ socPct then volts 11
  else
    match (List.range 11).find? (fun i => soc i ≤ socPct && socPct ≤ soc (i + 1)) with
    | some i => volts i + (socPct - soc i) / (soc (i + 1) - soc i) * (volts (i + 1) - volts i)
    | none => volts 11

def totalVoltageFromOcv (ocvV : K) : K := ocvV

variable (rd : Rounding K)

def encodeFloat32AsHolding (eng scale : K) : UInt16 :=
  if scale = 0 ∨ rd.finite eng = false then 0
  else UInt16.ofNat (max 0 (min (rd.round (eng / scale)) 65535)).toNat

/-- The register value that an active fault puts in place of the generated one. -/
def encodeFault (p : SimPoint K) (value : K) : UInt16 :=
  let scale := if p.scaleFactor = 0 then 1 else p.scaleFactor
  UInt16.ofNat (rd.truncate (clamp ((value - p.offset) / scale) 0 (65535 : Int))).toNat

end Physics

section Evolve
variable (rd : Rounding K) (g : PointGenerator K) (slave : UInt8) (dtS : K)

/-- The keys of the battery's values, the first one a name contains counting. -/
def bmsRoutes (st : SlaveRuntimeState K) : List (String × K) :=
  [("SOC", st.socPct), ("SOH", st.sohPct), ("MaxTemp", st.maxTempC), ("AvgTemp", st.avgTempC),
    ("TotalVolt", st.totalV), ("TotalV", st.totalV), ("Current", st.currentA)]

def pcsRoutes (st : SlaveRuntimeState K) : List (String × K) :=
  [("ActiveP", st.pcsActiveKw), ("ReactiveP", st.pcsReactiveKvar), ("LineV", st.pcsLineV),
    ("Freq", st.pcsFreqHz)]

/-- Enabled holding registers whose name has a route get the route's value. -/
def writeRouted (routes : List (String × K)) (work : SlaveRegset) (p : SimPoint K) : SlaveRegset :=
  if !p.enabled || p.regType != .holdingRegister then work
  else
    match routes.find? (fun route => p.named route.1) with
    | none => work
    | some route => work.setHolding p.registerAddr (encodeFloat32AsHolding rd route.2 p.scaleFactor)

def evolvedBms (st : SlaveRuntimeState K) : SlaveRuntimeState K :=
  let i := g.phy.bmsCurrentASetpoint
  let dSocPctPerSec := -i / (g.phy.capacityAh * (3600 : Int)) * (100 : Int)
  let newSoc := clamp (st.socPct + dSocPctPerSec * dtS) 0 (100 : Int)
  let qIn := g.phy.kHeat * i * i * g.phy.rInt
  let qOut := g.phy.kCool * (st.avgTempC - g.phy.tAmb)
  let avgTemp := st.avgTempC + (qIn - qOut) * dtS
  { st with
    socPct := newSoc
    currentA := i
    avgTempC := avgTemp
    maxTempC := avgTemp + 1
    totalV := totalVoltageFromOcv (ocvFromSoc newSoc) }

def evolveBms : PointGenerator K :=
  let st := g.evolvedBms dtS (g.state slave)
  (g.setState slave st).setWork slave ((g.onSlave slave).foldl (writeRouted rd (bmsRoutes st)) (g.work slave))

def evolvePcs : PointGenerator K :=
  let st := { g.state slave with
    pcsActiveKw := g.phy.pcsActiveKwSetpoint
    pcsReactiveKvar := g.phy.pcsReactiveKvarSetpoint
    pcsLineV := g.phy.pcsLineV0
    pcsFreqHz := g.phy.pcsFreqHz0 }
  (g.setState slave st).setWork slave ((g.onSlave slave).foldl (writeRouted rd (pcsRoutes st)) (g.work slave))

def writeMeter (refKw : K) (work : SlaveRegset) (p : SimPoint K) : SlaveRegset :=
  if !p.enabled then work
  else
    let eng := if p.named "ActiveP" || p.named "TotalE" then refKw else 1
    let raw := encodeFloat32AsHolding rd eng p.scaleFactor
    match p.regType with
    | .holdingRegister => work.setHolding p.registerAddr raw
    | .inputRegister => work.setInput p.registerAddr raw
    | _ => work

def evolveMeter : PointGenerator K :=
  let refKw := if g.pcsRefSlave != 0 then (g.state g.pcsRefSlave).pcsActiveKw else 0
  g.setWork slave ((g.onSlave slave).foldl (writeMeter rd refKw) (g.work slave))

def writeAux (work : SlaveRegset) (p : SimPoint K) : SlaveRegset :=
  if !p.enabled then work
  else
    let eng : K := if p.named "Alarm" then 0 else (25 : Int)
    match p.regType with
    | .coil => work.setCoil p.registerAddr (eng != 0)
    | .discreteInput => work.setDiscrete p.registerAddr (eng != 0)
    | .holdingRegister => work.setHolding p.registerAddr (encodeFloat32AsHolding rd eng p.scaleFactor)
    | .inputRegister => work.setInput p.registerAddr (encodeFloat32AsHolding rd eng p.scaleFactor)

def evolveAux : PointGenerator K := g.setWork slave ((g.onSlave slave).foldl (writeAux rd) (g.work slave))

def evolve : PointGenerator K :=
  match inferKindFromName (g.onSlave slave) with
  | .bms => g.evolveBms rd slave dtS
  | .pcs => g.evolvePcs rd slave
  | .meter => g.evolveMeter rd slave
  | .liquid => g.evolveAux rd slave
  | .fire => g.evolveAux rd slave

end Evolve

section Tick
variable (rd : Rounding K) (fi : Option (FaultInjector K)) (g : PointGenerator K) (slave : UInt8)

/-- The fault laid over a point, if there is one that changes its register. -/
def faultOn (fi : FaultInjector K) (slave : UInt8) (p : SimPoint K) : Option (FaultEffect K) :=
  if !p.enabled || !p.isWord then none
  else
    let eff := fi.resolveOverride slave p.registerAddr
    if !eff.active || eff.dropLink then none else some eff

def alarmBit (eff : FaultEffect K) : UInt16 :=
  match eff.type with
  | .overTemp => (1 : UInt16) <<< 0
  | .cellVoltage => (1 : UInt16) <<< (if 0 < eff.value then 1 else 2)
  | _ => 0

def overlay (fi : FaultInjector K) (work : SlaveRegset) (p : SimPoint K) : SlaveRegset :=
  match faultOn fi slave p with
  | none => work
  | some eff =>
      let work := { work with alarmWord := work.alarmWord ||| alarmBit eff }
      let raw := encodeFault rd p eff.value
      if p.regType == .inputRegister then work.setInput p.registerAddr raw
      else work.setHolding p.registerAddr raw

def overlayFaults (work : SlaveRegset) : SlaveRegset :=
  match fi with
  | none => work
  | some fi => (g.onSlave slave).foldl (overlay rd slave fi) { work with alarmWord := 0 }

/-- The first enabled holding register that is named as the slot of the alarm word. -/
def alarmSlot (points : List (SimPoint K)) : Option (SimPoint K) :=
  points.find? (fun p => p.enabled && p.regType == .holdingRegister && p.isAlarmWord)

def placeAlarmWord (work : SlaveRegset) : SlaveRegset :=
  match alarmSlot (g.onSlave slave) with
  | none => work
  | some p => work.setHolding p.registerAddr work.alarmWord

/-- One slave's turn in a tick; the new working copy is what gets published. -/
def generateSlave : PointGenerator K :=
  let evolved := g.evolve rd slave (ratio g.tickMs.toNat 1000)
  evolved.setWork slave (evolved.placeAlarmWord slave (evolved.overlayFaults rd fi slave (evolved.work slave)))

/-- A whole tick over a bank: the sessions advance first, then every slave has its turn. -/
def generateTick (fi : FaultInjector K) (nowMonoMs : Int) (clock : Nat → Int) (bank : RegisterBank) :
    FaultInjector K × PointGenerator K × RegisterBank :=
  let fi := fi.tickSessions g.tickMs nowMonoMs clock
  let done := g.slaves.foldl (fun (gb : PointGenerator K × RegisterBank) slave =>
    let next := gb.1.generateSlave rd (some fi) slave
    (next, gb.2.publish slave (next.work slave))) (g, bank)
  (fi, done.1, done.2)

end Tick
end PointGenerator
end EnerSentry.Sim
