import EnerSentry.Lib.Runs
import EnerSentry.Sim.SlaveTransport
import Mathlib.Logic.Function.Basic

/-!
The descriptors of `ModbusTcpServer`: the accept loop, the detached client loops and the
thread that opens and closes the server, interleaved at the points where one of them calls
the operating system or holds the mutex of the client list. A number that has been closed
may be given out again, to the server or to any other part of the process.
-/

namespace EnerSentry.Sim

/-- What a descriptor number refers to; the clients are numbered as they are accepted. -/
inductive Holder where
  | listen
  | client (id : Nat)
  | other
  deriving DecidableEq, Repr

/-- The open descriptors of the process. -/
abbrev DescriptorTable := Nat → Option Holder

/-- A call of `closeFd`: the client loop that makes it, if one does, and what the number refers to. -/
structure CloseCall where
  loop : Option Nat
  hit : Option Holder
  deriving DecidableEq, Repr

/-- Where the accept loop is: not running, in `accept`, or with a client that is not in the list yet. -/
inductive AcceptLoop where
  | absent | accepting
  | holding (id : Nat)
  deriving DecidableEq, Repr

/-- Where a client loop is: not started, serving, past its `erase`, past its `closeFd`. -/
inductive LoopStage where
  | accepted | serving | erased | ended
  deriving DecidableEq, Repr

structure ClientLoop where
  clientFd : Nat
  stage : LoopStage := .accepted
  deriving DecidableEq, Repr

/-- The next thing `close` does. -/
inductive CloseStage where
  | idle | dropAllClients | closeListenFd | join
  deriving DecidableEq, Repr

structure ModbusTcpServer where
  running : Bool := false
  listenFd : Option Nat := none
  clients : List Nat := []

/-- The server with its threads and the descriptors of the process. -/
structure ServerProcess where
  server : ModbusTcpServer := {}
  acceptLoop : AcceptLoop := .absent
  loops : List ClientLoop := []
  closing : CloseStage := .idle
  table : DescriptorTable := fun _ => none

/-- What one turn of a client loop meets: the bytes received, the slaves whose link an injected fault
drops, and whether the answer can be sent. -/
structure Turn where
  received : List UInt8 := []
  dropLink : UInt8 → Bool := fun _ => false
  sent : Bool := true

inductive ServerEvent where
  | «open» (fd : Nat)
  | accept (fd : Nat)
  | pushBack
  | acceptFails
  | turn (id : Nat) (t : Turn)
  | closeFd (id : Nat)
  | close
  | closeNext
  | openOther (fd : Nat)
  | closeOther (fd : Nat)

/-- An event of a client loop. -/
def ServerEvent.OfLoop : ServerEvent → Prop
  | .turn _ _ | .closeFd _ => True
  | _ => False

/-- Whether a turn is the last one of its loop. -/
def Turn.ends (handler : RequestHandler) (running : Bool) (t : Turn) : Bool :=
  !running ||
    match mbapRequest t.received with
    | none => true
    | some (hdr, pdu) => (handler hdr.unitId pdu).isEmpty || t.dropLink hdr.unitId || !t.sent

namespace ServerProcess
open Function (update)

/-- Closing a number that is not open fails and changes nothing. -/
def closeFd (p : ServerProcess) (loop : Option Nat) (fd : Nat) : ServerProcess × List CloseCall :=
  ({ p with table := update p.table fd none }, [⟨loop, p.table fd⟩])

def setStage (p : ServerProcess) (id : Nat) (stage : LoopStage) : ServerProcess :=
  { p with loops := p.loops.modify id fun x => { x with stage } }

def closeAll (table : DescriptorTable) : List Nat → DescriptorTable × List CloseCall
  | [] => (table, [])
  | fd :: fds =>
      let r := closeAll (update table fd none) fds
      (r.1, ⟨none, table fd⟩ :: r.2)

def dropAllClients (p : ServerProcess) : ServerProcess × List CloseCall :=
  let r := closeAll p.table p.server.clients
  ({ p with server := { p.server with clients := [] }, table := r.1 }, r.2)

/-- The end of a client loop up to the end of its block under the mutex. -/
def eraseClient (p : ServerProcess) (id fd : Nat) : ServerProcess :=
  { p.setStage id .erased with server := { p.server with clients := p.server.clients.filter (· ≠ fd) } }

def closeNext (p : ServerProcess) : ServerProcess × List CloseCall :=
  match p.closing with
  | .idle => (p, [])
  | .dropAllClients =>
      let r := p.dropAllClients
      ({ r.1 with closing := .closeListenFd }, r.2)
  | .closeListenFd =>
      match p.server.listenFd with
      | none => ({ p with closing := .join }, [])
      | some fd =>
          let r := p.closeFd none fd
          ({ r.1 with server := { p.server with listenFd := none }, closing := .join }, r.2)
  | .join => if p.acceptLoop = .absent then ({ p with closing := .idle }, []) else (p, [])

/-- A number is given out only while it is free. A bind that fails opens and closes its socket like any
other part of the process. -/
def step (handler : RequestHandler) : Lib.Runs.Step ServerProcess ServerEvent CloseCall := fun p event =>
  match event with
  | .open fd =>
      if p.closing = .idle ∧ p.server.listenFd = none ∧ p.acceptLoop = .absent ∧ p.table fd = none then
        ({ p with
            server := { p.server with running := true, listenFd := some fd }
            acceptLoop := .accepting
            table := update p.table fd (some .listen) }, [])
      else (p, [])
  | .accept fd =>
      if p.acceptLoop = .accepting ∧ p.table fd = none then
        ({ p with
            acceptLoop := .holding p.loops.length
            loops := p.loops ++ [{ clientFd := fd }]
            table := update p.table fd (some (.client p.loops.length)) }, [])
      else (p, [])
  | .pushBack =>
      match p.acceptLoop with
      | .holding id =>
          match p.loops[id]? with
          | some x =>
              ({ p.setStage id .serving with
                  server := { p.server with clients := p.server.clients ++ [x.clientFd] }
                  acceptLoop := .accepting }, [])
          | none => (p, [])
      | _ => (p, [])
  | .acceptFails =>
      if p.acceptLoop = .accepting ∧ !p.server.running then ({ p with acceptLoop := .absent }, []) else (p, [])
  | .turn id t =>
      match p.loops[id]? with
      | some ⟨fd, .serving⟩ => (if t.ends handler p.server.running then p.eraseClient id fd else p, [])
      | _ => (p, [])
  | .closeFd id =>
      match p.loops[id]? with
      | some ⟨fd, .erased⟩ => (p.setStage id .ended).closeFd (some id) fd
      | _ => (p, [])
  | .close =>
      if p.closing ≠ .idle ∨ (!p.server.running ∧ p.server.listenFd = none) then (p, [])
      else ({ p with server := { p.server with running := false }, closing := .dropAllClients }, [])
  | .closeNext => p.closeNext
  | .openOther fd => (if p.table fd = none then { p with table := update p.table fd (some .other) } else p, [])
  | .closeOther fd => (if p.table fd = some .other then { p with table := update p.table fd none } else p, [])

end ServerProcess

end EnerSentry.Sim
