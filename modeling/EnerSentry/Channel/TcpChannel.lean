import EnerSentry.Lib.Runs
import EnerSentry.Lib.Timer
import Mathlib.Tactic.SplitIfs

/-!
The connection side of `TcpChannel`: opening and closing, the slots of the socket and of
the reconnect timer, and the socket itself as far as its signals tell of it. Socket, timer
and channel live in one thread and the signals are direct calls, so the event loop takes no
other event while one of them is pending.
-/

namespace EnerSentry.Channel
open EnerSentry.Lib (Timer)

inductive ChannelType where
  | serial | tcp | can | spi
  deriving DecidableEq, Repr

structure TcpConfig where
  host : String := "127.0.0.1"
  port : UInt16 := 502
  deriving DecidableEq, Repr

/-- The payload is read of a TCP configuration only. -/
structure ChannelConfig where
  type : ChannelType := .serial
  payload : TcpConfig := {}
  reconnectBaseMs : Int32 := 1000
  reconnectMaxMs : Int32 := 30000
  deriving DecidableEq, Repr

inductive SocketState where
  | unconnected | hostLookup | connecting | connected | closing
  deriving DecidableEq, Repr

inductive SocketError where
  | connectionRefusedError | remoteHostClosedError | hostNotFoundError | socketAccessError
  | socketResourceError | socketTimeoutError | datagramTooLargeError | networkError | addressInUseError
  | socketAddressNotAvailableError | unsupportedSocketOperationError | sslHandshakeFailedError
  | unfinishedSocketOperationError | proxyAuthenticationRequiredError | proxyConnectionRefusedError
  | proxyConnectionClosedError | proxyConnectionTimeoutError | proxyNotFoundError | proxyProtocolError
  | operationError | sslInternalError | sslInvalidUserDataError | temporaryError | unknownSocketError
  deriving DecidableEq, Repr

/-- The errors after which the channel tries again. -/
def SocketError.Recoverable (err : SocketError) : Prop :=
  err = .connectionRefusedError ∨ err = .remoteHostClosedError ∨ err = .networkError

instance : DecidablePred SocketError.Recoverable :=
  fun err => inferInstanceAs (Decidable (err = _ ∨ err = _ ∨ err = _))

/-- A signal of the socket, an error with the text of `errorString()`. -/
inductive SocketSignal where
  | connected | disconnected
  | errorOccurred (err : SocketError) (errorString : String)
  deriving DecidableEq, Repr

/-- What the channel asks of the socket and tells its user, callback and signal alike. -/
inductive ChannelOutput where
  | connectToHost (host : String) (port : UInt16)
  | connectionChanged (isUp : Bool)
  | errorOccurred (text : String)
  deriving DecidableEq, Repr

/-- A positive number of milliseconds. -/
abbrev DelayMs := { ms : Int32 // 0 < ms }

def orDefault (ms : Int32) (default : DelayMs) : DelayMs := if positive : 0 < ms then ⟨ms, positive⟩ else default

structure TcpChannel where
  socket : Option SocketState := none
  reconnectTimer : Timer := { singleShot := true }
  tcpCfg : TcpConfig := {}
  lastError : String := ""
  backoffMs : Int32 := 0
  reconnectBaseMs : DelayMs := ⟨1000, by decide⟩
  reconnectMaxMs : DelayMs := ⟨30000, by decide⟩
  opened : Bool := false
  closed : Bool := false
  connectedFlag : Bool := false
  deriving DecidableEq

/-- The next delay: doubled up to the greatest, the base for the first. -/
def nextBackoff (backoffMs base max : Int32) : Int32 :=
  if backoffMs < max then
    let doubled := min (backoffMs * 2) max
    if doubled = 0 then base else doubled
  else backoffMs

namespace TcpChannel

def isConnected (ch : TcpChannel) : Bool := ch.connectedFlag

/-- `jitter` is what the random generator adds to the delay. -/
def scheduleReconnect (ch : TcpChannel) (jitter : Int32) : TcpChannel :=
  if !ch.opened || ch.closed then ch
  else if ch.reconnectTimer.active then ch
  else
    let backoffMs := nextBackoff ch.backoffMs ch.reconnectBaseMs ch.reconnectMaxMs
    { ch with backoffMs, reconnectTimer := ch.reconnectTimer.startFor (max 1 (backoffMs + jitter)).toInt }

/-- `connectToHost` of the socket, which looks the host up first. -/
def connectToHost (ch : TcpChannel) : TcpChannel × List ChannelOutput :=
  ({ ch with socket := some .hostLookup }, [.connectToHost ch.tcpCfg.host ch.tcpCfg.port])

def onConnected (ch : TcpChannel) : TcpChannel × List ChannelOutput :=
  ({ ch with backoffMs := 0, connectedFlag := true }, [.connectionChanged true])

def onDisconnected (ch : TcpChannel) (jitter : Int32) : TcpChannel × List ChannelOutput :=
  (scheduleReconnect { ch with connectedFlag := false } jitter, [.connectionChanged false])

def onErrorOccurred (ch : TcpChannel) (err : SocketError) (errorString : String) (jitter : Int32) :
    TcpChannel × List ChannelOutput :=
  let lastError := if ch.socket.isSome then errorString else "socket error"
  let ch := { ch with lastError }
  if !ch.opened || ch.closed || ch.socket ≠ some .unconnected then (ch, [.errorOccurred lastError])
  else if err.Recoverable then (ch.scheduleReconnect jitter, [.errorOccurred lastError])
  else (ch, [.errorOccurred lastError])

def attemptReconnect (ch : TcpChannel) : TcpChannel × List ChannelOutput :=
  if !ch.opened || ch.closed then (ch, [])
  else if ch.socket = some .unconnected then ch.connectToHost
  else (ch, [])

/-- Aborting a socket that is up emits `disconnected`, which finds the channel closed. -/
def close (ch : TcpChannel) : TcpChannel × List ChannelOutput :=
  if ch.closed then (ch, [])
  else
    let stopped := { ch with
      closed := true, opened := false, connectedFlag := false, reconnectTimer := ch.reconnectTimer.stop }
    let aborted := if ch.socket = some .connected ∨ ch.socket = some .closing then stopped.onDisconnected 0
      else (stopped, [])
    ({ aborted.1 with socket := none }, aborted.2)

/-- A new socket comes with a new timer. -/
def «open» (ch : TcpChannel) (cfg : ChannelConfig) : Bool × TcpChannel × List ChannelOutput :=
  if cfg.type ≠ .tcp then (false, { ch with lastError := "TcpChannel::open expects TCP config" }, [])
  else
    let reset := if ch.opened then ch.close else (ch, [])
    let ch := { reset.1 with
      tcpCfg := cfg.payload
      reconnectBaseMs := orDefault cfg.reconnectBaseMs ⟨1000, by decide⟩
      reconnectMaxMs := orDefault cfg.reconnectMaxMs ⟨30000, by decide⟩
      lastError := ""
      reconnectTimer := if reset.1.socket.isSome then reset.1.reconnectTimer else { singleShot := true }
      opened := true
      closed := false
      backoffMs := 0 }
    (true, ch.connectToHost.1, reset.2 ++ ch.connectToHost.2)

def onSignal (ch : TcpChannel) (jitter : Int32) : SocketSignal → TcpChannel × List ChannelOutput
  | .connected => ch.onConnected
  | .disconnected => ch.onDisconnected jitter
  | .errorOccurred err text => ch.onErrorOccurred err text jitter

end TcpChannel

/-- What can happen to a socket. An attempt that fails and a connection that is lost leave it
unconnected; other errors leave its state alone. -/
inductive SocketEvent where
  | lookedUp | established
  | failed (err : SocketError) (text : String)
  | reported (err : SocketError) (text : String)
  | closing
  | lost (errors : List (SocketError × String))
  deriving DecidableEq, Repr

def errorSignals (errors : List (SocketError × String)) : List SocketSignal :=
  errors.map fun e => .errorOccurred e.1 e.2

/-- The next state of the socket and the signals it emits, where the event can happen. -/
def SocketEvent.apply : SocketEvent → SocketState → Option (SocketState × List SocketSignal)
  | .lookedUp, .hostLookup => some (.connecting, [])
  | .established, .connecting => some (.connected, [.connected])
  | .failed err text, .hostLookup => some (.unconnected, [.errorOccurred err text])
  | .failed err text, .connecting => some (.unconnected, [.errorOccurred err text])
  | .reported _ _, .unconnected => none
  | .reported err text, s => some (s, [.errorOccurred err text])
  | .closing, .connected => some (.closing, [])
  | .lost errors, .connected => some (.unconnected, errorSignals errors ++ [.disconnected])
  | .lost errors, .closing => some (.unconnected, errorSignals errors ++ [.disconnected])
  | _, _ => none

/-- A channel with the signals of its socket that no slot has received yet. -/
structure Link where
  ch : TcpChannel := {}
  pending : List SocketSignal := []
  deriving DecidableEq

inductive LinkEvent where
  | «open» (cfg : ChannelConfig)
  | close
  | socket (event : SocketEvent)
  | deliver (jitter : Int32)
  | expire
  deriving DecidableEq, Repr

namespace Link

/-- What an event does to the socket, if it can happen now. -/
def happens (l : Link) (event : SocketEvent) : Option (SocketState × List SocketSignal) :=
  if l.pending = [] then l.ch.socket.bind event.apply else none

def step : Lib.Runs.Step Link LinkEvent ChannelOutput := fun l event =>
  match event with
  | .open cfg =>
      let r := l.ch.open cfg
      ({ ch := r.2.1, pending := if r.1 then [] else l.pending }, r.2.2)
  | .close =>
      let r := l.ch.close
      ({ ch := r.1, pending := [] }, r.2)
  | .socket event =>
      match l.happens event with
      | some (state, signals) => ({ ch := { l.ch with socket := some state }, pending := signals }, [])
      | none => (l, [])
  | .deliver jitter =>
      match l.pending with
      | [] => (l, [])
      | signal :: rest =>
          let r := l.ch.onSignal jitter signal
          ({ ch := r.1, pending := rest }, r.2)
  | .expire =>
      if l.pending = [] ∧ l.ch.reconnectTimer.active then
        let r := TcpChannel.attemptReconnect { l.ch with reconnectTimer := l.ch.reconnectTimer.expire }
        ({ l with ch := r.1 }, r.2)
      else (l, [])

end Link

end EnerSentry.Channel
