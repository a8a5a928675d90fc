import EnerSentry.Channel.TcpChannel
import EnerSentry.Lib.Backoff
import Mathlib.Algebra.Order.Ring.Int

/-!
Whether a channel that has lost its connection always has something under way: it is
connected, an attempt is in progress or the reconnect timer runs. The channel goes through
phases, told apart by the state of the socket and by the signals that are pending. In the
last of them nothing is under way, and a failed attempt leads there only if its error is
not a recoverable one.
-/

namespace EnerSentry.Channel
open EnerSentry.Lib EnerSentry.Lib.Runs

/-- Since the channel was opened: whether it has lost a connection, the failures since it last had one,
the loss among them, and the jitter at the last start of the timer. -/
structure LinkHistory where
  lost : Bool := false
  failures : Nat := 0
  jitter : Int32 := 0
  deriving DecidableEq

namespace LinkHistory

def after (m : LinkHistory) : SocketEvent → LinkHistory
  | .established => { m with failures := 0 }
  | .failed _ _ => { m with failures := m.failures + 1 }
  | .lost _ => { m with lost := true, failures := m.failures + 1 }
  | _ => m

/-- The jitter counts only if no timer is running yet. -/
def jittered (m : LinkHistory) (ch : TcpChannel) (jitter : Int32) : LinkHistory :=
  if ch.reconnectTimer.active then m else { m with jitter }

@[simp] theorem jittered_lost (m : LinkHistory) (ch : TcpChannel) (jitter : Int32) :
    (m.jittered ch jitter).lost = m.lost := by
  unfold jittered
  split_ifs <;> rfl

@[simp] theorem jittered_failures (m : LinkHistory) (ch : TcpChannel) (jitter : Int32) :
    (m.jittered ch jitter).failures = m.failures := by
  unfold jittered
  split_ifs <;> rfl

def track (l : Link) (m : LinkHistory) (event : LinkEvent) (_ : List ChannelOutput) : LinkHistory :=
  match event with
  | .open cfg => if cfg.type = .tcp then {} else m
  | .close => {}
  | .socket event => if (l.happens event).isSome then m.after event else m
  | .deliver jitter => if l.pending = [] then m else m.jittered l.ch jitter
  | .expire => m

end LinkHistory

/-- A channel beside its history. -/
def tracked : Step (Link × LinkHistory) LinkEvent ChannelOutput := watch Link.step LinkHistory.track

/-- The channel is connected, an attempt is in progress or the timer runs. -/
def TcpChannel.UnderWay (ch : TcpChannel) : Prop :=
  ch.isConnected ∨ ch.socket = some .hostLookup ∨ ch.socket = some .connecting ∨ ch.reconnectTimer.active

/-- An open channel that has lost its connection has something under way when no signal is pending. -/
def Live (t : Link × LinkHistory) : Prop :=
  t.1.ch.opened → ¬t.1.ch.closed → t.2.lost → t.1.pending = [] → t.1.ch.UnderWay

instance (ch : TcpChannel) : Decidable ch.UnderWay := inferInstanceAs (Decidable (_ ∨ _ ∨ _ ∨ _))

instance : DecidablePred Live := fun t => inferInstanceAs (Decidable (_ → _ → _ → _ → t.1.ch.UnderWay))

/-- An attempt of a channel that has lost its connection fails with a recoverable error only. -/
def FailsRecoverably (t : Link × LinkHistory) : LinkEvent → Prop
  | .socket (.failed err text) => (t.1.happens (.failed err text)).isSome → t.2.lost → err.Recoverable
  | _ => True

instance (t : Link × LinkHistory) (event : LinkEvent) : Decidable (FailsRecoverably t event) :=
  match event with
  | .socket (.failed err _) => inferInstanceAs (Decidable (_ → _ → err.Recoverable))
  | .socket .lookedUp | .socket .established | .socket (.reported _ _) | .socket .closing | .socket (.lost _)
  | .open _ | .close | .deliver _ | .expire => isTrue trivial

/-- Doubling what is below the greatest delay stays in the range of `int`. -/
def DoublesInRange (base max : Int) : Prop := ∀ k : Nat, base * 2 ^ k < max → base * 2 ^ k < 2 ^ 30

section Backoff
variable {backoffMs base max : Int32} {k : Nat}

theorem toInt_min (a b : Int32) : (min a b).toInt = min a.toInt b.toInt := by
  have ordered := @Int32.le_iff_toInt_le a b
  by_cases le : a ≤ b
  · rw [Int.min_eq_left (ordered.mp le)]
    exact congrArg Int32.toInt (if_pos le)
  · rw [Int.min_eq_right (le_of_not_ge fun less => le (ordered.mpr less))]
    exact congrArg Int32.toInt (if_neg le)

/-- The rule of the channel is the one of capped doubling, as long as it does not overflow. -/
theorem toInt_nextBackoff (inRange : backoffMs < max → 0 ≤ backoffMs.toInt ∧ backoffMs.toInt < 2 ^ 30) :
    (nextBackoff backoffMs base max).toInt = Backoff.next base.toInt max.toInt backoffMs.toInt := by
  rw [nextBackoff, Backoff.next, Nat.cast_ofNat]
  by_cases below : backoffMs < max
  · obtain ⟨nonneg, small⟩ := inRange below
    have doubled : (min (backoffMs * 2) max).toInt = min (backoffMs.toInt * 2) max.toInt := by
      rw [toInt_min]
      apply congrArg (min · max.toInt)
      calc (backoffMs * 2).toInt = (backoffMs.toInt * 2).bmod (2 ^ 32) := Int32.toInt_mul ..
        _ = backoffMs.toInt * 2 := Int.bmod_eq_of_le (by omega) (by omega)
    rw [if_pos below, if_pos (Int32.lt_iff_toInt_lt.mp below), ← doubled]
    by_cases zero : min (backoffMs * 2) max = 0
    · simp [zero]
    · have nonzero : (min (backoffMs * 2) max).toInt ≠ 0 := fun none => zero (Int32.toInt_inj.mp none)
      rw [if_neg nonzero]
      exact congrArg Int32.toInt (if_neg zero)
  · rw [if_neg below, if_neg fun less => below (Int32.lt_iff_toInt_lt.mpr less)]

/-- No delay below the greatest one overflows when it is doubled. -/
theorem delay_inRange (positive : 0 < base.toInt) (inRange : DoublesInRange base.toInt max.toInt)
    (current : backoffMs.toInt = Backoff.delay base.toInt max.toInt k) (below : backoffMs < max) :
    0 ≤ backoffMs.toInt ∧ backoffMs.toInt < 2 ^ 30 := by
  have less := Int32.lt_iff_toInt_lt.mp below
  rw [current] at less ⊢
  cases k with
  | zero =>
    rw [Backoff.delay]
    exact ⟨le_refl _, by decide⟩
  | succ k =>
    have power : 0 < base.toInt * 2 ^ k := mul_pos positive (by positivity)
    have exact_ := Backoff.delay_succ_of_lt less
    rw [exact_] at less ⊢
    exact ⟨power.le, inRange k less⟩

end Backoff

/-- The delay of the channel is the one after so many failures. -/
def Backs (ch : TcpChannel) (failures : Nat) : Prop :=
  ch.reconnectBaseMs.1 ≤ ch.reconnectMaxMs.1 →
  DoublesInRange ch.reconnectBaseMs.1.toInt ch.reconnectMaxMs.1.toInt →
    ch.backoffMs.toInt = Backoff.delay ch.reconnectBaseMs.1.toInt ch.reconnectMaxMs.1.toInt failures

/-- The phases of an open channel, by its socket and the signals that are pending. -/
inductive Phase (ch : TcpChannel) (k : Nat) : List SocketSignal → Prop where
  | attempting (errors) (socket : ch.socket = some .hostLookup ∨ ch.socket = some .connecting)
      (timer : ch.reconnectTimer.active = false) (flag : ch.connectedFlag = false) (backs : Backs ch k) :
      Phase ch k (errorSignals errors)
  | entering (socket : ch.socket = some .connected) (timer : ch.reconnectTimer.active = false)
      (failures : k = 0) : Phase ch k [.connected]
  | up (errors) (socket : ch.socket = some .connected ∨ ch.socket = some .closing)
      (timer : ch.reconnectTimer.active = false) (flag : ch.connectedFlag = true)
      (failures : k = 0) (fresh : ch.backoffMs = 0) : Phase ch k (errorSignals errors)
  | dropping (errors) (socket : ch.socket = some .unconnected) (failures : k = 1)
      (backs : Backs ch (if ch.reconnectTimer.active then 1 else 0)) :
      Phase ch k (errorSignals errors ++ [.disconnected])
  | failing (err text) (socket : ch.socket = some .unconnected) (timer : ch.reconnectTimer.active = false)
      (flag : ch.connectedFlag = false) (failures : 1 ≤ k) (backs : Backs ch (k - 1)) :
      Phase ch k [.errorOccurred err text]
  | waiting (socket : ch.socket = some .unconnected) (timer : ch.reconnectTimer.active = true)
      (flag : ch.connectedFlag = false) (failures : 1 ≤ k) (backs : Backs ch k) : Phase ch k []
  | stuck (socket : ch.socket = some .unconnected) (timer : ch.reconnectTimer.active = false)
      (flag : ch.connectedFlag = false) : Phase ch k []

section Slots
variable {ch : TcpChannel} {pending : List SocketSignal} {k : Nat} (jitter : Int32)

@[simp] theorem scheduleReconnect_socket : (ch.scheduleReconnect jitter).socket = ch.socket := by
  unfold TcpChannel.scheduleReconnect
  split_ifs <;> rfl

@[simp] theorem scheduleReconnect_opened : (ch.scheduleReconnect jitter).opened = ch.opened := by
  unfold TcpChannel.scheduleReconnect
  split_ifs <;> rfl

@[simp] theorem scheduleReconnect_closed : (ch.scheduleReconnect jitter).closed = ch.closed := by
  unfold TcpChannel.scheduleReconnect
  split_ifs <;> rfl

@[simp] theorem scheduleReconnect_flag : (ch.scheduleReconnect jitter).connectedFlag = ch.connectedFlag := by
  unfold TcpChannel.scheduleReconnect
  split_ifs <;> rfl

@[simp] theorem scheduleReconnect_singleShot :
    (ch.scheduleReconnect jitter).reconnectTimer.singleShot = ch.reconnectTimer.singleShot := by
  unfold TcpChannel.scheduleReconnect
  split_ifs <;> rfl

/-- The timer of an open channel runs once a reconnection is scheduled. -/
theorem scheduleReconnect_active (isOpen : ch.opened = true) (notClosed : ch.closed = false) :
    (ch.scheduleReconnect jitter).reconnectTimer.active = true := by
  unfold TcpChannel.scheduleReconnect
  rw [isOpen, notClosed]
  by_cases active : ch.reconnectTimer.active = true
  · simp [active]
  · simp [active]

/-- A scheduled reconnection counts one failure more. -/
theorem scheduleReconnect_backs (isOpen : ch.opened = true) (notClosed : ch.closed = false)
    (timer : ch.reconnectTimer.active = false) (backs : Backs ch k) : Backs (ch.scheduleReconnect jitter) (k + 1) := by
  unfold TcpChannel.scheduleReconnect
  rw [isOpen, notClosed, timer]
  intro ordered inRange
  have positive : 0 < ch.reconnectBaseMs.1.toInt := Int32.lt_iff_toInt_lt.mp ch.reconnectBaseMs.2
  have current := backs ordered inRange
  refine (toInt_nextBackoff (delay_inRange positive inRange current)).trans ?_
  rw [current]
  exact Backoff.next_delay positive (Int32.le_iff_toInt_le.mp ordered) k

/-- While a reconnection is scheduled another one is not. -/
theorem scheduleReconnect_idem (timer : ch.reconnectTimer.active = true) : ch.scheduleReconnect jitter = ch := by
  unfold TcpChannel.scheduleReconnect
  simp [timer]

/-- The first of the signals of a lost connection to schedule a reconnection is the only one to do so. -/
theorem scheduleReconnect_once (isOpen : ch.opened = true) (notClosed : ch.closed = false)
    (backs : Backs ch (if ch.reconnectTimer.active then 1 else 0)) : Backs (ch.scheduleReconnect jitter) 1 := by
  cases timer : ch.reconnectTimer.active with
  | true =>
    rw [scheduleReconnect_idem jitter timer]
    rwa [timer] at backs
  | false =>
    rw [timer] at backs
    exact scheduleReconnect_backs jitter isOpen notClosed timer backs

theorem scheduleReconnect_interval (timer : ch.reconnectTimer.active = false)
    (active : (ch.scheduleReconnect jitter).reconnectTimer.active = true) :
    (ch.scheduleReconnect jitter).reconnectTimer.intervalMs =
      (max 1 ((ch.scheduleReconnect jitter).backoffMs + jitter)).toInt := by
  unfold TcpChannel.scheduleReconnect at active ⊢
  by_cases shut : (!ch.opened || ch.closed) = true
  · rw [if_pos shut, timer] at active
    cases active
  · rw [if_neg shut, if_neg (by rw [timer]; exact Bool.false_ne_true)]
    rfl

/-- The error of an unconnected socket schedules a reconnection if it is recoverable. -/
theorem onErrorOccurred_unconnected (isOpen : ch.opened = true) (notClosed : ch.closed = false)
    (socket : ch.socket = some .unconnected) (err text) :
    ch.onErrorOccurred err text jitter =
      (if err.Recoverable then TcpChannel.scheduleReconnect { ch with lastError := text } jitter
        else { ch with lastError := text }, [.errorOccurred text]) := by
  unfold TcpChannel.onErrorOccurred
  simp only [isOpen, notClosed, socket, Option.isSome_some, if_true]
  split_ifs <;> first | rfl | simp_all

/-- Any other socket only reports its error. -/
theorem onErrorOccurred_other {s : SocketState} (socket : ch.socket = some s) (other : s ≠ .unconnected) (err text) :
    ch.onErrorOccurred err text jitter = ({ ch with lastError := text }, [.errorOccurred text]) := by
  unfold TcpChannel.onErrorOccurred
  simp [socket, other]

theorem Phase.withError (phase : Phase ch k pending) (text : String) :
    Phase { ch with lastError := text } k pending := by
  cases phase with
  | attempting errors socket timer flag backs => exact .attempting errors socket timer flag backs
  | entering socket timer failures => exact .entering socket timer failures
  | up errors socket timer flag failures fresh => exact .up errors socket timer flag failures fresh
  | dropping errors socket failures backs => exact .dropping errors socket failures backs
  | failing err text' socket timer flag failures backs => exact .failing err text' socket timer flag failures backs
  | waiting socket timer flag failures backs => exact .waiting socket timer flag failures backs
  | stuck socket timer flag => exact .stuck socket timer flag

theorem close_fst (notClosed : ch.closed = false) :
    ch.close.1 = { ch with closed := true, opened := false, connectedFlag := false,
                           reconnectTimer := ch.reconnectTimer.stop, socket := none } := by
  unfold TcpChannel.close
  rw [notClosed]
  by_cases isUp : ch.socket = some .connected ∨ ch.socket = some .closing
  · simp [isUp, TcpChannel.onDisconnected, TcpChannel.scheduleReconnect]
  · simp [isUp]

theorem close_opened (isOpen : ch.opened = true → ch.closed = false) : ch.close.1.opened = false := by
  cases closed : ch.closed with
  | true =>
    have same : ch.close.1 = ch := by simp [TcpChannel.close, closed]
    rw [same]
    by_contra opened
    cases (isOpen (eq_true_of_ne_false opened)).symm.trans closed
  | false => rw [close_fst closed]

/-- Opening starts an attempt with a fresh timer, whatever there was before. -/
theorem open_spec (cfg : ChannelConfig) (tcp : cfg.type = .tcp) (isOpen : ch.opened = true → ch.closed = false)
    (shut : ch.opened = false → ch.socket = none ∧ ch.connectedFlag = false) :
    (ch.open cfg).1 = true ∧ (ch.open cfg).2.1.socket = some .hostLookup ∧
      (ch.open cfg).2.1.reconnectTimer = { singleShot := true } ∧ (ch.open cfg).2.1.opened = true ∧
      (ch.open cfg).2.1.closed = false ∧ (ch.open cfg).2.1.connectedFlag = false ∧
      (ch.open cfg).2.1.backoffMs = 0 := by
  unfold TcpChannel.open TcpChannel.connectToHost
  cases opened : ch.opened with
  | true => simp [tcp, close_fst (isOpen opened)]
  | false => simp [tcp, shut opened]

end Slots

/-- An open channel is in one of the phases; a channel that is not open has no socket. -/
structure Phased (t : Link × LinkHistory) : Prop where
  singleShot : t.1.ch.reconnectTimer.singleShot = true
  closed : t.1.ch.opened = true → t.1.ch.closed = false
  phase : t.1.ch.opened = true → Phase t.1.ch t.2.failures t.1.pending
  shut : t.1.ch.opened = false →
    t.1.ch.socket = none ∧ t.1.pending = [] ∧ t.1.ch.reconnectTimer.active = false ∧ t.1.ch.connectedFlag = false

/-- The running timer was started for the delay of the channel and the jitter of that moment. -/
def Timed (t : Link × LinkHistory) : Prop :=
  t.1.ch.reconnectTimer.active = true →
    t.1.ch.reconnectTimer.intervalMs = (max 1 (t.1.ch.backoffMs + t.2.jitter)).toInt

/-- What a channel that has lost its connection is still to do while its socket is unconnected. -/
structure Persists (t : Link × LinkHistory) : Prop where
  waits : t.2.lost → t.1.ch.socket = some .unconnected → t.1.pending = [] → t.1.ch.reconnectTimer.active = true
  recovers : ∀ err text, t.2.lost → t.1.ch.socket = some .unconnected →
    t.1.pending = [.errorOccurred err text] → err.Recoverable

theorem Link.happens_some {l : Link} {event : SocketEvent} {s' : SocketState} {signals : List SocketSignal}
    (happens : l.happens event = some (s', signals)) :
    l.pending = [] ∧ ∃ s, l.ch.socket = some s ∧ event.apply s = some (s', signals) := by
  unfold Link.happens at happens
  split_ifs at happens with settled
  exact ⟨settled, Option.bind_eq_some_iff.mp happens⟩

section Steps
variable {t : Link × LinkHistory}

theorem tracked_refused {cfg : ChannelConfig} (other : cfg.type ≠ .tcp) : (tracked t (.open cfg)).1 =
    ({ t.1 with ch := { t.1.ch with lastError := "TcpChannel::open expects TCP config" } }, t.2) := by
  simp [tracked, watch, Link.step, LinkHistory.track, TcpChannel.open, other]

theorem tracked_still {event : SocketEvent} (happens : t.1.happens event = none) :
    (tracked t (.socket event)).1 = t := by
  simp [tracked, watch, Link.step, LinkHistory.track, happens]

theorem tracked_moved {event : SocketEvent} {s' : SocketState} {signals : List SocketSignal}
    (happens : t.1.happens event = some (s', signals)) :
    (tracked t (.socket event)).1 = (⟨{ t.1.ch with socket := some s' }, signals⟩, t.2.after event) := by
  simp [tracked, watch, Link.step, LinkHistory.track, happens]

theorem tracked_early (early : ¬(t.1.pending = [] ∧ t.1.ch.reconnectTimer.active = true)) :
    (tracked t .expire).1 = t := by
  simp only [tracked, watch, Link.step, LinkHistory.track]
  rw [if_neg early]

theorem tracked_delivered (ch : TcpChannel) (signal : SocketSignal) (rest : List SocketSignal) (m : LinkHistory)
    (jitter : Int32) : tracked (⟨ch, signal :: rest⟩, m) (.deliver jitter) =
      ((⟨(ch.onSignal jitter signal).1, rest⟩, m.jittered ch jitter), (ch.onSignal jitter signal).2) := rfl

/-- Only an open channel has a socket, pending signals or a running timer. -/
theorem Phased.isOpen (phased : Phased t)
    (busy : t.1.ch.socket ≠ none ∨ t.1.pending ≠ [] ∨ t.1.ch.reconnectTimer.active = true) : t.1.ch.opened = true := by
  by_contra notOpen
  obtain ⟨socket, pending, timer, _⟩ := phased.shut (eq_false_of_ne_true notOpen)
  simp [socket, pending, timer] at busy

theorem Phased.live (phased : Phased t) (persists : Persists t) : Live t := by
  intro isOpen _ lost settled
  have phase := phased.phase isOpen
  have waits := persists.waits lost
  rw [settled] at phase
  unfold TcpChannel.UnderWay TcpChannel.isConnected
  generalize none_ : ([] : List SocketSignal) = pending at phase
  cases phase with
  | attempting errors socket => exact Or.inr (socket.elim Or.inl fun connecting => Or.inr (Or.inl connecting))
  | up errors socket timer flag => exact Or.inl flag
  | waiting socket timer => exact Or.inr (Or.inr (Or.inr timer))
  | stuck socket => exact Or.inr (Or.inr (Or.inr (waits socket settled)))
  | entering => cases none_
  | dropping errors => exact absurd none_.symm (List.append_ne_nil_of_right_ne_nil _ (List.cons_ne_nil _ _))
  | failing => cases none_

theorem Phased.open (phased : Phased t) (cfg : ChannelConfig) : Phased (tracked t (.open cfg)).1 := by
  obtain ⟨⟨ch, pending⟩, m⟩ := t
  by_cases tcp : cfg.type = .tcp
  · obtain ⟨accepted, socket, timer, isOpen, notClosed, flag, fresh⟩ := open_spec cfg tcp phased.closed
      fun notOpen => ⟨(phased.shut notOpen).1, (phased.shut notOpen).2.2.2⟩
    have renewed : (tracked (⟨ch, pending⟩, m) (.open cfg)).1 = (⟨(ch.open cfg).2.1, []⟩, {}) := by
      simp [tracked, watch, Link.step, LinkHistory.track, tcp, accepted]
    rw [renewed]
    refine ⟨congrArg _ timer, fun _ => notClosed, fun _ => ?_, fun notOpen => by simp [isOpen] at notOpen⟩
    exact Phase.attempting [] (Or.inl socket) (congrArg _ timer) flag fun _ _ => by rw [fresh]; rfl
  · rw [tracked_refused tcp]
    exact ⟨phased.singleShot, phased.closed, fun isOpen => (phased.phase isOpen).withError _, phased.shut⟩

theorem Phased.close (phased : Phased t) : Phased (tracked t .close).1 := by
  obtain ⟨⟨ch, pending⟩, m⟩ := t
  have stopped : (tracked (⟨ch, pending⟩, m) .close).1 = (⟨ch.close.1, []⟩, {}) := rfl
  rw [stopped]
  cases closed : ch.closed with
  | true =>
    have same : ch.close.1 = ch := by simp [TcpChannel.close, closed]
    have notOpen : ch.opened = false := by
      by_contra isOpen
      exact Bool.false_ne_true ((phased.closed (eq_true_of_ne_false isOpen)).symm.trans closed)
    obtain ⟨socket, _, timer, flag⟩ := phased.shut notOpen
    rw [same]
    exact ⟨phased.singleShot, phased.closed, fun isOpen => by simp [notOpen] at isOpen,
      fun _ => ⟨socket, rfl, timer, flag⟩⟩
  | false =>
    rw [close_fst closed]
    exact ⟨phased.singleShot, (fun isOpen => by cases isOpen), (fun isOpen => by cases isOpen),
      fun _ => ⟨rfl, rfl, rfl, rfl⟩⟩

/-- Nothing pending and an attempt in progress. -/
theorem Phase.attempt {ch : TcpChannel} {k : Nat} (phase : Phase ch k [])
    (socket : ch.socket = some .hostLookup ∨ ch.socket = some .connecting) :
    ch.reconnectTimer.active = false ∧ ch.connectedFlag = false ∧ Backs ch k := by
  generalize none_ : ([] : List SocketSignal) = pending at phase
  cases phase with
  | attempting errors _ timer flag backs => exact ⟨timer, flag, backs⟩
  | _ => rcases socket with socket | socket <;> simp_all

/-- Nothing pending and a connection. -/
theorem Phase.connection {ch : TcpChannel} {k : Nat} (phase : Phase ch k [])
    (socket : ch.socket = some .connected ∨ ch.socket = some .closing) :
    ch.reconnectTimer.active = false ∧ ch.connectedFlag = true ∧ k = 0 ∧ ch.backoffMs = 0 := by
  generalize none_ : ([] : List SocketSignal) = pending at phase
  cases phase with
  | up errors _ timer flag failures fresh => exact ⟨timer, flag, failures, fresh⟩
  | _ => rcases socket with socket | socket <;> simp_all

/-- A connection that is still to be told of. -/
theorem Phase.entry {ch : TcpChannel} {k : Nat} {rest : List SocketSignal} (phase : Phase ch k (.connected :: rest)) :
    ch.reconnectTimer.active = false := by
  generalize split : SocketSignal.connected :: rest = pending at phase
  cases phase with
  | attempting _ _ timer => exact timer
  | entering _ timer => exact timer
  | up _ _ timer => exact timer
  | dropping errors => cases errors <;> cases split
  | failing => cases split
  | waiting => cases split
  | stuck => cases split

/-- Nothing but an error pending and no connection. -/
theorem Phase.failure {ch : TcpChannel} {k : Nat} {err : SocketError} {text : String}
    (phase : Phase ch k [.errorOccurred err text]) (socket : ch.socket = some .unconnected) :
    ch.reconnectTimer.active = false ∧ ch.connectedFlag = false := by
  generalize only : [SocketSignal.errorOccurred err text] = pending at phase
  cases phase with
  | failing _ _ _ timer flag => exact ⟨timer, flag⟩
  | attempting errors other => rcases other with other | other <;> cases other.symm.trans socket
  | up errors other => rcases other with other | other <;> cases other.symm.trans socket
  | dropping errors =>
    have last := List.append_eq_singleton_iff.mp only.symm
    simp at last
  | entering => cases only
  | waiting => cases only
  | stuck => cases only

theorem Phase.socket {ch : TcpChannel} {m : LinkHistory} {event : SocketEvent} {s s' : SocketState}
    {signals : List SocketSignal} (phase : Phase ch m.failures []) (before : ch.socket = some s)
    (applies : event.apply s = some (s', signals)) :
    Phase { ch with socket := some s' } (m.after event).failures signals := by
  cases event with
  | lookedUp =>
    cases s with
    | hostLookup =>
      cases applies
      obtain ⟨timer, flag, backs⟩ := phase.attempt (Or.inl before)
      exact .attempting [] (Or.inr rfl) timer flag backs
    | _ => cases applies
  | established =>
    cases s with
    | connecting =>
      cases applies
      exact .entering rfl (phase.attempt (Or.inr before)).1 rfl
    | _ => cases applies
  | failed err text =>
    have attempt : s = .hostLookup ∨ s = .connecting := by cases s <;> simp [SocketEvent.apply] at applies ⊢
    obtain ⟨timer, flag, backs⟩ := phase.attempt (by rcases attempt with rfl | rfl <;> simp [before])
    have result : s' = .unconnected ∧ signals = [.errorOccurred err text] := by
      rcases attempt with rfl | rfl <;> cases applies <;> exact ⟨rfl, rfl⟩
    rw [result.1, result.2]
    exact .failing err text rfl timer flag (Nat.le_add_left 1 _) backs
  | reported err text =>
    have result : s' = s ∧ signals = errorSignals [(err, text)] ∧ s ≠ .unconnected := by
      cases s <;> cases applies <;> simp [errorSignals]
    obtain ⟨rfl, rfl, other⟩ := result
    rw [← before]
    cases s' with
    | unconnected => exact absurd rfl other
    | hostLookup | connecting =>
      obtain ⟨timer, flag, backs⟩ := phase.attempt (by simp [before])
      exact .attempting _ (by simp [before]) timer flag backs
    | connected | closing =>
      obtain ⟨timer, flag, failures, fresh⟩ := phase.connection (by simp [before])
      exact .up _ (by simp [before]) timer flag failures fresh
  | closing =>
    cases s with
    | connected =>
      cases applies
      obtain ⟨timer, flag, failures, fresh⟩ := phase.connection (Or.inl before)
      exact .up [] (Or.inr rfl) timer flag failures fresh
    | _ => cases applies
  | lost errors =>
    have connection : s = .connected ∨ s = .closing := by cases s <;> simp [SocketEvent.apply] at applies ⊢
    obtain ⟨timer, flag, failures, fresh⟩ := phase.connection (by rcases connection with rfl | rfl <;> simp [before])
    have result : s' = .unconnected ∧ signals = errorSignals errors ++ [.disconnected] := by
      rcases connection with rfl | rfl <;> cases applies <;> exact ⟨rfl, rfl⟩
    rw [result.1, result.2]
    refine .dropping errors rfl (congrArg (· + 1) failures) ?_
    intro _ _
    simp [timer, fresh, Backoff.delay]

theorem Phased.socket (phased : Phased t) (event : SocketEvent) : Phased (tracked t (.socket event)).1 := by
  cases happens : t.1.happens event with
  | none => rwa [tracked_still happens]
  | some next =>
    obtain ⟨settled, s, before, applies⟩ := Link.happens_some happens
    have isOpen := phased.isOpen (Or.inl (by simp [before]))
    have phase := phased.phase isOpen
    rw [settled] at phase
    rw [tracked_moved happens]
    exact ⟨phased.singleShot, phased.closed, fun _ => phase.socket before applies,
      fun notOpen => absurd (notOpen.symm.trans isOpen) Bool.false_ne_true⟩

/-- The error of a socket that is not unconnected is recorded, and other errors may follow. -/
theorem onSignal_report {ch : TcpChannel} {errors : List (SocketError × String)} {signal : SocketSignal}
    {rest : List SocketSignal} (jitter : Int32) (split : errorSignals errors = signal :: rest)
    (busy : ∃ s, ch.socket = some s ∧ s ≠ .unconnected) :
    ∃ text later, (ch.onSignal jitter signal).1 = { ch with lastError := text } ∧ rest = errorSignals later := by
  obtain ⟨s, socket, other⟩ := busy
  cases errors with
  | nil => cases split
  | cons e later =>
    cases split
    exact ⟨e.2, later, congrArg Prod.fst (onErrorOccurred_other jitter socket other e.1 e.2), rfl⟩

theorem Phase.deliver {ch : TcpChannel} {k : Nat} {signal : SocketSignal} {rest : List SocketSignal}
    (isOpen : ch.opened = true) (notClosed : ch.closed = false) (phase : Phase ch k (signal :: rest))
    (jitter : Int32) : Phase (ch.onSignal jitter signal).1 k rest := by
  generalize split : signal :: rest = pending at phase
  cases phase with
  | attempting errors socket timer flag backs =>
    obtain ⟨text, later, reported, rfl⟩ := onSignal_report jitter split.symm (by
      rcases socket with socket | socket <;> exact ⟨_, socket, by decide⟩)
    rw [reported]
    exact .attempting later socket timer flag backs
  | entering socket timer failures =>
    cases split
    exact .up [] (Or.inl socket) timer rfl failures rfl
  | up errors socket timer flag failures fresh =>
    obtain ⟨text, later, reported, rfl⟩ := onSignal_report jitter split.symm (by
      rcases socket with socket | socket <;> exact ⟨_, socket, by decide⟩)
    rw [reported]
    exact .up later socket timer flag failures fresh
  | dropping errors socket failures backs =>
    cases errors with
    | nil =>
      cases split
      refine .waiting ?_ (scheduleReconnect_active _ isOpen notClosed) ?_ failures.ge ?_
      · exact (scheduleReconnect_socket _).trans socket
      · exact scheduleReconnect_flag _
      · rw [failures]
        exact scheduleReconnect_once _ isOpen notClosed backs
    | cons e later =>
      cases split
      rw [TcpChannel.onSignal, onErrorOccurred_unconnected jitter isOpen notClosed socket]
      by_cases recoverable : e.1.Recoverable
      · rw [if_pos recoverable]
        have active : (TcpChannel.scheduleReconnect { ch with lastError := e.2 } jitter).reconnectTimer.active = true :=
          scheduleReconnect_active jitter isOpen notClosed
        refine .dropping later ((scheduleReconnect_socket _).trans socket) failures ?_
        dsimp only
        rw [active]
        exact scheduleReconnect_once _ isOpen notClosed backs
      · rw [if_neg recoverable]
        exact .dropping later socket failures backs
  | failing err text socket timer flag failures backs =>
    cases split
    rw [TcpChannel.onSignal, onErrorOccurred_unconnected jitter isOpen notClosed socket]
    by_cases recoverable : err.Recoverable
    · rw [if_pos recoverable]
      refine .waiting ?_ (scheduleReconnect_active _ isOpen notClosed) ?_ failures ?_
      · exact (scheduleReconnect_socket _).trans socket
      · exact (scheduleReconnect_flag _).trans flag
      · have counted : Backs (TcpChannel.scheduleReconnect { ch with lastError := text } jitter) (k - 1 + 1) :=
          scheduleReconnect_backs jitter isOpen notClosed timer backs
        rwa [Nat.sub_add_cancel failures] at counted
    · rw [if_neg recoverable]
      exact .stuck socket timer flag
  | waiting => cases split
  | stuck => cases split

/-- An error is recorded, and at most a reconnection is scheduled. -/
theorem onErrorOccurred_cases (ch : TcpChannel) (jitter : Int32) (err text) : ∃ lastError,
    (ch.onErrorOccurred err text jitter).1 = { ch with lastError } ∨
      (ch.onErrorOccurred err text jitter).1 = TcpChannel.scheduleReconnect { ch with lastError } jitter := by
  refine ⟨if ch.socket.isSome then text else "socket error", ?_⟩
  unfold TcpChannel.onErrorOccurred
  dsimp only
  by_cases idle : (!ch.opened || ch.closed || decide (ch.socket ≠ some .unconnected)) = true
  · rw [if_pos idle]
    exact Or.inl rfl
  · rw [if_neg idle]
    by_cases recoverable : err.Recoverable
    · rw [if_pos recoverable]
      exact Or.inr rfl
    · rw [if_neg recoverable]
      exact Or.inl rfl

/-- No signal opens or closes the channel or replaces its socket. -/
theorem onSignal_frame (ch : TcpChannel) (jitter : Int32) (signal : SocketSignal) :
    (ch.onSignal jitter signal).1.opened = ch.opened ∧ (ch.onSignal jitter signal).1.closed = ch.closed ∧
      (ch.onSignal jitter signal).1.socket = ch.socket ∧
      (ch.onSignal jitter signal).1.reconnectTimer.singleShot = ch.reconnectTimer.singleShot := by
  cases signal with
  | connected => exact ⟨rfl, rfl, rfl, rfl⟩
  | disconnected => simp [TcpChannel.onSignal, TcpChannel.onDisconnected]
  | errorOccurred err text =>
    rw [TcpChannel.onSignal]
    obtain ⟨lastError, recorded | scheduled⟩ := onErrorOccurred_cases ch jitter err text
    · rw [recorded]
      exact ⟨rfl, rfl, rfl, rfl⟩
    · rw [scheduled]
      simp

theorem Phased.deliver (phased : Phased t) (jitter : Int32) : Phased (tracked t (.deliver jitter)).1 := by
  obtain ⟨⟨ch, pending⟩, m⟩ := t
  cases pending with
  | nil => exact phased
  | cons signal rest =>
    have isOpen := phased.isOpen (Or.inr (Or.inl (List.cons_ne_nil _ _)))
    obtain ⟨opened, closed, _, singleShot⟩ := onSignal_frame ch jitter signal
    rw [tracked_delivered]
    refine ⟨singleShot.trans phased.singleShot, fun _ => closed.trans (phased.closed isOpen), fun _ => ?_,
      fun notOpen => absurd ((opened.symm.trans notOpen).symm.trans isOpen) Bool.false_ne_true⟩
    rw [LinkHistory.jittered_failures]
    exact (phased.phase isOpen).deliver isOpen (phased.closed isOpen) jitter

/-- The timer runs in one phase without pending signals, and its expiry starts an attempt. -/
theorem Phased.expires (phased : Phased t) (isOpen : t.1.ch.opened = true) (settled : t.1.pending = [])
    (active : t.1.ch.reconnectTimer.active = true) :
    Backs t.1.ch t.2.failures ∧ 1 ≤ t.2.failures ∧ t.1.ch.connectedFlag = false ∧
      TcpChannel.attemptReconnect { t.1.ch with reconnectTimer := t.1.ch.reconnectTimer.expire } =
        TcpChannel.connectToHost { t.1.ch with reconnectTimer := t.1.ch.reconnectTimer.stop } := by
  have phase := phased.phase isOpen
  rw [settled] at phase
  generalize none_ : ([] : List SocketSignal) = pending at phase
  cases phase with
  | waiting socket _ flag failures backs =>
    refine ⟨backs, failures, flag, ?_⟩
    simp [TcpChannel.attemptReconnect, isOpen, phased.closed isOpen, socket, Lib.Timer.expire, phased.singleShot]
  | dropping errors => exact absurd none_.symm (List.append_ne_nil_of_right_ne_nil _ (List.cons_ne_nil _ _))
  | attempting errors _ timer => cases timer.symm.trans active
  | up errors _ timer => cases timer.symm.trans active
  | stuck _ timer => cases timer.symm.trans active
  | entering => cases none_
  | failing => cases none_

theorem Phased.expired (phased : Phased t) (settled : t.1.pending = [])
    (active : t.1.ch.reconnectTimer.active = true) : (tracked t .expire).1 =
      (⟨(TcpChannel.connectToHost { t.1.ch with reconnectTimer := t.1.ch.reconnectTimer.stop }).1, []⟩, t.2) := by
  have attempt := (phased.expires (phased.isOpen (Or.inr (Or.inr active))) settled active).2.2.2
  simp only [tracked, watch, Link.step, LinkHistory.track, settled, active, and_self, if_true]
  exact congrArg (fun r => ((⟨r.1, []⟩, t.2) : Link × LinkHistory)) attempt

theorem Phased.expire (phased : Phased t) : Phased (tracked t .expire).1 := by
  by_cases due : t.1.pending = [] ∧ t.1.ch.reconnectTimer.active = true
  · have isOpen := phased.isOpen (Or.inr (Or.inr due.2))
    obtain ⟨backs, failures, flag, _⟩ := phased.expires isOpen due.1 due.2
    rw [phased.expired due.1 due.2]
    exact ⟨phased.singleShot, fun _ => phased.closed isOpen, fun _ => .attempting [] (Or.inl rfl) rfl flag backs,
      fun notOpen => absurd (notOpen.symm.trans isOpen) Bool.false_ne_true⟩
  · rwa [tracked_early due]

theorem Phased.step (phased : Phased t) (event : LinkEvent) : Phased (tracked t event).1 := by
  cases event with
  | «open» cfg => exact phased.open cfg
  | close => exact phased.close
  | socket event => exact phased.socket event
  | deliver jitter => exact phased.deliver jitter
  | expire => exact phased.expire

/-- A slot that starts the timer has just worked out its interval. -/
theorem Timed.slot {ch : TcpChannel} {m : LinkHistory} {pending rest : List SocketSignal} {jitter : Int32}
    (timed : Timed (⟨ch, pending⟩, m)) (ch' : TcpChannel) (timer : ch'.reconnectTimer = ch.reconnectTimer)
    (delay : ch'.backoffMs = ch.backoffMs) :
    Timed (⟨ch'.scheduleReconnect jitter, rest⟩, m.jittered ch jitter) ∧
      Timed (⟨ch', rest⟩, m.jittered ch jitter) := by
  cases active : ch.reconnectTimer.active with
  | true =>
    have same : m.jittered ch jitter = m := if_pos active
    have idle : ch'.scheduleReconnect jitter = ch' := scheduleReconnect_idem jitter (by rw [timer, active])
    have kept : Timed (⟨ch', rest⟩, m) := by
      intro _
      dsimp only
      rw [timer, delay]
      exact timed active
    rw [same, idle]
    exact ⟨kept, kept⟩
  | false =>
    have recorded : m.jittered ch jitter = { m with jitter } := by
      unfold LinkHistory.jittered
      rw [active, if_neg Bool.false_ne_true]
    rw [recorded]
    constructor
    · exact scheduleReconnect_interval jitter (by rw [timer, active])
    · intro started
      dsimp only at started
      rw [timer, active] at started
      cases started

theorem Timed.step (timed : Timed t) (phased : Phased t) (event : LinkEvent) : Timed (tracked t event).1 := by
  cases event with
  | «open» cfg =>
    by_cases tcp : cfg.type = .tcp
    · obtain ⟨-, -, timer, -⟩ := open_spec cfg tcp phased.closed
        fun notOpen => ⟨(phased.shut notOpen).1, (phased.shut notOpen).2.2.2⟩
      intro active
      have started : (t.1.ch.open cfg).2.1.reconnectTimer.active = true := active
      rw [timer] at started
      cases started
    · rw [tracked_refused tcp]
      exact timed
  | close =>
    have notOpen : (tracked t .close).1.1.ch.opened = false := close_opened phased.closed
    intro active
    cases (phased.close.shut notOpen).2.2.1.symm.trans active
  | socket event =>
    cases happens : t.1.happens event with
    | none => rwa [tracked_still happens]
    | some next =>
      rw [tracked_moved happens]
      have kept : (t.2.after event).jitter = t.2.jitter := by cases event <;> rfl
      intro active
      dsimp only
      rw [kept]
      exact timed active
  | deliver jitter =>
    obtain ⟨⟨ch, pending⟩, m⟩ := t
    cases pending with
    | nil => exact timed
    | cons signal rest =>
      rw [tracked_delivered]
      cases signal with
      | connected =>
        have isOpen := phased.isOpen (Or.inr (Or.inl (List.cons_ne_nil _ _)))
        intro active
        cases ((phased.phase isOpen).entry).symm.trans active
      | disconnected => exact (timed.slot { ch with connectedFlag := false } rfl rfl).1
      | errorOccurred err text =>
        rw [TcpChannel.onSignal]
        obtain ⟨lastError, recorded | scheduled⟩ := onErrorOccurred_cases ch jitter err text
        · rw [recorded]
          exact (timed.slot { ch with lastError } rfl rfl).2
        · rw [scheduled]
          exact (timed.slot { ch with lastError } rfl rfl).1
  | expire =>
    by_cases due : t.1.pending = [] ∧ t.1.ch.reconnectTimer.active = true
    · rw [phased.expired due.1 due.2]
      intro active
      cases active
    · rwa [tracked_early due]

theorem phased_start : Phased ({}, {}) :=
  ⟨rfl, (fun isOpen => by cases isOpen), (fun isOpen => by cases isOpen), fun _ => ⟨rfl, rfl, rfl, rfl⟩⟩

/-- What is pending after a slot has run is the rest of one phase's signals. -/
theorem Phase.last {ch : TcpChannel} {k : Nat} {signal : SocketSignal} {rest : List SocketSignal}
    (phase : Phase ch k (signal :: rest)) (socket : ch.socket = some .unconnected) :
    (∃ err text, signal = .errorOccurred err text ∧ rest = []) ∨ (signal = .disconnected ∧ rest = []) ∨
      ∃ errors, rest = errorSignals errors ++ [.disconnected] := by
  generalize split : signal :: rest = pending at phase
  cases phase with
  | attempting errors other => rcases other with other | other <;> cases other.symm.trans socket
  | entering other => cases other.symm.trans socket
  | up errors other => rcases other with other | other <;> cases other.symm.trans socket
  | dropping errors =>
    cases errors with
    | nil =>
      cases split
      exact Or.inr (Or.inl ⟨rfl, rfl⟩)
    | cons e later =>
      cases split
      exact Or.inr (Or.inr ⟨later, rfl⟩)
  | failing err text =>
    cases split
    exact Or.inl ⟨err, text, rfl, rfl⟩
  | waiting => cases split
  | stuck => cases split

theorem Persists.open (persists : Persists t) (cfg : ChannelConfig) : Persists (tracked t (.open cfg)).1 := by
  obtain ⟨⟨ch, pending⟩, m⟩ := t
  by_cases tcp : cfg.type = .tcp
  · have renewed : (tracked (⟨ch, pending⟩, m) (.open cfg)).1.2 = {} := if_pos tcp
    constructor
    · intro lost
      simp [renewed] at lost
    · intro _ _ lost
      simp [renewed] at lost
  · rw [tracked_refused tcp]
    exact ⟨persists.waits, persists.recovers⟩

theorem Persists.socket (persists : Persists t) (event : SocketEvent)
    (fails : FailsRecoverably t (.socket event)) : Persists (tracked t (.socket event)).1 := by
  cases happens : t.1.happens event with
  | none => rwa [tracked_still happens]
  | some next =>
    obtain ⟨s', signals⟩ := next
    obtain ⟨_, s, _, applies⟩ := Link.happens_some happens
    rw [tracked_moved happens]
    -- the socket becomes unconnected by a failed attempt or a lost connection only
    have becomes : s' = .unconnected →
        (∃ err text, event = .failed err text ∧ signals = [.errorOccurred err text]) ∨
          ∃ errors, signals = errorSignals errors ++ [.disconnected] := by
      rintro rfl
      cases event <;> cases s <;> cases applies <;> simp
    constructor
    · intro _ unconnected settled
      rcases becomes (Option.some.inj unconnected) with ⟨err, text, _, rfl⟩ | ⟨errors, rfl⟩
      · cases settled
      · simp at settled
    · intro err text lost unconnected only
      rcases becomes (Option.some.inj unconnected) with ⟨err', text', rfl, rfl⟩ | ⟨errors, rfl⟩
      · cases only
        exact fails (by rw [happens]; rfl) lost
      · simp [List.append_eq_singleton_iff] at only

theorem Persists.deliver (persists : Persists t) (phased : Phased t) (jitter : Int32) :
    Persists (tracked t (.deliver jitter)).1 := by
  obtain ⟨⟨ch, pending⟩, m⟩ := t
  cases pending with
  | nil => exact persists
  | cons signal rest =>
    have isOpen := phased.isOpen (Or.inr (Or.inl (List.cons_ne_nil _ _)))
    have notClosed := phased.closed isOpen
    have same := (onSignal_frame ch jitter signal).2.2.1
    rw [tracked_delivered]
    constructor
    · intro lost unconnected settled
      rw [LinkHistory.jittered_lost] at lost
      have socket := same.symm.trans unconnected
      rcases (phased.phase isOpen).last socket with ⟨err, text, rfl, _⟩ | ⟨rfl, _⟩ | ⟨errors, rfl⟩
      · have recoverable := persists.recovers err text lost socket (congrArg _ settled)
        simp only [TcpChannel.onSignal]
        rw [onErrorOccurred_unconnected jitter isOpen notClosed socket, if_pos recoverable]
        exact scheduleReconnect_active jitter isOpen notClosed
      · exact scheduleReconnect_active jitter isOpen notClosed
      · simp at settled
    · intro err text _ unconnected only
      have socket := same.symm.trans unconnected
      rcases (phased.phase isOpen).last socket with ⟨err', text', _, rfl⟩ | ⟨_, rfl⟩ | ⟨errors, rfl⟩
      · cases only
      · cases only
      · simp [List.append_eq_singleton_iff] at only

theorem Persists.expire (persists : Persists t) (phased : Phased t) : Persists (tracked t .expire).1 := by
  by_cases due : t.1.pending = [] ∧ t.1.ch.reconnectTimer.active = true
  · rw [phased.expired due.1 due.2]
    constructor
    · intro _ unconnected
      cases unconnected
    · intro _ _ _ unconnected
      cases unconnected
  · rwa [tracked_early due]

theorem Persists.step (persists : Persists t) (phased : Phased t) (event : LinkEvent)
    (fails : FailsRecoverably t event) : Persists (tracked t event).1 := by
  cases event with
  | «open» cfg => exact persists.open cfg
  | close =>
    constructor
    · intro lost
      cases lost
    · intro _ _ lost
      cases lost
  | socket event => exact persists.socket event fails
  | deliver jitter => exact persists.deliver phased jitter
  | expire => exact persists.expire phased

theorem persists_start : Persists ({}, {}) := by
  constructor
  · intro lost
    cases lost
  · intro _ _ lost
    cases lost

theorem reached_phased (es : List LinkEvent) : ∀ t ∈ reached tracked ({}, {}) es, Phased t ∧ Timed t := by
  apply reached_always tracked es (I := fun t => Phased t ∧ Timed t)
  · exact ⟨phased_start, fun active => nomatch active⟩
  · exact fun t event holds => ⟨holds.1.step event, holds.2.step holds.1 event⟩

end Steps

/-- An attempt for which the host is not found is reported, and nothing is under way from then on. -/
def NotFoundStops (t : Link × LinkHistory) : Prop :=
  ∀ text jitter, t.1.ch.socket = some .unconnected → t.1.pending = [.errorOccurred .hostNotFoundError text] →
    (tracked t (.deliver jitter)).2 = [.errorOccurred text] ∧ ¬(tracked t (.deliver jitter)).1.1.ch.UnderWay

/-- The running timer was started, up to the jitter, for the base doubled once for every failure but the
first, at most the greatest delay. -/
def BacksOff (t : Link × LinkHistory) : Prop :=
  let base := t.1.ch.reconnectBaseMs.1.toInt
  let greatest := t.1.ch.reconnectMaxMs.1.toInt
  base ≤ greatest → t.1.pending = [] → t.1.ch.reconnectTimer.active →
    1 ≤ t.2.failures ∧ t.1.ch.backoffMs.toInt = min greatest (base * 2 ^ (t.2.failures - 1)) ∧
      t.1.ch.reconnectTimer.intervalMs = (max 1 (t.1.ch.backoffMs + t.2.jitter)).toInt

instance : DecidablePred BacksOff := fun _ => inferInstanceAs (Decidable (_ → _ → _ → _ ∧ _ ∧ _))

theorem Phased.backsOff {t : Link × LinkHistory} (phased : Phased t) (timed : Timed t)
    (inRange : DoublesInRange t.1.ch.reconnectBaseMs.1.toInt t.1.ch.reconnectMaxMs.1.toInt) : BacksOff t := by
  intro ordered settled active
  obtain ⟨backs, failures, _⟩ := phased.expires (phased.isOpen (Or.inr (Or.inr active))) settled active
  refine ⟨failures, ?_, timed active⟩
  rw [backs (Int32.le_iff_toInt_le.mpr ordered) inRange]
  exact congrArg (Backoff.delay _ _) (Nat.sub_add_cancel failures).symm

theorem Phased.notFoundStops {t : Link × LinkHistory} (phased : Phased t) : NotFoundStops t := by
  obtain ⟨⟨ch, pending⟩, m⟩ := t
  rintro text jitter socket rfl
  have isOpen := phased.isOpen (Or.inr (Or.inl (List.cons_ne_nil _ _)))
  have reported : ch.onErrorOccurred .hostNotFoundError text jitter =
      ({ ch with lastError := text }, [.errorOccurred text]) :=
    onErrorOccurred_unconnected jitter isOpen (phased.closed isOpen) socket _ _
  have stopped := (phased.phase isOpen).failure socket
  rw [tracked_delivered, TcpChannel.onSignal, reported]
  refine ⟨rfl, ?_⟩
  rintro (connected | lookup | connecting | active)
  · cases stopped.2.symm.trans connected
  · cases socket.symm.trans lookup
  · cases socket.symm.trans connecting
  · cases stopped.1.symm.trans active

/-- What an open channel does after it has lost its connection. -/
theorem reconnects (es : List LinkEvent) :
    ((∀ v ∈ visits tracked ({}, {}) es, FailsRecoverably v.1 v.2) → ∀ t ∈ reached tracked ({}, {}) es, Live t) ∧
      ∀ t ∈ reached tracked ({}, {}) es, NotFoundStops t ∧
        (DoublesInRange t.1.ch.reconnectBaseMs.1.toInt t.1.ch.reconnectMaxMs.1.toInt → BacksOff t) := by
  constructor
  · intro fails t member
    have both := reached_invariant tracked es (I := fun t => Phased t ∧ Persists t) ⟨phased_start, persists_start⟩
      (fun t event holds recoverable => ⟨holds.1.step event, holds.2.step holds.1 event recoverable⟩) fails t member
    exact both.1.live both.2
  · intro t member
    obtain ⟨phased, timed⟩ := reached_phased es t member
    exact ⟨phased.notFoundStops, phased.backsOff timed⟩

/-- A link that comes up, is lost and does not find its host again. -/
def hostGone : List LinkEvent :=
  [.open { type := .tcp }, .socket .lookedUp, .socket .established, .deliver 0, .socket (.lost []), .deliver 0,
    .expire, .socket (.failed .hostNotFoundError "Host not found"), .deliver 0]

/-- A link that comes up, is lost and is refused once. -/
def refusedOnce (base max : Int32) : List LinkEvent :=
  [.open { type := .tcp, reconnectBaseMs := base, reconnectMaxMs := max }, .socket .lookedUp, .socket .established,
    .deliver 0, .socket (.lost [(.remoteHostClosedError, "closed")]), .deliver 0, .deliver 0, .expire,
    .socket .lookedUp, .socket (.failed .connectionRefusedError "refused"), .deliver 0]

theorem hostGone_stops : ¬(∀ t ∈ reached tracked ({}, {}) hostGone, Live t) ∧
    ¬∀ t ∈ reached tracked ({}, {}) (refusedOnce 1073741824 2147483647), BacksOff t := by
  decide

theorem reconnects_refusedOnce :
    (∀ t ∈ reached tracked ({}, {}) (refusedOnce 1000 30000), Live t) ∧
      (run tracked ({}, {}) (refusedOnce 1000 30000)).1.ch.backoffMs = 2000 :=
  ⟨(reconnects (refusedOnce 1000 30000)).1 (by decide), by decide⟩

end EnerSentry.Channel
