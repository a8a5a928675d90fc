import Mathlib.Tactic.Abel
import EnerSentry.App.ControlPath

/-!
What one step does to the writes that are on their way. A write moves from the machine to the posted calls, from
there to a connection, and from a connection to a device; nothing on this way makes two of it. So the devices
are given no more writes than there are commands, and the commands are no more than the selects and the operates
of the operators.
-/

namespace EnerSentry.App
open EnerSentry.Lib EnerSentry.Lib.Packing EnerSentry.Protocol EnerSentry.Business EnerSentry.Sim
open SboContext (commandsOf)

section Frames
variable {req : ModbusRequest} {pdu : List UInt8} {asked : DeviceRequest}

/-- A request is sent whole or not at all. -/
theorem framed_request (tcp : req.transport = .tcp)
    (short : ∀ pdu, requestPdu req = some pdu → pdu ≠ [] ∧ pdu.length ≤ 255) :
    buildRequest req = [] ∨ ∃ hdr pdu, requestPdu req = some pdu ∧ hdr.unitId = req.slaveAddress ∧
      WholeRequest (buildRequest req) hdr pdu := by
  by_cases built : buildRequest req = []
  · exact Or.inl built
  · obtain ⟨pdu, encoded, -⟩ := built_frame built
    obtain ⟨filled, fits⟩ := short pdu encoded
    exact Or.inr ⟨_, pdu, encoded, rfl, wholeRequest_built tcp encoded filled fits built⟩

theorem whole_request (tcp : req.transport = .tcp)
    (short : ∀ pdu, requestPdu req = some pdu → pdu ≠ [] ∧ pdu.length ≤ 255) :
    buildRequest req = [] ∨ ∃ hdr pdu, WholeRequest (buildRequest req) hdr pdu := by
  rcases framed_request tcp short with built | ⟨hdr, pdu, -, -, whole⟩
  · exact Or.inl built
  · exact Or.inr ⟨hdr, pdu, whole⟩

/-- The write in a frame is what the request encodes. -/
theorem writeIn_request (tcp : req.transport = .tcp)
    (short : ∀ pdu, requestPdu req = some pdu → pdu ≠ [] ∧ pdu.length ≤ 255)
    (write : Wire.writeIn (buildRequest req) = some asked) :
    ∃ pdu, requestPdu req = some pdu ∧ asWrite (req.slaveAddress, pdu) = some asked := by
  rcases framed_request tcp short with built | ⟨hdr, pdu, encoded, unit, whole⟩
  · rw [built] at write
    cases write
  · rw [Wire.writeIn, whole.read, Option.bind_some, requestOf, unit] at write
    exact ⟨pdu, encoded, write⟩

theorem encodes_read (read : isReadCode req.functionCode = true) (encoded : requestPdu req = some pdu) :
    pdu = req.functionCode :: (writeU16BE req.startingAddress ++ writeU16BE req.quantity) := by
  simp only [requestPdu, read, if_true] at encoded
  split at encoded
  · cases encoded
  · exact (Option.some.inj encoded).symm

section Reads
variable {K : Type} (seg : Segment K) (tid : UInt16)

theorem requestPdu_read (encoded : requestPdu { readRequest seg with transactionId := tid } = some pdu) :
    pdu = fcForRead seg.rt :: (writeU16BE seg.startAddr ++ writeU16BE seg.qty) := by
  have read : isReadCode (fcForRead seg.rt) = true := by cases seg.rt <;> rfl
  exact encodes_read read encoded

theorem short_read (pdu : List UInt8) (encoded : requestPdu { readRequest seg with transactionId := tid } = some pdu) :
    pdu ≠ [] ∧ pdu.length ≤ 255 := by
  rw [requestPdu_read seg tid encoded]
  exact ⟨List.cons_ne_nil _ _, Nat.le_of_ble_eq_true rfl⟩

/-- A poll writes nothing. -/
theorem writeIn_read : Wire.writeIn (buildRequest { readRequest seg with transactionId := tid }) = none := by
  by_contra write
  obtain ⟨asked, write⟩ := Option.ne_none_iff_exists'.mp write
  obtain ⟨pdu, encoded, passes⟩ := writeIn_request rfl (short_read seg tid) write
  rw [requestPdu_read seg tid encoded, asWrite] at passes
  have read : isWriteCode (fcForRead seg.rt) = false := by cases seg.rt <;> rfl
  rw [List.headD_cons, read, if_neg Bool.false_ne_true] at passes
  cases passes

end Reads

section Commands
variable (cmd : SboCommand) (tid : UInt16)

theorem requestPdu_command : requestPdu { sboRequest cmd with transactionId := tid } = some (commandWrite cmd).2 := rfl

theorem short_command (pdu : List UInt8)
    (encoded : requestPdu { sboRequest cmd with transactionId := tid } = some pdu) :
    pdu ≠ [] ∧ pdu.length ≤ 255 := by
  obtain rfl := Option.some.inj ((requestPdu_command cmd tid).symm.trans encoded)
  exact ⟨List.cons_ne_nil _ _, Nat.le_of_ble_eq_true rfl⟩

/-- A command writes its own value at its own place. -/
theorem writeIn_command (write : Wire.writeIn (sboFrame cmd tid) = some asked) : asked = commandWrite cmd := by
  obtain ⟨pdu, encoded, passes⟩ := writeIn_request rfl (short_command cmd tid) write
  obtain rfl := Option.some.inj ((requestPdu_command cmd tid).symm.trans encoded)
  exact (Option.some.inj passes).symm

end Commands
end Frames

section Handing
variable {K : Type}

/-- The commands among the outputs of the application. -/
def commandsOut (out : List (AppOutput K)) : List SboCommand := out.filterMap issuedBy

def writesHanded (out : List (AppOutput K)) : List DeviceRequest :=
  ((handedOver out).map buildRequest).filterMap Wire.writeIn

/-- What the channel takes is built whole, and its writes come from the commands that were posted, in order. -/
structure Hands (a a' : EnerSentryApp K) (out : List (AppOutput K)) : Prop where
  whole : ∀ r ∈ handedOver out, buildRequest r = [] ∨ ∃ hdr pdu, WholeRequest (buildRequest r) hdr pdu
  writes : (writesHanded out ++ (commandsPosted a'.posted).map commandWrite).Sublist
    ((commandsPosted a.posted).map commandWrite ++ (commandsOut out).map commandWrite)

variable {a a' : EnerSentryApp K} {out : List (AppOutput K)}

theorem Hands.total (hands : Hands a a' out) :
    (writesHanded out : Multiset DeviceRequest) + (commandsPosted a'.posted : Multiset SboCommand).map commandWrite ≤
      (commandsPosted a.posted : Multiset SboCommand).map commandWrite +
        (commandsOut out : Multiset SboCommand).map commandWrite := hands.writes.subperm

/-- A step that hands nothing over. -/
theorem Hands.of_none (none : handedOver out = [])
    (posted : (commandsPosted a'.posted).Sublist (commandsPosted a.posted ++ commandsOut out)) : Hands a a' out := by
  constructor
  · rw [none]
    exact List.forall_mem_nil _
  · rw [writesHanded, none, ← List.map_append]
    exact posted.map commandWrite

theorem handedOver_sbo (signals : List SboSignal) :
    handedOver (signals.map (AppOutput.sbo (K := K))) = [] := by
  rw [handedOver, List.filterMap_map]
  exact List.filterMap_eq_nil_iff.mpr fun _ _ => rfl

theorem commandsOut_sbo (signals : List SboSignal) :
    commandsOut (signals.map (AppOutput.sbo (K := K))) = commandsOf signals := by
  rw [commandsOut]
  induction signals with
  | nil => rfl
  | cons signal signals ih =>
    rw [List.map_cons, List.filterMap_cons, ih]
    cases signal <;> rfl

theorem commandsOut_worker (out : List (PollOutput K)) : commandsOut (out.map .worker) = [] := by
  rw [commandsOut, List.filterMap_map]
  exact List.filterMap_eq_nil_iff.mpr fun _ _ => rfl

/-- The channel refused what it was offered. -/
theorem handedOver_refused {out : List (PollOutput K)} (refused : ∀ linkId req n, .written linkId req n ∈ out → n < 0) :
    handedOver (out.map .worker) = [] := by
  rw [handedOver, List.filterMap_map]
  apply List.filterMap_eq_nil_iff.mpr
  intro o member
  cases o with
  | written linkId req n => exact if_neg (Int.not_le.mpr (refused linkId req n member))
  | _ => rfl

theorem handedOver_written (linkId : UInt32) (req : ModbusRequest) (n : Int) :
    handedOver [AppOutput.worker (K := K) (.written linkId req n)] = if 0 ≤ n then [req] else [] := by
  by_cases taken : 0 ≤ n <;> simp [handedOver, taken]

/-- A step that offers the channel one request, and answers for its write. -/
theorem Hands.of_written {linkId : UInt32} {req : ModbusRequest} {n : Int}
    (whole : buildRequest req = [] ∨ ∃ hdr pdu, WholeRequest (buildRequest req) hdr pdu)
    (writes : ((Wire.writeIn (buildRequest req)).toList ++ (commandsPosted a'.posted).map commandWrite).Sublist
      ((commandsPosted a.posted).map commandWrite)) :
    Hands a a' [.worker (.written linkId req n)] := by
  have handed := handedOver_written (K := K) linkId req n
  have all := writes.trans (List.sublist_append_left _ ((commandsOut [AppOutput.worker (K := K)
    (.written linkId req n)]).map commandWrite))
  by_cases taken : 0 ≤ n
  · rw [if_pos taken] at handed
    constructor
    · rw [handed]
      exact List.forall_mem_singleton.mpr whole
    · have asked : writesHanded [AppOutput.worker (K := K) (.written linkId req n)] =
          (Wire.writeIn (buildRequest req)).toList := by
        rw [writesHanded, handed, List.map_singleton]
        cases write : Wire.writeIn (buildRequest req) <;> simp [write]
      rw [asked]
      exact all
  · rw [if_neg taken] at handed
    constructor
    · rw [handed]
      exact List.forall_mem_nil _
    · rw [writesHanded, handed]
      exact (List.sublist_append_right _ _).trans all

end Handing

namespace PollWorld
variable {K : Type} [Zero K] [One K] [Add K] [Mul K] {cv : Conversions K} {w : PollWorld K} {clock : Clock}
  {linkId : UInt32} {req : ModbusRequest} {n : Int}

/-- What arrives makes the driver write nothing. -/
theorem not_written_onSignal (signal : EngineSignal) : .written linkId req n ∉ (w.onSignal cv clock signal).2 := by
  cases signal with
  | responseParsed link slave resp =>
    simp only [onSignal, onResponseParsed]
    split
    · exact List.not_mem_nil
    · split
      · exact List.not_mem_nil
      · split <;> simp [settle]
  | frameError link slave kind =>
    simp only [onSignal, onFrameError]
    split <;> simp [settle]

theorem not_written_onBytesReceived (data : List UInt8) :
    .written linkId req n ∉ (w.onBytesReceived cv clock data).2 := by
  intro written
  obtain ⟨frame, -, within⟩ := Runs.mem_outputs_iff.mp written
  obtain ⟨signal, -, reported⟩ := Runs.mem_outputs_iff.mp within
  exact not_written_onSignal _ reported

end PollWorld

namespace EnerSentryApp
section Operators
variable {K : Type} {a : EnerSentryApp K} {e : AppEvent}

/-- The select that reaches the machine is one that was submitted. -/
theorem selected_of_sboEvent {req : SboSelectRequest} {operatorName : String} {nowMs : Int}
    (reaches : a.sboEvent e = some (.submitSelect req operatorName nowMs)) :
    selected (.app e) = some req.command := by
  cases e with
  | submitSboSelect slaveId registerAddr value emergency nowMs =>
    obtain ⟨rfl, -⟩ := by simpa [sboEvent] using reaches
    rfl
  | handleReport => cases pending : a.reports <;> simp [sboEvent, pending] at reaches
  | _ => simp [sboEvent] at reaches

theorem operate_of_sboEvent {sequenceId : String} (reaches : a.sboEvent e = some (.submitOperate sequenceId)) :
    isOperate (.app e) = true := by
  cases e with
  | submitSboOperate own => rfl
  | handleReport => cases pending : a.reports <;> simp [sboEvent, pending] at reaches
  | _ => simp [sboEvent] at reaches

/-- The command of the live selection. -/
def commandLive (live : Option (String × SboSelectRequest)) : List SboCommand := (live.map (·.2.command)).toList

end Operators

section Steps
variable {K : Type} [Zero K] [One K] [Add K] [Mul K] {cv : Conversions K} {a : EnerSentryApp K} {e : AppEvent}

/-- What the main thread puts out are the signals of the machine. -/
theorem outputs_main {event : SboEvent} (reaches : a.sboEvent e = some event) :
    commandsOut (step cv a e).2 = commandsOf (a.sbo.stepMachine event).2 ∧ handedOver (step cv a e).2 = [] := by
  cases e with
  | handleReport =>
    cases pending : a.reports with
    | nil => simp [sboEvent, pending] at reaches
    | cons connected reports =>
      obtain rfl : SboEvent.linkStatusChanged connected = event := by
        simpa [sboEvent, pending] using reaches
      cases connected <;> simp [step, pending, onChannelConnectionChanged, onSbo, SboContext.stepMachine,
        commandsOut, issuedBy, handedOver, commandsOf]
  | runPosted channel => simp [sboEvent] at reaches
  | connectionChanged connected => simp [sboEvent] at reaches
  | tick channel => simp [sboEvent] at reaches
  | bytes clock data => simp [sboEvent] at reaches
  | _ =>
    obtain rfl := Option.some.inj reaches
    exact ⟨commandsOut_sbo _, handedOver_sbo _⟩

/-- The worker puts out no command. -/
theorem commandsOut_misses (misses : a.sboEvent e = none) : commandsOut (step cv a e).2 = [] := by
  cases e with
  | handleReport =>
    cases pending : a.reports with
    | nil => simp [step, pending, commandsOut]
    | cons connected reports => simp [sboEvent, pending] at misses
  | runPosted channel =>
    cases pending : a.posted with
    | nil => simp [step, pending, commandsOut]
    | cons call posted =>
      simp only [step, pending]
      exact commandsOut_worker _
  | connectionChanged connected => exact commandsOut_worker _
  | tick channel => exact commandsOut_worker _
  | bytes clock data => exact commandsOut_worker _
  | _ => simp [sboEvent] at misses

/-- The write of a command takes the command from those posted. -/
theorem hands_command (tcp : a.worker.engine.transport = .tcp) {channel : Channel} {cmd : SboCommand}
    {later : List PostedCall} (posted : a.posted = .sboCommand cmd :: later) :
    Hands a (step cv a (.runPosted channel)).1 (step cv a (.runPosted channel)).2 := by
  have calls : (step cv a (.runPosted channel)).1.posted = a.posted.tail := posted_worker rfl
  have waited : commandsPosted a.posted = cmd :: commandsPosted a.posted.tail := by
    rw [posted]
    rfl
  have out : (step cv a (.runPosted channel)).2 = (a.worker.write channel (sboRequest cmd) 1).2.2.map .worker :=
    outputs_command (s := (a, {})) posted
  have wrote := ModbusEngine.write_cases a.worker.engine (some channel) (sboRequest cmd) 1
  simp only [PollWorld.write] at out
  rw [out]
  generalize a.worker.engine.writeRequest (some channel) (sboRequest cmd) 1 = written at wrote
  have silent : Hands a (step cv a (.runPosted channel)).1 [] := by
    apply Hands.of_none rfl
    rw [calls, waited]
    exact (List.sublist_cons_self _ _).trans (List.sublist_append_left _ _)
  cases wrote with
  | paired pairs c present tid nonzero free built =>
    have own : (Wire.writeIn (sboFrame cmd tid)).toList.Sublist [commandWrite cmd] := by
      cases write : Wire.writeIn (sboFrame cmd tid) with
      | none => exact List.nil_sublist _
      | some asked =>
        obtain rfl := writeIn_command cmd tid write
        exact List.Sublist.refl _
    apply Hands.of_written
    · exact whole_request rfl (short_command cmd tid)
    · rw [calls, waited, List.map_cons]
      exact own.append (List.Sublist.refl _)
  | passed unpaired c present built => exact absurd ⟨tcp, rfl⟩ unpaired
  | _ => exact silent

theorem hands_tick (channel : Channel) :
    Hands a (step cv a (.tick channel)).1 (step cv a (.tick channel)).2 := by
  obtain ⟨-, refused⟩ | ⟨index, seg, tid, n, polls⟩ := PollWorld.onTimeout_cases a.worker channel
  · exact Hands.of_none (handedOver_refused refused) (List.sublist_append_left _ _)
  · have out : (step cv a (.tick channel)).2 =
        [.worker (.written seg.slave.toUInt32 { readRequest seg with transactionId := tid } n)] :=
      congrArg (List.map AppOutput.worker) polls.written
    rw [out]
    apply Hands.of_written
    · exact whole_request rfl (short_read seg tid)
    · rw [writeIn_read]
      exact List.Sublist.refl _

variable (cv e)

theorem hands_step (tcp : a.worker.engine.transport = .tcp) : Hands a (step cv a e).1 (step cv a e).2 := by
  cases reaches : a.sboEvent e with
  | some event =>
    apply Hands.of_none (outputs_main reaches).2
    rw [(step_main reaches).2, (outputs_main reaches).1]
  | none =>
    have calls : (step cv a e).1.posted = _ := posted_worker reaches
    cases e with
    | handleReport =>
      cases pending : a.reports with
      | nil => exact Hands.of_none (by simp [step, pending, handedOver]) (calls ▸ List.sublist_append_left _ _)
      | cons connected reports => simp [sboEvent, pending] at reaches
    | runPosted channel =>
      cases posted : a.posted with
      | nil => exact Hands.of_none (by simp [step, posted, handedOver]) (calls ▸ posted ▸ List.sublist_append_left _ _)
      | cons call later =>
        cases call with
        | sboCommand cmd => exact hands_command tcp posted
        | _ =>
          apply Hands.of_none
          · simp only [step, posted]
            rfl
          · rw [calls, posted]
            exact List.sublist_append_left _ _
    | connectionChanged connected => exact Hands.of_none rfl (calls ▸ List.sublist_append_left _ _)
    | tick channel => exact hands_tick channel
    | bytes clock data =>
      apply Hands.of_none
      · exact handedOver_refused fun _ _ _ written => absurd written (PollWorld.not_written_onBytesReceived data)
      · exact calls ▸ List.sublist_append_left _ _
    | _ => simp [sboEvent] at reaches

/-- A command that goes out uses the selection up, and a selection is made by a select only. -/
theorem selection_step {live : Option (String × SboSelectRequest)} (armed : a.sbo.Selected live) :
    ∃ after, (step cv a e).1.sbo.Selected after ∧ (commandsOut (step cv a e).2 ++ commandLive after).Sublist
      (commandLive live ++ (selected (.app e)).toList) := by
  cases reaches : a.sboEvent e with
  | none =>
    refine ⟨live, ?_, ?_⟩
    · rw [(step_worker reaches).1]
      exact armed
    · rw [commandsOut_misses reaches]
      exact List.sublist_append_left _ _
  | some event =>
    refine ⟨a.sbo.selectionAfter live event, ?_, ?_⟩
    · rw [(step_sbo reaches).1]
      exact SboContext.selected_step armed event
    · rw [(outputs_main reaches).1]
      rcases armed.commands event with silent | ⟨id, req, rfl, accepted, -, -, same, sent⟩
      · rw [silent, List.nil_append]
        cases now : a.sbo.selectionAfter live event with
        | none => exact List.nil_sublist _
        | some x =>
          rcases selectionAfter_origin now with had | ⟨operatorName, nowMs, rfl⟩
          · rw [Option.mem_def.mp had]
            exact List.sublist_append_left _ _
          · rw [selected_of_sboEvent reaches]
            exact List.sublist_append_right _ _
      · have used : a.sbo.selectionAfter live (.submitOperate id) = none := if_pos accepted
        rw [used, sent, same]
        exact List.sublist_append_left _ _

/-- A command goes out at an operate only. -/
theorem operates_step {live : Option (String × SboSelectRequest)} (armed : a.sbo.Selected live) :
    (commandsOut (step cv a e).2).length ≤ [PlantEvent.app e].countP isOperate := by
  cases reaches : a.sboEvent e with
  | none =>
    rw [commandsOut_misses reaches]
    exact Nat.zero_le _
  | some event =>
    rw [(outputs_main reaches).1]
    rcases armed.commands event with silent | ⟨id, req, rfl, -, -, -, -, sent⟩
    · rw [silent]
      exact Nat.zero_le _
    · rw [sent, List.countP_singleton, if_pos (operate_of_sboEvent reaches)]
      exact Nat.le_refl _

end Steps
end EnerSentryApp

namespace Plant
variable {K : Type}

/-- The writes that wait on the connection of the application. -/
def waits (p : Plant K) : List DeviceRequest := p.wire.toList.flatMap Wire.waits

/-- The writes that wait on all connections. -/
def waiting (p : Plant K) : Multiset DeviceRequest := ((p.wire.toList ++ p.lost).map Wire.waiting).sum

/-- What has been done, what is on its way and what may yet be done, in the commands and in the writes. -/
structure Balanced (p : Plant K) (events : List PlantEvent) (out : List (PlantOutput K)) : Prop where
  transport : p.app.worker.engine.transport = .tcp
  framed : ∀ w ∈ p.wire, w.Framed
  selection : ∃ live, p.app.sbo.Selected live ∧
    (commandsInOrder out ++ EnerSentryApp.commandLive live).Sublist (events.filterMap selected)
  operates : (commandsInOrder out).length ≤ events.countP isOperate
  writes : writesServed out + p.waiting + (commandsPosted p.app.posted : Multiset SboCommand).map commandWrite ≤
    (commandsIssued out).map commandWrite

section Connections
variable {p : Plant K} {frames : List (List UInt8)}

theorem app_relink (p : Plant K) (e : AppEvent) : (p.relink e).app = p.app := by
  cases e with
  | connectionChanged connected => cases connected <;> rfl
  | _ => rfl

theorem waiting_relink (p : Plant K) (e : AppEvent) : (p.relink e).waiting = p.waiting := by
  cases e with
  | connectionChanged connected =>
    cases connected
    · rfl
    · rw [waiting, waiting]
      exact zero_add _
  | _ => rfl

theorem framed_relink (framed : ∀ w ∈ p.wire, w.Framed) (e : AppEvent) : ∀ w ∈ (p.relink e).wire, w.Framed := by
  cases e with
  | connectionChanged connected =>
    cases connected
    · intro w member
      cases member
    · intro w member
      obtain rfl := Option.some.inj member
      exact ⟨[], rfl, List.forall_mem_nil _⟩
  | _ => exact framed

theorem waits_relink (p : Plant K) (e : AppEvent) : (p.relink e).waits.Sublist p.waits := by
  cases e with
  | connectionChanged connected => cases connected <;> exact List.nil_sublist _
  | _ => exact List.Sublist.refl _

theorem waiting_eq (p : Plant K) : p.waiting = p.waits + (p.lost.map Wire.waiting).sum := by
  rw [waiting, waits, List.map_append, List.sum_append]
  cases p.wire with
  | none => rfl
  | some w => rw [Option.toList_some, List.map_singleton, List.sum_singleton, List.flatMap_singleton, Wire.waiting]

/-- What is sent waits on the connection, if there is one. -/
theorem send_whole (framed : ∀ w ∈ p.wire, w.Framed) {requests : List ModbusRequest}
    (whole : ∀ r ∈ requests, buildRequest r = [] ∨ ∃ hdr pdu, WholeRequest (buildRequest r) hdr pdu) :
    (∀ w ∈ (p.send requests).wire, w.Framed) ∧
      (p.send requests).waits.Sublist (p.waits ++ (requests.map buildRequest).filterMap Wire.writeIn) := by
  cases open' : p.wire with
  | none =>
    constructor
    · intro w member
      simp [send, open'] at member
    · simp only [waits, send, open', Option.map_none]
      exact List.nil_sublist _
  | some w =>
    have sent := Wire.waits_send (framed w open') (List.forall_mem_map.mpr whole)
    rw [← List.flatMap_def] at sent
    constructor
    · intro later member
      obtain rfl : _ = later := by simpa [send, open'] using member
      exact sent.1
    · simp only [waits, send, open', Option.map_some, Option.toList_some, List.flatMap_singleton]
      exact sent.2

theorem waiting_send {requests : List ModbusRequest} {writes : List DeviceRequest}
    (less : (p.send requests).waits.Sublist (p.waits ++ writes)) :
    (p.send requests).waiting ≤ p.waiting + (writes : Multiset DeviceRequest) := by
  have own : ((p.send requests).waits : Multiset DeviceRequest) ≤ p.waits + (writes : Multiset DeviceRequest) :=
    less.subperm
  rw [waiting_eq, waiting_eq, add_right_comm]
  exact add_le_add_left own _

/-- A turn on one of several connections takes what it serves from what waits on them. -/
theorem sum_waiting_set {served : Multiset DeviceRequest} {w after : Wire} (less : served + after.waiting ≤ w.waiting)
    (wires : List Wire) (i : Nat) (found : wires[i]? = some w) :
    served + ((wires.set i after).map Wire.waiting).sum ≤ (wires.map Wire.waiting).sum := by
  induction wires generalizing i with
  | nil => cases found
  | cons first wires ih =>
    cases i with
    | zero =>
      obtain rfl : first = w := Option.some.inj found
      simp only [List.set_cons_zero, List.map_cons, List.sum_cons]
      rw [← add_assoc]
      exact add_le_add_left less _
    | succ i =>
      simp only [List.set_cons_succ, List.map_cons, List.sum_cons]
      rw [add_left_comm]
      exact add_le_add_right (ih i found) _

theorem sum_waiting_modify (n : Nat) (wires : List Wire) (i : Nat) :
    ((wires.modify i fun w => { w with upstream := w.upstream.take n }).map Wire.waiting).sum ≤
      (wires.map Wire.waiting).sum := by
  induction wires generalizing i with
  | nil => cases i <;> exact le_refl _
  | cons first wires ih =>
    cases i with
    | zero =>
      simp only [List.modify_zero_cons, List.map_cons, List.sum_cons]
      exact add_le_add_left (first.waiting_cut n) _
    | succ i =>
      simp only [List.modify_succ_cons, List.map_cons, List.sum_cons]
      exact add_le_add_right (ih i) _

end Connections

section Histories
variable (out : List (PlantOutput K)) (asked : List DeviceRequest) (own : List (AppOutput K))

theorem commandsInOrder_served : commandsInOrder (out ++ asked.map .request) = commandsInOrder out := by
  rw [commandsInOrder, List.filterMap_append, List.filterMap_map]
  exact List.append_right_eq_self.mpr (List.filterMap_eq_nil_iff.mpr fun _ _ => rfl)

theorem writesInOrder_served :
    writesInOrder (out ++ asked.map .request) = writesInOrder out ++ asked.filterMap asWrite := by
  rw [writesInOrder, List.filterMap_append, List.filterMap_map]
  rfl

theorem commandsInOrder_own : commandsInOrder (out ++ own.map .app) = commandsInOrder out ++ commandsOut own := by
  rw [commandsInOrder, List.filterMap_append, List.filterMap_map]
  rfl

theorem writesInOrder_own : writesInOrder (out ++ own.map .app) = writesInOrder out := by
  rw [writesInOrder, List.filterMap_append, List.filterMap_map]
  exact List.append_right_eq_self.mpr (List.filterMap_eq_nil_iff.mpr fun _ _ => rfl)

theorem selected_append (events : List PlantEvent) (event : PlantEvent) :
    (events ++ [event]).filterMap selected = events.filterMap selected ++ (selected event).toList := by
  rw [List.filterMap_append]
  cases found : selected event <;> simp [found]

end Histories

section Steps
variable {p p' : Plant K} {events : List PlantEvent} {out : List (PlantOutput K)}

theorem balanced_started (points : List (PointRuntime K)) (pollIntervalMs : Int) (pidSeq : UInt64)
    (bank : RegisterBank) : Balanced (started points pollIntervalMs pidSeq bank) [] [] where
  transport := rfl
  framed := by
    intro w member
    cases member
  selection := by
    refine ⟨none, ?_, List.nil_sublist _⟩
    intro armed
    cases armed
  operates := Nat.zero_le _
  writes := Multiset.zero_le _

/-- What happens on the connections concerns the writes that wait on them. -/
theorem Balanced.served (balanced : Balanced p events out) (event : PlantEvent) {asked : List DeviceRequest}
    (app : p'.app = p.app) (framed : ∀ w ∈ p'.wire, w.Framed)
    (less : (asked.filterMap asWrite : Multiset DeviceRequest) + p'.waiting ≤ p.waiting) :
    Balanced p' (events ++ [event]) (out ++ asked.map .request) where
  transport := app ▸ balanced.transport
  framed := framed
  selection := by
    obtain ⟨live, armed, commands⟩ := balanced.selection
    refine ⟨live, app ▸ armed, ?_⟩
    rw [commandsInOrder_served, selected_append]
    exact commands.trans (List.sublist_append_left _ _)
  operates := by
    rw [commandsInOrder_served, List.countP_append]
    exact balanced.operates.trans (Nat.le_add_right _ _)
  writes := by
    rw [writesServed, commandsIssued, commandsInOrder_served, writesInOrder_served, app, ← Multiset.coe_add,
      add_assoc _ _ p'.waiting]
    exact (add_le_add_left (add_le_add_right less _) _).trans balanced.writes

/-- A step that serves nothing. -/
theorem Balanced.quiet (balanced : Balanced p events out) (event : PlantEvent) (app : p'.app = p.app)
    (framed : ∀ w ∈ p'.wire, w.Framed) (less : p'.waiting ≤ p.waiting) :
    Balanced p' (events ++ [event]) (out ++ []) := by
  have none : (([] : List DeviceRequest).filterMap asWrite : Multiset DeviceRequest) + p'.waiting ≤ p.waiting :=
    (zero_add _).trans_le less
  exact balanced.served event app framed none

variable [Zero K] [One K] [Add K] [Mul K] {cv : Conversions K} {slaves : List UInt8}
  {effect : RegisterBank → UInt8 → FaultEffect Nat}

theorem Balanced.step_app (balanced : Balanced p events out) (e : AppEvent) :
    Balanced (step cv slaves effect p (.app e)).1 (events ++ [.app e])
      (out ++ (step cv slaves effect p (.app e)).2) := by
  have hands := EnerSentryApp.hands_step cv (e.over p.channel) balanced.transport
  obtain ⟨live, armed, commands⟩ := balanced.selection
  obtain ⟨after, still, moved⟩ := EnerSentryApp.selection_step cv (e.over p.channel) armed
  have issues := EnerSentryApp.operates_step cv (e.over p.channel) armed
  have asks : selected (.app (e.over p.channel)) = selected (.app e) := by cases e <;> rfl
  have counts : isOperate (.app (e.over p.channel)) = isOperate (.app e) := by cases e <;> rfl
  have transports : (EnerSentryApp.step cv p.app (e.over p.channel)).1.worker.engine.transport =
      p.app.worker.engine.transport := EnerSentryApp.transport_step
  simp only [step]
  generalize EnerSentryApp.step cv p.app (e.over p.channel) = done at hands still moved issues transports
  obtain ⟨framed, waits⟩ := send_whole (p := { p with app := done.1 }) balanced.framed hands.whole
  have app : (({ p with app := done.1 }.send (handedOver done.2)).relink e).app = done.1 := app_relink _ e
  refine ⟨?_, framed_relink framed e, ⟨after, ?_, ?_⟩, ?_, ?_⟩
  · rw [app, transports]
    exact balanced.transport
  · rw [app]
    exact still
  · rw [commandsInOrder_own, selected_append, ← asks, List.append_assoc]
    have kept := (List.Sublist.refl (commandsInOrder out)).append moved
    rw [← List.append_assoc (commandsInOrder out) (EnerSentryApp.commandLive live)] at kept
    exact kept.trans (commands.append (List.Sublist.refl _))
  · rw [commandsInOrder_own, List.length_append, List.countP_append]
    apply Nat.add_le_add balanced.operates
    rw [List.countP_singleton, ← counts, ← List.countP_singleton]
    exact issues
  · rw [writesServed, commandsIssued, commandsInOrder_own, writesInOrder_own, app, waiting_relink, ← Multiset.coe_add,
      Multiset.map_add]
    calc
      _ ≤ writesServed out + (p.waiting + writesHanded done.2) +
          (commandsPosted done.1.posted : Multiset SboCommand).map commandWrite :=
        add_le_add_left (add_le_add_right (waiting_send waits) _) _
      _ = writesServed out + p.waiting +
          (writesHanded done.2 + (commandsPosted done.1.posted : Multiset SboCommand).map commandWrite) := by
        rw [add_assoc, add_assoc, add_assoc]
      _ ≤ writesServed out + p.waiting + ((commandsPosted p.app.posted : Multiset SboCommand).map commandWrite +
          (commandsOut done.2 : Multiset SboCommand).map commandWrite) := add_le_add_right hands.total _
      _ ≤ _ := by
        rw [← add_assoc]
        exact add_le_add_left balanced.writes _

theorem Balanced.step (balanced : Balanced p events out) (event : PlantEvent) :
    Balanced (step cv slaves effect p event).1 (events ++ [event]) (out ++ (step cv slaves effect p event).2) := by
  cases event with
  | app e => exact balanced.step_app e
  | publish slave regs =>
    apply balanced.quiet
    · rfl
    · exact balanced.framed
    · exact le_refl _
  | serve =>
    cases found : p.wire with
    | none =>
      simp only [Plant.step, found]
      exact balanced.quiet .serve rfl balanced.framed (le_refl _)
    | some w =>
      have turned := w.turned slaves effect p.bank
      simp only [Plant.step, found]
      apply balanced.served
      · rfl
      · intro after member
        obtain rfl := Option.some.inj member
        exact turned.framed (balanced.framed w found)
      · simp only [waiting, found, Option.toList_some, List.singleton_append, List.map_cons, List.sum_cons]
        rw [← add_assoc]
        exact add_le_add_left turned.waiting _
  | serveLost i =>
    cases found : p.lost[i]? with
    | none =>
      simp only [Plant.step, found]
      exact balanced.quiet (.serveLost i) rfl balanced.framed (le_refl _)
    | some w =>
      have less := sum_waiting_set (w.turned slaves effect p.bank).waiting p.lost i found
      simp only [Plant.step, found]
      apply balanced.served
      · rfl
      · exact balanced.framed
      · simp only [waiting, List.map_append, List.sum_append]
        rw [add_left_comm]
        exact add_le_add_right less _
  | cut i n =>
    apply balanced.quiet
    · rfl
    · exact balanced.framed
    · simp only [waiting, List.map_append, List.sum_append]
      exact add_le_add_right (sum_waiting_modify n p.lost i) _

end Steps

variable [Zero K] [One K] [Add K] [Mul K] (cv : Conversions K) (slaves : List UInt8)
  (effect : RegisterBank → UInt8 → FaultEffect Nat)

theorem balanced_run (points : List (PointRuntime K)) (pollIntervalMs : Int) (pidSeq : UInt64) (bank : RegisterBank)
    (events : List PlantEvent) :
    Balanced (Runs.run (step cv slaves effect) (started points pollIntervalMs pidSeq bank) events) events
      (Runs.outputs (step cv slaves effect) (started points pollIntervalMs pidSeq bank) events) := by
  induction events using List.reverseRecOn with
  | nil => exact balanced_started points pollIntervalMs pidSeq bank
  | append_singleton events event ih =>
    rw [Runs.run_concat, Runs.outputs_concat]
    exact ih.step event

/-- Whatever is lost and however late it is served, the devices are given no write but those of the commands, each
at most once; the commands are those of selects, each at most once, and no more than the operates. -/
theorem writes_operated (points : List (PointRuntime K)) (pollIntervalMs : Int) (pidSeq : UInt64)
    (bank : RegisterBank) (events : List PlantEvent) :
    let out := Runs.outputs (step cv slaves effect) (started points pollIntervalMs pidSeq bank) events
    writesServed out ≤ (commandsIssued out).map commandWrite ∧
      commandsIssued out ≤ (events.filterMap selected : List SboCommand) ∧
      (commandsIssued out).card ≤ events.countP isOperate := by
  have balanced := balanced_run cv slaves effect points pollIntervalMs pidSeq bank events
  obtain ⟨live, -, commands⟩ := balanced.selection
  refine ⟨?_, ((List.sublist_append_left _ _).trans commands).subperm, balanced.operates⟩
  exact ((Multiset.le_add_right _ _).trans (Multiset.le_add_right _ _)).trans balanced.writes

/-- The write of an operated select, served on a connection that the application has lost. -/
example : writesServed (Runs.outputs (step (K := Int) ⟨id, fun x => x.toNat, fun x => x.toNat⟩ [1] noFault)
    (started [] 100 0 fun _ => none) [.app (.connectionChanged true), .app (.submitSboSelect 1 10 5 false 0),
      .app (.submitSboOperate ""), .app (.runPosted takesAll), .app (.connectionChanged false), .serveLost 0]) =
    {(1, [6, 0, 10, 0, 5])} := by
  decide +kernel

end Plant
end EnerSentry.App
