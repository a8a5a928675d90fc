import EnerSentry.App.EnerSentryApp
import EnerSentry.App.PollAttribution
import EnerSentry.Protocol.WriteRequest

/-!
Where the write of a command lands. A select names its slave and its register in 32 bits,
and so do the guard's key and the command; the frame has eight bits for the one and sixteen
for the other. A monitor beside the application keeps the selects whose commands wait for
the worker, and compares them with the frames that the channel is handed.
-/

namespace EnerSentry.App
open EnerSentry.Lib EnerSentry.Lib.Packing EnerSentry.Protocol EnerSentry.Business

/-- The live selection, and the selects whose commands the worker has yet to run. -/
structure Selections where
  live : Option (String × SboSelectRequest) := none
  posted : List SboSelectRequest := []

variable {K : Type*}

namespace Selections

/-- The select that an event sends on as a command. -/
def operated (c : SboContext) (live : Option (String × SboSelectRequest)) : SboEvent → List SboSelectRequest
  | .submitOperate sequenceId => if (c.submitOperate sequenceId).accepted then live.toList.map (·.2) else []
  | _ => []

def track (a : EnerSentryApp K) (m : Selections) (e : AppEvent) (_ : List (AppOutput K)) : Selections :=
  match e, a.posted with
  | .runPosted _, .sboCommand _ :: _ => { m with posted := m.posted.tail }
  | _, _ =>
      match a.sboEvent e with
      | none => m
      | some event => ⟨a.sbo.selectionAfter m.live event, m.posted ++ operated a.sbo m.live event⟩

end Selections

/-- The commands among the posted calls. -/
def commandsPosted (calls : List PostedCall) : List SboCommand :=
  calls.filterMap fun
    | .sboCommand cmd => some cmd
    | _ => none

theorem commandsPosted_append (calls later : List PostedCall) :
    commandsPosted (calls ++ later) = commandsPosted calls ++ commandsPosted later := List.filterMap_append

theorem commandsPosted_map (commands : List SboCommand) : commandsPosted (commands.map .sboCommand) = commands := by
  simp [commandsPosted, List.filterMap_map]

/-- The frame is the write of the selected value to the selected register of the selected slave. -/
structure WritesTo (frame : List UInt8) (req : SboSelectRequest) : Prop where
  slave : (frame.getD 6 0).toNat = req.slaveId.toNat
  function : frame.getD 7 0 = 0x06
  register : (readU16BE frame 8).toNat = req.registerAddr.toNat
  value : readU16BE frame 10 = req.value

/-- The two frames write to one register of one slave. -/
def SamePlace (frame frame' : List UInt8) : Prop :=
  frame.getD 6 0 = frame'.getD 6 0 ∧ readU16BE frame 8 = readU16BE frame' 8

/-- The addresses of a select have room in a frame. -/
def Fits (req : SboSelectRequest) : Prop := req.slaveId.toNat < 256 ∧ req.registerAddr.toNat < 65536

/-- The low byte of the slave id is an address, and there is a transaction id for the write. -/
def Goes (w : PollWorld K) (req : SboSelectRequest) : Prop :=
  1 ≤ req.slaveId.toUInt8 ∧ req.slaveId.toUInt8 ≤ 247 ∧ ¬w.engine.txIdAllocator.Exhausted

section Frame
variable {req : SboSelectRequest}

theorem buildable_sboRequest (cmd : SboCommand) :
    (sboRequest cmd).Buildable ↔ 1 ≤ cmd.slaveId.toUInt8 ∧ cmd.slaveId.toUInt8 ≤ 247 := by
  have pdu : requestPdu (sboRequest cmd) ≠ none := by simp [requestPdu, sboRequest, isReadCode]
  exact ⟨fun built => ⟨built.1, built.2.1⟩, fun inside => ⟨inside.1, inside.2, pdu⟩⟩

/-- The bytes of a command's write. -/
def sboFrame (cmd : SboCommand) (tid : UInt16) : List UInt8 :=
  buildRequest { sboRequest cmd with transactionId := tid }

theorem sboFrame_eq {cmd : SboCommand} (tid : UInt16) (built : (sboRequest cmd).Buildable) :
    sboFrame cmd tid = writeU16BE tid ++ writeU16BE 0 ++ writeU16BE 6 ++ [cmd.slaveId.toUInt8, 0x06] ++
      writeU16BE cmd.registerAddr.toUInt16 ++ writeU16BE cmd.value := by
  obtain ⟨low, high⟩ := (buildable_sboRequest cmd).mp built
  have inside : ¬(cmd.slaveId.toUInt8 < 1 || 247 < cmd.slaveId.toUInt8) = true := by
    simp only [Bool.or_eq_true, decide_eq_true_eq, not_or, UInt8.not_lt]
    exact ⟨low, high⟩
  unfold sboFrame buildRequest
  refine (if_neg inside).trans ?_
  rfl

/-- A frame addresses what is left of the select's addresses in it. -/
theorem sboFrame_reads {cmd : SboCommand} (tid : UInt16) (built : (sboRequest cmd).Buildable) :
    (sboFrame cmd tid).getD 6 0 = cmd.slaveId.toUInt8 ∧ (sboFrame cmd tid).getD 7 0 = 0x06 ∧
      readU16BE (sboFrame cmd tid) 8 = cmd.registerAddr.toUInt16 ∧ readU16BE (sboFrame cmd tid) 10 = cmd.value := by
  rw [sboFrame_eq tid built]
  exact ⟨rfl, rfl, join_high_low _, join_high_low _⟩

theorem writesTo_iff (tid : UInt16) (built : (sboRequest req.command).Buildable) :
    WritesTo (sboFrame req.command tid) req ↔ Fits req := by
  obtain ⟨slave, function, register, value⟩ := sboFrame_reads tid built
  have slaveByte : (sboFrame req.command tid).getD 6 0 = req.slaveId.toUInt8 := slave
  have registerWord : readU16BE (sboFrame req.command tid) 8 = req.registerAddr.toUInt16 := register
  constructor
  · intro writes
    have first := writes.slave
    have second := writes.register
    rw [slaveByte] at first
    rw [registerWord] at second
    exact ⟨first ▸ UInt8.toNat_lt _, second ▸ UInt16.toNat_lt _⟩
  · rintro ⟨small, short⟩
    refine ⟨?_, function, ?_, value⟩
    · rw [slaveByte, UInt32.toNat_toUInt8]
      exact Nat.mod_eq_of_lt small
    · rw [registerWord, UInt32.toNat_toUInt16]
      exact Nat.mod_eq_of_lt short

end Frame

namespace EnerSentryApp
open SboContext (commandsOf)

section Steps
variable [Zero K] [One K] [Add K] [Mul K] {cv : Conversions K} {a : EnerSentryApp K} {e : AppEvent}

/-- What the main thread does leaves the worker alone and posts the commands of the machine. -/
theorem step_main {event : SboEvent} (reaches : a.sboEvent e = some event) :
    (step cv a e).1.worker = a.worker ∧ commandsPosted (step cv a e).1.posted =
      commandsPosted a.posted ++ commandsOf (a.sbo.stepMachine event).2 := by
  cases e with
  | handleReport =>
    cases pending : a.reports with
    | nil => simp [sboEvent, pending] at reaches
    | cons connected reports =>
      obtain rfl : SboEvent.linkStatusChanged connected = event := by
        simpa [sboEvent, pending] using reaches
      cases connected <;> simp [step, pending, onChannelConnectionChanged, onSbo, SboContext.stepMachine,
        commandsPosted, commandsOf]
  | runPosted channel => simp [sboEvent] at reaches
  | connectionChanged connected => simp [sboEvent] at reaches
  | tick channel => simp [sboEvent] at reaches
  | bytes clock data => simp [sboEvent] at reaches
  | _ =>
    obtain rfl := Option.some.inj reaches
    exact ⟨rfl, by simp only [step, onSbo, commandsPosted_append, commandsPosted_map]⟩

/-- The worker takes the oldest call from those posted, and posts none. -/
theorem posted_worker (misses : a.sboEvent e = none) : (step cv a e).1.posted =
    match e with
    | .runPosted _ => a.posted.tail
    | _ => a.posted := by
  cases e with
  | handleReport =>
    cases pending : a.reports with
    | nil => simp [step, pending]
    | cons connected reports => simp [sboEvent, pending] at misses
  | runPosted channel =>
    cases pending : a.posted with
    | nil => simp [step, pending]
    | cons call posted => simp [step, pending, onWorker]
  | connectionChanged connected => rfl
  | tick channel => rfl
  | bytes clock data => rfl
  | _ => simp [sboEvent] at misses

theorem transport_onWorker (e : PollEvent) :
    (a.onWorker cv e).1.worker.engine.transport = a.worker.engine.transport := PollWorld.transport_step

theorem transport_step : (step cv a e).1.worker.engine.transport = a.worker.engine.transport := by
  cases reaches : a.sboEvent e with
  | some event => rw [(step_main reaches).1]
  | none =>
    cases e with
    | handleReport =>
      cases pending : a.reports with
      | nil => simp [step, pending]
      | cons connected reports => simp [sboEvent, pending] at reaches
    | runPosted channel =>
      cases pending : a.posted with
      | nil => simp [step, pending]
      | cons call posted =>
        simp only [step, pending]
        exact transport_onWorker _
    | connectionChanged connected => exact transport_onWorker _
    | tick channel => exact transport_onWorker _
    | bytes clock data => exact transport_onWorker _
    | _ => simp [sboEvent] at reaches

end Steps

/-- The worker runs the command of the select `req`. -/
def RunsCommand (s : EnerSentryApp K × Selections) (e : AppEvent) (req : SboSelectRequest) : Prop :=
  ∃ channel cmd later, e = .runPosted channel ∧ s.1.posted = .sboCommand cmd :: later ∧
    s.2.posted.head? = some req

/-- The machine is armed for the live selection, and the commands that wait are those of the
selects that wait. -/
structure Backed (s : EnerSentryApp K × Selections) : Prop where
  transport : s.1.worker.engine.transport = .tcp
  selected : s.1.sbo.Selected s.2.live
  posted : commandsPosted s.1.posted = s.2.posted.map (·.command)
  linkless : (∀ x ∈ s.2.live, x.2.linkId = 0) ∧ ∀ req ∈ s.2.posted, req.linkId = 0

theorem backed_started {points : List (PointRuntime K)} {pollIntervalMs : Int} {pidSeq : UInt64} :
    Backed (started points pollIntervalMs pidSeq, {}) := by
  refine ⟨rfl, fun armed => ?_, rfl, ?_, ?_⟩
  · cases armed
  · intro x live
    cases live
  · intro req posted
    cases posted

section Events
variable {s : EnerSentryApp K × Selections} {e : AppEvent} {req : SboSelectRequest} {out : List (AppOutput K)}

theorem linkId_of_sboEvent {operatorName : String} {nowMs : Int}
    (reaches : s.1.sboEvent e = some (.submitSelect req operatorName nowMs)) : req.linkId = 0 := by
  cases e with
  | submitSboSelect slaveId registerAddr value emergency nowMs =>
    obtain ⟨rfl, -⟩ := by simpa [sboEvent] using reaches
    rfl
  | handleReport => cases pending : s.1.reports <;> simp [sboEvent, pending] at reaches
  | _ => simp [sboEvent] at reaches

theorem track_main {event : SboEvent} (reaches : s.1.sboEvent e = some event) :
    Selections.track s.1 s.2 e out =
      ⟨s.1.sbo.selectionAfter s.2.live event, s.2.posted ++ Selections.operated s.1.sbo s.2.live event⟩ := by
  cases e with
  | runPosted channel => simp [sboEvent] at reaches
  | _ => simp only [Selections.track, reaches]

theorem track_command {channel : Channel} {cmd : SboCommand} {later : List PostedCall}
    (posted : s.1.posted = .sboCommand cmd :: later) :
    Selections.track s.1 s.2 (.runPosted channel) out = { s.2 with posted := s.2.posted.tail } := by
  simp only [Selections.track, posted]

theorem track_other (misses : s.1.sboEvent e = none)
    (other : ∀ channel cmd later, e = .runPosted channel → s.1.posted ≠ .sboCommand cmd :: later) :
    Selections.track s.1 s.2 e out = s.2 := by
  unfold Selections.track
  split
  · rename_i channel cmd later posted
    exact absurd posted (other channel cmd later rfl)
  · simp only [misses]

theorem command_of_runs (backed : Backed s) (runs : RunsCommand s e req) :
    ∃ channel, e = .runPosted channel ∧ ∃ later, s.1.posted = .sboCommand req.command :: later := by
  obtain ⟨channel, cmd, later, ran, posted, waits⟩ := runs
  have waiting := backed.posted
  obtain ⟨rest, listed⟩ := List.head?_eq_some_iff.mp waits
  rw [posted, listed] at waiting
  obtain rfl : cmd = req.command := (List.cons.inj waiting).1
  exact ⟨channel, ran, later, posted⟩

end Events

variable [Zero K] [One K] [Add K] [Mul K] (cv : Conversions K)

def selecting : Runs.Step (EnerSentryApp K × Selections) AppEvent (AppOutput K) :=
  Runs.watch (step cv) Selections.track

/-- The channel is handed a frame for the command of the select `req`. -/
def Sends (s : EnerSentryApp K × Selections) (e : AppEvent) (req : SboSelectRequest) (frame : List UInt8) : Prop :=
  RunsCommand s e req ∧ ∃ link r n, .worker (.written link r n) ∈ (step cv s.1 e).2 ∧ frame = buildRequest r

/-- Every frame of a command writes what was selected, and selects under different keys have
their frames at different places. -/
def Addressed (s : EnerSentryApp K × Selections) (es : List AppEvent) : Prop :=
  (∀ v ∈ Runs.visits (selecting cv) s es, ∀ req frame, Sends cv v.1 v.2 req frame → WritesTo frame req) ∧
    ∀ v ∈ Runs.visits (selecting cv) s es, ∀ v' ∈ Runs.visits (selecting cv) s es, ∀ req frame req' frame',
      Sends cv v.1 v.2 req frame → Sends cv v'.1 v'.2 req' frame' → SamePlace frame frame' → req.key = req'.key

section Selecting
variable {cv} {s : EnerSentryApp K × Selections} {e : AppEvent} {req : SboSelectRequest}

/-- The command that an event puts out is that of the select it sends on. -/
theorem commandsOf_operated {c : SboContext} {live : Option (String × SboSelectRequest)}
    (selected : c.Selected live) (event : SboEvent) :
    commandsOf (c.stepMachine event).2 = (Selections.operated c live event).map (·.command) := by
  rcases selected.commands event with silent | ⟨id, req, rfl, accepted, -, -, same, sent⟩
  · rw [silent]
    cases event with
    | submitOperate id =>
      have refused : ¬(c.submitOperate id).accepted = true := by
        intro accepted
        by_cases armed : c.machine.state = .armed
        · have own : id = c.machine.sequenceId := by
            by_contra other
            simp [SboContext.submitOperate, armed, other] at accepted
          subst own
          have sent := (SboContext.submitOperate_commands armed).2
          exact absurd (sent.symm.trans silent) (List.cons_ne_nil _ _)
        · simp [SboContext.submitOperate, armed] at accepted
      simp only [Selections.operated, if_neg refused, List.map_nil]
    | _ => rfl
  · rw [sent, same]
    simp only [Selections.operated, if_pos accepted, Option.toList_some, List.map_cons, List.map_nil]

/-- A live selection was there before, or the event made it. -/
theorem selectionAfter_origin {c : SboContext} {live : Option (String × SboSelectRequest)} {event : SboEvent}
    {x : String × SboSelectRequest} (now : x ∈ c.selectionAfter live event) :
    x ∈ live ∨ ∃ operatorName nowMs, event = .submitSelect x.2 operatorName nowMs := by
  cases event with
  | submitSelect req operatorName nowMs =>
    simp only [SboContext.selectionAfter] at now
    split at now
    · obtain rfl := Option.some.inj now
      exact Or.inr ⟨operatorName, nowMs, rfl⟩
    · exact Or.inl now
  | _ =>
    simp only [SboContext.selectionAfter] at now
    split at now
    · cases now
    · exact Or.inl now

theorem Backed.step_main (backed : Backed s) {event : SboEvent} (reaches : s.1.sboEvent e = some event) :
    Backed (selecting cv s e).1 := by
  have moved : (step cv s.1 e).1.sbo = (s.1.sbo.stepMachine event).1 := (step_sbo reaches).1
  have posts : commandsPosted (step cv s.1 e).1.posted =
      commandsPosted s.1.posted ++ commandsOf (s.1.sbo.stepMachine event).2 := (EnerSentryApp.step_main reaches).2
  have transport : (selecting cv s e).1.1.worker.engine.transport = .tcp := transport_step.trans backed.transport
  refine ⟨transport, ?_, ?_, ?_⟩
  · simp only [selecting, Runs.watch_fst, Runs.watch_snd, moved, track_main reaches]
    exact SboContext.selected_step backed.selected event
  · simp only [selecting, Runs.watch_fst, Runs.watch_snd, posts, track_main reaches, List.map_append, backed.posted,
      commandsOf_operated backed.selected event]
  · simp only [selecting, Runs.watch_snd, track_main reaches]
    constructor
    · intro x now
      rcases selectionAfter_origin now with had | ⟨operatorName, nowMs, rfl⟩
      · exact backed.linkless.1 x had
      · exact linkId_of_sboEvent reaches
    · intro req member
      rcases List.mem_append.mp member with had | sent
      · exact backed.linkless.2 req had
      · cases event with
        | submitOperate id =>
          simp only [Selections.operated] at sent
          split at sent
          · obtain ⟨x, live, rfl⟩ := List.mem_map.mp sent
            exact backed.linkless.1 x (Option.mem_toList.mp live)
          · cases sent
        | _ => cases sent

theorem Backed.step_command (backed : Backed s) {channel : Channel} {cmd : SboCommand} {later : List PostedCall}
    (posted : s.1.posted = .sboCommand cmd :: later) : Backed (selecting cv s (.runPosted channel)).1 := by
  have misses : s.1.sboEvent (.runPosted channel) = none := rfl
  have still : (step cv s.1 (.runPosted channel)).1.sbo = s.1.sbo := (step_worker misses).1
  have calls : (step cv s.1 (.runPosted channel)).1.posted = s.1.posted.tail := posted_worker misses
  have waiting := backed.posted
  rw [posted] at calls waiting
  refine ⟨transport_step.trans backed.transport, ?_, ?_, ?_⟩
  · simp only [selecting, Runs.watch_fst, Runs.watch_snd, still, track_command posted]
    exact backed.selected
  · simp only [selecting, Runs.watch_fst, Runs.watch_snd, calls, track_command posted, List.tail_cons,
      List.map_tail, ← waiting]
    rfl
  · simp only [selecting, Runs.watch_snd, track_command posted]
    exact ⟨backed.linkless.1, fun req member => backed.linkless.2 req (List.mem_of_mem_tail member)⟩

theorem Backed.step_other (backed : Backed s) (misses : s.1.sboEvent e = none)
    (other : ∀ channel cmd later, e = .runPosted channel → s.1.posted ≠ .sboCommand cmd :: later) :
    Backed (selecting cv s e).1 := by
  have still : (step cv s.1 e).1.sbo = s.1.sbo := (step_worker misses).1
  have calls : commandsPosted (EnerSentryApp.step cv s.1 e).1.posted = commandsPosted s.1.posted := by
    rw [posted_worker misses]
    cases e with
    | runPosted channel =>
      cases posted : s.1.posted with
      | nil => rfl
      | cons call later =>
        cases call with
        | sboCommand cmd => exact absurd posted (other channel cmd later rfl)
        | _ => rfl
    | _ => rfl
  refine ⟨transport_step.trans backed.transport, ?_, ?_, ?_⟩
  · simp only [selecting, Runs.watch_fst, Runs.watch_snd, still, track_other misses other]
    exact backed.selected
  · simp only [selecting, Runs.watch_fst, Runs.watch_snd, calls, track_other misses other]
    exact backed.posted
  · simp only [selecting, Runs.watch_snd, track_other misses other]
    exact backed.linkless

theorem Backed.step (backed : Backed s) (e : AppEvent) : Backed (selecting cv s e).1 := by
  cases reaches : s.1.sboEvent e with
  | some event => exact backed.step_main reaches
  | none =>
    by_cases command : ∃ channel cmd later, e = .runPosted channel ∧ s.1.posted = .sboCommand cmd :: later
    · obtain ⟨channel, cmd, later, rfl, posted⟩ := command
      exact backed.step_command posted
    · exact backed.step_other reaches fun channel cmd later ran posted =>
        command ⟨channel, cmd, later, ran, posted⟩

theorem outputs_command {channel : Channel} {cmd : SboCommand} {later : List PostedCall}
    (posted : s.1.posted = .sboCommand cmd :: later) : (EnerSentryApp.step cv s.1 (.runPosted channel)).2 =
      (s.1.worker.write channel (sboRequest cmd) 1).2.2.map .worker := by
  simp only [EnerSentryApp.step, posted, onWorker, PostedCall.event, PollWorld.step, PollWorld.dispatchSboCommand]

/-- What goes out for a command is its frame, and then its slave's low byte is an address and
a transaction id was free. -/
theorem Sends.goes (backed : Backed s) {frame : List UInt8} (sends : Sends cv s e req frame) :
    Goes s.1.worker req ∧ ∃ tid, frame = sboFrame req.command tid := by
  obtain ⟨runs, link, r, n, handed, rfl⟩ := sends
  obtain ⟨channel, rfl, later, posted⟩ := command_of_runs backed runs
  rw [outputs_command posted] at handed
  have wrote := ModbusEngine.write_cases s.1.worker.engine (some channel) (sboRequest req.command) 1
  simp only [PollWorld.write] at handed
  generalize s.1.worker.engine.writeRequest (some channel) (sboRequest req.command) 1 = written at wrote handed
  cases wrote with
  | paired pairs c present tid nonzero free built =>
    obtain ⟨low, high⟩ := (buildable_sboRequest req.command).mp built
    obtain ⟨-, rfl, -⟩ := by simpa using handed
    exact ⟨⟨low, high, fun full => by simp [full tid nonzero] at free⟩, tid, rfl⟩
  | passed unpaired c present built => exact absurd ⟨backed.transport, rfl⟩ unpaired
  | _ => simp at handed

theorem Goes.sends (backed : Backed s) (runs : RunsCommand s e req) (goes : Goes s.1.worker req) :
    ∃ frame, Sends cv s e req frame := by
  obtain ⟨channel, rfl, later, posted⟩ := command_of_runs backed runs
  have built := (buildable_sboRequest req.command).mpr ⟨goes.1, goes.2.1⟩
  have wrote := ModbusEngine.write_cases s.1.worker.engine (some channel) (sboRequest req.command) 1
  simp only [Sends, outputs_command posted, PollWorld.write]
  generalize s.1.worker.engine.writeRequest (some channel) (sboRequest req.command) 1 = written at wrote
  cases wrote with
  | paired pairs c present tid nonzero free built => exact ⟨_, runs, 1, _, _, List.mem_singleton_self _, rfl⟩
  | closed absent => cases absent
  | exhausted pairs full => exact absurd full goes.2.2
  | undone pairs tid nonzero free broken => exact absurd built broken
  | passed unpaired c present built => exact absurd ⟨backed.transport, rfl⟩ unpaired
  | dropped unpaired named broken => exact absurd built broken
  | rejected unpaired unnamed broken => exact absurd built broken

/-- The frames of selects that fit tell their keys apart. -/
theorem key_of_samePlace {req' : SboSelectRequest} {tid tid' : UInt16} (built : (sboRequest req.command).Buildable)
    (built' : (sboRequest req'.command).Buildable) (fits : Fits req) (fits' : Fits req')
    (linkless : req.linkId = req'.linkId)
    (same : SamePlace (sboFrame req.command tid) (sboFrame req'.command tid')) : req.key = req'.key := by
  have writes := (writesTo_iff tid built).mpr fits
  have writes' := (writesTo_iff tid' built').mpr fits'
  have slave : req.slaveId = req'.slaveId :=
    UInt32.toNat_inj.mp (by rw [← writes.slave, ← writes'.slave, same.1])
  have register : req.registerAddr = req'.registerAddr :=
    UInt32.toNat_inj.mp (by rw [← writes.register, ← writes'.register, same.2])
  rw [SboSelectRequest.key, SboSelectRequest.key, linkless, slave, register]

end Selecting

/-- Commands write what was selected, each at the place of its own key, if and only if every
select whose command goes out has a slave id below 256 and a register below 65536. -/
theorem addressed_iff (points : List (PointRuntime K)) (pollIntervalMs : Int) (pidSeq : UInt64) (es : List AppEvent) :
    Addressed cv (started points pollIntervalMs pidSeq, {}) es ↔
      ∀ v ∈ Runs.visits (selecting cv) (started points pollIntervalMs pidSeq, {}) es, ∀ req,
        RunsCommand v.1 v.2 req → Goes v.1.1.worker req → Fits req := by
  have backed := Runs.reached_always (selecting cv) es (s := (started points pollIntervalMs pidSeq, {}))
    (I := Backed) backed_started fun _ e backed => backed.step e
  constructor
  · rintro ⟨writes, -⟩ v visited req runs goes
    have before := backed v.1 (Runs.visit_mem_reached visited).1
    obtain ⟨frame, sends⟩ := Goes.sends before runs goes
    obtain ⟨-, tid, rfl⟩ := Sends.goes before sends
    exact (writesTo_iff tid ((buildable_sboRequest _).mpr ⟨goes.1, goes.2.1⟩)).mp (writes v visited req _ sends)
  · intro fit
    have framed : ∀ v ∈ Runs.visits (selecting cv) (started points pollIntervalMs pidSeq, {}) es, ∀ req frame,
        Sends cv v.1 v.2 req frame → Fits req ∧ (sboRequest req.command).Buildable ∧ req.linkId = 0 ∧
          ∃ tid, frame = sboFrame req.command tid := by
      intro v visited req frame sends
      have before := backed v.1 (Runs.visit_mem_reached visited).1
      obtain ⟨goes, tid⟩ := Sends.goes before sends
      obtain ⟨channel, cmd, later, ran, posted, waits⟩ := sends.1
      exact ⟨fit v visited req sends.1 goes, (buildable_sboRequest _).mpr ⟨goes.1, goes.2.1⟩,
        before.linkless.2 req (List.mem_of_mem_head? waits), tid⟩
    constructor
    · intro v visited req frame sends
      obtain ⟨fits, built, -, tid, rfl⟩ := framed v visited req frame sends
      exact (writesTo_iff tid built).mpr fits
    · intro v visited v' visited' req frame req' frame' sends sends' same
      obtain ⟨fits, built, linkless, tid, rfl⟩ := framed v visited req frame sends
      obtain ⟨fits', built', linkless', tid', rfl⟩ := framed v' visited' req' frame' sends'
      exact key_of_samePlace built built' fits fits' (linkless.trans linkless'.symm) same

end EnerSentryApp

namespace EnerSentryApp
open PollWorld (integers apartPoints)

/-- A select of one register, operated, and its command run by the worker. -/
def writing (slaveId registerAddr : UInt32) (value : UInt16) : List AppEvent :=
  [.submitSboSelect slaveId registerAddr value false 0, .submitSboOperate ""]

def runNext : AppEvent := .runPosted fun bytes => bytes.length

def firstPosted : EnerSentryApp Int × Selections :=
  Runs.run (selecting integers) (started apartPoints 100 0, {}) (writing 1 10 5)

/-- The first write is on its way when a select under another key is run. -/
def secondPosted : EnerSentryApp Int × Selections :=
  Runs.run (selecting integers) firstPosted (runNext :: .executingTimeout :: writing 257 65546 7)

def aliasing : List AppEvent := writing 1 10 5 ++ runNext :: .executingTimeout :: writing 257 65546 7 ++ [runNext]

theorem first_sends : Sends integers firstPosted runNext ⟨0, 1, 10, 5, false⟩ (sboFrame ⟨0, 1, 10, 5⟩ 1) :=
  ⟨⟨_, ⟨0, 1, 10, 5⟩, [], rfl, by decide +kernel, by decide +kernel⟩, 1,
    { sboRequest ⟨0, 1, 10, 5⟩ with transactionId := 1 }, 12, by decide +kernel, rfl⟩

theorem second_sends : Sends integers secondPosted runNext ⟨0, 257, 65546, 7, false⟩ (sboFrame ⟨0, 257, 65546, 7⟩ 2) :=
  ⟨⟨_, ⟨0, 257, 65546, 7⟩, [], rfl, by decide +kernel, by decide +kernel⟩, 1,
    { sboRequest ⟨0, 257, 65546, 7⟩ with transactionId := 2 }, 12, by decide +kernel, rfl⟩

/-- Register 65546 of slave 257 is written as register 10 of slave 1, which another select
has just written. -/
theorem addressing_fails : ¬Addressed integers (started apartPoints 100 0, {}) aliasing := by
  rintro ⟨-, apart⟩
  have visited : (firstPosted, runNext) ∈
      Runs.visits (selecting integers) (started apartPoints 100 0, {}) aliasing := by
    rw [aliasing, List.append_assoc, Runs.visits_append]
    exact List.mem_append_right _ (List.mem_cons_self ..)
  have visited' : (secondPosted, runNext) ∈
      Runs.visits (selecting integers) (started apartPoints 100 0, {}) aliasing := by
    rw [aliasing, Runs.visits_concat, Runs.run_append]
    exact List.mem_append_right _ (List.mem_singleton_self _)
  have same := apart _ visited _ visited' _ _ _ _ first_sends second_sends ⟨by decide +kernel, by decide +kernel⟩
  exact absurd same (by decide)

end EnerSentryApp
end EnerSentry.App
