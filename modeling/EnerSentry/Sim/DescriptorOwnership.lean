import EnerSentry.Sim.ModbusTcpServer

/-!
Who closes a client's descriptor. The loop of a client closes its number when it ends, and
`dropAllClients` closes every number in the list. Without a listed client the latter has
nothing to do and each loop closes what is its own. A client that is listed keeps its loop,
which closes the number a second time when it ends.
-/

namespace EnerSentry.Sim
open EnerSentry.Lib.Runs
open Function (update)

namespace CloseCall

/-- A loop closes the descriptor of its own client, the server one of a client or the one it listens on. -/
def Owned (call : CloseCall) : Prop :=
  match call.loop with
  | some id => call.hit = some (.client id)
  | none => call.hit = some .listen ∨ ∃ id, call.hit = some (.client id)

/-- The calls that close a client's descriptor, or mean to. -/
def madeFor (id : Nat) (call : CloseCall) : Bool :=
  call.loop = some id || (call.loop = none && call.hit = some (.client id))

end CloseCall

def closes (id : Nat) (calls : List CloseCall) : Nat := calls.countP (·.madeFor id)

/-- Every close meets its descriptor, and a client's is closed once: not more often while its loop
runs, and by the time the loop has ended. -/
structure ClosedOnce (p : ServerProcess) (calls : List CloseCall) : Prop where
  owned : ∀ call ∈ calls, call.Owned
  atMost : ∀ id, closes id calls ≤ 1
  ended : ∀ id fd : Nat, p.loops[id]? = some ⟨fd, .ended⟩ → closes id calls = 1

/-- `dropAllClients` runs only while no client is listed. -/
def DropsNobody (v : ServerProcess × ServerEvent) : Prop :=
  match v.2 with
  | .closeNext => v.1.closing = .dropAllClients → v.1.server.clients = []
  | _ => True

theorem ServerEvent.OfLoop.dropsNobody {v : ServerProcess × ServerEvent} (ofLoop : v.2.OfLoop) : DropsNobody v := by
  obtain ⟨q, event⟩ := v
  cases event with
  | closeNext => exact False.elim ofLoop
  | _ => trivial

section Calls
variable {id : Nat} {calls more : List CloseCall}

@[simp] theorem closes_nil : closes id [] = 0 := rfl

@[simp] theorem closes_append : closes id (calls ++ more) = closes id calls + closes id more :=
  List.countP_append ..

theorem closes_loop (other : Nat) (hit : Option Holder) :
    closes id [⟨some other, hit⟩] = if other = id then 1 else 0 := by
  simp [closes, CloseCall.madeFor]

end Calls

open ServerProcess in
/-- What an event can do, if it does anything. -/
inductive Moves (p : ServerProcess) : ServerEvent → ServerProcess × List CloseCall → Prop where
  | nothing (event) : Moves p event (p, [])
  | opens (fd) (free : p.table fd = none) : Moves p (.open fd)
      ({ p with
          server := { p.server with running := true, listenFd := some fd }
          acceptLoop := .accepting
          table := update p.table fd (some .listen) }, [])
  | accepts (fd) (free : p.table fd = none) : Moves p (.accept fd)
      ({ p with
          acceptLoop := .holding p.loops.length
          loops := p.loops ++ [{ clientFd := fd }]
          table := update p.table fd (some (.client p.loops.length)) }, [])
  | pushes (id) (x : ClientLoop) (held : p.acceptLoop = .holding id) (looked : p.loops[id]? = some x) :
      Moves p .pushBack ({ p.setStage id .serving with
          server := { p.server with clients := p.server.clients ++ [x.clientFd] }
          acceptLoop := .accepting }, [])
  | accepted : Moves p .acceptFails ({ p with acceptLoop := .absent }, [])
  | erases (id fd t) (looked : p.loops[id]? = some ⟨fd, .serving⟩) : Moves p (.turn id t) (p.eraseClient id fd, [])
  | closesFd (id fd) (looked : p.loops[id]? = some ⟨fd, .erased⟩) : Moves p (.closeFd id)
      ((p.setStage id .ended).closeFd (some id) fd)
  | closes : Moves p .close
      ({ p with server := { p.server with running := false }, closing := .dropAllClients }, [])
  | drops (stage : p.closing = .dropAllClients) : Moves p .closeNext
      ({ p.dropAllClients.1 with closing := .closeListenFd }, p.dropAllClients.2)
  | closesListen (fd) (listen : p.server.listenFd = some fd) : Moves p .closeNext
      ({ (p.closeFd none fd).1 with server := { p.server with listenFd := none }, closing := .join },
        (p.closeFd none fd).2)
  | goesOn (closing) : Moves p .closeNext ({ p with closing }, [])
  | opensOther (fd) (free : p.table fd = none) : Moves p (.openOther fd)
      ({ p with table := update p.table fd (some .other) }, [])
  | closesOther (fd) (other : p.table fd = some .other) : Moves p (.closeOther fd)
      ({ p with table := update p.table fd none }, [])

theorem moves_step (handler : RequestHandler) (p : ServerProcess) (event : ServerEvent) :
    Moves p event (ServerProcess.step handler p event) := by
  cases event with
  | «open» fd =>
    dsimp only [ServerProcess.step]
    split_ifs with free
    · exact .opens fd free.2.2.2
    · exact .nothing _
  | accept fd =>
    dsimp only [ServerProcess.step]
    split_ifs with free
    · exact .accepts fd free.2
    · exact .nothing _
  | pushBack =>
    dsimp only [ServerProcess.step]
    split
    · next id held =>
      split
      · next x looked => exact .pushes id x held looked
      · exact .nothing _
    · exact .nothing _
  | acceptFails =>
    dsimp only [ServerProcess.step]
    split_ifs
    · exact .accepted
    · exact .nothing _
  | turn id t =>
    dsimp only [ServerProcess.step]
    split
    · next fd looked =>
      split_ifs
      · exact .erases id fd t looked
      · exact .nothing _
    · exact .nothing _
  | closeFd id =>
    dsimp only [ServerProcess.step]
    split
    · next fd looked => exact .closesFd id fd looked
    · exact .nothing _
  | close =>
    dsimp only [ServerProcess.step]
    split_ifs
    · exact .nothing _
    · exact .closes
  | closeNext =>
    dsimp only [ServerProcess.step, ServerProcess.closeNext]
    split
    · exact .nothing _
    · next stage => exact .drops stage
    · split
      · exact .goesOn .join
      · next fd listen => exact .closesListen fd listen
    · split_ifs
      · exact .goesOn .idle
      · exact .nothing _
  | openOther fd =>
    dsimp only [ServerProcess.step]
    split_ifs with free
    · exact .opensOther fd free
    · exact .nothing _
  | closeOther fd =>
    dsimp only [ServerProcess.step]
    split_ifs with other
    · exact .closesOther fd other
    · exact .nothing _

/-- What the descriptors are before anybody is dropped. -/
structure Orderly (p : ServerProcess) (calls : List CloseCall) : Prop where
  held : ∀ (id : Nat) x, p.loops[id]? = some x → x.stage ≠ .ended → p.table x.clientFd = some (.client id)
  listed : ∀ fd ∈ p.server.clients, ∃ id : Nat, p.loops[id]? = some ⟨fd, .serving⟩
  holding : ∀ id, p.acceptLoop = .holding id → ∃ fd, p.loops[id]? = some ⟨fd, .accepted⟩
  listens : ∀ fd, p.server.listenFd = some fd → p.table fd = some .listen
  owned : ∀ call ∈ calls, call.Owned
  counted : ∀ id : Nat, closes id calls = if p.loops[id]?.map (·.stage) = some .ended then 1 else 0

/-- A close that misses, a descriptor closed twice, or one closed while its loop still goes on. -/
def Doomed (p : ServerProcess) (calls : List CloseCall) : Prop :=
  (∃ call ∈ calls, ¬call.Owned) ∨ (∃ id, 2 ≤ closes id calls) ∨
    ∃ (id : Nat) (x : ClientLoop),
      p.loops[id]? = some x ∧ (x.stage = .serving ∨ x.stage = .erased) ∧ 1 ≤ closes id calls

section Steps
variable {p : ServerProcess} {calls : List CloseCall} {fd id : Nat}

theorem getElem?_setStage (id j : Nat) (stage : LoopStage) :
    (p.setStage id stage).loops[j]? = p.loops[j]?.map fun x => if id = j then { x with stage } else x :=
  List.getElem?_modify ..

namespace Orderly

/-- No client loses what it holds when somebody else's number changes hands. -/
theorem held_update (o : Orderly p calls) (holder : Option Holder) (noClient : ∀ id, p.table fd ≠ some (.client id))
    (id : Nat) (x) (looked : p.loops[id]? = some x) (alive : x.stage ≠ .ended) :
    update p.table fd holder x.clientFd = some (.client id) := by
  have own := o.held id x looked alive
  have other : x.clientFd ≠ fd := fun same => noClient id (same ▸ own)
  exact (Function.update_of_ne other ..).trans own

/-- A number that is no client's and that the server does not listen on can be given to anybody. -/
theorem retable (o : Orderly p calls) (fd : Nat) (holder : Option Holder)
    (noClient : ∀ id, p.table fd ≠ some (.client id)) (noListen : p.table fd ≠ some .listen) :
    Orderly { p with table := update p.table fd holder } calls where
  held := o.held_update holder noClient
  listed := o.listed
  holding := o.holding
  listens fd' listen := by
    have own := o.listens fd' listen
    have other : fd' ≠ fd := fun same => noListen (same ▸ own)
    exact (Function.update_of_ne other ..).trans own
  owned := o.owned
  counted := o.counted

theorem «open» (o : Orderly p calls) (free : p.table fd = none) :
    Orderly { p with
      server := { p.server with running := true, listenFd := some fd }
      acceptLoop := .accepting
      table := update p.table fd (some .listen) } calls :=
  have given := o.retable fd (some .listen) (fun _ => by simp [free]) (by simp [free])
  { held := given.held
    listed := o.listed
    holding := fun _ none_ => nomatch none_
    listens := fun fd' listen => by
      cases listen
      exact Function.update_self ..
    owned := o.owned
    counted := o.counted }

theorem accept (o : Orderly p calls) (free : p.table fd = none) :
    Orderly { p with
      acceptLoop := .holding p.loops.length
      loops := p.loops ++ [{ clientFd := fd }]
      table := update p.table fd (some (.client p.loops.length)) } calls := by
  have given := o.retable fd (some (.client p.loops.length)) (fun _ => by simp [free]) (by simp [free])
  constructor
  · intro id x looked alive
    rcases Nat.lt_trichotomy id p.loops.length with old | rfl | beyond
    · rw [List.getElem?_append_left old] at looked
      exact given.held id x looked alive
    · rw [List.getElem?_concat_length] at looked
      cases looked
      exact Function.update_self ..
    · rw [List.getElem?_eq_none (by simpa using Nat.succ_le_of_lt beyond)] at looked
      cases looked
  · intro fd' member
    obtain ⟨id, looked⟩ := o.listed fd' member
    exact ⟨id, (List.getElem?_append_left (List.getElem?_eq_some_iff.mp looked).1).trans looked⟩
  · intro id held
    cases held
    exact ⟨fd, List.getElem?_concat_length ..⟩
  · exact given.listens
  · exact o.owned
  · intro id
    rw [o.counted id]
    rcases Nat.lt_trichotomy id p.loops.length with old | rfl | beyond
    · rw [List.getElem?_append_left old]
    · rw [List.getElem?_concat_length, List.getElem?_eq_none (Nat.le_refl _)]
      rfl
    · rw [List.getElem?_eq_none (Nat.le_of_lt beyond), List.getElem?_eq_none (by simpa using Nat.succ_le_of_lt beyond)]

theorem held_setStage {before stage : LoopStage} (o : Orderly p calls) (looked : p.loops[id]? = some ⟨fd, before⟩)
    (alive : before ≠ .ended) (j : Nat) (x) (found : (p.setStage id stage).loops[j]? = some x)
    (going : x.stage ≠ .ended) : p.table x.clientFd = some (.client j) := by
  rw [getElem?_setStage] at found
  obtain ⟨y, was, rfl⟩ := Option.map_eq_some_iff.mp found
  by_cases same : id = j
  · subst same
    cases looked.symm.trans was
    simpa using o.held id _ looked alive
  · rw [if_neg same] at going ⊢
    exact o.held j y was going

theorem counted_setStage {before stage : LoopStage} (o : Orderly p calls)
    (looked : p.loops[id]? = some ⟨fd, before⟩) (alive : before ≠ .ended) (going : stage ≠ .ended) (j : Nat) :
    closes j calls = if (p.setStage id stage).loops[j]?.map (·.stage) = some .ended then 1 else 0 := by
  rw [o.counted j, getElem?_setStage]
  by_cases same : id = j
  · subst same
    simp [looked, alive, going]
  · simp [same]

theorem looked_setStage {before stage : LoopStage} {x : ClientLoop} {j : Nat}
    (looked : p.loops[id]? = some ⟨fd, before⟩) (found : p.loops[j]? = some x) (other : x ≠ ⟨fd, before⟩) :
    (p.setStage id stage).loops[j]? = some x := by
  have apart : id ≠ j := by
    rintro rfl
    exact other (Option.some.inj (found.symm.trans looked))
  rw [getElem?_setStage, found]
  simp [apart]

theorem pushBack (o : Orderly p calls) (looked : p.loops[id]? = some ⟨fd, .accepted⟩) :
    Orderly { p.setStage id .serving with
      server := { p.server with clients := p.server.clients ++ [fd] }
      acceptLoop := .accepting } calls where
  held := o.held_setStage looked (by simp)
  listed fd' member := by
    rcases List.mem_append.mp member with old | new
    · obtain ⟨j, before⟩ := o.listed fd' old
      exact ⟨j, looked_setStage looked before (by simp)⟩
    · cases List.mem_singleton.mp new
      refine ⟨id, ?_⟩
      rw [getElem?_setStage, looked]
      simp
  holding _ none_ := nomatch none_
  listens := o.listens
  owned := o.owned
  counted := o.counted_setStage looked (by simp) (by simp)

theorem eraseClient (o : Orderly p calls) (looked : p.loops[id]? = some ⟨fd, .serving⟩) :
    Orderly (p.eraseClient id fd) calls where
  held := o.held_setStage looked (by simp)
  listed fd' member := by
    obtain ⟨old, other⟩ := List.mem_filter.mp member
    obtain ⟨j, before⟩ := o.listed fd' old
    exact ⟨j, looked_setStage looked before (by simpa using other)⟩
  holding j held := by
    obtain ⟨fd', before⟩ := o.holding j held
    exact ⟨fd', looked_setStage looked before (by simp)⟩
  listens := o.listens
  owned := o.owned
  counted := o.counted_setStage looked (by simp) (by simp)

/-- The loop closes what is its client's. -/
theorem closeFd (o : Orderly p calls) (looked : p.loops[id]? = some ⟨fd, .erased⟩) :
    Orderly { p.setStage id .ended with table := update p.table fd none } (calls ++ [⟨some id, p.table fd⟩]) := by
  have own : p.table fd = some (.client id) := o.held id _ looked (by simp)
  constructor
  · intro j x found going
    have before := o.held_setStage looked (by simp) j x found going
    have apart : x.clientFd ≠ fd := by
      rintro same
      rw [same, own] at before
      cases before
      rw [getElem?_setStage, looked] at found
      cases found
      simp at going
    exact (Function.update_of_ne apart ..).trans before
  · intro fd' member
    obtain ⟨j, before⟩ := o.listed fd' member
    exact ⟨j, looked_setStage looked before (by simp)⟩
  · intro j held
    obtain ⟨fd', before⟩ := o.holding j held
    exact ⟨fd', looked_setStage looked before (by simp)⟩
  · intro fd' listen
    have before := o.listens fd' listen
    have apart : fd' ≠ fd := by
      rintro rfl
      rw [own] at before
      cases before
    exact (Function.update_of_ne apart ..).trans before
  · rw [List.forall_mem_append, List.forall_mem_singleton]
    exact ⟨o.owned, own⟩
  · intro j
    rw [closes_append, closes_loop, o.counted j, getElem?_setStage]
    by_cases same : id = j
    · subst same
      simp [looked]
    · simp [same]

/-- The server closes the descriptor it listens on, which is nobody else's. -/
theorem closeListen (o : Orderly p calls) (listen : p.server.listenFd = some fd) :
    Orderly { (p.closeFd none fd).1 with server := { p.server with listenFd := none }, closing := .join }
      (calls ++ (p.closeFd none fd).2) := by
  have own := o.listens fd listen
  have noClients (id : Nat) : closes id (p.closeFd none fd).2 = 0 := by
    simp [closes, ServerProcess.closeFd, CloseCall.madeFor, own]
  constructor
  · exact o.held_update none fun _ => by simp [own]
  · exact o.listed
  · exact o.holding
  · intro _ none_
    cases none_
  · rw [List.forall_mem_append]
    refine ⟨o.owned, fun call member => ?_⟩
    cases List.mem_singleton.mp member
    exact Or.inl own
  · intro id
    calc closes id (calls ++ (p.closeFd none fd).2) = closes id calls := by rw [closes_append, noClients, Nat.add_zero]
      _ = if p.loops[id]?.map (·.stage) = some .ended then 1 else 0 := o.counted id

/-- An empty list is dropped without a call. -/
theorem dropNobody (o : Orderly p calls) (nobody : p.server.clients = []) :
    Orderly { p.dropAllClients.1 with closing := .closeListenFd } (calls ++ p.dropAllClients.2) := by
  have untouched : p.dropAllClients = ({ p with server := { p.server with clients := [] } }, []) := by
    simp [ServerProcess.dropAllClients, nobody, ServerProcess.closeAll]
  rw [untouched, List.append_nil]
  exact ⟨o.held, (fun _ member => nomatch member), o.holding, o.listens, o.owned, o.counted⟩

end Orderly

theorem Orderly.silent (o : Orderly p calls) : Orderly p (calls ++ []) := by
  rwa [List.append_nil]

/-- A server that drops nobody has the descriptors closed by the loops of their clients. -/
theorem Orderly.step {event : ServerEvent} {r : ServerProcess × List CloseCall} (o : Orderly p calls)
    (moves : Moves p event r) (nobody : DropsNobody (p, event)) : Orderly r.1 (calls ++ r.2) := by
  cases moves with
  | nothing => exact o.silent
  | opens fd free => exact (o.open free).silent
  | accepts fd free => exact (o.accept free).silent
  | pushes id x held looked =>
    obtain ⟨fd, accepted⟩ := o.holding id held
    cases looked.symm.trans accepted
    exact (o.pushBack looked).silent
  | accepted =>
    apply Orderly.silent
    exact ⟨o.held, o.listed, (fun _ none_ => nomatch none_), o.listens, o.owned, o.counted⟩
  | erases id fd t looked => exact (o.eraseClient looked).silent
  | closesFd id fd looked => exact o.closeFd looked
  | closes =>
    apply Orderly.silent
    exact ⟨o.held, o.listed, o.holding, o.listens, o.owned, o.counted⟩
  | drops stage => exact o.dropNobody (nobody stage)
  | closesListen fd listen => exact o.closeListen listen
  | goesOn closing =>
    apply Orderly.silent
    exact ⟨o.held, o.listed, o.holding, o.listens, o.owned, o.counted⟩
  | opensOther fd free =>
    apply Orderly.silent
    exact o.retable fd _ (fun _ => by simp [free]) (by simp [free])
  | closesOther fd other =>
    apply Orderly.silent
    exact o.retable fd _ (fun _ => by simp [other]) (by simp [other])

theorem Orderly.closedOnce (o : Orderly p calls) : ClosedOnce p calls where
  owned := o.owned
  atMost id := by
    rw [o.counted id]
    split <;> decide
  ended id fd looked := by
    rw [o.counted id, looked]
    rfl

theorem orderly_start : Orderly {} [] := by
  constructor
  · intro _ _ looked
    cases looked
  · intro _ member
    cases member
  · intro _ held
    cases held
  · intro _ listen
    cases listen
  · intro _ member
    cases member
  · intro _
    rfl

/-- A loop that goes on stays there until it closes. -/
theorem Moves.alive {event : ServerEvent} {r : ServerProcess × List CloseCall} (moves : Moves p event r)
    {x : ClientLoop} (looked : p.loops[id]? = some x) (alive : x.stage = .serving ∨ x.stage = .erased) :
    (∃ y, r.1.loops[id]? = some y ∧ (y.stage = .serving ∨ y.stage = .erased)) ∨ ∃ hit, r.2 = [⟨some id, hit⟩] := by
  cases moves with
  | accepts fd free =>
    exact Or.inl ⟨x, (List.getElem?_append_left (List.getElem?_eq_some_iff.mp looked).1).trans looked, alive⟩
  | pushes j y held found =>
    refine Or.inl ⟨if j = id then { x with stage := .serving } else x, ?_, ?_⟩
    · exact (getElem?_setStage ..).trans (by rw [looked]; rfl)
    · split_ifs
      · exact Or.inl rfl
      · exact alive
  | erases j fd t found =>
    refine Or.inl ⟨if j = id then { x with stage := .erased } else x, ?_, ?_⟩
    · exact (getElem?_setStage ..).trans (by rw [looked]; rfl)
    · split_ifs
      · exact Or.inr rfl
      · exact alive
  | closesFd j fd found =>
    by_cases same : j = id
    · subst same
      exact Or.inr ⟨_, rfl⟩
    · refine Or.inl ⟨x, ?_, alive⟩
      exact (getElem?_setStage ..).trans (by rw [looked]; simp [same])
  | _ => exact Or.inl ⟨x, looked, alive⟩

theorem Doomed.step {event : ServerEvent} {r : ServerProcess × List CloseCall} (doomed : Doomed p calls)
    (moves : Moves p event r) : Doomed r.1 (calls ++ r.2) := by
  rcases doomed with ⟨call, member, foreign⟩ | ⟨id, twice⟩ | ⟨id, x, looked, alive, once⟩
  · exact Or.inl ⟨call, List.mem_append_left _ member, foreign⟩
  · refine Or.inr (Or.inl ⟨id, ?_⟩)
    rw [closes_append]
    omega
  · rcases moves.alive looked alive with ⟨y, found, going⟩ | ⟨hit, closed⟩
    · refine Or.inr (Or.inr ⟨id, y, found, going, ?_⟩)
      rw [closes_append]
      omega
    · refine Or.inr (Or.inl ⟨id, ?_⟩)
      rw [closed, closes_append, closes_loop, if_pos rfl]
      omega

/-- A client that is dropped is doomed: its number is closed and its loop goes on. -/
theorem Orderly.doomed (handler : RequestHandler) {event : ServerEvent} (o : Orderly p calls)
    (somebody : ¬DropsNobody (p, event)) :
    Doomed (ServerProcess.step handler p event).1 (calls ++ (ServerProcess.step handler p event).2) := by
  cases event with
  | closeNext =>
    simp only [DropsNobody, Classical.not_imp] at somebody
    obtain ⟨stage, listed⟩ := somebody
    obtain ⟨fd, fds, split⟩ := List.exists_cons_of_ne_nil listed
    obtain ⟨id, looked⟩ := o.listed fd (by rw [split]; exact List.mem_cons_self ..)
    have own : p.table fd = some (.client id) := o.held id _ looked (by simp)
    have dropped : ServerProcess.step handler p .closeNext =
        ({ p.dropAllClients.1 with closing := .closeListenFd }, p.dropAllClients.2) := by
      simp only [ServerProcess.step, ServerProcess.closeNext, stage]
    refine Or.inr (Or.inr ⟨id, ⟨fd, .serving⟩, ?_, Or.inl rfl, ?_⟩)
    · rw [dropped]
      exact looked
    · have first : 1 ≤ closes id p.dropAllClients.2 := by
        rw [ServerProcess.dropAllClients, split, ServerProcess.closeAll, own]
        exact List.countP_pos_iff.mpr ⟨_, List.mem_cons_self .., by simp [CloseCall.madeFor]⟩
      rw [dropped, closes_append]
      dsimp only
      omega
  | _ => exact absurd trivial somebody

end Steps

section Runs
variable (handler : RequestHandler) (es : List ServerEvent)

/-- The state after a run from the start. -/
def serverAfter : ServerProcess := run (ServerProcess.step handler) {} es

/-- The calls of `closeFd` in a run from the start. -/
def closeCalls : List CloseCall := outputs (ServerProcess.step handler) {} es

theorem doomed_or_orderly : Orderly (serverAfter handler es) (closeCalls handler es) ∨
    Doomed (serverAfter handler es) (closeCalls handler es) := by
  apply history_always (ServerProcess.step handler) es (I := fun p calls => Orderly p calls ∨ Doomed p calls)
  · exact Or.inl orderly_start
  · intro p calls event holds
    rcases holds with orderly | doomed
    · by_cases nobody : DropsNobody (p, event)
      · exact Or.inl (orderly.step (moves_step handler p event) nobody)
      · exact Or.inr (orderly.doomed handler nobody)
    · exact Or.inr (doomed.step (moves_step handler p event))

theorem orderly_of_nobody (nobody : ∀ v ∈ visits (ServerProcess.step handler) {} es, DropsNobody v) :
    Orderly (serverAfter handler es) (closeCalls handler es) :=
  history_invariant (ServerProcess.step handler) es (A := fun p event => DropsNobody (p, event)) orderly_start
    (fun p _ event orderly nobody => orderly.step (moves_step handler p event) nobody) nobody

/-- Once a listed client has been dropped the run stays doomed. -/
theorem doomed_of_drop (somebody : ∃ v ∈ visits (ServerProcess.step handler) {} es, ¬DropsNobody v) :
    Doomed (serverAfter handler es) (closeCalls handler es) := by
  induction es using List.reverseRecOn with
  | nil =>
    obtain ⟨v, visited, _⟩ := somebody
    cases visited
  | append_singleton es event ih =>
    rw [serverAfter, closeCalls, run_concat, outputs_concat]
    obtain ⟨v, visited, drop⟩ := somebody
    rw [visits_concat] at visited
    rcases List.mem_append.mp visited with before | now
    · exact (ih ⟨v, before, drop⟩).step (moves_step handler _ event)
    · cases List.mem_singleton.mp now
      rcases doomed_or_orderly handler es with orderly | doomed
      · exact orderly.doomed handler drop
      · exact doomed.step (moves_step handler _ event)

variable {p : ServerProcess} {calls : List CloseCall} {id fd : Nat}

/-- A loop that has left the list closes its number, whoever has closed it before. -/
theorem outputs_closeFd (looked : p.loops[id]? = some ⟨fd, .erased⟩) :
    ∃ hit, outputs (ServerProcess.step handler) p [.closeFd id] = [⟨some id, hit⟩] := by
  refine ⟨p.table fd, ?_⟩
  simp [outputs, ServerProcess.step, looked, ServerProcess.closeFd, ServerProcess.setStage]

/-- A loop may end at any time. -/
theorem step_turn (looked : p.loops[id]? = some ⟨fd, .serving⟩) :
    ServerProcess.step handler p (.turn id {}) = (p.eraseClient id fd, []) := by
  have ends : Turn.ends handler p.server.running {} = true := by simp [Turn.ends, mbapRequest, parseMbap]
  simp [ServerProcess.step, looked, ends]

theorem not_closedOnce {q : ServerProcess} {hit : Option Holder} (once : 1 ≤ closes id calls) :
    ¬ClosedOnce q (calls ++ [⟨some id, hit⟩]) := by
  intro law
  have most := law.atMost id
  rw [closes_append, closes_loop, if_pos rfl] at most
  omega

/-- A doomed run breaks the law as it is, or as soon as a loop ends whose descriptor is closed. -/
theorem Doomed.breaks (doomed : Doomed p calls) : ∃ fs, (∀ event ∈ fs, ServerEvent.OfLoop event) ∧
    ¬ClosedOnce (run (ServerProcess.step handler) p fs) (calls ++ outputs (ServerProcess.step handler) p fs) := by
  rcases doomed with ⟨call, member, foreign⟩ | ⟨id, twice⟩ | ⟨id, ⟨fd, stage⟩, looked, rfl | rfl, once⟩
  · refine ⟨[], by simp, fun law => ?_⟩
    exact foreign (law.owned call (List.mem_append_left _ member))
  · refine ⟨[], by simp, fun law => ?_⟩
    have most := law.atMost id
    rw [closes_append] at most
    omega
  · refine ⟨[.turn id {}, .closeFd id], by simp [ServerEvent.OfLoop], ?_⟩
    have erased : (p.eraseClient id fd).loops[id]? = some ⟨fd, .erased⟩ :=
      (getElem?_setStage ..).trans (by rw [looked]; simp)
    obtain ⟨hit, closed⟩ := outputs_closeFd handler erased
    have all : outputs (ServerProcess.step handler) p [.turn id {}, .closeFd id] = [⟨some id, hit⟩] := by
      rw [outputs, step_turn handler looked]
      exact closed
    rw [all]
    exact not_closedOnce once
  · refine ⟨[.closeFd id], by simp [ServerEvent.OfLoop], ?_⟩
    obtain ⟨hit, closed⟩ := outputs_closeFd handler looked
    rw [closed]
    exact not_closedOnce once

/-- A run closes every client's descriptor once, however its client loops end after it, if and only if it
never drops a listed client. -/
theorem closed_once_iff : (∀ v ∈ visits (ServerProcess.step handler) {} es, DropsNobody v) ↔
    ∀ pre, pre <+: es → ∀ fs, (∀ event ∈ fs, ServerEvent.OfLoop event) →
      ClosedOnce (serverAfter handler (pre ++ fs)) (closeCalls handler (pre ++ fs)) := by
  constructor
  · rintro nobody pre ⟨post, rfl⟩ fs ofLoops
    refine (orderly_of_nobody handler (pre ++ fs) fun v visited => ?_).closedOnce
    rw [visits_append] at visited
    rcases List.mem_append.mp visited with before | later
    · exact nobody v (by rw [visits_append]; exact List.mem_append_left _ before)
    · have event : v.2 ∈ fs := by
        rw [← visits_map_snd (ServerProcess.step handler) _ fs]
        exact List.mem_map_of_mem later
      exact (ofLoops v.2 event).dropsNobody
  · intro law
    by_contra somebody
    push Not at somebody
    obtain ⟨fs, ofLoops, broken⟩ := (doomed_of_drop handler es somebody).breaks handler
    refine broken ?_
    have kept := law es (List.prefix_refl es) fs ofLoops
    rwa [serverAfter, closeCalls, run_append, outputs_append] at kept

end Runs

/-- A client is dropped, the server opened again and the number given to the next client before the loop
of the first one ends. -/
def reusedNumber : List ServerEvent :=
  [.open 3, .accept 5, .pushBack, .close, .closeNext, .closeNext, .acceptFails, .closeNext, .open 3, .accept 5,
    .pushBack, .turn 0 {}, .closeFd 0]

theorem closed_once_fails :
    ¬ClosedOnce (serverAfter (fun _ _ => []) reusedNumber) (closeCalls (fun _ _ => []) reusedNumber) := by
  intro law
  have foreign := law.owned ⟨some 0, some (.client 1)⟩ (by decide)
  cases foreign

end EnerSentry.Sim
