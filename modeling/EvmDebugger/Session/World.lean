import EvmDebugger.Lib.Runs
import EvmDebugger.Replay.Evm
import EvmDebugger.Session.Data

/-!
# A session and everybody who uses it

A session is shared: any number of requests, the background task that waits for the trace, and
the thread that produces it. Each holds the lock for one critical section at a time, and
between two critical sections anything may happen. `EvmDebugger.World` is the session together
with what is in flight – the channel, the callers of `wait_for_snapshots` that have taken the
receiver, the callers of `abort` that have stored the flag – and `EvmDebugger.World.step` is
one atomic action of one of them. An interleaving is a list of actions.

`wait_for_snapshots` overwrites whatever it finds, unless it finds the session aborted. What
makes that right is nowhere in the code: the receiver is there exactly until somebody has taken
it, and as long as it is there, or somebody is still waiting on it, the session has no trace.
That is the invariant `EvmDebugger.World.Ok`, and `EvmDebugger.session_safe` draws the
consequences for every interleaving.
-/

namespace EvmDebugger

/-! ### The session, the channel and the callers -/

/-- A debug session. `snapRx` says whether the receiver is still there to be taken. -/
structure DebugSession where
  data : SessionData
  snapRx : Bool
  abortFlag : Bool
  lastAccessSecs : ℕ
  deriving DecidableEq

namespace DebugSession

/-- A session waiting for its trace. -/
def new (now : ℕ) : DebugSession where
  data := .loading
  snapRx := true
  abortFlag := false
  lastAccessSecs := now

/-- A session whose trace was in the cache. -/
def fromCache (snapshots : List StepSnapshot) (result : Option ExecutionResultInfo) (now : ℕ) :
    DebugSession where
  data := .ready snapshots 0 result
  snapRx := false
  abortFlag := false
  lastAccessSecs := now

end DebugSession

/-- A caller of `wait_for_snapshots` that has taken the receiver: it blocks in `recv`, or has
been given something and is about to lock the data. -/
inductive Waiter where
  | receiving
  | received (msg : ChannelMessage)
  deriving DecidableEq

/-- A session, the channel to it and the calls in flight. The channel holds one message;
`consumed` is a history of what the receives have returned, a message or a disconnection. -/
structure World where
  session : DebugSession
  buffer : Option ChannelMessage
  senderAlive : Bool
  waiters : List Waiter
  aborting : ℕ
  consumed : List (Option ChannelMessage)
  deriving DecidableEq

/-- What a receive that returned nothing stands for. -/
def messageOf (got : Option ChannelMessage) : ChannelMessage :=
  got.getD (.error "EVM thread disconnected")

/-- The atomic actions. `abort` is two of them and `wait_for_snapshots` three; every other
operation is one critical section. -/
inductive Action where
  | waitTake
  | waitRecv (caller : ℕ)
  | waitPublish (caller : ℕ)
  | stepInto
  | stepOver
  | continueExec
  | abortStore
  | abortWrite
  | currentState
  | getTraceSteps
  | snapshotsForCache
  | touch (now : ℕ)
  | send (msg : ChannelMessage)
  | disconnect
  deriving DecidableEq

/-- The actions of a client's request. -/
def Action.isCommand : Action → Bool
  | waitTake | waitRecv _ | waitPublish _ | send _ | disconnect => false
  | _ => true

/-- The time of an access. -/
def Action.accessTime : Action → Option ℕ
  | touch now => some now
  | _ => none

namespace World

/-- A session just made, with its channel. -/
def new (now : ℕ) : World where
  session := .new now
  buffer := none
  senderAlive := true
  waiters := []
  aborting := 0
  consumed := []

/-- A session made from the cache; it never had a channel. -/
def fromCache (snapshots : List StepSnapshot) (result : Option ExecutionResultInfo) (now : ℕ) :
    World where
  session := .fromCache snapshots result now
  buffer := none
  senderAlive := false
  waiters := []
  aborting := 0
  consumed := []

/-- Replace the data of the session. -/
def setData (w : World) (data : SessionData) : World :=
  { w with session := { w.session with data := data } }

/-- What a command does to the session. -/
def command (w : World) : Action → Option World
  | .stepInto => some (w.setData w.session.data.stepInto.1)
  | .stepOver => some (w.setData w.session.data.stepOver.1)
  | .continueExec => some (w.setData w.session.data.continueExec.1)
  | .abortStore =>
    some { w with session := { w.session with abortFlag := true }, aborting := w.aborting + 1 }
  | .abortWrite =>
    if 0 < w.aborting then
      some { w.setData w.session.data.abort with aborting := w.aborting - 1 }
    else none
  | .touch now => some { w with session := { w.session with lastAccessSecs := now } }
  | .currentState => some w
  | .getTraceSteps => some w
  | .snapshotsForCache => some w
  | _ => none

/-- `recv`: a message if there is one; a disconnection if there is none and there will be
none; otherwise the caller blocks. -/
def recv (w : World) : Option (Option ChannelMessage) :=
  match w.buffer with
  | some msg => some (some msg)
  | none => if w.senderAlive then none else some none

/-- **One atomic action.** -/
def step (w : World) : Action → Option World
  | .waitTake =>
    if w.session.snapRx then
      some { w with
        session := { w.session with snapRx := false }
        waiters := w.waiters ++ [.receiving] }
    else
      -- the receiver is gone: the call returns at once, with an error of its own
      some w
  | .waitRecv caller =>
    match w.waiters[caller]? with
    | some .receiving =>
      w.recv.map fun got =>
        { w with
          buffer := none
          waiters := w.waiters.set caller (.received (messageOf got))
          consumed := w.consumed ++ [got] }
    | _ => none
  | .waitPublish caller =>
    match w.waiters[caller]? with
    | some (.received msg) =>
      some { w.setData (w.session.data.publish msg).1 with
        waiters := w.waiters.eraseIdx caller }
    | _ => none
  | .send msg =>
    if w.senderAlive = true ∧ w.buffer = none then some { w with buffer := some msg } else none
  | .disconnect => if w.senderAlive then some { w with senderAlive := false } else none
  | action => w.command action

/-! ### What an action does -/

variable {w w' : World}

/-- A client's action is a command. -/
theorem step_eq_command {action : Action} (h : action.isCommand = true) :
    w.step action = w.command action := by
  cases action <;> first | rfl | exact absurd h (by simp [Action.isCommand])

/-- **A command changes the data as a command may**, and leaves the receiver, the channel and
the callers waiting on it alone. -/
theorem command_eq_some {action : Action} (h : w.step action = some w')
    (hc : action.isCommand = true) (hidx : w.session.data.IndexOk) :
    SessionData.Served w.session.data w'.session.data ∧ w'.session.snapRx = w.session.snapRx ∧
      w'.buffer = w.buffer ∧ w'.senderAlive = w.senderAlive ∧ w'.waiters = w.waiters ∧
      w'.consumed = w.consumed := by
  rw [step_eq_command hc] at h
  cases action with
  | stepInto =>
    obtain rfl := Option.some.inj h
    exact ⟨SessionData.served_stepInto hidx, rfl, rfl, rfl, rfl, rfl⟩
  | stepOver =>
    obtain rfl := Option.some.inj h
    exact ⟨SessionData.served_stepOver hidx, rfl, rfl, rfl, rfl, rfl⟩
  | continueExec =>
    obtain rfl := Option.some.inj h
    exact ⟨SessionData.served_continueExec hidx, rfl, rfl, rfl, rfl, rfl⟩
  | abortWrite =>
    rw [command] at h
    split at h
    · obtain rfl := Option.some.inj h
      exact ⟨SessionData.served_abort _, rfl, rfl, rfl, rfl, rfl⟩
    · exact absurd h (by simp)
  | abortStore | touch _ | currentState | getTraceSteps | snapshotsForCache =>
    obtain rfl := Option.some.inj h
    exact ⟨SessionData.Served.refl hidx, rfl, rfl, rfl, rfl, rfl⟩
  | waitTake | waitRecv _ | waitPublish _ | send _ | disconnect =>
    exact absurd hc (by simp [Action.isCommand])

/-- What a receive returns: what is there, or, if nothing is and nobody is left to send
anything, a disconnection. -/
theorem recv_eq_some {got : Option ChannelMessage} (h : w.recv = some got) :
    (∃ msg, w.buffer = some msg ∧ got = some msg) ∨
      w.buffer = none ∧ w.senderAlive = false ∧ got = none := by
  rw [recv] at h
  split at h
  · next msg hmsg => exact Or.inl ⟨msg, hmsg, (Option.some.inj h).symm⟩
  · next hnone =>
    split at h
    · exact absurd h (by simp)
    · next halive => exact Or.inr ⟨hnone, by simpa using halive, (Option.some.inj h).symm⟩

theorem waitRecv_eq_some {caller : ℕ} (h : w.step (.waitRecv caller) = some w') :
    w.waiters[caller]? = some .receiving ∧ ∃ got, w.recv = some got ∧
      w' = { w with
        buffer := none
        waiters := w.waiters.set caller (.received (messageOf got))
        consumed := w.consumed ++ [got] } := by
  rw [step] at h
  split at h
  · next hw =>
    obtain ⟨got, hgot, rfl⟩ := Option.map_eq_some_iff.mp h
    exact ⟨hw, got, hgot, rfl⟩
  · exact absurd h (by simp)

theorem waitPublish_eq_some {caller : ℕ} (h : w.step (.waitPublish caller) = some w') :
    ∃ msg, w.waiters[caller]? = some (.received msg) ∧
      w' = { w.setData (w.session.data.publish msg).1 with
        waiters := w.waiters.eraseIdx caller } := by
  rw [step] at h
  split at h
  · next msg hw => exact ⟨msg, hw, (Option.some.inj h).symm⟩
  · exact absurd h (by simp)

theorem send_eq_some {msg : ChannelMessage} (h : w.step (.send msg) = some w') :
    w.senderAlive = true ∧ w.buffer = none ∧ w' = { w with buffer := some msg } := by
  rw [step] at h
  split at h
  · next hc => exact ⟨hc.1, hc.2, (Option.some.inj h).symm⟩
  · exact absurd h (by simp)

theorem disconnect_eq_some (h : w.step .disconnect = some w') :
    w.senderAlive = true ∧ w' = { w with senderAlive := false } := by
  rw [step] at h
  split at h
  · next hc => exact ⟨hc, (Option.some.inj h).symm⟩
  · exact absurd h (by simp)

/-- **What an action does to a session**, its data and its receiver apart: an abort stores the flag,
and a touch the time. -/
theorem session_step {action : Action} (h : w.step action = some w') :
    w'.session.abortFlag = (w.session.abortFlag || action == .abortStore) ∧
      w'.session.lastAccessSecs = action.accessTime.getD w.session.lastAccessSecs := by
  cases action with
  | waitTake =>
    rw [step] at h
    split at h <;> exact Option.some.inj h ▸ ⟨(Bool.or_false _).symm, rfl⟩
  | waitRecv caller =>
    obtain ⟨-, got, -, rfl⟩ := waitRecv_eq_some h
    exact ⟨(Bool.or_false _).symm, rfl⟩
  | waitPublish caller =>
    obtain ⟨msg, -, rfl⟩ := waitPublish_eq_some h
    exact ⟨(Bool.or_false _).symm, rfl⟩
  | send msg =>
    obtain ⟨-, -, rfl⟩ := send_eq_some h
    exact ⟨(Bool.or_false _).symm, rfl⟩
  | disconnect =>
    obtain ⟨-, rfl⟩ := disconnect_eq_some h
    exact ⟨(Bool.or_false _).symm, rfl⟩
  | abortStore =>
    obtain rfl := Option.some.inj h
    exact ⟨(Bool.or_true _).symm, rfl⟩
  | abortWrite =>
    rw [step_eq_command rfl, command] at h
    split at h
    · obtain rfl := Option.some.inj h
      exact ⟨(Bool.or_false _).symm, rfl⟩
    · exact absurd h (by simp)
  | stepInto | stepOver | continueExec | touch _ | currentState | getTraceSteps
  | snapshotsForCache =>
    obtain rfl := Option.some.inj h
    exact ⟨(Bool.or_false _).symm, rfl⟩

/-- Only an abort stores the flag. -/
theorem abortFlag_step {action : Action} (h : w.step action = some w')
    (hne : action ≠ .abortStore) : w'.session.abortFlag = w.session.abortFlag := by
  rw [(session_step h).1, beq_false_of_ne hne, Bool.or_false]

end World

/-! ### The invariant -/

/-- How a session was made. -/
inductive Origin where
  | new
  | fromCache (snapshots : List StepSnapshot) (result : Option ExecutionResultInfo)
  deriving DecidableEq

namespace Origin

/-- The world a session starts in. -/
def world (o : Origin) (now : ℕ) : World :=
  match o with
  | new => .new now
  | fromCache snapshots result => .fromCache snapshots result now

/-- The trace a session was given: by the cache, or by the one message it has consumed. -/
def Delivered (o : Origin) (consumed : List (Option ChannelMessage))
    (snapshots : List StepSnapshot) (result : Option ExecutionResultInfo) : Prop :=
  match o with
  | new => consumed = [some (.allSnapshots snapshots result)]
  | fromCache snapshots' result' => snapshots = snapshots' ∧ result = result'

end Origin

namespace World

/-- **The invariant of a session.** The receiver is there, and the session has no trace; or
somebody has taken it and is waiting, and the session has no trace; or what was received has
been published once and for all; or the trace came from the cache and there never was a
receiver. -/
inductive Ok : Origin → World → Prop where
  | idle {w : World} (hrx : w.session.snapRx = true) (hwaiters : w.waiters = [])
      (hconsumed : w.consumed = []) (hdata : w.session.data.Waiting) : Ok .new w
  | receiving {w : World} (hrx : w.session.snapRx = false) (hwaiters : w.waiters = [.receiving])
      (hconsumed : w.consumed = []) (hdata : w.session.data.Waiting) : Ok .new w
  | received {w : World} (got : Option ChannelMessage) (hrx : w.session.snapRx = false)
      (hwaiters : w.waiters = [.received (messageOf got)]) (hconsumed : w.consumed = [got])
      (hdata : w.session.data.Waiting) : Ok .new w
  | published {w : World} (got : Option ChannelMessage) (hrx : w.session.snapRx = false)
      (hwaiters : w.waiters = []) (hconsumed : w.consumed = [got])
      (hdata : SessionData.Served (.ofMessage (messageOf got)) w.session.data) : Ok .new w
  | cached {w : World} (snapshots : List StepSnapshot) (result : Option ExecutionResultInfo)
      (hrx : w.session.snapRx = false) (hwaiters : w.waiters = []) (hconsumed : w.consumed = [])
      (hdata : SessionData.Served (.ready snapshots 0 result) w.session.data) :
      Ok (.fromCache snapshots result) w

variable {o : Origin} {w w' : World}

theorem ok_world (o : Origin) (now : ℕ) : Ok o (o.world now) := by
  cases o with
  | new => exact .idle rfl rfl rfl (Or.inl rfl)
  | fromCache snapshots result =>
    exact .cached snapshots result rfl rfl rfl (SessionData.Served.refl (Nat.zero_le _))

theorem indexOk_of_waiting {data : SessionData} (h : data.Waiting) : data.IndexOk := by
  rcases h with rfl | rfl <;> trivial

/-- The index is in range throughout. -/
theorem Ok.indexOk (h : Ok o w) : w.session.data.IndexOk := by
  cases h with
  | idle _ _ _ hdata => exact indexOk_of_waiting hdata
  | receiving _ _ _ hdata => exact indexOk_of_waiting hdata
  | received got _ _ _ hdata => exact indexOk_of_waiting hdata
  | published got _ _ _ hdata => exact hdata.indexOk (SessionData.indexOk_ofMessage _)
  | cached snapshots result _ _ _ hdata => exact hdata.indexOk (Nat.zero_le _)

/-- **What commands may do leaves the invariant in place**, whoever is waiting. -/
theorem Ok.served (h : Ok o w) (hdata : SessionData.Served w.session.data w'.session.data)
    (hrx : w'.session.snapRx = w.session.snapRx) (hwaiters : w'.waiters = w.waiters)
    (hconsumed : w'.consumed = w.consumed) : Ok o w' := by
  cases h with
  | idle h₁ h₂ h₃ h₄ =>
    exact .idle (hrx.trans h₁) (hwaiters.trans h₂) (hconsumed.trans h₃) (hdata.waiting h₄)
  | receiving h₁ h₂ h₃ h₄ =>
    exact .receiving (hrx.trans h₁) (hwaiters.trans h₂) (hconsumed.trans h₃) (hdata.waiting h₄)
  | received got h₁ h₂ h₃ h₄ =>
    exact .received got (hrx.trans h₁) (hwaiters.trans h₂) (hconsumed.trans h₃)
      (hdata.waiting h₄)
  | published got h₁ h₂ h₃ h₄ =>
    exact .published got (hrx.trans h₁) (hwaiters.trans h₂) (hconsumed.trans h₃)
      (h₄.trans hdata)
  | cached snapshots result h₁ h₂ h₃ h₄ =>
    exact .cached snapshots result (hrx.trans h₁) (hwaiters.trans h₂) (hconsumed.trans h₃)
      (h₄.trans hdata)

/-- The receiver can be taken once. -/
theorem Ok.waitTake (h : Ok o w) (hs : w.step .waitTake = some w') : Ok o w' := by
  rw [step] at hs
  split at hs
  · next hrx =>
    obtain rfl := Option.some.inj hs
    cases h with
    | idle _ h₂ h₃ h₄ => exact .receiving rfl (congrArg (· ++ [_]) h₂) h₃ h₄
    | receiving h₁ => exact absurd (hrx.symm.trans h₁) (by simp)
    | received _ h₁ => exact absurd (hrx.symm.trans h₁) (by simp)
    | published _ h₁ => exact absurd (hrx.symm.trans h₁) (by simp)
    | cached _ _ h₁ => exact absurd (hrx.symm.trans h₁) (by simp)
  · obtain rfl := Option.some.inj hs
    exact h

/-- The only caller of an invariant world. -/
theorem Ok.waiter (h : Ok o w) {caller : ℕ} {x : Waiter} (hx : w.waiters[caller]? = some x) :
    caller = 0 ∧ w.waiters = [x] ∧ o = .new ∧ w.session.snapRx = false ∧
      w.session.data.Waiting ∧
      ((x = .receiving ∧ w.consumed = []) ∨
        ∃ got, x = .received (messageOf got) ∧ w.consumed = [got]) := by
  cases h with
  | idle _ h₂ => exact absurd hx (by simp [h₂])
  | receiving h₁ h₂ h₃ h₄ =>
    rw [h₂, List.getElem?_singleton] at hx
    split at hx
    · next hzero =>
      obtain rfl := Option.some.inj hx
      exact ⟨hzero, h₂, rfl, h₁, h₄, Or.inl ⟨rfl, h₃⟩⟩
    · exact absurd hx (by simp)
  | received got h₁ h₂ h₃ h₄ =>
    rw [h₂, List.getElem?_singleton] at hx
    split at hx
    · next hzero =>
      obtain rfl := Option.some.inj hx
      exact ⟨hzero, h₂, rfl, h₁, h₄, Or.inr ⟨got, rfl, h₃⟩⟩
    · exact absurd hx (by simp)
  | published _ _ h₂ => exact absurd hx (by simp [h₂])
  | cached _ _ _ h₂ => exact absurd hx (by simp [h₂])

/-- The receive of the one caller. -/
theorem Ok.waitRecv (h : Ok o w) {caller : ℕ} (hs : w.step (.waitRecv caller) = some w') :
    Ok o w' := by
  obtain ⟨hx, got, -, rfl⟩ := waitRecv_eq_some hs
  obtain ⟨rfl, hwaiters, rfl, hrx, hdata, ⟨-, hconsumed⟩ | ⟨_, hrec, -⟩⟩ := h.waiter hx
  · refine .received got hrx ?_ ?_ hdata
    · show w.waiters.set 0 (.received (messageOf got)) = [.received (messageOf got)]
      rw [hwaiters, List.set_cons_zero]
    · show w.consumed ++ [got] = [got]
      rw [hconsumed, List.nil_append]
  · exact absurd hrec (by simp)

/-- **The one publication**: it finds a session without a trace. -/
theorem Ok.waitPublish (h : Ok o w) {caller : ℕ} (hs : w.step (.waitPublish caller) = some w') :
    Ok o w' := by
  obtain ⟨msg, hx, rfl⟩ := waitPublish_eq_some hs
  obtain ⟨rfl, hwaiters, rfl, hrx, hdata, ⟨hrec, -⟩ | ⟨got, hrec, hconsumed⟩⟩ := h.waiter hx
  · exact absurd hrec (by simp)
  · obtain rfl := Waiter.received.inj hrec
    refine .published got hrx ?_ hconsumed ?_
    · show w.waiters.eraseIdx 0 = []
      rw [hwaiters, List.eraseIdx_cons_zero]
    · show SessionData.Served (.ofMessage (messageOf got))
        (w.session.data.publish (messageOf got)).1
      rcases hdata with hloading | haborted
      · rw [SessionData.publish_of_ne_aborted _ (by simp [hloading])]
        exact SessionData.Served.refl (SessionData.indexOk_ofMessage _)
      · rw [haborted, SessionData.publish_aborted]
        exact SessionData.served_abort _

/-- **Every action keeps the invariant.** -/
theorem Ok.step (h : Ok o w) {action : Action} (hs : w.step action = some w') : Ok o w' := by
  cases action with
  | waitTake => exact h.waitTake hs
  | waitRecv caller => exact h.waitRecv hs
  | waitPublish caller => exact h.waitPublish hs
  | send msg =>
    obtain ⟨-, -, rfl⟩ := send_eq_some hs
    exact h.served (SessionData.Served.refl h.indexOk) rfl rfl rfl
  | disconnect =>
    obtain ⟨-, rfl⟩ := disconnect_eq_some hs
    exact h.served (SessionData.Served.refl h.indexOk) rfl rfl rfl
  | _ =>
    obtain ⟨hdata, hrx, -, -, hwaiters, hconsumed⟩ := command_eq_some hs rfl h.indexOk
    exact h.served hdata hrx hwaiters hconsumed

/-- **Every interleaving keeps the invariant.** -/
theorem ok_of_run {now : ℕ} {actions : List Action}
    (h : Runs.run step (o.world now) actions = some w) : Ok o w :=
  Runs.run_invariant (fun _ _ _ h hs => h.step hs) (ok_world o now) h

/-- **Every action makes an allowed move.** -/
theorem Ok.moves (h : Ok o w) {action : Action} (hs : w.step action = some w') :
    SessionData.Moves w.session.data w'.session.data := by
  have hstay : SessionData.Moves w.session.data w.session.data :=
    Or.inl (SessionData.Served.refl h.indexOk)
  cases action with
  | waitTake =>
    rw [World.step] at hs
    split at hs <;> exact Option.some.inj hs ▸ hstay
  | waitRecv caller =>
    obtain ⟨-, got, -, rfl⟩ := waitRecv_eq_some hs
    exact hstay
  | waitPublish caller =>
    obtain ⟨msg, hx, rfl⟩ := waitPublish_eq_some hs
    exact SessionData.moves_publish msg (h.waiter hx).2.2.2.2.1
  | send msg =>
    obtain ⟨-, -, rfl⟩ := send_eq_some hs
    exact hstay
  | disconnect =>
    obtain ⟨-, rfl⟩ := disconnect_eq_some hs
    exact hstay
  | _ => exact Or.inl (command_eq_some hs rfl h.indexOk).1

/-- At most one receive has returned. -/
theorem Ok.length_consumed_le (h : Ok o w) : w.consumed.length ≤ 1 := by
  cases h with
  | idle _ _ hconsumed => simp [hconsumed]
  | receiving _ _ hconsumed => simp [hconsumed]
  | received got _ _ hconsumed => simp [hconsumed]
  | published got _ _ hconsumed => simp [hconsumed]
  | cached snapshots result _ _ hconsumed => simp [hconsumed]

/-- **A session that is ready shows the trace it was given.** -/
theorem Ok.delivered (h : Ok o w) {snapshots : List StepSnapshot} {i : ℕ}
    {result : Option ExecutionResultInfo} (hready : w.session.data = .ready snapshots i result) :
    o.Delivered w.consumed snapshots result := by
  have hnot : ¬w.session.data.Waiting := by
    rw [hready]
    rintro (h | h) <;> exact absurd h (by simp)
  cases h with
  | idle _ _ _ hdata => exact absurd hdata hnot
  | receiving _ _ _ hdata => exact absurd hdata hnot
  | received got _ _ _ hdata => exact absurd hdata hnot
  | published got _ _ hconsumed hdata =>
    rw [hready] at hdata
    rcases got with _ | ⟨snapshots', result'⟩ | message
    · rcases hdata with h | h <;> exact absurd h (by simp)
    · rcases hdata with h | ⟨j, -, -, h⟩
      · exact absurd h (by simp)
      · obtain ⟨rfl, -, rfl⟩ := SessionData.ready.inj h
        exact hconsumed
    · rcases hdata with h | h <;> exact absurd h (by simp)
  | cached snapshots' result' _ _ _ hdata =>
    rw [hready] at hdata
    rcases hdata with h | ⟨j, -, -, h⟩
    · exact absurd h (by simp)
    · obtain ⟨rfl, -, rfl⟩ := SessionData.ready.inj h
      exact ⟨rfl, rfl⟩

/-! ### Where a trace comes from -/

/-- What an action does to the channel: a message is put into it, or received from it, or
nothing. -/
theorem channel_step (h : Ok o w) {action : Action} (hs : w.step action = some w') :
    (∃ msg, action = .send msg ∧ w'.buffer = some msg ∧ w'.consumed = w.consumed) ∨
      (∃ got, (∀ msg, got = some msg → w.buffer = some msg) ∧ w'.buffer = none ∧
        w'.consumed = w.consumed ++ [got]) ∨
      (w'.buffer = w.buffer ∧ w'.consumed = w.consumed) := by
  cases action with
  | waitTake =>
    rw [World.step] at hs
    split at hs <;> exact Or.inr (Or.inr (Option.some.inj hs ▸ ⟨rfl, rfl⟩))
  | waitRecv caller =>
    obtain ⟨-, got, hgot, rfl⟩ := waitRecv_eq_some hs
    refine Or.inr (Or.inl ⟨got, fun msg hmsg => ?_, rfl, rfl⟩)
    rcases recv_eq_some hgot with ⟨msg', hbuffer, rfl⟩ | ⟨-, -, rfl⟩
    · exact hbuffer.trans hmsg
    · exact absurd hmsg (by simp)
  | waitPublish caller =>
    obtain ⟨msg, -, rfl⟩ := waitPublish_eq_some hs
    exact Or.inr (Or.inr ⟨rfl, rfl⟩)
  | send msg =>
    obtain ⟨-, -, rfl⟩ := send_eq_some hs
    exact Or.inl ⟨msg, rfl, rfl, rfl⟩
  | disconnect =>
    obtain ⟨-, rfl⟩ := disconnect_eq_some hs
    exact Or.inr (Or.inr ⟨rfl, rfl⟩)
  | _ =>
    obtain ⟨-, -, hbuffer, -, -, hconsumed⟩ := command_eq_some hs rfl h.indexOk
    exact Or.inr (Or.inr ⟨hbuffer, hconsumed⟩)

/-- **What has been received stays received.** -/
theorem consumed_prefix_of_run (h : Ok o w) {actions : List Action}
    (hrun : Runs.run step w actions = some w') : w.consumed <+: w'.consumed := by
  refine (Runs.run_invariant (motive := fun s => Ok o s ∧ w.consumed <+: s.consumed) ?_
    ⟨h, List.prefix_rfl⟩ hrun).2
  rintro s action t ⟨hok, hprefix⟩ hstep
  refine ⟨hok.step hstep, hprefix.trans ?_⟩
  rcases channel_step hok hstep with ⟨msg, -, -, hcon⟩ | ⟨got, -, -, hcon⟩ | ⟨-, hcon⟩
  · rw [hcon]
  · rw [hcon]
    exact List.prefix_append _ _
  · rw [hcon]

/-- **What is in the channel was sent, and so was what came out of it.** -/
theorem sent_of_run {now : ℕ} {actions : List Action}
    (h : Runs.run step (o.world now) actions = some w) :
    (∀ msg, w.buffer = some msg → Action.send msg ∈ actions) ∧
      ∀ msg, some msg ∈ w.consumed → Action.send msg ∈ actions := by
  refine Runs.run_induction
    (motive := fun as s => (∀ msg, s.buffer = some msg → Action.send msg ∈ as) ∧
      ∀ msg, some msg ∈ s.consumed → Action.send msg ∈ as) ?_ ?_ h
  · refine ⟨fun msg hmsg => ?_, fun msg hmsg => ?_⟩ <;> cases o <;>
      simp [Origin.world, new, fromCache] at hmsg
  · rintro as action s t hrun ⟨hbuffer, hconsumed⟩ hstep
    have hold : ∀ msg, some msg ∈ s.consumed → Action.send msg ∈ as ++ [action] :=
      fun msg hmsg => List.mem_append_left _ (hconsumed msg hmsg)
    rcases channel_step (ok_of_run hrun) hstep with
      ⟨msg, rfl, hbuf, hcon⟩ | ⟨got, hgot, hbuf, hcon⟩ | ⟨hbuf, hcon⟩
    · rw [hbuf, hcon]
      refine ⟨fun msg' hmsg => ?_, hold⟩
      obtain rfl := Option.some.inj hmsg
      exact List.mem_append_right _ (List.mem_singleton_self _)
    · rw [hbuf, hcon]
      refine ⟨fun msg' hmsg => absurd hmsg (by simp), fun msg' hmsg => ?_⟩
      rcases List.mem_append.mp hmsg with hmsg | hmsg
      · exact hold msg' hmsg
      · exact List.mem_append_left _ (hbuffer msg' (hgot msg' (List.mem_singleton.mp hmsg).symm))
    · rw [hbuf, hcon]
      exact ⟨fun msg' hmsg => List.mem_append_left _ (hbuffer msg' hmsg), hold⟩

end World

/-- The traces a session can come to show: that of the cache, or those it is sent. -/
def Origin.Gives (o : Origin) (actions : List Action) (snapshots : List StepSnapshot)
    (result : Option ExecutionResultInfo) : Prop :=
  match o with
  | new => Action.send (.allSnapshots snapshots result) ∈ actions
  | fromCache snapshots' result' => snapshots = snapshots' ∧ result = result'

/-- **A session that is ready shows the trace of the cache, or one it was sent.** -/
theorem World.gives_of_ready {o : Origin} {now : ℕ} {actions : List Action} {w : World}
    (h : Runs.run step (o.world now) actions = some w) {snapshots : List StepSnapshot} {i : ℕ}
    {result : Option ExecutionResultInfo} (hready : w.session.data = .ready snapshots i result) :
    o.Gives actions snapshots result := by
  have hdelivered := (ok_of_run h).delivered hready
  cases o with
  | fromCache snapshots' result' => exact hdelivered
  | new =>
    refine (sent_of_run h).2 _ ?_
    rw [show w.consumed = [some (.allSnapshots snapshots result)] from hdelivered]
    exact List.mem_singleton_self _

/-- **A session is safe in every interleaving.** However it was made, and whatever has
happened to it so far: whatever happens next is an allowed move; at most one receive has
returned; a caller about to publish what it received finds no trace and no error in its way;
and while the session is ready, it shows the trace it was given, at an index in range. -/
theorem session_safe (o : Origin) (now : ℕ) {actions : List Action} {w : World}
    (h : Runs.run World.step (o.world now) actions = some w) :
    (∀ action w', w.step action = some w' →
        SessionData.Moves w.session.data w'.session.data) ∧
      w.consumed.length ≤ 1 ∧
      (∀ (caller : ℕ) (msg : ChannelMessage),
        w.waiters[caller]? = some (.received msg) → w.session.data.Waiting) ∧
      ∀ snapshots i result, w.session.data = .ready snapshots i result →
        o.Delivered w.consumed snapshots result ∧ i ≤ snapshots.length := by
  have hok := World.ok_of_run h
  refine ⟨fun action w' hs => hok.moves hs, hok.length_consumed_le,
    fun caller msg hx => (hok.waiter hx).2.2.2.2.1, fun snapshots i result hready => ?_⟩
  have hidx := hok.indexOk
  rw [hready] at hidx
  exact ⟨hok.delivered hready, hidx⟩

/-- An interleaving in which the message arrives between the two actions of an abort, and the
session is stepped before the second. -/
def abortAround : List Action :=
  [.waitTake, .abortStore, .send (executorMessage twoStepsTrace (.ok sampleStop)), .waitRecv 0,
    .waitPublish 0, .stepInto]

/-- The session is ready then, at the second step, and shows what it was sent. -/
theorem delivered_abortAround :
    Origin.new.Delivered
        ((Runs.run World.step (Origin.new.world 0) abortAround).get rfl).consumed
        twoStepsTrace (some sampleStop.info) ∧ 1 ≤ twoStepsTrace.length :=
  (session_safe .new 0 (Option.some_get rfl).symm).2.2.2 twoStepsTrace 1 (some sampleStop.info) rfl

/-- An abort that comes before the message is not overwritten by it. -/
example : ∀ w, Runs.run World.step (Origin.new.world 0)
    [.abortStore, .abortWrite, .waitTake, .send (executorMessage twoStepsTrace (.ok sampleStop)),
      .waitRecv 0, .waitPublish 0] = some w → w.session.data = .aborted := by
  rintro w h
  obtain rfl := Option.some.inj h
  rfl

end EvmDebugger
