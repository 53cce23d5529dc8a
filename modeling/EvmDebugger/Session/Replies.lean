import EvmDebugger.Replay.Evm
import EvmDebugger.Session.World

/-!
# What a session answers

An operation is answered by one of its actions, the last, and the answer depends on the state
that action finds (`EvmDebugger.World.reply`). This file is about one of the answers, `Aborted`.

There are three ways to it. The session has been aborted; the caller of `wait_for_snapshots`
finds that it has; and `state_at` has run out of snapshots and there is no result to report. The
last is a replay that failed after some of its steps – the executor sends what it got, without a
result – and no abort comes into it. Everywhere else the code tells the two apart: a trace
without a step and without a result is reported as an error by `wait_for_snapshots`, and so is a
failure before the first step by the executor.

`EvmDebugger.aborted_only_after_abort` says that this is the only way in which an answer is
wrong. A session that nobody has aborted answers as it should in the states in which its trace, if
it has one, came with a result, and in no others; and if whatever it is given comes with a result,
it never gets into the others.
-/

namespace EvmDebugger

/-! ### Answers -/

/-- What an operation answers. -/
inductive Reply where
  | state (state : SessionState)
  | trace (steps : List TraceStep)
  | contents (contents : Option (List StepSnapshot × Option ExecutionResultInfo))
  | done
  deriving DecidableEq

namespace World

/-- **The answer** of the operation that an action completes, if it completes one. -/
def reply (w : World) : Action → Option Reply
  | .waitTake =>
    if w.session.snapRx then none
    else some (.state (.error "Snapshot receiver already consumed"))
  | .waitPublish caller =>
    match w.waiters[caller]? with
    | some (.received msg) => some (.state (w.session.data.publish msg).2)
    | _ => none
  | .stepInto => some (.state w.session.data.stepInto.2)
  | .stepOver => some (.state w.session.data.stepOver.2)
  | .continueExec => some (.state w.session.data.continueExec.2)
  | .currentState => some (.state w.session.data.currentStateLocked)
  | .getTraceSteps => some (.trace w.session.data.getTraceSteps)
  | .snapshotsForCache => some (.contents w.session.data.snapshotsForCache)
  | .abortWrite => some .done
  | .touch _ => some .done
  | .waitRecv _ | .abortStore | .send _ | .disconnect => none

end World

/-! ### Traces without a result -/

/-- The session shows a trace that came without a result. -/
def SessionData.Resultless (data : SessionData) : Prop :=
  ∃ snapshots i, data = .ready snapshots i none

/-- The trace of a message, if it has one, comes with a result. -/
def ChannelMessage.Resulted (msg : ChannelMessage) : Prop :=
  ∀ snapshots result, msg = .allSnapshots snapshots result → result ≠ none

/-- The trace of the cache, if there was one, came with a result. -/
def Origin.Resulted (o : Origin) : Prop :=
  ∀ snapshots result, o = .fromCache snapshots result → result ≠ none

/-- **What is expected of a session nobody has aborted**: no operation says that it was; and a
replay that failed is reported as an error, once its steps are exhausted. -/
structure World.Truthful (w : World) : Prop where
  ne_aborted : ∀ action, w.reply action ≠ some (.state .aborted)
  exhausted : ∀ snapshots, w.session.data = .ready snapshots snapshots.length none →
    ∃ message, w.reply .currentState = some (.state (.error message))

namespace SessionData

variable {data : SessionData}

/-- **When the state at an index is `Aborted`**: past the end of a trace without a result. -/
theorem stateAt_eq_aborted {snapshots : List StepSnapshot} {index : ℕ}
    {result : Option ExecutionResultInfo} (h : stateAt snapshots index result = .aborted) :
    result = none := by
  rw [stateAt.eq_def] at h
  split at h
  · exact absurd h (by simp)
  · cases result with
    | none => rfl
    | some r => exact absurd h (by simp)

/-- Past the end of a trace without a result, the state is `Aborted`. -/
theorem stateAt_length (snapshots : List StepSnapshot) :
    stateAt snapshots snapshots.length none = .aborted := by
  simp only [stateAt, List.getElem?_eq_none le_rfl]

/-- Without a trace, the state is what the data says. -/
theorem currentStateLocked_ne_aborted (ha : data ≠ aborted) (hr : ¬data.Resultless) :
    data.currentStateLocked ≠ .aborted := by
  intro h
  cases data with
  | loading => exact absurd h (by simp [currentStateLocked])
  | ready snapshots i result =>
    obtain rfl : result = none := stateAt_eq_aborted h
    exact hr ⟨snapshots, i, rfl⟩
  | aborted => exact ha rfl
  | error message => exact absurd h (by simp [currentStateLocked])

/-- Nothing but the index distinguishes the data, so they came with a result or without. -/
theorem SameTrace.resultless {data' : SessionData} (h : SameTrace data data')
    (hr : data'.Resultless) : data.Resultless := by
  rcases h with rfl | ⟨snapshots, i, j, result, rfl, rfl⟩
  · exact hr
  · obtain ⟨snapshots', j', h⟩ := hr
    obtain ⟨-, -, rfl⟩ := ready.inj h
    exact ⟨snapshots, i, rfl⟩

theorem SameTrace.ne_aborted {data' : SessionData} (h : SameTrace data data')
    (ha : data ≠ aborted) : data' ≠ aborted := by
  rcases h with rfl | ⟨snapshots, i, j, result, rfl, rfl⟩
  · exact ha
  · simp

/-- Wherever a navigation command leads, the state there is not `Aborted`. -/
theorem SameTrace.currentStateLocked_ne_aborted {data' : SessionData} (h : SameTrace data data')
    (ha : data ≠ aborted) (hr : ¬data.Resultless) : data'.currentStateLocked ≠ .aborted :=
  SessionData.currentStateLocked_ne_aborted (h.ne_aborted ha) fun hr' => hr (h.resultless hr')

/-- A message is announced as an abort only to a session that has been aborted. -/
theorem publish_snd_ne_aborted (msg : ChannelMessage) (ha : data ≠ aborted) :
    (publish msg data).2 ≠ .aborted := by
  rcases msg with ⟨_ | ⟨first, rest⟩, _ | result⟩ | message <;> cases data <;>
    first | exact absurd rfl ha | simp [publish]

end SessionData

namespace World

variable {o : Origin} {now : ℕ} {actions : List Action} {w w' : World}

/-- **A session that is not aborted and not without a result does not answer `Aborted`.** -/
theorem reply_ne_aborted (ha : w.session.data ≠ .aborted) (hr : ¬w.session.data.Resultless)
    (action : Action) : w.reply action ≠ some (.state .aborted) := by
  intro h
  cases action with
  | waitTake =>
    rw [reply] at h
    split at h <;> exact absurd h (by simp)
  | waitPublish caller =>
    rw [reply] at h
    split at h
    · next msg _ =>
      exact SessionData.publish_snd_ne_aborted msg ha (Reply.state.inj (Option.some.inj h))
    · exact absurd h (by simp)
  | stepInto =>
    have hstate := Reply.state.inj (Option.some.inj h)
    rw [SessionData.stepInto_snd] at hstate
    exact (SessionData.sameTrace_stepInto _).currentStateLocked_ne_aborted ha hr hstate
  | stepOver =>
    have hstate := Reply.state.inj (Option.some.inj h)
    rw [SessionData.stepOver_snd] at hstate
    exact (SessionData.sameTrace_stepOver _).currentStateLocked_ne_aborted ha hr hstate
  | continueExec =>
    have hstate := Reply.state.inj (Option.some.inj h)
    rw [SessionData.continueExec_snd] at hstate
    exact (SessionData.sameTrace_continueExec _).currentStateLocked_ne_aborted ha hr hstate
  | currentState =>
    exact SessionData.currentStateLocked_ne_aborted ha hr (Reply.state.inj (Option.some.inj h))
  | _ => exact absurd h (by simp [reply])

/-- **A session that shows a trace without a result is not truthful**: it is one command away
from saying that it was aborted. -/
theorem Truthful.not_resultless (h : w.Truthful) : ¬w.session.data.Resultless := by
  rintro ⟨snapshots, i, hdata⟩
  refine h.ne_aborted .continueExec ?_
  rw [reply, hdata, SessionData.continueExec, SessionData.stateAt_length]

/-! ### Sessions nobody has aborted -/

/-- Nobody has aborted the session, and nobody is about to. -/
def Unaborted (w : World) : Prop := w.session.data ≠ .aborted ∧ w.aborting = 0

/-- **Only an abort aborts.** -/
theorem Unaborted.step (h : w.Unaborted) {action : Action} (hs : w.step action = some w')
    (hne : action ≠ .abortStore) : w'.Unaborted := by
  obtain ⟨hdata, hzero⟩ := h
  cases action with
  | waitTake =>
    rw [World.step] at hs
    split at hs <;> exact Option.some.inj hs ▸ ⟨hdata, hzero⟩
  | waitRecv caller =>
    obtain ⟨-, got, -, rfl⟩ := waitRecv_eq_some hs
    exact ⟨hdata, hzero⟩
  | waitPublish caller =>
    obtain ⟨msg, -, rfl⟩ := waitPublish_eq_some hs
    refine ⟨?_, hzero⟩
    show (w.session.data.publish msg).1 ≠ .aborted
    rw [SessionData.publish_of_ne_aborted msg hdata]
    cases msg <;> simp [SessionData.ofMessage]
  | stepInto =>
    obtain rfl := Option.some.inj hs
    exact ⟨(SessionData.sameTrace_stepInto _).ne_aborted hdata, hzero⟩
  | stepOver =>
    obtain rfl := Option.some.inj hs
    exact ⟨(SessionData.sameTrace_stepOver _).ne_aborted hdata, hzero⟩
  | continueExec =>
    obtain rfl := Option.some.inj hs
    exact ⟨(SessionData.sameTrace_continueExec _).ne_aborted hdata, hzero⟩
  | abortStore => exact absurd rfl hne
  | abortWrite =>
    -- nobody has begun to abort, so nobody can finish
    rw [step_eq_command rfl, command, if_neg (by omega)] at hs
    exact absurd hs (by simp)
  | send msg =>
    obtain ⟨-, -, rfl⟩ := send_eq_some hs
    exact ⟨hdata, hzero⟩
  | disconnect =>
    obtain ⟨-, rfl⟩ := disconnect_eq_some hs
    exact ⟨hdata, hzero⟩
  | touch _ | currentState | getTraceSteps | snapshotsForCache =>
    obtain rfl := Option.some.inj hs
    exact ⟨hdata, hzero⟩

/-- **In a run without an abort, nobody has aborted the session.** -/
theorem unaborted_of_run (h : Runs.run step (o.world now) actions = some w)
    (hno : Action.abortStore ∉ actions) : w.Unaborted := by
  refine Runs.run_induction
    (motive := fun as s => Action.abortStore ∉ as → s.Unaborted) ?_ ?_ h hno
  · intro _
    cases o <;> exact ⟨by simp [Origin.world, new, fromCache, DebugSession.new,
      DebugSession.fromCache], rfl⟩
  · rintro as action s t - ih hstep hno
    rw [List.mem_append, List.mem_singleton, not_or] at hno
    exact (ih hno.1).step hstep (Ne.symm hno.2)

/-- If whatever the session is given comes with a result, it shows no trace without one. -/
theorem not_resultless_of_run (h : Runs.run step (o.world now) actions = some w)
    (ho : o.Resulted) (hmsgs : ∀ msg, Action.send msg ∈ actions → msg.Resulted) :
    ¬w.session.data.Resultless := by
  rintro ⟨snapshots, i, hdata⟩
  have hgives := gives_of_ready h hdata
  cases o with
  | new => exact hmsgs _ hgives snapshots none rfl rfl
  | fromCache snapshots' result' => exact ho snapshots' result' rfl hgives.2.symm

end World

/-- **`Aborted` is an answer to an abort, unless the trace came without a result.** In every
run of a session that nobody has aborted: it answers as it should exactly if it does not show a
trace without a result; and if the trace of the cache and the messages all come with a result, it
answers as it should throughout. -/
theorem aborted_only_after_abort (o : Origin) (now : ℕ) {actions : List Action} {w : World}
    (h : Runs.run World.step (o.world now) actions = some w)
    (hno : Action.abortStore ∉ actions) :
    (w.Truthful ↔ ¬w.session.data.Resultless) ∧
      (o.Resulted → (∀ msg, Action.send msg ∈ actions → msg.Resulted) → w.Truthful) := by
  have hunaborted := World.unaborted_of_run h hno
  have htruthful : ¬w.session.data.Resultless → w.Truthful := fun hr =>
    { ne_aborted := World.reply_ne_aborted hunaborted.1 hr
      exhausted := fun snapshots hdata => absurd ⟨snapshots, _, hdata⟩ hr }
  refine ⟨⟨fun ht => ht.not_resultless, htruthful⟩, fun ho hmsgs => ?_⟩
  exact htruthful (World.not_resultless_of_run h ho hmsgs)

/-- A replay of two steps that came to its end, and the session stepped to the end of it. -/
def stoppedRun : List Action :=
  [.send (executorMessage twoStepsTrace (.ok sampleStop)), .waitTake, .waitRecv 0, .waitPublish 0,
    .continueExec]

/-- At the end of a replay with a result, the session is truthful. -/
theorem truthful_stoppedRun :
    ∃ w, Runs.run World.step (Origin.new.world 0) stoppedRun = some w ∧ w.Truthful := by
  have hno : Action.abortStore ∉ stoppedRun := by simp [stoppedRun]
  refine ⟨_, rfl, (aborted_only_after_abort .new 0 rfl hno).2 ?_ ?_⟩
  · intro snapshots result h
    exact absurd h (by simp)
  · intro msg hmsg snapshots result h
    obtain rfl : msg = executorMessage twoStepsTrace (.ok sampleStop) := by
      simpa [stoppedRun] using hmsg
    rw [← (ChannelMessage.allSnapshots.inj h).2]
    exact Option.some_ne_none _

/-- A replay that failed after two steps, and the session stepped to the end of them. -/
def failedRun : List Action :=
  [.send (executorMessage twoStepsTrace (.error "rpc error")), .waitTake, .waitRecv 0,
    .waitPublish 0, .continueExec]

/-- **The failure is reported as an abort**, though nobody has aborted anything. -/
theorem not_truthful_failedRun :
    ¬∀ w, Runs.run World.step (Origin.new.world 0) failedRun = some w →
      Action.abortStore ∉ failedRun → w.Truthful := by
  intro h
  have htruthful := h _ rfl (by simp [failedRun])
  exact htruthful.not_resultless ⟨twoStepsTrace, twoStepsTrace.length, rfl⟩

end EvmDebugger
