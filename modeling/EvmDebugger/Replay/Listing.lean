import EvmDebugger.Replay.Invariant
import EvmDebugger.Session.Replies
import EvmDebugger.Session.StepOver

/-!
# The numbers of the steps

The client shows the whole trace as a list, and marks the row of the snapshot a session is paused
at. It finds the row by the number of the step, so the number has to be the position in the list,
and no other row may have it.

The inspector numbers the snapshots with a counter of its own, next to the list it appends them
to. That the two do not come apart is an invariant of the hooks, in whatever order they are
called and whatever is read from the abort flag: both grow with a step that is recorded, and
neither with one that is not (`EvmDebugger.counted_hook`). What the inspector has numbered stays
numbered on the way to the session and to the trace cache (`EvmDebugger.numbered_of_run`), and no
command renumbers anything; so whenever a command is answered with a snapshot, the list has its
row (`EvmDebugger.highlighted_row`).
-/

namespace EvmDebugger

/-! ### Numbered traces -/

/-- Each snapshot has its position as its number. -/
def Numbered (snapshots : List StepSnapshot) : Prop :=
  ∀ n (s : StepSnapshot), snapshots[n]? = some s → s.stepNumber = n

theorem numbered_nil : Numbered [] := by
  intro n s h
  exact absurd h (by simp)

/-- A trace goes on with the number after its last. -/
theorem Numbered.snoc {snapshots : List StepSnapshot} (h : Numbered snapshots) {s : StepSnapshot}
    (hs : s.stepNumber = snapshots.length) : Numbered (snapshots ++ [s]) := by
  intro n u hu
  rcases Runs.getElem?_snoc hu with ⟨-, hu⟩ | ⟨rfl, rfl⟩
  · exact h n u hu
  · exact hs

/-- The inspector's counter is the length of its list, whose snapshots it has numbered. -/
structure Counted (i : StepDebugInspector) : Prop where
  stepNumber : i.stepNumber = i.snapshots.length
  numbered : Numbered i.snapshots

theorem counted_new (maxMemoryBytes : Option String) :
    Counted (StepDebugInspector.new maxMemoryBytes) where
  stepNumber := rfl
  numbered := numbered_nil

/-- Noting an `SSTORE` does not touch the counter. -/
theorem captureSstore_stepNumber (i : StepDebugInspector) (interp : Interpreter) :
    (i.captureSstore interp).stepNumber = i.stepNumber := by
  rw [StepDebugInspector.captureSstore]
  split <;> rfl

/-- **Every hook keeps the counter in step with the list**, whatever it finds the flag to be. -/
theorem counted_hook (opCode : UInt8 → Option String) {i : StepDebugInspector} (h : Counted i)
    (seen : Bool) (hook : Hook) : Counted (i.hook opCode seen hook).1 := by
  cases hook with
  | step interp depth =>
    cases seen with
    | true => exact h
    | false =>
      have hnumber := captureSstore_stepNumber i interp
      refine ⟨?_, ?_⟩
      · show (i.captureSstore interp).stepNumber + 1 =
          (i.step opCode false interp depth).1.snapshots.length
        rw [StepDebugInspector.snapshots_step, List.length_append, List.length_singleton, hnumber,
          h.stepNumber]
      · show Numbered (i.step opCode false interp depth).1.snapshots
        rw [StepDebugInspector.snapshots_step]
        exact h.numbered.snoc (hnumber.trans h.stepNumber)
  | _ => exact ⟨h.stepNumber, h.numbered⟩

/-- **After any hooks, in any order**, the counter is in step with the list. -/
theorem counted_hooks (opCode : UInt8 → Option String) {i : StepDebugInspector} (h : Counted i)
    (events : List (Hook × Bool)) : Counted (i.hooks opCode events) := by
  induction events generalizing i with
  | nil => exact h
  | cons e events ih => exact ih (counted_hook opCode h e.2 e.1)

/-- **Every trace the inspector records is numbered.** -/
theorem numbered_traceOf (opCode : UInt8 → Option String) (maxMemoryBytes : Option String)
    (events : List (Hook × Bool)) : Numbered (traceOf opCode maxMemoryBytes events) :=
  (counted_hooks opCode (counted_new maxMemoryBytes) events).numbered

/-- A machine that calls any hooks in any order produces numbered traces. -/
theorem produces_numbered {σ : Type} (R : Replay σ) :
    Replay.Produces R (fun _ i _ => Counted i) fun _ snapshots _ => Numbered snapshots where
  boot evm _ := counted_new R.maxMemoryBytes
  hook evm i halted hook resume seen h _ _ := counted_hook R.opCode h seen hook
  done evm i halted result h _ := by
    intro snapshots r hmsg
    rw [snapshots_of_executorMessage hmsg]
    exact h.numbered

/-- **Whatever interferes with a replay**, the session shows a numbered trace if it shows one, and
the file in the trace cache has a numbered trace. -/
theorem numbered_of_run {σ : Type} {R : Replay σ} {now : ℕ} {actions : List ReplayAction}
    {s : Replay.State σ} (h : Runs.run R.step (Replay.init now) actions = some s) :
    (∀ snapshots i result, s.world.session.data = .ready snapshots i result →
        Numbered snapshots) ∧
      ∀ file, s.cache = some file → Numbered file.snapshots :=
  have hcarries := (Replay.producing_of_run (produces_numbered R) h).carries
  ⟨hcarries.data, hcarries.cache⟩

/-! ### The list of a session -/

/-- The row of a snapshot. -/
def StepSnapshot.row (s : StepSnapshot) : TraceStep where
  step := s.stepNumber
  pc := s.pc
  opcode := s.opcode
  opcodeName := s.opcodeName

/-- **The list has the row of the snapshot**, where its number says, and no other row with that
number. -/
structure ListsOnce (steps : List TraceStep) (s : StepSnapshot) : Prop where
  row : steps[s.stepNumber]? = some s.row
  only : ∀ k r, steps[k]? = some r → r.step = s.stepNumber → k = s.stepNumber

/-- Of a numbered trace, the list has the row of every snapshot. -/
theorem Numbered.listsOnce {snapshots : List StepSnapshot} (h : Numbered snapshots) {i : ℕ}
    {s : StepSnapshot} (hs : snapshots[i]? = some s) :
    ListsOnce (snapshots.map StepSnapshot.row) s := by
  have hi := h i s hs
  refine ⟨?_, ?_⟩
  · rw [hi, List.getElem?_map, hs, Option.map_some]
  · intro k r hr hk
    rw [List.getElem?_map, Option.map_eq_some_iff] at hr
    obtain ⟨u, hu, rfl⟩ := hr
    exact (h k u hu).symm.trans hk

namespace SessionData

/-- The state at an index is a snapshot only if it is the one there. -/
theorem stateAt_eq_paused {snapshots : List StepSnapshot} {index : ℕ}
    {result : Option ExecutionResultInfo} {s : StepSnapshot}
    (h : stateAt snapshots index result = .paused s) : snapshots[index]? = some s := by
  rw [stateAt.eq_def] at h
  split at h
  · next u hu => exact hu.trans (congrArg some (SessionState.paused.inj h))
  · cases result <;> exact absurd h (by simp)

/-- The session is paused at the snapshot. -/
def PausedAt (data : SessionData) (s : StepSnapshot) : Prop :=
  ∃ snapshots i result, data = ready snapshots i result ∧ snapshots[i]? = some s

theorem pausedAt_of_currentState {data : SessionData} {s : StepSnapshot}
    (h : data.currentStateLocked = .paused s) : data.PausedAt s := by
  cases data with
  | ready snapshots i result => exact ⟨snapshots, i, result, rfl, stateAt_eq_paused h⟩
  | _ => exact absurd h (by simp [currentStateLocked])

/-- A message is announced with a snapshot if it leaves the session paused there. -/
theorem pausedAt_of_publish {data : SessionData} {msg : ChannelMessage} {s : StepSnapshot}
    (h : (publish msg data).2 = .paused s) : (publish msg data).1.PausedAt s := by
  rcases msg with ⟨_ | ⟨first, rest⟩, _ | result⟩ | message <;> cases data <;>
    first
      | exact ⟨_, _, _, rfl, congrArg some (SessionState.paused.inj h)⟩
      | exact absurd h (by simp [publish])

end SessionData

/-- **Whatever is answered with a snapshot leaves the session paused there.** -/
theorem World.pausedAt_of_reply {w w' : World} {action : Action} {s : StepSnapshot}
    (hs : w.step action = some w') (hreply : w.reply action = some (.state (.paused s))) :
    w'.session.data.PausedAt s := by
  cases action with
  | waitTake =>
    rw [reply] at hreply
    split at hreply <;> exact absurd hreply (by simp)
  | waitPublish caller =>
    obtain ⟨msg, hmsg, rfl⟩ := waitPublish_eq_some hs
    have hstate : w.reply (.waitPublish caller) = some (.state (w.session.data.publish msg).2) := by
      simp only [reply, hmsg]
    rw [hstate] at hreply
    exact SessionData.pausedAt_of_publish (Reply.state.inj (Option.some.inj hreply))
  | stepInto =>
    obtain rfl := Option.some.inj hs
    have hstate := Reply.state.inj (Option.some.inj hreply)
    exact SessionData.pausedAt_of_currentState ((SessionData.stepInto_snd _).symm.trans hstate)
  | stepOver =>
    obtain rfl := Option.some.inj hs
    have hstate := Reply.state.inj (Option.some.inj hreply)
    exact SessionData.pausedAt_of_currentState ((SessionData.stepOver_snd _).symm.trans hstate)
  | continueExec =>
    obtain rfl := Option.some.inj hs
    have hstate := Reply.state.inj (Option.some.inj hreply)
    exact SessionData.pausedAt_of_currentState
      ((SessionData.continueExec_snd _).symm.trans hstate)
  | currentState =>
    obtain rfl := Option.some.inj hs
    exact SessionData.pausedAt_of_currentState (Reply.state.inj (Option.some.inj hreply))
  | _ => exact absurd hreply (by simp [reply])

/-- **The row a client marks is the row of the snapshot.** A trace the inspector records, of any
hooks in any order and with the abort flag set at any time, numbers its snapshots by position; and
in every run of a session that is given this trace, by the cache or over the channel, whatever is
answered with a snapshot leaves a list of steps that has its row at its number, and no other row
with that number. -/
theorem highlighted_row (opCode : UInt8 → Option String) (maxMemoryBytes : Option String)
    (events : List (Hook × Bool)) :
    Numbered (traceOf opCode maxMemoryBytes events) ∧
      ∀ (o : Origin) (now : ℕ) (actions : List Action) (w w' : World) (action : Action)
        (s : StepSnapshot),
        Runs.run World.step (o.world now) actions = some w → w.step action = some w' →
        (∀ snapshots result, o.Gives (actions ++ [action]) snapshots result →
          snapshots = traceOf opCode maxMemoryBytes events) →
        w.reply action = some (.state (.paused s)) →
        ∃ steps, w'.reply .getTraceSteps = some (.trace steps) ∧ ListsOnce steps s := by
  refine ⟨numbered_traceOf opCode maxMemoryBytes events, ?_⟩
  intro o now actions w w' action s h hs hgiven hreply
  obtain ⟨snapshots, i, result, hdata, hsnap⟩ := World.pausedAt_of_reply hs hreply
  have hrun : Runs.run World.step (o.world now) (actions ++ [action]) = some w' :=
    Runs.run_snoc_eq_some.mpr ⟨w, h, hs⟩
  obtain rfl := hgiven snapshots result (World.gives_of_ready hrun hdata)
  refine ⟨_, rfl, ?_⟩
  rw [hdata]
  exact (numbered_traceOf opCode maxMemoryBytes events).listsOnce hsnap

/-- The sample of two steps, from the cache: after one step, the row marked is the second. -/
theorem highlighted_twoSteps :
    ∃ (w : World) (s : StepSnapshot) (steps : List TraceStep),
      Runs.run World.step ((Origin.fromCache twoStepsTrace none).world 0) [.stepInto] = some w ∧
        w.session.data = .ready twoStepsTrace 1 none ∧ twoStepsTrace[1]? = some s ∧
        w.reply .getTraceSteps = some (.trace steps) ∧ ListsOnce steps s := by
  obtain ⟨s, hs⟩ : ∃ s, twoStepsTrace[1]? = some s := ⟨_, rfl⟩
  obtain ⟨steps, hsteps, honce⟩ := (highlighted_row sampleOpCode none
    (twoSteps.map fun hook => (hook, false))).2 (.fromCache twoStepsTrace none) 0 [] _ _ .stepInto s
    rfl rfl (fun snapshots result h => h.1) (by
      rw [World.reply, SessionData.stepInto_snd]
      show some (Reply.state (SessionData.stateAt twoStepsTrace 1 none)) = _
      simp only [SessionData.stateAt, hs])
  exact ⟨_, s, steps, rfl, rfl, hs, hsteps, honce⟩

end EvmDebugger
