import EvmDebugger.Replay.Evm
import EvmDebugger.Session.World

/-!
# A session and its replay

The part of `create_session` that runs in the background, together with the two parties it
works with. A task waits for a permit, has the executor spawn a thread, waits for the thread's
message, publishes it, reads the session again, saves what it finds to the trace cache, and
gives the permit back. The thread runs the machine to completion and sends one message. And
clients send their commands to the session all the while, `abort` among them.

`EvmDebugger.Replay.step` is one atomic action of one of the three; an interleaving is a list
of such actions. Whenever the session is touched, it is by the actions of
`EvmDebugger.World.step`: each action here is at most one of them
(`EvmDebugger.Replay.world_step`), so what holds of a session in every interleaving holds of it
here (`EvmDebugger.Replay.world_ok_of_run`).
-/

namespace EvmDebugger

/-- The contents of a trace cache file. -/
structure TraceCacheFile where
  snapshots : List StepSnapshot
  result : Option ExecutionResultInfo
  deriving DecidableEq

/-- Where the thread of the executor is. The message sent, it is `closing`: the sender is still
there, and is dropped as the closure returns. -/
inductive EvmThread (σ : Type) where
  | unborn
  | starting
  | running (evm : σ) (inspector : StepDebugInspector)
  | sending (msg : ChannelMessage)
  | closing
  | gone
  deriving DecidableEq

/-- Nothing has come out of the thread yet, neither a message nor a disconnection. -/
def EvmThread.silent {σ : Type} : EvmThread σ → Bool
  | closing | gone => false
  | _ => true

/-- Where the background task is: what it does next. From `spawning` to `finishing` it holds a
permit. -/
inductive BackgroundTask where
  | acquiring
  | spawning
  | taking
  | receiving
  | publishing
  | rereading
  | saving (snapshots : List StepSnapshot) (result : Option ExecutionResultInfo)
  | finishing
  | finished
  deriving DecidableEq

/-- The task has not received anything yet. -/
def BackgroundTask.early : BackgroundTask → Bool
  | acquiring | spawning | taking | receiving => true
  | _ => false

/-- The actions: a client's command; the permit is acquired; the thread is spawned, or cannot
be; the thread goes on, with what it would read from the abort flag; the task goes on; the
cache file is written, or cannot be; the permit is given back. -/
inductive ReplayAction where
  | client (action : Action)
  | acquire
  | spawn (ok : Bool)
  | evm (seen : Bool)
  | task
  | save (ok : Bool)
  | release
  deriving DecidableEq

namespace Replay

/-- The state of the three parties. `cache` is the file of this transaction in the trace cache.
`halted` and `saved` are a history: whether the inspector has halted an interpreter, and the
arguments of the calls of `cache.save`. -/
structure State (σ : Type) where
  world : World
  thread : EvmThread σ
  task : BackgroundTask
  cache : Option TraceCacheFile
  halted : Bool
  saved : List TraceCacheFile
  deriving DecidableEq

variable {σ : Type} (R : Replay σ)

/-- The session has been put into the map and the task has been spawned; the trace cache has no
file for the transaction. -/
def init (now : ℕ) : State σ where
  world := .new now
  thread := .unborn
  task := .acquiring
  cache := none
  halted := false
  saved := []

/-! ### The three parties -/

/-- The thread goes on. What it reads from the flag may be out of date, but it is not made up –
a flag that reads as set has been set – and a thread that has found the flag set once does not
find it clear again. -/
def evmStep (s : State σ) (seen : Bool) : Option (State σ) :=
  match s.thread with
  | .starting =>
    match R.boot with
    | .error message => some { s with thread := .sending (.error message) }
    | .ok evm => some { s with thread := .running evm (.new R.maxMemoryBytes) }
  | .running evm i =>
    match R.next evm with
    | .hook hook resume =>
      if (seen = true → s.world.session.abortFlag = true) ∧ (s.halted = true → seen = true) then
        let answer := i.hook R.opCode seen hook
        some { s with
          thread := .running (resume answer.2) answer.1
          halted := s.halted || answer.2 }
      else none
    | .done result => some { s with thread := .sending (executorMessage i.snapshots result) }
    | .panic => (s.world.step .disconnect).map fun w => { s with world := w, thread := .gone }
  | .sending msg =>
    (s.world.step (.send msg)).map fun w => { s with world := w, thread := .closing }
  | .closing => (s.world.step .disconnect).map fun w => { s with world := w, thread := .gone }
  | _ => none

/-- The executor spawns the thread, or panics because it cannot, which drops the sender and
ends the task. -/
def spawnStep (s : State σ) (ok : Bool) : Option (State σ) :=
  match s.task with
  | .spawning =>
    if ok then some { s with thread := .starting, task := .taking }
    else (s.world.step .disconnect).map fun w =>
      { s with world := w, thread := .gone, task := .finishing }
  | _ => none

/-- The task goes on: `wait_for_snapshots` in its three steps, then `snapshots_for_cache`. -/
def taskStep (s : State σ) : Option (State σ) :=
  match s.task with
  | .taking =>
    (s.world.step .waitTake).map fun w =>
      { s with
        world := w
        task := if s.world.session.snapRx then .receiving else .rereading }
  | .receiving =>
    (s.world.step (.waitRecv 0)).map fun w => { s with world := w, task := .publishing }
  | .publishing =>
    (s.world.step (.waitPublish 0)).map fun w => { s with world := w, task := .rereading }
  | .rereading =>
    match s.world.session.data.snapshotsForCache with
    | some (snapshots, result) => some { s with task := .saving snapshots result }
    | none => some { s with task := .finishing }
  | _ => none

/-- **One atomic action.** -/
def step (s : State σ) : ReplayAction → Option (State σ)
  | .client action =>
    if action.isCommand then (s.world.step action).map fun w => { s with world := w } else none
  | .acquire =>
    match s.task with
    | .acquiring => some { s with task := .spawning }
    | _ => none
  | .spawn ok => spawnStep s ok
  | .evm seen => R.evmStep s seen
  | .task => taskStep s
  | .save ok =>
    match s.task with
    | .saving snapshots result =>
      some { s with
        task := .finishing
        cache := if ok then some ⟨snapshots, result⟩ else s.cache
        saved := s.saved ++ [⟨snapshots, result⟩] }
    | _ => none
  | .release =>
    match s.task with
    | .finishing => some { s with task := .finished }
    | _ => none

/-! ### What an action does -/

variable {R} {s s' : State σ}

/-- **What one action can do.** -/
inductive Step (R : Replay σ) (s : State σ) : ReplayAction → State σ → Prop where
  | client {action : Action} {w : World} (hc : action.isCommand = true)
      (hw : s.world.step action = some w) : Step R s (.client action) { s with world := w }
  | acquire (ht : s.task = .acquiring) : Step R s .acquire { s with task := .spawning }
  | spawn (ht : s.task = .spawning) :
      Step R s (.spawn true) { s with thread := .starting, task := .taking }
  | spawnFailed {w : World} (ht : s.task = .spawning) (hw : s.world.step .disconnect = some w) :
      Step R s (.spawn false) { s with world := w, thread := .gone, task := .finishing }
  | exit {seen : Bool} {message : String} (ht : s.thread = .starting)
      (hboot : R.boot = .error message) :
      Step R s (.evm seen) { s with thread := .sending (.error message) }
  | boot {seen : Bool} {evm : σ} (ht : s.thread = .starting) (hboot : R.boot = .ok evm) :
      Step R s (.evm seen) { s with thread := .running evm (.new R.maxMemoryBytes) }
  | hook {seen : Bool} {evm : σ} {i : StepDebugInspector} {hook : Hook} {resume : Bool → σ}
      (ht : s.thread = .running evm i) (hnext : R.next evm = .hook hook resume)
      (hseen : seen = true → s.world.session.abortFlag = true)
      (hhalted : s.halted = true → seen = true) :
      Step R s (.evm seen)
        { s with
          thread := .running (resume (i.hook R.opCode seen hook).2) (i.hook R.opCode seen hook).1
          halted := s.halted || (i.hook R.opCode seen hook).2 }
  | done {seen : Bool} {evm : σ} {i : StepDebugInspector} {result : Except String ExecutionResult}
      (ht : s.thread = .running evm i) (hnext : R.next evm = .done result) :
      Step R s (.evm seen) { s with thread := .sending (executorMessage i.snapshots result) }
  | panic {seen : Bool} {evm : σ} {i : StepDebugInspector} {w : World}
      (ht : s.thread = .running evm i) (hnext : R.next evm = .panic)
      (hw : s.world.step .disconnect = some w) :
      Step R s (.evm seen) { s with world := w, thread := .gone }
  | send {seen : Bool} {msg : ChannelMessage} {w : World} (ht : s.thread = .sending msg)
      (hw : s.world.step (.send msg) = some w) :
      Step R s (.evm seen) { s with world := w, thread := .closing }
  | close {seen : Bool} {w : World} (ht : s.thread = .closing)
      (hw : s.world.step .disconnect = some w) :
      Step R s (.evm seen) { s with world := w, thread := .gone }
  | take {w : World} (ht : s.task = .taking) (hw : s.world.step .waitTake = some w) :
      Step R s .task
        { s with
          world := w
          task := if s.world.session.snapRx then .receiving else .rereading }
  | receive {w : World} (ht : s.task = .receiving)
      (hw : s.world.step (.waitRecv 0) = some w) :
      Step R s .task { s with world := w, task := .publishing }
  | publish {w : World} (ht : s.task = .publishing)
      (hw : s.world.step (.waitPublish 0) = some w) :
      Step R s .task { s with world := w, task := .rereading }
  | rereadSome {snapshots : List StepSnapshot} {result : Option ExecutionResultInfo}
      (ht : s.task = .rereading)
      (hdata : s.world.session.data.snapshotsForCache = some (snapshots, result)) :
      Step R s .task { s with task := .saving snapshots result }
  | rereadNone (ht : s.task = .rereading)
      (hdata : s.world.session.data.snapshotsForCache = none) :
      Step R s .task { s with task := .finishing }
  | save {ok : Bool} {snapshots : List StepSnapshot} {result : Option ExecutionResultInfo}
      (ht : s.task = .saving snapshots result) :
      Step R s (.save ok)
        { s with
          task := .finishing
          cache := if ok then some ⟨snapshots, result⟩ else s.cache
          saved := s.saved ++ [⟨snapshots, result⟩] }
  | release (ht : s.task = .finishing) : Step R s .release { s with task := .finished }

theorem step_of_evmStep {seen : Bool} (h : R.evmStep s seen = some s') :
    Step R s (.evm seen) s' := by
  rw [evmStep] at h
  split at h
  · next ht =>
    split at h
    · next message hboot => exact Option.some.inj h ▸ .exit ht hboot
    · next evm hboot => exact Option.some.inj h ▸ .boot ht hboot
  · next evm i ht =>
    split at h
    · next hook resume hnext =>
      split at h
      · next hc => exact Option.some.inj h ▸ .hook ht hnext hc.1 hc.2
      · exact absurd h (by simp)
    · next result hnext => exact Option.some.inj h ▸ .done ht hnext
    · next hnext =>
      obtain ⟨w, hw, rfl⟩ := Option.map_eq_some_iff.mp h
      exact .panic ht hnext hw
  · next msg ht =>
    obtain ⟨w, hw, rfl⟩ := Option.map_eq_some_iff.mp h
    exact .send ht hw
  · next ht =>
    obtain ⟨w, hw, rfl⟩ := Option.map_eq_some_iff.mp h
    exact .close ht hw
  · exact absurd h (by simp)

theorem step_of_spawnStep {ok : Bool} (h : spawnStep s ok = some s') :
    Step R s (.spawn ok) s' := by
  rw [spawnStep] at h
  split at h
  · next ht =>
    cases ok with
    | true => exact Option.some.inj h ▸ .spawn ht
    | false =>
      obtain ⟨w, hw, rfl⟩ := Option.map_eq_some_iff.mp h
      exact .spawnFailed ht hw
  · exact absurd h (by simp)

theorem step_of_taskStep (h : taskStep s = some s') : Step R s .task s' := by
  rw [taskStep] at h
  split at h
  · next ht =>
    obtain ⟨w, hw, rfl⟩ := Option.map_eq_some_iff.mp h
    exact .take ht hw
  · next ht =>
    obtain ⟨w, hw, rfl⟩ := Option.map_eq_some_iff.mp h
    exact .receive ht hw
  · next ht =>
    obtain ⟨w, hw, rfl⟩ := Option.map_eq_some_iff.mp h
    exact .publish ht hw
  · next ht =>
    split at h
    · next snapshots result hdata => exact Option.some.inj h ▸ .rereadSome ht hdata
    · next hdata => exact Option.some.inj h ▸ .rereadNone ht hdata
  · exact absurd h (by simp)

/-- **The step function does nothing else.** Every invariant is a case analysis on this. -/
theorem step_cases {action : ReplayAction} (h : R.step s action = some s') :
    Step R s action s' := by
  cases action with
  | client action =>
    rw [step] at h
    split at h
    · next hc =>
      obtain ⟨w, hw, rfl⟩ := Option.map_eq_some_iff.mp h
      exact .client hc hw
    · exact absurd h (by simp)
  | acquire =>
    rw [step] at h
    split at h
    · next ht => exact Option.some.inj h ▸ .acquire ht
    · exact absurd h (by simp)
  | spawn ok => exact step_of_spawnStep h
  | evm seen => exact step_of_evmStep h
  | task => exact step_of_taskStep h
  | save ok =>
    rw [step] at h
    split at h
    · next snapshots result ht => exact Option.some.inj h ▸ .save ht
    · exact absurd h (by simp)
  | release =>
    rw [step] at h
    split at h
    · next ht => exact Option.some.inj h ▸ .release ht
    · exact absurd h (by simp)

/-- **To the session, every action is a run of its own actions.** -/
theorem world_step {action : ReplayAction} (h : R.step s action = some s') :
    ∃ actions, Runs.run World.step s.world actions = some s'.world := by
  have hone : ∀ {a : Action} {w : World}, s.world.step a = some w →
      ∃ actions, Runs.run World.step s.world actions = some w := fun {a w} hw => ⟨[a], by
    rw [Runs.run_cons, hw]
    rfl⟩
  cases step_cases h with
  | client _ hw => exact hone hw
  | spawnFailed _ hw => exact hone hw
  | panic _ _ hw => exact hone hw
  | take _ hw => exact hone hw
  | receive _ hw => exact hone hw
  | publish _ hw => exact hone hw
  | send _ hw => exact hone hw
  | close _ hw => exact hone hw
  | _ => exact ⟨[], rfl⟩

/-- And so is every run. -/
theorem world_run {actions : List ReplayAction} (h : Runs.run R.step s actions = some s') :
    ∃ bs, Runs.run World.step s.world bs = some s'.world := by
  obtain ⟨bs, w, hrun, rfl⟩ := Runs.run_simulation
    (R := fun (s : State σ) w => s.world = w)
    (fun s w a s' hR hs => by
      obtain ⟨bs, hbs⟩ := world_step hs
      exact ⟨bs, s'.world, hR ▸ hbs, rfl⟩)
    rfl h
  exact ⟨bs, hrun⟩

/-- **The session of a replay is a session**: its invariant holds in every interleaving. -/
theorem world_ok_of_run {now : ℕ} {actions : List ReplayAction}
    (h : Runs.run R.step (init now) actions = some s) : World.Ok .new s.world := by
  obtain ⟨bs, hrun⟩ := world_run h
  exact World.ok_of_run (show Runs.run World.step (Origin.new.world now) bs = _ from hrun)

end Replay

end EvmDebugger
