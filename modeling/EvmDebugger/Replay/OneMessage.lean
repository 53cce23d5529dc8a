import EvmDebugger.Replay.Environment
import EvmDebugger.Replay.Invariant
import Mathlib.Data.List.ReduceOption

/-!
# One message

`spawn_evm_thread` has some eight ways out: an early exit for everything that may be wrong with
the URL, the runtime, the addresses or the transaction; the end of an execution, whatever its
result; and an error, with a trace or without. The channel has room for one message, and on the
other side somebody waits for it – or for the sender to be dropped, which happens on every way out,
and on a panic as well.

So each way out has to send, and to send once. `EvmDebugger.Replay.sent` is what the thread has
sent in the course of an interleaving, and `EvmDebugger.spawnEvmThread_sends_one` says of it all
that the rest of the program relies on: that it is never more than one message, and no less once
the thread has come to an end without a panic; that the thread does not wait for room in the
channel; that an empty trace comes with a result; and that whoever waited for the message, whatever
has become of it, leaves behind a session that is not loading.
-/

namespace EvmDebugger

/-- The virtual machine: what it does, and the state it starts in, given an environment. -/
structure Machine (σ : Type) where
  opCode : UInt8 → Option String
  maxMemoryBytes : Option String
  next : σ → EvmEvent σ
  start : ReplayEnv → σ

variable {σ : Type}

/-- **`spawn_evm_thread`**: the machine is started in the environment, if there is one. -/
def spawnEvmThread (ctx : ReplayContext) (machine : Machine σ) (info : CachedTxInfo)
    (rpcUrl : String) : Replay σ where
  opCode := machine.opCode
  maxMemoryBytes := machine.maxMemoryBytes
  next := machine.next
  boot := (replayEnv ctx info rpcUrl).map machine.start

/-- The message has a snapshot or a result in it, or is an error. -/
theorem executorMessage_ne (recorded : List StepSnapshot)
    (result : Except String ExecutionResult) :
    executorMessage recorded result ≠ .allSnapshots [] none := by
  cases result with
  | ok res => simp [executorMessage]
  | error message =>
    cases recorded with
    | nil => simp [executorMessage]
    | cons first rest => simp [executorMessage]

namespace SessionData

/-- What is published is not that the session is loading. -/
theorem publish_ne_loading (msg : ChannelMessage) (data : SessionData) :
    (publish msg data).1 ≠ loading := by
  by_cases h : data = aborted
  · rw [h, publish_aborted]
    simp
  · rw [publish_of_ne_aborted msg h]
    cases msg <;> simp [ofMessage]

/-- No move leads back to loading. -/
theorem Moves.eq_loading {data data' : SessionData} (h : Moves data data') (hl : data' = loading) :
    data = loading := by
  rcases h with h | ⟨hl, -⟩
  · subst hl
    cases data with
    | loading => rfl
    | ready snapshots i result =>
      rcases h with h | ⟨j, -, -, h⟩ <;> exact absurd h (by simp)
    | aborted => exact absurd h (by simp [Served])
    | error message => rcases h with h | h <;> exact absurd h (by simp)
  · exact hl

end SessionData

/-- A session that is not loading stays so. -/
theorem World.Ok.ne_loading_of_run {o : Origin} {w w' : World} (h : World.Ok o w)
    {actions : List Action} (hrun : Runs.run World.step w actions = some w')
    (hne : w.session.data ≠ .loading) : w'.session.data ≠ .loading := by
  refine (Runs.run_invariant (motive := fun w => World.Ok o w ∧ w.session.data ≠ .loading)
    (fun s a t hs hstep => ?_) ⟨h, hne⟩ hrun).2
  exact ⟨hs.1.step hstep, fun hl => hs.2 ((hs.1.moves hstep).eq_loading hl)⟩

namespace Replay

variable {R : Replay σ} {s s' : State σ} {action : ReplayAction}

/-! ### What is sent -/

/-- The message that an action sends, if it sends one. -/
def sentAt (s : State σ) : ReplayAction → Option ChannelMessage
  | .evm _ =>
    match s.thread with
    | .sending msg => some msg
    | _ => none
  | _ => none

/-- **What is sent** in an interleaving. -/
def sent (R : Replay σ) (s : State σ) (actions : List ReplayAction) : List ChannelMessage :=
  (Runs.answers R.step sentAt s actions).reduceOption

/-- The action is the end of the thread before it has come to an end: the machine panics, or the
thread could not be spawned. -/
def Dies (R : Replay σ) (s : State σ) : ReplayAction → Prop
  | .evm _ => ∃ evm i, s.thread = .running evm i ∧ R.next evm = .panic
  | .spawn ok => ok = false
  | _ => False

/-- **What one action sends.** A thread that is about to send does so, and nothing else is sent. A
thread out of which something has come stays so; and nothing comes out of a thread in any other
way, unless it dies. -/
theorem Step.sentAt (hi : Inv s) (h : Step R s action s') :
    (∃ msg, s.thread = .sending msg ∧ Replay.sentAt s action = some msg ∧
        s'.thread.silent = false) ∨
      Replay.sentAt s action = none ∧
        (s'.thread.silent = s.thread.silent ∨ s'.thread.silent = false ∧ R.Dies s action) := by
  cases h with
  | send ht hw => exact Or.inl ⟨_, ht, by simp [Replay.sentAt, ht], rfl⟩
  | exit ht hboot | boot ht hboot =>
    exact Or.inr ⟨by simp [Replay.sentAt, ht], Or.inl (by simp [ht, EvmThread.silent])⟩
  | hook ht hnext hseen hhalted =>
    exact Or.inr ⟨by simp [Replay.sentAt, ht], Or.inl (by simp [ht, EvmThread.silent])⟩
  | done ht hnext =>
    exact Or.inr ⟨by simp [Replay.sentAt, ht], Or.inl (by simp [ht, EvmThread.silent])⟩
  | panic ht hnext hw =>
    exact Or.inr ⟨by simp [Replay.sentAt, ht], Or.inr ⟨rfl, _, _, ht, hnext⟩⟩
  | close ht hw =>
    exact Or.inr ⟨by simp [Replay.sentAt, ht], Or.inl (by simp [ht, EvmThread.silent])⟩
  | spawnFailed ht hw => exact Or.inr ⟨rfl, Or.inr ⟨rfl, rfl⟩⟩
  | spawn ht =>
    have hunborn := hi.unborn.mpr (Or.inr ht)
    exact Or.inr ⟨rfl, Or.inl (by simp [hunborn, EvmThread.silent])⟩
  | _ => exact Or.inr ⟨rfl, Or.inl rfl⟩

/-- One action more. -/
theorem sent_snoc {s₀ : State σ} {actions : List ReplayAction}
    (h : Runs.run R.step s₀ actions = some s) (action : ReplayAction) :
    R.sent s₀ (actions ++ [action]) = R.sent s₀ actions ++ (Replay.sentAt s action).toList := by
  rw [sent, sent, Runs.answers_append h, List.reduceOption_append]
  cases hstep : R.step s action with
  | none => rw [Runs.answers, hstep]; exact congrArg _ (List.reduceOption_singleton _)
  | some t =>
    rw [Runs.answers_cons hstep, Runs.answers_nil, List.reduceOption_singleton]

/-- **A thread that has sent has sent once**, and one that has come to an end has sent, unless it
has died. -/
structure SendsOne (R : Replay σ) (now : ℕ) (actions : List ReplayAction) (s : State σ) :
    Prop where
  quiet : s.thread.silent = true → R.sent (init now) actions = []
  most : (R.sent (init now) actions).length ≤ 1
  least : s.thread.silent = false →
    Runs.Along R.step (fun s action => ¬R.Dies s action) (init now) actions →
    (R.sent (init now) actions).length = 1

/-- **Every action keeps it so.** -/
theorem SendsOne.next {now : ℕ} {actions : List ReplayAction}
    (h : Runs.run R.step (init now) actions = some s) (hs : R.SendsOne now actions s)
    (hstep : R.step s action = some s') : R.SendsOne now (actions ++ [action]) s' := by
  have hsnoc := sent_snoc h action
  rcases (step_cases hstep).sentAt (inv_of_run h) with ⟨msg, ht, hmsg, hend⟩ | ⟨hnone, hend⟩
  · -- the one message
    have hlength : (R.sent (init now) (actions ++ [action])).length = 1 := by
      rw [hsnoc, hs.quiet (by rw [ht]; rfl), hmsg]
      rfl
    refine ⟨fun hsilent => absurd (hend.symm.trans hsilent) (by simp), hlength.le, fun _ _ => ?_⟩
    exact hlength
  · have hsame : R.sent (init now) (actions ++ [action]) = R.sent (init now) actions := by
      rw [hsnoc, hnone]
      exact List.append_nil _
    refine ⟨fun hsilent => hsame.trans (hs.quiet ?_), hsame ▸ hs.most, fun hover halong => ?_⟩
    · rcases hend with hend | ⟨hend, -⟩
      · exact hend.symm.trans hsilent
      · exact absurd (hend.symm.trans hsilent) (by simp)
    · obtain ⟨hbefore, hlives, -⟩ := (Runs.along_append h).mp halong
      rcases hend with hend | ⟨-, hdies⟩
      · rw [hsame]
        exact hs.least (hend.symm.trans hover) hbefore
      · exact absurd hdies hlives

/-- **Every interleaving keeps it so.** -/
theorem sendsOne_of_run {now : ℕ} {actions : List ReplayAction}
    (h : Runs.run R.step (init now) actions = some s) : R.SendsOne now actions s :=
  Runs.run_induction (motive := fun actions s => R.SendsOne now actions s)
    ⟨fun _ => rfl, Nat.zero_le 1, fun hover _ => absurd hover (by simp [init, EvmThread.silent])⟩
    (fun _ _ _ _ hrun hs hstep => hs.next hrun hstep) h

/-- No thread sends an empty trace without a result. -/
theorem produces_result (R : Replay σ) :
    Produces R (fun _ _ _ => True) fun _ snapshots result => snapshots = [] → result ≠ none where
  boot _ _ := trivial
  hook _ _ _ _ _ _ _ _ _ := trivial
  done evm i halted result _ _ := by
    rintro snapshots r hmsg rfl rfl
    exact executorMessage_ne _ _ hmsg

/-- **An empty trace comes with a result.** -/
theorem result_of_sent {now : ℕ} {actions : List ReplayAction}
    (h : Runs.run R.step (init now) actions = some s) {result : Option ExecutionResultInfo}
    (hsent : .allSnapshots [] result ∈ R.sent (init now) actions) : result ≠ none := by
  refine Runs.run_induction
    (motive := fun actions _ => .allSnapshots [] result ∈ R.sent (init now) actions →
      result ≠ none)
    (fun hmem => absurd hmem List.not_mem_nil) (fun as a s t hrun ih hstep hmem => ?_) h hsent
  rw [sent_snoc hrun, List.mem_append, Option.mem_toList] at hmem
  rcases hmem with hmem | hmem
  · exact ih hmem
  rcases (step_cases hstep).sentAt (inv_of_run hrun) with ⟨msg, ht, hmsg, -⟩ | ⟨hnone, -⟩
  · obtain rfl := Option.some.inj (hmsg.symm.trans hmem)
    exact (producing_of_run (produces_result R) hrun).carries.sending _ ht _ _ rfl rfl
  · exact absurd (hnone.symm.trans hmem) (by simp)

/-! ### Nobody waits for ever -/

/-- **There is room for the message** when the thread sends it. -/
theorem Inv.exists_send (hi : Inv s) {msg : ChannelMessage} (ht : s.thread = .sending msg)
    (seen : Bool) : ∃ s', R.step s (.evm seen) = some s' := by
  have hq := hi.quiet (by rw [ht]; rfl)
  have hsend : s.world.step (.send msg) = some { s.world with buffer := some msg } :=
    if_pos ⟨hq.senderAlive, hq.buffer⟩
  refine ⟨{ s with world := { s.world with buffer := some msg }, thread := .closing }, ?_⟩
  rw [step, evmStep, ht]
  dsimp only
  rw [hsend]
  rfl

/-- **The wait is over**, and the session is not loading: it has been given what was received, and
nothing else ends the wait. -/
theorem Inv.ne_loading (hi : Inv s) (hstep : R.step s .task = some s')
    (hreturns : s'.task = .rereading) : s'.world.session.data ≠ .loading := by
  cases step_cases hstep with
  | take ht hw =>
    -- the receiver is there, and the wait begins
    rw [if_pos (hi.snapRx (Or.inr (Or.inr ht)))] at hreturns
    exact absurd hreturns (by simp)
  | receive ht hw => exact absurd hreturns (by simp)
  | publish ht hw =>
    obtain ⟨msg, -, rfl⟩ := World.waitPublish_eq_some hw
    exact SessionData.publish_ne_loading msg _
  | rereadSome ht hdata => exact absurd hreturns (by simp)
  | rereadNone ht hdata => exact absurd hreturns (by simp)

/-- What is not loading stays so. -/
theorem Inv.ne_loading_of_run (hi : Inv s) {actions : List ReplayAction}
    (hrun : Runs.run R.step s actions = some s') (hne : s.world.session.data ≠ .loading) :
    s'.world.session.data ≠ .loading := by
  obtain ⟨bs, hbs⟩ := world_run hrun
  exact hi.world.ne_loading_of_run hbs hne

/-- **What the rest of the program relies on**, of an interleaving that ends in `s`. -/
structure OneMessage (R : Replay σ) (now : ℕ) (actions : List ReplayAction) (s : State σ) :
    Prop where
  most : (R.sent (init now) actions).length ≤ 1
  least : s.thread.silent = false →
    Runs.Along R.step (fun s action => ¬R.Dies s action) (init now) actions →
    (R.sent (init now) actions).length = 1
  room : ∀ msg seen, s.thread = .sending msg → ∃ s', R.step s (.evm seen) = some s'
  result : ∀ result, .allSnapshots [] result ∈ R.sent (init now) actions → result ≠ none
  notLoading : ∀ s', R.step s .task = some s' → s'.task = .rereading →
    ∀ more s'', Runs.run R.step s' more = some s'' → s''.world.session.data ≠ .loading

end Replay

/-- **The thread sends one message**, whatever the record of the transaction, the URL and the
outcome of the execution, in every interleaving with the task and the clients of the session. -/
theorem spawnEvmThread_sends_one (ctx : ReplayContext) (machine : Machine σ) (info : CachedTxInfo)
    (rpcUrl : String) (now : ℕ) {actions : List ReplayAction} {s : Replay.State σ}
    (h : Runs.run (spawnEvmThread ctx machine info rpcUrl).step (Replay.init now) actions
      = some s) :
    (spawnEvmThread ctx machine info rpcUrl).OneMessage now actions s where
  most := (Replay.sendsOne_of_run h).most
  least := (Replay.sendsOne_of_run h).least
  room msg seen ht := (Replay.inv_of_run h).exists_send ht seen
  result result hsent := Replay.result_of_sent h hsent
  notLoading s' hstep hreturns more s'' hrun := by
    have hi := Replay.inv_of_run h
    have hi' : Replay.Inv s' := hi.next (Replay.step_cases hstep)
    exact hi'.ne_loading_of_run hrun (hi.ne_loading hstep hreturns)

/-- A machine that panics as soon as it is started. -/
def panickingMachine : Machine Unit where
  opCode := sampleOpCode
  maxMemoryBytes := none
  next _ := .panic
  start _ := ()

/-- The thread is spawned, and finds that there is no URL; the task receives what it is told. -/
def refusedRun : List ReplayAction :=
  [.acquire, .spawn true, .task, .evm false, .evm false, .task]

/-- The early exit sends one message; and after the wait the session is not loading. -/
theorem sends_one_refusedRun :
    ∃ s, Runs.run (spawnEvmThread sampleReplay panickingMachine (listedCall 0 []).info "").step
        (Replay.init 0) refusedRun = some s ∧ s.thread = .closing ∧ s.task = .publishing ∧
      (spawnEvmThread sampleReplay panickingMachine (listedCall 0 []).info "").OneMessage 0
        refusedRun s := by
  have hrun : Runs.run
    (spawnEvmThread sampleReplay panickingMachine (listedCall 0 []).info "").step
    (Replay.init 0) refusedRun = some _ := rfl
  exact ⟨_, hrun, rfl, rfl, spawnEvmThread_sends_one sampleReplay panickingMachine _ "" 0 hrun⟩

end EvmDebugger
