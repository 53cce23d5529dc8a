import EvmDebugger.Replay.Task

/-!
# From the thread to the trace cache

Two facts about the background of a session, for every interleaving.

Who waits for whom (`EvmDebugger.Replay.Inv`): as long as nothing has come out of the thread,
neither a message nor a disconnection, nothing has been published, nothing has been saved, and
the task has come at most as far as `recv`. So whatever the task does after that, it does when
the replay is over.

And where a saved trace comes from (`EvmDebugger.Replay.Carries`): from the one message of the
thread, by way of the channel, the waiting caller and the session, unchanged. A property of the
message – that it is complete, that it has a result – is a property of the file. The rule that
goes with it is `EvmDebugger.Replay.producing_of_run`: it asks for a property of the machine
while it runs, and leaves nothing to be said about interleavings.
-/

namespace EvmDebugger

namespace Replay

variable {σ : Type} {R : Replay σ} {s s' : State σ} {action : ReplayAction}

/-! ### Who waits for whom -/

/-- Nothing has come out of the thread yet. -/
structure Quiet (s : State σ) : Prop where
  senderAlive : s.world.senderAlive = true
  buffer : s.world.buffer = none
  waiters : ∀ (caller : ℕ) (msg : ChannelMessage), s.world.waiters[caller]? ≠ some (.received msg)
  data : s.world.session.data.Waiting
  early : s.task.early = true
  cache : s.cache = none
  saved : s.saved = []

/-- **The invariant of the three parties.** -/
structure Inv (s : State σ) : Prop where
  world : World.Ok .new s.world
  quiet : s.thread.silent = true → Quiet s
  unborn : s.thread = .unborn ↔ s.task = .acquiring ∨ s.task = .spawning
  snapRx : s.task = .acquiring ∨ s.task = .spawning ∨ s.task = .taking →
    s.world.session.snapRx = true

theorem inv_init (now : ℕ) : Inv (init now : State σ) where
  world := World.ok_world .new now
  quiet _ :=
    { senderAlive := rfl
      buffer := rfl
      waiters := fun caller msg h => absurd h (by simp [init, World.new])
      data := Or.inl rfl
      early := rfl
      cache := rfl
      saved := rfl }
  unborn := ⟨fun _ => Or.inl rfl, fun _ => rfl⟩
  snapRx _ := rfl

/-- A command disturbs nothing. -/
theorem Quiet.client (hq : Quiet s) (hok : World.Ok .new s.world) {a : Action} {w : World}
    (hc : a.isCommand = true) (hw : s.world.step a = some w) :
    Quiet { s with world := w } := by
  obtain ⟨hdata, -, hbuffer, halive, hwaiters, -⟩ := World.command_eq_some hw hc hok.indexOk
  refine ⟨halive.trans hq.senderAlive, hbuffer.trans hq.buffer, fun caller msg h => ?_,
    hdata.waiting hq.data, hq.early, hq.cache, hq.saved⟩
  exact hq.waiters caller msg (hwaiters ▸ h)

/-- A task that is past `recv` knows that something has come out of the thread. -/
theorem Inv.not_silent (hi : Inv s) (h : s.task.early = false) : s.thread.silent = false := by
  by_contra hsilent
  exact absurd ((hi.quiet (Bool.not_eq_false _ ▸ hsilent)).early.symm.trans h) (by simp)

/-- So does a receive that returns. -/
theorem Inv.not_silent_of_recv (hi : Inv s) {got : Option ChannelMessage}
    (h : s.world.recv = some got) : s.thread.silent = false := by
  by_contra hsilent
  have hq := hi.quiet (Bool.not_eq_false _ ▸ hsilent)
  rcases World.recv_eq_some h with ⟨msg, hmsg, -⟩ | ⟨-, hdead, -⟩
  · exact absurd (hq.buffer.symm.trans hmsg) (by simp)
  · exact absurd (hq.senderAlive.symm.trans hdead) (by simp)

/-- The thread is there before the task is past spawning it, and not before. -/
theorem Inv.not_unborn (hi : Inv s) (h : s.thread ≠ .unborn) :
    ¬(s.task = .acquiring ∨ s.task = .spawning) := fun ht => h (hi.unborn.mpr ht)

/-- The thread goes on, and the session does not notice. -/
theorem Inv.evm (hi : Inv s) (hborn : s.thread ≠ .unborn) (hsilent : s.thread.silent = true)
    {thread : EvmThread σ} (hborn' : thread ≠ .unborn) (halted : Bool) :
    Inv { s with thread := thread, halted := halted } where
  world := hi.world
  quiet _ :=
    have hq := hi.quiet hsilent
    ⟨hq.senderAlive, hq.buffer, hq.waiters, hq.data, hq.early, hq.cache, hq.saved⟩
  unborn := ⟨fun h => absurd h hborn', fun h => absurd h (hi.not_unborn hborn)⟩
  snapRx := hi.snapRx

/-- The thread sends, or ends; what that does to the session keeps the receiver in place. -/
theorem Inv.leave (hi : Inv s) (hborn : s.thread ≠ .unborn) {w : World}
    (hw : World.Ok .new w) (hrx : w.session.snapRx = s.world.session.snapRx)
    {thread : EvmThread σ} (hthread : thread.silent = false) :
    Inv { s with world := w, thread := thread } where
  world := hw
  quiet hsilent := absurd (hthread.symm.trans hsilent) (by simp)
  unborn := by
    refine ⟨fun h => ?_, fun h => absurd h (hi.not_unborn hborn)⟩
    exact absurd ((congrArg EvmThread.silent h).symm.trans hthread) (by simp [EvmThread.silent])
  snapRx h := hrx.trans (hi.snapRx h)

/-- The task goes on when something has come out of the thread. -/
theorem inv_of_late (hlate : s.thread.silent = false) {w : World} (hw : World.Ok .new w)
    {task : BackgroundTask} (htask : task.early = false) (cache : Option TraceCacheFile)
    (saved : List TraceCacheFile) :
    Inv { s with world := w, task := task, cache := cache, saved := saved } where
  world := hw
  quiet hsilent := absurd (hlate.symm.trans hsilent) (by simp)
  unborn := by
    refine ⟨fun h => ?_, ?_⟩
    · exact absurd ((congrArg EvmThread.silent h).symm.trans hlate) (by simp [EvmThread.silent])
    rintro (h | h) <;> exact absurd ((congrArg BackgroundTask.early h).symm.trans htask)
      (by simp [BackgroundTask.early])
  snapRx := by
    rintro (h | h | h) <;> exact absurd ((congrArg BackgroundTask.early h).symm.trans htask)
      (by simp [BackgroundTask.early])

/-- **Every action keeps the invariant.** -/
theorem Inv.next (hi : Inv s) (h : Step R s action s') : Inv s' := by
  cases h with
  | client hc hw =>
    obtain ⟨-, hrx, -⟩ := World.command_eq_some hw hc hi.world.indexOk
    exact ⟨hi.world.step hw, fun hne => (hi.quiet hne).client hi.world hc hw, hi.unborn,
      fun h => hrx.trans (hi.snapRx h)⟩
  | acquire ht =>
    have hunborn := hi.unborn.mpr (Or.inl ht)
    refine ⟨hi.world, fun hne => ?_, ⟨fun _ => Or.inr rfl, fun _ => hunborn⟩,
      fun _ => hi.snapRx (Or.inl ht)⟩
    have hq := hi.quiet hne
    exact ⟨hq.senderAlive, hq.buffer, hq.waiters, hq.data, rfl, hq.cache, hq.saved⟩
  | spawn ht =>
    have hunborn := hi.unborn.mpr (Or.inr ht)
    have hq := hi.quiet (by rw [hunborn]; rfl)
    refine ⟨hi.world, fun _ => ?_, ⟨fun h => absurd h (by simp), ?_⟩,
      fun _ => hi.snapRx (Or.inr (Or.inl ht))⟩
    · exact ⟨hq.senderAlive, hq.buffer, hq.waiters, hq.data, rfl, hq.cache, hq.saved⟩
    · rintro (h | h) <;> exact absurd h (by simp)
  | spawnFailed ht hw =>
    refine ⟨hi.world.step hw, fun h => absurd h (by simp [EvmThread.silent]),
      ⟨fun h => absurd h (by simp), ?_⟩, ?_⟩
    · rintro (h | h) <;> exact absurd h (by simp)
    · rintro (h | h | h) <;> exact absurd h (by simp)
  | exit ht _ | boot ht _ | hook ht _ _ _ | done ht _ =>
    -- what the thread does by itself, nobody can see
    exact hi.evm (by simp [ht]) (by rw [ht]; rfl) (by simp) _
  | panic ht hnext hw =>
    obtain ⟨-, rfl⟩ := World.disconnect_eq_some hw
    exact hi.leave (by simp [ht]) (hi.world.step hw) rfl rfl
  | send ht hw =>
    have hok := hi.world.step hw
    obtain ⟨-, -, rfl⟩ := World.send_eq_some hw
    exact hi.leave (by simp [ht]) hok rfl rfl
  | close ht hw =>
    have hok := hi.world.step hw
    obtain ⟨-, rfl⟩ := World.disconnect_eq_some hw
    exact hi.leave (by simp [ht]) hok rfl rfl
  | take ht hw =>
    -- the receiver is there, for this is the one call that takes it
    have hrx := hi.snapRx (Or.inr (Or.inr ht))
    have hok := hi.world.step hw
    rw [World.step, if_pos hrx] at hw
    obtain rfl := Option.some.inj hw
    rw [if_pos hrx]
    have hborn : s.thread ≠ .unborn := fun h => by
      rcases hi.unborn.mp h with h | h <;> exact absurd (ht.symm.trans h) (by simp)
    refine ⟨hok, fun hne => ?_, ⟨fun h => absurd h hborn, ?_⟩, ?_⟩
    · have hq := hi.quiet hne
      refine ⟨hq.senderAlive, hq.buffer, fun caller msg h => ?_, hq.data, rfl, hq.cache, hq.saved⟩
      rcases Runs.getElem?_snoc h with ⟨-, h⟩ | ⟨-, h⟩
      · exact hq.waiters caller msg h
      · exact absurd h (by simp)
    · rintro (h | h) <;> exact absurd h (by simp)
    · rintro (h | h | h) <;> exact absurd h (by simp)
  | receive ht hw =>
    obtain ⟨-, got, hgot, -⟩ := World.waitRecv_eq_some hw
    exact inv_of_late (hi.not_silent_of_recv hgot) (hi.world.step hw) rfl s.cache s.saved
  | publish ht hw =>
    exact inv_of_late (hi.not_silent (by rw [ht]; rfl)) (hi.world.step hw) rfl s.cache s.saved
  | rereadSome ht _ | rereadNone ht _ | save ht | release ht =>
    exact inv_of_late (hi.not_silent (by rw [ht]; rfl)) hi.world rfl _ _

/-- **Every interleaving keeps the invariant.** -/
theorem inv_of_run {now : ℕ} {actions : List ReplayAction}
    (h : Runs.run R.step (init now) actions = some s) : Inv s :=
  Runs.run_invariant (fun _ _ _ hi hs => hi.next (step_cases hs)) (inv_init now) h

/-! ### Where a saved trace comes from -/

/-- The trace of a message, if it has one, has the property `P`. -/
def Bears (P : List StepSnapshot → Option ExecutionResultInfo → Prop) (msg : ChannelMessage) :
    Prop :=
  ∀ snapshots result, msg = .allSnapshots snapshots result → P snapshots result

theorem bears_error (P : List StepSnapshot → Option ExecutionResultInfo → Prop)
    (message : String) : Bears P (.error message) := fun _ _ h => absurd h (by simp)

/-- **The property `P` of traces holds all the way** from the thread's message to the file. -/
structure Carries (P : List StepSnapshot → Option ExecutionResultInfo → Prop) (s : State σ) :
    Prop where
  sending : ∀ msg, s.thread = .sending msg → Bears P msg
  buffer : ∀ msg, s.world.buffer = some msg → Bears P msg
  waiters : ∀ (caller : ℕ) (msg : ChannelMessage),
    s.world.waiters[caller]? = some (.received msg) → Bears P msg
  data : ∀ snapshots i result, s.world.session.data = .ready snapshots i result →
    P snapshots result
  saving : ∀ snapshots result, s.task = .saving snapshots result → P snapshots result
  cache : ∀ file, s.cache = some file → P file.snapshots file.result
  saved : ∀ file ∈ s.saved, P file.snapshots file.result

variable {P : List StepSnapshot → Option ExecutionResultInfo → Prop}

/-- While nothing has come out of the thread, only its message matters. -/
theorem Quiet.carries (hq : Quiet s) (hsending : ∀ msg, s.thread = .sending msg → Bears P msg) :
    Carries P s where
  sending := hsending
  buffer msg h := absurd (hq.buffer.symm.trans h) (by simp)
  waiters caller msg h := absurd h (hq.waiters caller msg)
  data snapshots i result h := by
    rcases hq.data with hd | hd <;> exact absurd (hd.symm.trans h) (by simp)
  saving snapshots result h :=
    absurd (hq.early.symm.trans (congrArg BackgroundTask.early h)) (by simp [BackgroundTask.early])
  cache file h := absurd (hq.cache.symm.trans h) (by simp)
  saved file h := by
    rw [hq.saved] at h
    exact absurd h List.not_mem_nil

/-- **Every action carries the property on**, as long as the thread sends nothing without it. -/
theorem Carries.next (hi : Inv s) (hc : Carries P s) (h : Step R s action s')
    (hsending : ∀ msg, s'.thread = .sending msg → Bears P msg) : Carries P s' := by
  cases h with
  | client hcmd hw =>
    obtain ⟨hdata, -, hbuffer, -, hwaiters, -⟩ :=
      World.command_eq_some hw hcmd hi.world.indexOk
    refine ⟨hsending, fun msg h => hc.buffer msg (hbuffer ▸ h),
      fun caller msg h => hc.waiters caller msg (hwaiters ▸ h), fun snapshots j result h => ?_,
      hc.saving, hc.cache, hc.saved⟩
    obtain ⟨i, hi⟩ := (h ▸ hdata).ready_of
    exact hc.data snapshots i result hi
  | acquire | spawn | rereadNone | release =>
    -- the task goes on, with nothing to save
    exact ⟨hsending, hc.buffer, hc.waiters, hc.data, fun _ _ h => absurd h (by simp), hc.cache,
      hc.saved⟩
  | spawnFailed ht hw =>
    obtain ⟨-, rfl⟩ := World.disconnect_eq_some hw
    exact ⟨hsending, hc.buffer, hc.waiters, hc.data, fun _ _ h => absurd h (by simp), hc.cache,
      hc.saved⟩
  | exit | boot | hook | done =>
    exact ⟨hsending, hc.buffer, hc.waiters, hc.data, hc.saving, hc.cache, hc.saved⟩
  | panic _ _ hw | close _ hw =>
    obtain ⟨-, rfl⟩ := World.disconnect_eq_some hw
    exact ⟨hsending, hc.buffer, hc.waiters, hc.data, hc.saving, hc.cache, hc.saved⟩
  | send ht hw =>
    -- the message of the thread is now in the channel
    obtain ⟨-, -, rfl⟩ := World.send_eq_some hw
    refine ⟨hsending, ?_, hc.waiters, hc.data, hc.saving, hc.cache, hc.saved⟩
    intro msg h
    obtain rfl := Option.some.inj h
    exact hc.sending _ ht
  | take ht hw =>
    rw [World.step] at hw
    split at hw
    · next hrx =>
      obtain rfl := Option.some.inj hw
      refine ⟨hsending, hc.buffer, fun caller msg h => ?_, hc.data, fun _ _ h => ?_, hc.cache,
        hc.saved⟩
      · rcases Runs.getElem?_snoc h with ⟨-, h⟩ | ⟨-, h⟩
        · exact hc.waiters caller msg h
        · exact absurd h (by simp)
      · rw [if_pos hrx] at h
        exact absurd h (by simp)
    · next hrx =>
      exact absurd (hi.snapRx (Or.inr (Or.inr ht))) hrx
  | receive ht hw =>
    -- the caller has the message, or knows that there is none
    obtain ⟨hx, got, hgot, rfl⟩ := World.waitRecv_eq_some hw
    refine ⟨hsending, fun msg h => absurd h (by simp), fun caller msg h => ?_, hc.data,
      fun _ _ h => absurd h (by simp), hc.cache, hc.saved⟩
    rcases caller with _ | caller
    · have hlt : 0 < s.world.waiters.length := (List.getElem?_eq_some_iff.mp hx).1
      rw [List.getElem?_set_self hlt] at h
      obtain rfl := Waiter.received.inj (Option.some.inj h)
      rcases World.recv_eq_some hgot with ⟨msg, hbuf, rfl⟩ | ⟨-, -, rfl⟩
      · exact hc.buffer msg hbuf
      · exact bears_error P _
    · rw [List.getElem?_set_ne (Nat.succ_ne_zero caller).symm] at h
      exact hc.waiters _ msg h
  | publish ht hw =>
    -- the session has the message, unless it has been aborted
    obtain ⟨msg, hx, rfl⟩ := World.waitPublish_eq_some hw
    refine ⟨hsending, hc.buffer, ?_, ?_, fun _ _ h => absurd h (by simp), hc.cache, hc.saved⟩
    · intro caller msg' h
      rw [List.eraseIdx_zero, List.getElem?_tail] at h
      exact hc.waiters _ msg' h
    · intro snapshots i result h
      exact hc.waiters 0 msg hx snapshots result (SessionData.ready_of_publish h)
  | rereadSome ht hdata =>
    obtain ⟨i, hdata⟩ := SessionData.snapshotsForCache_eq_some hdata
    refine ⟨hsending, hc.buffer, hc.waiters, hc.data, ?_, hc.cache, hc.saved⟩
    intro snapshots result h
    obtain ⟨rfl, rfl⟩ := BackgroundTask.saving.inj h
    exact hc.data _ i _ hdata
  | @save ok snapshots result ht =>
    have hP := hc.saving snapshots result ht
    refine ⟨hsending, hc.buffer, hc.waiters, hc.data, fun _ _ h => absurd h (by simp), ?_, ?_⟩
    · intro file h
      cases ok with
      | true => exact Option.some.inj h ▸ hP
      | false => exact hc.cache file h
    · intro file h
      rcases List.mem_append.mp h with h | h
      · exact hc.saved file h
      · exact List.mem_singleton.mp h ▸ hP

/-! ### What a thread produces -/

/-- **A property `Q` of the running machine that makes `P` a property of what is sent**: it
holds when the machine starts, every hook keeps it, and the message sent when the machine
returns has `P`. Both may depend on whether the inspector has halted an interpreter; once it
has, it finds the flag set every time. -/
structure Produces (R : Replay σ) (Q : σ → StepDebugInspector → Bool → Prop)
    (P : Bool → List StepSnapshot → Option ExecutionResultInfo → Prop) : Prop where
  boot : ∀ evm, R.boot = .ok evm → Q evm (.new R.maxMemoryBytes) false
  hook : ∀ evm i halted hook resume seen, Q evm i halted → R.next evm = .hook hook resume →
    (halted = true → seen = true) →
      Q (resume (i.hook R.opCode seen hook).2) (i.hook R.opCode seen hook).1
        (halted || (i.hook R.opCode seen hook).2)
  done : ∀ evm i halted result, Q evm i halted → R.next evm = .done result →
    Bears (P halted) (executorMessage i.snapshots result)

/-- The running machine has `Q`, and what has come out of the thread has `P`. -/
structure Producing (Q : σ → StepDebugInspector → Bool → Prop)
    (P : Bool → List StepSnapshot → Option ExecutionResultInfo → Prop) (s : State σ) : Prop where
  inv : Inv s
  carries : Carries (P s.halted) s
  fresh : s.thread = .unborn ∨ s.thread = .starting → s.halted = false
  running : ∀ evm i, s.thread = .running evm i → Q evm i s.halted

variable {Q : σ → StepDebugInspector → Bool → Prop}
  {T : Bool → List StepSnapshot → Option ExecutionResultInfo → Prop}

theorem producing_init (now : ℕ) : Producing Q T (init now : State σ) where
  inv := inv_init now
  carries := ((inv_init now).quiet rfl).carries fun msg h => absurd h (by simp [init])
  fresh _ := rfl
  running evm i h := absurd h (by simp [init])

/-- **Every action keeps it so.** -/
theorem Producing.next (hp : Produces R Q T) (hs : Producing Q T s) (h : Step R s action s') :
    Producing Q T s' := by
  have hstep := h
  have hinv := hs.inv.next h
  cases h with
  | hook ht hnext hseen hhalted =>
    -- nothing has come out yet, so a change of `halted` does no harm
    refine ⟨hinv, (hinv.quiet rfl).carries fun msg h => absurd h (by simp), ?_, ?_⟩
    · rintro (h | h) <;> exact absurd h (by simp)
    · intro evm i h
      obtain ⟨rfl, rfl⟩ := EvmThread.running.inj h
      exact hp.hook _ _ _ _ _ _ (hs.running _ _ ht) hnext hhalted
  | done ht hnext =>
    refine ⟨hinv, hs.carries.next hs.inv hstep fun msg h => ?_, ?_, fun _ _ h => absurd h (by simp)⟩
    · obtain rfl := EvmThread.sending.inj h
      exact hp.done _ _ _ _ (hs.running _ _ ht) hnext
    · rintro (h | h) <;> exact absurd h (by simp)
  | exit ht hboot =>
    refine ⟨hinv, hs.carries.next hs.inv hstep fun msg h => ?_, fun _ => hs.fresh (Or.inr ht),
      fun _ _ h => absurd h (by simp)⟩
    obtain rfl := EvmThread.sending.inj h
    exact bears_error _ _
  | boot ht hboot =>
    have hfresh := hs.fresh (Or.inr ht)
    refine ⟨hinv, hs.carries.next hs.inv hstep fun msg h => absurd h (by simp), fun _ => hfresh,
      fun evm i h => ?_⟩
    obtain ⟨rfl, rfl⟩ := EvmThread.running.inj h
    exact hfresh ▸ hp.boot _ hboot
  | spawn ht =>
    exact ⟨hinv, hs.carries.next hs.inv hstep fun msg h => absurd h (by simp),
      fun _ => hs.fresh (Or.inl (hs.inv.unborn.mpr (Or.inr ht))), fun _ _ h => absurd h (by simp)⟩
  | spawnFailed | panic | send | close =>
    refine ⟨hinv, hs.carries.next hs.inv hstep fun msg h => absurd h (by simp), ?_,
      fun _ _ h => absurd h (by simp)⟩
    rintro (h | h) <;> exact absurd h (by simp)
  | _ => exact ⟨hinv, hs.carries.next hs.inv hstep hs.carries.sending, hs.fresh, hs.running⟩

/-- **The rule for what a thread produces**: a property of the machine as it runs becomes a
property of every trace the session shows and the task saves, in every interleaving. -/
theorem producing_of_run (hp : Produces R Q T) {now : ℕ} {actions : List ReplayAction}
    (h : Runs.run R.step (init now) actions = some s) : Producing Q T s :=
  Runs.run_invariant (fun _ _ _ hs hstep => hs.next hp (step_cases hstep)) (producing_init now) h

end Replay

end EvmDebugger
