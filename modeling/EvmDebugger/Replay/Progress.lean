import EvmDebugger.Replay.OneMessage
import EvmDebugger.Replay.Permits

/-!
# Every replay comes to an end

That no more than `n` replays run at once is half of what the semaphore is for; the other half is
that all of them get their turn. A session may have to wait for others before its task has a permit,
and then its task waits for the thread; and if any of them waited for something that never comes,
its clients would poll for ever.

Two facts say that this does not happen, whatever the order in which the tasks and the threads go
on. Each of their actions brings a session closer to its end (`EvmDebugger.Replay.Rank`), so that
there are only so many of them – a machine stops, as it runs out of gas if of nothing else. And as
long as a session has not come to its end, there is something to be done, if not for it then for one
that holds a permit (`EvmDebugger.Replay.Live.exists_next`). What clients do in the meantime makes
no difference.

There is one thing to be said against it: with no permits at all, nothing is ever done, and nothing
in `main.rs` keeps the variable from being zero (`EvmDebugger.replays_nothing_iff`).
-/

namespace EvmDebugger

namespace Replay

variable {σ : Type} {R : Replay σ} {s s' : State σ} {action : ReplayAction}

/-! ### How much is left to be done -/

/-- The machine calls so many hooks and no more, whatever they are answered. -/
def HaltsWithin (R : Replay σ) : ℕ → σ → Prop
  | 0, evm => ∀ hook resume, R.next evm ≠ .hook hook resume
  | n + 1, evm => ∀ hook resume, R.next evm = .hook hook resume →
    ∀ halted, R.HaltsWithin n (resume halted)

/-- **The replay halts**: once it is started, its machine does. -/
def Halts (R : Replay σ) (bound : ℕ) : Prop := ∀ evm, R.boot = .ok evm → R.HaltsWithin bound evm

/-- What is left for the thread to do. -/
inductive ThreadRank (R : Replay σ) (bound : ℕ) : EvmThread σ → ℕ → Prop where
  | unborn : ThreadRank R bound .unborn (bound + 5)
  | starting : ThreadRank R bound .starting (bound + 4)
  | running {evm : σ} {i : StepDebugInspector} {n : ℕ} (h : R.HaltsWithin n evm) :
      ThreadRank R bound (.running evm i) (n + 3)
  | sending {msg : ChannelMessage} : ThreadRank R bound (.sending msg) 2
  | closing : ThreadRank R bound .closing 1
  | gone : ThreadRank R bound .gone 0

end Replay

/-- What is left for the task to do. -/
def BackgroundTask.rank : BackgroundTask → ℕ
  | acquiring => 8
  | spawning => 7
  | taking => 6
  | receiving => 5
  | publishing => 4
  | rereading => 3
  | saving _ _ => 2
  | finishing => 1
  | finished => 0

/-- The wait for the thread is over, or there never was one. -/
def BackgroundTask.told : BackgroundTask → Bool
  | rereading | saving _ _ | finishing | finished => true
  | acquiring | spawning | taking | receiving | publishing => false

/-- The action is one of the task or of the thread. -/
def ReplayAction.isBackground : ReplayAction → Bool
  | client _ => false
  | acquire | spawn _ | evm _ | task | save _ | release => true

namespace Replay

variable {σ : Type} {R : Replay σ} {s s' : State σ} {action : ReplayAction}

/-- **What is left to be done** for a session. -/
def Rank (R : Replay σ) (bound : ℕ) (s : State σ) (n : ℕ) : Prop :=
  ∃ k, R.ThreadRank bound s.thread k ∧ n = k + s.task.rank

/-- A session just made. -/
theorem rank_init (R : Replay σ) (bound now : ℕ) : R.Rank bound (init now) (bound + 13) :=
  ⟨bound + 5, .unborn, rfl⟩

/-- The task has gone on. -/
theorem Rank.task {bound k : ℕ} (hk : R.ThreadRank bound s.thread k) {t : State σ}
    (hthread : t.thread = s.thread) (hrank : t.task.rank < s.task.rank) :
    ∃ m, R.Rank bound t m ∧ m + 1 ≤ k + s.task.rank :=
  ⟨k + t.task.rank, ⟨k, hthread ▸ hk, rfl⟩, by omega⟩

/-- The thread has. -/
theorem Rank.thread {bound k k' : ℕ} {t : State σ} (hk' : R.ThreadRank bound t.thread k')
    (hlt : k' < k) (htask : t.task.rank ≤ s.task.rank) :
    ∃ m, R.Rank bound t m ∧ m + 1 ≤ k + s.task.rank :=
  ⟨k' + t.task.rank, ⟨k', hk', rfl⟩, by omega⟩

/-- **Every action of the task or of the thread leaves less to be done**, and a client's leaves as
much. -/
theorem Rank.next {bound n : ℕ} (h : R.Rank bound s n) (hhalts : R.Halts bound) (hi : Inv s)
    (hstep : Step R s action s') :
    ∃ m, R.Rank bound s' m ∧ m + action.isBackground.toNat ≤ n := by
  obtain ⟨k, hk, rfl⟩ := h
  cases hstep with
  | client hc hw => exact ⟨_, ⟨k, hk, rfl⟩, le_rfl⟩
  | acquire ht | receive ht hw | publish ht hw | rereadSome ht hdata | rereadNone ht hdata
  | save ht | release ht => exact Rank.task hk rfl (by simp [ht, BackgroundTask.rank])
  | take ht hw =>
    refine Rank.task hk rfl ?_
    rw [if_pos (hi.snapRx (Or.inr (Or.inr ht))), ht]
    exact Nat.lt_succ_self _
  | spawn ht =>
    rw [hi.unborn.mpr (Or.inr ht)] at hk
    cases hk
    refine Rank.thread .starting (Nat.lt_succ_self _) ?_
    simp [ht, BackgroundTask.rank]
  | spawnFailed ht hw =>
    rw [hi.unborn.mpr (Or.inr ht)] at hk
    cases hk
    refine Rank.thread .gone (Nat.succ_pos _) ?_
    simp [ht, BackgroundTask.rank]
  | exit ht hboot =>
    rw [ht] at hk
    cases hk
    exact Rank.thread .sending (by omega) le_rfl
  | boot ht hboot =>
    rw [ht] at hk
    cases hk
    exact Rank.thread (.running (hhalts _ hboot)) (Nat.lt_succ_self _) le_rfl
  | hook ht hnext hseen hhalted =>
    rw [ht] at hk
    cases hk with
    | @running evm i n h =>
      cases n with
      | zero => exact absurd hnext (h _ _)
      | succ n => exact Rank.thread (.running (h _ _ hnext _)) (by omega) le_rfl
  | done ht hnext =>
    rw [ht] at hk
    cases hk
    exact Rank.thread .sending (by omega) le_rfl
  | panic ht hnext hw =>
    rw [ht] at hk
    cases hk
    exact Rank.thread .gone (by omega) le_rfl
  | send ht hw =>
    rw [ht] at hk
    cases hk
    exact Rank.thread .closing (by omega) le_rfl
  | close ht hw =>
    rw [ht] at hk
    cases hk
    exact Rank.thread .gone (by omega) le_rfl

/-! ### There is always something to be done -/

/-- **What the task and the thread rely on**: what has been halted was to be aborted; the sender is
there as long as the thread is; whoever waits is the task; and once it has been told, the session is
no longer loading, unless the task has never got as far as waiting. -/
structure Live (s : State σ) : Prop where
  flag : s.halted = true → s.world.session.abortFlag = true
  sender : s.world.senderAlive = true ↔ s.thread ≠ .gone
  receiving : s.task = .receiving → s.world.waiters[0]? = some .receiving
  publishing : s.task = .publishing → ∃ msg, s.world.waiters[0]? = some (.received msg)
  told : s.task.told = true → s.world.session.snapRx = false → s.world.session.data ≠ .loading

theorem live_init (now : ℕ) : Live (init now : State σ) where
  flag h := absurd h (by simp [init])
  sender := ⟨fun _ h => absurd h (by simp [init]), fun _ => rfl⟩
  receiving h := absurd h (by simp [init])
  publishing h := absurd h (by simp [init])
  told h := absurd h (by simp [init, BackgroundTask.told])

/-- Nobody has taken the receiver, so nobody waits on it. -/
theorem waiters_of_snapRx {o : Origin} {w : World} (h : World.Ok o w)
    (hrx : w.session.snapRx = true) : w.waiters = [] := by
  cases h with
  | idle _ hwaiters => exact hwaiters
  | receiving hrx' | received _ hrx' | published _ hrx' | cached _ _ hrx' =>
    exact absurd (hrx.symm.trans hrx') (by simp)

/-- The thread goes on, and the session does not notice. -/
theorem Live.evm (h : Live s) (hthread : s.thread ≠ .gone) {thread : EvmThread σ}
    (hthread' : thread ≠ .gone) {halted : Bool}
    (hflag : halted = true → s.world.session.abortFlag = true) :
    Live { s with thread := thread, halted := halted } where
  flag := hflag
  sender := ⟨fun _ => hthread', fun _ => h.sender.mpr hthread⟩
  receiving := h.receiving
  publishing := h.publishing
  told := h.told

/-- The thread is gone, and the sender with it. -/
theorem Live.gone (h : Live s) {w : World} (hw : s.world.step .disconnect = some w) :
    Live ({ s with world := w, thread := .gone } : State σ) := by
  obtain ⟨-, rfl⟩ := World.disconnect_eq_some hw
  exact ⟨h.flag, ⟨fun h => absurd h (by simp), fun h => absurd rfl h⟩, h.receiving, h.publishing,
    h.told⟩

/-- The task goes on, without the session. -/
theorem Live.task (h : Live s) {task : BackgroundTask} (htold : task.told = s.task.told)
    (hreceiving : task ≠ .receiving) (hpublishing : task ≠ .publishing)
    (cache : Option TraceCacheFile) (saved : List TraceCacheFile) :
    Live { s with task := task, cache := cache, saved := saved } where
  flag := h.flag
  sender := h.sender
  receiving ht := absurd ht hreceiving
  publishing ht := absurd ht hpublishing
  told ht := h.told (htold ▸ ht)

/-- **Every action keeps it so.** -/
theorem Live.next (h : Live s) (hi : Inv s) (hstep : Step R s action s') : Live s' := by
  cases hstep with
  | @client a w hc hw =>
    obtain ⟨hserved, hrx, -, halive, hwaiters, -⟩ :=
      World.command_eq_some hw hc hi.world.indexOk
    have hflag := (World.session_step hw).1
    refine ⟨fun hh => ?_, ?_, fun ht => hwaiters ▸ h.receiving ht,
      fun ht => hwaiters ▸ h.publishing ht, fun ht hrx' hloading => ?_⟩
    · show w.session.abortFlag = true
      rw [hflag, h.flag hh, Bool.true_or]
    · show w.senderAlive = true ↔ s.thread ≠ .gone
      rw [halive]
      exact h.sender
    · exact h.told ht (hrx ▸ hrx') ((hi.world.moves hw).eq_loading hloading)
  | acquire ht =>
    exact h.task (by rw [ht]; rfl) (by simp) (by simp) s.cache s.saved
  | spawn ht =>
    have hthread : s.thread = .unborn := hi.unborn.mpr (Or.inr ht)
    have hstarting : EvmThread.starting ≠ (.gone : EvmThread σ) := by simp
    have hlive := h.evm (by simp [hthread]) hstarting h.flag
    exact hlive.task (by rw [ht]; rfl) (by simp) (by simp) s.cache s.saved
  | spawnFailed ht hw =>
    have hrx := hi.snapRx (Or.inr (Or.inl ht))
    obtain ⟨-, rfl⟩ := World.disconnect_eq_some hw
    refine ⟨h.flag, ⟨fun h => absurd h (by simp), fun h => absurd rfl h⟩,
      fun ht => absurd ht (by simp), fun ht => absurd ht (by simp), fun _ hrx' => ?_⟩
    exact absurd (hrx.symm.trans hrx') (by simp)
  | exit ht hboot | boot ht hboot => exact h.evm (by simp [ht]) (by simp) h.flag
  | @hook seen evm i hook resume ht hnext hseen hhalted =>
    refine h.evm (by simp [ht]) (by simp) fun hh => ?_
    rcases Bool.or_eq_true_iff.mp hh with hh | hanswer
    · exact h.flag hh
    · exact hseen (StepDebugInspector.of_answer_eq_true hanswer).1
  | done ht hnext => exact h.evm (by simp [ht]) (by simp) h.flag
  | panic ht hnext hw => exact h.gone hw
  | send ht hw =>
    obtain ⟨halive, -, rfl⟩ := World.send_eq_some hw
    exact ⟨h.flag, ⟨fun _ => by simp, fun _ => halive⟩, h.receiving, h.publishing, h.told⟩
  | close ht hw => exact h.gone hw
  | take ht hw =>
    have hrx := hi.snapRx (Or.inr (Or.inr ht))
    have hwaiters := waiters_of_snapRx hi.world hrx
    rw [World.step, if_pos hrx] at hw
    obtain rfl := Option.some.inj hw
    rw [if_pos hrx]
    refine ⟨h.flag, h.sender, fun _ => ?_, fun ht => absurd ht (by simp),
      fun ht => absurd ht (by simp [BackgroundTask.told])⟩
    show (s.world.waiters ++ [.receiving])[0]? = some .receiving
    rw [hwaiters]
    rfl
  | receive ht hw =>
    obtain ⟨hx, got, -, rfl⟩ := World.waitRecv_eq_some hw
    refine ⟨h.flag, h.sender, fun ht => absurd ht (by simp), fun _ => ⟨messageOf got, ?_⟩,
      fun ht => absurd ht (by simp [BackgroundTask.told])⟩
    exact List.getElem?_set_self (List.getElem?_eq_some_iff.mp hx).1
  | publish ht hw =>
    obtain ⟨msg, -, rfl⟩ := World.waitPublish_eq_some hw
    exact ⟨h.flag, h.sender, fun ht => absurd ht (by simp), fun ht => absurd ht (by simp),
      fun _ _ => SessionData.publish_ne_loading msg _⟩
  | rereadSome ht hdata =>
    exact h.task (by rw [ht]; rfl) (by simp) (by simp) s.cache s.saved
  | rereadNone ht hdata =>
    exact h.task (by rw [ht]; rfl) (by simp) (by simp) s.cache s.saved
  | save ht => exact h.task (by rw [ht]; rfl) (by simp) (by simp) _ _
  | release ht =>
    exact h.task (by rw [ht]; rfl) (by simp) (by simp) s.cache s.saved

/-- **A session has come to its end**: its task is done, and its thread is gone. -/
def Settled (s : State σ) : Prop := s.task = .finished ∧ s.thread = .gone

instance [DecidableEq σ] (s : State σ) : Decidable (Settled s) :=
  inferInstanceAs (Decidable (_ ∧ _))

/-- Something can be done for the session that does not take a permit. -/
def CanGoOn (R : Replay σ) (s : State σ) : Prop :=
  ∃ action, action.isBackground = true ∧ action ≠ .acquire ∧ (R.step s action).isSome = true

/-- The sender can be dropped as long as it is there. -/
theorem isSome_disconnect {w : World} (h : w.senderAlive = true) :
    (w.step .disconnect).isSome = true := by
  rw [World.step, if_pos h]
  rfl

/-- **The thread can go on**, as long as it is there. -/
theorem Live.exists_evm (h : Live s) (hi : Inv s) (hborn : s.thread ≠ .unborn)
    (hthread : s.thread ≠ .gone) : ∃ seen, (R.evmStep s seen).isSome = true := by
  have hdisconnect := isSome_disconnect (h.sender.mpr hthread)
  cases ht : s.thread with
  | unborn => exact absurd ht hborn
  | gone => exact absurd ht hthread
  | starting =>
    refine ⟨false, ?_⟩
    rw [evmStep, ht]
    cases R.boot <;> rfl
  | running evm i =>
    cases hnext : R.next evm with
    | hook hook resume =>
      -- it reads from the flag what it has read before
      refine ⟨s.halted, ?_⟩
      simp only [evmStep, ht, hnext]
      rw [if_pos ⟨h.flag, id⟩]
      rfl
    | done result =>
      refine ⟨false, ?_⟩
      simp only [evmStep, ht, hnext]
      rfl
    | panic =>
      refine ⟨false, ?_⟩
      simp only [evmStep, ht, hnext, Option.isSome_map]
      exact hdisconnect
  | sending msg =>
    have hq := hi.quiet (by rw [ht]; rfl)
    refine ⟨false, ?_⟩
    simp only [evmStep, ht, Option.isSome_map, World.step]
    rw [if_pos ⟨hq.senderAlive, hq.buffer⟩]
    rfl
  | closing =>
    refine ⟨false, ?_⟩
    simp only [evmStep, ht, Option.isSome_map]
    exact hdisconnect

/-- **A receive returns**, once the thread is gone: there is a message, or there will be none. -/
theorem Live.isSome_recv (h : Live s) (hthread : s.thread = .gone) :
    s.world.recv.isSome = true := by
  rw [World.recv]
  cases hbuffer : s.world.buffer with
  | some msg => rfl
  | none =>
    dsimp only
    rw [if_neg fun halive => h.sender.mp halive hthread]
    rfl

/-- **The task can go on**, once the thread is gone. -/
theorem Live.exists_task (h : Live s) (hi : Inv s) (hthread : s.thread = .gone)
    (hnot : s.task ≠ .finished) : R.CanGoOn s := by
  have hspawned : ¬(s.task = .acquiring ∨ s.task = .spawning) := hi.not_unborn (by simp [hthread])
  have htask : (taskStep s).isSome = true → R.CanGoOn s := fun hs => ⟨.task, rfl, by simp, hs⟩
  cases ht : s.task with
  | acquiring => exact absurd (Or.inl ht) hspawned
  | spawning => exact absurd (Or.inr ht) hspawned
  | taking =>
    refine htask ?_
    simp only [taskStep, ht, Option.isSome_map, World.step]
    rw [if_pos (hi.snapRx (Or.inr (Or.inr ht)))]
    rfl
  | receiving =>
    refine htask ?_
    simp only [taskStep, ht, Option.isSome_map, World.step, h.receiving ht]
    exact h.isSome_recv hthread
  | publishing =>
    obtain ⟨msg, hmsg⟩ := h.publishing ht
    refine htask ?_
    simp only [taskStep, ht, Option.isSome_map, World.step, hmsg]
    rfl
  | rereading =>
    refine htask ?_
    simp only [taskStep, ht]
    cases s.world.session.data.snapshotsForCache <;> rfl
  | saving snapshots result =>
    refine ⟨.save true, rfl, by simp, ?_⟩
    simp only [step, ht]
    rfl
  | finishing =>
    refine ⟨.release, rfl, by simp, ?_⟩
    simp only [step, ht]
    rfl
  | finished => exact absurd ht hnot

/-- **As long as a session has not come to its end, there is something to be done for it**, if it is
not waiting for a permit. -/
theorem Live.exists_next (h : Live s) (hi : Inv s) (hnot : ¬Settled s)
    (hacquiring : s.task ≠ .acquiring) : R.CanGoOn s := by
  by_cases hborn : s.thread = .unborn
  · have hspawning : s.task = .spawning := (hi.unborn.mp hborn).resolve_left hacquiring
    refine ⟨.spawn true, rfl, by simp, ?_⟩
    simp only [step, spawnStep, hspawning]
    rfl
  · by_cases hthread : s.thread = .gone
    · exact h.exists_task hi hthread fun ht => hnot ⟨ht, hthread⟩
    · obtain ⟨seen, hs⟩ := h.exists_evm (R := R) hi hborn hthread
      exact ⟨.evm seen, rfl, by simp, hs⟩

/-! ### A whole run -/

theorem live_of_run {now : ℕ} {actions : List ReplayAction}
    (h : Runs.run R.step (init now) actions = some s) : Live s :=
  (Runs.run_invariant (motive := fun s => Inv s ∧ Live s)
    (fun _ _ _ hs hstep => ⟨hs.1.next (step_cases hstep), hs.2.next hs.1 (step_cases hstep)⟩)
    ⟨inv_init now, live_init now⟩ h).2

/-- **There are only so many actions of the task and of the thread**, however many there are of
clients. -/
theorem countP_isBackground_le {bound now : ℕ} (hhalts : R.Halts bound)
    {actions : List ReplayAction} (h : Runs.run R.step (init now) actions = some s) :
    actions.countP ReplayAction.isBackground ≤ bound + 13 := by
  refine Runs.countP_le_rank (R := fun s n => Inv s ∧ R.Rank bound s n)
    (fun s a t n hs hstep => ?_) ⟨inv_init now, rank_init R bound now⟩ h
  have hcases := step_cases hstep
  obtain ⟨m, hm, hle⟩ := hs.2.next hhalts hs.1 hcases
  exact ⟨m, ⟨hs.1.next hcases, hm⟩, hle⟩

/-- **Only a thread that could not be spawned is not waited for.** -/
theorem Step.untaken (hi : Inv s) (h : Step R s action s') (ht : s'.task.told = true)
    (hrx : s'.world.session.snapRx = true) :
    action = .spawn false ∨ s.task.told = true ∧ s.world.session.snapRx = true := by
  cases h with
  | client hc hw =>
    obtain ⟨-, hsame, -⟩ := World.command_eq_some hw hc hi.world.indexOk
    exact Or.inr ⟨ht, hsame ▸ hrx⟩
  | spawnFailed => exact Or.inl rfl
  | acquire | spawn | receive => exact absurd ht (by simp [BackgroundTask.told])
  | exit | boot | hook | done => exact Or.inr ⟨ht, hrx⟩
  | panic _ _ hw | close _ hw =>
    obtain ⟨-, rfl⟩ := World.disconnect_eq_some hw
    exact Or.inr ⟨ht, hrx⟩
  | send _ hw =>
    obtain ⟨-, -, rfl⟩ := World.send_eq_some hw
    exact Or.inr ⟨ht, hrx⟩
  | take ht' hw =>
    rw [if_pos (hi.snapRx (Or.inr (Or.inr ht')))] at ht
    exact absurd ht (by simp [BackgroundTask.told])
  | publish ht' hw =>
    obtain ⟨msg, hx, rfl⟩ := World.waitPublish_eq_some hw
    exact absurd (hrx.symm.trans (hi.world.waiter hx).2.2.2.1) (by simp)
  | rereadSome ht' | rereadNone ht' | save ht' | release ht' =>
    exact Or.inr ⟨by rw [ht']; rfl, hrx⟩

/-- **Whoever has been told is not loading any more**, unless the thread could not be spawned. -/
theorem spawn_mem_of_loading {now : ℕ} {actions : List ReplayAction}
    (h : Runs.run R.step (init now) actions = some s) (ht : s.task.told = true)
    (hloading : s.world.session.data = .loading) : .spawn false ∈ actions := by
  have huntaken : s.task.told = true → s.world.session.snapRx = true → .spawn false ∈ actions := by
    refine Runs.run_induction (motive := fun actions s => s.task.told = true →
      s.world.session.snapRx = true → .spawn false ∈ actions) ?_ ?_ h
    · exact fun ht => absurd ht (by simp [init, BackgroundTask.told])
    · intro as a t u hrun ih hstep ht hrx
      rcases (step_cases hstep).untaken (inv_of_run hrun) ht hrx with rfl | ⟨ht', hrx'⟩
      · exact List.mem_append_right _ (List.mem_singleton.mpr rfl)
      · exact List.mem_append_left _ (ih ht' hrx')
  cases hrx : s.world.session.snapRx with
  | true => exact huntaken ht hrx
  | false => exact absurd hloading ((live_of_run h).told ht hrx)

end Replay

/-! ### All sessions -/

/-- What an action does to a session, if it does anything. -/
def ServiceAction.own {σ : Type} (session : ℕ) : ServiceAction σ → Option ReplayAction
  | act q action => if q = session then some action else none
  | create _ _ | remove _ => none

namespace Service

variable {σ : Type} {g g' : Service σ} {n : ℕ}

/-- An action on a session is not one of another. -/
theorem own_act_ne {k session : ℕ} (h : session ≠ k) (action : ReplayAction) :
    ServiceAction.own k (.act session action : ServiceAction σ) = none := if_neg h

/-- What happens to a session next comes last. -/
theorem filterMap_own_act (as : List (ServiceAction σ)) (k : ℕ) (action : ReplayAction) :
    (as ++ [ServiceAction.act k action]).filterMap (ServiceAction.own k) =
      as.filterMap (ServiceAction.own k) ++ [action] := by
  rw [List.filterMap_append]
  simp [ServiceAction.own]

/-- What has nothing to do with a session does not happen to it. -/
theorem filterMap_own_of_eq_none {k : ℕ} {a : ServiceAction σ} (h : ServiceAction.own k a = none)
    (as : List (ServiceAction σ)) :
    (as ++ [a]).filterMap (ServiceAction.own k) = as.filterMap (ServiceAction.own k) := by
  rw [List.filterMap_append]
  simp [h]

/-- **To a session, a run of the service is a run of its own**, and nothing happens to a session
before it is made. -/
theorem run_own {actions : List (ServiceAction σ)}
    (h : Runs.run step (init n) actions = some g) :
    (∀ (k : ℕ) (entry : ServiceEntry σ), g.sessions[k]? = some entry → ∃ now,
        Runs.run entry.replay.step (Replay.init now) (actions.filterMap (ServiceAction.own k)) =
          some entry.state) ∧
      ∀ k, g.sessions.length ≤ k → actions.filterMap (ServiceAction.own k) = [] := by
  refine Runs.run_induction (motive := fun actions g =>
    (∀ (k : ℕ) (entry : ServiceEntry σ), g.sessions[k]? = some entry → ∃ now,
        Runs.run entry.replay.step (Replay.init now) (actions.filterMap (ServiceAction.own k)) =
          some entry.state) ∧
      ∀ k, g.sessions.length ≤ k → actions.filterMap (ServiceAction.own k) = []) ?_ ?_ h
  · exact ⟨fun k entry h => absurd h (by simp [init]), fun _ _ => rfl⟩
  intro as a g t _ ih hstep
  obtain ⟨hown, hnone⟩ := ih
  cases a with
  | create replay now =>
    obtain rfl := Option.some.inj hstep
    refine ⟨fun k entry hentry => ?_, fun k hk => ?_⟩
    · rw [filterMap_own_of_eq_none rfl]
      rcases Runs.getElem?_snoc hentry with ⟨-, hentry⟩ | ⟨rfl, rfl⟩
      · exact hown k entry hentry
      · rw [hnone _ le_rfl]
        exact ⟨now, rfl⟩
    · rw [filterMap_own_of_eq_none rfl]
      refine hnone k ((Nat.le_add_right _ 1).trans ?_)
      rwa [List.length_append] at hk
  | remove session =>
    obtain ⟨entry, hentry, rfl⟩ := remove_eq_some hstep
    refine ⟨fun k entry' hentry' => ?_, fun k hk => ?_⟩
    · rw [filterMap_own_of_eq_none rfl]
      by_cases hk : session = k
      · subst hk
        rw [List.getElem?_set_self (List.getElem?_eq_some_iff.mp hentry).1] at hentry'
        obtain rfl := Option.some.inj hentry'
        exact hown session entry hentry
      · rw [List.getElem?_set_ne hk] at hentry'
        exact hown k entry' hentry'
    · rw [filterMap_own_of_eq_none rfl]
      rw [List.length_set] at hk
      exact hnone k hk
  | act session action =>
    obtain ⟨entry, permits, state, hentry, -, hstate, rfl⟩ := act_eq_some hstep
    have hlt : session < g.sessions.length := (List.getElem?_eq_some_iff.mp hentry).1
    refine ⟨fun k entry' hentry' => ?_, fun k hk => ?_⟩
    · by_cases hk : session = k
      · subst hk
        rw [List.getElem?_set_self hlt] at hentry'
        obtain rfl := Option.some.inj hentry'
        obtain ⟨now, hrun⟩ := hown session entry hentry
        rw [filterMap_own_act]
        exact ⟨now, Runs.run_snoc_eq_some.mpr ⟨entry.state, hrun, hstate⟩⟩
      · rw [List.getElem?_set_ne hk] at hentry'
        rw [filterMap_own_of_eq_none (own_act_ne hk action)]
        exact hown k entry' hentry'
    · rw [List.length_set] at hk
      rw [filterMap_own_of_eq_none (own_act_ne (hlt.trans_le hk).ne action)]
      exact hnone k hk

/-- Only acquiring can fail for want of a permit. -/
theorem permitsAfter_isSome {action : ReplayAction} (h : action ≠ .acquire) (permits : ℕ) :
    (permitsAfter permits action).isSome = true := by
  cases action with
  | acquire => exact absurd rfl h
  | client _ | spawn _ | evm _ | task | save _ | release => rfl

/-- What can be done for a session without a permit can be done for it in the service. -/
theorem isSome_act {k : ℕ} {entry : ServiceEntry σ} (hentry : g.sessions[k]? = some entry)
    {action : ReplayAction} (hne : action ≠ .acquire)
    (h : (entry.replay.step entry.state action).isSome = true) :
    (g.step (.act k action)).isSome = true := by
  obtain ⟨state, hstate⟩ := Option.isSome_iff_exists.mp h
  obtain ⟨permits, hpermits⟩ := Option.isSome_iff_exists.mp (permitsAfter_isSome hne g.permits)
  rw [step, hentry]
  dsimp only
  rw [hpermits, Option.bind_some, hstate]
  rfl

/-- And a permit is taken whenever there is one. -/
theorem isSome_acquire {k : ℕ} {entry : ServiceEntry σ} (hentry : g.sessions[k]? = some entry)
    (htask : entry.state.task = .acquiring) (hpermits : 0 < g.permits) :
    (g.step (.act k .acquire)).isSome = true := by
  rw [step, hentry]
  dsimp only
  rw [permitsAfter, if_pos hpermits, Option.bind_some, Replay.step, htask]
  rfl

/-- **Nothing is left to be done** by the tasks and the threads. -/
def Idle (g : Service σ) : Prop :=
  ∀ (k : ℕ) (action : ReplayAction), action.isBackground = true → g.step (.act k action) = none

/-- **Where nothing is left to be done, all sessions have come to their end**: one that has not
waits for a permit, all of which are held by others, for which there is something to be done. -/
theorem Idle.settled (h : g.Idle) (hn : 0 < n) (hok : Ok n g)
    (hlive : ∀ entry ∈ g.sessions, Replay.Live entry.state) :
    g.permits = n ∧ ∀ entry ∈ g.sessions, Replay.Settled entry.state := by
  have hwaiting : ∀ entry ∈ g.sessions, ¬Replay.Settled entry.state →
      entry.state.task = .acquiring := by
    intro entry hmem hnot
    obtain ⟨k, hentry⟩ := List.mem_iff_getElem?.mp hmem
    by_contra hacquiring
    obtain ⟨action, hback, hne, hs⟩ :=
      (hlive entry hmem).exists_next (R := entry.replay) (hok.inv entry hmem) hnot hacquiring
    have hsome := isSome_act hentry hne hs
    rw [h k action hback] at hsome
    exact absurd hsome (by simp)
  -- so nobody holds a permit
  have hfree : g.sessions.countP holds = 0 := by
    refine List.countP_eq_zero.mpr fun entry hmem => ?_
    by_cases hs : Replay.Settled entry.state
    · simp [holds, hs.1, BackgroundTask.holds]
    · simp [holds, hwaiting entry hmem hs, BackgroundTask.holds]
  have hpermits : g.permits = n := by
    have := hok.permits
    omega
  refine ⟨hpermits, fun entry hmem => ?_⟩
  by_contra hnot
  obtain ⟨k, hentry⟩ := List.mem_iff_getElem?.mp hmem
  have hsome := isSome_acquire hentry (hwaiting entry hmem hnot) (hpermits ▸ hn)
  rw [h k .acquire rfl] at hsome
  exact absurd hsome (by simp)

/-- **And where all have come to their end, nothing is left to be done.** -/
theorem idle_of_settled (h : ∀ entry ∈ g.sessions, Replay.Settled entry.state) : g.Idle := by
  intro k action hback
  rw [step]
  split
  · next entry hentry =>
    obtain ⟨htask, hthread⟩ := h entry (List.mem_of_getElem? hentry)
    have hnone : entry.replay.step entry.state action = none := by
      cases action with
      | client _ => exact absurd hback (by simp [ReplayAction.isBackground])
      | acquire | spawn _ | task | save _ | release =>
        simp [Replay.step, Replay.spawnStep, Replay.taskStep, htask]
      | evm seen => simp [Replay.step, Replay.evmStep, hthread]
    rw [hnone]
    cases permitsAfter g.permits action <;> rfl
  · rfl

end Service

/-- **Every replay comes to an end**, in every interleaving of any number of sessions and their
clients, as long as there is a permit at all. A session whose machine halts has only so much done
for it in the background; and where nothing is left to be done, every task is finished, every
thread is gone, every permit is back, and no session is loading but those whose thread could not be
spawned. -/
theorem every_replay_ends {σ : Type} {n : ℕ} (hn : 0 < n) {actions : List (ServiceAction σ)}
    {g : Service σ} (h : Runs.run Service.step (Service.init n) actions = some g) :
    (∀ (k : ℕ) (entry : ServiceEntry σ) (bound : ℕ), g.sessions[k]? = some entry →
        entry.replay.Halts bound →
        (actions.filterMap (ServiceAction.own k)).countP ReplayAction.isBackground ≤ bound + 13) ∧
      (g.Idle → g.permits = n ∧ ∀ (k : ℕ) (entry : ServiceEntry σ), g.sessions[k]? = some entry →
        Replay.Settled entry.state ∧
          (entry.state.world.session.data = .loading →
            .spawn false ∈ actions.filterMap (ServiceAction.own k))) := by
  have hown := (Service.run_own h).1
  refine ⟨fun k entry bound hentry hhalts => ?_, fun hidle => ?_⟩
  · obtain ⟨now, hrun⟩ := hown k entry hentry
    exact Replay.countP_isBackground_le hhalts hrun
  have hlive : ∀ entry ∈ g.sessions, Replay.Live entry.state := by
    intro entry hmem
    obtain ⟨k, hentry⟩ := List.mem_iff_getElem?.mp hmem
    obtain ⟨now, hrun⟩ := hown k entry hentry
    exact Replay.live_of_run hrun
  obtain ⟨hpermits, hsettled⟩ := hidle.settled hn (Service.ok_of_run h) hlive
  refine ⟨hpermits, fun k entry hentry => ?_⟩
  obtain ⟨now, hrun⟩ := hown k entry hentry
  have hs := hsettled entry (List.mem_of_getElem? hentry)
  refine ⟨hs, Replay.spawn_mem_of_loading hrun ?_⟩
  rw [hs.1]
  rfl

/-- A script comes to its end, and sooner if it is halted. -/
theorem haltsWithin_scriptReplay (hooks : List Hook) (result : Except String ExecutionResult) :
    ∀ rest n, rest.length ≤ n → (scriptReplay hooks result).HaltsWithin n rest
  | [], 0, _ => fun hook resume h => absurd h (by simp [scriptReplay])
  | [], _ + 1, _ => fun hook resume h => absurd h (by simp [scriptReplay])
  | _ :: rest, n + 1, hle => fun hook resume h halted => by
    obtain ⟨-, rfl⟩ := EvmEvent.hook.inj h
    cases halted with
    | true => exact haltsWithin_scriptReplay hooks result [] n (Nat.zero_le n)
    | false =>
      exact haltsWithin_scriptReplay hooks result rest n (Nat.le_of_succ_le_succ hle)

theorem halts_scriptReplay (hooks : List Hook) (result : Except String ExecutionResult) :
    (scriptReplay hooks result).Halts hooks.length := fun evm h => by
  obtain rfl := Except.ok.inj h
  exact haltsWithin_scriptReplay _ result _ _ le_rfl

/-- Two sessions and one permit: the thread of the second one cannot be spawned, and then the first
one has its turn. -/
def oneAfterTheOther : List (ServiceAction (List Hook)) :=
  [.create (scriptReplay twoSteps (.ok sampleStop)) 0,
    .create (scriptReplay twoSteps (.ok sampleStop)) 0, .act 1 .acquire, .act 1 (.spawn false),
    .act 1 .release, .act 0 .acquire, .act 0 (.spawn true)] ++
  List.replicate (twoSteps.length + 4) (.act 0 (.evm false)) ++
  [.act 0 .task, .act 0 .task, .act 0 .task, .act 0 .task, .act 0 (.save true), .act 0 .release]

/-- What is left of the two sessions. -/
def afterTheOther : Service (List Hook) :=
  (Runs.run Service.step (Service.init 1) oneAfterTheOther).get (by decide)

/-- Both have come to their end, after as many actions as can be counted; the one whose thread was
never spawned is still loading. -/
theorem ends_oneAfterTheOther :
    (oneAfterTheOther.filterMap (ServiceAction.own 0)).countP ReplayAction.isBackground ≤
        twoSteps.length + 13 ∧
      afterTheOther.permits = 1 ∧
      (∃ entry, afterTheOther.sessions[1]? = some entry ∧ Replay.Settled entry.state ∧
        entry.state.world.session.data = .loading ∧
        .spawn false ∈ oneAfterTheOther.filterMap (ServiceAction.own 1)) := by
  have hrun : Runs.run Service.step (Service.init 1) oneAfterTheOther = some afterTheOther :=
    (Option.some_get (by decide)).symm
  have hidle : afterTheOther.Idle := Service.idle_of_settled (by decide)
  obtain ⟨hcount, hends⟩ := every_replay_ends Nat.one_pos hrun
  obtain ⟨hpermits, hsessions⟩ := hends hidle
  have hfirst := Option.some_get (show (afterTheOther.sessions[0]?).isSome = true by decide)
  have hsecond := Option.some_get (show (afterTheOther.sessions[1]?).isSome = true by decide)
  obtain ⟨hsettled, hspawn⟩ := hsessions 1 _ hsecond.symm
  exact ⟨hcount 0 _ _ hfirst.symm (halts_scriptReplay twoSteps (.ok sampleStop)), hpermits, _,
    hsecond.symm, hsettled, by decide, hspawn (by decide)⟩

/-! ### A server without permits -/

/-- The number of permits: what the variable says, if it is set to a number, and two otherwise. -/
def evmConcurrency (env : Option String) : ℕ := (env.bind (Text.parseUnsigned (2 ^ 64 - 1))).getD 2

/-- The most permits a semaphore may have. -/
def maxPermits : ℕ := (2 ^ 64 - 1) >>> 3

namespace Service

variable {σ : Type} {g g' : Service σ}

/-- The server as `main` starts it; it does not start with more permits than there may be. -/
def start (env : Option String) : Option (Service σ) :=
  if evmConcurrency env ≤ maxPermits then some (init (evmConcurrency env)) else none

/-- Every session is waiting for its permit. -/
def Waiting (g : Service σ) : Prop :=
  g.permits = 0 ∧ ∀ entry ∈ g.sessions, entry.state.task = .acquiring ∧ entry.state.thread = .unborn

/-- **Without permits, sessions wait for ever**, for whatever else a session can do it needs to have
been given one. -/
theorem Waiting.next (h : g.Waiting) {action : ServiceAction σ} (hstep : g.step action = some g') :
    g'.Waiting := by
  obtain ⟨hpermits, hwaiting⟩ := h
  cases action with
  | create replay now =>
    obtain rfl := Option.some.inj hstep
    refine ⟨hpermits, fun entry hentry => ?_⟩
    rcases List.mem_append.mp hentry with hentry | hentry
    · exact hwaiting entry hentry
    · obtain rfl := List.mem_singleton.mp hentry
      exact ⟨rfl, rfl⟩
  | remove session =>
    obtain ⟨entry, hentry, rfl⟩ := remove_eq_some hstep
    refine ⟨hpermits, fun entry' hentry' => ?_⟩
    rcases List.mem_or_eq_of_mem_set hentry' with hentry' | rfl
    · exact hwaiting entry' hentry'
    · exact hwaiting entry (List.mem_of_getElem? hentry)
  | act session action =>
    obtain ⟨entry, permits, state, hentry, hafter, hstate, rfl⟩ := act_eq_some hstep
    obtain ⟨htask, hthread⟩ := hwaiting entry (List.mem_of_getElem? hentry)
    cases Replay.step_cases hstate with
    | client hc hw =>
      obtain rfl := Option.some.inj hafter
      refine ⟨hpermits, fun entry' hentry' => ?_⟩
      rcases List.mem_or_eq_of_mem_set hentry' with hentry' | rfl
      · exact hwaiting entry' hentry'
      · exact ⟨htask, hthread⟩
    | acquire =>
      rw [permitsAfter, if_neg (by omega)] at hafter
      exact absurd hafter (by simp)
    | spawn ht | spawnFailed ht | take ht | receive ht | publish ht | rereadSome ht
    | rereadNone ht | save ht | release ht => exact absurd (htask.symm.trans ht) (by simp)
    | exit ht | boot ht | hook ht | done ht | panic ht | send ht | close ht =>
      exact absurd (hthread.symm.trans ht) (by simp)

/-- With a permit, a session has its thread spawned. -/
theorem exists_starting (R : Replay σ) {n : ℕ} (hn : 0 < n) :
    ∃ (actions : List (ServiceAction σ)) (g : Service σ),
      Runs.run step (init n) actions = some g ∧
        ∃ entry ∈ g.sessions, entry.state.thread = .starting := by
  let started : ServiceEntry σ :=
    { replay := R
      state := { (Replay.init 0 : Replay.State σ) with thread := .starting, task := .taking }
      listed := true }
  refine ⟨[.create R 0, .act 0 .acquire, .act 0 (.spawn true)],
    { permits := n - 1, sessions := [started] }, ?_, started, List.mem_singleton.mpr rfl, rfl⟩
  simp [step, init, permitsAfter, hn, Replay.step, Replay.spawnStep, Replay.init, started]

end Service

/-- **A server replays nothing exactly if it has been told to**: it starts, but no session ever has
its thread spawned, whatever its clients do, if the variable is set to zero, and in no other
case. -/
theorem replays_nothing_iff {σ : Type} (R : Replay σ) (env : Option String) :
    (∃ g₀ : Service σ, Service.start env = some g₀ ∧ ∀ actions g,
        Runs.run Service.step g₀ actions = some g → ∀ entry ∈ g.sessions,
          entry.state.thread = .unborn) ↔
      env.bind (Text.parseUnsigned (2 ^ 64 - 1)) = some 0 := by
  constructor
  · rintro ⟨g₀, hstart, hall⟩
    rw [Service.start] at hstart
    split at hstart
    · obtain rfl := Option.some.inj hstart
      -- with a permit there would be a session that does not wait for ever
      have hzero : evmConcurrency env = 0 := by
        by_contra hne
        obtain ⟨actions, g, hrun, entry, hentry, hthread⟩ :=
          Service.exists_starting R (Nat.pos_of_ne_zero hne)
        exact absurd (hthread.symm.trans (hall actions g hrun entry hentry)) (by simp)
      rw [evmConcurrency] at hzero
      cases hparse : env.bind (Text.parseUnsigned (2 ^ 64 - 1)) with
      | none =>
        rw [hparse] at hzero
        exact absurd hzero (by decide)
      | some n =>
        rw [hparse] at hzero
        exact congrArg some hzero
    · exact absurd hstart (by simp)
  · intro henv
    have hzero : evmConcurrency env = 0 := by
      rw [evmConcurrency, henv]
      rfl
    refine ⟨Service.init 0, ?_, fun actions g hrun => ?_⟩
    · rw [Service.start, hzero, if_pos (Nat.zero_le _)]
    · have hwaiting : g.Waiting :=
        Runs.run_invariant (fun _ _ _ h hs => h.next hs)
          ⟨rfl, fun entry h => absurd h List.not_mem_nil⟩ hrun
      exact fun entry hentry => (hwaiting.2 entry hentry).2

end EvmDebugger
