import EvmDebugger.Session.Replies

/-!
# What the waiter is told

`wait_for_snapshots` stores what it has received, and then answers with a state that it works out
on its own, without looking at what it has stored. Everybody else works out the state from what is
stored. `EvmDebugger.announced_iff` says when the two come to the same: always, but for a message
that has neither a snapshot nor a result.

That one is announced as an error, “Execution produced no steps”. What is stored is an empty trace
without a result, and past the end of such a trace the state is `Aborted`. A message that is an
error itself, in the next branch, is stored as the error that is announced. The executor sends no
such message; it takes care to send an error instead.
-/

namespace EvmDebugger

namespace SessionData

/-- Only an error is shown as one. -/
theorem currentStateLocked_eq_error {data : SessionData} {message : String} :
    data.currentStateLocked = .error message ↔ data = error message := by
  constructor
  · intro h
    cases data with
    | loading => exact absurd h (by simp [currentStateLocked])
    | ready snapshots i result =>
      rw [currentStateLocked, stateAt.eq_def] at h
      split at h
      · exact absurd h (by simp)
      · cases result <;> exact absurd h (by simp)
    | aborted => exact absurd h (by simp [currentStateLocked])
    | error message' => exact congrArg error (SessionState.error.inj h)
  · rintro rfl
    rfl

/-- **What is announced is what is stored**, if there is a snapshot or a result in it. -/
theorem publish_snd (msg : ChannelMessage) (data : SessionData)
    (h : data = aborted ∨ msg ≠ .allSnapshots [] none) :
    (publish msg data).2 = (publish msg data).1.currentStateLocked := by
  rcases msg with ⟨_ | ⟨first, rest⟩, _ | result⟩ | message
  · obtain rfl := h.resolve_right fun hne => hne rfl
    rfl
  all_goals cases data <;> rfl

/-- The exception: an error is announced, and an abort is stored. -/
theorem publish_empty {data : SessionData} (ha : data ≠ aborted) :
    publish (.allSnapshots [] none) data =
      (ready [] 0 none, .error "Execution produced no steps") := by
  cases data <;> first | rfl | exact absurd rfl ha

end SessionData

namespace World

variable {w w' : World}

/-- **Errors stay.** No action replaces an error, unless it aborts the session. -/
theorem Ok.error_of_step {o : Origin} (h : Ok o w) {action : Action}
    (hs : w.step action = some w') (hne : action ≠ .abortWrite) {message : String}
    (hdata : w.session.data = .error message) : w'.session.data = .error message := by
  have hstay : w'.session.data = .aborted ∨ w'.session.data = .error message := by
    have hmoves := h.moves hs
    rw [hdata] at hmoves
    exact hmoves.elim id fun hloading => absurd hloading.1 (by simp)
  refine hstay.resolve_left fun haborted => ?_
  cases action with
  | waitTake =>
    rw [World.step] at hs
    split at hs <;> obtain rfl := Option.some.inj hs <;> exact absurd (hdata.symm.trans haborted)
      (by simp)
  | waitRecv caller =>
    obtain ⟨-, got, -, rfl⟩ := waitRecv_eq_some hs
    exact absurd (hdata.symm.trans haborted) (by simp)
  | waitPublish caller =>
    obtain ⟨msg, hx, -⟩ := waitPublish_eq_some hs
    -- whoever publishes finds no error
    rcases (h.waiter hx).2.2.2.2.1 with hw | hw <;> exact absurd (hdata.symm.trans hw) (by simp)
  | send msg =>
    obtain ⟨-, -, rfl⟩ := send_eq_some hs
    exact absurd (hdata.symm.trans haborted) (by simp)
  | disconnect =>
    obtain ⟨-, rfl⟩ := disconnect_eq_some hs
    exact absurd (hdata.symm.trans haborted) (by simp)
  | abortWrite => exact hne rfl
  | _ =>
    obtain rfl := Option.some.inj hs
    simp [setData, hdata, SessionData.stepInto, SessionData.stepOver,
      SessionData.continueExec] at haborted

/-- **What the waiter is told is what everybody is told.** The state that a publication announces
is the current state right after it; and if it is an error, it is the current state for as long as
nobody aborts the session. -/
structure Announces (w : World) (caller : ℕ) (w' : World) : Prop where
  agrees : w.reply (.waitPublish caller) = w'.reply .currentState
  stays : ∀ message, w.reply (.waitPublish caller) = some (.state (.error message)) →
    ∀ more w'', Runs.run step w' more = some w'' → Action.abortWrite ∉ more →
      w''.reply .currentState = some (.state (.error message))

/-- The waiter has received a message without a snapshot and without a result, and the session has
not been aborted. -/
def ReceivedNothing (w : World) (caller : ℕ) : Prop :=
  w.waiters[caller]? = some (.received (.allSnapshots [] none)) ∧ w.session.data ≠ .aborted

/-- An error that is the current state stays it, in every run without an abort. -/
theorem Ok.error_of_run {o : Origin} (h : Ok o w) {message : String}
    (hdata : w.session.data = .error message) {more : List Action}
    (hrun : Runs.run World.step w more = some w') (hno : Action.abortWrite ∉ more) :
    w'.session.data = .error message := by
  refine (Runs.run_induction
    (motive := fun as s => Ok o s ∧ (Action.abortWrite ∉ as → s.session.data = .error message))
    ⟨h, fun _ => hdata⟩ ?_ hrun).2 hno
  rintro as action s t - ⟨hok, hs⟩ hstep
  refine ⟨hok.step hstep, fun hno => ?_⟩
  rw [List.mem_append, List.mem_singleton, not_or] at hno
  exact hok.error_of_step hstep (Ne.symm hno.2) (hs hno.1)

end World

/-- **When the waiter is told the truth.** In every run of a new session, whoever publishes what it
has received announces what everybody is told from then on, exactly if what it has received has a
snapshot or a result in it or is an error, or the session has been aborted. -/
theorem announced_iff (now : ℕ) {actions : List Action} {w w' : World} {caller : ℕ}
    (h : Runs.run World.step (Origin.new.world now) actions = some w)
    (hs : w.step (.waitPublish caller) = some w') :
    w.Announces caller w' ↔ ¬w.ReceivedNothing caller := by
  have hok' : World.Ok .new w' := (World.ok_of_run h).step hs
  obtain ⟨msg, hx, rfl⟩ := World.waitPublish_eq_some hs
  have hreply : w.reply (.waitPublish caller) = some (.state (w.session.data.publish msg).2) := by
    rw [World.reply, hx]
  constructor
  · rintro hannounces ⟨hnothing, hna⟩
    obtain rfl := Waiter.received.inj (Option.some.inj (hx.symm.trans hnothing))
    have hagrees := hannounces.agrees
    rw [hreply, World.reply, SessionData.publish_empty hna] at hagrees
    exact absurd hagrees (by simp [World.setData, SessionData.currentStateLocked,
      SessionData.stateAt])
  · intro hnot
    have hsnd : (w.session.data.publish msg).2 =
        (w.session.data.publish msg).1.currentStateLocked := by
      refine SessionData.publish_snd msg _ ?_
      by_contra hboth
      push Not at hboth
      exact hnot ⟨hboth.2 ▸ hx, hboth.1⟩
    refine ⟨by rw [hreply, hsnd]; rfl, fun message hmessage more w'' hrun hno => ?_⟩
    rw [hreply, hsnd, Option.some.injEq, Reply.state.injEq] at hmessage
    have hdata := SessionData.currentStateLocked_eq_error.mp hmessage
    rw [World.reply, hok'.error_of_run hdata hrun hno]
    rfl

/-- A thread that is gone without a message, and a session that waits for one. -/
def disconnectedRun : List Action := [.disconnect, .waitTake, .waitRecv 0]

/-- The waiter is told that the thread is gone, and so is everybody else. -/
theorem announces_disconnectedRun :
    ∃ w w', Runs.run World.step (Origin.new.world 0) disconnectedRun = some w ∧
      w.step (.waitPublish 0) = some w' ∧ w.Announces 0 w' ∧
      w'.reply .currentState = some (.state (.error "EVM thread disconnected")) := by
  have hrun : Runs.run World.step (Origin.new.world 0) disconnectedRun = some _ := rfl
  refine ⟨_, _, hrun, rfl, (announced_iff 0 hrun rfl).mpr fun hnothing => ?_, rfl⟩
  exact absurd (Option.some.inj hnothing.1) (by simp [messageOf])

/-- A message without a snapshot and without a result. -/
def nothingRun : List Action := [.send (.allSnapshots [] none), .waitTake, .waitRecv 0]

/-- **The waiter is told of an error, and everybody else of an abort.** -/
theorem not_announces_nothingRun :
    ¬∀ w w', Runs.run World.step (Origin.new.world 0) nothingRun = some w →
      w.step (.waitPublish 0) = some w' → w.Announces 0 w' := by
  intro h
  have hagrees : some (Reply.state (.error "Execution produced no steps")) =
    some (Reply.state .aborted) := (h _ _ rfl rfl).agrees
  exact absurd hagrees (by simp)

end EvmDebugger
