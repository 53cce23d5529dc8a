import EvmDebugger.Session.Replies
import Mathlib.Data.List.ReduceOption

/-!
# Sessions as their clients know them

A client knows a session by what it answers. A command is one atomic action, or two in the case
of `abort`; when nobody else is at work, a list of commands is the run of their actions, and what
the client gets to see is the list of answers along it (`EvmDebugger.World.responses`).

The answers depend on the data and on nothing else: not on the channel, not on the flag, and not
on who is waiting (`EvmDebugger.World.responses_eq`). So two sessions with the same data cannot be
told apart.
-/

namespace EvmDebugger

/-- The commands of a client. -/
inductive Command where
  | stepInto
  | stepOver
  | continueExec
  | currentState
  | getTraceSteps
  | abort
  deriving DecidableEq

/-- The actions of a command, in order. -/
def Command.actions : Command → List Action
  | stepInto => [.stepInto]
  | stepOver => [.stepOver]
  | continueExec => [.continueExec]
  | currentState => [.currentState]
  | getTraceSteps => [.getTraceSteps]
  | abort => [.abortStore, .abortWrite]

namespace SessionData

/-- What a command makes of the data, and what it answers. -/
def serve (data : SessionData) : Command → SessionData × Reply
  | .stepInto => (data.stepInto.1, .state data.stepInto.2)
  | .stepOver => (data.stepOver.1, .state data.stepOver.2)
  | .continueExec => (data.continueExec.1, .state data.continueExec.2)
  | .currentState => (data, .state data.currentStateLocked)
  | .getTraceSteps => (data, .trace data.getTraceSteps)
  | .abort => (data.abort, .done)

/-- The answers to a list of commands. -/
def serveAll : SessionData → List Command → List Reply
  | _, [] => []
  | data, c :: cs => (data.serve c).2 :: (data.serve c).1.serveAll cs

end SessionData

namespace World

/-- **What a client gets to see** of a list of commands, one after the other. -/
def responses (w : World) (cs : List Command) : List Reply :=
  (Runs.answers step reply w (cs.flatMap Command.actions)).reduceOption

/-- One command: its actions are enabled, and make of the data what the command makes of it. -/
theorem run_command (w : World) (c : Command) :
    ∃ w', Runs.run step w c.actions = some w' ∧
      w'.session.data = (w.session.data.serve c).1 ∧
      (Runs.answers step reply w c.actions).reduceOption = [(w.session.data.serve c).2] := by
  cases c with
  | abort =>
    let w₁ : World :=
      { w with
        session := { w.session with abortFlag := true }
        aborting := w.aborting + 1 }
    have hstore : w.step .abortStore = some w₁ := rfl
    let w₂ : World := { w₁.setData w₁.session.data.abort with aborting := w₁.aborting - 1 }
    have hwrite : w₁.step .abortWrite = some w₂ := by
      rw [step_eq_command rfl, command, if_pos (Nat.succ_pos w.aborting)]
    refine ⟨w₂, ?_, rfl, ?_⟩
    · show Runs.run step w ([.abortStore] ++ [.abortWrite]) = some w₂
      exact Runs.run_snoc_eq_some.mpr ⟨w₁, hstore, hwrite⟩
    · rw [Command.actions, Runs.answers_cons hstore, Runs.answers_cons hwrite]
      rfl
  | _ => exact ⟨_, rfl, rfl, rfl⟩

/-- **The data decide.** Any list of commands can be given, and what is answered depends on the
data of the session alone. -/
theorem responses_eq (w : World) (cs : List Command) :
    (∃ w', Runs.run step w (cs.flatMap Command.actions) = some w') ∧
      w.responses cs = w.session.data.serveAll cs := by
  induction cs generalizing w with
  | nil => exact ⟨⟨w, rfl⟩, rfl⟩
  | cons c cs ih =>
    obtain ⟨w₁, hrun, hdata, hanswers⟩ := w.run_command c
    obtain ⟨⟨w₂, hrest⟩, hreplies⟩ := ih w₁
    refine ⟨⟨w₂, Runs.run_trans hrun hrest⟩, ?_⟩
    rw [responses, List.flatMap_cons, Runs.answers_append hrun, List.reduceOption_append, hanswers]
    show [_] ++ w₁.responses cs = _
    rw [hreplies, hdata]
    rfl

end World

end EvmDebugger
