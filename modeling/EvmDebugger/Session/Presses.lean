import EvmDebugger.Lib.Minima
import EvmDebugger.Session.Replies
import EvmDebugger.Session.StepOver

/-!
# Pressing a button again and again

What one press of `step_over` does is a matter of the numbers `call_depth` and of nothing else,
and they may be any. So may be the walk that many presses make through a trace: it goes by the
snapshots that are no deeper than all those passed since the start, the running minima of the
depth (`Minima.exists_visited`), and ends at the end of the trace.

And a press of `step_over` is nothing but presses of `step_into`: one, and then as many more as it
takes to be no deeper than before, or at the end. `EvmDebugger.stepOver_visits` has both, for the
session as a whole and for what it answers.
-/

namespace EvmDebugger

namespace SessionData

/-- The depths of a trace. -/
abbrev depths (snapshots : List StepSnapshot) : List ℕ := snapshots.map StepSnapshot.callDepth

/-- Where `step_over` goes from an index. -/
def overIndex (snapshots : List StepSnapshot) (i : ℕ) : ℕ :=
  match snapshots[i]? with
  | none => i
  | some s => skipDeeper s.callDepth (snapshots.drop (i + 1)) (i + 1)

/-- The session is no deeper than `target`, or at the end. -/
def Arrived (target : ℕ) : SessionData → Prop
  | ready snapshots i _ => ∀ s, snapshots[i]? = some s → s.callDepth ≤ target
  | _ => True

variable {snapshots : List StepSnapshot} {i : ℕ} {result : Option ExecutionResultInfo}

/-- A press of `step_over` goes there, and shows what is there. -/
theorem stepOver_ready :
    stepOver (ready snapshots i result) =
      (ready snapshots (overIndex snapshots i) result,
        stateAt snapshots (overIndex snapshots i) result) := by
  cases hs : snapshots[i]? with
  | none => simp only [stepOver, overIndex, hs]
  | some s => simp only [stepOver, overIndex, hs]

/-- At the end, `step_over` stays. -/
theorem overIndex_length : overIndex snapshots snapshots.length = snapshots.length := by
  rw [overIndex, List.getElem?_eq_none le_rfl]

/-- **`step_over` goes to the next snapshot that is no deeper**, or to the end. -/
theorem isNext_overIndex (hi : i < snapshots.length) :
    Minima.IsNext (depths snapshots) i (overIndex snapshots i) := by
  have hs := List.getElem?_eq_getElem hi
  obtain ⟨j, hj, hij, hle, hdeep, hstop⟩ := exists_stepOver hs none
  rw [stepOver_ready] at hj
  obtain ⟨-, rfl, -⟩ := ready.inj (congrArg Prod.fst hj)
  have hdepth : ∀ {k x : ℕ}, (depths snapshots)[k]? = some x →
      ∃ u : StepSnapshot, snapshots[k]? = some u ∧ u.callDepth = x := by
    intro k x hx
    rwa [depths, List.getElem?_map, Option.map_eq_some_iff] at hx
  refine ⟨hij, hle.trans_eq (List.length_map _).symm, ?_, ?_⟩
  · intro k x y hik hkj hx hy
    obtain ⟨s, hs', rfl⟩ := hdepth hx
    obtain ⟨u, hu, rfl⟩ := hdepth hy
    obtain rfl := Option.some.inj (hs.symm.trans hs')
    exact hdeep k u hik hkj hu
  · intro x y hx hy
    obtain ⟨s, hs', rfl⟩ := hdepth hx
    obtain ⟨u, hu, rfl⟩ := hdepth hy
    obtain rfl := Option.some.inj (hs.symm.trans hs')
    exact hstop u hu

end SessionData

namespace World

open SessionData

variable {w : World} {snapshots : List StepSnapshot} {i : ℕ} {result : Option ExecutionResultInfo}

@[simp] theorem setData_setData (w : World) (data data' : SessionData) :
    (w.setData data).setData data' = w.setData data' := rfl

@[simp] theorem data_setData (w : World) (data : SessionData) :
    (w.setData data).session.data = data := rfl

theorem setData_data (h : w.session.data = .ready snapshots i result) :
    w.setData (.ready snapshots i result) = w := by
  rw [← h]
  rfl

/-- **Pressing `step_over` again and again** iterates the choice of the next index. -/
theorem run_stepOver (h : w.session.data = .ready snapshots i result) (n : ℕ) :
    Runs.run step w (List.replicate n .stepOver) =
      some (w.setData (.ready snapshots ((overIndex snapshots)^[n] i) result)) := by
  induction n generalizing w i with
  | zero => exact congrArg some (setData_data h).symm
  | succ n ih =>
    have hstep : w.step .stepOver =
        some (w.setData (.ready snapshots (overIndex snapshots i) result)) := by
      show some (w.setData w.session.data.stepOver.1) = _
      rw [h, stepOver_ready]
    rw [List.replicate_succ, Runs.run_cons, hstep, Option.bind_some, ih rfl,
      Function.iterate_succ_apply, setData_setData]

/-- **Pressing `step_into` again and again** goes one on with every press, up to the end. -/
theorem run_stepInto (h : w.session.data = .ready snapshots i result) {n : ℕ}
    (hn : i + n ≤ snapshots.length) :
    Runs.run step w (List.replicate n .stepInto) =
      some (w.setData (.ready snapshots (i + n) result)) := by
  induction n generalizing w i with
  | zero => exact congrArg some (setData_data h).symm
  | succ n ih =>
    have hstep : w.step .stepInto = some (w.setData (.ready snapshots (i + 1) result)) := by
      show some (w.setData w.session.data.stepInto.1) = _
      rw [h, stepInto, Nat.min_eq_left (by omega)]
    rw [List.replicate_succ, Runs.run_cons, hstep, Option.bind_some, ih rfl (by omega),
      setData_setData, Nat.add_right_comm]
    rfl

/-- The answer to the last of these presses is the state it leads to. -/
theorem getLast?_answers_stepInto (h : w.session.data = .ready snapshots i result) {n : ℕ}
    (hn : i + (n + 1) ≤ snapshots.length) :
    (Runs.answers step reply w (List.replicate (n + 1) .stepInto)).getLast? =
      some (some (.state (stateAt snapshots (i + (n + 1)) result))) := by
  have hrun := run_stepInto h (n := n) (by omega)
  rw [List.replicate_succ', Runs.answers_append hrun, List.getLast?_append]
  show some (some (Reply.state (stateAt snapshots (min (i + n + 1) snapshots.length) result))) = _
  rw [Nat.min_eq_left (by omega), Nat.add_assoc]

end World

/-- **Where stepping over goes.** From any snapshot of any trace, pressing `step_over` repeatedly
visits the running minima of the depth, in order, and then the end, which it reaches after as many
presses as there are snapshots left, at most. And a single press leaves the session as so many
presses of `step_into` do, one or more, and is answered as the last of them is: as many as it
takes to arrive at a snapshot that is no deeper, or at the end. -/
theorem stepOver_visits {w : World} {snapshots : List StepSnapshot} {i : ℕ}
    {result : Option ExecutionResultInfo} (hready : w.session.data = .ready snapshots i result)
    (hi : i < snapshots.length) :
    (∃ visited : List ℕ, visited.Pairwise (· < ·) ∧
        (∀ j, j ∈ visited ↔ Minima.IsMin (SessionData.depths snapshots) i j) ∧
        visited.length ≤ snapshots.length - i ∧
        ∀ n, Runs.run World.step w (List.replicate n .stepOver) =
          some (w.setData (.ready snapshots (visited[n]?.getD snapshots.length) result))) ∧
      ∃ m w', 0 < m ∧ w.step .stepOver = some w' ∧
        Runs.run World.step w (List.replicate m .stepInto) = some w' ∧
        (Runs.answers World.step World.reply w (List.replicate m .stepInto)).getLast? =
          some (w.reply .stepOver) ∧
        ∀ k w'', 0 < k → k ≤ m →
          Runs.run World.step w (List.replicate k .stepInto) = some w'' →
          (w''.session.data.Arrived snapshots[i].callDepth ↔ k = m) := by
  have hlength : (SessionData.depths snapshots).length = snapshots.length := List.length_map _
  constructor
  · have hnext : ∀ j, j < (SessionData.depths snapshots).length →
        Minima.IsNext (SessionData.depths snapshots) j (SessionData.overIndex snapshots j) :=
      fun j hj => SessionData.isNext_overIndex (hlength ▸ hj)
    have hend : SessionData.overIndex snapshots (SessionData.depths snapshots).length =
        (SessionData.depths snapshots).length := by
      rw [hlength, SessionData.overIndex_length]
    obtain ⟨visited, hsorted, hmem, hlen, hiter⟩ :=
      Minima.exists_visited hnext hend (hi.le.trans_eq hlength.symm)
    rw [hlength] at hlen hiter
    exact ⟨visited, hsorted, hmem, hlen, fun n => by rw [World.run_stepOver hready, hiter]⟩
  · obtain ⟨j, hj, hij, hle, hdeep, hstop⟩ :=
      SessionData.exists_stepOver (List.getElem?_eq_getElem hi) result
    obtain ⟨m, rfl⟩ : ∃ m, j = i + (m + 1) := ⟨j - i - 1, by omega⟩
    refine ⟨m + 1, w.setData (.ready snapshots (i + (m + 1)) result), Nat.succ_pos m, ?_,
      World.run_stepInto hready hle, ?_, ?_⟩
    · show some (w.setData w.session.data.stepOver.1) = _
      rw [hready, hj]
    · rw [World.getLast?_answers_stepInto hready hle, World.reply, hready, hj]
    · intro k w'' hpos hk hrun
      rw [World.run_stepInto hready (by omega), Option.some.injEq] at hrun
      subst hrun
      rw [World.data_setData]
      constructor
      · intro harrived
        by_contra hne
        -- on the way everything is deeper
        have hlt : i + k < snapshots.length := by omega
        have hu := List.getElem?_eq_getElem hlt
        have hdeeper := hdeep (i + k) _ (by omega) (by omega) hu
        exact absurd (harrived _ hu) (not_le.mpr hdeeper)
      · rintro rfl
        exact hstop

/-- Stepping over through the sample, whose depths are 1, 2, 2 and 1: one press passes over the
inner call. -/
theorem stepOver_visits_nestedCall :
    (∃ visited : List ℕ,
        (∀ j, j ∈ visited ↔
          Minima.IsMin (SessionData.depths (traceOf sampleOpCode none nestedCall)) 0 j) ∧
        visited.length ≤ 4) ∧
      ∃ m w', Runs.run World.step (.fromCache (traceOf sampleOpCode none nestedCall) none 0)
          (List.replicate m .stepInto) = some w' ∧
        World.step (.fromCache (traceOf sampleOpCode none nestedCall) none 0) .stepOver =
          some w' := by
  have hlen : (traceOf sampleOpCode none nestedCall).length = 4 := by decide
  obtain ⟨⟨visited, -, hmem, hle, -⟩, m, w', -, hover, hinto, -⟩ :=
    stepOver_visits (w := .fromCache (traceOf sampleOpCode none nestedCall) none 0) rfl
      (hlen ▸ Nat.succ_pos 3)
  exact ⟨⟨visited, hmem, hle.trans_eq hlen⟩, m, w', hinto, hover⟩

end EvmDebugger
