import EvmDebugger.Inspector.Trace
import EvmDebugger.Lib.CallStacks

/-!
# Frames, depths and the history of an execution

The call stack of a snapshot is rebuilt from four hooks, and its depth comes from a counter
the virtual machine keeps on its own. This file shows that the two agree with each other and
with the frames really open (`EvmDebugger.callStack_shows_openFrames`), and that the steps an
inspector records form a history of call stacks in the sense of `CallStacks.IsHistory`
(`EvmDebugger.Execution.isHistory_history`) – the fact that lets a debugger step over a call
by comparing depths.

Both rest on the numbering of the frames. A frame gets the next number when it is opened, so
the numbers grow inwards and are never used again (`EvmDebugger.Execution.Ids`).
-/

namespace EvmDebugger

namespace Execution

/-! ### The numbers of the frames -/

/-- The numbers of a list of frames. -/
abbrev stackOf (fs : List Frame) : List ℕ := fs.map Frame.id

/-- **The invariant of the numbering**: numbers grow inwards, all are below the next one, and
a number stands for one frame with one interpreter throughout the history. -/
structure Ids (e : Execution) : Prop where
  sorted : (stackOf e.frames).Pairwise (· > ·)
  lt_opened : ∀ f ∈ e.frames, f.id < e.opened
  steps_sorted : ∀ st ∈ e.steps, (stackOf st.frames).Pairwise (· > ·)
  steps_lt_opened : ∀ st ∈ e.steps, ∀ f ∈ st.frames, f.id < e.opened
  open_eq : ∀ st ∈ e.steps, ∀ f fs, st.frames = f :: fs → ∀ g ∈ e.frames, g.id = f.id → g = f
  head_eq : ∀ st ∈ e.steps, ∀ st' ∈ e.steps, ∀ f fs f' fs', st.frames = f :: fs →
    st'.frames = f' :: fs' → f.id = f'.id → f = f'

variable {e e' : Execution}

theorem ids_start : Ids start where
  sorted := List.Pairwise.nil
  lt_opened _ hf := absurd hf List.not_mem_nil
  steps_sorted _ hst := absurd hst List.not_mem_nil
  steps_lt_opened _ hst := absurd hst List.not_mem_nil
  open_eq _ hst := absurd hst List.not_mem_nil
  head_eq _ hst := absurd hst List.not_mem_nil

theorem Ids.enter {input : FrameInput} {depth : ℕ} (hi : Ids e)
    (h : e.enter input depth = some e') : Ids e' := by
  obtain ⟨-, -, rfl⟩ := enter_eq_some h
  refine ⟨?_, ?_, hi.steps_sorted, ?_, ?_, hi.head_eq⟩
  · refine List.pairwise_cons.mpr ⟨fun n hn => ?_, hi.sorted⟩
    obtain ⟨f, hf, rfl⟩ := List.mem_map.mp hn
    exact hi.lt_opened f hf
  · intro f hf
    rcases List.mem_cons.mp hf with rfl | hf
    · exact Nat.lt_succ_self _
    · exact Nat.lt_succ_of_lt (hi.lt_opened f hf)
  · exact fun st hst f hf => Nat.lt_succ_of_lt (hi.steps_lt_opened st hst f hf)
  · intro st hst f fs hfs g hg hgf
    rcases List.mem_cons.mp hg with rfl | hg
    · -- the new frame has a number no step has seen
      have hlt := hi.steps_lt_opened st hst f (hfs ▸ List.mem_cons_self)
      exact absurd hgf (Nat.ne_of_gt hlt)
    · exact hi.open_eq st hst f fs hfs g hg hgf

theorem Ids.leave {input : FrameInput} (hi : Ids e) (h : e.leave input = some e') : Ids e' := by
  obtain ⟨f, fs, hfs, -, rfl⟩ := leave_eq_some h
  have hsub : ∀ g ∈ fs, g ∈ e.frames := fun g hg => hfs ▸ List.mem_cons_of_mem f hg
  refine ⟨?_, fun g hg => hi.lt_opened g (hsub g hg), hi.steps_sorted, hi.steps_lt_opened,
    fun st hst f' fs' hfs' g hg => hi.open_eq st hst f' fs' hfs' g (hsub g hg), hi.head_eq⟩
  have hsorted := hi.sorted
  rw [hfs] at hsorted
  exact (List.pairwise_cons.mp hsorted).2

theorem Ids.begin {interp : Interpreter} (hok : Ok e) (hi : Ids e)
    (h : e.begin interp = some e') : Ids e' := by
  obtain ⟨f, fs, hfs, hnone, -, rfl⟩ := begin_eq_some h
  refine ⟨?_, ?_, hi.steps_sorted, hi.steps_lt_opened, ?_, hi.head_eq⟩
  · have hsorted := hi.sorted
    rw [hfs] at hsorted
    exact hsorted
  · intro g hg
    rcases List.mem_cons.mp hg with rfl | hg
    · exact hi.lt_opened f (hfs ▸ List.mem_cons_self)
    · exact hi.lt_opened g (hfs ▸ List.mem_cons_of_mem f hg)
  · intro st hst f' fs' hfs' g hg hgf
    rcases List.mem_cons.mp hg with rfl | hg
    · -- a frame that is about to begin has executed no step
      have hff : f = f' := hi.open_eq st hst f' fs' hfs' f (hfs ▸ List.mem_cons_self) hgf
      obtain ⟨f'', fs'', hfs'', hrun, -⟩ := hok.steps st hst
      obtain ⟨rfl, -⟩ := List.cons.inj (hfs''.symm.trans hfs')
      rw [← hff, hnone] at hrun
      exact absurd hrun (by simp)
    · exact hi.open_eq st hst f' fs' hfs' g (hfs ▸ List.mem_cons_of_mem f hg) hgf

/-- In a list of frames sorted by number, a number names one frame. -/
theorem eq_of_id_eq {fs : List Frame} (hs : (stackOf fs).Pairwise (· > ·)) {f g : Frame}
    (hf : f ∈ fs) (hg : g ∈ fs) (h : f.id = g.id) : f = g := by
  have hnodup : (fs.map Frame.id).Nodup := hs.imp fun hlt => Nat.ne_of_gt hlt
  exact List.inj_on_of_nodup_map hnodup hf hg h

/-- The frame that executes a step is open. -/
theorem mem_of_stepOf {interp : Interpreter} {seen : Bool} {f : Frame} {fs : List Frame}
    (h : (e.stepOf interp seen).frames = f :: fs) : f ∈ e.frames := by
  have h' : e.frames = f :: fs := h
  rw [h']
  exact List.mem_cons_self

theorem Ids.advance {interp : Interpreter} {depth : ℕ} {seen : Bool} (hi : Ids e)
    (h : e.advance interp depth seen = some e') : Ids e' := by
  obtain ⟨f, fs, hfs, -, -, rfl⟩ := advance_eq_some h
  have hmem : f ∈ e.frames := hfs ▸ List.mem_cons_self
  refine ⟨hi.sorted, hi.lt_opened, ?_, ?_, ?_, ?_⟩
  · intro st hst
    rcases List.mem_append.mp hst with hst | hst
    · exact hi.steps_sorted st hst
    · obtain rfl := List.mem_singleton.mp hst
      exact hi.sorted
  · intro st hst
    rcases List.mem_append.mp hst with hst | hst
    · exact hi.steps_lt_opened st hst
    · obtain rfl := List.mem_singleton.mp hst
      exact hi.lt_opened
  · intro st hst f' fs' hfs' g hg hgf
    rcases List.mem_append.mp hst with hst | hst
    · exact hi.open_eq st hst f' fs' hfs' g hg hgf
    · obtain rfl := List.mem_singleton.mp hst
      exact eq_of_id_eq hi.sorted hg (mem_of_stepOf hfs') hgf
  · intro st hst st' hst' f₁ fs₁ f₂ fs₂ h₁ h₂ hid
    rcases List.mem_append.mp hst with hst | hst <;> rcases List.mem_append.mp hst' with hst' | hst'
    · exact hi.head_eq st hst st' hst' f₁ fs₁ f₂ fs₂ h₁ h₂ hid
    · -- an earlier step and the new one, whose frame is open
      obtain rfl := List.mem_singleton.mp hst'
      exact (hi.open_eq st hst f₁ fs₁ h₁ f₂ (mem_of_stepOf h₂) hid.symm).symm
    · obtain rfl := List.mem_singleton.mp hst
      exact hi.open_eq st' hst' f₂ fs₂ h₂ f₁ (mem_of_stepOf h₁) hid
    · obtain rfl := List.mem_singleton.mp hst
      obtain rfl := List.mem_singleton.mp hst'
      exact (List.cons.inj (h₁.symm.trans h₂)).1

theorem ids_next {ev : Hook × Bool} (hok : Ok e) (hi : Ids e) (h : e.next ev = some e') :
    Ids e' := by
  rcases next_cases h with ⟨input, depth, h⟩ | ⟨input, h⟩ | ⟨interp, h⟩ | ⟨interp, depth, h⟩ | h
  · exact hi.enter h
  · exact hi.leave h
  · exact hi.begin hok h
  · exact hi.advance h
  · obtain ⟨f, fs, -, -, rfl⟩ := emit_eq_some h
    exact ⟨hi.sorted, hi.lt_opened, hi.steps_sorted, hi.steps_lt_opened, hi.open_eq, hi.head_eq⟩

/-- **Every well-nested list of hooks keeps the numbering.** -/
theorem ids_of_run {events : List (Hook × Bool)} (h : run events = some e) : Ids e :=
  (Runs.run_invariant (motive := fun e => Ok e ∧ Ids e)
    (fun _ _ _ he hs => ⟨ok_next he.1 hs, ids_next he.1 he.2 hs⟩) ⟨ok_start, ids_start⟩ h).2

/-! ### The recorded steps are a history of call stacks -/

/-- The call stacks of the recorded steps, by frame number, innermost first. -/
def history (e : Execution) : List (List ℕ) := e.recorded.map fun st => stackOf st.frames

/-- **The abort flag is never cleared**: a step that finds it set is followed by no step that
finds it clear. That is so in every replay, for all that is ever stored into the flag is
`true`. -/
def Latched (e : Execution) : Prop := e.steps.Pairwise fun a b => a.seen = true → b.seen = true

instance (e : Execution) : Decidable e.Latched :=
  inferInstanceAs (Decidable (e.steps.Pairwise _))

/-- No step has found the abort flag set. -/
def Clean (e : Execution) : Prop := ∀ st ∈ e.steps, st.seen = false

/-- **What the recorded steps know about the open frames.** As long as nothing has been
dropped from the record, the open frames are a move away from those of the last step, and
they are those of the last step when an instruction has just been announced. -/
structure Recent (e : Execution) : Prop where
  history : CallStacks.IsHistory e.history
  extends' : e.Clean → CallStacks.Extends e.history (stackOf e.frames)
  last : e.Clean → e.afterStep = true → e.history.getLast? = some (stackOf e.frames)

theorem recent_start : Recent start where
  history := CallStacks.isHistory_nil
  extends' _ s hs := by simp [Execution.history, recorded, start] at hs
  last _ h := absurd h (by simp [start])

theorem Recent.enter {input : FrameInput} {depth : ℕ} (hok : Ok e) (hi : Ids e) (hr : Recent e)
    (h : e.enter input depth = some e') : Recent e' := by
  obtain ⟨-, hwhen, rfl⟩ := enter_eq_some h
  refine ⟨hr.history, fun hclean s hs => ?_, fun _ h => absurd h (by simp)⟩
  rcases hwhen with hzero | hafter
  · -- the first frame of the transaction: nothing has been executed yet
    obtain ⟨st, hst, -⟩ : ∃ st ∈ e.recorded, stackOf st.frames = s :=
      List.mem_map.mp (List.mem_of_getLast? hs)
    have hst' := List.mem_of_mem_filter hst
    obtain ⟨f, fs, hfs, -⟩ := hok.steps st hst'
    have hlt := hi.steps_lt_opened st hst' f (hfs ▸ List.mem_cons_self)
    rw [hzero] at hlt
    exact absurd hlt (Nat.not_lt_zero _)
  · -- a frame opened by the step just announced
    obtain rfl : stackOf e.frames = s := Option.some.inj ((hr.last hclean hafter).symm.trans hs)
    refine Or.inr ⟨e.opened, rfl, fun u hu hmem => ?_⟩
    obtain ⟨st, hst, rfl⟩ := List.mem_map.mp hu
    obtain ⟨f, hf, hid⟩ := List.mem_map.mp hmem
    have hlt := hi.steps_lt_opened st (List.mem_of_mem_filter hst) f hf
    exact absurd hid (Nat.ne_of_lt hlt)

theorem Recent.leave {input : FrameInput} (hr : Recent e) (h : e.leave input = some e') :
    Recent e' := by
  obtain ⟨f, fs, hfs, -, rfl⟩ := leave_eq_some h
  refine ⟨hr.history, fun hclean s hs => ?_, fun _ h => absurd h (by simp)⟩
  have hext := hr.extends' hclean s hs
  rw [hfs] at hext
  rcases hext with hret | ⟨g, hg, -⟩
  · exact Or.inl ((List.suffix_cons _ _).trans hret)
  · exact Or.inl ((List.cons.inj hg).2 ▸ List.suffix_rfl)

theorem Recent.begin {interp : Interpreter} (hr : Recent e) (h : e.begin interp = some e') :
    Recent e' := by
  obtain ⟨f, fs, hfs, -, -, rfl⟩ := begin_eq_some h
  refine ⟨hr.history, fun hclean s hs => ?_, fun _ h => absurd h (by simp)⟩
  have hext := hr.extends' hclean s hs
  rw [hfs] at hext
  exact hext

theorem Recent.advance {interp : Interpreter} {depth : ℕ} {seen : Bool} (hi : Ids e)
    (hr : Recent e) (hlatched : e'.Latched) (h : e.advance interp depth seen = some e') :
    Recent e' := by
  obtain ⟨f, fs, hfs, -, -, rfl⟩ := advance_eq_some h
  cases seen with
  | true =>
    -- nothing is recorded, now or later
    have hsame : Execution.history
        { e with afterStep := true, steps := e.steps ++ [e.stepOf interp true] } = e.history :=
      congrArg (List.map _) (e.recorded_of_seen interp true)
    have hdirty : ¬Execution.Clean
        { e with afterStep := true, steps := e.steps ++ [e.stepOf interp true] } := fun hclean =>
      absurd (hclean (e.stepOf interp true) (List.mem_append_right _ List.mem_cons_self))
        (by simp [stepOf])
    exact ⟨hsame ▸ hr.history, fun hclean => absurd hclean hdirty,
      fun hclean => absurd hclean hdirty⟩
  | false =>
    have hclean : e.Clean := by
      intro st hst
      have hpair := (List.pairwise_append.mp hlatched).2.2 st hst _ List.mem_cons_self
      cases hs : st.seen with
      | false => rfl
      | true => exact absurd (hpair hs) (by simp [stepOf])
    have hgrow : Execution.history
        { e with afterStep := true, steps := e.steps ++ [e.stepOf interp false] }
        = e.history ++ [stackOf e.frames] := by
      rw [Execution.history, e.recorded_of_clear interp true, List.map_append]
      rfl
    have hnodup : (stackOf e.frames).Nodup := hi.sorted.imp fun hlt => Nat.ne_of_gt hlt
    refine ⟨?_, ?_, ?_⟩
    · rw [hgrow]
      exact hr.history.snoc hnodup (hr.extends' hclean)
    · rintro - s hs
      rw [hgrow, List.getLast?_concat, Option.some.injEq] at hs
      exact Or.inl (hs ▸ List.suffix_rfl)
    · rintro - -
      rw [hgrow, List.getLast?_concat]

theorem recent_next {ev : Hook × Bool} (hok : Ok e) (hi : Ids e) (hr : Recent e)
    (hlatched : e'.Latched) (h : e.next ev = some e') : Recent e' := by
  rcases next_cases h with ⟨input, depth, h⟩ | ⟨input, h⟩ | ⟨interp, h⟩ | ⟨interp, depth, h⟩ | h
  · exact hr.enter hok hi h
  · exact hr.leave h
  · exact hr.begin h
  · exact hr.advance hi hlatched h
  · obtain ⟨f, fs, -, -, rfl⟩ := emit_eq_some h
    exact ⟨hr.history, hr.extends', fun _ h => absurd h (by simp)⟩

/-- A step of the history stays in the history. -/
theorem steps_prefix_next {ev : Hook × Bool} (h : e.next ev = some e') : e.steps <+: e'.steps := by
  rcases next_cases h with ⟨input, depth, h⟩ | ⟨input, h⟩ | ⟨interp, h⟩ | ⟨interp, depth, h⟩ | h
  · obtain ⟨-, -, rfl⟩ := enter_eq_some h
    exact List.prefix_rfl
  · obtain ⟨-, -, -, -, rfl⟩ := leave_eq_some h
    exact List.prefix_rfl
  · obtain ⟨-, -, -, -, -, rfl⟩ := begin_eq_some h
    exact List.prefix_rfl
  · obtain ⟨-, -, -, -, -, rfl⟩ := advance_eq_some h
    exact List.prefix_append _ _
  · obtain ⟨-, -, -, -, rfl⟩ := emit_eq_some h
    exact List.prefix_rfl

/-- **The steps an inspector records are a history of call stacks**, as long as the abort
flag, once set, stays set. -/
theorem isHistory_history {events : List (Hook × Bool)} (h : run events = some e)
    (hlatched : e.Latched) : CallStacks.IsHistory e.history := by
  have hrecent : e.Latched → Recent e := by
    refine Runs.run_induction (motive := fun _ e => e.Latched → Recent e)
      (fun _ => recent_start) (fun as ev e e' hrun ih hnext hl => ?_) h
    have hl' : e.Latched := hl.sublist (steps_prefix_next hnext).sublist
    exact recent_next (ok_of_run hrun) (ids_of_run hrun) (ih hl') hl hnext
  exact (hrecent hlatched).history

end Execution

/-! ### What the snapshots show -/

/-- A snapshot shows the open frames: they are its call stack, its depth counts them, and
each stands at its own depth. -/
structure ShowsFrames (st : ExecutedStep) (snap : StepSnapshot) : Prop where
  callStack : snap.callStack = callStackOf st.frames
  callDepth : snap.callDepth = snap.callStack.length
  depth : ∀ k (hk : k < snap.callStack.length), snap.callStack[k].depth = k

theorem Describes.showsFrames {before : List ExecutedStep} {st : ExecutedStep}
    {snap : StepSnapshot} (h : Describes before st snap) : ShowsFrames st snap where
  callStack := h.callStack
  callDepth := by rw [h.callDepth, h.callStack, length_callStackOf]
  depth k hk :=
    (congrArg CallFrame.depth (List.getElem_of_eq h.callStack hk)).trans
      (depth_callStackOf st.frames k (h.callStack ▸ hk))

/-- What holds of each recorded step and its snapshot holds along the trace. -/
theorem Tracks.forall₂ {e : Execution} {i : StepDebugInspector} (h : Tracks e i)
    {R : ExecutedStep → StepSnapshot → Prop}
    (hR : ∀ before st snap, Describes before st snap → R st snap) :
    List.Forall₂ R e.recorded i.snapshots := by
  rw [List.forall₂_iff_get]
  refine ⟨h.length.symm, fun n hn hn' => hR (e.recorded.take n) _ _ (h.snapshot n _ _ ?_ ?_)⟩
  · exact List.getElem?_eq_getElem hn
  · exact List.getElem?_eq_getElem hn'

/-- **Every snapshot shows the frames open at its step**, outermost first and each at its
depth, and the two depths – the journal's and the inspector's – agree. When the last frame
has ended, the call stack is empty. -/
theorem callStack_shows_openFrames (opCode : UInt8 → Option String)
    (maxMemoryBytes : Option String) {events : List (Hook × Bool)} {e : Execution}
    (h : Execution.run events = some e) :
    List.Forall₂ ShowsFrames e.recorded
        ((StepDebugInspector.new maxMemoryBytes).hooks opCode events).snapshots ∧
      (e.frames = [] →
        ((StepDebugInspector.new maxMemoryBytes).hooks opCode events).callStack = []) := by
  have htracks := tracks_of_run opCode maxMemoryBytes h
  refine ⟨htracks.forall₂ fun _ _ _ hd => hd.showsFrames, fun hnil => ?_⟩
  rw [htracks.callStack, hnil, callStackOf]

/-- The four steps of the sample: one frame, two frames twice, and one frame again. -/
theorem showsFrames_nestedCall :
    List.Forall₂ ShowsFrames nestedCallEnd.recorded
        ((StepDebugInspector.new none).hooks sampleOpCode nestedCall).snapshots ∧
      nestedCallEnd.recorded.map (fun st => st.frames.length) = [1, 2, 2, 1] ∧
      ((StepDebugInspector.new none).hooks sampleOpCode nestedCall).callStack = [] :=
  have h := callStack_shows_openFrames sampleOpCode none run_nestedCall
  ⟨h.1, by decide, h.2 (by decide)⟩

end EvmDebugger
