import EvmDebugger.Inspector.Frames

/-!
# What a failed frame leaves behind

When a frame reverts or halts, the virtual machine undoes every storage write and every log of
the frame and of the frames inside it. The inspector is told so – the outcome is an argument of
`call_end` and of `create_end` – and takes the frame off its call stack. Nothing else: the
writes were put into the one map when their `SSTORE` was announced, the logs into the one
list when they were emitted, and there they stay, to be shown by every later snapshot.

`EvmDebugger.FailedFrame` cuts a well-nested run at the two hooks of a failed frame, and
`EvmDebugger.restores_iff` says exactly when what the inspector shows is nevertheless what it
showed before the frame: when the frame emitted no log, and every slot it wrote was last
written the value shown for it already.
-/

namespace EvmDebugger

/-! ### The two hooks of a frame -/

namespace Hook

/-- The hook announces a new frame. -/
def opens : Hook → Bool
  | call _ _ => true
  | create _ _ => true
  | _ => false

/-- The outcome an end hook announces. -/
def outcome : Hook → Option Outcome
  | callEnd _ outcome => some outcome
  | createEnd _ outcome => some outcome
  | _ => none

/-- The log a hook announces. -/
def log : Hook → Option Log
  | logFull log => some log
  | _ => none

end Hook

/-- **A frame that fails**: `before` leads to the execution `e`, the hook `opening` opens a
frame in it, `body` leads on to `e'`, where that same frame is the innermost one again, and
`closing` ends it with a revert or a halt. -/
structure FailedFrame (before : List (Hook × Bool)) (opening : Hook × Bool)
    (body : List (Hook × Bool)) (closing : Hook × Bool) (e e' : Execution) : Prop where
  before_runs : Execution.run before = some e
  opens : opening.1.opens = true
  body_runs : Execution.run (before ++ opening :: body) = some e'
  same : e'.frames.head?.map Frame.id = some e.opened
  closes : (e'.next closing).isSome = true
  fails : ∃ outcome, closing.1.outcome = some outcome ∧ outcome ≠ .success

/-- The inspector shows the storage writes and the logs it showed before. -/
structure Restores (i i' : StepDebugInspector) : Prop where
  storageChanges : i'.storageChanges = i.storageChanges
  logs : i'.logs = i.logs

/-! ### Logs -/

/-- The logs a list of hooks announces, rendered. -/
def logsOf (events : List (Hook × Bool)) : List LogEntry :=
  events.filterMap fun ev => ev.1.log.map Log.entry

variable (opCode : UInt8 → Option String)

/-- One hook adds its own log and no other. -/
theorem logs_hook (i : StepDebugInspector) (ev : Hook × Bool) :
    (i.hook opCode ev.2 ev.1).1.logs = i.logs ++ logsOf [ev] := by
  obtain ⟨hook, flag⟩ := ev
  cases hook with
  | step interp depth =>
    cases flag with
    | true => exact (List.append_nil _).symm
    | false =>
      show (i.captureSstore interp).logs = i.logs ++ []
      rw [List.append_nil, StepDebugInspector.captureSstore_logs]
  | logFull log => rfl
  | initializeInterp interp => exact (List.append_nil _).symm
  | call inputs depth => exact (List.append_nil _).symm
  | callEnd inputs outcome => exact (List.append_nil _).symm
  | create inputs depth => exact (List.append_nil _).symm
  | createEnd inputs outcome => exact (List.append_nil _).symm

/-- **The logs are all the logs announced so far**, in order. -/
theorem logs_hooks (i : StepDebugInspector) (events : List (Hook × Bool)) :
    (i.hooks opCode events).logs = i.logs ++ logsOf events := by
  induction events generalizing i with
  | nil => exact (List.append_nil _).symm
  | cons ev events ih =>
    have hsplit : logsOf (ev :: events) = logsOf [ev] ++ logsOf events :=
      List.filterMap_append (l := [ev])
    rw [hsplit, ← List.append_assoc, ← logs_hook opCode i ev]
    exact ih _

/-- No log is announced exactly when no hook is a log hook. -/
theorem logsOf_eq_nil_iff (events : List (Hook × Bool)) :
    logsOf events = [] ↔ ∀ ev ∈ events, ev.1.log = none := by
  rw [logsOf, List.filterMap_eq_nil_iff]
  constructor
  · intro h ev hev
    exact Option.map_eq_none_iff.mp (h ev hev)
  · intro h ev hev
    rw [h ev hev, Option.map_none]

/-! ### Storage writes -/

/-- The steps recorded between two points of an execution. -/
def stepsBetween (e e' : Execution) : List ExecutedStep :=
  e'.recorded.drop e.recorded.length

/-- The record only grows. -/
theorem recorded_eq_append {e e' : Execution} {events : List (Hook × Bool)}
    (h : Runs.run Execution.next e events = some e') :
    e'.recorded = e.recorded ++ stepsBetween e e' := by
  have hgrow : e.steps <+: e'.steps :=
    Runs.run_invariant (motive := fun t => e.steps <+: t.steps)
      (fun _ _ _ hs hnext => hs.trans (Execution.steps_prefix_next hnext)) List.prefix_rfl h
  exact (List.prefix_iff_eq_append.mp (hgrow.filter _)).symm

/-- An end hook leaves the storage writes and the logs alone. -/
theorem restores_hook_end (i : StepDebugInspector) {hook : Hook} (flag : Bool)
    {outcome : Outcome} (h : hook.outcome = some outcome) :
    Restores i (i.hook opCode flag hook).1 := by
  cases hook with
  | callEnd inputs outcome => exact ⟨rfl, rfl⟩
  | createEnd inputs outcome => exact ⟨rfl, rfl⟩
  | _ => exact absurd h (by simp [Hook.outcome])

/-- **The storage writes shown later** are those of the steps recorded since, on top of those
shown before. -/
theorem Tracks.storageChanges_eq_writeAll {e e' : Execution} {i i' : StepDebugInspector}
    (h : Tracks e i) (h' : Tracks e' i') {events : List (Hook × Bool)}
    (hrun : Runs.run Execution.next e events = some e') :
    i'.storageChanges =
      i.storageChanges.writeAll ((stepsBetween e e').filterMap ExecutedStep.note) := by
  rw [h'.storageChanges, recorded_eq_append hrun, noteSteps_append, ← h.storageChanges]
  rfl

namespace FailedFrame

variable {before body : List (Hook × Bool)} {opening closing : Hook × Bool} {e e' : Execution}

/-- From the opening hook to the end of the body. -/
theorem runs (h : FailedFrame before opening body closing e e') :
    Runs.run Execution.next e (opening :: body) = some e' := by
  obtain ⟨t, ht, hrest⟩ := Runs.run_append_eq_some.mp h.body_runs
  obtain rfl : t = e := Option.some.inj (ht.symm.trans h.before_runs)
  exact hrest

/-- The opening hook announces no log. -/
theorem logsOf_eq (h : FailedFrame before opening body closing e e') :
    logsOf (opening :: body) = logsOf body := by
  have hopening : opening.1.log = none := by
    have hopens := h.opens
    cases hhook : opening.1 with
    | logFull log =>
      rw [hhook] at hopens
      exact absurd hopens (by simp [Hook.opens])
    | _ => rfl
  rw [logsOf, List.filterMap_cons, hopening]
  rfl

end FailedFrame

/-- **What a failed frame leaves behind is nothing** – the storage writes and the logs shown
right after its end hook are those shown right before its opening hook – if and only if no
log was announced inside it, and the writes recorded inside it, slot by slot, ended with the
value that was shown before. -/
theorem restores_iff (maxMemoryBytes : Option String) {before body : List (Hook × Bool)}
    {opening closing : Hook × Bool} {e e' : Execution}
    (h : FailedFrame before opening body closing e e') :
    Restores ((StepDebugInspector.new maxMemoryBytes).hooks opCode before)
        ((StepDebugInspector.new maxMemoryBytes).hooks opCode
          (before ++ opening :: body ++ [closing])) ↔
      (∀ ev ∈ body, ev.1.log = none) ∧
        ∀ place value,
          Writes.last ((stepsBetween e e').filterMap ExecutedStep.note) place = some value →
          ((StepDebugInspector.new maxMemoryBytes).hooks opCode before).storageChanges.slot place
            = some value := by
  have htracks := tracks_of_run opCode maxMemoryBytes h.before_runs
  have htracks' := tracks_of_run opCode maxMemoryBytes h.body_runs
  obtain ⟨outcome, hout, -⟩ := h.fails
  generalize hi : (StepDebugInspector.new maxMemoryBytes).hooks opCode before = i at htracks ⊢
  rw [StepDebugInspector.hooks_append, hi] at htracks'
  rw [StepDebugInspector.hooks_append, StepDebugInspector.hooks_append, hi]
  -- the end hook changes neither
  have hend := restores_hook_end opCode (i.hooks opCode (opening :: body)) closing.2 hout
  have hstorage := htracks.storageChanges_eq_writeAll htracks' h.runs
  have hlogs : (i.hooks opCode (opening :: body)).logs = i.logs ++ logsOf body := by
    rw [logs_hooks, h.logsOf_eq]
  rw [← logsOf_eq_nil_iff, ← StorageChanges.writeAll_eq_self_iff]
  constructor
  · rintro ⟨hs, hl⟩
    have hs' := hend.storageChanges.symm.trans hs
    have hl' := hend.logs.symm.trans hl
    rw [hstorage] at hs'
    rw [hlogs] at hl'
    exact ⟨List.append_right_eq_self.mp hl', hs'⟩
  · rintro ⟨hl, hs⟩
    refine ⟨hend.storageChanges.trans ?_, hend.logs.trans ?_⟩
    · rw [hstorage, hs]
    · rw [hlogs, hl, List.append_nil]

/-- The account `0xb` is called and writes `7` to a slot, and the first account goes on. -/
def writtenBefore : List (Hook × Bool) :=
  nestedCallBefore ++
    [(.call (sampleCall 0xa 0xb) 1, false),
      (.initializeInterp (sampleInterp 0xb 0x55 (.new 50) [7, 1]), false),
      (.step (sampleInterp 0xb 0x55 (.new 50) [7, 1]) 2, false),
      (.callEnd (sampleCall 0xa 0xb) .success, false),
      (.step (sampleInterp 0xa 0xf1 ⟨100, 80, by decide⟩ []) 1, false)]

/-- It is called again, writes `9` to the slot and then `7`, and reverts. -/
def writtenBack : List (Hook × Bool) :=
  [(.initializeInterp (sampleInterp 0xb 0x55 (.new 50) [9, 1]), false),
    (.step (sampleInterp 0xb 0x55 (.new 50) [9, 1]) 2, false),
    (.step (sampleInterp 0xb 0x55 ⟨50, 45, by decide⟩ [7, 1]) 2, false),
    (.step (sampleInterp 0xb 0xfd ⟨50, 20, by decide⟩ []) 2, false)]

/-- A frame that has written back what was there leaves nothing behind. -/
theorem restores_writtenBack :
    Restores ((StepDebugInspector.new none).hooks sampleOpCode writtenBefore)
      ((StepDebugInspector.new none).hooks sampleOpCode
        (writtenBefore ++ (.call (sampleCall 0xa 0xb) 1, false) :: writtenBack ++
          [(.callEnd (sampleCall 0xa 0xb) .revert, false)])) := by
  refine (restores_iff sampleOpCode none
    { before_runs := (Option.some_get (by decide)).symm
      opens := rfl
      body_runs := (Option.some_get (by decide)).symm
      same := by decide
      closes := by decide
      fails := ⟨.revert, rfl, by decide⟩ }).mpr
    ⟨by decide, fun place value hlast => ?_⟩
  have hnotes : (stepsBetween ((Execution.run writtenBefore).get (by decide))
      ((Execution.run (writtenBefore ++ (.call (sampleCall 0xa 0xb) 1, false) ::
        writtenBack)).get (by decide))).filterMap ExecutedStep.note =
      [((hexAddress 0xb, hexWord 1), hexWord 9)] ++
        [((hexAddress 0xb, hexWord 1), hexWord 7)] := rfl
  rw [hnotes] at hlast
  obtain ⟨hplace, hvalue⟩ : (hexAddress 0xb, hexWord 1) = place ∧ hexWord 7 = value := by
    rw [Writes.last_snoc] at hlast
    split at hlast
    · next hplace => exact ⟨hplace, Option.some.inj hlast⟩
    · next hplace =>
      have hmem := Writes.mem_of_last hlast
      exact absurd (congrArg Prod.fst (List.mem_singleton.mp hmem)).symm hplace
  rw [← hplace, ← hvalue]
  rfl

/-- The inner call of the sample writes `7` to a slot and reverts. The snapshots that follow
show the slot as `7`. -/
theorem not_restores_nestedCall :
    FailedFrame nestedCallBefore (.call (sampleCall 0xa 0xb) 1, false) nestedCallBody
        (.callEnd (sampleCall 0xa 0xb) .revert, false)
        ((Execution.run nestedCallBefore).get (by decide))
        ((Execution.run (nestedCallBefore ++ (.call (sampleCall 0xa 0xb) 1, false) ::
          nestedCallBody)).get (by decide)) ∧
      ¬Restores ((StepDebugInspector.new none).hooks sampleOpCode nestedCallBefore)
        ((StepDebugInspector.new none).hooks sampleOpCode
          (nestedCallBefore ++ (.call (sampleCall 0xa 0xb) 1, false) :: nestedCallBody ++
            [(.callEnd (sampleCall 0xa 0xb) .revert, false)])) := by
  refine ⟨⟨(Option.some_get _).symm, rfl, (Option.some_get _).symm, by decide, by decide,
    .revert, rfl, by decide⟩, fun hrestores => ?_⟩
  exact absurd hrestores.storageChanges (by decide)

end EvmDebugger
