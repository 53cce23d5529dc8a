import EvmDebugger.Inspector.Hooks
import EvmDebugger.Lib.Excerpt

/-!
# What a snapshot shows of the stack and of the memory

Of the interpreter at a step, a snapshot has the stack, the top first, and the memory, or the
beginning of it. Both are text: a word is written with all its digits, a byte with two. A text that
ends somewhere may have been cut off there, so the snapshot says how long the memory is, and whether
there is more of it.

`EvmDebugger.Interpreter.view` is what there is to be shown, in words and bytes; a snapshot is a
rendering of it (`EvmDebugger.shows_captureSnapshot`), with or without the branches that the code
has for an empty memory. So nothing is lost but what is said to be missing:
`EvmDebugger.captureSnapshot_lossless`. And a trace as a whole tells apart any two executions that
differ in the stack or the memory of a step, as long as it fits
(`EvmDebugger.steps_eq_of_trace_eq`).
-/

namespace EvmDebugger

/-! ### Reading what is shown -/

/-- A word of the stack, from its rendering: the prefix and sixty-four digits. -/
def readWord (s : String) : Option U256 :=
  (Text.stripPrefix "0x" s).bind fun digits =>
    if digits.length = 64 then (Hex.read digits.toList).map (BitVec.ofNat 256) else none

/-- `hex::decode`. -/
def readBytes (s : String) : Option (List UInt8) := Hex.decode s.toList

/-- A word has sixty-four digits. -/
theorem length_digits (v : U256) : (String.ofList (Hex.fixed 64 v.toNat)).length = 64 := by
  rw [String.length_ofList, Hex.length_fixed]

/-- **A word is read back.** -/
theorem readBack_hexWord : ReadBack hexWord readWord := by
  intro v
  have hprefix : Text.stripPrefix "0x" (hexWord v) = some (String.ofList (Hex.fixed 64 v.toNat)) :=
    Text.stripPrefix_eq_some.mpr rfl
  have hread : Hex.read (Hex.fixed 64 v.toNat) = some v.toNat :=
    Hex.read_fixed (v.isLt.trans_eq (by decide))
  rw [readWord, hprefix, Option.bind_some, if_pos (length_digits v), String.toList_ofList, hread,
    Option.map_some, BitVec.ofNat_toNat, BitVec.setWidth_eq]

/-- **Bytes are read back.** -/
theorem readBack_hexEncode : ReadBack hexEncode readBytes := by
  intro bytes
  rw [readBytes, hexEncode, String.toList_ofList, Hex.decode_encode]

/-- The prefix, and all the digits. -/
theorem length_hexWord (v : U256) : (hexWord v).length = 66 := by
  rw [hexWord, String.length_append, length_digits]
  rfl

/-! ### What there is to be shown -/

/-- The stack, the top first, and the beginning of the memory. -/
structure InterpreterView where
  stack : List U256
  memory : Excerpt UInt8

/-- **What is shown of an interpreter**, when no more than so many bytes of the memory are. -/
def Interpreter.view (interp : Interpreter) (maxBytes : ℕ) : InterpreterView where
  stack := interp.stack.reverse
  memory := .cut maxBytes interp.memory

/-- **The snapshot renders it.** -/
structure Shows (v : InterpreterView) (snap : StepSnapshot) : Prop where
  stack : snap.stack = v.stack.map hexWord
  memorySize : snap.memorySize = v.memory.size
  memoryHex : snap.memoryHex = hexEncode v.memory.shown
  memoryTruncated : snap.memoryTruncated = v.memory.truncated

namespace Shows

variable {v w : InterpreterView} {snap snap' : StepSnapshot}

/-- The words are read back. -/
theorem readStack (h : Shows v snap) : snap.stack.mapM readWord = some v.stack := by
  rw [h.stack]
  exact readBack_hexWord.list v.stack

/-- And the bytes are. -/
theorem readMemory (h : Shows v snap) : readBytes snap.memoryHex = some v.memory.shown := by
  rw [h.memoryHex]
  exact readBack_hexEncode v.memory.shown

/-- **What looks the same is the same**: the text determines what it shows. -/
theorem unique (h : Shows v snap) (h' : Shows w snap') (hstack : snap.stack = snap'.stack)
    (hsize : snap.memorySize = snap'.memorySize) (hhex : snap.memoryHex = snap'.memoryHex) :
    v = w := by
  obtain ⟨stack, memory⟩ := v
  obtain ⟨stack', memory'⟩ := w
  congr 1
  · rw [h.stack, h'.stack] at hstack
    exact readBack_hexWord.list.injective hstack
  · ext1
    · rw [h.memoryHex, h'.memoryHex] at hhex
      exact readBack_hexEncode.injective hhex
    · rw [← h.memorySize, hsize, h'.memorySize]

end Shows

/-- **A view that has nothing cut off determines the interpreter**, as far as it goes. -/
theorem Interpreter.eq_of_view_eq {interp interp' : Interpreter} {m n : ℕ}
    (h : interp.view m = interp'.view n) (hall : (interp.view m).memory.truncated = false) :
    interp.stack = interp'.stack ∧ interp.memory = interp'.memory :=
  ⟨List.reverse_injective (congrArg InterpreterView.stack h),
    Excerpt.eq_of_cut_eq (congrArg InterpreterView.memory h) hall⟩

/-! ### One snapshot -/

namespace StepDebugInspector

/-- The dump of a memory is that of an excerpt, though an empty one has a branch of its own. -/
theorem encodeMemoryHex_eq (bytes : List UInt8) (maxBytes : ℕ) :
    encodeMemoryHex bytes maxBytes =
      (hexEncode (Excerpt.cut maxBytes bytes).shown, (Excerpt.cut maxBytes bytes).truncated) := by
  rw [encodeMemoryHex]
  split
  · next hempty =>
    rw [List.isEmpty_iff] at hempty
    subst hempty
    simp [hexEncode, Hex.encode, Excerpt.truncated]
  · have hshown : bytes.take (min bytes.length maxBytes) = (Excerpt.cut maxBytes bytes).shown := by
      rw [Excerpt.shown_cut, Nat.min_comm, ← List.take_eq_take_min]
    have htruncated : decide (bytes.length > maxBytes) =
        (Excerpt.cut maxBytes bytes).truncated := by
      rw [Bool.eq_iff_iff, Excerpt.truncated_cut, decide_eq_true_eq]
    rw [hshown, htruncated]

end StepDebugInspector

/-- **A snapshot renders what there is to be shown.** -/
theorem shows_captureSnapshot (opCode : UInt8 → Option String) (self : StepDebugInspector)
    (interp : Interpreter) (depth : ℕ) :
    Shows (interp.view self.maxMemoryBytes) (self.captureSnapshot opCode interp depth) := by
  have hmemory : (if interp.memory.length > 0 then
        StepDebugInspector.encodeMemoryHex interp.memory self.maxMemoryBytes else ("", false)) =
      StepDebugInspector.encodeMemoryHex interp.memory self.maxMemoryBytes := by
    split
    · rfl
    · next hempty =>
      rw [StepDebugInspector.encodeMemoryHex, if_pos]
      rw [List.isEmpty_iff, ← List.length_eq_zero_iff]
      omega
  have hdump := hmemory.trans (StepDebugInspector.encodeMemoryHex_eq _ _)
  exact
    { stack := rfl
      memorySize := rfl
      memoryHex := congrArg Prod.fst hdump
      memoryTruncated := congrArg Prod.snd hdump }

/-- **Nothing is lost but what is said to be missing.** The stack is read back from the snapshot,
the top first, each word of it from 66 characters; so is the memory, up to the limit; and the
snapshot says how long the memory is, and whether that is more than the limit. So if two snapshots
look the same, and the one says that nothing is missing, the stacks and the memories they were taken
of are the same, whatever the limits. -/
theorem captureSnapshot_lossless (opCode : UInt8 → Option String) (self : StepDebugInspector)
    (interp : Interpreter) (depth : ℕ) :
    let snap := self.captureSnapshot opCode interp depth
    snap.stack.mapM readWord = some interp.stack.reverse ∧
      (∀ entry ∈ snap.stack, entry.length = 66) ∧
      snap.memorySize = interp.memory.length ∧
      readBytes snap.memoryHex =
        some (interp.memory.take (min snap.memorySize self.maxMemoryBytes)) ∧
      (snap.memoryTruncated = true ↔ snap.memorySize > self.maxMemoryBytes) ∧
      ∀ (self' : StepDebugInspector) (interp' : Interpreter) (depth' : ℕ),
        let snap' := self'.captureSnapshot opCode interp' depth'
        snap.stack = snap'.stack → snap.memorySize = snap'.memorySize →
          snap.memoryHex = snap'.memoryHex → snap.memoryTruncated = false →
          interp.stack = interp'.stack ∧ interp.memory = interp'.memory := by
  intro snap
  have hshows : Shows (interp.view self.maxMemoryBytes) snap :=
    shows_captureSnapshot opCode self interp depth
  refine ⟨hshows.readStack, fun entry hentry => ?_, rfl, ?_, ?_, ?_⟩
  · rw [hshows.stack] at hentry
    obtain ⟨v, -, rfl⟩ := List.mem_map.mp hentry
    exact length_hexWord v
  · rw [hshows.readMemory, hshows.memorySize]
    show some (interp.memory.take self.maxMemoryBytes) = _
    rw [Nat.min_comm, List.take_eq_take_min]
    rfl
  · rw [hshows.memoryTruncated, hshows.memorySize]
    exact Excerpt.truncated_cut
  · intro self' interp' depth' snap' hstack hsize hhex hall
    have hshows' : Shows (interp'.view self'.maxMemoryBytes) snap' :=
      shows_captureSnapshot opCode self' interp' depth'
    rw [hshows.memoryTruncated] at hall
    exact Interpreter.eq_of_view_eq (hshows.unique hshows' hstack hsize hhex) hall

/-- An interpreter with two words on the stack and two bytes in the memory. -/
def twoBytes (pc : ℕ) : Interpreter where
  pc := pc
  opcode := 0x00
  gas := ⟨21, 21, le_rfl⟩
  stack := [5, 1]
  memory := [0x01, 0x02]
  targetAddress := 0xa

/-- A memory that is just as long as the limit, and the same memory under another limit. -/
theorem lossless_twoBytes :
    ((StepDebugInspector.new (some "2")).captureSnapshot sampleOpCode (twoBytes 0) 1).memoryHex =
        "0102" ∧
      (twoBytes 0).stack = (twoBytes 7).stack ∧ (twoBytes 0).memory = (twoBytes 7).memory := by
  obtain ⟨-, -, -, -, -, hsame⟩ := captureSnapshot_lossless sampleOpCode
    (StepDebugInspector.new (some "2")) (twoBytes 0) 1
  exact ⟨by decide, hsame (StepDebugInspector.new none) (twoBytes 7) 2 rfl rfl (by decide)
    (by decide)⟩

/-! ### A whole trace -/

/-- The interpreters of the steps that are recorded: those at which the abort flag is clear. -/
def recordedSteps (events : List (Hook × Bool)) : List Interpreter :=
  events.filterMap fun
    | (.step interp _, false) => some interp
    | _ => none

/-- The snapshot renders the interpreter, under a limit. -/
def ShowsStep (maxBytes : ℕ) (interp : Interpreter) (snap : StepSnapshot) : Prop :=
  Shows (interp.view maxBytes) snap

/-- **What one hook does to the trace**: if it is a step that is recorded, there is one snapshot
more, which renders the interpreter; and the limit stays what it is. -/
theorem exists_snapshots_hook (opCode : UInt8 → Option String) (i : StepDebugInspector)
    (ev : Hook × Bool) :
    (i.hook opCode ev.2 ev.1).1.maxMemoryBytes = i.maxMemoryBytes ∧
      ∃ snaps, (i.hook opCode ev.2 ev.1).1.snapshots = i.snapshots ++ snaps ∧
        List.Forall₂ (ShowsStep i.maxMemoryBytes) (recordedSteps [ev]) snaps := by
  obtain ⟨hook, seen⟩ := ev
  cases hook with
  | step interp depth =>
    cases seen with
    | true => exact ⟨rfl, [], (List.append_nil _).symm, .nil⟩
    | false =>
      have hmax : (i.captureSstore interp).maxMemoryBytes = i.maxMemoryBytes := by
        rw [StepDebugInspector.captureSstore]
        split <;> rfl
      refine ⟨hmax, _, StepDebugInspector.snapshots_step opCode i interp depth, .cons ?_ .nil⟩
      rw [ShowsStep, ← hmax]
      exact shows_captureSnapshot opCode (i.captureSstore interp) interp depth
  | _ => exact ⟨rfl, [], (List.append_nil _).symm, .nil⟩

/-- **The trace of any list of hooks** renders the interpreters of the recorded steps, one by
one. -/
theorem shows_hooks (opCode : UInt8 → Option String) (maxMemoryBytes : Option String)
    (events : List (Hook × Bool)) :
    ((StepDebugInspector.new maxMemoryBytes).hooks opCode events).maxMemoryBytes =
        (StepDebugInspector.new maxMemoryBytes).maxMemoryBytes ∧
      List.Forall₂ (ShowsStep (StepDebugInspector.new maxMemoryBytes).maxMemoryBytes)
        (recordedSteps events)
        ((StepDebugInspector.new maxMemoryBytes).hooks opCode events).snapshots := by
  induction events using List.reverseRecOn with
  | nil => exact ⟨rfl, .nil⟩
  | append_singleton events ev ih =>
    obtain ⟨hmax, hshows⟩ := ih
    obtain ⟨hmax', snaps, hsnaps, hnew⟩ := exists_snapshots_hook opCode
      ((StepDebugInspector.new maxMemoryBytes).hooks opCode events) ev
    rw [hmax] at hmax' hnew
    have hlast : (StepDebugInspector.new maxMemoryBytes).hooks opCode (events ++ [ev]) =
        (((StepDebugInspector.new maxMemoryBytes).hooks opCode events).hook opCode ev.2 ev.1).1 :=
      List.foldl_append
    rw [hlast, hsnaps, recordedSteps, List.filterMap_append]
    exact ⟨hmax', List.rel_append hshows hnew⟩

/-- What a client sees of the stack and of the memory. -/
def StepSnapshot.text (snap : StepSnapshot) : List String × ℕ × String :=
  (snap.stack, snap.memorySize, snap.memoryHex)

/-- Two lists of snapshots that look the same, of which the first has nothing cut off. -/
theorem eq_of_text_eq {m n : ℕ} {interps interps' : List Interpreter}
    {snaps snaps' : List StepSnapshot} (h : List.Forall₂ (ShowsStep m) interps snaps)
    (h' : List.Forall₂ (ShowsStep n) interps' snaps')
    (htext : snaps.map StepSnapshot.text = snaps'.map StepSnapshot.text)
    (hall : ∀ snap ∈ snaps, snap.memoryTruncated = false) :
    interps.map (fun i => (i.stack, i.memory)) = interps'.map fun i => (i.stack, i.memory) := by
  induction h generalizing interps' snaps' with
  | nil =>
    obtain rfl : snaps' = [] := List.map_eq_nil_iff.mp htext.symm
    cases h'
    rfl
  | @cons interp snap interps snaps hshows hrest ih =>
    cases h' with
    | nil => exact absurd htext (by simp)
    | @cons interp' snap' interps' snaps' hshows' hrest' =>
      obtain ⟨hhead, htail⟩ := List.cons.inj htext
      obtain ⟨hstack, hdump⟩ := Prod.mk.inj hhead
      obtain ⟨hsize, hhex⟩ := Prod.mk.inj hdump
      have hnone := hall snap List.mem_cons_self
      rw [hshows.memoryTruncated] at hnone
      obtain ⟨hs, hm⟩ :=
        Interpreter.eq_of_view_eq (hshows.unique hshows' hstack hsize hhex) hnone
      rw [List.map_cons, List.map_cons, hs, hm,
        ih hrest' htail fun s hs => hall s (List.mem_cons_of_mem snap hs)]

/-- **A trace that fits determines its execution**, as far as the stack and the memory go: if the
traces of two lists of hooks look the same, and nothing is missing from the first one, then the
recorded steps are as many, and have the same stacks and memories. -/
theorem steps_eq_of_trace_eq (opCode : UInt8 → Option String) (maxMemoryBytes maxMemoryBytes' :
    Option String) (events events' : List (Hook × Bool))
    (htext : ((StepDebugInspector.new maxMemoryBytes).hooks opCode events).snapshots.map
        StepSnapshot.text =
      ((StepDebugInspector.new maxMemoryBytes').hooks opCode events').snapshots.map
        StepSnapshot.text)
    (hall : ∀ snap ∈ ((StepDebugInspector.new maxMemoryBytes).hooks opCode events).snapshots,
      snap.memoryTruncated = false) :
    (recordedSteps events).map (fun i => (i.stack, i.memory)) =
      (recordedSteps events').map fun i => (i.stack, i.memory) :=
  eq_of_text_eq (shows_hooks opCode maxMemoryBytes events).2
    (shows_hooks opCode maxMemoryBytes' events').2 htext hall

end EvmDebugger
