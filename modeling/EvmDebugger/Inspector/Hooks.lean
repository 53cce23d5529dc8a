import EvmDebugger.Lib.Text
import EvmDebugger.Types

/-!
# The step inspector

`inspector.rs`, hook by hook. The virtual machine calls the inspector at the points of an
execution it announces – a frame is about to be opened, its interpreter has been created,
an instruction is about to run, a log was emitted, a frame has ended – and the inspector
keeps what it needs to describe the next step: its own call stack, the storage writes and
the logs seen so far, a counter of steps, and the gas its latest interpreter started with.

A hook is an `EvmDebugger.Hook`, the arguments the machine passes; what the inspector does
with it is `EvmDebugger.StepDebugInspector.hook`. Only `step` answers anything: it halts
the interpreter when it finds the abort flag set. The flag is an argument of the hook, the
value its `load` returned, so that nothing here depends on when somebody else sets it.

The name table of the opcodes is the virtual machine's; it is the parameter `opCode`.
-/

namespace EvmDebugger

/-! ### What the hooks are given -/

/-- The gas of a frame: what it was given and what is left of it. -/
structure Gas where
  limit : ℕ
  remaining : ℕ
  remaining_le : remaining ≤ limit
  deriving DecidableEq

/-- An interpreter, as far as the hooks look at it. The stack is listed from the bottom, as
`stack.data()` does. The address the interpreter runs as is the one field the inspector
does not read; it is the account an `SSTORE` of this frame writes to. -/
structure Interpreter where
  pc : ℕ
  opcode : UInt8
  gas : Gas
  stack : List U256
  memory : List UInt8
  targetAddress : Address
  deriving DecidableEq

/-- The four ways to call. -/
inductive CallScheme where
  | call
  | callCode
  | delegateCall
  | staticCall
  deriving DecidableEq

/-- The inputs of a call. -/
structure CallInputs where
  scheme : CallScheme
  targetAddress : Address
  caller : Address
  callValue : U256
  deriving DecidableEq

/-- The two ways to create. -/
inductive CreateScheme where
  | create
  | create2
  deriving DecidableEq

/-- The inputs of a creation. -/
structure CreateInputs where
  scheme : CreateScheme
  caller : Address
  value : U256
  deriving DecidableEq

/-- A log, as the virtual machine emits it. -/
structure Log where
  address : Address
  topics : List B256
  data : List UInt8
  deriving DecidableEq

/-- How a frame ended. -/
inductive Outcome where
  | success
  | revert
  | halt
  deriving DecidableEq

/-- The hooks the inspector implements, with their arguments. The context is read for one
thing, the depth of its journal. -/
inductive Hook where
  | initializeInterp (interp : Interpreter)
  | step (interp : Interpreter) (depth : ℕ)
  | call (inputs : CallInputs) (depth : ℕ)
  | callEnd (inputs : CallInputs) (outcome : Outcome)
  | create (inputs : CreateInputs) (depth : ℕ)
  | createEnd (inputs : CreateInputs) (outcome : Outcome)
  | logFull (log : Log)
  deriving DecidableEq

/-- The key and the value an `SSTORE` is about to write: the two topmost words of the
stack, if the stack holds them. -/
def Interpreter.sstore (interp : Interpreter) : Option (U256 × U256) :=
  if interp.opcode = 0x55 then
    if h : 2 ≤ interp.stack.length then
      some (interp.stack[interp.stack.length - 1], interp.stack[interp.stack.length - 2])
    else none
  else none

/-! ### The inspector -/

/-- The state of the inspector. `snapshots` is the list it shares with the executor. -/
structure StepDebugInspector where
  snapshots : List StepSnapshot
  callStack : List CallFrame
  logs : List LogEntry
  storageChanges : StorageChanges
  stepNumber : ℕ
  gasInitial : ℕ
  maxMemoryBytes : ℕ
  deriving DecidableEq

/-- The account shown when the call stack is empty. -/
def zeroAddress : String := "0x0000000000000000000000000000000000000000"

/-- The name of a call scheme. -/
def CallScheme.kind : CallScheme → String
  | .call => "CALL"
  | .staticCall => "STATICCALL"
  | .delegateCall => "DELEGATECALL"
  | .callCode => "CALLCODE"

/-- A log, rendered. -/
def Log.entry (log : Log) : LogEntry where
  contract := hexAddress log.address
  topics := log.topics.map hexHash
  data := "0x" ++ hexEncode log.data

namespace StepDebugInspector

/-- A fresh inspector; the argument is the value of `EVM_DEBUGGER_MAX_MEMORY_BYTES`, if it
is set. -/
def new (maxMemoryBytes : Option String) : StepDebugInspector where
  snapshots := []
  callStack := []
  logs := []
  storageChanges := ∅
  stepNumber := 0
  gasInitial := 0
  maxMemoryBytes := (maxMemoryBytes.bind (Text.parseUnsigned (2 ^ 64 - 1))).getD 4096

/-- The memory dump, cut off after `maxBytes`, and whether it was. -/
def encodeMemoryHex (bytes : List UInt8) (maxBytes : ℕ) : String × Bool :=
  if bytes.isEmpty then ("", false)
  else (hexEncode (bytes.take (min bytes.length maxBytes)), decide (bytes.length > maxBytes))

/-- The contract at the top of the call stack. -/
def currentContract (self : StepDebugInspector) : String :=
  match self.callStack.getLast? with
  | some frame => frame.contract
  | none => zeroAddress

variable (opCode : UInt8 → Option String)

/-- The snapshot of the state an instruction is about to run in. -/
def captureSnapshot (self : StepDebugInspector) (interp : Interpreter) (depth : ℕ) :
    StepSnapshot :=
  let memory :=
    if interp.memory.length > 0 then encodeMemoryHex interp.memory self.maxMemoryBytes
    else ("", false)
  { stepNumber := self.stepNumber
    pc := interp.pc
    opcode := interp.opcode
    opcodeName := (opCode interp.opcode).getD (hexByte interp.opcode)
    callDepth := depth
    gasRemaining := interp.gas.remaining
    gasUsed := self.gasInitial - interp.gas.remaining
    stack := interp.stack.reverse.map hexWord
    memorySize := interp.memory.length
    memoryHex := memory.1
    memoryTruncated := memory.2
    storageChanges := self.storageChanges
    callStack := self.callStack
    logs := self.logs
    contractAddress := self.currentContract }

/-- An `SSTORE` is noted before it runs, under the contract at the top of the call stack. -/
def captureSstore (self : StepDebugInspector) (interp : Interpreter) : StepDebugInspector :=
  match interp.sstore with
  | some (key, value) =>
    { self with
      storageChanges :=
        self.storageChanges.record self.currentContract (hexWord key) (hexWord value) }
  | none => self

/-- A fresh interpreter: remember the gas it starts with. -/
def initializeInterp (self : StepDebugInspector) (interp : Interpreter) : StepDebugInspector :=
  { self with gasInitial := interp.gas.limit }

/-- An instruction is about to run. With the abort flag set the interpreter is halted – the
second component of the answer – and nothing is recorded. -/
def step (self : StepDebugInspector) (abortFlag : Bool) (interp : Interpreter) (depth : ℕ) :
    StepDebugInspector × Bool :=
  if abortFlag then (self, true)
  else
    let self := self.captureSstore interp
    let snapshot := self.captureSnapshot opCode interp depth
    ({ self with
        stepNumber := self.stepNumber + 1
        snapshots := self.snapshots ++ [snapshot] }, false)

/-- Noting an `SSTORE` leaves the snapshots alone. -/
@[simp] theorem captureSstore_snapshots (self : StepDebugInspector) (interp : Interpreter) :
    (self.captureSstore interp).snapshots = self.snapshots := by
  rw [captureSstore]
  split <;> rfl

/-- And so it does the logs. -/
@[simp] theorem captureSstore_logs (self : StepDebugInspector) (interp : Interpreter) :
    (self.captureSstore interp).logs = self.logs := by
  rw [captureSstore]
  split <;> rfl

/-- **With the flag clear, a step records one snapshot.** -/
theorem snapshots_step (self : StepDebugInspector) (interp : Interpreter) (depth : ℕ) :
    (self.step opCode false interp depth).1.snapshots =
      self.snapshots ++ [(self.captureSstore interp).captureSnapshot opCode interp depth] :=
  congrArg (· ++ [_]) (self.captureSstore_snapshots interp)

/-- A call is about to be made. -/
def call (self : StepDebugInspector) (inputs : CallInputs) (depth : ℕ) : StepDebugInspector :=
  { self with
    callStack := self.callStack ++
      [{ depth := depth
         contract := hexAddress inputs.targetAddress
         caller := hexAddress inputs.caller
         value := hexValue inputs.callValue
         kind := inputs.scheme.kind }] }

/-- A call has ended. -/
def callEnd (self : StepDebugInspector) : StepDebugInspector :=
  { self with callStack := self.callStack.dropLast }

/-- A creation is about to start. The address of the new contract is not asked for. -/
def create (self : StepDebugInspector) (inputs : CreateInputs) (depth : ℕ) :
    StepDebugInspector :=
  { self with
    callStack := self.callStack ++
      [{ depth := depth
         contract := hexAddress 0
         caller := hexAddress inputs.caller
         value := hexValue inputs.value
         kind := "CREATE" }] }

/-- A creation has ended. -/
def createEnd (self : StepDebugInspector) : StepDebugInspector :=
  { self with callStack := self.callStack.dropLast }

/-- A log was emitted. -/
def logFull (self : StepDebugInspector) (log : Log) : StepDebugInspector :=
  { self with logs := self.logs ++ [log.entry] }

/-- The inspector's answer to a hook: its next state, and whether it halts the interpreter.
`abortFlag` is what reading the flag returned; only `step` reads it. -/
def hook (self : StepDebugInspector) (abortFlag : Bool) : Hook → StepDebugInspector × Bool
  | .initializeInterp interp => (self.initializeInterp interp, false)
  | .step interp depth => self.step opCode abortFlag interp depth
  | .call inputs depth => (self.call inputs depth, false)
  | .callEnd _ _ => (self.callEnd, false)
  | .create inputs depth => (self.create inputs depth, false)
  | .createEnd _ _ => (self.createEnd, false)
  | .logFull log => (self.logFull log, false)

/-- The inspector after a list of hooks, each with what reading the flag returned. -/
def hooks (self : StepDebugInspector) (events : List (Hook × Bool)) : StepDebugInspector :=
  events.foldl (fun i e => (i.hook opCode e.2 e.1).1) self

end StepDebugInspector

/-- The names of the opcodes that the samples run. -/
def sampleOpCode (opcode : UInt8) : Option String :=
  [(0x00, "STOP"), (0x01, "ADD"), (0x55, "SSTORE"), (0xf0, "CREATE"), (0xf1, "CALL"),
    (0xfd, "REVERT")].lookup opcode

end EvmDebugger
