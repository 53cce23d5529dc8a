import EvmDebugger.Page.Panels
import EvmDebugger.Server.History

/-!
# The page

The script of `index.html`: what it keeps, what it puts into the page, and what it waits for. A
script runs one function at a time, and no function is interrupted but where it waits – for a
response, or for half a second to pass – and then the others have their turn: whoever waits longest
need not go on first, and two responses may arrive in the order in which nobody asked for them.

So a tab is the page, the functions that wait, and the server that they wait for
(`EvmDebugger.Tab`). An action of a tab is that its user does something, that what one of the
functions waits for arrives, or that the server takes a step. The user has buttons and keys, and
while the buttons are disabled as long as a command is under way, the keys never are.

What the page shows after any number of these is the subject of `EvmDebugger.shown_together`.
-/

namespace EvmDebugger

/-! ### The variables and the elements -/

/-- **The page**: the variables of the script, and what its elements contain. If the steps are not
a list, they are nothing the script can do anything with. -/
structure Page where
  currentSessionId : Option String
  loadInFlight : Bool
  allTraceSteps : Option (List TraceStep)
  buttonsEnabled : Bool
  sessionId : String
  statusMsg : String
  statusBar : Page.StatusBar
  opcodePanel : String
  stackPanel : String
  memoryPanel : String
  callStackPanel : String
  storagePanel : String
  logsPanel : String
  deriving DecidableEq

namespace Page

/-- The page as it is served. -/
def init : Page where
  currentSessionId := none
  loadInFlight := false
  allTraceSteps := some []
  buttonsEnabled := false
  sessionId := ""
  statusMsg := ""
  statusBar :=
    { sStep := "Step: -"
      sGasUsed := "Gas Used: -"
      sGasLeft := "Gas Left: -"
      sDepth := "Depth: -"
      sPc := "PC: -"
      sOp := "Op: -"
      sContract := "Contract: -" }
  opcodePanel := loading "Load a transaction to begin debugging."
  stackPanel := loading "—"
  memoryPanel := loading "—"
  callStackPanel := loading "—"
  storagePanel := loading "—"
  logsPanel := loading "—"

/-- `setStatus`. -/
def setStatus (p : Page) (msg : String) : Page := { p with statusMsg := msg }

/-- `setButtonsEnabled`. -/
def setButtonsEnabled (p : Page) (enabled : Bool) : Page := { p with buttonsEnabled := enabled }

/-- An exception has been caught. -/
def caught (p : Page) (message : String) : Page := p.setStatus ("Error: " ++ message)

/-- What is thrown where the steps are not a list. -/
def notAList : String := "steps.map is not a function"

/-- What is thrown where there is no name of a session. -/
def noName : String := "Cannot read properties of undefined (reading 'slice')"

/-- `msg.includes(part)`. -/
def includes (msg part : String) : Bool := msg.toList.tails.any (part.toList.isPrefixOf ·)

/-- What is said about an error. -/
def explain (message : String) : String :=
  let msg := if message = "" then "Unknown error" else message
  if includes msg "429" || includes msg "rate" || includes msg "1015" then
    "RPC rate limited (429). Try a paid RPC (Alchemy/Infura/QuickNode) or wait and retry."
  else if includes msg "LackOfFund" || includes msg "InsufficientFunds" then
    "Insufficient balance at block N-1 (sender's ETH was spent by earlier txs in the same block)."
  else msg

/-- What is said about a result. -/
def resultMsg (result : ExecutionResultInfo) : String :=
  (if result.success then "✓ Success" else "✗ " ++ result.reason) ++
    " | Gas: " ++ number result.gasUsed

variable (entries : StorageChanges → List (String × List (String × String)))

/-- **The page is made to show a state**, until an exception is thrown. Of the storage changes, the
server sends the entries in an order of its own. -/
def processState (p : Page) : SessionState → Page × Option String
  | .paused snap =>
    let p := { p with buttonsEnabled := true, statusBar := updateStatusBar snap }
    match p.allTraceSteps with
    | none => (p, some notAList)
    | some steps =>
      ({ p with
          opcodePanel := renderOpcodeList steps (some snap.stepNumber)
          stackPanel := renderStack snap.stack
          memoryPanel := renderMemory snap.memoryHex snap.memoryTruncated snap.memorySize
          callStackPanel := renderCallStack snap.callStack
          storagePanel := renderStorage (entries snap.storageChanges)
          logsPanel := renderLogs snap.logs
          statusMsg := "" }, none)
  | .loading => ({ p with buttonsEnabled := false, opcodePanel := renderOpcodeList [] none }, none)
  | .finished result =>
    let p := { p with buttonsEnabled := false, statusMsg := resultMsg result }
    match p.allTraceSteps with
    | none => (p, some notAList)
    | some steps => ({ p with opcodePanel := renderOpcodeList steps none }, none)
  | .error message => ((p.setButtonsEnabled false).setStatus ("Error: " ++ explain message), none)
  | .aborted => ((p.setButtonsEnabled false).setStatus "Aborted", none)

/-- The page is made to show a state, and an exception is caught. -/
def processed (p : Page) (state : SessionState) : Page :=
  match p.processState entries state with
  | (p, none) => p
  | (p, some message) => p.caught message

/-- **A command has been answered.** Whatever goes wrong is put into the status, and the buttons are
enabled. -/
def commanded (p : Page) : Body → Page
  | .reply (.state state) =>
    match p.processState entries state with
    | (p, none) => p
    | (p, some message) => (p.caught message).setButtonsEnabled true
  | .error message =>
    if message = "" then p else (p.caught message).setButtonsEnabled true
  -- no command is answered so
  | .reply _ | .status _ => p

/-- `loadTx`, before it waits. -/
def startLoad (p : Page) : Page :=
  { p with
    loadInFlight := true
    statusMsg := "Loading (running full trace)..."
    buttonsEnabled := false
    allTraceSteps := some []
    opcodePanel := renderOpcodeList [] none
    callStackPanel := loading "Loading..." }

/-- `loadTx`, when it is over. -/
def endLoad (p : Page) : Page := { p with loadInFlight := false }

/-- A session has been created, of which there may be a list already. -/
def opened (p : Page) (id : String) (steps : List TraceStep) : Page :=
  { p with
    currentSessionId := some id
    sessionId := "Session: " ++ Text.slice 8 id
    allTraceSteps := some steps }

end Page

/-! ### The tab -/

/-- The list that a response has, if it has one. -/
def Body.list : Body → Option (List TraceStep)
  | reply (.trace steps) => some steps
  | _ => none

/-- **What is waited for**, and by whom: the response to a request, or half a second. -/
inductive PageTask where
  /-- `loadTx`, for the session to be created. -/
  | creating
  /-- `pollUntilReady`, for the time to pass. -/
  | sleeping (sessionId : String)
  /-- For the state. -/
  | polling (sessionId : String) (request : ℕ)
  /-- For the list. -/
  | tracing (sessionId : String) (state : SessionState) (request : ℕ)
  /-- `sendCmd`. -/
  | commanding (request : ℕ)
  /-- `abortSession`. -/
  | aborting (request : ℕ)
  deriving DecidableEq

/-- The task is one of `loadTx`. -/
def PageTask.isLoad : PageTask → Bool
  | creating | sleeping _ | polling .. | tracing .. => true
  | commanding _ | aborting _ => false

/-- **A tab of the browser**, and the server; `sent` are the requests of the page. -/
structure Tab where
  page : Page
  tasks : List PageTask
  sent : List ℕ
  server : Server

/-- What has become of what is waited for; if another request follows, it is `next`. -/
inductive Arrival where
  /-- The time has passed. -/
  | elapsed (next : ℕ)
  /-- The session has been created. -/
  | created (place : ℕ)
  /-- It has not been created. -/
  | refused (message : String)
  /-- The response has arrived. -/
  | answered (next : ℕ)
  /-- There will be no response, or none that can be read. -/
  | failed (message : String)

/-- **The actions.** What the user has typed in has been trimmed. -/
inductive TabAction where
  | load (txHash rpcUrl : String)
  /-- A command is given, by a button or by a key. -/
  | press (route : Route) (byKey : Bool) (request : ℕ)
  | abort (request : ℕ)
  | settle (task : ℕ) (arrival : Arrival)
  | server (a : ServerAction)

namespace Tab

variable (entries : StorageChanges → List (String × List (String × String))) (ttl : ℕ)
  (rq : ℕ → Request)

/-- A page just opened. -/
def init : Tab where
  page := .init
  tasks := []
  sent := []
  server := .init

/-- **A request is sent**, one that nobody has sent before. -/
def send (t : Tab) (r : ℕ) (request : Request) : Option Tab :=
  if rq r = request ∧ t.server.stage r = .new ∧ r ∉ t.sent then
    some { t with sent := r :: t.sent }
  else none

/-- What the server has responded to a request. -/
def response (t : Tab) (r : ℕ) : Option Response :=
  match t.server.stage r with
  | .answered _ response => some response
  | _ => none

/-- A task is over. -/
def finish (t : Tab) (n : ℕ) (page : Page) : Tab :=
  { t with page := page, tasks := t.tasks.eraseIdx n }

/-- A task waits for something else. -/
def goOn (t : Tab) (n : ℕ) (page : Page) (task : PageTask) : Tab :=
  { t with page := page, tasks := t.tasks.set n task }

/-- A button or a key is pressed: keys do nothing without a session, and disabled buttons never do
anything. -/
def press (t : Tab) (route : Route) (byKey : Bool) (r : ℕ) : Option Tab :=
  match t.page.currentSessionId with
  | none =>
    -- only `continueExec` does anything before it asks for the session
    if !byKey && t.page.buttonsEnabled && route = .continueExec then
      some { t with
        page := (t.page.setButtonsEnabled false).setStatus "Running to completion..." }
    else some t
  | some id =>
    if byKey || t.page.buttonsEnabled then
      let page := t.page.setButtonsEnabled false
      let page := if route = .continueExec then page.setStatus "Running to completion..." else page
      (t.send rq r ⟨route, id⟩).map fun t =>
        { t with page := page, tasks := t.tasks ++ [.commanding r] }
    else some t

/-- The session has been created. -/
def created (t : Tab) (n : ℕ) (e : Entry) : Tab :=
  let state := e.start.session.data.currentStateLocked
  let page := t.page.opened e.id e.start.session.data.getTraceSteps
  match page.processState entries state with
  | (page, some message) => t.finish n (page.caught message).endLoad
  | (page, none) =>
    if state = .loading then
      t.goOn n (page.setStatus "Loading (running full trace)...") (.sleeping e.id)
    else t.finish n page.endLoad

/-- The state has arrived for which the session has been polled. -/
def polled (t : Tab) (n : ℕ) (id : String) (next : ℕ) : Body → Option Tab
  | .reply (.state .loading) => some (t.goOn n t.page (.sleeping id))
  | .reply (.state (.paused snap)) =>
    (t.send rq next ⟨.getTraceSteps, id⟩).map fun t =>
      t.goOn n t.page (.tracing id (.paused snap) next)
  | .reply (.state state) => some (t.finish n (t.page.processed entries state).endLoad)
  -- an error has no state to be shown, and nothing else is answered
  | .reply _ | .error _ | .status _ => some (t.finish n t.page.endLoad)

/-- The list has arrived, or what has been sent in its place. -/
def traced (t : Tab) (n : ℕ) (state : SessionState) (body : Body) : Tab :=
  t.finish n ({ t.page with allTraceSteps := body.list }.processed entries state).endLoad

/-- **Something has arrived.** -/
def settle (t : Tab) (n : ℕ) : PageTask → Arrival → Option Tab
  | .creating, .created place => (t.server.heap[place]?).map fun e => t.created entries n e
  | .creating, .refused message =>
    some (t.finish n (if message = "" then
        { t.page with currentSessionId := none }.caught Page.noName
      else t.page.caught message).endLoad)
  | .sleeping id, .elapsed next =>
    (t.send rq next ⟨.getSession, id⟩).map fun t => t.goOn n t.page (.polling id next)
  | .polling id r, .answered next =>
    (t.response r).bind fun response => t.polled entries rq n id next response.body
  | .tracing _ state r, .answered _ =>
    (t.response r).map fun response => t.traced entries n state response.body
  | .commanding r, .answered _ =>
    (t.response r).map fun response => t.finish n (t.page.commanded entries response.body)
  | .aborting r, .answered _ =>
    (t.response r).map fun _ => t.finish n (t.page.setStatus "Aborted")
  | .creating, .failed message | .polling .., .failed message | .tracing .., .failed message =>
    some (t.finish n (t.page.caught message).endLoad)
  | .commanding _, .failed message =>
    some (t.finish n ((t.page.caught message).setButtonsEnabled true))
  | .aborting _, .failed _ => some (t.finish n (t.page.setStatus "Aborted"))
  | _, _ => none

/-- **One action.** -/
def step (t : Tab) : TabAction → Option Tab
  | .load txHash rpcUrl =>
    if txHash = "" ∨ rpcUrl = "" then some t
    else if t.page.loadInFlight then some t
    else some { t with page := t.page.startLoad, tasks := t.tasks ++ [.creating] }
  | .press route byKey r => if route.onPool then t.press rq route byKey r else none
  | .abort r =>
    match t.page.currentSessionId with
    | none => some t
    | some id =>
      if t.page.buttonsEnabled then
        (t.send rq r ⟨.abortSession, id⟩).map fun t =>
          { t with
            page := (t.page.setButtonsEnabled false).setStatus "Aborting..."
            tasks := t.tasks ++ [.aborting r] }
      else some t
  | .settle n arrival => (t.tasks[n]?).bind fun task => t.settle entries rq n task arrival
  | .server a => (t.server.step ttl rq a).map fun server => { t with server := server }

end Tab

end EvmDebugger
