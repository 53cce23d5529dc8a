import EvmDebugger.Inspector.Accounts
import EvmDebugger.Inspector.Gas
import EvmDebugger.Inspector.Rollback
import EvmDebugger.Replay.Abort
import EvmDebugger.Replay.Failure
import EvmDebugger.Replay.Listing
import EvmDebugger.Replay.Permits
import EvmDebugger.Replay.Prefix
import EvmDebugger.RpcUrl
import EvmDebugger.Cache.Paths
import EvmDebugger.Session.Commands
import EvmDebugger.Cache.TraceCache
import EvmDebugger.Cache.Fetcher
import EvmDebugger.Replay.Environment
import EvmDebugger.Cache.WriteAtomic
import EvmDebugger.Lib.Logged
import EvmDebugger.Server.Requests
import EvmDebugger.Server.Serial
import EvmDebugger.Server.Steps
import EvmDebugger.Server.Collector
import EvmDebugger.Lib.Minima
import EvmDebugger.Session.Presses
import EvmDebugger.Cache.Spellings
import EvmDebugger.Session.Announced
import EvmDebugger.RpcUrl.Allowlist
import EvmDebugger.Replay.Decoding
import EvmDebugger.Inspector.Storage
import EvmDebugger.Replay.OneMessage
import EvmDebugger.Server.Creation
import EvmDebugger.Cache.Eviction
import EvmDebugger.Inspector.Encoding
import EvmDebugger.Cache.Legacy
import EvmDebugger.Server.Sharing
import EvmDebugger.Replay.Progress
import EvmDebugger.Page.Panels
import EvmDebugger.Page.Markup
import EvmDebugger.Server.History
import EvmDebugger.Page.Tab
import EvmDebugger.Page.Shown
import EvmDebugger.Page.Buttons
import EvmDebugger.Page.InOrder
import EvmDebugger.Page.Current
import EvmDebugger.Page.Walk
import EvmDebugger.Lib.Rounding
