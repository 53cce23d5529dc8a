import EvmDebugger.Replay.Task
import EvmDebugger.Session.Commands

/-!
# Sessions from the trace cache

`trace_cache.rs`, and what it is for: a trace that has been recorded once is saved, and the next
session on the same transaction starts from the file. Files are written with `write_atomic`, which
is here what its callers see of it – the new contents are there or the old ones are – and the
library that writes and reads JSON is a parameter, `EvmDebugger.Json`.

A session that became ready from the thread's message and a session made from the file are made by
different code. `EvmDebugger.fromCache_equivalent` says that no client can tell them apart:
whatever has been done to the first one since it became ready, the save writes the trace it became
ready with, and to any list of commands the second one answers what the first one would have
answered when it became ready.
-/

namespace EvmDebugger

/-! ### Files -/

/-- Files, by their paths. -/
abbrev Files (β : Type) := String → Option β

/-- **`write_atomic`, as its callers see it**: if it succeeds the file has the new contents, and if
it does not, nothing has happened. -/
def Files.writeAtomic {β : Type} (files : Files β) (path : String) (contents : β) (ok : Bool) :
    Files β :=
  if ok then Function.update files path (some contents) else files

/-- A file that has just been written. -/
theorem Files.writeAtomic_self {β : Type} (files : Files β) (path : String) (contents : β) :
    files.writeAtomic path contents true path = some contents := by
  rw [writeAtomic, if_pos rfl, Function.update_self]

/-- The library that writes and reads JSON, at one type: `to_string_pretty` and `from_str`. -/
structure Json (α : Type) where
  toStringPretty : α → String
  fromStr : String → Option α

/-- What is written is read back. -/
def Json.RoundTrips {α : Type} (json : Json α) (a : α) : Prop :=
  json.fromStr (json.toStringPretty a) = some a

/-! ### Loading and saving -/

/-- `load_trace_cache`, with the answers of the file system: whether the file exists, and what
reading it returned, if it could be read. -/
def loadTraceCache (json : Json TraceCacheFile) (path : String) (found : Bool)
    (data : Option String) : Except String (Option TraceCacheFile) :=
  if found then
    match data with
    | none => .error ("reading " ++ path)
    | some data =>
      match json.fromStr data with
      | none => .error ("deserializing " ++ path)
      | some file => .ok (some file)
  else .ok none

/-- `save_trace_cache`; `ok` says whether `write_atomic` succeeds. -/
def saveTraceCache (json : Json TraceCacheFile) (files : Files String) (path : String)
    (snapshots : List StepSnapshot) (result : Option ExecutionResultInfo) (ok : Bool) :
    Files String × Except String Unit :=
  let text := json.toStringPretty ⟨snapshots, result⟩
  (files.writeAtomic path text ok, if ok then .ok () else .error ("writing " ++ path))

/-- **What is loaded has been read from a file.** -/
theorem exists_of_load {json : Json TraceCacheFile} {path : String} {found : Bool}
    {data : Option String} {file : TraceCacheFile}
    (h : loadTraceCache json path found data = .ok (some file)) :
    ∃ text, data = some text ∧ json.fromStr text = some file := by
  unfold loadTraceCache at h
  split at h
  · split at h
    · exact absurd h (by simp)
    · next text =>
      split at h
      · exact absurd h (by simp)
      · next file' hread =>
        obtain rfl := Option.some.inj (Except.ok.inj h)
        exact ⟨text, rfl, hread⟩
  · exact absurd h (by simp)

/-- **What is saved is loaded.** -/
theorem load_of_save {json : Json TraceCacheFile} {files files' : Files String} {path : String}
    {snapshots : List StepSnapshot} {result : Option ExecutionResultInfo} {ok : Bool}
    (hjson : json.RoundTrips ⟨snapshots, result⟩)
    (hsave : saveTraceCache json files path snapshots result ok = (files', .ok ())) :
    loadTraceCache json path (files' path).isSome (files' path) =
      .ok (some ⟨snapshots, result⟩) := by
  cases ok with
  | false => exact absurd (congrArg Prod.snd hsave) (by simp [saveTraceCache])
  | true =>
    have hfile : files' path = some (json.toStringPretty ⟨snapshots, result⟩) := by
      rw [← show _ = files' from congrArg Prod.fst hsave]
      exact files.writeAtomic_self path _
    rw [hfile, loadTraceCache, Option.isSome_some, if_pos rfl, hjson]

/-! ### The saved trace -/

namespace World

/-- **What is saved is what the session became ready with**, however late it is saved and whatever
has been done to the session in the meantime. -/
theorem contents_of_run {o : Origin} {w w' : World} (hok : Ok o w) {actions : List Action}
    (hrun : Runs.run step w actions = some w') {snapshots snapshots' : List StepSnapshot} {i : ℕ}
    {result result' : Option ExecutionResultInfo}
    (hready : w.session.data = .ready snapshots i result)
    (hsave : w'.reply .snapshotsForCache = some (.contents (some (snapshots', result')))) :
    snapshots' = snapshots ∧ result' = result := by
  have hcontents := Reply.contents.inj (Option.some.inj hsave)
  obtain ⟨j, hready'⟩ := SessionData.snapshotsForCache_eq_some hcontents
  have hok' : Ok o w' := Runs.run_invariant (fun _ _ _ h hs => h.step hs) hok hrun
  have hgiven := hok.delivered hready
  have hgiven' := hok'.delivered hready'
  cases o with
  | fromCache s r => exact ⟨hgiven'.1.trans hgiven.1.symm, hgiven'.2.trans hgiven.2.symm⟩
  | new =>
    -- at most one message is ever received, so it is the same one
    have hprefix := consumed_prefix_of_run hok hrun
    rw [show w.consumed = _ from hgiven, show w'.consumed = _ from hgiven'] at hprefix
    have hmsg := Option.some.inj (List.cons_prefix_cons.mp hprefix).1
    obtain ⟨rfl, rfl⟩ := ChannelMessage.allSnapshots.inj hmsg
    exact ⟨rfl, rfl⟩

/-- A session that has just become ready is at the first snapshot. -/
theorem ready_of_waitPublish {w w' : World} {caller : ℕ}
    (h : w.step (.waitPublish caller) = some w') {snapshots : List StepSnapshot} {i : ℕ}
    {result : Option ExecutionResultInfo} (hready : w'.session.data = .ready snapshots i result) :
    w'.session.data = .ready snapshots 0 result := by
  obtain ⟨msg, -, rfl⟩ := waitPublish_eq_some h
  have hdata : (w.session.data.publish msg).1 = .ready snapshots i result := hready
  obtain rfl := SessionData.ready_of_publish hdata
  have hna : w.session.data ≠ .aborted := by
    intro ha
    rw [ha, SessionData.publish_aborted] at hdata
    exact absurd hdata (by simp)
  exact SessionData.publish_of_ne_aborted _ hna

end World

/-- **Two ways to make a session, and no way to tell.** Let a session become ready when the
message is published, and let anything happen to it until the task asks for what it should save.
If that is saved, then a session made from the file, whenever that is, answers to every list of
commands what the first session would have answered when it became ready. -/
theorem fromCache_equivalent {json : Json TraceCacheFile} {now : ℕ}
    {actions more : List Action} {w₀ w₁ w₂ : World} {caller i : ℕ}
    {snapshots snapshots' : List StepSnapshot}
    {result result' : Option ExecutionResultInfo} {files files' : Files String} {path : String}
    {ok : Bool} (hrun : Runs.run World.step (Origin.new.world now) actions = some w₀)
    (hpublish : w₀.step (.waitPublish caller) = some w₁)
    (hready : w₁.session.data = .ready snapshots i result)
    (hmore : Runs.run World.step w₁ more = some w₂)
    (hcontents : w₂.reply .snapshotsForCache = some (.contents (some (snapshots', result'))))
    (hjson : json.RoundTrips ⟨snapshots', result'⟩)
    (hsave : saveTraceCache json files path snapshots' result' ok = (files', .ok ())) :
    ∃ file, loadTraceCache json path (files' path).isSome (files' path) = .ok (some file) ∧
      ∀ (later : ℕ) (commands : List Command),
        (World.fromCache file.snapshots file.result later).responses commands =
          w₁.responses commands := by
  have hok : World.Ok .new w₁ := (World.ok_of_run hrun).step hpublish
  obtain ⟨rfl, rfl⟩ := World.contents_of_run hok hmore hready hcontents
  refine ⟨⟨snapshots', result'⟩, load_of_save hjson hsave, ?_⟩
  intro later commands
  rw [(World.responses_eq _ commands).2, (World.responses_eq w₁ commands).2,
    World.ready_of_waitPublish hpublish hready]
  rfl

/-! ### A sample -/

/-- The text of a step, from its memory on; the two steps have that in common. -/
def stepTextEnd : String :=
  "      \"memory_size\": 0,\n      \"memory_hex\": \"\",\n" ++
  "      \"memory_truncated\": false,\n      \"storage_changes\": \x7b\x7d,\n" ++
  "      \"call_stack\": [\n        \x7b\n          \"depth\": 0,\n" ++
  "          \"contract\": \"0x000000000000000000000000000000000000000a\",\n" ++
  "          \"caller\": \"0x0000000000000000000000000000000000000001\",\n" ++
  "          \"value\": \"0x0\",\n          \"kind\": \"CALL\"\n        \x7d\n      ],\n" ++
  "      \"logs\": [],\n" ++
  "      \"contract_address\": \"0x000000000000000000000000000000000000000a\"\n    \x7d"

/-- The text of the first step, -/
def firstStepText : String :=
  "    \x7b\n      \"step_number\": 0,\n      \"pc\": 0,\n      \"opcode\": 1,\n" ++
  "      \"opcode_name\": \"ADD\",\n      \"call_depth\": 1,\n      \"gas_remaining\": 100,\n" ++
  "      \"gas_used\": 0,\n      \"stack\": [\n" ++
  "        \"0x0000000000000000000000000000000000000000000000000000000000000003\",\n" ++
  "        \"0x0000000000000000000000000000000000000000000000000000000000000002\"\n      ],\n" ++
  stepTextEnd

/-- and that of the second. -/
def secondStepText : String :=
  "    \x7b\n      \"step_number\": 1,\n      \"pc\": 1,\n      \"opcode\": 0,\n" ++
  "      \"opcode_name\": \"STOP\",\n      \"call_depth\": 1,\n      \"gas_remaining\": 97,\n" ++
  "      \"gas_used\": 3,\n      \"stack\": [\n" ++
  "        \"0x0000000000000000000000000000000000000000000000000000000000000005\"\n      ],\n" ++
  stepTextEnd

/-- The steps in the text of a trace that has so many of them. -/
def stepsText : ℕ → String
  | 0 => ""
  | 1 => "\n" ++ (firstStepText ++ "\n  ")
  | _ => "\n" ++ (firstStepText ++ (",\n" ++ (secondStepText ++ "\n  ")))

/-- The text of the trace, cut off after so many steps. -/
def twoStepsText (n : ℕ) : String :=
  "\x7b\n  \"snapshots\": [" ++ stepsText n ++
  ("],\n  \"result\": \x7b\n    \"success\": true,\n    \"gas_used\": 21003,\n" ++
  "    \"output\": \"0x\",\n    \"reason\": \"Stop\"\n  \x7d\n\x7d")

/-- Such texts can differ in the steps only. -/
theorem stepsText_of_twoStepsText {m n : ℕ} (h : twoStepsText m = twoStepsText n) :
    stepsText m = stepsText n := by
  unfold twoStepsText at h
  rwa [String.append_left_inj, String.append_right_inj] at h

/-- And so the three texts differ. -/
theorem stepsText_ne : stepsText 0 ≠ stepsText 1 ∧ stepsText 0 ≠ stepsText 2 ∧
    stepsText 1 ≠ stepsText 2 := by
  have hfirst : ∀ s, "" ≠ "\n" ++ s := fun s h =>
    absurd (congrArg (fun s => s.toList.head?) h) (by simp)
  refine ⟨hfirst _, hfirst _, fun h => ?_⟩
  have hrest := (String.append_right_inj _).mp ((String.append_right_inj _).mp h)
  exact absurd (congrArg (fun s => s.toList.head?) hrest) (by simp)

/-- The library, as far as it deals with the texts of this trace and of its beginnings. -/
def twoStepsJson : Json TraceCacheFile where
  toStringPretty file := twoStepsText file.snapshots.length
  fromStr text :=
    if text = twoStepsText 0 then some ⟨[], some sampleStop.info⟩
    else if text = twoStepsText 1 then some ⟨twoStepsTrace.take 1, some sampleStop.info⟩
    else if text = twoStepsText 2 then some ⟨twoStepsTrace, some sampleStop.info⟩
    else none

/-- It reads them back. -/
theorem roundTrips_twoSteps {snapshots : List StepSnapshot} (h : snapshots <+: twoStepsTrace) :
    twoStepsJson.RoundTrips ⟨snapshots, some sampleStop.info⟩ := by
  obtain ⟨hzero, hzero', hone⟩ := stepsText_ne
  have htake := List.prefix_iff_eq_take.mp h
  have hlen : snapshots.length ≤ 2 := h.length_le
  rw [Json.RoundTrips, twoStepsJson]
  dsimp only
  generalize snapshots.length = n at htake hlen
  subst htake
  match n, hlen with
  | 0, _ => rw [if_pos rfl, List.take_zero]
  | 1, _ =>
    rw [if_neg fun h => hzero (stepsText_of_twoStepsText h).symm, if_pos rfl]
  | 2, _ =>
    rw [if_neg fun h => hzero' (stepsText_of_twoStepsText h).symm,
      if_neg fun h => hone (stepsText_of_twoStepsText h).symm, if_pos rfl]
    rfl

/-- The session is given the two steps; they are stepped through before the task asks for them; and
the session made from the file starts at the first one. -/
theorem fromCache_twoSteps :
    ∃ (w₁ w₂ : World) (file : TraceCacheFile),
      Runs.run World.step (Origin.new.world 0)
        [.send (executorMessage twoStepsTrace (.ok sampleStop)), .waitTake, .waitRecv 0,
          .waitPublish 0] = some w₁ ∧
      Runs.run World.step w₁ [.stepInto, .stepOver] = some w₂ ∧
      w₂.session.data = .ready twoStepsTrace 2 (some sampleStop.info) ∧
      ∀ later commands, (World.fromCache file.snapshots file.result later).responses commands =
        w₁.responses commands := by
  let w₀ := (Runs.run World.step (Origin.new.world 0)
    [.send (executorMessage twoStepsTrace (.ok sampleStop)), .waitTake, .waitRecv 0]).get rfl
  let w₁ := (w₀.step (.waitPublish 0)).get rfl
  have hrun : Runs.run World.step (Origin.new.world 0)
      [.send (executorMessage twoStepsTrace (.ok sampleStop)), .waitTake, .waitRecv 0] =
    some w₀ := rfl
  have hpublish : w₀.step (.waitPublish 0) = some w₁ := rfl
  have hmore : Runs.run World.step w₁ [.stepInto, .stepOver] = some _ := rfl
  have hsave : saveTraceCache twoStepsJson (fun _ => none) "cache/trace_1_7_00.json" twoStepsTrace
      (some sampleStop.info) true = (_, .ok ()) := rfl
  obtain ⟨file, -, hsame⟩ := fromCache_equivalent hrun hpublish rfl hmore rfl
    (roundTrips_twoSteps List.prefix_rfl) hsave
  exact ⟨w₁, _, file, rfl, hmore, rfl, hsame⟩

end EvmDebugger
