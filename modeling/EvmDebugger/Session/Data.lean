import EvmDebugger.Types
import Mathlib.Data.List.Basic

/-!
# The data of a session

What a session keeps behind its lock, and what each operation does with it while it holds the
lock: `session.rs`, one definition for each critical section. An operation answers with a
`EvmDebugger.SessionState`; the ones that may change the data return it first.

The only loop is the scan of `step_over` for a step that is no deeper than the present one.
`EvmDebugger.SessionData.skipDeeper_spec` says where it stops, and
`EvmDebugger.SessionData.exists_stepOver` what that means for the session.

What a command may turn the data into is `EvmDebugger.SessionData.Served`: an aborted session
stays as it is; an error stays until the session is aborted; and a trace that is there stays
there, with an index that only grows and does not pass the end. Only a message gives a
loading session anything else (`EvmDebugger.SessionData.Moves`).
-/

namespace EvmDebugger

/-- Internal session data, stored once the virtual machine finishes. -/
inductive SessionData where
  | loading
  | ready (snapshots : List StepSnapshot) (currentIndex : ℕ)
      (result : Option ExecutionResultInfo)
  | aborted
  | error (message : String)
  deriving DecidableEq

namespace SessionData

/-! ### The critical sections -/

/-- The state at an index: a snapshot, or past the last one the result of the execution. -/
def stateAt (snapshots : List StepSnapshot) (index : ℕ) (result : Option ExecutionResultInfo) :
    SessionState :=
  match snapshots[index]? with
  | some snapshot => .paused snapshot
  | none =>
    match result with
    | some r => .finished r
    | none => .aborted

/-- The state as a client sees it. -/
def currentStateLocked : SessionData → SessionState
  | loading => .loading
  | ready snapshots index result => stateAt snapshots index result
  | aborted => .aborted
  | error message => .error message

/-- Advance one step. -/
def stepInto : SessionData → SessionData × SessionState
  | ready snapshots index result =>
    let index := min (index + 1) snapshots.length
    (ready snapshots index result, stateAt snapshots index result)
  | data => (data, data.currentStateLocked)

/-- The `while` loop of `step_over`: the snapshots from `index` on, as long as they are deeper
than `targetDepth`, are passed over. -/
def skipDeeper (targetDepth : ℕ) : List StepSnapshot → ℕ → ℕ
  | [], index => index
  | snapshot :: rest, index =>
    if snapshot.callDepth > targetDepth then skipDeeper targetDepth rest (index + 1) else index

/-- Advance past the current call depth. -/
def stepOver : SessionData → SessionData × SessionState
  | ready snapshots index result =>
    match snapshots[index]? with
    | none => (ready snapshots index result, stateAt snapshots index result)
    | some snapshot =>
      let index := skipDeeper snapshot.callDepth (snapshots.drop (index + 1)) (index + 1)
      (ready snapshots index result, stateAt snapshots index result)
  | data => (data, data.currentStateLocked)

/-- Jump to the end of the execution. -/
def continueExec : SessionData → SessionData × SessionState
  | ready snapshots _ result =>
    (ready snapshots snapshots.length result, stateAt snapshots snapshots.length result)
  | data => (data, data.currentStateLocked)

/-- The second action of `abort`: whatever the data was, the session is aborted. -/
def abort : SessionData → SessionData := fun _ => aborted

/-- The lightweight trace. -/
def getTraceSteps : SessionData → List TraceStep
  | ready snapshots _ _ => snapshots.map fun s =>
    { step := s.stepNumber
      pc := s.pc
      opcode := s.opcode
      opcodeName := s.opcodeName }
  | _ => []

/-- What is written to the trace cache, if anything. -/
def snapshotsForCache :
    SessionData → Option (List StepSnapshot × Option ExecutionResultInfo)
  | ready snapshots _ result => some (snapshots, result)
  | _ => none

/-- The critical section of `wait_for_snapshots`: unless the session has been aborted, the
message becomes its data. -/
def publish (msg : ChannelMessage) : SessionData → SessionData × SessionState
  | aborted => (aborted, .aborted)
  | _ =>
    match msg with
    | .allSnapshots [] result =>
      (ready [] 0 result,
        match result with
        | some r => .finished r
        | none => .error "Execution produced no steps")
    | .allSnapshots (first :: rest) result => (ready (first :: rest) 0 result, .paused first)
    | .error message => (error message, .error message)

/-- What a message turns the data into, when it is published. -/
def ofMessage : ChannelMessage → SessionData
  | .allSnapshots snapshots result => ready snapshots 0 result
  | .error message => error message

theorem publish_aborted (msg : ChannelMessage) : (publish msg aborted).1 = aborted := rfl

/-- Published to a session that is not aborted, the message decides. -/
theorem publish_of_ne_aborted (msg : ChannelMessage) {data : SessionData}
    (h : data ≠ aborted) : (publish msg data).1 = ofMessage msg := by
  rcases msg with ⟨_ | ⟨first, rest⟩, result⟩ | message <;> cases data <;>
    first | rfl | exact absurd rfl h

/-! ### Stepping over -/

/-- **Where the scan stops**: after `n` snapshots that are all deeper, at one that is not or at
the end. -/
theorem skipDeeper_spec (t : ℕ) (l : List StepSnapshot) (i : ℕ) :
    ∃ n, skipDeeper t l i = i + n ∧ n ≤ l.length ∧
      (∀ k s, k < n → l[k]? = some s → t < s.callDepth) ∧
      ∀ s, l[n]? = some s → s.callDepth ≤ t := by
  induction l generalizing i with
  | nil => exact ⟨0, rfl, le_rfl, fun k s hk => absurd hk (Nat.not_lt_zero k), fun s hs => by
      simp at hs⟩
  | cons x l ih =>
    by_cases hx : x.callDepth > t
    · obtain ⟨n, hn, hle, hdeep, hstop⟩ := ih (i + 1)
      refine ⟨n + 1, ?_, Nat.succ_le_succ hle, ?_, ?_⟩
      · rw [skipDeeper, if_pos hx, hn]
        omega
      · rintro (_ | k) s hk hs
        · obtain rfl : x = s := Option.some.inj hs
          exact hx
        · exact hdeep k s (Nat.lt_of_succ_lt_succ hk) hs
      · exact hstop
    · refine ⟨0, ?_, Nat.zero_le _, fun k s hk => absurd hk (Nat.not_lt_zero k), ?_⟩
      · rw [skipDeeper, if_neg hx]
        rfl
      · intro s hs
        obtain rfl : x = s := Option.some.inj hs
        exact not_lt.mp hx

/-- **What `step_over` does** from a snapshot: it goes to the first later one that is no
deeper, or else to the end. -/
theorem exists_stepOver {snapshots : List StepSnapshot} {i : ℕ} {s : StepSnapshot}
    (hs : snapshots[i]? = some s) (result : Option ExecutionResultInfo) :
    ∃ j, stepOver (ready snapshots i result)
        = (ready snapshots j result, stateAt snapshots j result) ∧
      i < j ∧ j ≤ snapshots.length ∧
      (∀ k u, i < k → k < j → snapshots[k]? = some u → s.callDepth < u.callDepth) ∧
      ∀ u, snapshots[j]? = some u → u.callDepth ≤ s.callDepth := by
  obtain ⟨n, hn, hle, hdeep, hstop⟩ :=
    skipDeeper_spec s.callDepth (snapshots.drop (i + 1)) (i + 1)
  have hlt : i < snapshots.length := (List.getElem?_eq_some_iff.mp hs).1
  rw [List.length_drop] at hle
  refine ⟨i + 1 + n, ?_, by omega, by omega, ?_, ?_⟩
  · simp only [stepOver, hs, hn]
  · intro k u hik hkj hu
    obtain ⟨m, rfl⟩ : ∃ m, k = i + 1 + m := ⟨k - (i + 1), by omega⟩
    exact hdeep m u (by omega) (by rwa [List.getElem?_drop])
  · intro u hu
    exact hstop u (by rwa [List.getElem?_drop])

/-! ### What the navigation commands answer -/

/-- **A navigation command answers with the state it leaves behind.** -/
theorem stepInto_snd (data : SessionData) :
    data.stepInto.2 = data.stepInto.1.currentStateLocked := by
  cases data <;> rfl

theorem stepOver_snd (data : SessionData) :
    data.stepOver.2 = data.stepOver.1.currentStateLocked := by
  cases data with
  | ready snapshots i result =>
    rw [stepOver]
    split <;> rfl
  | _ => rfl

theorem continueExec_snd (data : SessionData) :
    data.continueExec.2 = data.continueExec.1.currentStateLocked := by
  cases data <;> rfl

/-- The data are the same up to the index. -/
def SameTrace (data data' : SessionData) : Prop :=
  data' = data ∨ ∃ snapshots i j result,
    data = ready snapshots i result ∧ data' = ready snapshots j result

/-- **A navigation command changes the index and nothing else.** -/
theorem sameTrace_stepInto (data : SessionData) : SameTrace data data.stepInto.1 := by
  cases data with
  | ready snapshots i result => exact Or.inr ⟨snapshots, i, _, result, rfl, rfl⟩
  | _ => exact Or.inl rfl

theorem sameTrace_stepOver (data : SessionData) : SameTrace data data.stepOver.1 := by
  cases data with
  | ready snapshots i result =>
    rw [stepOver]
    split
    · exact Or.inl rfl
    · exact Or.inr ⟨snapshots, i, _, result, rfl, rfl⟩
  | _ => exact Or.inl rfl

theorem sameTrace_continueExec (data : SessionData) : SameTrace data data.continueExec.1 := by
  cases data with
  | ready snapshots i result => exact Or.inr ⟨snapshots, i, _, result, rfl, rfl⟩
  | _ => exact Or.inl rfl

/-! ### What the data may turn into -/

/-- **What a command may turn the data into.** -/
def Served : SessionData → SessionData → Prop
  | loading, data => data = aborted ∨ data = loading
  | ready snapshots i result, data =>
    data = aborted ∨ ∃ j, i ≤ j ∧ j ≤ snapshots.length ∧ data = ready snapshots j result
  | error message, data => data = aborted ∨ data = error message
  | aborted, data => data = aborted

/-- **The moves of a session**: those of a command, and from loading to what a message says. -/
def Moves (data data' : SessionData) : Prop :=
  Served data data' ∨ data = loading ∧ ∃ msg, data' = ofMessage msg

/-- The index of a trace is not past its end. -/
def IndexOk : SessionData → Prop
  | ready snapshots i _ => i ≤ snapshots.length
  | _ => True

/-- The session has no trace yet, or never will. -/
def Waiting (data : SessionData) : Prop := data = loading ∨ data = aborted

/-- Nothing need happen. -/
theorem Served.refl {data : SessionData} (h : data.IndexOk) : Served data data := by
  cases data with
  | loading => exact Or.inr rfl
  | ready snapshots i result => exact Or.inr ⟨i, le_rfl, h, rfl⟩
  | error message => exact Or.inr rfl
  | aborted => rfl

/-- **One command after another** does no more than a command may. -/
theorem Served.trans {d₁ d₂ d₃ : SessionData} (h₁ : Served d₁ d₂) (h₂ : Served d₂ d₃) :
    Served d₁ d₃ := by
  have habort : d₂ = aborted → Served d₁ d₃ := by
    rintro rfl
    obtain rfl : d₃ = aborted := h₂
    cases d₁ with
    | aborted => rfl
    | _ => exact Or.inl rfl
  cases d₁ with
  | aborted => exact habort h₁
  | loading =>
    rcases h₁ with h | rfl
    · exact habort h
    · exact h₂
  | error message =>
    rcases h₁ with h | rfl
    · exact habort h
    · exact h₂
  | ready snapshots i result =>
    rcases h₁ with h | ⟨j, hij, -, rfl⟩
    · exact habort h
    · rcases h₂ with rfl | ⟨k, hjk, hk, rfl⟩
      · exact Or.inl rfl
      · exact Or.inr ⟨k, hij.trans hjk, hk, rfl⟩

/-- A command keeps the index in range. -/
theorem Served.indexOk {data data' : SessionData} (hm : Served data data') (h : data.IndexOk) :
    data'.IndexOk := by
  cases data with
  | loading => rcases hm with rfl | rfl <;> trivial
  | ready snapshots i result =>
    rcases hm with rfl | ⟨j, -, hj, rfl⟩
    · trivial
    · exact hj
  | error message => rcases hm with rfl | rfl <;> trivial
  | aborted => exact (show data' = aborted from hm) ▸ trivial

/-- No command gives a session a trace. -/
theorem Served.waiting {data data' : SessionData} (hm : Served data data') (h : data.Waiting) :
    data'.Waiting := by
  rcases h with rfl | rfl
  · exact hm.symm
  · exact Or.inr hm

/-- No command gives a session another trace. -/
theorem Served.ready_of {data : SessionData} {snapshots : List StepSnapshot} {j : ℕ}
    {result : Option ExecutionResultInfo} (hm : Served data (ready snapshots j result)) :
    ∃ i, data = ready snapshots i result := by
  cases data with
  | loading => rcases hm with h | h <;> exact absurd h (by simp)
  | ready snapshots' i result' =>
    rcases hm with h | ⟨j', -, -, h⟩
    · exact absurd h (by simp)
    · obtain ⟨rfl, -, rfl⟩ := ready.inj h
      exact ⟨i, rfl⟩
  | aborted => exact absurd (show ready snapshots j result = aborted from hm) (by simp)
  | error message => rcases hm with h | h <;> exact absurd h (by simp)

theorem served_stepInto {data : SessionData} (h : data.IndexOk) :
    Served data data.stepInto.1 := by
  cases data with
  | ready snapshots i result =>
    exact Or.inr ⟨min (i + 1) snapshots.length, le_min (Nat.le_succ i) h, min_le_right _ _, rfl⟩
  | _ => exact Served.refl h

theorem served_stepOver {data : SessionData} (h : data.IndexOk) :
    Served data data.stepOver.1 := by
  cases data with
  | ready snapshots i result =>
    cases hs : snapshots[i]? with
    | none =>
      have hstay : (stepOver (ready snapshots i result)).1 = ready snapshots i result := by
        simp only [stepOver, hs]
      rw [hstay]
      exact Served.refl h
    | some s =>
      obtain ⟨j, hj, hij, hle, -⟩ := exists_stepOver hs result
      exact Or.inr ⟨j, hij.le, hle, congrArg Prod.fst hj⟩
  | _ => exact Served.refl h

theorem served_continueExec {data : SessionData} (h : data.IndexOk) :
    Served data data.continueExec.1 := by
  cases data with
  | ready snapshots i result => exact Or.inr ⟨snapshots.length, h, le_rfl, rfl⟩
  | _ => exact Served.refl h

theorem served_abort (data : SessionData) : Served data data.abort := by
  cases data with
  | aborted => rfl
  | _ => exact Or.inl rfl

/-- A message published to a session without a trace makes a move. That it is published to no
other is the business of the receiver. -/
theorem moves_publish (msg : ChannelMessage) {data : SessionData} (h : data.Waiting) :
    Moves data (publish msg data).1 := by
  rcases h with rfl | rfl
  · exact Or.inr ⟨rfl, msg, publish_of_ne_aborted msg (by simp)⟩
  · exact Or.inl rfl

/-- The trace a publication leaves behind is that of the message. -/
theorem ready_of_publish {msg : ChannelMessage} {data : SessionData}
    {snapshots : List StepSnapshot} {i : ℕ} {result : Option ExecutionResultInfo}
    (h : (publish msg data).1 = ready snapshots i result) :
    msg = .allSnapshots snapshots result := by
  by_cases ha : data = aborted
  · rw [ha, publish_aborted] at h
    exact absurd h (by simp)
  · rw [publish_of_ne_aborted msg ha] at h
    cases msg with
    | allSnapshots snapshots' result' =>
      obtain ⟨rfl, -, rfl⟩ := ready.inj h
      rfl
    | error message => exact absurd h (by simp [ofMessage])

theorem snapshotsForCache_eq_some {data : SessionData} {snapshots : List StepSnapshot}
    {result : Option ExecutionResultInfo} (h : data.snapshotsForCache = some (snapshots, result)) :
    ∃ i, data = ready snapshots i result := by
  cases data with
  | ready snapshots' i result' =>
    obtain ⟨rfl, rfl⟩ := Prod.mk.inj (Option.some.inj h)
    exact ⟨i, rfl⟩
  | _ => exact absurd h (by simp [snapshotsForCache])

theorem indexOk_ofMessage (msg : ChannelMessage) : (ofMessage msg).IndexOk := by
  cases msg with
  | allSnapshots snapshots result => exact Nat.zero_le _
  | error message => trivial

end SessionData

end EvmDebugger
