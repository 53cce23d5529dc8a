import EvmDebugger.Inspector.Accounts

/-!
# The storage a snapshot shows

Every snapshot carries a map of maps: contracts, their slots, and the values written to them, all
of them text. It is built up over the whole transaction, and no part of it says which step it came
from. `EvmDebugger.storageChanges_iff` does: where no constructor writes storage, the map shows a
value for a slot of an account exactly if some step so far has written it, in a frame that works on
that account, and no step since has written the slot again.

Which frames were open in between, and by what kind of call, does not come into it: a step belongs
to the innermost frame, and that frame's call says which account it works on. Nor does it matter
how a frame ends. The map shows what has been written, and where no frame fails, that is what the
accounts hold.
-/

namespace EvmDebugger

/-- **The step writes a value to a slot of an account**: it is an `SSTORE`, executed in a frame
that was opened by a call with that target address. -/
def ExecutedStep.Stores (st : ExecutedStep) (a : Address) (s v : U256) : Prop :=
  (∃ f fs inputs, st.frames = f :: fs ∧ f.input = .call inputs ∧ inputs.targetAddress = a) ∧
    st.operands = some (s, v)

/-- A step in a call works on the account that was called. -/
theorem ExecutedStep.exists_call {st : ExecutedStep} (hok : Execution.StepOk st)
    (h : st.inCall = true) :
    ∃ f fs inputs, st.frames = f :: fs ∧ f.input = .call inputs ∧
      inputs.targetAddress = st.interp.targetAddress := by
  obtain ⟨⟨id, input, running⟩, fs, hfs, -, has⟩ := hok
  rw [inCall, hfs] at h
  cases input with
  | call inputs => exact ⟨_, fs, inputs, hfs, rfl, Eq.symm has⟩
  | create inputs => exact absurd h (by simp)

/-- **The effect of a step**, in terms of its frame. -/
theorem ExecutedStep.effect_eq_some_iff {st : ExecutedStep} (hok : Execution.StepOk st)
    (hcall : st.interp.opcode = 0x55 → st.inCall = true) {a : Address} {s v : U256} :
    st.effect = some ((a, s), v) ↔ st.Stores a s v := by
  rw [effect, Option.map_eq_some_iff]
  constructor
  · rintro ⟨⟨key, value⟩, hstore, heq⟩
    obtain ⟨⟨rfl, rfl⟩, rfl⟩ : (_ = a ∧ key = s) ∧ value = v := by simpa using heq
    have hop : st.interp.opcode = 0x55 := by
      by_contra hne
      rw [operands, if_neg hne] at hstore
      exact absurd hstore (by simp)
    exact ⟨exists_call hok (hcall hop), hstore⟩
  · rintro ⟨⟨f, fs, inputs, hfs, hinput, rfl⟩, hstore⟩
    obtain ⟨f', fs', hfs', -, has⟩ := hok
    obtain ⟨rfl, -⟩ := List.cons.inj (hfs.symm.trans hfs')
    rw [hinput] at has
    exact ⟨(s, v), hstore, by rw [show st.interp.targetAddress = inputs.targetAddress from has]⟩

/-- **What every snapshot shows of the storage.** In every run of hooks in which no constructor
writes storage, the snapshot `k` shows the value `v` for the slot `s` of the account `a` exactly if
some step up to `k` wrote it there, and none of the steps after that one, up to `k`, wrote to the
slot; and different slots and values are never shown as the same text. -/
theorem storageChanges_iff (opCode : UInt8 → Option String) (maxMemoryBytes : Option String)
    {events : List (Hook × Bool)} {e : Execution} (h : Execution.run events = some e)
    (hcalls : ∀ st ∈ e.recorded, st.interp.opcode = 0x55 → st.inCall = true) {k : ℕ}
    {snap : StepSnapshot}
    (hsnap : ((StepDebugInspector.new maxMemoryBytes).hooks opCode events).snapshots[k]? =
      some snap) (a : Address) (s v : U256) :
    (snap.storageChanges.slot (hexAddress a, hexWord s) = some (hexWord v) ↔
        ∃ j st, j ≤ k ∧ e.recorded[j]? = some st ∧ st.Stores a s v ∧
          ∀ m st', j < m → m ≤ k → e.recorded[m]? = some st' → ∀ v', ¬st'.Stores a s v') ∧
      ∀ u w : U256, hexWord u = hexWord w → u = w := by
  have htracks := tracks_of_run opCode maxMemoryBytes h
  have hok : ∀ st ∈ e.recorded, Execution.StepOk st := fun st hst =>
    (Execution.ok_of_run h).steps st (List.mem_of_mem_filter hst)
  have hk : k < e.recorded.length := htracks.length ▸ (List.getElem?_eq_some_iff.mp hsnap).1
  have hslot := htracks.slot_eq (fun st hst => ExecutedStep.note_eq_effect_of_shown (hok st hst)
    fun hop => Or.inl (hcalls st hst hop)) hk hsnap (a, s)
  -- a step up to `k` is one of the first `k + 1`
  have htake : ∀ {j : ℕ} {st : ExecutedStep},
      (e.recorded.take (k + 1))[j]? = some st ↔ j ≤ k ∧ e.recorded[j]? = some st := by
    intro j st
    rw [List.getElem?_take]
    split
    · next hj => simp [Nat.lt_succ_iff.mp hj]
    · next hj => simp [show ¬j ≤ k by omega]
  have hstores : ∀ {j : ℕ} {st : ExecutedStep} {v' : U256}, e.recorded[j]? = some st →
      (st.effect = some ((a, s), v') ↔ st.Stores a s v') := fun {j st v'} hj =>
    ExecutedStep.effect_eq_some_iff (hok st (List.mem_of_getElem? hj))
      (hcalls st (List.mem_of_getElem? hj))
  refine ⟨?_, fun u w => hexWord_inj⟩
  rw [show (hexAddress a, hexWord s) = renderSlot (a, s) from rfl, hslot, Option.map_eq_some_iff]
  constructor
  · rintro ⟨v', hlast, hv⟩
    obtain rfl := hexWord_inj hv
    obtain ⟨j, st, hj, heffect, hlater⟩ := Writes.last_filterMap_eq_some_iff.mp hlast
    obtain ⟨hjk, hst⟩ := htake.mp hj
    refine ⟨j, st, hjk, hst, (hstores hst).mp heffect, fun m st' hjm hmk hst' v'' hstore => ?_⟩
    exact hlater m st' _ hjm (htake.mpr ⟨hmk, hst'⟩) ((hstores hst').mpr hstore) rfl
  · rintro ⟨j, st, hjk, hst, hstore, hlater⟩
    have hwrite := (hstores hst).mpr hstore
    refine ⟨v, Writes.last_filterMap_eq_some_iff.mpr
      ⟨j, st, htake.mpr ⟨hjk, hst⟩, hwrite, fun m st' w hjm hst' hw hkey => ?_⟩, rfl⟩
    obtain ⟨hmk, hst'⟩ := htake.mp hst'
    obtain ⟨key, v'⟩ := w
    obtain rfl : key = (a, s) := hkey
    exact hlater m st' hjm hmk hst' v' ((hstores hst').mp hw)

/-- The account `0xa` calls `0xb`, which calls `0xa` again. The inner frame writes `5` to a slot,
and the outer one writes `6` to it when it goes on. -/
def reentry : List (Hook × Bool) :=
  [(.call (sampleCall 0x1 0xa) 0, false),
    (.initializeInterp (sampleInterp 0xa 0xf1 (.new 100) []), false),
    (.step (sampleInterp 0xa 0xf1 (.new 100) []) 1, false),
    (.call (sampleCall 0xa 0xb) 1, false),
    (.initializeInterp (sampleInterp 0xb 0xf1 (.new 60) []), false),
    (.step (sampleInterp 0xb 0xf1 (.new 60) []) 2, false),
    (.call (sampleCall 0xb 0xa) 2, false),
    (.initializeInterp (sampleInterp 0xa 0x55 (.new 30) []), false),
    (.step (sampleInterp 0xa 0x55 (.new 30) [5, 1]) 3, false),
    (.callEnd (sampleCall 0xb 0xa) .success, false),
    (.callEnd (sampleCall 0xa 0xb) .success, false),
    (.step (sampleInterp 0xa 0x55 (.new 100) [6, 1]) 1, false),
    (.callEnd (sampleCall 0x1 0xa) .success, false)]

/-- The last snapshot shows the second value, which nothing has overwritten. -/
theorem storageChanges_reentry :
    ∃ snap, ((StepDebugInspector.new none).hooks sampleOpCode reentry).snapshots[3]? =
        some snap ∧
      snap.storageChanges.slot (hexAddress 0xa, hexWord 1) = some (hexWord 6) := by
  obtain ⟨e, he, hcalls, st, hst, hstores⟩ : ∃ e, Execution.run reentry = some e ∧
      (∀ st ∈ e.recorded, st.interp.opcode = 0x55 → st.inCall = true) ∧
      ∃ st, e.recorded[3]? = some st ∧ st.Stores 0xa 1 6 :=
    ⟨(Execution.run reentry).get (by decide), (Option.some_get _).symm, by decide, _, rfl,
      ⟨⟨_, _, _, rfl, rfl, rfl⟩, rfl⟩⟩
  have hsnap : ((StepDebugInspector.new none).hooks sampleOpCode reentry).snapshots[3]? =
    some _ := rfl
  refine ⟨_, hsnap, (storageChanges_iff sampleOpCode none he hcalls hsnap 0xa 1 6).1.mpr ?_⟩
  refine ⟨3, st, le_rfl, hst, hstores, fun m st' hm hmk _ => ?_⟩
  exact absurd hm (not_lt.mpr hmk)

end EvmDebugger
