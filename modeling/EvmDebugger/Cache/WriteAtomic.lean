import EvmDebugger.Cache.TraceCache
import EvmDebugger.Lib.Disk
import EvmDebugger.Lib.Runs

/-!
# Writing a file atomically

`fs_utils.rs`: `write_atomic` makes the directory, writes everything to a file of its own, with a
name nobody else has, and then renames it. Each of its steps is a request to the file system, and
between any two of them others go on: other calls for the same path, readers, and
`cleanup_cache_dir`, which removes whatever name it likes, the temporary ones included. Any step of
a call may fail, and the call ends there.

The path never stands for a file that is still written to: it is the file that was there in the
beginning, or one that a call has renamed after it had written all of it
(`EvmDebugger.Writers.Settled`), and to such a file nobody writes again. A reader that has opened
it can take its time. `EvmDebugger.reads_whole` is what follows for those who read, and for the
calls that fail.
-/

namespace EvmDebugger

/-! ### Calls -/

/-- `Path::parent`, for a path without empty components; nothing where there is no parent. -/
def parentDir (path : String) : String :=
  String.ofList (path.toList.reverse.dropWhile (· ≠ '/')).tail.reverse

/-- **The calls of `write_atomic` for one path**, as many as there will ever be: the contents, and
the identifier that makes the name of the temporary file. No identifier is used twice. -/
structure Writers where
  path : String
  contents : ℕ → String
  uuid : ℕ → String
  uuid_inj : Function.Injective uuid

/-- How far a call has come. The file that it writes to is its inode. -/
inductive WriteStage where
  | idle
  | dirReady
  | writing (inode offset : ℕ)
  | failed (message : String)
  | renamed (inode : ℕ)
  deriving DecidableEq

/-- The file of a call. -/
def WriteStage.inode : WriteStage → Option ℕ
  | writing inode _ | renamed inode => some inode
  | idle | dirReady | failed _ => none

/-- The call has renamed its file. -/
def WriteStage.isRenamed : WriteStage → Bool
  | renamed _ => true
  | idle | dirReady | writing .. | failed _ => false

theorem WriteStage.eq_renamed {stage : WriteStage} (h : stage.isRenamed = true) :
    ∃ inode, stage = renamed inode := by
  cases stage with
  | renamed inode => exact ⟨inode, rfl⟩
  | idle => exact absurd h (by simp [isRenamed])
  | dirReady => exact absurd h (by simp [isRenamed])
  | writing inode offset => exact absurd h (by simp [isRenamed])
  | failed message => exact absurd h (by simp [isRenamed])

theorem WriteStage.isRenamed_eq_false {stage : WriteStage} (h : ∀ inode, stage ≠ renamed inode) :
    stage.isRenamed = false := by
  cases stage with
  | renamed inode => exact absurd rfl (h inode)
  | idle => rfl
  | dirReady => rfl
  | writing inode offset => rfl
  | failed message => rfl

/-- How far a reader has come: what it has got so far, or what it has found in the end. -/
inductive ReadStage where
  | idle
  | missing
  | reading (inode : ℕ) (got : List UInt8)
  | failed
  | complete (inode : ℕ) (bytes : List UInt8)
  deriving DecidableEq

/-- The file system, the calls, and the readers. -/
structure Traffic where
  disk : Disk String UInt8
  writers : ℕ → WriteStage
  readers : ℕ → ReadStage

/-- A request to the file system; `ok` says whether it succeeds. -/
inductive DiskAction where
  /-- `create_dir_all`, where there is a parent. -/
  | createDir (call : ℕ) (ok : Bool)
  /-- Opening the temporary file. -/
  | create (call : ℕ) (ok : Bool)
  /-- Writing the next bytes to it. -/
  | write (call count : ℕ) (ok : Bool)
  /-- Renaming it. -/
  | rename (call : ℕ) (ok : Bool)
  /-- A reader opens the path. -/
  | openRead (reader : ℕ)
  /-- It reads the next bytes. -/
  | read (reader count : ℕ) (ok : Bool)
  /-- A file is removed. -/
  | removeFile (name : String)
  deriving DecidableEq

/-- The call that a request belongs to. -/
def DiskAction.call : DiskAction → Option ℕ
  | createDir k _ | create k _ | write k _ _ | rename k _ => some k
  | openRead _ | read .. | removeFile _ => none

namespace Traffic

/-- Nobody has done anything yet. -/
def init (disk : Disk String UInt8) : Traffic where
  disk := disk
  writers _ := .idle
  readers _ := .idle

/-- A call comes to another stage. -/
def setWriter (t : Traffic) (k : ℕ) (stage : WriteStage) : Traffic :=
  { t with writers := Function.update t.writers k stage }

/-- The file system changes. -/
def setDisk (t : Traffic) (disk : Disk String UInt8) : Traffic := { t with disk := disk }

/-- A reader comes to another stage. -/
def setReader (t : Traffic) (r : ℕ) (stage : ReadStage) : Traffic :=
  { t with readers := Function.update t.readers r stage }

end Traffic

namespace Writers

/-- The bytes of the contents. -/
def bytes (w : Writers) (k : ℕ) : List UInt8 := (w.contents k).toUTF8.data.toList

/-- The name of the temporary file. -/
def tmpPath (w : Writers) (k : ℕ) : String := w.path ++ ".tmp." ++ w.uuid k

/-- Different calls have different temporary files. -/
theorem tmpPath_inj (w : Writers) {k k' : ℕ} (h : w.tmpPath k = w.tmpPath k') : k = k' :=
  w.uuid_inj ((String.append_right_inj _).mp h)

/-- A temporary file is not the file itself. -/
theorem path_ne_tmpPath (w : Writers) (k : ℕ) : w.path ≠ w.tmpPath k := by
  intro h
  have hlen := congrArg (fun s => s.toList.length) h
  rw [tmpPath] at hlen
  simp at hlen

/-- **A request**, where it can be made: a call makes its own in order, each once, and does not go
on after one has failed. -/
def step (w : Writers) (t : Traffic) : DiskAction → Option Traffic
  | .createDir k ok =>
    match t.writers k with
    | .idle =>
      -- without a parent nothing is made, and nothing can go wrong
      if parentDir w.path = "" ∨ ok then some (t.setWriter k .dirReady)
      else some (t.setWriter k (.failed ("create dir " ++ parentDir w.path)))
    | _ => none
  | .create k ok =>
    match t.writers k with
    | .dirReady =>
      if ok then
        let (disk, inode) := t.disk.create (w.tmpPath k)
        some ((t.setWriter k (.writing inode 0)).setDisk disk)
      else some (t.setWriter k (.failed ("writing temp " ++ w.tmpPath k)))
    | _ => none
  | .write k count ok =>
    match t.writers k with
    | .writing inode offset =>
      if offset < (w.bytes k).length then
        if ok then
          -- a write may be a short one; `fs::write` goes on until everything is written
          let chunk := ((w.bytes k).drop offset).take count
          some ((t.setWriter k (.writing inode (offset + chunk.length))).setDisk
            (t.disk.write inode offset chunk))
        else some (t.setWriter k (.failed ("writing temp " ++ w.tmpPath k)))
      else none
    | _ => none
  | .rename k ok =>
    match t.writers k with
    | .writing inode offset =>
      if offset = (w.bytes k).length then
        if ok then
          match t.disk.rename (w.tmpPath k) w.path with
          -- the temporary file has been removed: this can only fail
          | none => none
          | some disk => some ((t.setWriter k (.renamed inode)).setDisk disk)
        else
          some (t.setWriter k (.failed ("renaming " ++ w.tmpPath k ++ " -> " ++ w.path)))
      else none
    | _ => none
  | .openRead r =>
    match t.readers r with
    | .idle =>
      match t.disk.names w.path with
      | none => some (t.setReader r .missing)
      | some inode => some (t.setReader r (.reading inode []))
    | _ => none
  | .read r count ok =>
    match t.readers r with
    | .reading inode got =>
      if ok then
        if 0 < count then
          match t.disk.read inode got.length count with
          -- the end of the file, as far as this reader can tell
          | [] => some (t.setReader r (.complete inode got))
          | chunk => some (t.setReader r (.reading inode (got ++ chunk)))
        else none
      else some (t.setReader r .failed)
    | _ => none
  | .removeFile name => some (t.setDisk (t.disk.unlink name))

variable {w : Writers} {t t' : Traffic} {a : DiskAction}

/-! ### What a request does -/

/-- **What a request can do**, by what becomes of the call or the reader it belongs to. -/
inductive Served (w : Writers) (t : Traffic) : DiskAction → Traffic → Prop
  | dirReady {k : ℕ} {ok : Bool} (h : t.writers k = .idle) :
      Served w t (.createDir k ok) (t.setWriter k .dirReady)
  | create {k : ℕ} (h : t.writers k = .dirReady) :
      Served w t (.create k true)
        ((t.setWriter k (.writing (t.disk.create (w.tmpPath k)).2 0)).setDisk
          (t.disk.create (w.tmpPath k)).1)
  | write {k count inode offset : ℕ} (h : t.writers k = .writing inode offset) :
      Served w t (.write k count true)
        ((t.setWriter k
            (.writing inode (offset + (((w.bytes k).drop offset).take count).length))).setDisk
          (t.disk.write inode offset (((w.bytes k).drop offset).take count)))
  | rename {k inode : ℕ} {disk : Disk String UInt8}
      (h : t.writers k = .writing inode (w.bytes k).length)
      (hdisk : t.disk.rename (w.tmpPath k) w.path = some disk) :
      Served w t (.rename k true) ((t.setWriter k (.renamed inode)).setDisk disk)
  | fail {a : DiskAction} {k : ℕ} {message : String} (ha : a.call = some k)
      (hrename : a ≠ .rename k true) (h : ∀ inode, t.writers k ≠ .renamed inode) :
      Served w t a (t.setWriter k (.failed message))
  | openRead {r inode : ℕ} (h : t.disk.names w.path = some inode) :
      Served w t (.openRead r) (t.setReader r (.reading inode []))
  | readMore {r count inode : ℕ} {got : List UInt8} (h : t.readers r = .reading inode got) :
      Served w t (.read r count true)
        (t.setReader r (.reading inode (got ++ t.disk.read inode got.length count)))
  | readEnd {r count inode : ℕ} {got : List UInt8} (h : t.readers r = .reading inode got)
      (hcount : 0 < count) (hnil : t.disk.read inode got.length count = []) :
      Served w t (.read r count true) (t.setReader r (.complete inode got))
  | readNothing {a : DiskAction} {r : ℕ} {stage : ReadStage} (ha : a.call = none)
      (h : stage = .missing ∨ stage = .failed) : Served w t a (t.setReader r stage)
  | removeFile {name : String} :
      Served w t (.removeFile name) (t.setDisk (t.disk.unlink name))

/-- **Every request is one of these.** -/
theorem served (h : w.step t a = some t') : Served w t a t' := by
  cases a with
  | createDir k ok =>
    simp only [step] at h
    split at h
    · next hstage =>
      split at h
      · obtain rfl := Option.some.inj h
        exact .dirReady hstage
      · obtain rfl := Option.some.inj h
        exact .fail rfl (by simp) (by simp [hstage])
    · exact absurd h (by simp)
  | create k ok =>
    simp only [step] at h
    split at h
    · next hstage =>
      split at h
      · next hok =>
        obtain rfl := Option.some.inj h
        subst hok
        exact .create hstage
      · obtain rfl := Option.some.inj h
        exact .fail rfl (by simp) (by simp [hstage])
    · exact absurd h (by simp)
  | write k count ok =>
    simp only [step] at h
    split at h
    · next inode offset hstage =>
      split at h
      · split at h
        · next hok =>
          obtain rfl := Option.some.inj h
          subst hok
          exact .write hstage
        · obtain rfl := Option.some.inj h
          exact .fail rfl (by simp) (by simp [hstage])
      · exact absurd h (by simp)
    · exact absurd h (by simp)
  | rename k ok =>
    simp only [step] at h
    split at h
    · next inode offset hstage =>
      split at h
      · next hoffset =>
        subst hoffset
        split at h
        · next hok =>
          subst hok
          split at h
          · exact absurd h (by simp)
          · next disk hdisk =>
            obtain rfl := Option.some.inj h
            exact .rename hstage hdisk
        · next hok =>
          obtain rfl := Option.some.inj h
          exact .fail rfl (by simpa using hok) (by simp [hstage])
      · exact absurd h (by simp)
    · exact absurd h (by simp)
  | openRead r =>
    simp only [step] at h
    split at h
    · split at h
      · obtain rfl := Option.some.inj h
        exact .readNothing rfl (Or.inl rfl)
      · next inode hname =>
        obtain rfl := Option.some.inj h
        exact .openRead hname
    · exact absurd h (by simp)
  | read r count ok =>
    simp only [step] at h
    split at h
    · next inode got hstage =>
      split at h
      · next hok =>
        subst hok
        split at h
        · next hcount =>
          split at h
          · next hnil =>
            obtain rfl := Option.some.inj h
            exact .readEnd hstage hcount hnil
          · obtain rfl := Option.some.inj h
            exact .readMore hstage
        · exact absurd h (by simp)
      · obtain rfl := Option.some.inj h
        exact .readNothing rfl (Or.inr rfl)
    · exact absurd h (by simp)
  | removeFile name =>
    obtain rfl := Option.some.inj h
    exact .removeFile

/-! ### The invariant -/

/-- **Nobody writes to the file any more**: it is the one that was there in the beginning, or a call
has renamed it. -/
def Settled (w : Writers) (disk₀ : Disk String UInt8) (writers : ℕ → WriteStage) (inode : ℕ) :
    Prop :=
  disk₀.names w.path = some inode ∨ ∃ k, writers k = .renamed inode

/-- **What a call relies on**: it writes to a file that it has made itself, that nobody finds under
another name, and that is there under its own name, if under any. -/
def Relies (w : Writers) (disk₀ disk : Disk String UInt8) (k : ℕ) : WriteStage → Prop
  | .idle | .dirReady => disk.names (w.tmpPath k) = none
  | .writing inode offset =>
    (disk₀.next ≤ inode ∧ inode < disk.next) ∧
      (offset ≤ (w.bytes k).length ∧ disk.data inode = (w.bytes k).take offset) ∧
      (∀ name, disk.names name = some inode → name = w.tmpPath k) ∧
      ∀ i, disk.names (w.tmpPath k) = some i → i = inode
  | .failed _ => True
  | .renamed inode => (disk₀.next ≤ inode ∧ inode < disk.next) ∧ disk.data inode = w.bytes k

/-- Different calls have different files. -/
def Owners (writers : ℕ → WriteStage) : Prop :=
  ∀ k k' i, (writers k).inode = some i → (writers k').inode = some i → k = k'

/-- **The invariant** of the file system and the calls. -/
structure Inv (w : Writers) (disk₀ disk : Disk String UInt8) (writers : ℕ → WriteStage) :
    Prop where
  next : disk₀.next ≤ disk.next
  initial : ∀ i < disk₀.next, disk.data i = disk₀.data i
  relies : ∀ k, w.Relies disk₀ disk k (writers k)
  owners : Owners writers
  target : ∀ i, disk.names w.path = some i → w.Settled disk₀ writers i

variable {disk₀ disk disk' : Disk String UInt8} {writers : ℕ → WriteStage} {k : ℕ}
  {stage : WriteStage}

/-- In the beginning. -/
theorem inv_init (hfresh : ∀ k, disk₀.names (w.tmpPath k) = none) :
    w.Inv disk₀ disk₀ (Traffic.init disk₀).writers where
  next := le_refl _
  initial _ _ := rfl
  relies k := hfresh k
  owners _ _ _ h := absurd h (by simp [Traffic.init, WriteStage.inode])
  target _ h := Or.inl h

/-- The file of a call is not one of the first ones. -/
theorem Relies.bounds {inode : ℕ} (h : w.Relies disk₀ disk k stage)
    (hinode : stage.inode = some inode) : disk₀.next ≤ inode ∧ inode < disk.next := by
  cases stage with
  | writing i offset =>
    obtain rfl := Option.some.inj hinode
    exact h.1
  | renamed i =>
    obtain rfl := Option.some.inj hinode
    exact h.1
  | idle => exact absurd hinode (by simp [WriteStage.inode])
  | dirReady => exact absurd hinode (by simp [WriteStage.inode])
  | failed message => exact absurd hinode (by simp [WriteStage.inode])

/-- **What others do to the file system does not matter to a call**, as long as they leave its file
alone, and give away neither its name nor its file. -/
theorem Relies.frame (h : w.Relies disk₀ disk k stage) (hnext : disk.next ≤ disk'.next)
    (htmp : ∀ i, disk'.names (w.tmpPath k) = some i → disk.names (w.tmpPath k) = some i)
    (hdata : ∀ i, stage.inode = some i → disk'.data i = disk.data i)
    (hnames : ∀ i, stage.inode = some i →
      ∀ name, disk'.names name = some i → disk.names name = some i) :
    w.Relies disk₀ disk' k stage := by
  have hnone : disk.names (w.tmpPath k) = none → disk'.names (w.tmpPath k) = none := by
    intro hnone
    cases hsome : disk'.names (w.tmpPath k) with
    | none => rfl
    | some i => exact absurd (hnone.symm.trans (htmp i hsome)) (by simp)
  cases stage with
  | idle => exact hnone h
  | dirReady => exact hnone h
  | failed message => trivial
  | writing inode offset =>
    obtain ⟨⟨hge, hlt⟩, hbytes, honly, hown⟩ := h
    refine ⟨⟨hge, Nat.lt_of_lt_of_le hlt hnext⟩,
      ⟨hbytes.1, (hdata inode rfl).trans hbytes.2⟩, ?_, ?_⟩
    · exact fun name hname => honly name (hnames inode rfl name hname)
    · exact fun i hi => hown i (htmp i hi)
  | renamed inode =>
    obtain ⟨⟨hge, hlt⟩, hbytes⟩ := h
    exact ⟨⟨hge, Nat.lt_of_lt_of_le hlt hnext⟩, (hdata inode rfl).trans hbytes⟩

/-- A file that is new, or that a call has already. -/
theorem Owners.update (h : Owners writers)
    (hnew : ∀ i, stage.inode = some i → ∀ k' ≠ k, (writers k').inode ≠ some i) :
    Owners (Function.update writers k stage) := by
  intro k₁ k₂ i h₁ h₂
  by_cases hk₁ : k₁ = k
  · by_cases hk₂ : k₂ = k
    · rw [hk₁, hk₂]
    · rw [hk₁, Function.update_self] at h₁
      rw [Function.update_of_ne hk₂] at h₂
      exact absurd h₂ (hnew i h₁ k₂ hk₂)
  · rw [Function.update_of_ne hk₁] at h₁
    by_cases hk₂ : k₂ = k
    · rw [hk₂, Function.update_self] at h₂
      exact absurd h₁ (hnew i h₂ k₁ hk₁)
    · rw [Function.update_of_ne hk₂] at h₂
      exact h k₁ k₂ i h₁ h₂

/-- What nobody writes to any more stays so. -/
theorem Settled.update {i : ℕ} (h : w.Settled disk₀ writers i)
    (hold : ∀ inode, writers k ≠ .renamed inode) :
    w.Settled disk₀ (Function.update writers k stage) i := by
  rcases h with h | ⟨k', hk'⟩
  · exact Or.inl h
  · have hne : k' ≠ k := by
      rintro rfl
      exact hold i hk'
    exact Or.inr ⟨k', by rw [Function.update_of_ne hne, hk']⟩

namespace Inv

/-- What a call relies on, at its stage. -/
theorem at_stage (h : w.Inv disk₀ disk writers) (hk : writers k = stage) :
    w.Relies disk₀ disk k stage := hk ▸ h.relies k

/-- A file that nobody writes to any more exists. -/
theorem lt_of_settled (h : w.Inv disk₀ disk writers) {i : ℕ}
    (hi : w.Settled disk₀ writers i) : i < disk.next := by
  rcases hi with hi | ⟨k, hk⟩
  · exact Nat.lt_of_lt_of_le (disk₀.bound hi) h.next
  · exact ((h.relies k).bounds (by rw [hk]; rfl)).2

/-- A file that is being written to is not one of those. -/
theorem ne_of_settled (h : w.Inv disk₀ disk writers) {i j offset : ℕ}
    (hi : w.Settled disk₀ writers i) (hk : writers k = .writing j offset) : i ≠ j := by
  rintro rfl
  have hinode : (writers k).inode = some i := by rw [hk]; rfl
  rcases hi with hi | ⟨k', hk'⟩
  · have hlt := disk₀.bound hi
    have hge := ((h.relies k).bounds hinode).1
    omega
  · obtain rfl := h.owners k k' i hinode (by rw [hk']; rfl)
    exact absurd (hk.symm.trans hk') (by simp)

/-- **A call has its directory, or fails.** -/
theorem setWriter (h : w.Inv disk₀ disk writers) (hinode : stage.inode = none)
    (hrelies : w.Relies disk₀ disk k stage) (hold : ∀ i, writers k ≠ .renamed i) :
    w.Inv disk₀ disk (Function.update writers k stage) where
  next := h.next
  initial := h.initial
  relies := (Function.forall_update_iff writers (w.Relies disk₀ disk)).mpr
    ⟨hrelies, fun k' _ => h.relies k'⟩
  owners := h.owners.update fun i hi => absurd (hinode.symm.trans hi) (by simp)
  target i hi := (h.target i hi).update hold

/-- **A name is removed**, whichever. -/
theorem unlink (h : w.Inv disk₀ disk writers) (name : String) :
    w.Inv disk₀ (disk.unlink name) writers := by
  have hof : ∀ {other : String} {i : ℕ}, (disk.unlink name).names other = some i →
      disk.names other = some i := by
    intro other i hi
    by_cases heq : other = name
    · subst heq
      exact absurd (hi.symm.trans (Function.update_self ..)) (by simp)
    · exact (Function.update_of_ne heq ..).symm.trans hi
  refine ⟨h.next, h.initial, fun k => ?_, h.owners, fun i hi => h.target i (hof hi)⟩
  exact (h.relies k).frame (le_refl _) (fun i hi => hof hi) (fun i _ => rfl)
    fun i _ other hother => hof hother

/-- **A call makes its file**, under a new number. -/
theorem create (h : w.Inv disk₀ disk writers) (hk : writers k = .dirReady) :
    w.Inv disk₀ (disk.create (w.tmpPath k)).1
      (Function.update writers k (.writing (disk.create (w.tmpPath k)).2 0)) := by
  have hnone : disk.names (w.tmpPath k) = none := h.at_stage hk
  rw [Disk.create_of_missing hnone]
  dsimp only
  have hself : (disk.make (w.tmpPath k)).names (w.tmpPath k) = some disk.next :=
    Function.update_self ..
  have hname : ∀ {name : String}, name ≠ w.tmpPath k →
      (disk.make (w.tmpPath k)).names name = disk.names name :=
    fun hne => Function.update_of_ne hne ..
  have hdata : ∀ {i : ℕ}, i < disk.next → (disk.make (w.tmpPath k)).data i = disk.data i :=
    fun hlt => Function.update_of_ne (Nat.ne_of_lt hlt) ..
  refine ⟨Nat.le_succ_of_le h.next, fun i hi => ?_,
    (Function.forall_update_iff writers (w.Relies disk₀ _)).mpr ⟨?_, fun k' hk' => ?_⟩,
    h.owners.update ?_, fun i hi => ?_⟩
  · rw [hdata (Nat.lt_of_lt_of_le hi h.next), h.initial i hi]
  · refine ⟨⟨h.next, Nat.lt_succ_self _⟩, ⟨Nat.zero_le _, Function.update_self ..⟩,
      fun name hnext => ?_, fun i hi => ?_⟩
    · by_contra hne
      rw [hname hne] at hnext
      exact absurd (disk.bound hnext) (by omega)
    · rw [hself, Option.some.injEq] at hi
      exact hi.symm
  · have hne : w.tmpPath k' ≠ w.tmpPath k := fun heq => hk' (w.tmpPath_inj heq)
    refine (h.relies k').frame (Nat.le_succ _) (fun i hi => ?_) (fun i hi => ?_)
      fun i hi name hi' => ?_
    · rwa [hname hne] at hi
    · exact hdata ((h.relies k').bounds hi).2
    · have hlt := ((h.relies k').bounds hi).2
      by_cases heq : name = w.tmpPath k
      · subst heq
        rw [hself, Option.some.injEq] at hi'
        omega
      · rwa [hname heq] at hi'
  · intro i hi k' _ hi'
    obtain rfl : disk.next = i := Option.some.inj hi
    exact absurd ((h.relies k').bounds hi').2 (by omega)
  · rw [hname (w.path_ne_tmpPath k)] at hi
    exact (h.target i hi).update (by simp [hk])

/-- **A call writes the next bytes**: nobody else has its file. -/
theorem write (h : w.Inv disk₀ disk writers) {inode offset : ℕ}
    (hk : writers k = .writing inode offset) (count : ℕ) :
    w.Inv disk₀ (disk.write inode offset (((w.bytes k).drop offset).take count))
      (Function.update writers k
        (.writing inode (offset + (((w.bytes k).drop offset).take count).length))) := by
  obtain ⟨⟨hge, hlt⟩, ⟨hoffset, hbytes⟩, honly, hown⟩ := h.at_stage hk
  have hinode : (writers k).inode = some inode := by rw [hk]; rfl
  have hdata : ∀ {i : ℕ}, i ≠ inode →
      (disk.write inode offset (((w.bytes k).drop offset).take count)).data i = disk.data i :=
    fun hne => Function.update_of_ne hne ..
  refine ⟨h.next, fun i hi => ?_,
    (Function.forall_update_iff writers (w.Relies disk₀ _)).mpr ⟨?_, fun k' hk' => ?_⟩,
    h.owners.update ?_, fun i hi => (h.target i hi).update (by simp [hk])⟩
  · rw [hdata (by omega), h.initial i hi]
  · have hlen : ((w.bytes k).take offset).length = offset := by
      rw [List.length_take]
      omega
    have hcount : (((w.bytes k).drop offset).take count).length
        = min count ((w.bytes k).length - offset) := by
      rw [List.length_take, List.length_drop]
    refine ⟨⟨hge, hlt⟩, ⟨by omega, ?_⟩, honly, hown⟩
    -- what is there are the bytes up to the offset, and the next ones come after them
    calc (disk.write inode offset (((w.bytes k).drop offset).take count)).data inode
        = Disk.overwrite (disk.data inode) offset (((w.bytes k).drop offset).take count) :=
          Function.update_self ..
      _ = (w.bytes k).take offset ++ ((w.bytes k).drop offset).take count := by
          rw [hbytes]
          nth_rewrite 2 [← hlen]
          exact Disk.overwrite_length _ _
      _ = (w.bytes k).take (offset + (((w.bytes k).drop offset).take count).length) := by
          rw [List.take_add, List.length_take, ← List.take_eq_take_min]
  · refine (h.relies k').frame (le_refl _) (fun i hi => hi) (fun i hi => ?_) fun i _ name hi => hi
    refine hdata fun heq => hk' ?_
    exact h.owners k' k i hi (heq ▸ hinode)
  · intro i hi k' hk' hi'
    exact hk' (h.owners k' k i hi' (hinode.trans hi))

/-- **A call renames its file**: the path stands for it now. -/
theorem rename (h : w.Inv disk₀ disk writers) {inode : ℕ}
    (hk : writers k = .writing inode (w.bytes k).length)
    (hdisk : disk.rename (w.tmpPath k) w.path = some disk') :
    w.Inv disk₀ disk' (Function.update writers k (.renamed inode)) := by
  obtain ⟨hbounds, ⟨-, hbytes⟩, honly, hown⟩ := h.at_stage hk
  have hinode : (writers k).inode = some inode := by rw [hk]; rfl
  obtain ⟨j, hlt, hj, rfl⟩ := Disk.rename_eq_some.mp hdisk
  obtain rfl := hown j hj
  -- a name that is found afterwards is the path, or was found before
  have hof : ∀ {name : String} {i : ℕ},
      ((disk.unlink (w.tmpPath k)).link w.path j hlt).names name = some i →
        (name = w.path ∧ i = j) ∨ (name ≠ w.path ∧ disk.names name = some i) := by
    intro name i hi
    by_cases hpath : name = w.path
    · subst hpath
      have hself : ((disk.unlink (w.tmpPath k)).link w.path j hlt).names w.path = some j :=
        Function.update_self ..
      exact Or.inl ⟨rfl, Option.some.inj (hi.symm.trans hself)⟩
    · refine Or.inr ⟨hpath, ?_⟩
      have hunlink : (disk.unlink (w.tmpPath k)).names name = some i :=
        (Function.update_of_ne hpath ..).symm.trans hi
      by_cases htmp : name = w.tmpPath k
      · subst htmp
        exact absurd (hunlink.symm.trans (Function.update_self ..)) (by simp)
      · exact (Function.update_of_ne htmp ..).symm.trans hunlink
  refine ⟨h.next, h.initial,
    (Function.forall_update_iff writers (w.Relies disk₀ _)).mpr ⟨?_, fun k' hk' => ?_⟩,
    h.owners.update ?_, fun i hi => ?_⟩
  · exact ⟨hbounds, hbytes.trans List.take_length⟩
  · refine (h.relies k').frame (le_refl _) (fun i hi => ?_) (fun i _ => rfl) fun i hi name hi' => ?_
    · rcases hof hi with ⟨hpath, -⟩ | ⟨-, hi⟩
      · exact absurd hpath.symm (w.path_ne_tmpPath k')
      · exact hi
    · rcases hof hi' with ⟨-, rfl⟩ | ⟨-, hi'⟩
      · exact absurd (h.owners k' k i hi hinode) hk'
      · exact hi'
  · intro i hi k' hk' hi'
    exact hk' (h.owners k' k i hi' (hinode.trans hi))
  · rcases hof hi with ⟨-, rfl⟩ | ⟨hpath, -⟩
    · exact Or.inr ⟨k, Function.update_self ..⟩
    · exact absurd rfl hpath

end Inv

/-! ### Runs -/

/-- **A request keeps the invariant.** -/
theorem Inv.served (h : w.Inv disk₀ t.disk t.writers) (hserved : w.Served t a t') :
    w.Inv disk₀ t'.disk t'.writers := by
  cases hserved with
  | dirReady hk =>
    have hnone : t.disk.names (w.tmpPath _) = none := h.at_stage hk
    exact h.setWriter rfl hnone (by simp [hk])
  | create hk => exact h.create hk
  | write hk => exact h.write hk _
  | rename hk hdisk => exact h.rename hk hdisk
  | fail ha hrename hold => exact h.setWriter rfl trivial hold
  | openRead hname => exact h
  | readMore hr => exact h
  | readEnd hr hcount hnil => exact h
  | readNothing ha hstage => exact h
  | removeFile => exact h.unlink _

/-- **Nobody writes to it any more.** -/
theorem Inv.settled (h : w.Inv disk₀ t.disk t.writers) (hserved : w.Served t a t') {i : ℕ}
    (hi : w.Settled disk₀ t.writers i) :
    w.Settled disk₀ t'.writers i ∧ t'.disk.data i = t.disk.data i := by
  cases hserved with
  | dirReady hk => exact ⟨hi.update (by simp [hk]), rfl⟩
  | @create k hk =>
    refine ⟨hi.update (by simp [hk]), ?_⟩
    have hnone : t.disk.names (w.tmpPath k) = none := h.at_stage hk
    rw [Disk.create_of_missing hnone]
    exact Function.update_of_ne (Nat.ne_of_lt (h.lt_of_settled hi)) ..
  | write hk =>
    exact ⟨hi.update (by simp [hk]), Function.update_of_ne (h.ne_of_settled hi hk) ..⟩
  | rename hk hdisk =>
    obtain ⟨j, hlt, -, rfl⟩ := Disk.rename_eq_some.mp hdisk
    exact ⟨hi.update (by simp [hk]), rfl⟩
  | fail ha hrename hold => exact ⟨hi.update hold, rfl⟩
  | openRead hname => exact ⟨hi, rfl⟩
  | readMore hr => exact ⟨hi, rfl⟩
  | readEnd hr hcount hnil => exact ⟨hi, rfl⟩
  | readNothing ha hstage => exact ⟨hi, rfl⟩
  | removeFile => exact ⟨hi, rfl⟩

/-- **What a reader sees** is a file that nobody writes to any more: the beginning of it so far, and
all of it in the end. -/
def Sees (w : Writers) (disk₀ disk : Disk String UInt8) (writers : ℕ → WriteStage) :
    ReadStage → Prop
  | .reading inode got => w.Settled disk₀ writers inode ∧ got <+: disk.data inode
  | .complete inode bytes => w.Settled disk₀ writers inode ∧ bytes = disk.data inode
  | .idle | .missing | .failed => True

/-- **The invariant** of everything. -/
structure Ok (w : Writers) (disk₀ : Disk String UInt8) (t : Traffic) : Prop where
  inv : w.Inv disk₀ t.disk t.writers
  sees : ∀ r, w.Sees disk₀ t.disk t.writers (t.readers r)

/-- What a reader has seen stays what it is. -/
theorem Sees.served (hinv : w.Inv disk₀ t.disk t.writers) (hserved : w.Served t a t')
    {stage : ReadStage} (h : w.Sees disk₀ t.disk t.writers stage) :
    w.Sees disk₀ t'.disk t'.writers stage := by
  cases stage with
  | reading inode got =>
    obtain ⟨hsettled, hdata⟩ := hinv.settled hserved h.1
    exact ⟨hsettled, hdata ▸ h.2⟩
  | complete inode bytes =>
    obtain ⟨hsettled, hdata⟩ := hinv.settled hserved h.1
    exact ⟨hsettled, h.2.trans hdata.symm⟩
  | idle => trivial
  | missing => trivial
  | failed => trivial

/-- **A request keeps it.** -/
theorem Ok.served (h : w.Ok disk₀ t) (hserved : w.Served t a t') : w.Ok disk₀ t' := by
  refine ⟨h.inv.served hserved, ?_⟩
  have hkept : ∀ r, w.Sees disk₀ t'.disk t'.writers (t.readers r) := fun r =>
    (h.sees r).served h.inv hserved
  have hreader : ∀ {r : ℕ} {stage : ReadStage}, w.Sees disk₀ t'.disk t'.writers stage →
      ∀ r', w.Sees disk₀ t'.disk t'.writers (Function.update t.readers r stage r') :=
    fun hstage => (Function.forall_update_iff t.readers
      fun _ => w.Sees disk₀ t'.disk t'.writers).mpr ⟨hstage, fun r' _ => hkept r'⟩
  cases hserved with
  | dirReady hk => exact hkept
  | create hk => exact hkept
  | write hk => exact hkept
  | rename hk hdisk => exact hkept
  | fail ha hrename hold => exact hkept
  | removeFile => exact hkept
  | openRead hname => exact hreader ⟨h.inv.target _ hname, List.nil_prefix⟩
  | @readMore r count inode got hr =>
    have hsees := h.sees r
    rw [hr] at hsees
    exact hreader ⟨hsees.1, Disk.read_prefix hsees.2 count⟩
  | @readEnd r count inode got hr hcount hnil =>
    have hsees := h.sees r
    rw [hr] at hsees
    exact hreader ⟨hsees.1, Disk.eq_of_read_nil hsees.2 hcount hnil⟩
  | readNothing ha hstage =>
    refine hreader ?_
    rcases hstage with rfl | rfl <;> trivial

/-- **In every run.** -/
theorem ok_of_run (hfresh : ∀ k, disk₀.names (w.tmpPath k) = none) {actions : List DiskAction}
    (hrun : Runs.run w.step (Traffic.init disk₀) actions = some t) : w.Ok disk₀ t :=
  Runs.run_invariant (fun _ _ _ h hstep => h.served (served hstep))
    ⟨inv_init hfresh, fun _ => trivial⟩ hrun

/-! ### What a call does to the files -/

/-- **A request of a call** changes no file but its own temporary one; only renaming it changes
what stands under the path. -/
theorem Inv.file_served (h : w.Inv disk₀ t.disk t.writers) (hserved : w.Served t a t')
    (ha : a.call = some k) {name : String} (hname : name ≠ w.tmpPath k) :
    t'.disk.file name =
      if a = .rename k true then Function.update t.disk.file w.path (some (w.bytes k)) name
      else t.disk.file name := by
  cases hserved with
  | dirReady hk => rfl
  | fail hcall hrename hold =>
    obtain rfl := Option.some.inj (hcall.symm.trans ha)
    rw [if_neg hrename]
    rfl
  | create hk =>
    obtain rfl := Option.some.inj ha
    have hnone : t.disk.names (w.tmpPath _) = none := h.at_stage hk
    rw [if_neg (by simp), Disk.create_of_missing hnone]
    exact Disk.file_make_of_ne hname
  | write hk =>
    obtain rfl := Option.some.inj ha
    obtain ⟨-, -, honly, -⟩ := h.at_stage hk
    rw [if_neg (by simp)]
    exact Disk.file_write_of_ne fun hi => hname (honly name hi)
  | rename hk hdisk =>
    obtain rfl := Option.some.inj ha
    obtain ⟨-, ⟨-, hbytes⟩, -, hown⟩ := h.at_stage hk
    obtain ⟨j, hlt, hj, rfl⟩ := Disk.rename_eq_some.mp hdisk
    obtain rfl := hown j hj
    rw [if_pos rfl]
    show ((t.disk.unlink (w.tmpPath _)).link w.path j hlt).file name = _
    rw [Disk.file_link]
    by_cases hpath : name = w.path
    · rw [hpath, Function.update_self, Function.update_self]
      exact congrArg some (hbytes.trans List.take_length)
    · rw [Function.update_of_ne hpath, Function.update_of_ne hpath, Disk.file_unlink_of_ne hname]
  | openRead hfound => exact absurd ha (by simp [DiskAction.call])
  | readMore hr => exact absurd ha (by simp [DiskAction.call])
  | readEnd hr hcount hnil => exact absurd ha (by simp [DiskAction.call])
  | readNothing hcall hstage => exact absurd (hcall.symm.trans ha) (by simp)
  | removeFile => exact absurd ha (by simp [DiskAction.call])

/-- A call that has renamed its file is over. -/
theorem Served.renamed (hserved : w.Served t a t') {i : ℕ} (hk : t.writers k = .renamed i) :
    t'.writers k = .renamed i := by
  have hof : ∀ {k' : ℕ} {stage : WriteStage}, t.writers k' ≠ .renamed i →
      Function.update t.writers k' stage k = .renamed i := by
    intro k' stage hk'
    have hne : k ≠ k' := by
      rintro rfl
      exact hk' hk
    rw [Function.update_of_ne hne, hk]
  cases hserved with
  | dirReady h => exact hof (by simp [h])
  | create h => exact hof (by simp [h])
  | write h => exact hof (by simp [h])
  | rename h hdisk => exact hof (by simp [h])
  | fail ha hrename hold => exact hof (hold i)
  | openRead h => exact hk
  | readMore h => exact hk
  | readEnd h hcount hnil => exact hk
  | readNothing ha h => exact hk
  | removeFile => exact hk

/-- A call goes on until it has renamed its file, and then it is over. -/
theorem Served.isRenamed (hserved : w.Served t a t') (ha : a.call = some k) :
    (t.writers k).isRenamed = false ∧ ((t'.writers k).isRenamed = true ↔ a = .rename k true) := by
  have hself : ∀ stage, Function.update t.writers k stage k = stage := fun _ =>
    Function.update_self ..
  cases hserved with
  | dirReady h =>
    obtain rfl := Option.some.inj ha
    refine ⟨WriteStage.isRenamed_eq_false (by simp [h]), ?_⟩
    rw [show (t.setWriter _ _).writers _ = _ from hself _]
    simp [WriteStage.isRenamed]
  | create h =>
    obtain rfl := Option.some.inj ha
    refine ⟨WriteStage.isRenamed_eq_false (by simp [h]), ?_⟩
    rw [show ((t.setWriter _ _).setDisk _).writers _ = _ from hself _]
    simp [WriteStage.isRenamed]
  | write h =>
    obtain rfl := Option.some.inj ha
    refine ⟨WriteStage.isRenamed_eq_false (by simp [h]), ?_⟩
    rw [show ((t.setWriter _ _).setDisk _).writers _ = _ from hself _]
    simp [WriteStage.isRenamed]
  | rename h hdisk =>
    obtain rfl := Option.some.inj ha
    refine ⟨WriteStage.isRenamed_eq_false (by simp [h]), ?_⟩
    rw [show ((t.setWriter _ _).setDisk _).writers _ = _ from hself _]
    simp [WriteStage.isRenamed]
  | fail hcall hrename hold =>
    obtain rfl := Option.some.inj (hcall.symm.trans ha)
    refine ⟨WriteStage.isRenamed_eq_false hold, ?_⟩
    rw [show (t.setWriter _ _).writers _ = _ from hself _]
    simp [WriteStage.isRenamed, hrename]
  | openRead h => exact absurd ha (by simp [DiskAction.call])
  | readMore h => exact absurd ha (by simp [DiskAction.call])
  | readEnd h hcount hnil => exact absurd ha (by simp [DiskAction.call])
  | readNothing hcall h => exact absurd (hcall.symm.trans ha) (by simp)
  | removeFile => exact absurd ha (by simp [DiskAction.call])

/-- **A call on its own is what its callers see of it**: as long as nobody else goes on, the files
are, its temporary one apart, as `Files.writeAtomic` says. -/
theorem file_of_call (h : w.Inv disk₀ t.disk t.writers) (hk : (t.writers k).isRenamed = false)
    {actions : List DiskAction} (halone : ∀ a ∈ actions, a.call = some k)
    (hrun : Runs.run w.step t actions = some t') {name : String} (hname : name ≠ w.tmpPath k) :
    t'.disk.file name =
      Files.writeAtomic t.disk.file w.path (w.bytes k) (t'.writers k).isRenamed name := by
  have hall : w.Inv disk₀ t'.disk t'.writers ∧ ((∀ a ∈ actions, a.call = some k) →
      t'.disk.file name =
        Files.writeAtomic t.disk.file w.path (w.bytes k) (t'.writers k).isRenamed name) := by
    refine Runs.run_induction (motive := fun actions t' => w.Inv disk₀ t'.disk t'.writers ∧
      ((∀ a ∈ actions, a.call = some k) → t'.disk.file name =
        Files.writeAtomic t.disk.file w.path (w.bytes k) (t'.writers k).isRenamed name))
      ⟨h, fun _ => by rw [hk]; rfl⟩ ?_ hrun
    rintro as a t₁ t₂ - ⟨hinv, ih⟩ hstep
    refine ⟨hinv.served (served hstep), fun hcalls => ?_⟩
    have ha : a.call = some k := hcalls a (by simp)
    obtain ⟨hbefore, hafter⟩ := (served hstep).isRenamed ha
    have hsame := ih fun b hb => hcalls b (by simp [hb])
    rw [hbefore] at hsame
    rw [hinv.file_served (served hstep) ha hname]
    by_cases hrename : a = .rename k true
    · rw [if_pos hrename, hafter.mpr hrename, Files.writeAtomic, if_pos rfl]
      by_cases hpath : name = w.path
      · rw [hpath, Function.update_self, Function.update_self]
      · rw [Function.update_of_ne hpath, Function.update_of_ne hpath, hsame]
        rfl
    · have hnot : (t₂.writers k).isRenamed = false := by
        rw [Bool.eq_false_iff]
        exact fun htrue => hrename (hafter.mp htrue)
      rw [if_neg hrename, hsame, hnot]
  exact hall.2 halone

end Writers

/-- **Whoever reads, reads something whole.** In every run of calls, readers and removals: what a
reader has found in the end is what was there in the beginning, or else there is exactly one call
that has renamed the file the reader has read, and what it has read is everything this call was to
write. And a call that has failed has left the path, with each of its requests, as it was. -/
theorem reads_whole (w : Writers) (disk₀ : Disk String UInt8)
    (hfresh : ∀ k, disk₀.names (w.tmpPath k) = none) {actions : List DiskAction} {t : Traffic}
    (hrun : Runs.run w.step (Traffic.init disk₀) actions = some t) :
    (∀ r inode bytes, t.readers r = .complete inode bytes →
      (disk₀.names w.path = some inode ∧ bytes = disk₀.data inode) ∨
        ∃! k, t.writers k = .renamed inode ∧ bytes = w.bytes k) ∧
      ∀ k message, t.writers k = .failed message → ∀ before a after t₁ t₂,
        actions = before ++ a :: after → a.call = some k →
        Runs.run w.step (Traffic.init disk₀) before = some t₁ → w.step t₁ a = some t₂ →
        t₂.disk.file w.path = t₁.disk.file w.path := by
  have hok := Writers.ok_of_run hfresh hrun
  constructor
  · intro r inode bytes hr
    have hsees := hok.sees r
    rw [hr] at hsees
    obtain ⟨hsettled, rfl⟩ := hsees
    rcases hsettled with hfirst | ⟨k, hk⟩
    · exact Or.inl ⟨hfirst, hok.inv.initial inode (disk₀.bound hfirst)⟩
    · refine Or.inr ⟨k, ⟨hk, (hok.inv.at_stage hk).2⟩, ?_⟩
      rintro k' ⟨hk', -⟩
      exact hok.inv.owners k' k inode (by rw [hk']; rfl) (by rw [hk]; rfl)
  · rintro k message hfailed before a after t₁ t₂ rfl ha hbefore hstep
    have hinv := (Writers.ok_of_run hfresh hbefore).inv
    have hserved := Writers.served hstep
    have hnot : a ≠ .rename k true := by
      rintro rfl
      -- then the call has renamed its file, and does not fail any more
      obtain ⟨i, hi⟩ := WriteStage.eq_renamed ((hserved.isRenamed rfl).2.mpr rfl)
      have hafter : Runs.run w.step t₂ after = some t := by
        rw [Runs.run_append, hbefore, Option.bind_some, Runs.run_cons, hstep] at hrun
        exact hrun
      have hend : t.writers k = .renamed i :=
        Runs.run_invariant (fun _ _ _ hk hs => (Writers.served hs).renamed hk) hi hafter
      exact absurd (hend.symm.trans hfailed) (by simp)
    rw [hinv.file_served hserved ha (w.path_ne_tmpPath k), if_neg hnot]

/-- A directory with nothing in it. -/
def emptyDisk : Disk String UInt8 where
  names _ := none
  data _ := []
  next := 0
  bound h := absurd h (Option.some_ne_none _).symm

/-- Calls with the same contents; their identifiers differ in length. -/
def sampleWriters : Writers where
  path := "cache/x.json"
  contents _ := "null"
  uuid k := String.ofList (List.replicate k 'a')
  uuid_inj k k' h := by
    have hlen := congrArg (fun s => s.toList.length) h
    simpa using hlen

/-- A call, a reader, and a second call while the reader reads. -/
def sampleTraffic : List DiskAction :=
  [.createDir 0 true, .create 0 true, .write 0 2 true, .write 0 2 true, .rename 0 true,
    .openRead 0, .read 0 3 true, .createDir 1 true, .create 1 true, .removeFile "cache/x.json",
    .read 0 3 true, .write 1 1 false, .read 0 3 true]

/-- The reader finishes after the path has been removed, and has all of what the first call
wrote. -/
theorem reads_whole_sample :
    ∃ t, Runs.run sampleWriters.step (Traffic.init emptyDisk) sampleTraffic = some t ∧
      t.readers 0 = .complete 0 (sampleWriters.bytes 0) ∧
      ∃! k, t.writers k = .renamed 0 ∧ sampleWriters.bytes 0 = sampleWriters.bytes k := by
  have hread : (Runs.run sampleWriters.step (Traffic.init emptyDisk) sampleTraffic).map
      (fun t => t.readers 0) = some (.complete 0 (sampleWriters.bytes 0)) := by decide +kernel
  obtain ⟨t, hrun, hr⟩ := Option.map_eq_some_iff.mp hread
  have hwhole := reads_whole sampleWriters emptyDisk (fun _ => rfl) hrun
  exact ⟨t, hrun, hr, (hwhole.1 0 0 _ hr).resolve_left (by simp [emptyDisk])⟩

end EvmDebugger
