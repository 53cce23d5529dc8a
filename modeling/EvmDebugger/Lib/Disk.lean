import Mathlib.Data.List.Basic
import Mathlib.Logic.Function.Basic

/-!
# A directory and its files

What a program sees of a file system, as far as it takes to say what happens when several
processes open, write, rename and remove files at the same time. A *name* is not a file: the
directory says which file (which inode) a name stands for, and a process that has opened a file
keeps it, whatever becomes of the name. Renaming is one step, and it takes no bytes anywhere.

Removing a name removes no file, and a file that no longer has a name is never found again: the
numbers of files are given out in order (`Disk.next`), and a name only stands for a number that has
been given out (`Disk.bound`).
-/

/-- **A directory and its files.** -/
structure Disk (N α : Type*) where
  /-- The directory: which file a name stands for. -/
  names : N → Option ℕ
  /-- The contents of the files. -/
  data : ℕ → List α
  /-- The number of the next file. -/
  next : ℕ
  /-- The files with a name exist. -/
  bound : ∀ {name : N} {i : ℕ}, names name = some i → i < next

namespace Disk

variable {N α : Type*} [DecidableEq N]

/-- What stands under a name. -/
def file (d : Disk N α) (name : N) : Option (List α) := (d.names name).map d.data

/-- What is read from a file, from some offset on: at most so much, and nothing at its end. -/
def read (d : Disk N α) (inode offset count : ℕ) : List α :=
  ((d.data inode).drop offset).take count

/-! ### Operations -/

/-- A directory with one more name. -/
theorem bound_update {names : N → Option ℕ} {next : ℕ}
    (hnames : ∀ {name : N} {i : ℕ}, names name = some i → i < next) {name other : N}
    {inode : Option ℕ} (hinode : ∀ i, inode = some i → i < next) {i : ℕ}
    (h : Function.update names name inode other = some i) : i < next := by
  by_cases heq : other = name
  · subst heq
    rw [Function.update_self] at h
    exact hinode i h
  · rw [Function.update_of_ne heq] at h
    exact hnames h

/-- Removing a name. -/
def unlink (d : Disk N α) (name : N) : Disk N α :=
  { d with
    names := Function.update d.names name none
    bound := bound_update d.bound fun _ h => absurd h (Option.some_ne_none _).symm }

/-- Making a file, under a name. -/
def make (d : Disk N α) (name : N) : Disk N α where
  names := Function.update d.names name (some d.next)
  data := Function.update d.data d.next []
  next := d.next + 1
  bound := bound_update (fun h => Nat.lt_succ_of_lt (d.bound h)) fun _ h =>
    Option.some.inj h ▸ Nat.lt_succ_self _

/-- Opening for writing: a file that is there loses its contents, and one that is not is made. -/
def create (d : Disk N α) (name : N) : Disk N α × ℕ :=
  match d.names name with
  | some inode => ({ d with data := Function.update d.data inode [] }, inode)
  | none => (d.make name, d.next)

/-- Some bytes, over what is there from an offset on. -/
def overwrite [Inhabited α] (old : List α) (offset : ℕ) (bytes : List α) : List α :=
  old.take offset ++ List.replicate (offset - old.length) default ++ bytes ++
    old.drop (offset + bytes.length)

/-- Writing to a file. -/
def write [Inhabited α] (d : Disk N α) (inode offset : ℕ) (bytes : List α) : Disk N α :=
  { d with data := Function.update d.data inode (overwrite (d.data inode) offset bytes) }

/-- Letting a name stand for a file that exists. -/
def link (d : Disk N α) (name : N) (inode : ℕ) (h : inode < d.next) : Disk N α :=
  { d with
    names := Function.update d.names name (some inode)
    bound := bound_update d.bound fun _ hi => Option.some.inj hi ▸ h }

/-- Renaming, where there is something to rename. -/
def rename (d : Disk N α) (src dst : N) : Option (Disk N α) :=
  match hsrc : d.names src with
  | none => none
  | some inode => some ((d.unlink src).link dst inode (d.bound hsrc))

/-! ### What they do -/

variable {d d' : Disk N α} {name src dst : N} {inode : ℕ}

/-- Under a name that is not there, a file is made. -/
theorem create_of_missing (h : d.names name = none) : d.create name = (d.make name, d.next) := by
  rw [create, h]

/-- **Bytes that are written at the end are appended.** -/
theorem overwrite_length [Inhabited α] (old bytes : List α) :
    overwrite old old.length bytes = old ++ bytes := by
  rw [overwrite, List.take_length, Nat.sub_self, List.replicate_zero, List.append_nil,
    List.drop_eq_nil_of_le (by omega), List.append_nil]

/-- Making a file leaves the others alone. -/
theorem file_make_of_ne {other : N} (h : other ≠ name) :
    (d.make name).file other = d.file other := by
  have hnames : (d.make name).names other = d.names other := Function.update_of_ne h ..
  rw [file, file, hnames]
  refine Option.map_congr fun i hi => ?_
  exact Function.update_of_ne (Nat.ne_of_lt (d.bound hi)) ..

omit [DecidableEq N] in
/-- Writing to a file leaves the others alone. -/
theorem file_write_of_ne [Inhabited α] {offset : ℕ} {bytes : List α}
    (h : d.names name ≠ some inode) : (d.write inode offset bytes).file name = d.file name := by
  refine Option.map_congr fun i hi => ?_
  refine Function.update_of_ne ?_ ..
  rintro rfl
  exact h hi

/-- Removing a name leaves the others alone. -/
theorem file_unlink_of_ne {other : N} (h : other ≠ name) :
    (d.unlink name).file other = d.file other := by
  have hnames : (d.unlink name).names other = d.names other := Function.update_of_ne h ..
  rw [file, file, hnames]
  rfl

/-- A name that is given to a file. -/
theorem file_link (h : inode < d.next) :
    (d.link name inode h).file = Function.update d.file name (some (d.data inode)) := by
  funext other
  by_cases heq : other = name
  · subst heq
    have hnames : (d.link other inode h).names other = some inode := Function.update_self ..
    rw [Function.update_self, file, hnames]
    rfl
  · have hnames : (d.link name inode h).names other = d.names other :=
      Function.update_of_ne heq ..
    rw [Function.update_of_ne heq, file, file, hnames]
    rfl

/-- **What a renaming does**: the new name stands for the file, the old one for nothing. -/
theorem rename_eq_some :
    d.rename src dst = some d' ↔
      ∃ inode, ∃ h : inode < (d.unlink src).next, d.names src = some inode ∧
        d' = (d.unlink src).link dst inode h := by
  unfold rename
  constructor
  · intro h
    split at h
    · exact absurd h (by simp)
    · next inode hsrc => exact ⟨inode, d.bound hsrc, hsrc, (Option.some.inj h).symm⟩
  · rintro ⟨inode, hlt, hsrc, rfl⟩
    split
    · next hnone => exact absurd (hnone.symm.trans hsrc) (by simp)
    · next i hi =>
      obtain rfl : i = inode := Option.some.inj (hi.symm.trans hsrc)
      rfl

omit [DecidableEq N] in
/-- What is read, piece by piece, is what is there. -/
theorem read_prefix {got : List α} (h : got <+: d.data inode) (count : ℕ) :
    got ++ d.read inode got.length count <+: d.data inode := by
  obtain ⟨rest, hrest⟩ := h
  rw [read, ← hrest, List.drop_left]
  exact (List.prefix_append_right_inj got).mpr (List.take_prefix count rest)

omit [DecidableEq N] in
/-- **The end is where nothing is read.** -/
theorem eq_of_read_nil {got : List α} (h : got <+: d.data inode) {count : ℕ} (hcount : 0 < count)
    (hnil : d.read inode got.length count = []) : got = d.data inode := by
  obtain ⟨rest, hrest⟩ := h
  rw [read, ← hrest, List.drop_left, List.take_eq_nil_iff] at hnil
  rcases hnil with hzero | hnil
  · omega
  · rw [← hrest, hnil, List.append_nil]

end Disk
