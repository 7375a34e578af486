import Mathlib.Logic.Function.Basic
import Bourse.Exchange
import Bourse.Proofs.SnapshotFile

/-!
# Saving the snapshot file atomically

A save writes the snapshot text to a temporary file beside the snapshot file and renames it over
the file; a load opens the file and reads it. `Posix` models the file tree these steps act on:
any tree of files and directories without links, with the three steps of a save able to fail
beyond what the tree causes (`Posix.Faults`): creating the temporary file, writing it, which may
leave part of the text, and renaming it, which happens at once or not at all.

* `save_of_error`, `load_save_of_error`: a save that fails changes nothing but the temporary
  file, so the file keeps its bytes and a load answers what it answered before;
* `save_of_ok`, `load_save_of_ok`: a save that succeeds leaves the text in the file and no
  temporary file, and a load reads the snapshot back;
* `load_eq_none_iff`, `load_eq_io_iff`, `load_eq_encoding_iff`: what a load answers for each
  way opening the file can end;
* `SnapshotFile.load_tree`, `SnapshotFile.save_tree`: the snapshot file the exchange keeps is
  the file tree at four places: an ordinary file, one in a missing directory, one under a
  regular file, and a directory;
* `Exchange.onFile_of_not_loaded`: an exchange opened on a file that holds no snapshot, or cannot be
  loaded, starts from an empty book and the first id;
* `save_never_damages_snapshot` states all of it.
-/

namespace Bourse

namespace Posix

/-! ## File trees -/

/-- A node of a file tree: a regular file with its text, or a directory. -/
inductive Node where
  | file (text : String)
  | dir
  deriving DecidableEq, Repr

/-- A path, as its names from the root. -/
abbrev Path := List String

/-- A file tree: the node at each path, if any. The root is a directory. -/
abbrev Tree := Path → Option Node

/-- Where a file lives: the path of its directory, and its name. -/
structure Loc where
  dir : Path
  name : String
  deriving DecidableEq, Repr

namespace Loc

/-- The path of the file. -/
def path (l : Loc) : Path := l.dir ++ [l.name]

/-- The temporary file beside a file: its name with `.tmp` added. -/
def temp (l : Loc) : Loc := { l with name := l.name ++ ".tmp" }

theorem length_path (l : Loc) : l.path.length = l.dir.length + 1 := by
  simp [path]

theorem temp_dir (l : Loc) : l.temp.dir = l.dir := rfl

theorem temp_path_ne (l : Loc) : l.temp.path ≠ l.path := by
  intro h
  have hname : l.name ++ ".tmp" = l.name := by
    simp [path, temp] at h
  have hlen := congrArg String.length hname
  simp at hlen

end Loc

/-- Follows the directories of a path from `pre` down: each must exist and be a directory. A
missing one is `notFound` and a file in the way is `notADirectory`. -/
def walk (t : Tree) (pre : Path) : Path → Except OsError Unit
  | [] => .ok ()
  | d :: rest =>
    match t (pre ++ [d]) with
    | some .dir => walk t (pre ++ [d]) rest
    | some (.file _) => .error .notADirectory
    | none => .error .notFound

/-- Opens a file for reading; a directory opens too. -/
def openRead (t : Tree) (l : Loc) : Except OsError Node := do
  walk t [] l.dir
  match t l.path with
  | some n => pure n
  | none => throw .notFound

/-- Creates a file, or empties one that exists; a directory cannot be opened for writing. -/
def create (t : Tree) (l : Loc) : Except OsError Tree := do
  walk t [] l.dir
  match t l.path with
  | some .dir => throw .isADirectory
  | _ => pure (Function.update t l.path (some (.file "")))

/-- Renames a file over another path in one step; a file cannot replace a directory. -/
def rename (t : Tree) (src dst : Loc) : Except OsError Tree := do
  walk t [] src.dir
  let some n := t src.path | throw .notFound
  walk t [] dst.dir
  match n, t dst.path with
  | .file _, some .dir => throw .isADirectory
  | _, _ => pure (Function.update (Function.update t src.path none) dst.path (some n))

/-- Failures the system may add to the three steps of a save beyond those the tree causes:
creating the temporary file, writing it (which may leave part of the text there), and renaming
it. -/
structure Faults where
  create : Option OsError
  write : Option (OsError × String)
  rename : Option OsError

/-- A system that adds no failures. -/
def noFaults : Faults := ⟨none, none, none⟩

/-- Saves a text to a file: writes a temporary file beside it and renames that over the file.
The tree remains whatever happens; the error is that of the first step that failed. -/
def save (faults : Faults) (t : Tree) (l : Loc) (text : String) : Tree × Option OsError :=
  match create t l.temp, faults.create with
  | .error e, _ => (t, some e)
  | .ok _, some e => (t, some e)
  | .ok t₁, none =>
    match faults.write with
    | some (e, part) => (Function.update t₁ l.temp.path (some (.file part)), some e)
    | none =>
      let t₂ := Function.update t₁ l.temp.path (some (.file text))
      match rename t₂ l.temp l, faults.rename with
      | .error e, _ => (t₂, some e)
      | .ok _, some e => (t₂, some e)
      | .ok t₃, none => (t₃, none)

/-- Loads the snapshot in a file: a file that is not found holds no snapshot, any other failure
to open it is an IO error, and a directory, which opens but cannot be read, or a text that is
not a snapshot is an encoding error. -/
def load (t : Tree) (l : Loc) : Except StoreError (Option Snapshot) :=
  match openRead t l with
  | .error .notFound => .ok none
  | .error e => .error (.io e)
  | .ok .dir => .error (.encoding { fault := .io OsError.isADirectory.message })
  | .ok (.file text) =>
    match Snapshot.ofText text with
    | .ok s => .ok (some s)
    | .error e => .error (.encoding e)

/-! ## What a step reads -/

/-- Following directories reads only the paths no longer than the one followed. -/
theorem walk_congr {t t' : Tree} {pre rest : Path}
    (h : ∀ q : Path, q.length ≤ pre.length + rest.length → t q = t' q) :
    walk t pre rest = walk t' pre rest := by
  induction rest generalizing pre with
  | nil => rfl
  | cons d rest ih =>
    have hd : t (pre ++ [d]) = t' (pre ++ [d]) := h _ (by simp)
    have hrest : walk t (pre ++ [d]) rest = walk t' (pre ++ [d]) rest :=
      ih fun q hq => h q (by simp at hq ⊢; omega)
    simp only [walk, hd, hrest]

/-- Opening a file reads only the file and the paths above it. -/
theorem openRead_congr {t t' : Tree} {l : Loc}
    (hdir : ∀ q : Path, q.length ≤ l.dir.length → t q = t' q) (hfile : t l.path = t' l.path) :
    openRead t l = openRead t' l := by
  have hwalk : walk t [] l.dir = walk t' [] l.dir := walk_congr (by simpa using hdir)
  simp only [openRead, hwalk, hfile]

theorem load_congr {t t' : Tree} {l : Loc}
    (hdir : ∀ q : Path, q.length ≤ l.dir.length → t q = t' q) (hfile : t l.path = t' l.path) :
    load t l = load t' l := by
  simp only [load, openRead_congr hdir hfile]

/-! ## What a load answers -/

/-- A load finds no snapshot exactly when the file is not found. -/
theorem load_eq_none_iff {t : Tree} {l : Loc} :
    load t l = .ok none ↔ openRead t l = .error .notFound := by
  unfold load
  cases openRead t l with
  | error e => cases e <;> simp
  | ok n =>
    cases n with
    | dir => simp
    | file text => cases h : Snapshot.ofText text <;> simp [h]

/-- A load fails with an IO error exactly when the file cannot be opened for another reason. -/
theorem load_eq_io_iff {t : Tree} {l : Loc} {e : OsError} :
    load t l = .error (.io e) ↔ e ≠ .notFound ∧ openRead t l = .error e := by
  unfold load
  cases openRead t l with
  | error e' => cases e' <;> cases e <;> simp
  | ok n =>
    cases n with
    | dir => simp
    | file text => cases h : Snapshot.ofText text <;> simp [h]

/-- A load fails with an encoding error exactly when the file is a directory, or its text is not
a snapshot. -/
theorem load_eq_encoding_iff {t : Tree} {l : Loc} {err : Json.Error} :
    load t l = .error (.encoding err) ↔
      (openRead t l = .ok .dir ∧ err = { fault := .io OsError.isADirectory.message }) ∨
      ∃ text, openRead t l = .ok (.file text) ∧ Snapshot.ofText text = .error err := by
  unfold load
  cases openRead t l with
  | error e' => cases e' <;> simp
  | ok n =>
    cases n with
    | dir => simp [eq_comm]
    | file text => cases h : Snapshot.ofText text <;> simp [h]

/-! ## The steps of a save -/

theorem create_eq_ok {t t₁ : Tree} {l : Loc} (h : create t l = .ok t₁) :
    walk t [] l.dir = .ok () ∧ t₁ = Function.update t l.path (some (.file "")) := by
  unfold create at h
  cases hw : walk t [] l.dir with
  | error e => simp [hw, bind, Except.bind] at h
  | ok u =>
    simp only [hw, bind, Except.bind] at h
    split at h
    · cases h
    · cases h
      exact ⟨rfl, rfl⟩

theorem rename_eq_ok {t t₃ : Tree} {src dst : Loc} (h : rename t src dst = .ok t₃) :
    ∃ n, t src.path = some n ∧ walk t [] dst.dir = .ok () ∧
      t₃ = Function.update (Function.update t src.path none) dst.path (some n) := by
  unfold rename at h
  cases hw : walk t [] src.dir with
  | error e => simp [hw, bind, Except.bind] at h
  | ok u =>
    simp only [hw, bind, Except.bind] at h
    cases hn : t src.path with
    | none => simp [hn, throw, throwThe, MonadExceptOf.throw] at h
    | some n =>
      simp only [hn] at h
      cases hw' : walk t [] dst.dir with
      | error e => simp [hw'] at h
      | ok u' =>
        simp only [hw'] at h
        refine ⟨n, rfl, rfl, ?_⟩
        split at h
        · cases h
        · cases h
          rfl

/-! ## Saves that fail, saves that succeed -/

/-- **What a save can do**: fail with the tree as it was; fail with some text in the temporary
file and the rest as it was; or, having found the directories above the file, put the text in
the file and leave no temporary file. -/
theorem save_cases (faults : Faults) (t : Tree) (l : Loc) (text : String) :
    (∃ e, save faults t l text = (t, some e)) ∨
    (∃ e part, save faults t l text =
      (Function.update t l.temp.path (some (.file part)), some e)) ∨
    (walk t [] l.dir = .ok () ∧ save faults t l text =
      (Function.update (Function.update t l.temp.path none) l.path (some (.file text)), none)) := by
  unfold save
  split
  · exact .inl ⟨_, rfl⟩
  · exact .inl ⟨_, rfl⟩
  · rename_i t₁ hcreate _
    obtain ⟨hwalk, rfl⟩ := create_eq_ok hcreate
    split
    · rename_i e part _
      exact .inr (.inl ⟨e, part, by simp [Function.update_idem]⟩)
    · dsimp only
      split
      · rename_i e _
        exact .inr (.inl ⟨e, text, by simp [Function.update_idem]⟩)
      · rename_i e _ _
        exact .inr (.inl ⟨e, text, by simp [Function.update_idem]⟩)
      · -- the rename moved the text written into the file
        rename_i t₃ hrename _
        obtain ⟨n, hn, -, rfl⟩ := rename_eq_ok hrename
        simp only [Function.update_self, Option.some.injEq] at hn
        subst hn
        exact .inr (.inr ⟨hwalk, by simp [Function.update_idem]⟩)

variable {faults : Faults} {t : Tree} {l : Loc} {text : String}

/-- A save touches nothing but the file and its temporary file. -/
theorem save_apply_of_ne {q : Path} (hq : q ≠ l.path) (htemp : q ≠ l.temp.path) :
    (save faults t l text).1 q = t q := by
  rcases save_cases faults t l text with ⟨e, h⟩ | ⟨e, part, h⟩ | ⟨-, h⟩ <;> rw [h]
  · simp [Function.update_of_ne htemp]
  · simp [Function.update_of_ne hq, Function.update_of_ne htemp]

/-- **A failed save leaves the file as it was.** -/
theorem save_of_error {e : OsError} (h : (save faults t l text).2 = some e) :
    (save faults t l text).1 l.path = t l.path := by
  rcases save_cases faults t l text with ⟨e', h'⟩ | ⟨e', part, h'⟩ | ⟨-, h'⟩ <;> rw [h'] at h ⊢
  · simp [Function.update_of_ne (Loc.temp_path_ne l).symm]
  · cases h

/-- **A successful save leaves the text in the file and no temporary file.** -/
theorem save_of_ok (h : (save faults t l text).2 = none) :
    (save faults t l text).1 l.path = some (.file text) ∧
      (save faults t l text).1 l.temp.path = none := by
  rcases save_cases faults t l text with ⟨e', h'⟩ | ⟨e', part, h'⟩ | ⟨-, h'⟩ <;> rw [h'] at h ⊢
  · cases h
  · cases h
  · simp [Function.update_of_ne (Loc.temp_path_ne l)]

/-- A successful save found the directories above the file. -/
theorem walk_of_save_ok (h : (save faults t l text).2 = none) : walk t [] l.dir = .ok () := by
  rcases save_cases faults t l text with ⟨e', h'⟩ | ⟨e', part, h'⟩ | ⟨hwalk, -⟩
  · rw [h'] at h
    cases h
  · rw [h'] at h
    cases h
  · exact hwalk

/-- The paths above the file keep their nodes through a save. -/
theorem save_above {q : Path} (hq : q.length ≤ l.dir.length) :
    (save faults t l text).1 q = t q := by
  apply save_apply_of_ne
  · intro h
    have := congrArg List.length h
    simp [Loc.length_path] at this
    omega
  · intro h
    have := congrArg List.length h
    simp [Loc.length_path, Loc.temp_dir] at this
    omega

/-- **A failed save changes no load**: a later load answers what it answered before. -/
theorem load_save_of_error {e : OsError} (h : (save faults t l text).2 = some e) :
    load (save faults t l text).1 l = load t l :=
  load_congr (fun _ hq => save_above hq) (save_of_error h)

/-- **After a successful save, a load reads the snapshot back.** -/
theorem load_save_of_ok {s : Snapshot} (hs : s.Keyed)
    (h : (save faults t l s.fileText).2 = none) :
    load (save faults t l s.fileText).1 l = .ok (some s) := by
  have hwalk : walk (save faults t l s.fileText).1 [] l.dir = .ok () := by
    have habove : ∀ q : Path, q.length ≤ ([] : Path).length + l.dir.length →
        (save faults t l s.fileText).1 q = t q := fun q hq => save_above (by simpa using hq)
    rw [walk_congr habove]
    exact walk_of_save_ok h
  simp [load, openRead, hwalk, (save_of_ok h).1, bind, Except.bind, pure, Except.pure,
    Snapshot.ofText_fileText hs]

end Posix

/-! ## The snapshot file as a file tree -/

namespace SnapshotFile

/-- Where the snapshot file lives in the tree: `data/snapshot.json`. -/
def loc : Posix.Loc := ⟨["data"], "snapshot.json"⟩

/-- The file tree a snapshot file stands for: `data` is a directory holding the file, is
missing, is a regular file, or holds a directory in the file's place. -/
def tree (f : SnapshotFile) : Posix.Tree := fun q =>
  match f.place with
  | .fresh =>
    if q = ["data"] then some .dir
    else if q = loc.path then f.contents.map .file else none
  | .missingDir => none
  | .underFile => if q = ["data"] then some (.file "") else none
  | .directory => if q = ["data"] ∨ q = loc.path then some .dir else none

/-- **The snapshot file loads as its tree.** -/
theorem load_tree (f : SnapshotFile) : Posix.load f.tree loc = f.load := by
  obtain ⟨place, contents⟩ := f
  cases place
  · cases contents with
    | none => simp [Posix.load, Posix.openRead, Posix.walk, tree, loc, Posix.Loc.path, load, bind,
        Except.bind, throw, throwThe, MonadExceptOf.throw]
    | some text =>
      cases h : Snapshot.ofText text <;>
        simp [Posix.load, Posix.openRead, Posix.walk, tree, loc, Posix.Loc.path, load, bind,
          Except.bind, pure, Except.pure, h]
  all_goals simp [Posix.load, Posix.openRead, Posix.walk, tree, loc, Posix.Loc.path, load, bind,
    Except.bind, pure, Except.pure]

/-- **The snapshot file saves as its tree**: a save that succeeds leaves the tree of the saved
file, and one that fails meets the same system error in the tree. -/
theorem save_tree (f : SnapshotFile) (s : Snapshot) :
    match f.save s with
    | .ok f' => Posix.save Posix.noFaults f.tree loc s.fileText = (f'.tree, none)
    | .error e => ∃ e', e = .io e' ∧
        (Posix.save Posix.noFaults f.tree loc s.fileText).2 = some e' := by
  obtain ⟨place, contents⟩ := f
  cases place
  · -- an ordinary file: the text is written beside it and renamed over it
    simp only [save]
    simp [Posix.save, Posix.create, Posix.rename, Posix.walk, tree, loc, Posix.Loc.path,
      Posix.Loc.temp, Posix.noFaults, bind, Except.bind, pure, Except.pure]
    funext q
    by_cases hfile : q = ["data", "snapshot.json"]
    · simp [hfile, tree, loc, Posix.Loc.path]
    · by_cases htemp : q = ["data", "snapshot.json.tmp"]
      · simp [htemp, tree, loc, Posix.Loc.path]
      · simp [Function.update_of_ne htemp, tree, loc, Posix.Loc.path, hfile]
  all_goals simp [save, Posix.save, Posix.create, Posix.rename, Posix.walk, tree, loc,
    Posix.Loc.path, Posix.Loc.temp, Posix.noFaults, bind, Except.bind, pure, Except.pure,
    throw, throwThe, MonadExceptOf.throw]

end SnapshotFile

/-! ## Opening the exchange -/

/-- **An exchange opened on a file without a snapshot starts empty**: when the file holds no
snapshot or cannot be loaded, the book is empty and the next id is the first, and the file is
kept for later saves. -/
theorem Exchange.onFile_of_not_loaded {sessions : Sessions} {clock : UInt64} {f : SnapshotFile}
    (h : f.load = .ok none ∨ ∃ e, f.load = .error e) :
    (Exchange.onFile sessions clock f).book = .empty ∧
      (Exchange.onFile sessions clock f).nextId = 0 ∧
      (Exchange.onFile sessions clock f).store = some f := by
  unfold Exchange.onFile
  rcases h with h | ⟨e, h⟩ <;> simp [h, Exchange.new]

/-- **A failed save never damages the stored snapshot.**  For every file tree, every file and
every failure the system adds: a save either succeeds, leaving the snapshot's text in the file
and no temporary file, so that a load reads the snapshot back; or fails, leaving the file as it
was, so that a load answers what it answered before. A load finds no snapshot exactly when the
file is not found, fails with an IO error exactly for the other failures to open it, and with an
encoding error for a directory or a text that is not a snapshot. The snapshot file the exchange
keeps loads and saves as its file tree, and an exchange opened on a file that holds no snapshot
or cannot be loaded starts from an empty book and the first id. -/
theorem save_never_damages_snapshot (faults : Posix.Faults) (t : Posix.Tree) (l : Posix.Loc)
    (s : Snapshot) :
    ((Posix.save faults t l s.fileText).2 = none →
      (Posix.save faults t l s.fileText).1 l.path = some (.file s.fileText) ∧
      (Posix.save faults t l s.fileText).1 l.temp.path = none ∧
      (s.Keyed → Posix.load (Posix.save faults t l s.fileText).1 l = .ok (some s))) ∧
    (∀ e, (Posix.save faults t l s.fileText).2 = some e →
      (Posix.save faults t l s.fileText).1 l.path = t l.path ∧
      Posix.load (Posix.save faults t l s.fileText).1 l = Posix.load t l) ∧
    (Posix.load t l = .ok none ↔ Posix.openRead t l = .error .notFound) ∧
    (∀ e, Posix.load t l = .error (.io e) ↔ e ≠ .notFound ∧ Posix.openRead t l = .error e) ∧
    (∀ err, Posix.load t l = .error (.encoding err) ↔
      (Posix.openRead t l = .ok .dir ∧ err = { fault := .io OsError.isADirectory.message }) ∨
      ∃ text, Posix.openRead t l = .ok (.file text) ∧ Snapshot.ofText text = .error err) ∧
    (∀ f : SnapshotFile, Posix.load f.tree SnapshotFile.loc = f.load) ∧
    (∀ f : SnapshotFile, match f.save s with
      | .ok f' => Posix.save Posix.noFaults f.tree SnapshotFile.loc s.fileText = (f'.tree, none)
      | .error e => ∃ e', e = .io e' ∧
          (Posix.save Posix.noFaults f.tree SnapshotFile.loc s.fileText).2 = some e') ∧
    ∀ (sessions : Sessions) (clock : UInt64) (f : SnapshotFile),
      (f.load = .ok none ∨ ∃ e, f.load = .error e) →
      (Exchange.onFile sessions clock f).book = .empty ∧
        (Exchange.onFile sessions clock f).nextId = 0 := by
  refine ⟨fun h => ⟨(Posix.save_of_ok h).1, (Posix.save_of_ok h).2,
      fun hs => Posix.load_save_of_ok hs h⟩,
    fun e h => ⟨Posix.save_of_error h, Posix.load_save_of_error h⟩,
    Posix.load_eq_none_iff, fun _ => Posix.load_eq_io_iff, fun _ => Posix.load_eq_encoding_iff,
    SnapshotFile.load_tree, fun f => SnapshotFile.save_tree f s, fun _ _ _ h => ?_⟩
  obtain ⟨hbook, hid, -⟩ := Exchange.onFile_of_not_loaded h
  exact ⟨hbook, hid⟩

/-- A snapshot file in place, holding a text. -/
def heldFile : SnapshotFile := { place := .fresh, contents := some "\x7b\x7d" }

/-- A save whose write stops after one character. -/
def tornWrite : Posix.Faults := ⟨none, some (.notFound, "\x7b"), none⟩

/-- A torn write over the snapshot file fails, leaves the file's text as it was, and a load
answers what it answered before the save. -/
theorem save_never_damages_snapshot_torn_write :
    (Posix.save tornWrite heldFile.tree SnapshotFile.loc (Book.empty.capture 0).fileText).2 =
        some .notFound ∧
      (Posix.save tornWrite heldFile.tree SnapshotFile.loc (Book.empty.capture 0).fileText).1
        SnapshotFile.loc.path = some (.file "\x7b\x7d") ∧
      Posix.load (Posix.save tornWrite heldFile.tree SnapshotFile.loc
        (Book.empty.capture 0).fileText).1 SnapshotFile.loc = heldFile.load := by
  have hfail : (Posix.save tornWrite heldFile.tree SnapshotFile.loc
      (Book.empty.capture 0).fileText).2 = some .notFound := by decide
  have h := save_never_damages_snapshot tornWrite heldFile.tree SnapshotFile.loc
    (Book.empty.capture 0)
  obtain ⟨hfile, hload⟩ := h.2.1 _ hfail
  refine ⟨hfail, by rw [hfile]; decide, by rw [hload, h.2.2.2.2.2.1]⟩

end Bourse
