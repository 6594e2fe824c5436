import ProxySet.Redsocks.BuffereventCore
import Mathlib.Data.List.Induction

/-!
`RedsocksActios.init`: the files that `startRedsocks` runs are copied from the assets of the
app, in place, and a file that is there is never copied again.
-/

namespace ProxySet.App.Install

/-! ### The copies -/

inductive File where
  | redsocks
  | redirectSh
  | proxySh
  deriving DecidableEq

abbrev Files := File → Option Bytes

/-- A call of `startRedsocks`, with what goes wrong in it. -/
structure Call where
  /-- The assets of the running app. -/
  assets : File → Bytes
  /-- How many bytes a copy brings to the disk; `none` where the asset cannot be opened or the
  file not be created. -/
  written : File → Option Nat
  /-- The file at which the process is killed. -/
  killedAt : Option File
  /-- Whether it is killed after the copies. -/
  killedLater : Bool
  rooted : Bool

/-- `FileTool.copyAssert`, which returns `true` in any case. -/
def copyAssert (call : Call) (file : File) (files : Files) : Files := fun other =>
  if other = file then (call.written file).map fun length => (call.assets file).take length
  else files other

structure Progress where
  files : Files
  alive : Bool

def initFile (call : Call) (progress : Progress) (file : File) : Progress :=
  if progress.alive then
    { files :=
        if (progress.files file).isSome then progress.files
        else copyAssert call file progress.files
      alive := decide (call.killedAt ≠ some file) }
  else progress

def init (call : Call) (files : Files) : Progress :=
  [File.redsocks, .redirectSh, .proxySh].foldl (initFile call) ⟨files, true⟩

/-- The files after a call, and whether it has gone on to run the scripts. -/
def startRedsocks (call : Call) (files : Files) : Files × Bool :=
  let done := init call files
  (done.files, done.alive && !call.killedLater && call.rooted)

def after (calls : List Call) : Files :=
  calls.foldl (fun files call => (startRedsocks call files).1) fun _ => none

/-! ### What is installed -/

def Call.reaches (call : Call) : File → Bool
  | .redsocks => true
  | .redirectSh => decide (call.killedAt ≠ some .redsocks)
  | .proxySh => decide (call.killedAt ≠ some .redsocks ∧ call.killedAt ≠ some .redirectSh)

def Call.puts (call : Call) (file : File) : Option Bytes :=
  if call.reaches file then (call.written file).map fun length => (call.assets file).take length
  else none

def Call.goesOn (call : Call) : Bool :=
  decide (call.killedAt = none) && !call.killedLater && call.rooted

theorem initFile_files (call : Call) (progress : Progress) (file other : File) :
    (initFile call progress file).files other =
      if other = file ∧ progress.alive = true then
        (progress.files file).or
          ((call.written file).map fun length => (call.assets file).take length)
      else progress.files other := by
  by_cases alive : progress.alive = true
  · by_cases same : other = file
    · subst same
      cases there : progress.files other with
      | none => simp [initFile, alive, there, copyAssert]
      | some content => simp [initFile, alive, there]
    · cases there : progress.files file with
      | none => simp [initFile, alive, there, copyAssert, same]
      | some content => simp [initFile, alive, there, same]
  · simp [initFile, alive]

theorem initFile_alive (call : Call) (progress : Progress) (file : File) :
    (initFile call progress file).alive =
      (progress.alive && decide (call.killedAt ≠ some file)) := by
  by_cases alive : progress.alive = true
  · simp [initFile, alive]
  · simp [initFile, alive]

theorem startRedsocks_files (call : Call) (files : Files) (file : File) :
    (startRedsocks call files).1 file = (files file).or (call.puts file) := by
  simp only [startRedsocks, init, List.foldl_cons, List.foldl_nil, initFile_files, initFile_alive]
  cases file with
  | redsocks => simp [Call.puts, Call.reaches]
  | redirectSh =>
      by_cases killed : call.killedAt = some .redsocks
      · simp [Call.puts, Call.reaches, killed]
      · simp [Call.puts, Call.reaches, killed]
  | proxySh =>
      by_cases killed : call.killedAt = some .redsocks
      · simp [Call.puts, Call.reaches, killed]
      · by_cases killedNext : call.killedAt = some .redirectSh
        · simp [Call.puts, Call.reaches, killedNext]
        · simp [Call.puts, Call.reaches, killed, killedNext]

theorem startRedsocks_goesOn (call : Call) (files : Files) :
    (startRedsocks call files).2 = call.goesOn := by
  simp only [startRedsocks, init, List.foldl_cons, List.foldl_nil, initFile_alive, Call.goesOn]
  cases call.killedAt with
  | none => simp
  | some file => cases file <;> simp

theorem after_eq (calls : List Call) (file : File) :
    after calls file = calls.findSome? fun call => call.puts file := by
  induction calls using List.reverseRecOn with
  | nil => rfl
  | append_singleton calls call ih =>
      rw [after, List.foldl_append, List.foldl_cons, List.foldl_nil, startRedsocks_files,
        List.findSome?_append, ← ih]
      simp [after]

/-- Whenever the scripts are run, the files are those of the running app. -/
def Intact (history : List Call) : Prop :=
  ∀ earlier call later, history = earlier ++ call :: later →
    (startRedsocks call (after earlier)).2 = true →
    ∀ file, (startRedsocks call (after earlier)).1 file = some (call.assets file)

/-- The first of the copies that created the file brought all of what the asset is now. -/
def FirstWhole (calls : List Call) (file : File) (asset : Bytes) : Prop :=
  ∃ before copying rest length, calls = before ++ copying :: rest ∧
    (∀ call ∈ before, call.reaches file = true → call.written file = none) ∧
    copying.reaches file = true ∧ copying.written file = some length ∧
    (copying.assets file).take length = asset

theorem puts_eq_none_iff (call : Call) (file : File) :
    call.puts file = none ↔ (call.reaches file = true → call.written file = none) := by
  simp [Call.puts]

theorem puts_eq_some_iff (call : Call) (file : File) (content : Bytes) :
    call.puts file = some content ↔ call.reaches file = true ∧
      ∃ length, call.written file = some length ∧ (call.assets file).take length = content := by
  simp [Call.puts]

theorem firstWhole_iff (calls : List Call) (file : File) (asset : Bytes) :
    FirstWhole calls file asset ↔ (calls.findSome? fun call => call.puts file) = some asset := by
  rw [List.findSome?_eq_some_iff]
  constructor
  · rintro ⟨before, copying, rest, length, split, none, reaches, written, whole⟩
    refine ⟨before, copying, rest, split, ?_, ?_⟩
    · exact (puts_eq_some_iff copying file asset).mpr ⟨reaches, length, written, whole⟩
    · exact fun call member => (puts_eq_none_iff call file).mpr (none call member)
  · rintro ⟨before, copying, rest, split, puts, none⟩
    obtain ⟨reaches, length, written, whole⟩ := (puts_eq_some_iff copying file asset).mp puts
    refine ⟨before, copying, rest, length, split, ?_, reaches, written, whole⟩
    exact fun call member => (puts_eq_none_iff call file).mp (none call member)

theorem intact_iff (history : List Call) :
    Intact history ↔ ∀ earlier call later, history = earlier ++ call :: later →
      call.killedAt = none → call.killedLater = false → call.rooted = true →
      ∀ file, FirstWhole (earlier ++ [call]) file (call.assets file) := by
  have goes : ∀ call : Call, call.goesOn = true ↔
      call.killedAt = none ∧ call.killedLater = false ∧ call.rooted = true := by
    intro call
    simp [Call.goesOn, and_assoc]
  have here : ∀ earlier (call : Call) file, (startRedsocks call (after earlier)).1 file =
      (earlier ++ [call]).findSome? fun call => call.puts file := by
    intro earlier call file
    rw [startRedsocks_files, after_eq, List.findSome?_append]
    simp
  simp only [Intact, startRedsocks_goesOn, goes, here, firstWhole_iff, and_imp]

def wholeCall : Call where
  assets := fun _ => [127, 69, 76, 70]
  written := fun _ => some 4
  killedAt := none
  killedLater := false
  rooted := true

/-- The process is killed when two bytes of redsocks are on the disk. -/
def cutCall : Call :=
  { wholeCall with written := fun _ => some 2, killedAt := some .redsocks }

theorem cut_copy_stays : ¬Intact [cutCall, wholeCall] := by
  intro intact
  have same := intact [cutCall] wholeCall [] rfl (by decide) .redsocks
  exact absurd same (by decide)

end ProxySet.App.Install
