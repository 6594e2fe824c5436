import Mathlib.Data.List.Infix
import ProxySet.Redsocks.ClientCore

/-!
`FileTool.copyDir`: a tree of files, a destination with any content, and calls of the file system
that may fail.  Paths are relative to the two directories that are passed.
-/

namespace ProxySet.FileTool

abbrev Path := List Bytes

/-! ### The destination -/

inductive Node where
  | file (content : Bytes)
  | directory
  deriving DecidableEq

structure Destination where
  node : Path → Option Node
  rooted : ∀ parent name, node (parent ++ [name]) ≠ none → node parent = some .directory

def Destination.put (dst : Destination) (parent : Path) (name : Bytes) (new : Node)
    (inside : dst.node parent = some .directory)
    (free : dst.node (parent ++ [name]) ≠ some .directory) : Destination where
  node path := if path = parent ++ [name] then some new else dst.node path
  rooted other child := by
    intro present
    have notParent : other ≠ parent ++ [name] ∨ dst.node (other ++ [child]) = none := by
      by_cases same : other = parent ++ [name]
      · refine .inr (by_contra fun there => free ?_)
        rw [← same]
        exact dst.rooted other child there
      · exact .inl same
    by_cases here : other ++ [child] = parent ++ [name]
    · obtain ⟨rfl, -⟩ := List.append_inj' here rfl
      rw [if_neg (by simp)]
      exact inside
    · rw [if_neg here] at present
      rw [if_neg (notParent.resolve_right present)]
      exact dst.rooted other child present

@[simp] theorem Destination.put_node {dst : Destination} {parent : Path} {name : Bytes} {new : Node}
    (inside : dst.node parent = some .directory)
    (free : dst.node (parent ++ [name]) ≠ some .directory) (path : Path) :
    (dst.put parent name new inside free).node path =
      if path = parent ++ [name] then some new else dst.node path :=
  rfl

/-! ### The source -/

/-- What is left of the array of `listFiles`, with the files below each directory. -/
inductive Listing where
  | nil
  | file (name content : Bytes) (rest : Listing)
  | directory (name : Bytes) (inside rest : Listing)

namespace Listing

def names : Listing → List Bytes
  | .nil => []
  | .file name _ rest => name :: rest.names
  | .directory name _ rest => name :: rest.names

def Distinct : Listing → Prop
  | .nil => True
  | .file name _ rest => name ∉ rest.names ∧ rest.Distinct
  | .directory name inside rest => name ∉ rest.names ∧ inside.Distinct ∧ rest.Distinct

inductive HasFile : Listing → Path → Bytes → Prop
  | here {name content : Bytes} {rest : Listing} : HasFile (.file name content rest) [name] content
  | behindFile {name other content : Bytes} {rest : Listing} {path : Path} :
      HasFile rest path content → HasFile (.file name other rest) path content
  | inside {name content : Bytes} {inside rest : Listing} {path : Path} :
      HasFile inside path content → HasFile (.directory name inside rest) (name :: path) content
  | behindDirectory {name content : Bytes} {inside rest : Listing} {path : Path} :
      HasFile rest path content → HasFile (.directory name inside rest) path content

theorem HasFile.first {listing : Listing} {path : Path} {content : Bytes}
    (has : listing.HasFile path content) :
    ∃ name more, path = name :: more ∧ name ∈ listing.names := by
  induction has with
  | here => exact ⟨_, _, rfl, List.mem_cons_self⟩
  | behindFile _ ih =>
      obtain ⟨name, more, same, member⟩ := ih
      exact ⟨name, more, same, List.mem_cons_of_mem _ member⟩
  | inside _ _ => exact ⟨_, _, rfl, List.mem_cons_self⟩
  | behindDirectory _ ih =>
      obtain ⟨name, more, same, member⟩ := ih
      exact ⟨name, more, same, List.mem_cons_of_mem _ member⟩

end Listing

structure SourceTree where
  listing : Listing
  distinct : listing.Distinct

/-! ### The calls -/

/-- A copy fails before its output has been opened, or it truncates the output and transfers some
bytes, and may then throw. -/
inductive Copying where
  | unopened
  | transferred (count : Nat) (throws : Bool)
  deriving DecidableEq

def Copying.count : Copying → Option Nat
  | .unopened => none
  | .transferred count _ => some count

structure Calls where
  listFilesFails : Path → Bool
  isDirectoryFails : Path → Bool
  mkdirFails : Path → Bool
  copying : Path → Copying

def copyFile (copying : Copying) (content : Bytes) (dst : Destination) (dstDir : Path)
    (name : Bytes) : Bool × Destination :=
  match copying with
  | .unopened => (false, dst)
  | .transferred count throws =>
      if inside : dst.node dstDir = some .directory then
        if free : dst.node (dstDir ++ [name]) ≠ some .directory then
          (!throws, dst.put dstDir name (.file (content.take count)) inside free)
        else (false, dst)
      else (false, dst)

def mkdir (fails : Bool) (dst : Destination) (dstDir : Path) (name : Bytes) : Bool × Destination :=
  if fails then (false, dst)
  else if inside : dst.node dstDir = some .directory then
    if absent : dst.node (dstDir ++ [name]) = none then
      (true, dst.put dstDir name .directory inside (by simp [absent]))
    else (false, dst)
  else (false, dst)

/-- `copyDir` around its loop; the loop over `null` throws. -/
def copyDirBy (loop : Destination → Destination) (listFilesFails : Bool) (dst : Destination) :
    Bool × Destination :=
  if listFilesFails then (false, dst) else (true, loop dst)

def copyFiles (calls : Calls) : Listing → Path → Destination → Destination
  | .nil, _, dst => dst
  | .file name content rest, dir, dst =>
      copyFiles calls rest dir (copyFile (calls.copying (dir ++ [name])) content dst dir name).2
  | .directory name inside rest, dir, dst =>
      -- A directory that is not seen as one cannot be opened by `copyFile`.
      if calls.isDirectoryFails (dir ++ [name]) then
        copyFiles calls rest dir (copyFile .unopened [] dst dir name).2
      else
        let made := mkdir (calls.mkdirFails (dir ++ [name])) dst dir name
        copyFiles calls rest dir
          (if made.1 then
            (copyDirBy (copyFiles calls inside (dir ++ [name]))
              (calls.listFilesFails (dir ++ [name])) made.2).2
          else made.2)

def copyDir (calls : Calls) (src : SourceTree) (dst : Destination) : Bool × Destination :=
  copyDirBy (copyFiles calls src.listing []) (calls.listFilesFails []) dst

/-! ### One call -/

section

variable {calls : Calls} {dst other : Destination} {dir path : Path} {name content : Bytes}

theorem copyFile_node (copying : Copying) :
    (copyFile copying content dst dir name).2.node path =
      match copying.count with
      | none => dst.node path
      | some count =>
          if dst.node dir = some .directory ∧ dst.node (dir ++ [name]) ≠ some .directory ∧
              path = dir ++ [name] then
            some (.file (content.take count))
          else dst.node path := by
  cases copying with
  | unopened => rfl
  | transferred count throws =>
      unfold copyFile
      by_cases inside : dst.node dir = some .directory
      · by_cases free : dst.node (dir ++ [name]) ≠ some .directory
        · simp [inside, free, Copying.count]
        · simp [inside, free, Copying.count]
      · simp [inside, Copying.count]

theorem copyFile_other (copying : Copying) (away : path ≠ dir ++ [name]) :
    (copyFile copying content dst dir name).2.node path = dst.node path := by
  rw [copyFile_node]
  cases copying with
  | unopened => rfl
  | transferred count throws => simp [Copying.count, away]

theorem mkdir_other (fails : Bool) (away : path ≠ dir ++ [name]) :
    (mkdir fails dst dir name).2.node path = dst.node path := by
  unfold mkdir
  cases fails with
  | true => rfl
  | false =>
      by_cases inside : dst.node dir = some .directory
      · by_cases absent : dst.node (dir ++ [name]) = none
        · simp [inside, absent, away]
        · simp [inside, absent]
      · simp [inside]

theorem mkdir_made (fails : Bool) :
    (mkdir fails dst dir name).1 = true ↔
      fails = false ∧ dst.node dir = some .directory ∧ dst.node (dir ++ [name]) = none := by
  unfold mkdir
  cases fails with
  | true => simp
  | false =>
      by_cases inside : dst.node dir = some .directory
      · by_cases absent : dst.node (dir ++ [name]) = none
        · simp [inside, absent]
        · simp [inside, absent]
      · simp [inside]

theorem mkdir_directory {fails : Bool} (made : (mkdir fails dst dir name).1 = true) :
    (mkdir fails dst dir name).2.node (dir ++ [name]) = some .directory := by
  obtain ⟨rfl, inside, absent⟩ := (mkdir_made fails).mp made
  simp [mkdir, inside, absent]

theorem mkdir_refused {fails : Bool} (refused : (mkdir fails dst dir name).1 = false) :
    (mkdir fails dst dir name).2 = dst := by
  unfold mkdir at refused ⊢
  cases fails with
  | true => rfl
  | false =>
      by_cases inside : dst.node dir = some .directory
      · by_cases absent : dst.node (dir ++ [name]) = none
        · simp [inside, absent] at refused
        · simp [inside, absent]
      · simp [inside]

/-! ### The loop -/

theorem not_inside_of_ne {away : Bytes} (other : name ≠ away) (more : Path) :
    ¬dir ++ [name] <+: dir ++ away :: more := by
  rw [List.prefix_append_right_inj, List.cons_prefix_cons]
  exact fun both => other both.1

theorem directory_other {loop : Destination → Destination} {fails unlisted : Bool}
    (outside : ¬dir ++ [name] <+: path) (frame : ∀ dst, (loop dst).node path = dst.node path) :
    (if (mkdir fails dst dir name).1 then
      (copyDirBy loop unlisted (mkdir fails dst dir name).2).2
      else (mkdir fails dst dir name).2).node path = dst.node path := by
  have away : path ≠ dir ++ [name] := by
    rintro rfl
    exact outside List.prefix_rfl
  cases (mkdir fails dst dir name).1 with
  | false => exact mkdir_other fails away
  | true =>
      rw [if_pos rfl, copyDirBy]
      cases unlisted with
      | true => exact mkdir_other fails away
      | false => exact (frame _).trans (mkdir_other fails away)

/-- The loop changes nothing but what is at or below the names that it goes through. -/
theorem copyFiles_other (listing : Listing) : ∀ {dir path : Path} {dst : Destination},
    (∀ name ∈ listing.names, ¬dir ++ [name] <+: path) →
      (copyFiles calls listing dir dst).node path = dst.node path := by
  induction listing with
  | nil =>
      intro dir path dst _
      rfl
  | file name content rest ih =>
      intro dir path dst outside
      have away : path ≠ dir ++ [name] := by
        rintro rfl
        exact outside name List.mem_cons_self List.prefix_rfl
      rw [copyFiles, ih fun other member => outside other (List.mem_cons_of_mem _ member),
        copyFile_other _ away]
  | directory name inside rest insideIh restIh =>
      intro dir path dst outside
      have below := outside name List.mem_cons_self
      have later : ∀ other ∈ rest.names, ¬dir ++ [other] <+: path := fun other member =>
        outside other (List.mem_cons_of_mem _ member)
      rw [copyFiles]
      by_cases unseen : calls.isDirectoryFails (dir ++ [name]) = true
      · rw [if_pos unseen, restIh later]
        rfl
      · rw [if_neg unseen]
        refine (restIh later).trans (directory_other below fun dst => insideIh fun other _ within => ?_)
        exact below ((List.prefix_append _ _).trans within)

/-! ### The files that are written -/

def enters (calls : Calls) (dst : Destination) (path : Path) : Bool :=
  !calls.isDirectoryFails path && !calls.mkdirFails path && !calls.listFilesFails path &&
    decide (dst.node path = none)

def reaches (calls : Calls) (dst : Destination) : Path → Path → Bool
  | _, [] => false
  | dir, name :: more =>
      more.isEmpty || enters calls dst (dir ++ [name]) && reaches calls dst (dir ++ [name]) more

/-- How many bytes are written over the file at a path below `dir`. -/
def written (calls : Calls) (dst : Destination) (dir path : Path) : Option Nat :=
  if dst.node dir = some .directory ∧ reaches calls dst dir path = true ∧
      dst.node (dir ++ path) ≠ some .directory then
    (calls.copying (dir ++ path)).count
  else none

def copiedNode (calls : Calls) (dst : Destination) (dir path : Path) (content : Bytes) :
    Option Node :=
  match written calls dst dir path with
  | none => dst.node (dir ++ path)
  | some count => some (.file (content.take count))

theorem reaches_cons (calls : Calls) (dst : Destination) (dir : Path) (name : Bytes)
    (more : Path) : reaches calls dst dir (name :: more) =
      (more.isEmpty || enters calls dst (dir ++ [name]) && reaches calls dst (dir ++ [name]) more) :=
  rfl

theorem reaches_congr (same : ∀ more, dst.node (dir ++ name :: more) =
    other.node (dir ++ name :: more)) :
    reaches calls dst dir (name :: path) = reaches calls other dir (name :: path) := by
  induction path generalizing dir name with
  | nil => rfl
  | cons next path ih =>
      have here : enters calls dst (dir ++ [name]) = enters calls other (dir ++ [name]) := by
        rw [enters, enters, same []]
      have below : reaches calls dst (dir ++ [name]) (next :: path) =
          reaches calls other (dir ++ [name]) (next :: path) := by
        refine ih fun more => ?_
        simpa using same (next :: more)
      rw [reaches_cons calls dst dir, reaches_cons calls other dir, here, below]

theorem copiedNode_congr (dirSame : dst.node dir = other.node dir)
    (same : ∀ more, dst.node (dir ++ name :: more) = other.node (dir ++ name :: more)) :
    copiedNode calls dst dir (name :: path) content =
      copiedNode calls other dir (name :: path) content := by
  simp only [copiedNode, written, dirSame, reaches_congr same, same path]

theorem copiedNode_unwritten (unwritten : written calls dst dir path = none) :
    copiedNode calls dst dir path content = dst.node (dir ++ path) := by
  rw [copiedNode, unwritten]

theorem written_single : written calls dst dir [name] =
    if dst.node dir = some .directory ∧ dst.node (dir ++ [name]) ≠ some .directory then
      (calls.copying (dir ++ [name])).count
    else none := by
  simp [written, reaches]

theorem copyFile_copied : (copyFile (calls.copying (dir ++ [name])) content dst dir name).2.node
    (dir ++ [name]) = copiedNode calls dst dir [name] content := by
  rw [copyFile_node, copiedNode, written_single]
  by_cases opens : dst.node dir = some .directory ∧ dst.node (dir ++ [name]) ≠ some .directory
  · rw [if_pos opens]
    cases (calls.copying (dir ++ [name])).count with
    | none => rfl
    | some count => simp [opens]
  · rw [if_neg opens]
    cases (calls.copying (dir ++ [name])).count with
    | none => rfl
    | some count => exact if_neg fun all => opens ⟨all.1, all.2.1⟩

theorem written_below {more : Path} (nonempty : more ≠ [])
    (stays : ¬(dst.node dir = some .directory ∧ enters calls dst (dir ++ [name]) = true)) :
    written calls dst dir (name :: more) = none := by
  refine if_neg fun all => stays ⟨all.1, ?_⟩
  have reached := all.2.1
  rw [reaches_cons, List.isEmpty_eq_false_iff.mpr nonempty, Bool.false_or,
    Bool.and_eq_true] at reached
  exact reached.1

theorem copiedNode_below {more : Path} (nonempty : more ≠ [])
    (inside : dst.node dir = some .directory) (enter : enters calls dst (dir ++ [name]) = true)
    (made : other.node (dir ++ [name]) = some .directory)
    (same : ∀ path, path ≠ [] → dst.node (dir ++ name :: path) = other.node (dir ++ name :: path)) :
    copiedNode calls other (dir ++ [name]) more content =
      copiedNode calls dst dir (name :: more) content := by
  obtain ⟨next, more, rfl⟩ := List.exists_cons_of_ne_nil nonempty
  have reached : reaches calls other (dir ++ [name]) (next :: more) =
      reaches calls dst dir (name :: next :: more) := by
    rw [reaches_cons calls dst dir name, enter, Bool.true_and, List.isEmpty_cons, Bool.false_or]
    refine (reaches_congr fun below => ?_).symm
    simpa using same (next :: below) (List.cons_ne_nil _ _)
  have path : dir ++ [name] ++ next :: more = dir ++ name :: next :: more := by simp
  simp only [copiedNode, written, made, inside, reached, path, true_and,
    same (next :: more) (List.cons_ne_nil _ _)]

theorem directory_copied {loop : Destination → Destination} {more : Path} (nonempty : more ≠ [])
    (seen : calls.isDirectoryFails (dir ++ [name]) = false)
    (copied : ∀ dst, (loop dst).node (dir ++ [name] ++ more) =
      copiedNode calls dst (dir ++ [name]) more content) :
    (if (mkdir (calls.mkdirFails (dir ++ [name])) dst dir name).1 then
      (copyDirBy loop (calls.listFilesFails (dir ++ [name]))
        (mkdir (calls.mkdirFails (dir ++ [name])) dst dir name).2).2
      else (mkdir (calls.mkdirFails (dir ++ [name])) dst dir name).2).node (dir ++ name :: more) =
      copiedNode calls dst dir (name :: more) content := by
  cases made : (mkdir (calls.mkdirFails (dir ++ [name])) dst dir name).1 with
  | false =>
      have stays : ¬(dst.node dir = some .directory ∧ enters calls dst (dir ++ [name]) = true) := by
        rintro ⟨inside, enter⟩
        simp only [enters, Bool.and_eq_true, Bool.not_eq_true', decide_eq_true_eq] at enter
        have makes := (mkdir_made _).mpr ⟨enter.1.1.2, inside, enter.2⟩
        rw [made] at makes
        cases makes
      rw [if_neg Bool.false_ne_true, mkdir_refused made,
        copiedNode_unwritten (written_below nonempty stays)]
  | true =>
      obtain ⟨works, inside, absent⟩ := (mkdir_made _).mp made
      have same (path : Path) (deeper : path ≠ []) : dst.node (dir ++ name :: path) =
          (mkdir (calls.mkdirFails (dir ++ [name])) dst dir name).2.node (dir ++ name :: path) :=
        (mkdir_other _ (by simp [deeper])).symm
      rw [if_pos rfl, copyDirBy]
      cases listed : calls.listFilesFails (dir ++ [name]) with
      | true =>
          have stays : ¬(dst.node dir = some .directory ∧
              enters calls dst (dir ++ [name]) = true) := by
            simp [enters, listed]
          rw [if_pos rfl, copiedNode_unwritten (written_below nonempty stays), same more nonempty]
      | false =>
          have enter : enters calls dst (dir ++ [name]) = true := by
            simp [enters, seen, works, listed, absent]
          have path : dir ++ name :: more = dir ++ [name] ++ more := by simp
          rw [if_neg Bool.false_ne_true, path, copied]
          exact copiedNode_below nonempty inside enter (mkdir_directory made) same

theorem copyFiles_file (listing : Listing) : ∀ {dir path : Path} {dst : Destination}
    {content : Bytes}, listing.Distinct → listing.HasFile path content →
      (copyFiles calls listing dir dst).node (dir ++ path) =
        copiedNode calls dst dir path content := by
  induction listing with
  | nil =>
      intro dir path dst content _ has
      cases has
  | file name other rest ih =>
      intro dir path dst content distinct has
      rw [copyFiles]
      cases has with
      | here =>
          rw [copyFiles_other]
          · exact copyFile_copied
          · intro later member
            refine not_inside_of_ne ?_ []
            rintro rfl
            exact distinct.1 member
      | behindFile has =>
          obtain ⟨first, more, rfl, member⟩ := has.first
          have apart : first ≠ name := by
            rintro rfl
            exact distinct.1 member
          rw [ih distinct.2 has]
          exact copiedNode_congr (copyFile_other _ (by simp)) fun below =>
            copyFile_other _ (by simp [apart])
  | directory name inside rest insideIh restIh =>
      intro dir path dst content distinct has
      rw [copyFiles]
      cases has with
      | @inside _ _ _ _ more has =>
          have nonempty : more ≠ [] := by
            obtain ⟨first, below, rfl, -⟩ := has.first
            exact List.cons_ne_nil _ _
          have later : ∀ next ∈ rest.names, ¬dir ++ [next] <+: dir ++ name :: more := by
            intro next member
            refine not_inside_of_ne ?_ more
            rintro rfl
            exact distinct.1 member
          cases seen : calls.isDirectoryFails (dir ++ [name]) with
          | true =>
              have stays : ¬(dst.node dir = some .directory ∧
                  enters calls dst (dir ++ [name]) = true) := by
                simp [enters, seen]
              rw [if_pos rfl, copyFiles_other rest later,
                copiedNode_unwritten (written_below nonempty stays)]
              rfl
          | false =>
              rw [if_neg Bool.false_ne_true]
              exact (copyFiles_other rest later).trans
                (directory_copied nonempty seen fun dst => insideIh distinct.2.1 has)
      | behindDirectory has =>
          obtain ⟨first, more, rfl, member⟩ := has.first
          have apart : name ≠ first := by
            rintro rfl
            exact distinct.1 member
          have outside (path : Path) (elsewhere : ¬dir ++ [name] <+: path) (dst : Destination) :
              (copyFiles calls inside (dir ++ [name]) dst).node path = dst.node path :=
            copyFiles_other inside fun next _ within =>
              elsewhere ((List.prefix_append _ _).trans within)
          have above : ¬dir ++ [name] <+: dir := by
            intro within
            have longer := within.length_le
            rw [List.length_append, List.length_singleton] at longer
            omega
          cases seen : calls.isDirectoryFails (dir ++ [name]) with
          | true =>
              rw [if_pos rfl]
              exact restIh distinct.2.2 has
          | false =>
              rw [if_neg Bool.false_ne_true]
              refine (restIh distinct.2.2 has).trans (copiedNode_congr ?_ fun below => ?_)
              · exact directory_other above (outside dir above)
              · exact directory_other (not_inside_of_ne apart below)
                  (outside _ (not_inside_of_ne apart below))

end

/-! ### Whole copies -/

/-- If it says so, every file of the source is there with its bytes. -/
def Complete (calls : Calls) (src : SourceTree) (dst : Destination) : Prop :=
  (copyDir calls src dst).1 = true → ∀ path content, src.listing.HasFile path content →
    (copyDir calls src dst).2.node path = some (.file content)

/-- All bytes of the file are written, or nothing is and they are there before. -/
def Copied (calls : Calls) (dst : Destination) (path : Path) (content : Bytes) : Prop :=
  match written calls dst [] path with
  | none => dst.node path = some (.file content)
  | some count => content.length ≤ count

theorem copied_iff {calls : Calls} {dst : Destination} {path : Path} {content : Bytes} :
    copiedNode calls dst [] path content = some (.file content) ↔
      Copied calls dst path content := by
  unfold copiedNode Copied
  cases written calls dst [] path with
  | none => rfl
  | some count => simp [List.take_eq_self_iff]

/-- A reported copy is complete in exactly these cases. -/
theorem copyDir_complete_iff (calls : Calls) (src : SourceTree) (dst : Destination) :
    Complete calls src dst ↔
      calls.listFilesFails [] = true ∨ ∀ path content, src.listing.HasFile path content →
        Copied calls dst path content := by
  unfold Complete copyDir copyDirBy
  cases calls.listFilesFails [] with
  | true => simp
  | false =>
      simp only [Bool.false_eq_true, ↓reduceIte, forall_const, false_or]
      refine forall_congr' fun path => forall_congr' fun content => imp_congr_right fun has => ?_
      have found : (copyFiles calls src.listing [] dst).node path =
          copiedNode calls dst [] path content := copyFiles_file src.listing src.distinct has
      rw [found, copied_iff]

def Destination.empty : Destination where
  node path := if path = [] then some .directory else none
  rooted parent name := by simp

/-- A file `f` in a directory `d`, copied to where there is an empty `d`. -/
theorem existing_directory_skipped : ∃ src : SourceTree, ∃ dst : Destination,
    dst = (mkdir false Destination.empty [] [100]).2 ∧
    src.listing = .directory [100] (.file [102] [1] .nil) .nil ∧
    ¬Complete ⟨fun _ => false, fun _ => false, fun _ => false, fun _ => .transferred 1 false⟩
      src dst := by
  have distinct : (Listing.directory [100] (.file [102] [1] .nil) .nil).Distinct := by
    simp [Listing.Distinct, Listing.names]
  refine ⟨⟨_, distinct⟩, _, rfl, rfl, fun complete => ?_⟩
  have there : none = some (Node.file [1]) :=
    complete rfl [[100], [102]] [1] (.inside .here)
  cases there

end ProxySet.FileTool
