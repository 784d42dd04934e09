import AiOrchestrator.Execution.GitOutput
import AiOrchestrator.Execution.TaskRunner

/-!
# The changed files of a working tree

What `git status --porcelain` prints for the changes of a working tree, and what the check of
the execution policy makes of it. An entry has two columns, for the index and for the working
tree, a blank, and a path: the old and the new one with an arrow between them for a renamed
file, and one path with a slash at its end for a directory without tracked files, whatever is
in it. A path with a blank or an unusual character stands between quotes.

The program trims a line before it cuts off three characters. Where the first column is blank
it therefore cuts off the first character of the path (`cut`); and quotes, arrows and
slashes stay in what it takes for the path of a file (`shownPath`). `listedFiles_porcelain` is its reading of
a whole listing.
-/

namespace AiOrchestrator

/-! ### Changes of a working tree -/

/-- What a column of the status says. -/
inductive StatusColumn
  | unmodified
  | modified
  | typeChanged
  | added
  | deleted
  | renamed
  | unmerged
  deriving DecidableEq

/-- The letter of a column. -/
def StatusColumn.letter : StatusColumn → Char
  | .unmodified => ' '
  | .modified => 'M'
  | .typeChanged => 'T'
  | .added => 'A'
  | .deleted => 'D'
  | .renamed => 'R'
  | .unmerged => 'U'

/-- **A change of the working tree**: a tracked file that differs in the index or in the working
tree, a renamed one, an untracked file, or a directory that has untracked files only. -/
inductive TreeChange
  | tracked (index worktree : StatusColumn) (path : RepoPath)
      (differs : index ≠ .unmodified ∨ worktree ≠ .unmodified)
  | renamed (index worktree : StatusColumn) (origin path : RepoPath)
      (differs : index = .renamed ∨ worktree = .renamed)
  | untracked (path : RepoPath)
  | untrackedDirectory (directory first : RepoPath) (others : List RepoPath)
      (inside : ∀ file ∈ first :: others, directory.chars ++ ['/'] <+: file.chars)

namespace TreeChange

/-- The changed files of a change, each with the paths that it has or had. -/
def files : TreeChange → List (List RepoPath)
  | .tracked _ _ path _ => [[path]]
  | .renamed _ _ origin path _ => [[origin, path]]
  | .untracked path => [[path]]
  | .untrackedDirectory _ first others _ => (first :: others).map fun file => [file]

/-- The columns of an entry. -/
def columns : TreeChange → Char × Char
  | .tracked index worktree _ _ => (index.letter, worktree.letter)
  | .renamed index worktree _ _ _ => (index.letter, worktree.letter)
  | .untracked _ => ('?', '?')
  | .untrackedDirectory _ _ _ _ => ('?', '?')

/-- What git prints after the columns and the blank. -/
def printedPath (git : GitQuoting) : TreeChange → List Char
  | .tracked _ _ path _ => git.printed true path.chars
  | .renamed _ _ origin path _ =>
    git.printed true origin.chars ++ [' ', '-', '>', ' '] ++ git.printed true path.chars
  | .untracked path => git.printed true path.chars
  | .untrackedDirectory directory _ _ _ => git.printed true (directory.chars ++ ['/'])

/-- An entry of the listing. -/
def entry (git : GitQuoting) (change : TreeChange) : List Char :=
  change.columns.1 :: change.columns.2 :: ' ' :: change.printedPath git

/-- What the program leaves of a text that begins behind the columns. -/
def cut (change : TreeChange) (cs : List Char) : List Char :=
  if change.columns.1 = ' ' then Text.dropUnits 1 cs else cs

/-- What the program takes for the path of a changed file: what git prints after the columns,
less its first code unit where the first column is blank. -/
def shownPath (git : GitQuoting) (change : TreeChange) : String :=
  Text.trim (String.ofList (change.cut ((change.printedPath git).rdropWhile Text.isSpace)))

end TreeChange

/-- What `git status --porcelain` prints. -/
def GitQuoting.porcelain (git : GitQuoting) (changes : List TreeChange) : String :=
  String.ofList (Segments.joined '\n' (changes.map (TreeChange.entry git)) [])

/-- What became of the command. -/
inductive StatusRead
  | listed (changes : List TreeChange)
  | failed (error : RuntimeError)

/-- What the command answers. -/
def StatusRead.answer (git : GitQuoting) : StatusRead → Except RuntimeError String
  | .listed changes => .ok (git.porcelain changes)
  | .failed error => .error error

/-! ### The columns -/

/-- The letters of the columns. -/
def columnLetters : List Char := [' ', 'M', 'T', 'A', 'D', 'R', 'U', '?']

theorem units_of_mem_columnLetters {c : Char} (h : c ∈ columnLetters) : Text.units c = 1 := by
  have hall : columnLetters.all (fun c => decide (Text.units c = 1)) = true := rfl
  exact of_decide_eq_true (List.all_eq_true.mp hall c h)

theorem isSpace_iff_of_mem_columnLetters {c : Char} (h : c ∈ columnLetters) :
    Text.isSpace c = true ↔ c = ' ' := by
  have hall : columnLetters.all (fun c => Text.isSpace c == decide (c = ' ')) = true := rfl
  rw [eq_of_beq (List.all_eq_true.mp hall c h), decide_eq_true_iff]

theorem StatusColumn.letter_mem (column : StatusColumn) : column.letter ∈ columnLetters := by
  cases column <;> decide

theorem StatusColumn.letter_eq_blank_iff (column : StatusColumn) :
    column.letter = ' ' ↔ column = .unmodified := by
  cases column <;> decide

namespace TreeChange

variable (git : GitQuoting) (change : TreeChange)

theorem columns_mem : change.columns.1 ∈ columnLetters ∧ change.columns.2 ∈ columnLetters := by
  have huntracked : '?' ∈ columnLetters := by decide
  cases change with
  | tracked index worktree path differs => exact ⟨index.letter_mem, worktree.letter_mem⟩
  | renamed index worktree origin path differs => exact ⟨index.letter_mem, worktree.letter_mem⟩
  | untracked path => exact ⟨huntracked, huntracked⟩
  | untrackedDirectory directory first others inside => exact ⟨huntracked, huntracked⟩

/-- One of the columns says something. -/
theorem columns_not_blank (hfirst : change.columns.1 = ' ') : change.columns.2 ≠ ' ' := by
  cases change with
  | tracked index worktree path differs =>
    intro hsecond
    rw [columns, StatusColumn.letter_eq_blank_iff] at hfirst hsecond
    exact differs.elim (absurd hfirst) (absurd hsecond)
  | renamed index worktree origin path differs =>
    intro hsecond
    rw [columns, StatusColumn.letter_eq_blank_iff] at hfirst hsecond
    rw [hfirst, hsecond] at differs
    exact differs.elim nofun nofun
  | untracked path =>
    have hmark : '?' ≠ ' ' := by decide
    exact hmark
  | untrackedDirectory directory first others inside =>
    have hmark : '?' ≠ ' ' := by decide
    exact hmark

/-- The entries have no line feed in them. -/
theorem lineFeed_not_mem_entry : '\n' ∉ change.entry git := by
  have hprinted : ∀ cs, '\n' ∉ git.printed true cs := fun cs =>
    git.control_not_mem_printed (by decide) (by decide) true cs
  have hpath : '\n' ∉ change.printedPath git := by
    cases change with
    | tracked index worktree path differs => exact hprinted path.chars
    | renamed index worktree origin path differs => simp [printedPath, hprinted]
    | untracked path => exact hprinted path.chars
    | untrackedDirectory directory first others inside => exact hprinted _
  have hcolumn : ∀ c ∈ columnLetters, '\n' ≠ c := fun c hc hline => by
    rw [← hline] at hc
    exact absurd hc (by decide +kernel)
  obtain ⟨hfirst, hsecond⟩ := change.columns_mem
  simp [entry, hpath, hcolumn _ hfirst, hcolumn _ hsecond]

end TreeChange

/-! ### The reading of an entry -/

/-- The files that `listWorkspaceChangedFiles` reads from a listing. -/
def listedFiles (stdout : String) : List String :=
  let lines := ((Text.splitOnChar '\n' stdout).map Text.trim).filter fun line =>
    3 < Text.utf16Length line
  (lines.map fun line => Text.trim (Text.sliceFrom line 3)).filter (· ≠ "")

/-- What the program reads of a line. -/
def listedEntry (line : String) : List String :=
  let trimmed := Text.trim line
  if 3 < Text.utf16Length trimmed then
    [Text.trim (Text.sliceFrom trimmed 3)].filter (· ≠ "")
  else []

theorem listedFiles_eq (stdout : String) :
    listedFiles stdout = (Text.splitOnChar '\n' stdout).flatMap listedEntry := by
  unfold listedFiles
  induction Text.splitOnChar '\n' stdout with
  | nil => rfl
  | cons line lines ih =>
    rw [List.flatMap_cons, ← ih, listedEntry]
    by_cases hlong : 3 < Text.utf16Length (Text.trim line)
    · simp [hlong, List.filter_cons]
      split <;> simp
    · simp [hlong]

/-! ### Trimming and cutting -/

theorem utf16Length_ofList (cs : List Char) :
    Text.utf16Length (String.ofList cs) = (cs.map Text.units).sum := by
  rw [Text.utf16Length, String.toList_ofList]

theorem units_pos (c : Char) : 0 < Text.units c := by
  unfold Text.units
  split <;> omega

/-- Every character has at least one unit. -/
theorem length_le_units (cs : List Char) : cs.length ≤ (cs.map Text.units).sum := by
  induction cs with
  | nil => exact Nat.le_refl 0
  | cons c cs ih =>
    rw [List.length_cons, List.map_cons, List.sum_cons]
    have hc := units_pos c
    omega

theorem trim_ofList (cs : List Char) :
    Text.trim (String.ofList cs) = String.ofList ((cs.dropWhile Text.isSpace).rdropWhile Text.isSpace) := by
  rw [Text.trim, String.toList_ofList]
  rfl

/-- Behind two characters of one unit each a third one is cut off. -/
theorem sliceFrom_three {x y : Char} (hx : Text.units x = 1) (hy : Text.units y = 1)
    (cs : List Char) :
    Text.sliceFrom (String.ofList (x :: y :: cs)) 3 = String.ofList (Text.dropUnits 1 cs) := by
  rw [Text.sliceFrom, String.toList_ofList, Text.dropUnits, if_pos hx, Text.dropUnits, if_pos hy]

theorem dropUnits_one {c : Char} (hc : Text.units c = 1) (cs : List Char) :
    Text.dropUnits 1 (c :: cs) = cs :=
  if_pos hc

/-- An entry whose trimmed text is short is not read. -/
theorem listedEntry_of_short {line : String} (h : Text.utf16Length (Text.trim line) ≤ 3) :
    listedEntry line = [] := by
  unfold listedEntry
  exact if_neg (Nat.not_lt.mpr h)

theorem listedEntry_of_long {line : String} (h : 3 < Text.utf16Length (Text.trim line)) :
    listedEntry line = [Text.trim (Text.sliceFrom (Text.trim line) 3)].filter (· ≠ "") := by
  unfold listedEntry
  exact if_pos h

namespace TreeChange

variable (git : GitQuoting) (change : TreeChange)

/-- Columns without a path behind them are not read. -/
theorem units_rdropWhile_le {columns : List Char} (h : (columns.map Text.units).sum ≤ 3) :
    ((columns.rdropWhile Text.isSpace).map Text.units).sum ≤ 3 := by
  obtain ⟨rest, hrest⟩ := List.rdropWhile_prefix Text.isSpace columns
  rw [← hrest, List.map_append, List.sum_append_nat] at h
  exact (Nat.le_add_right _ _).trans h

/-- **The reading of an entry** whose first column is not blank. -/
theorem listedEntry_of_index {x y : Char} (hx : Text.units x = 1) (hy : Text.units y = 1)
    (hspace : Text.isSpace x = false) (cs : List Char) :
    listedEntry (String.ofList (x :: y :: ' ' :: cs)) =
      [Text.trim (String.ofList (cs.rdropWhile Text.isSpace))].filter (· ≠ "") := by
  have htrim : Text.trim (String.ofList (x :: y :: ' ' :: cs)) =
      String.ofList (([x, y, ' '] ++ cs).rdropWhile Text.isSpace) := by
    rw [trim_ofList, List.dropWhile_cons_of_neg (by rw [hspace]; exact Bool.false_ne_true)]
    rfl
  rw [Segments.rdropWhile_append] at htrim
  -- A path of blanks leaves an entry too short to be read.
  by_cases hnone : cs.rdropWhile Text.isSpace = []
  · rw [if_pos hnone] at htrim
    rw [hnone, listedEntry_of_short]
    · rfl
    · rw [htrim, utf16Length_ofList]
      refine units_rdropWhile_le (Nat.le_of_eq ?_)
      show Text.units x + (Text.units y + 1) = 3
      rw [hx, hy]
  · rw [if_neg hnone] at htrim
    have hlong : 3 < Text.utf16Length (Text.trim (String.ofList (x :: y :: ' ' :: cs))) := by
      rw [htrim, utf16Length_ofList]
      have hlength := length_le_units ([x, y, ' '] ++ cs.rdropWhile Text.isSpace)
      have hpos := List.length_pos_iff.mpr hnone
      rw [List.length_append] at hlength
      exact Nat.lt_of_lt_of_le (Nat.lt_add_of_pos_right hpos) hlength
    rw [listedEntry_of_long hlong, htrim]
    show [Text.trim (Text.sliceFrom (String.ofList (x :: y :: ' ' :: _)) 3)].filter (· ≠ "") = _
    rw [sliceFrom_three hx hy, dropUnits_one (by decide)]
    rfl

/-- **The reading of an entry** whose first column is blank: the path loses its first character. -/
theorem listedEntry_of_worktree {y : Char} (hy : Text.units y = 1) (hspace : Text.isSpace y = false)
    (cs : List Char) :
    listedEntry (String.ofList (' ' :: y :: ' ' :: cs)) =
      [Text.trim (String.ofList (Text.dropUnits 1 (cs.rdropWhile Text.isSpace)))].filter
        (· ≠ "") := by
  -- The blank in front is trimmed away, which moves the columns by one.
  have htrim : Text.trim (String.ofList (' ' :: y :: ' ' :: cs)) =
      String.ofList (([y, ' '] ++ cs).rdropWhile Text.isSpace) := by
    rw [trim_ofList, List.dropWhile_cons_of_pos (by decide),
      List.dropWhile_cons_of_neg (by rw [hspace]; exact Bool.false_ne_true)]
    rfl
  rw [Segments.rdropWhile_append] at htrim
  rcases hkept : cs.rdropWhile Text.isSpace with _ | ⟨c, rest⟩
  · rw [if_pos hkept] at htrim
    rw [listedEntry_of_short]
    · rfl
    · rw [htrim, utf16Length_ofList]
      refine units_rdropWhile_le (Nat.le_succ_of_le (Nat.le_of_eq ?_))
      show Text.units y + 1 = 2
      rw [hy]
  · rw [hkept, if_neg (List.cons_ne_nil c rest)] at htrim
    by_cases hlong : 3 < Text.utf16Length (Text.trim (String.ofList (' ' :: y :: ' ' :: cs)))
    · rw [listedEntry_of_long hlong, htrim]
      show [Text.trim (Text.sliceFrom (String.ofList (y :: ' ' :: c :: rest)) 3)].filter
        (· ≠ "") = _
      rw [sliceFrom_three hy (by decide)]
    · -- a path of one unit is not read, and has nothing behind its first character
      rw [listedEntry_of_short (Nat.not_lt.mp hlong)]
      have hlength : Text.units y + (Text.units ' ' + (Text.units c + (rest.map Text.units).sum)) ≤ 3 := by
        rw [htrim, utf16Length_ofList] at hlong
        exact Nat.not_lt.mp hlong
      have hblank : Text.units ' ' = 1 := by decide
      have hc := units_pos c
      have hrest := length_le_units rest
      have hnone : rest = [] := List.eq_nil_of_length_eq_zero (by omega)
      rw [dropUnits_one (by omega), hnone]
      rfl

/-- **The reading of an entry.** -/
theorem listedEntry_entry :
    listedEntry (String.ofList (change.entry git)) = [change.shownPath git].filter (· ≠ "") := by
  obtain ⟨hfirst, hsecond⟩ := change.columns_mem
  have hworktree := units_of_mem_columnLetters hsecond
  unfold entry shownPath cut
  by_cases hblank : change.columns.1 = ' '
  · have hspace : Text.isSpace change.columns.2 = false := by
      rw [← Bool.not_eq_true, isSpace_iff_of_mem_columnLetters hsecond]
      exact change.columns_not_blank hblank
    rw [if_pos hblank, hblank]
    exact listedEntry_of_worktree hworktree hspace _
  · have hspace : Text.isSpace change.columns.1 = false := by
      rw [← Bool.not_eq_true, isSpace_iff_of_mem_columnLetters hfirst]
      exact hblank
    rw [if_neg hblank]
    exact listedEntry_of_index (units_of_mem_columnLetters hfirst) hworktree hspace _

end TreeChange

/-- **The reading of a listing.** -/
theorem listedFiles_porcelain (git : GitQuoting) (changes : List TreeChange) :
    listedFiles (git.porcelain changes) = (changes.map (TreeChange.shownPath git)).filter (· ≠ "") := by
  have hlines : ∀ line ∈ changes.map (TreeChange.entry git), '\n' ∉ line := by
    intro line hline
    obtain ⟨change, -, rfl⟩ := List.mem_map.mp hline
    exact change.lineFeed_not_mem_entry git
  rw [listedFiles_eq, GitQuoting.porcelain, Segments.splitOnChar_joined hlines, List.flatMap_append,
    List.map_map]
  have hlast : [""].flatMap listedEntry = [] := by decide
  rw [hlast, List.append_nil]
  induction changes with
  | nil => rfl
  | cons change changes ih =>
    rw [List.map_cons, List.flatMap_cons, ih, List.map_cons, Function.comp_apply,
      TreeChange.listedEntry_entry, ← List.filter_append]
    · rfl
    · intro line hline
      exact hlines line (List.mem_cons_of_mem _ hline)

end AiOrchestrator
