import AiOrchestrator.Tools.ApplyPatch

/-!
# What a patch leaves behind

`applyPatch` between the working directory and git. Git is not modelled: it is any handler of
the calls that keeps to `PatchCommands`, what the two commands are documented to do to the files of
the repository (`GitRepository`) and to print about them.

`patches_correct_iff` says when `applyPatch` does what its callers expect of it:

* `HandsOverText`: the file that git is handed is the text. Trimming takes the last line feed off,
  so that this never holds once git has been started (`Started`).
* `ReportsChanges`: the files that are reported are those that the patch changes. They are read
  from the whole index, by the names that git shows them under (`Reported`).
* `KeepsOnThrow`: where `applyPatch` throws, and its stage fails, the repository is as it was. This
  fails in the runs that are interrupted (`Interrupted`) once `git apply` has changed something.
-/

namespace AiOrchestrator

/-! ### The repository -/

namespace RepoPath

theorem text_ne_empty (f : RepoPath) : f.text ≠ "" := by
  intro h
  have hchars : f.text.toList = f.chars := String.toList_ofList
  rw [h] at hchars
  exact f.chars_ne_nil hchars.symm

/-- The text of a path determines it. -/
theorem text_injective : Function.Injective text := by
  intro f g h
  have hchars : f.chars = g.chars := by
    have hlists := congrArg String.toList h
    rwa [text, text, String.toList_ofList, String.toList_ofList] at hlists
  -- the segments between the slashes are the directories and the name
  have hsegments : ∀ p : RepoPath,
      p.chars.splitOn '/' = (p.directories ++ [p.name]).map String.toList := by
    intro p
    rw [chars, Segments.splitOn_joined ?_ p.slash_not_mem_name, List.map_append]
    · rfl
    · intro segment hmem
      obtain ⟨directory, hdirectory, rfl⟩ := List.mem_map.mp hmem
      exact p.slash_not_mem_directory hdirectory
  have hparts : f.directories ++ [f.name] = g.directories ++ [g.name] := by
    refine List.map_injective_iff.mpr (fun _ _ h => String.toList_injective h) ?_
    rw [← hsegments, ← hsegments, hchars]
  obtain ⟨hdirectories, hname⟩ := List.append_inj' hparts rfl
  rcases f with ⟨fd, fn, hf⟩
  rcases g with ⟨gd, gn, hg⟩
  dsimp only at hdirectories hname
  subst hdirectories
  cases hname
  rfl

end RepoPath

/-- The files of a repository: those of the last commit, of the index and of the workspace. -/
structure GitRepository (Blob : Type) where
  head : RepoPath → Option Blob
  index : RepoPath → Option Blob
  worktree : RepoPath → Option Blob

namespace GitRepository

variable {Blob : Type}

/-- A file is staged. -/
def Staged (r : GitRepository Blob) (f : RepoPath) : Prop := r.index f ≠ r.head f

/-- A file is changed in the index or in the workspace. -/
def Changed (before after : GitRepository Blob) (f : RepoPath) : Prop :=
  after.index f ≠ before.index f ∨ after.worktree f ≠ before.worktree f

end GitRepository

open GitRepository

/-- The name that a line of `git diff --name-only` is read as. -/
def shown (git : GitQuoting) (f : RepoPath) : String :=
  Text.trim (String.ofList (git.printed false f.chars))

/-- **What the calls do.** Only `git apply` changes the repository; it commits nothing. Its call may
be rejected although git has done its work: the signal fires late, or git prints too much. `git diff
--name-only --cached` prints the staged files, one in a line. -/
structure PatchCommands {S Blob : Type} (git : GitQuoting)
    (handle : (o : PatchCall) → S → o.Ans × S) (repo : S → GitRepository Blob) : Prop where
  mkdtemp : ∀ s, repo (handle .mkdtemp s).2 = repo s
  writeFile : ∀ path content s, repo (handle (.writeFile path content) s).2 = repo s
  rm : ∀ path s, repo (handle (.rm path) s).2 = repo s
  gitDiff : ∀ s, repo (handle .gitDiff s).2 = repo s
  gitApply_head : ∀ path s, (repo (handle (.gitApply path) s).2).head = (repo s).head
  gitDiff_prints : ∀ s listed, (handle .gitDiff s).1 = .ok listed → ∃ files : List RepoPath,
    listed.stdout =
        String.ofList (Segments.joined '\n' (files.map fun f => git.printed false f.chars) []) ∧
      ∀ f, f ∈ files ↔ (repo s).Staged f

namespace ApplyPatch

/-! ### The course of a call -/

section Course

variable {S : Type} (handle : (o : PatchCall) → S → o.Ans × S) (text : String) (s : S)
  (dir : String)

/-- The state in which `git apply` is called. -/
def readyState : S :=
  (handle (.writeFile (patchFile dir) (Text.trim text)) (handle .mkdtemp s).2).2

/-- `git apply` is called, on a file in `dir`. -/
structure Started : Prop where
  nonblank : Text.trim text ≠ ""
  mkdtemp : (handle .mkdtemp s).1 = .ok dir
  writeFile : (handle (.writeFile (patchFile dir) (Text.trim text)) (handle .mkdtemp s).2).1 = .ok ()

/-- The answer of `git apply`, and the state after it. -/
def applied : Except SystemError CommandOutput × S :=
  handle (.gitApply (patchFile dir)) (readyState handle text s dir)

/-- The answer of `git diff`, where it is called, and the state after it. -/
def listed : Except SystemError CommandOutput × S :=
  handle .gitDiff (applied handle text s dir).2

/-- Everything succeeds. -/
structure Completed : Prop where
  started : Started handle text s dir
  gitApply : ∃ output, (applied handle text s dir).1 = .ok output
  gitDiff : ∃ output, (listed handle text s dir).1 = .ok output
  rm : (handle (.rm dir) (listed handle text s dir).2).1 = .ok ()

/-- From `git apply` on a call fails or is cancelled: that of `git apply`, the listing or the removal
of the directory. -/
structure Interrupted : Prop where
  started : Started handle text s dir
  failed : (∃ error, (applied handle text s dir).1 = .error error) ∨
    (∃ error, (listed handle text s dir).1 = .error error) ∨
    ∃ error, (handle (.rm dir) (listed handle text s dir).2).1 = .error error

variable {handle text s dir} (host : Host)

/-- **A call that does not get to `git apply`** throws, and keeps what the other calls keep. -/
theorem exec_of_not_started {I : S → Prop} (hmkdtemp : ∀ s, I s → I (handle .mkdtemp s).2)
    (hwriteFile : ∀ path content s, I s → I (handle (.writeFile path content) s).2)
    (hrm : ∀ path s, I s → I (handle (.rm path) s).2) (hs : I s)
    (h : ∀ dir, ¬ Started handle text s dir) :
    ∃ error s', Act.exec handle (applyPatch host text) s = (.error error, s') ∧ I s' := by
  unfold applyPatch
  dsimp only
  by_cases hblank : Text.trim text = ""
  · rw [if_pos hblank]
    exact ⟨_, _, rfl, hs⟩
  · rw [if_neg hblank, Act.exec_bind, exec_patchCall]
    have hmade := hmkdtemp s hs
    have hnot : ∀ dir, (handle .mkdtemp s).1 = .ok dir →
        (handle (.writeFile (patchFile dir) (Text.trim text)) (handle .mkdtemp s).2).1 ≠ .ok () :=
      fun dir hdir hwrite => h dir ⟨hblank, hdir, hwrite⟩
    rcases hmk : handle .mkdtemp s with ⟨error | dir, s₁⟩
    · rw [hmk] at hmade
      exact ⟨_, _, rfl, hmade⟩
    · rw [hmk] at hmade hnot
      have hwrite := hnot dir rfl
      have hwritten := hwriteFile (patchFile dir) (Text.trim text) s₁ hmade
      dsimp only [Except.mapError]
      rw [Act.exec_finallyDo, Act.exec_bind, exec_patchCall, exec_patchCall]
      rcases hw : handle (.writeFile (patchFile dir) (Text.trim text)) s₁ with ⟨error | ⟨⟩, s₂⟩
      · rw [hw] at hwritten
        have hremoved := hrm dir s₂ hwritten
        dsimp only [Except.mapError]
        rcases hr : handle (.rm dir) s₂ with ⟨error' | ⟨⟩, s₃⟩ <;> rw [hr] at hremoved
        · exact ⟨_, _, rfl, hremoved⟩
        · exact ⟨_, _, rfl, hremoved⟩
      · exact absurd (congrArg Prod.fst hw) hwrite

/-- The two commands of a call. -/
theorem exec_commands :
    Act.exec handle (gitCommands host (patchFile dir)) (readyState handle text s dir) =
      match (applied handle text s dir).1 with
      | .error e => (.error (.system e), (applied handle text s dir).2)
      | .ok output =>
        match (listed handle text s dir).1 with
        | .error e => (.error (.system e), (listed handle text s dir).2)
        | .ok output' => (.ok (commandDiagnostics host output output'), (listed handle text s dir).2) := by
  rw [exec_gitCommands]
  unfold listed applied
  rcases handle (.gitApply (patchFile dir)) (readyState handle text s dir) with ⟨e | output, s'⟩
  · rfl
  · dsimp only
    rcases handle .gitDiff s' with ⟨e | output', s''⟩ <;> rfl

/-- **A call that gets to `git apply`**: the two commands, and the removal of the directory. -/
theorem exec_of_started (h : Started handle text s dir) :
    let commands :=
      Act.exec handle (gitCommands host (patchFile dir)) (readyState handle text s dir)
    Act.exec handle (applyPatch host text) s =
      (match (handle (.rm dir) commands.2).1 with
        | .ok _ => commands.1.mapError patchFailure
        | .error error => .error (.system error), (handle (.rm dir) commands.2).2) := by
  intro commands
  obtain ⟨hnonblank, hmkdtemp, hwriteFile⟩ := h
  unfold applyPatch
  dsimp only
  rw [if_neg hnonblank, Act.exec_bind, exec_patchCall, hmkdtemp]
  dsimp only [Except.mapError]
  have hbody : Act.exec handle
      (do
        patchCall (.writeFile (patchFile dir) (Text.trim text))
        Act.catching (gitCommands host (patchFile dir)) fun error => throw (patchFailure error))
      (handle .mkdtemp s).2 = (commands.1.mapError patchFailure, commands.2) := by
    rw [Act.exec_bind, exec_patchCall, hwriteFile]
    change Act.exec handle (Act.catching (gitCommands host (patchFile dir)) _)
      (readyState handle text s dir) = _
    rw [Act.exec_catching]
    rcases hc : Act.exec handle (gitCommands host (patchFile dir)) (readyState handle text s dir)
      with ⟨error | diagnostics, s'⟩ <;> simp only [commands, hc] <;> rfl
  rw [Act.exec_finallyDo, hbody, exec_patchCall]
  rcases handle (.rm dir) commands.2 with ⟨error | ⟨⟩, s'⟩ <;> rfl

/-- A call keeps what the listing and the removal keep of the state after `git apply`. -/
theorem keeps_of_started {I : S → Prop} (hdiff : ∀ s, I s → I (handle .gitDiff s).2)
    (hrm : ∀ path s, I s → I (handle (.rm path) s).2) (h : Started handle text s dir)
    (hI : I (applied handle text s dir).2) :
    I (Act.exec handle (applyPatch host text) s).2 := by
  rw [exec_of_started host h]
  refine hrm dir _ ?_
  have hlisted : I (listed handle text s dir).2 := hdiff _ hI
  rw [exec_commands]
  cases (applied handle text s dir).1 with
  | error e => exact hI
  | ok output => cases (listed handle text s dir).1 <;> exact hlisted

/-- A call returns if everything succeeds. -/
theorem exec_of_completed (h : Completed handle text s dir) :
    ∃ output output', (applied handle text s dir).1 = .ok output ∧
      (listed handle text s dir).1 = .ok output' ∧
      (Act.exec handle (applyPatch host text) s).1 =
        .ok (commandDiagnostics host output output') := by
  obtain ⟨hstarted, ⟨output, hout⟩, ⟨output', hout'⟩, hrm⟩ := h
  refine ⟨output, output', hout, hout', ?_⟩
  rw [exec_of_started host hstarted, exec_commands, hout]
  dsimp only
  rw [hout']
  dsimp only
  rw [hrm]
  rfl

/-- A call that gets to `git apply` and returns has completed. -/
theorem Started.completed_of_ok (h : Started handle text s dir) {diagnostics : ApplyPatchDiagnostics}
    (hok : (Act.exec handle (applyPatch host text) s).1 = .ok diagnostics) :
    Completed handle text s dir := by
  rw [exec_of_started host h, exec_commands] at hok
  cases hout : (applied handle text s dir).1 with
  | error e =>
    rw [hout] at hok
    dsimp only at hok
    cases hrm : (handle (.rm dir) (applied handle text s dir).2).1 <;> rw [hrm] at hok <;> cases hok
  | ok output =>
    rw [hout] at hok
    dsimp only at hok
    cases hout' : (listed handle text s dir).1 with
    | error e =>
      rw [hout'] at hok
      dsimp only at hok
      cases hrm : (handle (.rm dir) (listed handle text s dir).2).1 <;> rw [hrm] at hok <;>
        cases hok
    | ok output' =>
      rw [hout'] at hok
      dsimp only at hok
      cases hrm : (handle (.rm dir) (listed handle text s dir).2).1 with
      | error e =>
        rw [hrm] at hok
        cases hok
      | ok _ => exact ⟨h, ⟨output, hout⟩, ⟨output', hout'⟩, hrm⟩

/-- **A call throws** if it does not complete. -/
theorem exec_of_not_completed (h : Started handle text s dir)
    (hnot : ¬ Completed handle text s dir) :
    ∃ error, (Act.exec handle (applyPatch host text) s).1 = .error error := by
  cases hresult : (Act.exec handle (applyPatch host text) s).1 with
  | error error => exact ⟨error, rfl⟩
  | ok diagnostics => exact absurd (h.completed_of_ok host hresult) hnot

theorem Interrupted.not_completed (h : Interrupted handle text s dir) :
    ¬ Completed handle text s dir := by
  intro hcompleted
  obtain ⟨output, happlied⟩ := hcompleted.gitApply
  obtain ⟨output', hlisted⟩ := hcompleted.gitDiff
  rcases h.failed with ⟨error, hfailed⟩ | ⟨error, hfailed⟩ | ⟨error, hfailed⟩
  · cases happlied.symm.trans hfailed
  · cases hlisted.symm.trans hfailed
  · cases hcompleted.rm.symm.trans hfailed

/-- A call that gets to `git apply` and is not interrupted from there on has completed. -/
theorem Started.completed_of_not_interrupted (h : Started handle text s dir)
    (hnot : ¬ Interrupted handle text s dir) : Completed handle text s dir := by
  refine ⟨h, ?_, ?_, ?_⟩
  · cases hresult : (applied handle text s dir).1 with
    | ok output => exact ⟨output, rfl⟩
    | error error => exact absurd ⟨h, Or.inl ⟨error, hresult⟩⟩ hnot
  · cases hresult : (listed handle text s dir).1 with
    | ok output => exact ⟨output, rfl⟩
    | error error => exact absurd ⟨h, Or.inr (Or.inl ⟨error, hresult⟩)⟩ hnot
  · cases hresult : (handle (.rm dir) (listed handle text s dir).2).1 with
    | ok _ => rfl
    | error error => exact absurd ⟨h, Or.inr (Or.inr ⟨error, hresult⟩)⟩ hnot

end Course

/-! ### The names that are reported -/

/-- A path that git shows as it is, without blanks at its ends. -/
def Usual (git : GitQuoting) (f : RepoPath) : Prop := shown git f = f.text

/-- The names of the files that are listed. -/
theorem mem_parseChangedFiles (host : Host) (git : GitQuoting) (files : List RepoPath)
    (name : String) :
    name ∈ parseChangedFiles host
        (String.ofList (Segments.joined '\n' (files.map fun f => git.printed false f.chars) [])) ↔
      name ≠ "" ∧ ∃ f ∈ files, shown git f = name := by
  have hlines : ∀ line ∈ files.map (fun f => git.printed false f.chars), '\n' ∉ line := by
    intro line hline
    obtain ⟨f, -, rfl⟩ := List.mem_map.mp hline
    exact git.control_not_mem_printed (by decide) (by decide) false f.chars
  have hblank : Text.trim "" = "" := by decide
  unfold parseChangedFiles
  rw [List.mem_mergeSort, Segments.splitOnChar_joined hlines, List.mem_filter]
  simp only [List.map_append, List.map_map, List.mem_append, List.mem_map, List.map_cons,
    List.map_nil, List.mem_singleton, hblank, decide_eq_true_eq]
  constructor
  · rintro ⟨⟨f, hf, hname⟩ | hempty, hne⟩
    · exact ⟨hne, f, hf, hname⟩
    · exact absurd hempty hne
  · rintro ⟨hne, f, hf, hname⟩
    exact ⟨Or.inl ⟨f, hf, hname⟩, hne⟩

section Reported

variable {Blob : Type}

/-- A file that is staged after the patch: one that the patch changes to what is not in the last
commit, or one that was staged before. -/
def StagedAfter (before after : GitRepository Blob) (f : RepoPath) : Prop :=
  Changed before after f ∧ after.index f ≠ before.head f ∨
    ¬ Changed before after f ∧ before.Staged f

/-- **The names of the staged files are those of the changed files.** -/
structure Reported (git : GitQuoting) (before after : GitRepository Blob) : Prop where
  /-- A file that is staged is shown as a changed one. -/
  only : ∀ f, StagedAfter before after f →
    shown git f = "" ∨ ∃ g, Changed before after g ∧ g.text = shown git f
  /-- A file that is changed is shown. -/
  all : ∀ f, Changed before after f → ∃ g, StagedAfter before after g ∧ shown git g = f.text

theorem stagedAfter_iff {before after : GitRepository Blob} (hhead : after.head = before.head)
    (f : RepoPath) : StagedAfter before after f ↔ after.Staged f := by
  unfold StagedAfter Staged
  rw [hhead]
  by_cases hchanged : Changed before after f
  · simp [hchanged]
  · have hsame : after.index f = before.index f := by
      by_contra hne
      exact hchanged (Or.inl hne)
    simp [hchanged, hsame]

/-- **For usual paths**: nothing else is staged before, and the patch undoes no change that was
staged. -/
theorem reported_iff_of_usual {git : GitQuoting} {before after : GitRepository Blob}
    (husual : ∀ f, before.Staged f ∨ Changed before after f → Usual git f) :
    Reported git before after ↔
      (∀ f, before.Staged f → Changed before after f) ∧
        ∀ f, Changed before after f → after.index f ≠ before.head f := by
  have hshown : ∀ f, StagedAfter before after f → shown git f = f.text := by
    rintro f (⟨hchanged, -⟩ | ⟨-, hstaged⟩)
    · exact husual f (Or.inr hchanged)
    · exact husual f (Or.inl hstaged)
  constructor
  · rintro ⟨honly, hall⟩
    refine ⟨fun f hstaged => ?_, fun f hchanged => ?_⟩
    · by_contra hkept
      have hafter : StagedAfter before after f := Or.inr ⟨hkept, hstaged⟩
      rcases honly f hafter with hempty | ⟨g, hchanged, hname⟩
      · exact f.text_ne_empty ((hshown f hafter).symm.trans hempty)
      · exact hkept (RepoPath.text_injective (hname.trans (hshown f hafter)) ▸ hchanged)
    · obtain ⟨g, hafter, hname⟩ := hall f hchanged
      obtain rfl : g = f := RepoPath.text_injective ((hshown g hafter).symm.trans hname)
      rcases hafter with ⟨-, hne⟩ | ⟨hkept, -⟩
      · exact hne
      · exact absurd hchanged hkept
  · rintro ⟨hnone, hdiffers⟩
    refine ⟨fun f hafter => Or.inr ⟨f, ?_, (hshown f hafter).symm⟩, fun f hchanged => ?_⟩
    · rcases hafter with ⟨hchanged, -⟩ | ⟨-, hstaged⟩
      · exact hchanged
      · exact hnone f hstaged
    · exact ⟨f, Or.inl ⟨hchanged, hdiffers f hchanged⟩, husual f (Or.inr hchanged)⟩

end Reported

/-! ### What is expected of a call -/

section Expected

variable {S Blob : Type} (handle : (o : PatchCall) → S → o.Ans × S) (host : Host)

/-- A file with the given content is handed to `git apply`. -/
def HandedOver (record : List (Prog.Event PatchCall PatchCall.Ans S)) (content : String) : Prop :=
  ∃ path, (∃ e ∈ record, e.op = .gitApply path) ∧ ∃ e ∈ record, e.op = .writeFile path content

/-- What git is handed is the text. -/
def HandsOverText (text : String) (s : S) : Prop :=
  ∀ content,
    HandedOver (Act.exec (Prog.recording handle) (applyPatch host text) (s, [])).2.2 content →
      content = text

/-- What is reported is what the patch changes. -/
def ReportsChanges (repo : S → GitRepository Blob) (text : String) (s : S) : Prop :=
  ∀ diagnostics, (Act.exec handle (applyPatch host text) s).1 = .ok diagnostics →
    ∀ name, name ∈ diagnostics.changedFiles ↔
      ∃ f, Changed (repo s) (repo (Act.exec handle (applyPatch host text) s).2) f ∧ f.text = name

/-- Where the call throws, or the stage fails, the repository is as it was. -/
def KeepsOnThrow (repo : S → GitRepository Blob) (text : String) (s : S) : Prop :=
  (∀ error, (Act.exec handle (applyPatch host text) s).1 = .error error →
      repo (Act.exec handle (applyPatch host text) s).2 = repo s) ∧
    ∀ result, (Act.exec handle (executeChangeApplyStage host text) s).1 = .ok result →
      result.ok = false → repo (Act.exec handle (executeChangeApplyStage host text) s).2 = repo s

variable {handle host}

variable (handle host) in
/-- The stage fails where the call throws, and leaves what the call leaves. -/
theorem exec_executeChangeApplyStage (text : String) (s : S) :
    (∃ result, (Act.exec handle (executeChangeApplyStage host text) s).1 = .ok result ∧
      (result.ok = false ↔
        ∃ error, (Act.exec handle (applyPatch host text) s).1 = .error error)) ∧
    (Act.exec handle (executeChangeApplyStage host text) s).2 =
      (Act.exec handle (applyPatch host text) s).2 := by
  unfold executeChangeApplyStage
  rw [Act.exec_bind, Act.exec_attempt]
  rcases Act.exec handle (applyPatch host text) s with ⟨error | diagnostics, s'⟩
  · refine ⟨⟨changeApplyFailure error, rfl, fun _ => ⟨error, rfl⟩, fun _ => ?_⟩, rfl⟩
    rcases error with ⟨_ | _ | _, message, _⟩ | error <;> rfl
  · exact ⟨⟨_, rfl, nofun, fun ⟨_, h⟩ => nomatch h⟩, rfl⟩

theorem keepsOnThrow_iff {repo : S → GitRepository Blob} {text : String} {s : S} :
    KeepsOnThrow handle host repo text s ↔
      ∀ error, (Act.exec handle (applyPatch host text) s).1 = .error error →
        repo (Act.exec handle (applyPatch host text) s).2 = repo s := by
  obtain ⟨⟨result, hresult, hfails⟩, hstate⟩ := exec_executeChangeApplyStage handle host text s
  constructor
  · exact fun h => h.1
  · refine fun h => ⟨h, fun result' hresult' hnot => ?_⟩
    rw [hresult] at hresult'
    cases hresult'
    obtain ⟨error, herror⟩ := hfails.mp hnot
    rw [hstate]
    exact h error herror

/-- Trimming takes the last line feed off. -/
theorem trim_ne_of_newline {text : String} (h : ∃ front, text.toList = front ++ ['\n']) :
    Text.trim text ≠ text := by
  obtain ⟨front, htext⟩ := h
  intro heq
  have hchars := congrArg String.toList heq
  rw [Text.trim, String.toList_ofList, htext] at hchars
  have hlast := congrArg List.reverse hchars
  rw [List.reverse_reverse, List.reverse_append] at hlast
  have hdropped := List.head?_dropWhile_not Text.isSpace
    ((front ++ ['\n']).dropWhile Text.isSpace).reverse
  rw [hlast] at hdropped
  have hspace : Text.isSpace '\n' = false := hdropped
  exact absurd hspace (by decide)

/-- `git apply` is not in the record. -/
def NotApplied (c : S × List (Prog.Event PatchCall PatchCall.Ans S)) : Prop :=
  ∀ path, ∀ e ∈ c.2, e.op ≠ .gitApply path

/-- What is handed over where `git apply` is called, and where it is not. -/
theorem handsOverText_iff {text : String} (htext : Text.trim text ≠ text) (s : S) :
    HandsOverText handle host text s ↔ ∀ dir, ¬ Started handle text s dir := by
  constructor
  · intro hhands dir hstarted
    have hstarted' : Started (Prog.recording handle) text (s, []) dir :=
      ⟨hstarted.nonblank, hstarted.mkdtemp, hstarted.writeFile⟩
    have hover := keeps_of_started host
      (I := fun c => HandedOver c.2 (Text.trim text))
      (fun c ⟨path, ⟨e, he, happly⟩, e', he', hwrite⟩ =>
        ⟨path, ⟨e, List.mem_cons_of_mem _ he, happly⟩, e', List.mem_cons_of_mem _ he', hwrite⟩)
      (fun _ c ⟨path, ⟨e, he, happly⟩, e', he', hwrite⟩ =>
        ⟨path, ⟨e, List.mem_cons_of_mem _ he, happly⟩, e', List.mem_cons_of_mem _ he', hwrite⟩)
      hstarted'
      ⟨patchFile dir, ⟨_, List.mem_cons_self, rfl⟩, _,
        List.mem_cons_of_mem _ List.mem_cons_self, rfl⟩
    exact htext (hhands _ hover)
  · intro hnone content hover
    have hkept : ∀ {o : PatchCall} {c : S × List (Prog.Event PatchCall PatchCall.Ans S)},
        (∀ path, o ≠ .gitApply path) → NotApplied c →
          NotApplied (Prog.recording handle o c).2 := by
      intro o c ho hc path e he
      rcases List.mem_cons.mp he with rfl | he
      · exact ho path
      · exact hc path e he
    have hcourse : ∃ error c,
        Act.exec (Prog.recording handle) (applyPatch host text) (s, []) = (.error error, c) ∧
          ∀ path, ∀ e ∈ c.2, e.op ≠ .gitApply path :=
      exec_of_not_started host (I := NotApplied)
      (fun _ => hkept nofun) (fun _ _ _ => hkept nofun) (fun _ _ => hkept nofun)
      (fun _ _ he => absurd he List.not_mem_nil)
      (fun dir h => hnone dir ⟨h.nonblank, h.mkdtemp, h.writeFile⟩)
    obtain ⟨error, c, hexec, hc⟩ := hcourse
    obtain ⟨path, ⟨e, he, happly⟩, -⟩ := hover
    rw [hexec] at he
    exact absurd happly (hc path e he)

variable {git : GitQuoting} {repo : S → GitRepository Blob}

/-- The repository after a call, and before it. -/
theorem repo_of_started (hgit : PatchCommands git handle repo) {text : String} {s : S} {dir : String}
    (h : Started handle text s dir) :
    repo (Act.exec handle (applyPatch host text) s).2 = repo (applied handle text s dir).2 :=
  keeps_of_started host (I := fun s' => repo s' = repo (applied handle text s dir).2)
    (fun s' hs' => (hgit.gitDiff s').trans hs') (fun path s' hs' => (hgit.rm path s').trans hs') h rfl

theorem repo_readyState (hgit : PatchCommands git handle repo) (text : String) (s : S)
    (dir : String) : repo (readyState handle text s dir) = repo s :=
  (hgit.writeFile _ _ _).trans (hgit.mkdtemp s)

theorem repo_of_not_started (hgit : PatchCommands git handle repo) {text : String} {s : S}
    (h : ∀ dir, ¬ Started handle text s dir) :
    ∃ error s', Act.exec handle (applyPatch host text) s = (.error error, s') ∧ repo s' = repo s :=
  exec_of_not_started host (fun s' hs' => (hgit.mkdtemp s').trans hs')
    (fun _ _ s' hs' => (hgit.writeFile _ _ s').trans hs')
    (fun _ s' hs' => (hgit.rm _ s').trans hs') rfl h

/-- **The report** of a call that completes. -/
theorem reports_iff_of_completed (hgit : PatchCommands git handle repo) {text : String} {s : S}
    {dir : String} (h : Completed handle text s dir) :
    ReportsChanges handle host repo text s ↔
      Reported git (repo s) (repo (applied handle text s dir).2) := by
  obtain ⟨output, output', -, hlisted, hexec⟩ := exec_of_completed host h
  have hrepo : repo (Act.exec handle (applyPatch host text) s).2 =
      repo (applied handle text s dir).2 := repo_of_started hgit h.started
  have hhead : (repo (applied handle text s dir).2).head = (repo s).head := by
    rw [applied, hgit.gitApply_head, repo_readyState hgit]
  obtain ⟨files, hprinted, hfiles⟩ := hgit.gitDiff_prints _ output' hlisted
  have hstaged : ∀ f, f ∈ files ↔ StagedAfter (repo s) (repo (applied handle text s dir).2) f :=
    fun f => (hfiles f).trans (stagedAfter_iff hhead f).symm
  -- a name is reported if a staged file is shown under it
  have hnames : ∀ name, name ∈ (commandDiagnostics host output output').changedFiles ↔
      name ≠ "" ∧ ∃ f, StagedAfter (repo s) (repo (applied handle text s dir).2) f ∧
        shown git f = name := by
    intro name
    change name ∈ parseChangedFiles host output'.stdout ↔ _
    rw [hprinted, mem_parseChangedFiles]
    simp only [hstaged]
  unfold ReportsChanges
  rw [hexec, hrepo]
  constructor
  · intro hreports
    have hreports := hreports _ rfl
    refine ⟨fun f hafter => ?_, fun f hchanged => ?_⟩
    · by_cases hempty : shown git f = ""
      · exact Or.inl hempty
      · exact Or.inr ((hreports _).mp ((hnames _).mpr ⟨hempty, f, hafter, rfl⟩))
    · exact ((hnames _).mp ((hreports f.text).mpr ⟨f, hchanged, rfl⟩)).2
  · rintro ⟨honly, hall⟩ diagnostics hdiagnostics name
    cases hdiagnostics
    rw [hnames]
    constructor
    · rintro ⟨hne, f, hafter, rfl⟩
      exact (honly f hafter).resolve_left hne
    · rintro ⟨f, hchanged, rfl⟩
      exact ⟨f.text_ne_empty, hall f hchanged⟩

/-- **Patches.** For a text whose last line ends with a line feed:

* what git is handed is the text exactly if git is not started;
* what is reported is what the patch changes exactly if, where the call completes, the names of the
  staged files are those of the changed files;
* a call that throws leaves the repository as it was exactly if, where it is interrupted, `git apply`
  has changed nothing. -/
theorem patches_correct_iff (hgit : PatchCommands git handle repo) {text : String}
    (htext : ∃ front, text.toList = front ++ ['\n']) (s : S) :
    (HandsOverText handle host text s ↔ ∀ dir, ¬ Started handle text s dir) ∧
    (ReportsChanges handle host repo text s ↔ ∀ dir, Completed handle text s dir →
      Reported git (repo s) (repo (applied handle text s dir).2)) ∧
    (KeepsOnThrow handle host repo text s ↔ ∀ dir, Interrupted handle text s dir →
      repo (applied handle text s dir).2 = repo s) := by
  refine ⟨handsOverText_iff (trim_ne_of_newline htext) s, ?_, ?_⟩
  -- A call that returns has completed; one that throws before `git apply` reports nothing.
  · constructor
    · exact fun h dir hcompleted => (reports_iff_of_completed hgit hcompleted).mp h
    · intro h diagnostics hok
      by_cases hstarted : ∃ dir, Started handle text s dir
      · obtain ⟨dir, hstarted⟩ := hstarted
        have hcompleted := hstarted.completed_of_ok host hok
        exact (reports_iff_of_completed hgit hcompleted).mpr (h dir hcompleted) diagnostics hok
      · have hthrows : ∃ error s', Act.exec handle (applyPatch host text) s = (.error error, s') ∧
            repo s' = repo s := repo_of_not_started hgit (not_exists.mp hstarted)
        obtain ⟨error, s', hexec, -⟩ := hthrows
        rw [hexec] at hok
        cases hok
  · rw [keepsOnThrow_iff]
    constructor
    · intro h dir hinterrupted
      obtain ⟨error, herror⟩ :=
        exec_of_not_completed host hinterrupted.started hinterrupted.not_completed
      rw [← repo_of_started hgit hinterrupted.started]
      exact h error herror
    · intro h error herror
      by_cases hstarted : ∃ dir, Started handle text s dir
      · obtain ⟨dir, hstarted⟩ := hstarted
        rw [repo_of_started hgit hstarted]
        refine h dir ?_
        -- A started call that is not interrupted completes, and does not throw.
        by_contra hnot
        obtain ⟨_, _, -, -, hexec⟩ :=
          exec_of_completed host (hstarted.completed_of_not_interrupted hnot)
        rw [hexec] at herror
        cases herror
      · have hthrows : ∃ error s', Act.exec handle (applyPatch host text) s = (.error error, s') ∧
            repo s' = repo s := repo_of_not_started hgit (not_exists.mp hstarted)
        obtain ⟨error', s', hexec, hrepo⟩ := hthrows
        rw [hexec]
        exact hrepo

end Expected

/-! ### A repository without commits -/

/-- Whether the patch is applied, whether another file is staged, and the files outside the
repository. -/
structure PlainState where
  patched : Bool := false
  drafted : Bool := false
  files : List (String × String) := []

/-- A file at the root of the repository. -/
def rootFile (name : String) (h : name ≠ "" ∧ '/' ∉ name.toList) : RepoPath where
  directories := []
  name := name
  segments_wellFormed segment hsegment := by
    rw [List.mem_singleton.mp hsegment]
    exact h

/-- The file that the patch adds. -/
def notesFile : RepoPath := rootFile "notes" (by decide)

/-- The other file. -/
def draftFile : RepoPath := rootFile "draft" (by decide)

/-- The staged files. -/
def PlainState.staged (s : PlainState) : List RepoPath :=
  (if s.drafted then [draftFile] else []) ++ if s.patched then [notesFile] else []

def PlainState.contents (s : PlainState) (f : RepoPath) : Option String :=
  if f.text ∈ s.staged.map RepoPath.text then some "hello" else none

def plainFiles (s : PlainState) : GitRepository String where
  head _ := none
  index := s.contents
  worktree := s.contents

/-- A patch that adds the file. Git accepts it also without the last line feed, as that line belongs
to no hunk. -/
def notesPatch : String :=
  "--- /dev/null\n+++ b/notes\n@@ -0,0 +1 @@\n+hello\n\\ No newline at end of file\n"

/-- The call that is cancelled, if there is one: `git apply` after its work, or the listing. -/
inductive Cut
  | none | apply | listing
deriving DecidableEq

/-- `git apply`, which reads the file that it is handed. The patch applies once. -/
def PlainState.gitApply (s : PlainState) (cut : Cut) (path : String) :
    Except SystemError CommandOutput × PlainState :=
  if s.files.lookup path = some (Text.trim notesPatch) ∧ s.patched = false then
    (if cut = .apply then .error { isAbort := true }
      else .ok ⟨"", "Checking patch notes...\nApplied patch notes cleanly.\n"⟩,
      { s with patched := true })
  else (.error { message := some "Command failed" }, s)

/-- `git diff --name-only --cached`. -/
def PlainState.gitDiff (s : PlainState) (cut : Cut) : Except SystemError CommandOutput :=
  if cut = .listing then .error { isAbort := true }
  else .ok ⟨String.ofList (Segments.joined '\n'
    (s.staged.map fun f => GitQuoting.standard.printed false f.chars) []), ""⟩

/-- A system on which the calls succeed but for one that is cancelled. -/
def plainHandle (cut : Cut) : (o : PatchCall) → PlainState → o.Ans × PlainState
  | .mkdtemp, s => (.ok "/tmp/apply-patch-1", s)
  | .writeFile path text, s => (.ok (), { s with files := (path, text) :: s.files })
  | .rm path, s => (.ok (), { s with files := s.files.filter fun file => !file.1.startsWith path })
  | .gitApply path, s => s.gitApply cut path
  | .gitDiff, s => (s.gitDiff cut, s)

theorem plainFiles_staged (s : PlainState) (f : RepoPath) :
    (plainFiles s).Staged f ↔ f ∈ s.staged := by
  have hmem : f.text ∈ s.staged.map RepoPath.text ↔ f ∈ s.staged :=
    List.mem_map_of_injective RepoPath.text_injective
  unfold Staged plainFiles PlainState.contents
  by_cases h : f ∈ s.staged
  · simp [hmem, h]
  · simp [hmem, h]

theorem plain_commands (cut : Cut) :
    PatchCommands GitQuoting.standard (plainHandle cut) plainFiles where
  mkdtemp _ := rfl
  writeFile _ _ _ := rfl
  rm _ _ := rfl
  gitDiff _ := rfl
  gitApply_head _ _ := rfl
  gitDiff_prints s listed h := by
    change s.gitDiff cut = _ at h
    unfold PlainState.gitDiff at h
    split at h
    · cases h
    · cases h
      exact ⟨s.staged, rfl, fun f => (plainFiles_staged s f).symm⟩

theorem notesPatch_started (cut : Cut) (s : PlainState) :
    Started (plainHandle cut) notesPatch s "/tmp/apply-patch-1" :=
  ⟨by decide, rfl, rfl⟩

theorem notesPatch_ends : ∃ front, notesPatch.toList = front ++ ['\n'] :=
  ⟨notesPatch.toList.dropLast, by decide⟩

/-- A platform that compares names by their code points. -/
def plainHost : Host where
  sha256Hex := fun _ => "digest"
  localeCompare := fun a b => compare a b
  stringify := fun _ => "{}"
  tokenCost := fun _ _ => 0

theorem usual_of_staged (s : PlainState) {f : RepoPath} (h : f ∈ s.staged) :
    Usual GitQuoting.standard f := by
  have hfiles : f = notesFile ∨ f = draftFile := by
    rcases s with ⟨_ | _, _ | _, files⟩ <;> simp_all [PlainState.staged, or_comm]
  rcases hfiles with rfl | rfl <;> unfold Usual <;> decide

theorem notesFile_ne_draftFile : notesFile ≠ draftFile := fun h =>
  absurd (congrArg RepoPath.name h) (by decide)

theorem PlainState.contents_of_mem {s : PlainState} {f : RepoPath} (h : f ∈ s.staged) :
    s.contents f = some "hello" :=
  if_pos (List.mem_map_of_mem h)

theorem PlainState.contents_of_not_mem {s : PlainState} {f : RepoPath} (h : f ∉ s.staged) :
    s.contents f = none :=
  if_neg fun hmem => h ((List.mem_map_of_injective RepoPath.text_injective).mp hmem)

/-- The patch changes the file that it adds. -/
theorem plainFiles_changed (drafted : Bool) (f : RepoPath) :
    Changed (plainFiles { drafted }) (plainFiles { patched := true, drafted }) f ↔
      f = notesFile := by
  have hchanged : Changed (plainFiles { drafted }) (plainFiles { patched := true, drafted }) f ↔
      PlainState.contents { patched := true, drafted } f ≠ PlainState.contents { drafted } f :=
    or_self_iff
  rw [hchanged]
  by_cases hnotes : f = notesFile
  · have hbefore : f ∉ PlainState.staged { drafted } := by
      cases drafted <;> simp [PlainState.staged, hnotes, notesFile_ne_draftFile]
    have hafter : f ∈ PlainState.staged { patched := true, drafted } :=
      hnotes ▸ List.mem_append_right _ List.mem_cons_self
    rw [PlainState.contents_of_mem hafter, PlainState.contents_of_not_mem hbefore]
    exact iff_of_true (by simp) hnotes
  · have hsame : f ∈ PlainState.staged { patched := true, drafted } ↔
        f ∈ PlainState.staged { drafted } := by
      simp [PlainState.staged, hnotes]
    by_cases h : f ∈ PlainState.staged { drafted }
    · simp [PlainState.contents_of_mem h, PlainState.contents_of_mem (hsame.mpr h), hnotes]
    · simp [PlainState.contents_of_not_mem h,
        PlainState.contents_of_not_mem (fun hafter => h (hsame.mp hafter)), hnotes]

/-- Git reads the trimmed patch, and applies it. -/
theorem applied_plain (cut : Cut) (drafted : Bool) :
    applied (plainHandle cut) notesPatch { drafted } "/tmp/apply-patch-1" =
      (if cut = .apply then .error { isAbort := true }
        else .ok ⟨"", "Checking patch notes...\nApplied patch notes cleanly.\n"⟩,
        { readyState (plainHandle cut) notesPatch { drafted } "/tmp/apply-patch-1" with
          patched := true }) := by
  show PlainState.gitApply (readyState (plainHandle cut) notesPatch { drafted } "/tmp/apply-patch-1")
    cut (patchFile "/tmp/apply-patch-1") = _
  exact if_pos ⟨List.lookup_cons_self, rfl⟩

theorem plainFiles_applied (cut : Cut) (drafted : Bool) :
    plainFiles (applied (plainHandle cut) notesPatch { drafted } "/tmp/apply-patch-1").2 =
      plainFiles { patched := true, drafted } := by
  rw [applied_plain]
  rfl

theorem plain_completed (drafted : Bool) :
    Completed (plainHandle .none) notesPatch { drafted } "/tmp/apply-patch-1" :=
  ⟨notesPatch_started _ _, ⟨_, congrArg Prod.fst (applied_plain .none drafted)⟩, ⟨_, rfl⟩, rfl⟩

/-- Where nothing is staged and nothing is cancelled, the report is right, and there is nothing to
keep. -/
theorem patches_correct_iff_plain :
    ¬ HandsOverText (plainHandle .none) plainHost notesPatch {} ∧
      ReportsChanges (plainHandle .none) plainHost plainFiles notesPatch {} ∧
      KeepsOnThrow (plainHandle .none) plainHost plainFiles notesPatch {} := by
  have hcorrect : (HandsOverText (plainHandle .none) plainHost notesPatch {} ↔ _) ∧
      (ReportsChanges (plainHandle .none) plainHost plainFiles notesPatch {} ↔ _) ∧
      (KeepsOnThrow (plainHandle .none) plainHost plainFiles notesPatch {} ↔ _) :=
    patches_correct_iff (plain_commands .none) notesPatch_ends {}
  obtain ⟨hhands, hreports, hkeeps⟩ := hcorrect
  refine ⟨fun h => hhands.mp h _ (notesPatch_started .none {}), hreports.mpr fun dir hcompleted => ?_,
    hkeeps.mpr fun dir hinterrupted => ?_⟩
  · obtain rfl := Except.ok.inj hcompleted.started.mkdtemp
    have hstaged : ∀ f, ¬ (plainFiles {}).Staged f := fun f h =>
      absurd ((plainFiles_staged {} f).mp h) List.not_mem_nil
    have hchanged := plainFiles_changed false
    rw [plainFiles_applied, reported_iff_of_usual ?_]
    · refine ⟨fun f h => absurd h (hstaged f), fun f h => ?_⟩
      rw [(hchanged f).mp h]
      decide
    · rintro f (h | h)
      · exact absurd h (hstaged f)
      · exact usual_of_staged { patched := true } ((hchanged f).mp h ▸ List.mem_cons_self)
  · obtain rfl := Except.ok.inj hinterrupted.started.mkdtemp
    exact absurd (plain_completed false) hinterrupted.not_completed

/-- Where a cancelled call finds the patch applied, it stays applied. -/
theorem not_keepsOnThrow_of_interrupted {cut : Cut}
    (hinterrupted : Interrupted (plainHandle cut) notesPatch {} "/tmp/apply-patch-1") :
    ¬ KeepsOnThrow (plainHandle cut) plainHost plainFiles notesPatch {} := by
  intro h
  obtain ⟨error, herror⟩ :=
    exec_of_not_completed plainHost hinterrupted.started hinterrupted.not_completed
  have hkept := keepsOnThrow_iff.mp h error herror
  rw [repo_of_started (plain_commands cut) hinterrupted.started, plainFiles_applied] at hkept
  have hindex := congrArg (fun files => files.index notesFile) hkept
  exact absurd hindex (by decide)

/-- Git is handed a text without its last line feed; with another file staged, that file is
reported as changed; and where the listing is cancelled, or `git apply` after its work, the patch
stays applied. -/
theorem patch_left_behind :
    ¬ HandsOverText (plainHandle .none) plainHost notesPatch {} ∧
      ¬ ReportsChanges (plainHandle .none) plainHost plainFiles notesPatch { drafted := true } ∧
      ¬ KeepsOnThrow (plainHandle .listing) plainHost plainFiles notesPatch {} ∧
      ¬ KeepsOnThrow (plainHandle .apply) plainHost plainFiles notesPatch {} := by
  refine ⟨fun h => ?_, fun h => ?_, ?_, ?_⟩
  · exact (handsOverText_iff (trim_ne_of_newline notesPatch_ends) _).mp h _
      (notesPatch_started .none {})
  · have hreported := (reports_iff_of_completed (plain_commands .none) (plain_completed true)).mp h
    have hchanged := plainFiles_changed true
    rw [plainFiles_applied, reported_iff_of_usual ?_] at hreported
    · have hdraft : (plainFiles { drafted := true }).Staged draftFile :=
        (plainFiles_staged _ _).mpr List.mem_cons_self
      exact notesFile_ne_draftFile ((hchanged draftFile).mp (hreported.1 draftFile hdraft)).symm
    · rintro f (h | h)
      · exact usual_of_staged _ ((plainFiles_staged _ f).mp h)
      · exact usual_of_staged { patched := true } ((hchanged f).mp h ▸ List.mem_cons_self)
  · exact not_keepsOnThrow_of_interrupted ⟨notesPatch_started _ _, Or.inr (Or.inl ⟨_, rfl⟩)⟩
  · exact not_keepsOnThrow_of_interrupted
      ⟨notesPatch_started _ _, Or.inl ⟨_, congrArg Prod.fst (applied_plain .apply false)⟩⟩

end ApplyPatch

end AiOrchestrator
