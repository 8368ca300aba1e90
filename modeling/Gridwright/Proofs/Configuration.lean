import Gridwright.Configuration
import Gridwright.Proofs.Text.Pieces
import Mathlib.Data.List.Nodup

/-!
# Configuration files that are read once

The configuration files are looked for in two directories, and nothing is said about how these
directories are related.  `pathSteps` says when two paths are the same: slashes that are doubled
and dots between them do not lead anywhere.

A path behind a directory goes one step further than the directory (`pathSteps_joinPath`), so two
candidates are the same path only if they have the same name and the directories are the same.
Hence a file is read twice exactly if the program is run in the home directory and the file is
there (`defaults_read_once_iff`).
-/

namespace Gridwright

open Gridwright.Text

/-! ### Paths -/

/-- A part of a path that leads somewhere. -/
def leads (part : String) : Bool := part ≠ "" && part ≠ "."

/-- The parts of a path that lead somewhere.  The first part says where the path starts, if only
by being empty. -/
def leading : List String → List String
  | [] => []
  | first :: rest => first :: rest.filter leads

/-- The steps of a path.  Paths with the same steps are the same path. -/
def pathSteps (path : String) : List String :=
  if path = "" then [] else leading (pathParts path)

theorem leading_concat {parts : List String} (hne : parts ≠ []) (last : String) :
    leading (parts ++ [last]) = leading parts ++ [last].filter leads := by
  obtain ⟨first, rest, rfl⟩ := List.exists_cons_of_ne_nil hne
  rw [List.cons_append, leading, leading, List.filter_append, List.cons_append]

theorem pathParts_ne_nil (path : String) : pathParts path ≠ [] := by
  simpa [pathParts] using pieces_ne_nil (· == '/') path.toList

theorem pathParts_of_no_slash {name : String} (hslash : '/' ∉ name.toList) :
    pathParts name = [name] := by
  rw [pathParts, pieces_of_not_mem hslash, List.map_singleton, String.ofList_toList]

/-- A slash and a name behind a path are one more step, unless the name leads nowhere. -/
theorem pathSteps_append {name : String} (hslash : '/' ∉ name.toList) (directory : String) :
    pathSteps (directory ++ "/" ++ name) =
      leading (pathParts directory) ++ [name].filter leads := by
  have htext : (directory ++ "/" ++ name).toList = directory.toList ++ '/' :: name.toList := by
    simp
  have hne : directory ++ "/" ++ name ≠ "" := by
    intro hempty
    rw [hempty] at htext
    simp at htext
  have hparts : pathParts (directory ++ "/" ++ name) = pathParts directory ++ [name] := by
    rw [← pathParts_of_no_slash hslash, pathParts, htext, pieces_append_separator (by rfl),
      List.map_append]
    rfl
  rw [pathSteps, if_neg hne, hparts, leading_concat (pathParts_ne_nil directory)]

/-- A name inside a directory is one step behind the directory. -/
theorem pathSteps_joinPath {name : String} (hslash : '/' ∉ name.toList)
    (hleads : leads name = true) (directory : String) :
    pathSteps (joinPath directory name) = pathSteps directory ++ [name] := by
  have hname : [name].filter leads = [name] := List.filter_cons_of_pos hleads
  unfold joinPath
  split
  · rename_i hlast
    rw [List.getLast?_eq_none_iff, String.toList_eq_nil_iff] at hlast
    subst hlast
    have hne : name ≠ "" := by
      rintro rfl
      cases hleads
    rw [pathSteps, if_neg hne, pathParts_of_no_slash hslash]
    rfl
  · rename_i last hlast
    split
    · rename_i hsign
      subst hsign
      obtain ⟨front, hfront⟩ := List.getLast?_eq_some_iff.mp hlast
      have hdirectory : directory = String.ofList front ++ "/" := by
        apply String.toList_injective
        simp [hfront]
      -- the slash at the end starts an empty part, which leads nowhere
      have hempty : [""].filter leads = [] := rfl
      have hsteps : pathSteps (String.ofList front ++ "/" ++ "") =
          leading (pathParts (String.ofList front)) ++ [""].filter leads :=
        pathSteps_append List.not_mem_nil (String.ofList front)
      rw [String.append_empty, ← hdirectory, hempty, List.append_nil] at hsteps
      rw [hsteps, hdirectory, pathSteps_append hslash, hname]
    · rw [pathSteps_append hslash, hname, pathSteps, if_neg]
      rintro rfl
      cases hlast

/-! ### Files -/

/-- What is found where there is a file with a text, or nothing. -/
def FileStatus.ofText : Option String → FileStatus
  | some text => .file text.toUTF8
  | none => .missing

/-- Surroundings in which the files are those of a map from paths to texts. -/
def Surroundings.withFiles (surroundings : Surroundings) (files : String → Option String) :
    Surroundings :=
  { surroundings with status := fun path => .ofText (files path) }

/-- The sources that are read from the files among some paths. -/
def sourcesAmong (files : String → Option String) (paths : List String) : List Source :=
  paths.filterMap fun path => (files path).map fun text => { name := path, text }

theorem sourcesAmong_append (files : String → Option String) (paths more : List String) :
    sourcesAmong files (paths ++ more) = sourcesAmong files paths ++ sourcesAmong files more :=
  List.filterMap_append

theorem fromUTF8?_toUTF8 (text : String) : String.fromUTF8? text.toUTF8 = some text := by
  unfold String.fromUTF8?
  rw [String.toUTF8_eq_toByteArray, dif_pos text.isValidUTF8]
  rfl

theorem Surroundings.read_withFiles {files : String → Option String} {path text : String}
    (htext : files path = some text) (surroundings : Surroundings) :
    (surroundings.withFiles files).read path = .ok { name := path, text } := by
  have hcontent : ((surroundings.withFiles files).status path).content = .ok text.toUTF8 := by
    simp only [withFiles, htext, FileStatus.ofText, FileStatus.content]
  rw [read, hcontent]
  simp only [Source.ofBytes, fromUTF8?_toUTF8]

/-- Files of a map from paths to texts can be read. -/
theorem Surroundings.readAll_withFiles (surroundings : Surroundings)
    (files : String → Option String) (paths : List String) :
    (surroundings.withFiles files).readAll
        (paths.filter fun path => ((surroundings.withFiles files).status path).isFile) =
      .ok (sourcesAmong files paths) := by
  induction paths with
  | nil => rfl
  | cons path paths ih =>
      unfold readAll at ih ⊢
      cases htext : files path with
      | none =>
          have hfile : ((surroundings.withFiles files).status path).isFile = false := by
            simp only [withFiles, htext, FileStatus.ofText, FileStatus.isFile]
          rw [List.filter_cons_of_neg (by simp [hfile]), ih, sourcesAmong, sourcesAmong,
            List.filterMap_cons, htext]
          rfl
      | some text =>
          have hfile : ((surroundings.withFiles files).status path).isFile = true := by
            simp only [withFiles, htext, FileStatus.ofText, FileStatus.isFile]
          rw [List.filter_cons_of_pos (by simp [hfile]), List.mapM_cons, read_withFiles htext, ih,
            sourcesAmong, sourcesAmong, List.filterMap_cons, htext]
          rfl

theorem load_defaults_withFiles (surroundings : Surroundings) (files : String → Option String) :
    Configuration.defaults.load (surroundings.withFiles files) =
      .ok (sourcesAmong files
        (configCandidates surroundings.workingDirectory surroundings.home)) :=
  surroundings.readAll_withFiles files _

/-! ### Candidates -/

/-- The names of the configuration files in a directory. -/
def configsIn (files : String → Option String) (directory : String) : List String :=
  configNames.filter fun name => (files (joinPath directory name)).isSome

theorem mem_configsIn {files : String → Option String} {directory name : String} :
    name ∈ configsIn files directory ↔
      name ∈ configNames ∧ (files (joinPath directory name)).isSome = true :=
  List.mem_filter

theorem steps_sourcesAmong (files : String → Option String) (directory : String) :
    ((sourcesAmong files (configNames.map (joinPath directory))).map
        fun source => pathSteps source.name) =
      (configsIn files directory).map fun name => pathSteps directory ++ [name] := by
  have hnames : ∀ name ∈ configNames, '/' ∉ name.toList ∧ leads name = true := by decide
  unfold configsIn
  generalize configNames = names at hnames ⊢
  induction names with
  | nil => rfl
  | cons name names ih =>
      rcases List.forall_mem_cons.mp hnames with ⟨hname, hmore⟩
      have hrest := ih hmore
      unfold sourcesAmong at hrest ⊢
      cases htext : files (joinPath directory name) with
      | none =>
          rw [List.map_cons, List.filterMap_cons, htext, List.filter_cons_of_neg (by simp [htext])]
          exact hrest
      | some text =>
          rw [List.map_cons, List.filterMap_cons, htext, List.filter_cons_of_pos (by simp [htext]),
            List.map_cons, ← pathSteps_joinPath hname.1 hname.2, ← hrest]
          rfl

theorem nodup_steps (files : String → Option String) (directory : String) :
    ((configsIn files directory).map fun name => pathSteps directory ++ [name]).Nodup := by
  have hnames : configNames.Nodup := by decide
  apply (hnames.filter _).map
  intro name other h
  simpa using h

/-- Two candidates are the same path only if their directories are. -/
theorem disjoint_steps_iff {files : String → Option String} {here there : String} :
    (∀ steps ∈ (configsIn files here).map fun name => pathSteps here ++ [name],
      ∀ others ∈ (configsIn files there).map fun name => pathSteps there ++ [name],
        steps ≠ others) ↔
      (pathSteps there = pathSteps here → ∀ name ∈ configNames,
        (files (joinPath here name)).isSome = true → files (joinPath there name) = none) := by
  simp only [List.forall_mem_map, mem_configsIn]
  constructor
  · intro h hsame name hname hhere
    by_contra hthere
    apply h name ⟨hname, hhere⟩ name ⟨hname, Option.isSome_iff_ne_none.mpr hthere⟩
    rw [hsame]
  · rintro h name ⟨hname, hhere⟩ other ⟨hother, hthere⟩ hsteps
    rcases List.append_inj' hsteps rfl with ⟨hsame, hlast⟩
    cases hlast
    rw [h hsame.symm name hname hhere] at hthere
    cases hthere

/-- The configuration files that are read by default are those among the candidates, and no path
is read twice if and only if the home directory is not the working directory or has no
configuration file. -/
theorem defaults_read_once_iff (surroundings : Surroundings) (files : String → Option String) :
    ∃ sources, Configuration.defaults.load (surroundings.withFiles files) = .ok sources ∧
      sources = sourcesAmong files
        (configCandidates surroundings.workingDirectory surroundings.home) ∧
      ((sources.map fun source => pathSteps source.name).Nodup ↔
        ∀ directory ∈ surroundings.home,
          pathSteps directory = pathSteps surroundings.workingDirectory → ∀ name ∈ configNames,
            (files (joinPath surroundings.workingDirectory name)).isSome = true →
              files (joinPath directory name) = none) := by
  refine ⟨_, load_defaults_withFiles surroundings files, rfl, ?_⟩
  have hhere := nodup_steps files surroundings.workingDirectory
  cases hhome : surroundings.home with
  | none =>
      have hsteps := steps_sourcesAmong files surroundings.workingDirectory
      simp only [configCandidates, Option.toList_none, List.flatMap_singleton, hsteps, hhere]
      simp
  | some directory =>
      have hthere := nodup_steps files directory
      simp only [configCandidates, Option.toList_some, List.flatMap_cons, List.flatMap_nil,
        List.append_nil, sourcesAmong_append, List.map_append, steps_sourcesAmong,
        List.nodup_append, hhere, hthere, true_and, disjoint_steps_iff, Option.mem_some_iff,
        forall_eq']

/-- A run in the home directory, where a configuration file links a room.  The file is compiled
alone, but it is read twice, and then its exit is there already. -/
theorem read_twice_in_home_directory :
    let text := "\"in\" : \"Hall\" -> \"Hall\"\n"
    let files : String → Option String :=
      fun path => if path = "/home/me/qb.cfg" then some text else none
    let surroundings : Surroundings :=
      { workingDirectory := "/home/me"
        home := some "/home/me"
        status := fun _ => .missing
        standardInput := ByteArray.empty }
    let source : Source := { name := "/home/me/qb.cfg", text }
    Configuration.defaults.load (surroundings.withFiles files) = .ok [source, source] ∧
      ¬ ([source, source].map fun source => pathSteps source.name).Nodup ∧
      (compile {} [source]).isOk = true ∧
      compile {} [source, source] =
        .error ⟨.duplicateExit ⟨"\"in\""⟩ ⟨"\"Hall\""⟩, some ⟨"/home/me/qb.cfg", 1⟩⟩ := by
  intro text files surroundings source
  refine ⟨?_, by decide +kernel, by decide +kernel, by decide +kernel⟩
  rw [load_defaults_withFiles]
  have hsources : sourcesAmong files (configCandidates "/home/me" (some "/home/me")) =
      [source, source] := by decide +kernel
  exact congrArg Except.ok hsources

end Gridwright
