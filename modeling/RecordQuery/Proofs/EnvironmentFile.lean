import RecordQuery.Proofs.EnvironmentLines
import RecordQuery.Proofs.Loading
import RecordQuery.Proofs.Replacing

set_option autoImplicit false

/-!
# The environment file in the place of the process

What an environment file says of a variable counts only where the process says nothing, and of
several assignments the first counts.  So the variable that names the configuration file can stand in
the process or in the environment file with the same effect, paths are walked from the working
directory either way, and an environment file is of no further consequence once the process has set
the variable (`environment_file_acts_as_process`).

An exception is a file that sets a variable to a text with the character zero.  No variable can hold
one, and the search for settings panics where it is tried, whatever stands behind it in the file
(`environment_file_with_zero_panics`).
-/

namespace RecordQuery.Workspace

open EnvFile (Parses AssignsZero FirstAssigns Names)

/-- The workspace with another content in the environment file of a directory. -/
def withEnvironmentFile (w : Workspace) (home : List String) (content : ByteArray) : Workspace :=
  { w with tree := w.tree.withContent (home ++ [".env"]) content }

/-- The workspace with the configuration file named by the process. -/
def withVariable (w : Workspace) (path : String) : Workspace :=
  { w with environment := (configurationVariable, .text path) :: w.environment }

section Loading

variable {w : Workspace} {home : List String} {content : ByteArray} {path : String}

/-! ## How a search ends -/

theorem effective_eq_load (hnearest : w.tree.IsNearest ".env" w.directory home content) :
    w.effective = (EnvFile.load w.environment content).mapError .ofStop := by
  rw [effective, FileTree.nearest?_eq_some_iff.mpr ⟨home, hnearest⟩]

/-- An environment file that is not read to its end keeps everything from being loaded. -/
theorem load_of_stop {stop : EnvFile.Stop}
    (hnearest : w.tree.IsNearest ".env" w.directory home content)
    (hstop : EnvFile.load w.environment content = .error stop) : w.load = .error (.ofStop stop) := by
  apply load_of_source_eq_error
  rw [source, effective_eq_load hnearest, hstop]
  rfl

theorem load_of_assignsZero (hnearest : w.tree.IsNearest ".env" w.directory home content)
    (hzero : AssignsZero w.environment content) : w.load = .error .panicked :=
  load_of_stop hnearest (EnvFile.load_eq_zero_iff.mpr hzero)

theorem load_of_not_parses (hnearest : w.tree.IsNearest ".env" w.directory home content)
    (hparses : ¬ Parses content) (hzero : ¬ AssignsZero w.environment content) :
    w.load = .error .environmentFile :=
  load_of_stop hnearest (EnvFile.load_eq_unreadable_iff.mpr ⟨hparses, hzero⟩)

/-- A text in force is a path, unless it is blank. -/
theorem load_of_text {environment : Environment}
    (hnearest : w.tree.IsNearest ".env" w.directory home content)
    (hload : EnvFile.load w.environment content = .ok environment)
    (htext : environment.text? configurationVariable = some path) :
    w.load = if Text.isBlank path then .error .variableBlank else w.settingsIn path := by
  have heffective : w.effective = .ok environment := by
    rw [effective_eq_load hnearest, hload]
    rfl
  have hsource := source_of_effective heffective
  rw [Environment.text?_eq_some_iff.mp htext, sourceOf] at hsource
  split at hsource
  · rename_i hblank
    rw [if_pos hblank]
    exact load_of_source_eq_error hsource
  · rename_i hblank
    rw [if_neg hblank]
    exact load_of_file hsource

/-- With the variable set by the process, an environment file that is read to its end changes
nothing. -/
theorem load_of_process (hnearest : w.tree.IsNearest ".env" w.directory home content)
    (hparses : Parses content) (hzero : ¬ AssignsZero w.environment content)
    (htext : w.environment.text? configurationVariable = some path) :
    w.load = if Text.isBlank path then .error .variableBlank else w.settingsIn path := by
  obtain ⟨environment, hload⟩ := EnvFile.exists_load_iff.mpr ⟨hparses, hzero⟩
  exact load_of_text hnearest hload (EnvFile.text?_of_foldlM hload htext)

/-- Without the variable in the process, the first assignment of an environment file counts. -/
theorem load_of_first_assignment (hnearest : w.tree.IsNearest ".env" w.directory home content)
    (hparses : Parses content) (hzero : ¬ AssignsZero w.environment content)
    (hnone : w.environment.text? configurationVariable = none)
    (hfirst : FirstAssigns w.environment content configurationVariable path) :
    w.load = if Text.isBlank path then .error .variableBlank else w.settingsIn path := by
  obtain ⟨environment, hload⟩ := EnvFile.exists_load_iff.mpr ⟨hparses, hzero⟩
  exact load_of_text hnearest hload (EnvFile.text?_of_firstAssigns hfirst hload hnone)

/-- A path that does not lead to the environment file gives the same settings whatever that file
holds. -/
theorem settingsIn_withEnvironmentFile
    (hnearest : w.tree.IsNearest ".env" w.directory home content) (other : ByteArray)
    (hpath : w.tree.resolve w.directory path ≠ .ok (home ++ [".env"])) :
    (w.withEnvironmentFile home other).settingsIn path = w.settingsIn path := by
  rw [settingsIn, settingsIn, withEnvironmentFile,
    FileTree.read_withContent hnearest.standing other hpath]

/-- The first assignment of the environment file and the process have the same say. -/
theorem load_withVariable (hnearest : w.tree.IsNearest ".env" w.directory home content)
    (hnone : w.environment.text? configurationVariable = none)
    (hfirst : FirstAssigns w.environment content configurationVariable path)
    (hvalue : '\x00' ∉ path.toList) : (w.withVariable path).load = w.load := by
  have hnearest' : (w.withVariable path).tree.IsNearest ".env" (w.withVariable path).directory home
      content := hnearest
  rcases EnvFile.sameEnd_of_firstAssigns hfirst hnone hvalue with ⟨stop, hstop, hstop'⟩ |
    ⟨environment, environment', hload, hload', -⟩
  · rw [load_of_stop hnearest hstop, load_of_stop hnearest' hstop']
  · have htext := EnvFile.text?_of_firstAssigns hfirst hload hnone
    have htext' : environment'.text? configurationVariable = some path := by
      refine EnvFile.text?_of_foldlM hload' ?_
      rw [Environment.text?_cons, if_pos rfl]
    rw [load_of_text hnearest hload htext, load_of_text hnearest' hload' htext']
    rfl

/-- A further line of the environment file that assigns to the variable may be left out. -/
theorem load_drop_later {other : ByteArray} {before after : List (Option (List Char))}
    {line : Option (List Char)} (hnearest : w.tree.IsNearest ".env" w.directory home content)
    (hnone : w.environment.text? configurationVariable = none)
    (hfirst : FirstAssigns w.environment content configurationVariable path)
    (hlines : EnvFile.lines content = before ++ line :: after)
    (hother : EnvFile.lines other = before ++ after) (hline : Names line configurationVariable)
    (hbefore : ∃ earlier ∈ before, Names earlier configurationVariable)
    (hpath : w.tree.resolve w.directory path ≠ .ok (home ++ [".env"])) :
    (w.withEnvironmentFile home other).load = w.load := by
  have hnearest' := hnearest.withContent other
  have hsame : EnvFile.load w.environment other = EnvFile.load w.environment content := by
    rw [EnvFile.load, EnvFile.load, hlines, hother, EnvFile.foldlM_drop_later hline hbefore]
  cases hload : EnvFile.load w.environment content with
  | error stop =>
    rw [hload] at hsame
    rw [load_of_stop hnearest hload]
    exact load_of_stop hnearest' hsame
  | ok environment =>
    rw [hload] at hsame
    have htext := EnvFile.text?_of_firstAssigns hfirst hload hnone
    rw [load_of_text hnearest hload htext, ← settingsIn_withEnvironmentFile hnearest other hpath]
    exact load_of_text hnearest' hsame htext

end Loading

/-- Settings named by an environment file are loaded as if the process had named them.

The environment file in force is the nearest to the working directory.  Where the process leaves the
variable unset and the first line of the file that assigns to it gives it a text, what is loaded is
what the process would have loaded with that text as its own, be it settings, a fault or a panic.  A
text that is not blank is a path from the working directory, wherever the environment file stands; a
further line that assigns to the variable may as well be left out, and any other content with the same
first assignment gives the same settings.  Where the first such line is not reached because of a zero,
the text of the variable has no say in that either.

Where the process has set the variable to a text, one content that is read to its end is as good as
another.  Either way the environment file must not be the configuration file itself, whose content
does count.

A content that cannot be read is a fault in every workspace that it is nearest to, whatever the
variables are and whatever else the tree holds, unless a line before sets a variable to a zero. -/
theorem environment_file_acts_as_process (w : Workspace) (home : List String)
    (content : ByteArray) (hnearest : w.tree.IsNearest ".env" w.directory home content) :
    (∀ path, '\x00' ∉ path.toList → w.environment.get? configurationVariable = none →
      FirstAssigns w.environment content configurationVariable path →
      w.load = (w.withVariable path).load ∧
      (Parses content → ¬ AssignsZero w.environment content →
        (∃ c ∈ path.toList, Text.isSpace c = false) → w.load = w.settingsIn path) ∧
      (w.tree.resolve w.directory path ≠ .ok (home ++ [".env"]) →
        (∀ other before line after, EnvFile.lines content = before ++ line :: after →
          Names line configurationVariable →
          (∃ earlier ∈ before, Names earlier configurationVariable) →
          EnvFile.lines other = before ++ after →
          (w.withEnvironmentFile home other).load = w.load) ∧
        (∀ other, Parses content → Parses other →
          (AssignsZero w.environment content ↔ AssignsZero w.environment other) →
          FirstAssigns w.environment other configurationVariable path →
          (w.withEnvironmentFile home other).load = w.load))) ∧
    (∀ path, '\x00' ∉ path.toList → w.environment.get? configurationVariable = none →
      AssignsZero w.environment content →
      (∀ value, ¬ FirstAssigns w.environment content configurationVariable value) →
      w.load = .error .panicked ∧ (w.withVariable path).load = .error .panicked) ∧
    (∀ path, w.environment.get? configurationVariable = some (.text path) →
      w.tree.resolve w.directory path ≠ .ok (home ++ [".env"]) →
      ∀ other, Parses content → Parses other →
        (AssignsZero w.environment content ↔ AssignsZero w.environment other) →
        (w.withEnvironmentFile home other).load = w.load) ∧
    (∀ (w' : Workspace) (home' : List String), w'.tree.IsNearest ".env" w'.directory home' content →
      (¬ Parses content ∨ String.fromUTF8? content = none →
        ¬ AssignsZero w'.environment content → w'.load = .error .environmentFile) ∧
      (AssignsZero w'.environment content → w'.load = .error .panicked)) := by
  have hother : ∀ other, (w.withEnvironmentFile home other).tree.IsNearest ".env"
      (w.withEnvironmentFile home other).directory home other :=
    fun other => hnearest.withContent other
  refine ⟨?_, ?_, ?_, ?_⟩
  · intro path hvalue hunset hfirst
    have hnone := Environment.text?_eq_none_of_get? hunset
    refine ⟨(load_withVariable hnearest hnone hfirst hvalue).symm, ?_, fun hpath => ⟨?_, ?_⟩⟩
    · intro hparses hzero hspace
      have hblank : Text.isBlank path = false := List.all_eq_false.mpr (by simpa using hspace)
      rw [load_of_first_assignment hnearest hparses hzero hnone hfirst, hblank]
      rfl
    · intro other before line after hlines hline hbefore hlines'
      exact load_drop_later hnearest hnone hfirst hlines hlines' hline hbefore hpath
    · intro other hparses hparses' hzeros hfirst'
      by_cases hzero : AssignsZero w.environment content
      · rw [load_of_assignsZero hnearest hzero]
        exact load_of_assignsZero (hother other) (hzeros.mp hzero)
      · rw [load_of_first_assignment hnearest hparses hzero hnone hfirst,
          ← settingsIn_withEnvironmentFile hnearest other hpath]
        exact load_of_first_assignment (hother other) hparses' (mt hzeros.mpr hzero) hnone hfirst'
  · intro path hvalue hunset hzero hfirst
    have hnone := Environment.text?_eq_none_of_get? hunset
    have hzero' : AssignsZero (w.withVariable path).environment content :=
      hzero.set hfirst hnone hvalue
    exact ⟨load_of_assignsZero hnearest hzero,
      load_of_assignsZero (w := w.withVariable path) hnearest hzero'⟩
  · intro path hprocess hpath other hparses hparses' hzeros
    have htext := Environment.text?_eq_some_iff.mpr hprocess
    by_cases hzero : AssignsZero w.environment content
    · rw [load_of_assignsZero hnearest hzero]
      exact load_of_assignsZero (hother other) (hzeros.mp hzero)
    · rw [load_of_process hnearest hparses hzero htext,
        ← settingsIn_withEnvironmentFile hnearest other hpath]
      exact load_of_process (hother other) hparses' (mt hzeros.mpr hzero) htext
  · intro w' home' hnearest'
    refine ⟨fun hbroken hzero => ?_, load_of_assignsZero hnearest'⟩
    exact load_of_not_parses hnearest' (hbroken.elim id EnvFile.not_parses_of_fromUTF8?) hzero

/-- A working directory in which `.env` is a directory, below one in which it is a file, and a
configuration file in each.  The file assigns the variable twice; then it holds something else
instead, and then a line that is no assignment behind one that is. -/
theorem environment_file_acts_as_process_from_above :
    let text := "ENCODED_QUERY_CONFIG=q.toml\nENCODED_QUERY_CONFIG=missing.toml\n"
    let broken := "ENCODED_QUERY_CONFIG=q.toml\nBROKEN\n"
    let tree (text : String) : FileTree := .directory
      [(".env", .file text.toUTF8), ("q.toml", .file "builder.separator_policy = 1\n".toUTF8),
        ("w", .directory [(".env", .directory []),
          ("q.toml", .file "builder.hour_clock = \"twelve\"\n".toUTF8)])]
    let w : Workspace := { tree := tree text, directory := ["w"] }
    let w' : Workspace := w.withVariable "q.toml"
    let unread : Workspace := { tree := tree broken, directory := ["w"] }
    w.tree.IsNearest ".env" ["w"] [] text.toUTF8 ∧
    w.load = .ok { clock := .twelve } ∧ w'.load = w.load ∧
    (w.withEnvironmentFile [] "ENCODED_QUERY_CONFIG=q.toml\n".toUTF8).load = w.load ∧
    (w.withEnvironmentFile [] "ENCODED_QUERY_CONFIG='q.toml' # first\n".toUTF8).load = w.load ∧
    (w'.withEnvironmentFile [] "A=$B\n".toUTF8).load = w'.load ∧
    unread.load = .error .environmentFile ∧
    (unread.withVariable "q.toml").load = .error .environmentFile := by
  intro text broken tree w w' unread
  have habove : ∀ text, (tree text).IsNearest ".env" ["w"] [] text.toUTF8 := by
    intro text
    show (tree text).IsNearest ".env" ([] ++ ["w"]) [] text.toUTF8
    rw [FileTree.isNearest_concat_iff rfl, FileTree.isNearest_iff_of_fileIn? rfl]
    exact ⟨rfl, rfl⟩
  have hlines : EnvFile.lines text.toUTF8 = [some "ENCODED_QUERY_CONFIG=q.toml".toList,
      some "ENCODED_QUERY_CONFIG=missing.toml".toList] := by
    rw [EnvFile.lines_toUTF8]
    decide +kernel
  have hline : EnvFile.lines "ENCODED_QUERY_CONFIG=q.toml\n".toUTF8 =
      [some "ENCODED_QUERY_CONFIG=q.toml".toList] := by
    rw [EnvFile.lines_toUTF8]
    decide +kernel
  have hquoted : EnvFile.lines "ENCODED_QUERY_CONFIG='q.toml' # first\n".toUTF8 =
      [some "ENCODED_QUERY_CONFIG='q.toml' ".toList] := by
    rw [EnvFile.lines_toUTF8]
    decide +kernel
  have hfirst : FirstAssigns [] text.toUTF8 configurationVariable "q.toml" :=
    ⟨[], _, _, [], hlines, rfl, by decide +kernel, by simp⟩
  have hfirst' : FirstAssigns [] "ENCODED_QUERY_CONFIG='q.toml' # first\n".toUTF8
      configurationVariable "q.toml" :=
    ⟨[], _, _, [], hquoted, rfl, by decide +kernel, by simp⟩
  obtain ⟨hparses, hzero⟩ : Parses text.toUTF8 ∧ ¬ AssignsZero [] text.toUTF8 := by
    refine EnvFile.exists_load_iff.mp ⟨[(configurationVariable, .text "q.toml")], ?_⟩
    rw [EnvFile.load, hlines]
    decide +kernel
  obtain ⟨hparses', hzero'⟩ : Parses "ENCODED_QUERY_CONFIG='q.toml' # first\n".toUTF8 ∧
      ¬ AssignsZero [] "ENCODED_QUERY_CONFIG='q.toml' # first\n".toUTF8 := by
    refine EnvFile.exists_load_iff.mp ⟨[(configurationVariable, .text "q.toml")], ?_⟩
    rw [EnvFile.load, hquoted]
    decide +kernel
  obtain ⟨hunrelated, hnone⟩ : Parses "A=$B\n".toUTF8 ∧
      ¬ AssignsZero w'.environment "A=$B\n".toUTF8 := by
    refine EnvFile.exists_load_iff.mp ⟨("A", .text "") :: w'.environment, ?_⟩
    rw [EnvFile.load_toUTF8]
    decide +kernel
  have hprocess' : ¬ AssignsZero w'.environment text.toUTF8 := by
    rw [← EnvFile.load_eq_zero_iff, EnvFile.load, hlines]
    decide +kernel
  obtain ⟨hbroken, hbare⟩ : ¬ Parses broken.toUTF8 ∧ ¬ AssignsZero [] broken.toUTF8 := by
    rw [← EnvFile.load_eq_unreadable_iff, EnvFile.load_toUTF8]
    decide +kernel
  have hset : ¬ AssignsZero (unread.withVariable "q.toml").environment broken.toUTF8 := by
    rw [← EnvFile.load_eq_zero_iff, EnvFile.load_toUTF8]
    decide +kernel
  have hplace : w.tree.resolve ["w"] "q.toml" = .ok ["w", "q.toml"] := rfl
  have hother : w.tree.resolve ["w"] "q.toml" ≠ .ok ([] ++ [".env"]) := by
    rw [hplace]
    simp
  have hspace : ∃ c ∈ "q.toml".toList, Text.isSpace c = false := ⟨'q', by decide, by decide⟩
  have hdocument : Settings.ofToml "builder.hour_clock = \"twelve\"\n" =
      .ok { clock := .twelve } := by decide +kernel
  have hsettings : w.settingsIn "q.toml" = .ok { clock := .twelve } := by
    rw [settingsIn_of_read_eq_ok (FileTree.read_file hplace rfl), hdocument]
    rfl
  obtain ⟨hfile, -, -, -⟩ := environment_file_acts_as_process w [] _ (habove text)
  obtain ⟨-, -, hprocess, -⟩ := environment_file_acts_as_process w' [] _ (habove text)
  obtain ⟨-, -, -, hunread⟩ := environment_file_acts_as_process unread [] _ (habove broken)
  obtain ⟨hsame, hpath, hlater⟩ := hfile "q.toml" (by decide) rfl hfirst
  obtain ⟨hdropped, hreplaced⟩ := hlater hother
  refine ⟨habove text, ?_, hsame.symm, ?_, ?_, ?_, ?_, ?_⟩
  · rw [hpath hparses hzero hspace, hsettings]
  · refine hdropped _ [some "ENCODED_QUERY_CONFIG=q.toml".toList]
      (some "ENCODED_QUERY_CONFIG=missing.toml".toList) [] hlines ?_ ?_ hline
    · decide +kernel
    · exact ⟨_, List.mem_singleton_self _, by decide +kernel⟩
  · exact hreplaced _ hparses hparses' (iff_of_false hzero hzero') hfirst'
  · exact hprocess "q.toml" rfl hother _ hparses hunrelated (iff_of_false hprocess' hnone)
  · exact (hunread unread [] (habove broken)).1 (.inl hbroken) hbare
  · exact (hunread (unread.withVariable "q.toml") [] (habove broken)).1 (.inl hbroken) hset

/-- A content that is read to its end is as good as another, and one that cannot be read is a fault,
only as long as no line sets a variable to the character zero: a file `.env` that assigns it, instead
of one that assigns a digit, and one that assigns it before a line that is no assignment. -/
theorem environment_file_with_zero_panics :
    let tree (text : String) : FileTree :=
      .directory [(".env", .file text.toUTF8), ("q.toml", .file "".toUTF8)]
    let w : Workspace :=
      { tree := tree "A=1\n", environment := [(configurationVariable, .text "q.toml")] }
    let unread : Workspace := { tree := tree "A=\x00\nBROKEN\n" }
    (w.tree.IsNearest ".env" w.directory [] "A=1\n".toUTF8 ∧ Parses "A=1\n".toUTF8 ∧
      Parses "A=\x00\n".toUTF8 ∧
      w.environment.get? configurationVariable = some (.text "q.toml") ∧
      w.tree.resolve w.directory "q.toml" ≠ .ok [".env"] ∧
      w.load = .ok {} ∧ (w.withEnvironmentFile [] "A=\x00\n".toUTF8).load = .error .panicked) ∧
    unread.tree.IsNearest ".env" unread.directory [] "A=\x00\nBROKEN\n".toUTF8 ∧
      ¬ Parses "A=\x00\nBROKEN\n".toUTF8 ∧ unread.load = .error .panicked := by
  intro tree w unread
  have hnearest : ∀ text, (tree text).IsNearest ".env" [] [] text.toUTF8 := fun text =>
    (FileTree.isNearest_iff_of_fileIn? rfl).mpr ⟨rfl, rfl⟩
  have hplace : w.tree.resolve w.directory "q.toml" = .ok ["q.toml"] := rfl
  have hother : w.tree.resolve w.directory "q.toml" ≠ .ok [".env"] := by
    rw [hplace]
    simp
  have hdigit : EnvFile.load w.environment "A=1\n".toUTF8 =
      .ok (("A", .text "1") :: w.environment) := by
    rw [EnvFile.load_toUTF8]
    decide +kernel
  obtain ⟨hparses, hnone⟩ := EnvFile.exists_load_iff.mp ⟨_, hdigit⟩
  have hparses' : Parses "A=\x00\n".toUTF8 := by
    rw [Parses, EnvFile.lines_toUTF8]
    decide +kernel
  have hzero : AssignsZero w.environment "A=\x00\n".toUTF8 := by
    rw [← EnvFile.load_eq_zero_iff, EnvFile.load_toUTF8]
    decide +kernel
  have hbroken : ¬ Parses "A=\x00\nBROKEN\n".toUTF8 := by
    rw [Parses, EnvFile.lines_toUTF8]
    decide +kernel
  have hbefore : AssignsZero [] "A=\x00\nBROKEN\n".toUTF8 := by
    rw [← EnvFile.load_eq_zero_iff, EnvFile.load_toUTF8]
    decide +kernel
  refine ⟨⟨hnearest _, hparses, hparses', rfl, hother, ?_, ?_⟩, hnearest _, hbroken, ?_⟩
  · have hdocument : Settings.ofToml "" = .ok {} := by decide +kernel
    rw [load_of_text (hnearest _) hdigit rfl, settingsIn_of_read_eq_ok
      (FileTree.read_file hplace rfl), hdocument]
    rfl
  · exact load_of_assignsZero ((hnearest _).withContent _) hzero
  · exact load_of_assignsZero (hnearest _) hbefore

end RecordQuery.Workspace
