import RecordQuery.Workspace

set_option autoImplicit false

/-!
# Where settings come from

Once the environment file has been read, two things decide what is loaded: the value of the variable
that names the configuration file, and what stands at the place of the default file.  A value is
never passed over for being blank, padded or no text at all, and the defaults are loaded only where
there is neither a value nor anything at that place; in all other cases settings that were loaded
are those of a document (`load_never_falls_back`).
-/

namespace RecordQuery.Workspace

/-! ## The default file -/

/-- The place of the configuration file that is read without being named. -/
def defaultPlace (w : Workspace) : List String := w.directory ++ ["encoded_query.toml"]

/-- The default path is walked in two steps from the working directory. -/
theorem resolve_defaultPath (tree : FileTree) (directory : List String) :
    tree.resolve directory defaultPath =
      (tree.step directory "." >>= (tree.step · "encoded_query.toml")) := by
  have hcomponents : FileTree.components defaultPath = [".", "encoded_query.toml"] := rfl
  have hzero : ¬ defaultPath.toList.contains '\x00' = true := by decide
  have hempty : defaultPath ≠ "" := by decide
  have hslash : defaultPath.toList.head? ≠ some '/' := by decide
  rw [FileTree.resolve, if_neg hzero, if_neg hempty, if_neg hslash, hcomponents]
  simp only [List.foldlM_cons, List.foldlM_nil, bind_pure]

/-- Where something stands at its place, the default path leads there. -/
theorem resolve_defaultPath_of_standing {w : Workspace} {node : FileTree}
    (h : w.tree.at? w.defaultPlace = some node) :
    w.tree.resolve w.directory defaultPath = .ok w.defaultPlace := by
  obtain ⟨entries, hdirectory, hchild⟩ := FileTree.at?_concat_eq_some_iff.mp h
  rw [resolve_defaultPath, FileTree.step_dot hdirectory]
  simp only [bind, Except.bind]
  rw [FileTree.step_name hdirectory (by decide), hchild]
  rfl

/-- The default path leads to something if and only if something stands at its place. -/
theorem leadsTo_defaultPath_iff {w : Workspace} :
    w.tree.leadsTo w.directory defaultPath = true ↔
      ∃ node, w.tree.at? w.defaultPlace = some node := by
  constructor
  · intro h
    rw [FileTree.leadsTo, resolve_defaultPath] at h
    cases hdot : w.tree.step w.directory "." with
    | error fault =>
      rw [hdot] at h
      cases h
    | ok place =>
      obtain ⟨entries, hdirectory⟩ := FileTree.exists_directory_of_step hdot
      rw [FileTree.step_dot hdirectory] at h
      simp only [bind, Except.bind] at h
      rw [FileTree.step_name hdirectory (by decide)] at h
      cases hchild : FileTree.child? "encoded_query.toml" entries with
      | none =>
        rw [hchild] at h
        cases h
      | some node =>
        exact ⟨node, FileTree.at?_concat_eq_some_iff.mpr ⟨entries, hdirectory, hchild⟩⟩
  · rintro ⟨node, hnode⟩
    rw [FileTree.leadsTo, resolve_defaultPath_of_standing hnode]
    rfl

/-! ## The settings in a file -/

theorem settingsIn_of_read_eq_error {w : Workspace} {path : String} {fault : FileTree.Fault}
    (h : w.tree.read w.directory path = .error fault) :
    w.settingsIn path = .error (.unreadable fault) := by
  rw [settingsIn, h]

theorem settingsIn_of_read_eq_ok {w : Workspace} {path text : String}
    (h : w.tree.read w.directory path = .ok text) :
    w.settingsIn path = (Settings.ofToml text).mapError .document := by
  rw [settingsIn, h]
  simp only
  cases Settings.ofToml text <;> rfl

/-- Settings in a file are those of the document that it holds. -/
theorem exists_document_of_settingsIn {w : Workspace} {path : String} {settings : Settings}
    (h : w.settingsIn path = .ok settings) :
    ∃ text, w.tree.read w.directory path = .ok text ∧ Settings.ofToml text = .ok settings := by
  cases hread : w.tree.read w.directory path with
  | error fault =>
    rw [settingsIn_of_read_eq_error hread] at h
    cases h
  | ok text =>
    refine ⟨text, rfl, ?_⟩
    rw [settingsIn_of_read_eq_ok hread] at h
    cases hdocument : Settings.ofToml text with
    | error mismatch =>
      rw [hdocument] at h
      cases h
    | ok found =>
      rw [hdocument] at h
      cases h
      rfl

/-! ## The source of settings -/

section Source

variable {w : Workspace} {environment : Environment}

theorem source_of_effective (h : w.effective = .ok environment) :
    w.source = w.sourceOf (environment.get? configurationVariable) := by
  rw [source, h]
  rfl

theorem load_of_source_eq_error {fault : ConfigurationFault} (h : w.source = .error fault) :
    w.load = .error fault := by
  rw [load, h]
  rfl

theorem load_of_file {path : String} (h : w.source = .ok (.file path)) :
    w.load = w.settingsIn path := by
  rw [load, h]
  rfl

theorem load_of_defaults (h : w.source = .ok .defaults) : w.load = .ok {} := by
  rw [load, h]
  rfl

/-- A file is read because the variable names it or, without the variable, because it stands at the
default place. -/
theorem sourceOf_eq_file_iff {value : Option Variable} {path : String} :
    w.sourceOf value = .ok (.file path) ↔
      (value = some (.text path) ∧ Text.isBlank path = false) ∨
      (value = none ∧ path = defaultPath ∧ ∃ node, w.tree.at? w.defaultPlace = some node) := by
  rw [← leadsTo_defaultPath_iff]
  rcases value with _ | (text | _)
  · cases h : w.tree.leadsTo w.directory defaultPath with
    | true => simp [sourceOf, h, eq_comm (a := defaultPath)]
    | false => simp [sourceOf, h]
  · cases h : Text.isBlank text with
    | true =>
      have hpath : text = path → Text.isBlank path = true := fun heq => heq ▸ h
      simpa [sourceOf, h] using hpath
    | false =>
      have hpath : text = path → Text.isBlank path = false := fun heq => heq ▸ h
      simpa [sourceOf, h] using hpath
  · simp [sourceOf]

/-- The defaults are used only without the variable and without anything at the default place. -/
theorem sourceOf_eq_defaults_iff {value : Option Variable} :
    w.sourceOf value = .ok .defaults ↔ value = none ∧ w.tree.at? w.defaultPlace = none := by
  have hstanding := leadsTo_defaultPath_iff (w := w)
  rw [← Option.ne_none_iff_exists'] at hstanding
  rcases value with _ | (text | _)
  · cases h : w.tree.leadsTo w.directory defaultPath with
    | true => simp [sourceOf, h, hstanding.mp h]
    | false =>
      rw [h] at hstanding
      simpa [sourceOf, h] using hstanding
  · cases h : Text.isBlank text <;> simp [sourceOf, h]
  · simp [sourceOf]

/-- Settings that were loaded are those of a document in a file, unless nothing says where one
is. -/
theorem load_eq_ok {settings : Settings} (h : w.load = .ok settings) :
    (w.source = .ok .defaults ∧ settings = {}) ∨
      ∃ path text, w.source = .ok (.file path) ∧ w.tree.read w.directory path = .ok text ∧
        Settings.ofToml text = .ok settings := by
  cases hsource : w.source with
  | error fault =>
    rw [load_of_source_eq_error hsource] at h
    cases h
  | ok source =>
    cases source with
    | defaults =>
      rw [load_of_defaults hsource] at h
      exact .inl ⟨rfl, (Except.ok.inj h).symm⟩
    | file path =>
      rw [load_of_file hsource] at h
      obtain ⟨text, hread, hdocument⟩ := exists_document_of_settingsIn h
      exact .inr ⟨path, text, rfl, hread, hdocument⟩

end Source

/-- What is loaded once the environment file has been read, by the value that the variable then has.

A blank text is refused, whatever stands at the default place; any other text is the path of the
file that is read, as it is and from the working directory; what is no text is refused.  Without the
variable the default file is read if anything stands at its place, be it a directory, which is no
file that can be read.  The defaults are the source exactly where there is neither, and settings
that were loaded in any other way are those of a document in the file that was named. -/
theorem load_never_falls_back (w : Workspace) (environment : Environment)
    (heffective : w.effective = .ok environment) :
    let value := environment.get? configurationVariable
    let standing := w.tree.at? w.defaultPlace
    (∀ path, value = some (.text path) →
      ((∀ c ∈ path.toList, Text.isSpace c = true) → w.load = .error .variableBlank) ∧
      ((∃ c ∈ path.toList, Text.isSpace c = false) → w.load = w.settingsIn path)) ∧
    (value = some .notText → w.load = .error .variableNotText) ∧
    (value = none → ∀ node, standing = some node →
      w.load = w.settingsIn defaultPath ∧
      w.tree.resolve w.directory defaultPath = .ok w.defaultPlace ∧
      ∀ entries, node = .directory entries → w.load = .error (.unreadable .isDirectory)) ∧
    (w.source = .ok .defaults ↔ value = none ∧ standing = none) ∧
    (w.source = .ok .defaults → w.load = .ok {}) ∧
    (∀ settings, w.load = .ok settings →
      (value = none ∧ standing = none ∧ settings = {}) ∨
      ∃ path text, (value = some (.text path) ∨ value = none ∧ path = defaultPath) ∧
        w.tree.read w.directory path = .ok text ∧ Settings.ofToml text = .ok settings) := by
  intro value standing
  have hsource : w.source = w.sourceOf value := source_of_effective heffective
  have hdefaults : w.source = .ok .defaults ↔ value = none ∧ standing = none := by
    rw [hsource]
    exact sourceOf_eq_defaults_iff
  have hfile : ∀ path, w.source = .ok (.file path) ↔
      (value = some (.text path) ∧ Text.isBlank path = false) ∨
      (value = none ∧ path = defaultPath ∧ ∃ node, standing = some node) := by
    intro path
    rw [hsource]
    exact sourceOf_eq_file_iff
  refine ⟨?_, ?_, ?_, hdefaults, load_of_defaults, ?_⟩
  · intro path hvalue
    constructor
    · intro hspace
      have hblank : Text.isBlank path = true := List.all_eq_true.mpr hspace
      apply load_of_source_eq_error
      rw [hsource, hvalue, sourceOf, if_pos hblank]
    · intro hspace
      have hblank : Text.isBlank path = false := List.all_eq_false.mpr (by simpa using hspace)
      exact load_of_file ((hfile path).mpr (.inl ⟨hvalue, hblank⟩))
  · intro hvalue
    apply load_of_source_eq_error
    rw [hsource, hvalue, sourceOf]
  · intro hvalue node hstanding
    have hload := load_of_file ((hfile defaultPath).mpr (.inr ⟨hvalue, rfl, node, hstanding⟩))
    have hresolve := resolve_defaultPath_of_standing hstanding
    refine ⟨hload, hresolve, ?_⟩
    rintro entries rfl
    rw [hload]
    exact settingsIn_of_read_eq_error (FileTree.read_directory hresolve hstanding)
  · intro settings hload
    rcases load_eq_ok hload with ⟨hsource, rfl⟩ | ⟨path, text, hpath, hread, hdocument⟩
    · obtain ⟨hvalue, hstanding⟩ := hdefaults.mp hsource
      exact .inl ⟨hvalue, hstanding, rfl⟩
    · refine .inr ⟨path, text, ?_, hread, hdocument⟩
      rcases (hfile path).mp hpath with ⟨hvalue, -⟩ | ⟨hvalue, rfl, -⟩
      · exact .inl hvalue
      · exact .inr ⟨hvalue, rfl⟩

/-- A directory in the place of the default file, without the variable and with one that holds
blanks only, among them one that does not break a line. -/
theorem load_never_falls_back_directory_at_default :
    let tree : FileTree := .directory [("w", .directory [("encoded_query.toml", .directory [])])]
    let unset : Workspace := { tree, directory := ["w"] }
    let blank : Workspace :=
      { tree, directory := ["w"], environment := [(configurationVariable, .text "\u00a0 \t")] }
    unset.effective = .ok [] ∧ unset.load = .error (.unreadable .isDirectory) ∧
    blank.effective = .ok blank.environment ∧ blank.load = .error .variableBlank := by
  intro tree unset blank
  have hunset : unset.effective = .ok [] := rfl
  have hblank : blank.effective = .ok blank.environment := rfl
  refine ⟨hunset, ?_, hblank, ?_⟩
  · obtain ⟨-, -, hdefault, -⟩ := load_never_falls_back unset [] hunset
    exact (hdefault rfl (.directory []) rfl).2.2 [] rfl
  · obtain ⟨hvalue, -⟩ := load_never_falls_back blank blank.environment hblank
    have hspace : Text.isBlank "\u00a0 \t" = true := rfl
    exact (hvalue _ rfl).1 (List.all_eq_true.mp hspace)

end RecordQuery.Workspace
