import RecordQuery.Configured
import RecordQuery.Proofs.Loading
import RecordQuery.Proofs.Step

set_option autoImplicit false

/-!
# Queries under settings that were found

A query can be composed under the settings of a workspace, which have to be found in its files, or
under those of a document at hand.  Where the workspace selects a file, the two ways agree on every
document and all calls, and where it selects none they agree with the defaults
(`composition_by_either_entry`).  The stages fail in their order: settings that were not found hide
every fault of the query, the first call that fails hides the later ones and the build, and each
fault is handed on as it is.
-/

namespace RecordQuery

namespace Workspace

/-- The variable in force names a readable file with this text or, without the variable, the file at
the default place is one. -/
def Selects (w : Workspace) (text : String) : Prop :=
  ∃ environment path, w.effective = .ok environment ∧
    ((environment.get? configurationVariable = some (.text path) ∧
        ∃ c ∈ path.toList, Text.isSpace c = false) ∨
      (environment.get? configurationVariable = none ∧ path = defaultPath ∧
        ∃ node, w.tree.at? w.defaultPlace = some node)) ∧
    w.tree.read w.directory path = .ok text

/-- There is neither the variable nor anything at the default place. -/
def SelectsNothing (w : Workspace) : Prop :=
  ∃ environment, w.effective = .ok environment ∧
    environment.get? configurationVariable = none ∧ w.tree.at? w.defaultPlace = none

/-- The settings of a workspace that selects a text are those of the text. -/
theorem Selects.load_eq {w : Workspace} {text : String} (h : w.Selects text) :
    w.load = (Settings.ofToml text).mapError .document := by
  obtain ⟨environment, path, heffective, hpath, hread⟩ := h
  have hsource : w.source = .ok (.file path) := by
    rw [source_of_effective heffective, sourceOf_eq_file_iff]
    rcases hpath with ⟨hvalue, hspace⟩ | hdefault
    · exact .inl ⟨hvalue, List.all_eq_false.mpr (by simpa using hspace)⟩
    · exact .inr hdefault
  rw [load_of_file hsource, settingsIn_of_read_eq_ok hread]

theorem SelectsNothing.load_eq {w : Workspace} (h : w.SelectsNothing) : w.load = .ok {} := by
  obtain ⟨environment, heffective, hvalue, hstanding⟩ := h
  apply load_of_defaults
  rw [source_of_effective heffective, sourceOf_eq_defaults_iff]
  exact ⟨hvalue, hstanding⟩

end Workspace

/-! ## Composing in stages -/

namespace Configured

variable {w : Workspace}

theorem load_of_error {fault : ConfigurationFault} (h : w.load = .error fault) :
    Configured.load w = .error (.configuration fault) := by
  rw [load, h]

theorem load_of_ok {settings : Settings} (h : w.load = .ok settings) :
    Configured.load w = .ok (new settings) := by
  rw [load, h]

/-- An entry has the settings that are loaded. -/
theorem load_eq_ok_iff {configured : Configured} :
    Configured.load w = .ok configured ↔ w.load = .ok configured.settings := by
  cases hload : w.load with
  | error fault => simp [load_of_error hload]
  | ok settings =>
    obtain ⟨found⟩ := configured
    simp [load_of_ok hload, new]

/-- A text that is selected gives the entry that its settings give. -/
theorem load_of_selects {text : String} (h : w.Selects text) :
    Configured.load w =
      ((Settings.ofToml text).mapError fun mismatch => .configuration (.document mismatch)).map
        new := by
  have hload := h.load_eq
  cases hdocument : Settings.ofToml text with
  | error mismatch =>
    rw [hdocument] at hload
    exact load_of_error hload
  | ok settings =>
    rw [hdocument] at hload
    exact load_of_ok hload

section Finish

variable {calls : List Query.Call}

/-- A new draft has nothing but the settings of its entry. -/
theorem finish_draft (configured : Configured) (calls : List Query.Call) :
    configured.draft.finish calls =
      match Query.compose configured.settings calls with
      | .error fault => .error (.query fault)
      | .ok query => .ok query := rfl

theorem load_finish_of_error {fault : ConfigurationFault} (h : w.load = .error fault) :
    (Configured.load w >>= fun configured => configured.draft.finish calls) =
      .error (.configuration fault) := by
  rw [load_of_error h]
  rfl

theorem load_finish_of_ok {settings : Settings} (h : w.load = .ok settings) :
    (Configured.load w >>= fun configured => configured.draft.finish calls) =
      (new settings).draft.finish calls := by
  rw [load_of_ok h]
  rfl

/-- Settings that were not found are the only fault of a configuration, whatever the calls. -/
theorem load_finish_eq_configuration_error_iff {fault : ConfigurationFault} :
    (Configured.load w >>= fun configured => configured.draft.finish calls) =
      .error (.configuration fault) ↔ w.load = .error fault := by
  cases hload : w.load with
  | error other => simp [load_finish_of_error hload]
  | ok settings =>
    rw [load_finish_of_ok hload, finish_draft]
    cases Query.compose (new settings).settings calls <;> simp

theorem load_finish_eq_query_error_iff {fault : Query.Fault} :
    (Configured.load w >>= fun configured => configured.draft.finish calls) =
      .error (.query fault) ↔
      ∃ settings, w.load = .ok settings ∧ Query.compose settings calls = .error fault := by
  cases hload : w.load with
  | error other => simp [load_finish_of_error hload]
  | ok settings =>
    rw [load_finish_of_ok hload, finish_draft, new]
    cases hresult : Query.compose settings calls <;> simp [hresult]

theorem load_finish_eq_ok_iff {query : String} :
    (Configured.load w >>= fun configured => configured.draft.finish calls) = .ok query ↔
      ∃ settings, w.load = .ok settings ∧ Query.compose settings calls = .ok query := by
  cases hload : w.load with
  | error other => simp [load_finish_of_error hload]
  | ok settings =>
    rw [load_finish_of_ok hload, finish_draft, new]
    cases hresult : Query.compose settings calls <;> simp [hresult]

end Finish

end Configured

namespace Query

variable {settings : Settings} {calls : List Call}

theorem compose_eq_ok_iff {query : String} :
    compose settings calls = .ok query ↔
      ∃ draft, ({ settings } : Draft).performAll calls = .ok draft ∧ draft.build = .ok query := by
  rw [compose, bind_eq_ok_iff]

/-- A composition fails with the fault of the first call that fails, and without one as the build
does. -/
theorem compose_eq_error_iff {fault : Fault} :
    compose settings calls = .error fault ↔
      (∃ before call after draft, calls = before ++ call :: after ∧
        ({ settings } : Draft).performAll before = .ok draft ∧
          draft.perform call = .error fault) ∨
      ∃ draft, ({ settings } : Draft).performAll calls = .ok draft ∧
        draft.build = .error fault := by
  rw [← Draft.performAll_eq_error_iff, compose]
  cases ({ settings } : Draft).performAll calls <;> simp [bind, Except.bind]

end Query

/-- What calls compose from the entry under the settings of a workspace.

Where a readable file is selected, it is what they compose from the entry under the settings of its
text, be it a query or a fault; where none is, what they compose under the defaults, with a fault
marked as one of the query.  Settings that are not found are a fault whatever the calls, and nothing
else is a fault of configuration.  A fault of the query is the one of the first call that fails or,
without one, of the build, and a query is what was built.  Either entry has the settings that it was
made for. -/
theorem composition_by_either_entry (w : Workspace) (calls : List Query.Call) :
    let loaded : Except Failure String := do
      let configured ← Configured.load w
      configured.draft.finish calls
    (∀ text, w.Selects text → loaded = do
      let settings ← (Settings.ofToml text).mapError fun mismatch =>
        .configuration (.document mismatch)
      (Configured.new settings).draft.finish calls) ∧
    (w.SelectsNothing → loaded = (Query.compose {} calls).mapError .query) ∧
    (∀ fault, loaded = .error (.configuration fault) ↔ w.load = .error fault) ∧
    (∀ fault, loaded = .error (.query fault) ↔
      ∃ settings, w.load = .ok settings ∧
        ((∃ before call after draft, calls = before ++ call :: after ∧
            ({ settings } : Query.Draft).performAll before = .ok draft ∧
              draft.perform call = .error fault) ∨
          ∃ draft, ({ settings } : Query.Draft).performAll calls = .ok draft ∧
            draft.build = .error fault)) ∧
    (∀ query, loaded = .ok query ↔
      ∃ settings draft, w.load = .ok settings ∧
        ({ settings } : Query.Draft).performAll calls = .ok draft ∧ draft.build = .ok query) ∧
    (∀ configured, Configured.load w = .ok configured ↔ w.load = .ok configured.settings) ∧
    ∀ settings, (Configured.new settings).settings = settings := by
  intro loaded
  refine ⟨?_, ?_, ?_, ?_, ?_, ?_, ?_⟩
  · intro text hselects
    show Configured.load w >>= _ = _
    rw [Configured.load_of_selects hselects]
    cases Settings.ofToml text <;> rfl
  · intro hnothing
    refine (Configured.load_finish_of_ok hnothing.load_eq).trans ?_
    rw [Configured.finish_draft, Configured.new]
    cases Query.compose {} calls <;> rfl
  · intro fault
    exact Configured.load_finish_eq_configuration_error_iff
  · intro fault
    simp only [← Query.compose_eq_error_iff]
    exact Configured.load_finish_eq_query_error_iff
  · intro query
    simp only [exists_and_left, ← Query.compose_eq_ok_iff]
    exact Configured.load_finish_eq_ok_iff
  · intro configured
    exact Configured.load_eq_ok_iff
  · intro settings
    rfl

/-- A variable that leads out of the working directory to a strict configuration, and a chain that
begins with a separator. -/
theorem composition_by_either_entry_strict_file :
    let text := "builder.separator_policy = \"strict\"\n"
    let tree : FileTree := .directory
      [("w", .directory [("encoded_query.toml", .directory [])]), ("q.toml", .file text.toUTF8)]
    let w : Workspace :=
      { tree, directory := ["w"], environment := [(configurationVariable, .text "../q.toml")] }
    let bare : Workspace := { tree }
    let calls : List Query.Call := [.join .conjunction, .select "a", .require .isEmpty]
    w.Selects text ∧
    (Configured.load w >>= fun configured => configured.draft.finish calls) =
      .error (.query (.malformed (.leading .conjunction))) ∧
    bare.SelectsNothing ∧
    (Configured.load bare >>= fun configured => configured.draft.finish calls) =
      .ok "^aISEMPTY" := by
  intro text tree w bare calls
  have hpath : w.tree.resolve w.directory "../q.toml" = .ok ["q.toml"] := rfl
  have hread : w.tree.read w.directory "../q.toml" = .ok text := FileTree.read_file hpath rfl
  have hspace : ∃ c ∈ "../q.toml".toList, Text.isSpace c = false := ⟨'.', by decide, by decide⟩
  have hselects : w.Selects text := ⟨w.environment, "../q.toml", rfl, .inl ⟨rfl, hspace⟩, hread⟩
  have hnothing : bare.SelectsNothing := ⟨[], rfl, rfl, rfl⟩
  have hdocument : Settings.ofToml text = .ok { policy := .strict } := by decide +kernel
  obtain ⟨hfile, -, -, -, -⟩ := composition_by_either_entry w calls
  obtain ⟨-, hdefaults, -, -, -⟩ := composition_by_either_entry bare calls
  refine ⟨hselects, ?_, hnothing, (hdefaults hnothing).trans rfl⟩
  refine (hfile text hselects).trans ?_
  rw [hdocument]
  rfl

end RecordQuery
