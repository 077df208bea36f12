import RecordQuery.Proofs.Folds
import RecordQuery.Proofs.PhysicalLines

set_option autoImplicit false

/-!
# The lines of an environment file

Each line is acted on under the variables that the lines before it leave.  It cannot be read, or makes
no assignment, or makes one that sets its variable or comes too late to, or would put the character
zero into a variable (`applyLine_cases`).

Which lines can be read, and which variable a line names, depends on the line alone.  So a file is read
to its end if and only if all its lines can be read and none of them sets a variable to a zero
(`load_cases`); and under variables that agree on which of them have a text, and on the zeros in those
texts, a file is read to the same end (`AlikeBut.foldlM`).
-/

namespace RecordQuery

/-! ## Variables with defaults -/

namespace Environment

variable {env next : Environment} {name other value text : String}

theorem text?_eq_some_iff : env.text? name = some text ↔ env.get? name = some (.text text) := by
  rw [text?]
  rcases env.get? name with _ | (found | _) <;> simp

theorem text?_eq_none_of_get? (h : env.get? name = none) : env.text? name = none := by
  rw [text?, h]

theorem text?_cons (env : Environment) (name value other : String) :
    text? ((name, .text value) :: env) other =
      if name = other then some value else env.text? other := by
  by_cases h : name = other <;> simp [text?, get?, h]

theorem setDefault?_of_text (h : env.text? name = some text) (value : String) :
    env.setDefault? name value = some env := by
  rw [setDefault?, h]

theorem setDefault?_of_none (h : env.text? name = none) (hzero : '\x00' ∉ value.toList) :
    env.setDefault? name value = some ((name, .text value) :: env) := by
  rw [setDefault?, h]
  simp [hzero]

theorem setDefault?_eq_none_iff :
    env.setDefault? name value = none ↔ env.text? name = none ∧ '\x00' ∈ value.toList := by
  rw [setDefault?]
  cases env.text? name <;> simp

/-- A variable that is set has the text that it had or, without one, the new text; the others have
what they had. -/
theorem text?_of_setDefault? (h : env.setDefault? name value = some next) (other : String) :
    next.text? other =
      if name = other then some ((env.text? name).getD value) else env.text? other := by
  cases htext : env.text? name with
  | some text =>
    rw [setDefault?_of_text htext] at h
    obtain rfl := Option.some.inj h
    split
    · next heq => rw [← heq, htext, Option.getD_some]
    · rfl
  | none =>
    have hzero : '\x00' ∉ value.toList := by
      intro hmem
      rw [setDefault?_eq_none_iff.mpr ⟨htext, hmem⟩] at h
      cases h
    rw [setDefault?_of_none htext hzero] at h
    obtain rfl := Option.some.inj h
    rw [text?_cons, Option.getD_none]

theorem text?_of_setDefault?_of_text (h : env.setDefault? name value = some next)
    (htext : env.text? other = some text) : next.text? other = some text := by
  rw [text?_of_setDefault? h]
  split
  · next heq => rw [heq, htext, Option.getD_some]
  · exact htext

end Environment

namespace EnvFile

open Text (isSpace)

variable {env next : Environment} {line : Option (List Char)} {lines : List (Option (List Char))}
  {name value text : String}

/-! ## Reading without regard to variables -/

theorem map_any_append {p : Char → Bool} {front front' : List Char}
    {value value' : Option (List Char)} (hfront : front.any p = front'.any p)
    (h : value.map (·.any p) = value'.map (·.any p)) :
    (value.map (front ++ ·)).map (·.any p) = (value'.map (front' ++ ·)).map (·.any p) := by
  cases value <;> cases value' <;> simp_all

/-- Whether a value can be read, and whether it then holds characters of some kind, depends on the
texts that are put into it only by whether they hold such characters. -/
theorem map_any_readValue? {p : Char → Bool} {text text' : List Char → List Char}
    (h : ∀ name, (text name).any p = (text' name).any p) (weak : Bool) (mode : Mode)
    (value : List Char) :
    (readValue? text weak mode value).map (·.any p) =
      (readValue? text' weak mode value).map (·.any p) := by
  induction value generalizing weak mode with
  | nil => cases mode <;> cases weak <;> simp [readValue?, h]
  | cons c rest ih =>
    -- the value goes on behind a character, behind a text, or behind a text and a character
    have hchar (weak : Bool) (mode : Mode) (c : Char) :
        ((readValue? text weak mode rest).map (c :: ·)).map (·.any p) =
          ((readValue? text' weak mode rest).map (c :: ·)).map (·.any p) :=
      map_any_append (show [c].any p = [c].any p from rfl) (ih weak mode)
    have htext (weak : Bool) (mode : Mode) (name : List Char) :
        ((readValue? text weak mode rest).map (text name ++ ·)).map (·.any p) =
          ((readValue? text' weak mode rest).map (text' name ++ ·)).map (·.any p) :=
      map_any_append (h name) (ih weak mode)
    have hboth (weak : Bool) (mode : Mode) (name : List Char) (c : Char) :
        ((readValue? text weak mode rest).map (text name ++ c :: ·)).map (·.any p) =
          ((readValue? text' weak mode rest).map (text' name ++ c :: ·)).map (·.any p) := by
      have hfront : (text name ++ [c]).any p = (text' name ++ [c]).any p := by simp [h]
      simpa using map_any_append hfront (ih weak mode)
    cases mode with
    | escape =>
      simp only [readValue?]
      cases unescape? c with
      | none => rfl
      | some c => exact hchar weak .plain c
    | plain | strong | ended | name read | braced read =>
      simp only [readValue?]
      repeat' split
      all_goals first
        | rfl
        | exact ih _ _
        | exact hchar _ _ _
        | exact htext _ _ _
        | exact hboth _ _ _ _

/-- The name in an assignment, and whether its value holds characters of some kind. -/
def outline (p : Char → Bool) (assignment : String × String) : String × Bool :=
  (assignment.1, assignment.2.toList.any p)

theorem map_outline_assignment? {p : Char → Bool} {env env' : Environment}
    (h : ∀ name, (textOf env name).any p = (textOf env' name).any p) (line : List Char) :
    (assignment? env line).map (·.map (outline p)) =
      (assignment? env' line).map (·.map (outline p)) := by
  rw [assignment?, assignment?]
  generalize skipSpace (line.reverse.dropWhile isSpace).reverse = text
  split
  · rfl
  · rfl
  · cases readAssignment text with
    | none => rfl
    | some assignment =>
      obtain ⟨name, value⟩ := assignment
      simp only [bind, Option.bind_some]
      split
      · rfl
      · rfl
      · have hvalue := map_any_readValue? h false .plain value
        revert hvalue
        cases readValue? (textOf env) false .plain value <;>
          cases readValue? (textOf env') false .plain value <;> simp [outline]

theorem map_outline_made? {p : Char → Bool} {env env' : Environment}
    (h : ∀ name, (textOf env name).any p = (textOf env' name).any p)
    (line : Option (List Char)) :
    (made? env line).map (·.map (outline p)) = (made? env' line).map (·.map (outline p)) := by
  cases line with
  | none => rfl
  | some line => exact map_outline_assignment? h line

/-- The name that a line assigns to does not depend on the variables. -/
theorem map_fst_made? (env env' : Environment) (line : Option (List Char)) :
    (made? env line).map (·.map (·.1)) = (made? env' line).map (·.map (·.1)) := by
  have hnone : ∀ text : List Char, text.any (fun _ => false) = false :=
    fun text => List.any_eq_false.mpr fun _ _ => Bool.false_ne_true
  have h := map_outline_made? (fun name =>
    (hnone (textOf env name)).trans (hnone (textOf env' name)).symm) line
  have hfst := congrArg (Option.map (Option.map Prod.fst)) h
  simpa [Option.map_map, Function.comp_def, outline] using hfst

/-! ## One line -/

/-- A line is an assignment or makes none. -/
def IsReadable (line : Option (List Char)) : Prop := (made? [] line).isSome = true

instance : DecidablePred IsReadable := fun line =>
  inferInstanceAs (Decidable ((made? [] line).isSome = true))

/-- A line is an assignment to a variable. -/
def Names (line : Option (List Char)) (name : String) : Prop :=
  (made? [] line).map (·.map (·.1)) = some (some name)

instance (line : Option (List Char)) (name : String) : Decidable (Names line name) :=
  inferInstanceAs (Decidable ((made? [] line).map (·.map (·.1)) = some (some name)))

theorem isReadable_iff (env : Environment) : IsReadable line ↔ (made? env line).isSome = true := by
  have h := congrArg Option.isSome (map_fst_made? [] env line)
  rw [Option.isSome_map, Option.isSome_map] at h
  rw [IsReadable, h]

theorem names_of_made? (h : made? env line = some (some (name, value))) : Names line name := by
  rw [Names, map_fst_made? [] env, h]
  rfl

theorem Names.exists_made? (h : Names line name) (env : Environment) :
    ∃ value, made? env line = some (some (name, value)) := by
  rw [Names, map_fst_made? [] env] at h
  rcases hmade : made? env line with _ | (_ | ⟨found, value⟩)
  · rw [hmade] at h
    cases h
  · rw [hmade] at h
    cases h
  · rw [hmade] at h
    obtain rfl : found = name := by simpa using h
    exact ⟨value, rfl⟩

/-- A line sets a variable that has no text to one with the character zero. -/
def SetsZero (env : Environment) (line : Option (List Char)) : Prop :=
  ∃ name value, made? env line = some (some (name, value)) ∧ env.text? name = none ∧
    '\x00' ∈ value.toList

/-- What a line can do. -/
theorem applyLine_cases (env : Environment) (line : Option (List Char)) :
    (¬ IsReadable line ∧ applyLine env line = .error .unreadable) ∨
    (made? env line = some none ∧ applyLine env line = .ok env) ∨
    (SetsZero env line ∧ applyLine env line = .error .zero) ∨
    ∃ name value next, made? env line = some (some (name, value)) ∧
      env.setDefault? name value = some next ∧ applyLine env line = .ok next := by
  rw [isReadable_iff env, applyLine]
  rcases hmade : made? env line with _ | (_ | ⟨name, value⟩)
  · exact .inl ⟨by simp, rfl⟩
  · exact .inr (.inl ⟨rfl, rfl⟩)
  · refine .inr (.inr ?_)
    simp only
    cases hnext : env.setDefault? name value with
    | none => exact .inl ⟨⟨name, value, hmade, Environment.setDefault?_eq_none_iff.mp hnext⟩, rfl⟩
    | some next => exact .inr ⟨name, value, next, rfl, hnext, rfl⟩

theorem applyLine_of_made? (h : made? env line = some (some (name, value)))
    (hnext : env.setDefault? name value = some next) : applyLine env line = .ok next := by
  rw [applyLine, h]
  simp only [hnext]

/-- An assignment to a variable that has a text has no effect. -/
theorem applyLine_of_text (h : Names line name) (htext : env.text? name = some text) :
    applyLine env line = .ok env := by
  obtain ⟨value, hmade⟩ := h.exists_made? env
  exact applyLine_of_made? hmade (Environment.setDefault?_of_text htext value)

theorem applyLine_eq_zero_iff : applyLine env line = .error .zero ↔ SetsZero env line := by
  constructor
  · intro h
    rcases applyLine_cases env line with ⟨-, hline⟩ | ⟨-, hline⟩ | ⟨hzero, hline⟩ |
      ⟨_, _, _, -, -, hline⟩ <;> rw [hline] at h <;> cases h
    exact hzero
  · rintro ⟨name, value, hmade, hset⟩
    rw [applyLine, hmade]
    simp only [Environment.setDefault?_eq_none_iff.mpr hset]

theorem applyLine_eq_unreadable_iff : applyLine env line = .error .unreadable ↔ ¬ IsReadable line := by
  rw [isReadable_iff env, applyLine]
  rcases hmade : made? env line with _ | (_ | ⟨name, value⟩)
  · simp
  · simp
  · cases hnext : env.setDefault? name value <;> simp [hnext]

theorem text?_of_applyLine (h : applyLine env line = .ok next) (htext : env.text? name = some text) :
    next.text? name = some text := by
  rcases applyLine_cases env line with ⟨-, hline⟩ | ⟨-, hline⟩ | ⟨-, hline⟩ |
    ⟨_, _, _, -, hset, hline⟩ <;> rw [hline] at h <;> cases h
  · exact htext
  · exact Environment.text?_of_setDefault?_of_text hset htext

theorem text?_of_applyLine_of_not_names (h : applyLine env line = .ok next)
    (hnames : ¬ Names line name) : next.text? name = env.text? name := by
  rcases applyLine_cases env line with ⟨-, hline⟩ | ⟨-, hline⟩ | ⟨-, hline⟩ |
    ⟨found, _, _, hmade, hset, hline⟩ <;> rw [hline] at h <;> cases h
  · rfl
  · have hne : found ≠ name := by
      rintro rfl
      exact hnames (names_of_made? hmade)
    rw [Environment.text?_of_setDefault? hset, if_neg hne]

theorem text?_of_applyLine_of_made? (h : applyLine env line = .ok next)
    (hmade : made? env line = some (some (name, value))) :
    next.text? name = some ((env.text? name).getD value) := by
  cases hset : env.setDefault? name value with
  | none =>
    rw [applyLine_eq_zero_iff.mpr
      ⟨name, value, hmade, Environment.setDefault?_eq_none_iff.mp hset⟩] at h
    cases h
  | some set =>
    rw [applyLine_of_made? hmade hset] at h
    cases h
    rw [Environment.text?_of_setDefault? hset, if_pos rfl]

/-! ## Whole files -/

theorem text?_of_foldlM (h : lines.foldlM applyLine env = .ok next)
    (htext : env.text? name = some text) : next.text? name = some text := by
  induction lines generalizing env with
  | nil =>
    cases h
    exact htext
  | cons line lines ih =>
    obtain ⟨middle, hline, hlines⟩ := foldlM_cons_eq_ok_iff.mp h
    exact ih hlines (text?_of_applyLine hline htext)

theorem text?_of_foldlM_of_not_names (h : lines.foldlM applyLine env = .ok next)
    (hnames : ∀ line ∈ lines, ¬ Names line name) : next.text? name = env.text? name := by
  induction lines generalizing env with
  | nil =>
    cases h
    rfl
  | cons line lines ih =>
    obtain ⟨hnot, hnames⟩ := List.forall_mem_cons.mp hnames
    obtain ⟨middle, hline, hlines⟩ := foldlM_cons_eq_ok_iff.mp h
    rw [ih hlines hnames, text?_of_applyLine_of_not_names hline hnot]

/-- Lines that assign to a variable leave it with a text. -/
theorem exists_text?_of_foldlM (h : lines.foldlM applyLine env = .ok next)
    (hnames : ∃ line ∈ lines, Names line name) : ∃ text, next.text? name = some text := by
  induction lines generalizing env with
  | nil =>
    obtain ⟨line, hline, -⟩ := hnames
    cases hline
  | cons line lines ih =>
    obtain ⟨middle, hline, hlines⟩ := foldlM_cons_eq_ok_iff.mp h
    obtain ⟨naming, hmem, hname⟩ := hnames
    rcases List.mem_cons.mp hmem with rfl | hmem
    · obtain ⟨value, hmade⟩ := hname.exists_made? env
      exact ⟨_, text?_of_foldlM hlines (text?_of_applyLine_of_made? hline hmade)⟩
    · exact ih hlines ⟨naming, hmem, hname⟩

/-- The content of a file is a text of whole lines, and each of them is an assignment or makes
none. -/
def Parses (content : ByteArray) : Prop := ∀ line ∈ EnvFile.lines content, IsReadable line

/-- Before the first line that cannot be read there is one that sets a variable to a text with the
character zero. -/
def AssignsZero (env : Environment) (content : ByteArray) : Prop :=
  ∃ before line after middle, EnvFile.lines content = before ++ line :: after ∧
    before.foldlM applyLine env = .ok middle ∧ SetsZero middle line

/-- The first line that assigns to a variable gives it a text. -/
def FirstAssigns (env : Environment) (content : ByteArray) (name value : String) : Prop :=
  ∃ before line after middle, EnvFile.lines content = before ++ line :: after ∧
    before.foldlM applyLine env = .ok middle ∧ made? middle line = some (some (name, value)) ∧
    ∀ earlier ∈ before, ¬ Names earlier name

theorem not_parses_of_fromUTF8? {content : ByteArray} (h : String.fromUTF8? content = none) :
    ¬ Parses content := by
  intro hparses
  have hnone := hparses none (none_mem_lines h)
  cases hnone

theorem load_toUTF8 (env : Environment) (text : String) :
    load env text.toUTF8 =
      (joinPieces none (withoutMark ((cutBehind (· == '\n') text.toList).map some))).foldlM
        applyLine env := by
  rw [load, lines_toUTF8]

theorem load_eq_zero_iff {content : ByteArray} :
    load env content = .error .zero ↔ AssignsZero env content := by
  rw [load, foldlM_eq_error_iff]
  simp only [applyLine_eq_zero_iff]
  rfl

/-- How the reading of a file ends. -/
theorem load_cases (env : Environment) (content : ByteArray) :
    (AssignsZero env content ∧ load env content = .error .zero) ∨
    (¬ AssignsZero env content ∧ ¬ Parses content ∧ load env content = .error .unreadable) ∨
    (¬ AssignsZero env content ∧ Parses content ∧ ∃ next, load env content = .ok next) := by
  rw [← load_eq_zero_iff]
  cases hload : load env content with
  | error stop =>
    cases stop with
    | zero => exact .inl ⟨rfl, rfl⟩
    | unreadable =>
      rw [load, foldlM_eq_error_iff] at hload
      obtain ⟨before, line, after, middle, hlines, -, hline⟩ := hload
      refine .inr (.inl ⟨by simp, fun hparses => ?_, rfl⟩)
      refine applyLine_eq_unreadable_iff.mp hline (hparses line ?_)
      rw [hlines]
      exact List.mem_append_right before List.mem_cons_self
  | ok next =>
    refine .inr (.inr ⟨by simp, fun line hline => ?_, next, rfl⟩)
    rw [load] at hload
    obtain ⟨before, after, happly⟩ := exists_ok_of_foldlM hload line hline
    by_contra hreadable
    rw [applyLine_eq_unreadable_iff.mpr hreadable] at happly
    cases happly

/-- A file is read to its end if it parses and sets no variable to a zero. -/
theorem exists_load_iff {content : ByteArray} :
    (∃ next, load env content = .ok next) ↔ Parses content ∧ ¬ AssignsZero env content := by
  rcases load_cases env content with ⟨hzero, hload⟩ | ⟨-, hparses, hload⟩ | ⟨hzero, hparses, hload⟩
  · simp [hload, hzero]
  · simp [hload, hparses]
  · exact ⟨fun _ => ⟨hparses, hzero⟩, fun _ => hload⟩

theorem load_eq_unreadable_iff {content : ByteArray} :
    load env content = .error .unreadable ↔ ¬ Parses content ∧ ¬ AssignsZero env content := by
  rcases load_cases env content with ⟨hzero, hload⟩ | ⟨hzero, hparses, hload⟩ |
    ⟨-, hparses, next, hload⟩
  · simp [hload, hzero]
  · simp [hload, hzero, hparses]
  · simp [hload, hparses]

/-- Of a variable without a text the first line that assigns to it has the say. -/
theorem text?_of_firstAssigns {content : ByteArray} (h : FirstAssigns env content name value)
    (hload : load env content = .ok next) (hnone : env.text? name = none) :
    next.text? name = some value := by
  obtain ⟨before, line, after, middle, hlines, hbefore, hmade, hfirst⟩ := h
  rw [load, hlines, List.foldlM_append, hbefore] at hload
  obtain ⟨set, hline, hafter⟩ := foldlM_cons_eq_ok_iff.mp hload
  refine text?_of_foldlM hafter ?_
  rw [text?_of_applyLine_of_made? hline hmade, text?_of_foldlM_of_not_names hbefore hfirst, hnone,
    Option.getD_none]

/-- A further line that assigns to a variable has no effect. -/
theorem foldlM_drop_later {before after : List (Option (List Char))} (hline : Names line name)
    (hbefore : ∃ earlier ∈ before, Names earlier name) (env : Environment) :
    (before ++ line :: after).foldlM applyLine env = (before ++ after).foldlM applyLine env := by
  rw [List.foldlM_append, List.foldlM_append]
  cases hmiddle : before.foldlM applyLine env with
  | error stop => rfl
  | ok middle =>
    obtain ⟨text, htext⟩ := exists_text?_of_foldlM hmiddle hbefore
    exact foldlM_cons_of_ok (applyLine_of_text hline htext)

/-! ## Two environments -/

/-- Two environments agree, but for some variables, on which variables have a text, and without
exception on which of the texts hold the character zero. -/
structure AlikeBut (excepted : String → Prop) (env other : Environment) : Prop where
  set : ∀ name, ¬ excepted name → (env.text? name = none ↔ other.text? name = none)
  zero : ∀ name, '\x00' ∈ textOf env name ↔ '\x00' ∈ textOf other name

/-- Two readings end early for the same reason, or leave environments that are alike. -/
def SameEnd (excepted : String → Prop) (result result' : Except Stop Environment) : Prop :=
  (∃ stop, result = .error stop ∧ result' = .error stop) ∨
  ∃ env other, result = .ok env ∧ result' = .ok other ∧ AlikeBut excepted env other

theorem any_beq_eq_iff {c : Char} {text text' : List Char} :
    text.any (· == c) = text'.any (· == c) ↔ (c ∈ text ↔ c ∈ text') := by
  rw [Bool.eq_iff_iff]
  simp

section TwoEnvironments

variable {excepted : String → Prop} {other : Environment}

theorem AlikeBut.cons (h : AlikeBut excepted env other) {value value' : String}
    (hzero : '\x00' ∈ value.toList ↔ '\x00' ∈ value'.toList) (name : String) :
    AlikeBut excepted ((name, .text value) :: env) ((name, .text value') :: other) := by
  refine ⟨fun found hfound => ?_, fun found => ?_⟩
  · rw [Environment.text?_cons, Environment.text?_cons]
    split
    · simp
    · exact h.set found hfound
  · rw [textOf, textOf, Environment.text?_cons, Environment.text?_cons]
    split
    · exact hzero
    · exact h.zero found

theorem AlikeBut.made?_cases (h : AlikeBut excepted env other) (line : Option (List Char)) :
    (made? env line = none ∧ made? other line = none) ∨
    (made? env line = some none ∧ made? other line = some none) ∨
    ∃ name value value', made? env line = some (some (name, value)) ∧
      made? other line = some (some (name, value')) ∧
      ('\x00' ∈ value.toList ↔ '\x00' ∈ value'.toList) := by
  have houtline := map_outline_made? (fun name => any_beq_eq_iff.mpr (h.zero name)) line
  revert houtline
  rcases made? env line with _ | (_ | ⟨name, value⟩) <;>
    rcases made? other line with _ | (_ | ⟨name', value'⟩) <;>
    simp [outline, any_beq_eq_iff]
  rintro rfl hzero
  exact ⟨rfl, hzero⟩

/-- A line that names no exception does the same in both. -/
theorem AlikeBut.applyLine (h : AlikeBut excepted env other)
    (hline : ∀ name, Names line name → ¬ excepted name) :
    SameEnd excepted (applyLine env line) (applyLine other line) := by
  rcases h.made?_cases line with ⟨henv, hother⟩ | ⟨henv, hother⟩ |
    ⟨name, value, value', henv, hother, hzero⟩
  · refine .inl ⟨.unreadable, ?_, ?_⟩
    · rw [EnvFile.applyLine, henv]
    · rw [EnvFile.applyLine, hother]
  · refine .inr ⟨env, other, ?_, ?_, h⟩
    · rw [EnvFile.applyLine, henv]
    · rw [EnvFile.applyLine, hother]
  · have hname := names_of_made? henv
    have hset := h.set name (hline name hname)
    cases htext : env.text? name with
    | some text =>
      obtain ⟨text', htext'⟩ := Option.ne_none_iff_exists'.mp
        (fun hnone => Option.some_ne_none text (htext.symm.trans (hset.mpr hnone)))
      exact .inr ⟨env, other, applyLine_of_text hname htext, applyLine_of_text hname htext', h⟩
    | none =>
      have htext' := hset.mp htext
      by_cases hvalue : '\x00' ∈ value.toList
      · exact .inl ⟨.zero, applyLine_eq_zero_iff.mpr ⟨name, value, henv, htext, hvalue⟩,
          applyLine_eq_zero_iff.mpr ⟨name, value', hother, htext', hzero.mp hvalue⟩⟩
      · exact .inr ⟨_, _,
          applyLine_of_made? henv (Environment.setDefault?_of_none htext hvalue),
          applyLine_of_made? hother (Environment.setDefault?_of_none htext' (mt hzero.mpr hvalue)),
          h.cons hzero name⟩

/-- Lines that name no exception do the same in both. -/
theorem AlikeBut.foldlM (h : AlikeBut excepted env other)
    (hlines : ∀ line ∈ lines, ∀ name, Names line name → ¬ excepted name) :
    SameEnd excepted (lines.foldlM EnvFile.applyLine env)
      (lines.foldlM EnvFile.applyLine other) := by
  induction lines generalizing env other with
  | nil => exact .inr ⟨env, other, rfl, rfl, h⟩
  | cons line lines ih =>
    obtain ⟨hline, hlines⟩ := List.forall_mem_cons.mp hlines
    rcases h.applyLine hline with ⟨stop, henv, hother⟩ | ⟨next, next', henv, hother, hnext⟩
    · exact .inl ⟨stop, foldlM_cons_of_error henv, foldlM_cons_of_error hother⟩
    · rw [foldlM_cons_of_ok henv, foldlM_cons_of_ok hother]
      exact ih hnext hlines

/-- Lines do the same in both, unless one of them is reached that names the exception. -/
theorem AlikeBut.foldlM_or_names (h : AlikeBut (· = name) env other)
    (lines : List (Option (List Char))) :
    SameEnd (· = name) (lines.foldlM EnvFile.applyLine env)
      (lines.foldlM EnvFile.applyLine other) ∨
    ∃ before line after middle, lines = before ++ line :: after ∧
      before.foldlM EnvFile.applyLine env = .ok middle ∧ Names line name ∧
      ∀ earlier ∈ before, ¬ Names earlier name := by
  induction lines generalizing env other with
  | nil => exact .inl (.inr ⟨env, other, rfl, rfl, h⟩)
  | cons line lines ih =>
    by_cases hname : Names line name
    · exact .inr ⟨[], line, lines, env, rfl, rfl, hname, by simp⟩
    · have hnot : ∀ found, Names line found → ¬ found = name := by
        rintro found hfound rfl
        exact hname hfound
      rcases h.applyLine hnot with ⟨stop, henv, hother⟩ | ⟨next, next', henv, hother, hnext⟩
      · exact .inl (.inl ⟨stop, foldlM_cons_of_error henv, foldlM_cons_of_error hother⟩)
      · rw [foldlM_cons_of_ok henv, foldlM_cons_of_ok hother]
        refine (ih hnext).imp_right ?_
        rintro ⟨before, found, after, middle, rfl, hbefore, hfound, hearlier⟩
        exact ⟨line :: before, found, after, middle, rfl, (foldlM_cons_of_ok henv).trans hbefore,
          hfound, List.forall_mem_cons.mpr ⟨hname, hearlier⟩⟩

theorem alikeBut_set (hnone : env.text? name = none) (hvalue : '\x00' ∉ value.toList) :
    AlikeBut (· = name) env ((name, .text value) :: env) := by
  refine ⟨fun found hfound => ?_, fun found => ?_⟩
  · rw [Environment.text?_cons, if_neg (Ne.symm hfound)]
  · rw [textOf, textOf, Environment.text?_cons]
    split
    · next heq =>
      rw [← heq, hnone]
      simpa using hvalue
    · rfl

/-- Where the exception gets in one environment the text that it has in the other, there is none. -/
theorem AlikeBut.set_both (h : AlikeBut (· = name) env other)
    (htext : other.text? name = some value) :
    AlikeBut (fun _ => False) ((name, .text value) :: env) other := by
  refine ⟨fun found _ => ?_, fun found => ?_⟩
  · rw [Environment.text?_cons]
    split
    · next heq => simp [← heq, htext]
    · next hne => exact h.set found (Ne.symm hne)
  · rw [textOf, Environment.text?_cons]
    split
    · next heq => rw [textOf, ← heq, htext]
    · exact h.zero found

/-- A file ends in the same way whether its first assignment to a variable sets it or it had that text
before. -/
theorem sameEnd_of_firstAssigns {content : ByteArray} (h : FirstAssigns env content name value)
    (hnone : env.text? name = none) (hvalue : '\x00' ∉ value.toList) :
    SameEnd (fun _ => False) (load env content) (load ((name, .text value) :: env) content) := by
  obtain ⟨before, line, after, middle, hlines, hbefore, hmade, hfirst⟩ := h
  have hname := names_of_made? hmade
  have hnot : ∀ earlier ∈ before, ∀ found, Names earlier found → ¬ found = name := by
    rintro earlier hearlier found hfound rfl
    exact hfirst earlier hearlier hfound
  rcases (alikeBut_set hnone hvalue).foldlM hnot with ⟨stop, hstop, -⟩ |
    ⟨found, middle', hfound, hbefore', halike⟩
  · rw [hbefore] at hstop
    cases hstop
  · rw [hbefore] at hfound
    cases hfound
    have hmiddle : middle.text? name = none := by
      rw [text?_of_foldlM_of_not_names hbefore hfirst, hnone]
    have hmiddle' : middle'.text? name = some value := by
      refine text?_of_foldlM hbefore' ?_
      rw [Environment.text?_cons, if_pos rfl]
    -- the line sets the variable here and has no effect there, and behind it there is no exception left
    have hline := applyLine_of_made? hmade (Environment.setDefault?_of_none hmiddle hvalue)
    have hline' := applyLine_of_text hname hmiddle'
    have hnever : ∀ later ∈ after, ∀ found, Names later found → ¬ False := by simp
    have hafter := (halike.set_both hmiddle').foldlM hnever
    rw [← foldlM_cons_of_ok hline, ← foldlM_cons_of_ok hline'] at hafter
    rw [load, load, hlines, List.foldlM_append, List.foldlM_append, hbefore, hbefore']
    exact hafter

/-- A file that sets a variable to a zero before any line assigns to another one does so as well where
the other has a text from the start. -/
theorem AssignsZero.set {content : ByteArray} (h : AssignsZero env content)
    (hfirst : ∀ value, ¬ FirstAssigns env content name value) (hnone : env.text? name = none)
    (hvalue : '\x00' ∉ value.toList) : AssignsZero ((name, .text value) :: env) content := by
  rw [← load_eq_zero_iff] at h ⊢
  rcases (alikeBut_set hnone hvalue).foldlM_or_names (EnvFile.lines content) with
    (⟨stop, henv, hother⟩ | ⟨next, next', henv, hother, -⟩) |
    ⟨before, line, after, middle, hlines, hbefore, hname, hearlier⟩
  · rw [load, henv] at h
    rw [load, hother, h]
  · rw [load, henv] at h
    cases h
  · obtain ⟨value', hmade⟩ := hname.exists_made? middle
    exact absurd ⟨before, line, after, middle, hlines, hbefore, hmade, hearlier⟩ (hfirst value')

end TwoEnvironments

end EnvFile

end RecordQuery
