import Mathlib
import RecordQuery.Proofs.DecodedNumbers
import RecordQuery.Proofs.IntegerLiterals
import RecordQuery.Proofs.OrderedTables
import RecordQuery.Settings.Decoding

set_option autoImplicit false

/-!
# Settings in two formats

A tree of tables, arrays, strings, booleans and integers is both a TOML document and a JSON object.
The two decode alike as long as every integer in the tree fits 128 bits.  JSON never looks at what
stands under a key that is ignored; TOML decodes it all, and has no integers beyond 128 bits.
-/

namespace RecordQuery.Settings

open Calendar (Clock)

/-! ## Trees -/

/-- A tree that both formats can hold. -/
inductive Tree where
  | text (value : String)
  | boolean (value : Bool)
  | integer (value : Int)
  | array (items : List Tree)
  /-- in ascending order of the keys, if the tree is one that a document stands for -/
  | table (entries : List (String × Tree))

namespace Tree

mutual

/-- A tree as a TOML value. -/
def toml : Tree → Toml.Value
  | text s => .text s
  | boolean b => .boolean b
  | integer n => .integer n
  | array items => .array (tomlItems items)
  | table entries => .table (tomlEntries entries)

/-- The items of an array as TOML values. -/
def tomlItems : List Tree → List Toml.Value
  | [] => []
  | item :: items => item.toml :: tomlItems items

/-- The entries of a table with TOML values. -/
def tomlEntries : List (String × Tree) → List (String × Toml.Value)
  | [] => []
  | (key, tree) :: entries => (key, tree.toml) :: tomlEntries entries

end

mutual

/-- A tree as a JSON value.  An integer is the number of its decimal digits; one beyond all doubles
has none. -/
def json? : Tree → Option Json
  | text s => some (.text s)
  | boolean b => some (.boolean b)
  | integer n => (Number.read? n.repr.toList).map .number
  | array items => (jsonItems? items).map .array
  | table entries => (jsonEntries? entries).map .ofFields

/-- The items of an array as JSON values. -/
def jsonItems? : List Tree → Option (List Json)
  | [] => some []
  | item :: items => do some ((← item.json?) :: (← jsonItems? items))

/-- The entries of a table with JSON values. -/
def jsonEntries? : List (String × Tree) → Option (List (String × Json))
  | [] => some []
  | (key, tree) :: entries => do some ((key, ← tree.json?) :: (← jsonEntries? entries))

end

/-- The fields of a first entry and of those behind it. -/
theorem jsonEntries?_cons_cases {key : String} {tree : Tree} {entries : List (String × Tree)}
    {fields : List (String × Json)} (h : jsonEntries? ((key, tree) :: entries) = some fields) :
    ∃ value others, tree.json? = some value ∧ jsonEntries? entries = some others ∧
      fields = (key, value) :: others := by
  obtain ⟨value, hvalue, h⟩ := Option.bind_eq_some_iff.mp h
  obtain ⟨others, hothers, h⟩ := Option.bind_eq_some_iff.mp h
  exact ⟨value, others, hvalue, hothers, (Option.some.inj h).symm⟩

mutual

/-- The integers in a tree. -/
def integers : Tree → List Int
  | text _ | boolean _ => []
  | integer n => [n]
  | array items => itemIntegers items
  | table entries => entryIntegers entries

/-- The integers in the items of an array. -/
def itemIntegers : List Tree → List Int
  | [] => []
  | item :: items => item.integers ++ itemIntegers items

/-- The integers in the entries of a table. -/
def entryIntegers : List (String × Tree) → List Int
  | [] => []
  | (_, tree) :: entries => tree.integers ++ entryIntegers entries

end

/-- Neither an array nor a table. -/
def IsSimple : Tree → Prop
  | array _ | table _ => False
  | text _ | boolean _ | integer _ => True

instance : ∀ tree : Tree, Decidable tree.IsSimple
  | array _ | table _ => isFalse id
  | text _ | boolean _ | integer _ => isTrue trivial

/-- What may stand under the key of the settings: no array, and in a table no compound value for one
of the settings. -/
def IsPlain : Tree → Prop
  | array _ => False
  | table entries =>
    ∀ entry ∈ entries, entry.1 = clockKey ∨ entry.1 = policyKey → entry.2.IsSimple
  | text _ | boolean _ | integer _ => True

instance : ∀ tree : Tree, Decidable tree.IsPlain
  | array _ => isFalse id
  | table entries => inferInstanceAs (Decidable (∀ entry ∈ entries, _ → _))
  | text _ | boolean _ | integer _ => isTrue trivial

/-! ## Integers -/

/-- An integer that fits 128 bits, signed or unsigned. -/
def Fits (n : Int) : Prop := -(Nat.pow 2 127 : Nat) ≤ n ∧ n < (Nat.pow 2 128 : Nat)

instance (n : Int) : Decidable (Fits n) := inferInstanceAs (Decidable (_ ∧ _))

theorem fitsInteger_iff {n : Int} : Toml.fitsInteger n = true ↔ Fits n := by
  simp only [Toml.fitsInteger, Fits, Bool.and_eq_true, decide_eq_true_eq]

mutual

/-- A tree can be decoded in a document if and only if its integers fit. -/
theorem decodable_toml_iff : ∀ tree : Tree,
    tree.toml.decodable = true ↔ ∀ n ∈ tree.integers, Fits n
  | text _ | boolean _ => by simp [toml, integers, Toml.Value.decodable]
  | integer n => by
    simp only [toml, integers, Toml.Value.decodable, List.forall_mem_singleton, fitsInteger_iff]
  | array items => itemsDecodable_toml_iff items
  | table entries => entriesDecodable_toml_iff entries

theorem itemsDecodable_toml_iff : ∀ items : List Tree,
    Toml.itemsDecodable (tomlItems items) = true ↔ ∀ n ∈ itemIntegers items, Fits n
  | [] => by simp [tomlItems, itemIntegers, Toml.itemsDecodable]
  | item :: items => by
    simp only [tomlItems, itemIntegers, Toml.itemsDecodable, Bool.and_eq_true,
      List.forall_mem_append, decodable_toml_iff item, itemsDecodable_toml_iff items]

theorem entriesDecodable_toml_iff : ∀ entries : List (String × Tree),
    Toml.entriesDecodable (tomlEntries entries) = true ↔ ∀ n ∈ entryIntegers entries, Fits n
  | [] => by simp [tomlEntries, entryIntegers, Toml.entriesDecodable]
  | (key, tree) :: entries => by
    simp only [tomlEntries, entryIntegers, Toml.entriesDecodable, Bool.and_eq_true,
      List.forall_mem_append, decodable_toml_iff tree, entriesDecodable_toml_iff entries]

end

theorem forall_mem_entryIntegers_iff {p : Int → Prop} {entries : List (String × Tree)} :
    (∀ n ∈ entryIntegers entries, p n) ↔ ∀ entry ∈ entries, ∀ n ∈ entry.2.integers, p n := by
  induction entries with
  | nil => exact ⟨fun _ _ h => (nomatch h), fun _ _ h => (nomatch h)⟩
  | cons entry entries ih =>
    rw [entryIntegers, List.forall_mem_append, List.forall_mem_cons, ih]

theorem exists_read?_repr_of_fits {n : Int} (h : Fits n) :
    ∃ x, Number.read? n.repr.toList = some x := by
  have hbound : n.natAbs < Nat.pow 2 128 := by
    have hlower : Nat.pow 2 127 < Nat.pow 2 128 := by decide
    obtain ⟨hleast, hgreatest⟩ := h
    generalize Nat.pow 2 127 = least at *
    generalize Nat.pow 2 128 = greatest at *
    omega
  exact Number.exists_read?_repr (by decide) hbound

mutual

/-- A tree whose integers fit has a JSON value. -/
theorem exists_json? : ∀ tree : Tree, (∀ n ∈ tree.integers, Fits n) → ∃ json, tree.json? = some json
  | text s, _ => ⟨.text s, by rw [json?]⟩
  | boolean b, _ => ⟨.boolean b, by rw [json?]⟩
  | integer n, h => by
    obtain ⟨x, hx⟩ := exists_read?_repr_of_fits (List.forall_mem_singleton.mp h)
    exact ⟨.number x, by rw [json?, hx]; rfl⟩
  | array items, h => by
    obtain ⟨values, hvalues⟩ := exists_jsonItems? items h
    exact ⟨.array values, by rw [json?, hvalues]; rfl⟩
  | table entries, h => by
    obtain ⟨fields, hfields⟩ := exists_jsonEntries? entries h
    exact ⟨.ofFields fields, by rw [json?, hfields]; rfl⟩

theorem exists_jsonItems? : ∀ items : List Tree, (∀ n ∈ itemIntegers items, Fits n) →
    ∃ values, jsonItems? items = some values
  | [], _ => ⟨[], by rw [jsonItems?]⟩
  | item :: items, h => by
    obtain ⟨hitem, hitems⟩ := List.forall_mem_append.mp h
    obtain ⟨value, hvalue⟩ := exists_json? item hitem
    obtain ⟨values, hvalues⟩ := exists_jsonItems? items hitems
    exact ⟨value :: values, by rw [jsonItems?, hvalue, hvalues]; rfl⟩

theorem exists_jsonEntries? : ∀ entries : List (String × Tree),
    (∀ n ∈ entryIntegers entries, Fits n) → ∃ fields, jsonEntries? entries = some fields
  | [], _ => ⟨[], by rw [jsonEntries?]⟩
  | (key, tree) :: entries, h => by
    obtain ⟨htree, hentries⟩ := List.forall_mem_append.mp h
    obtain ⟨value, hvalue⟩ := exists_json? tree htree
    obtain ⟨fields, hfields⟩ := exists_jsonEntries? entries hentries
    exact ⟨(key, value) :: fields, by rw [jsonEntries?, hvalue, hfields]; rfl⟩

end

theorem tomlEntries_eq_map (entries : List (String × Tree)) :
    tomlEntries entries = entries.map fun entry => (entry.1, entry.2.toml) := by
  induction entries with
  | nil => rfl
  | cons entry entries ih => rw [tomlEntries, ih, List.map_cons]

theorem map_fst_tomlEntries (entries : List (String × Tree)) :
    (tomlEntries entries).map (·.1) = entries.map (·.1) := by
  rw [tomlEntries_eq_map, List.map_map]
  rfl

theorem map_fst_of_jsonEntries? {entries : List (String × Tree)} {fields : List (String × Json)}
    (h : jsonEntries? entries = some fields) : fields.map (·.1) = entries.map (·.1) := by
  induction entries generalizing fields with
  | nil =>
    cases h
    rfl
  | cons entry entries ih =>
    obtain ⟨value, others, -, hothers, rfl⟩ := jsonEntries?_cons_cases h
    rw [List.map_cons, List.map_cons, ih hothers]

/-- A table in the order of its keys makes an object of just its fields. -/
theorem json?_table {entries : List (String × Tree)} {fields : List (String × Json)}
    (hkeys : Ascending (tomlEntries entries)) (hfields : jsonEntries? entries = some fields) :
    (table entries).json? = some (.object fields) := by
  have hsame : fields.map (·.1) = (tomlEntries entries).map (·.1) :=
    (map_fst_of_jsonEntries? hfields).trans (map_fst_tomlEntries entries).symm
  rw [json?, hfields, Option.map_some, Json.ofFields_of_ascending (hkeys.of_keys hsame)]

end Tree

/-! ## One entry in both formats -/

open Settings.Tree

theorem toOption_clockNamed (name : String) :
    (clockNamed name).toOption = Clock.ofName? name := by
  unfold clockNamed
  split
  · next h => exact h.symm
  · next h => exact h.symm

theorem toOption_policyNamed (name : String) :
    (policyNamed name).toOption = Policy.ofName? name := by
  unfold policyNamed
  split
  · next h => exact h.symm
  · next h => exact h.symm

/-- A simple value is a name in both formats, or in neither. -/
theorem toOption_choiceOfToml {α : Type} {named : String → Except Mismatch α}
    {named? : String → Option α} (hnamed : ∀ name, (named name).toOption = named? name)
    {tree : Tree} {json : Json} (hsimple : tree.IsSimple) (hjson : tree.json? = some json) :
    (choiceOfToml named tree.toml).toOption = choiceOfJson? named? json := by
  cases tree with
  | text s =>
    cases hjson
    exact hnamed s
  | boolean b =>
    cases hjson
    rfl
  | integer n =>
    obtain ⟨x, -, rfl⟩ := Option.map_eq_some_iff.mp hjson
    rfl
  | array items => exact hsimple.elim
  | table entries => exact hsimple.elim

theorem toOption_map {ε α β : Type} (f : α → β) (x : Except ε α) :
    (x.map f).toOption = x.toOption.map f := by
  cases x with
  | ok a => rfl
  | error e => rfl

theorem ignoreToml_of_fits (s : Settings) {tree : Tree} (h : ∀ n ∈ tree.integers, Fits n) :
    ignoreToml s tree.toml = .ok s := by
  rw [ignoreToml, if_pos ((decodable_toml_iff tree).mpr h)]

/-- An entry of the settings' table has one effect in both formats where its value fits. -/
theorem toOption_withEntry (s : Settings) {key : String} {tree : Tree} {json : Json}
    (hsimple : key = clockKey ∨ key = policyKey → tree.IsSimple)
    (hfits : ∀ n ∈ tree.integers, Fits n) (hjson : tree.json? = some json) :
    (withEntry s (key, tree.toml)).toOption = withField? s (key, json) := by
  unfold withEntry withField?
  split
  · next hkey =>
    rw [toOption_map, toOption_choiceOfToml toOption_clockNamed (hsimple (.inl hkey)) hjson]
  · split
    · next hkey =>
      rw [toOption_map, toOption_choiceOfToml toOption_policyNamed (hsimple (.inr hkey)) hjson]
    · rw [ignoreToml_of_fits s hfits]
      rfl

/-- Two decoders that agree on each entry of a table agree on the table. -/
theorem toOption_foldlM {step : Settings → String × Toml.Value → Except Mismatch Settings}
    {step? : Settings → String × Json → Option Settings} {entries : List (String × Tree)}
    {fields : List (String × Json)} (hfields : jsonEntries? entries = some fields)
    (h : ∀ entry ∈ entries, ∀ json, entry.2.json? = some json → ∀ s,
      (step s (entry.1, entry.2.toml)).toOption = step? s (entry.1, json)) (s : Settings) :
    ((tomlEntries entries).foldlM step s).toOption = fields.foldlM step? s := by
  induction entries generalizing fields s with
  | nil =>
    cases hfields
    rfl
  | cons entry entries ih =>
    obtain ⟨key, tree⟩ := entry
    obtain ⟨value, others, hvalue, hothers, rfl⟩ := jsonEntries?_cons_cases hfields
    obtain ⟨hentry, hentries⟩ := List.forall_mem_cons.mp h
    have hstep := hentry value hvalue s
    rw [tomlEntries, List.foldlM_cons, List.foldlM_cons, ← hstep]
    cases step s (key, tree.toml) with
    | error e => rfl
    | ok next => exact ih hothers hentries next

/-- The settings' own value decodes alike in both formats where it fits. -/
theorem toOption_ofTomlValue {tree : Tree} {json : Json} (hplain : tree.IsPlain)
    (hordered : tree.toml.IsOrdered) (hfits : ∀ n ∈ tree.integers, Fits n)
    (hjson : tree.json? = some json) : (ofTomlValue tree.toml).toOption = ofJsonValue? json := by
  cases tree with
  | text s =>
    cases hjson
    rfl
  | boolean b =>
    cases hjson
    rfl
  | integer n =>
    obtain ⟨x, -, rfl⟩ := Option.map_eq_some_iff.mp hjson
    rfl
  | array items => exact hplain.elim
  | table entries =>
    obtain ⟨hkeys, -⟩ := Toml.Value.isOrdered_table_iff.mp hordered
    obtain ⟨fields, hfields, -⟩ := Option.map_eq_some_iff.mp hjson
    rw [json?_table hkeys hfields] at hjson
    cases hjson
    refine toOption_foldlM hfields (fun entry hentry value hvalue s => ?_) {}
    exact toOption_withEntry s (hplain entry hentry)
      (forall_mem_entryIntegers_iff.mp hfits entry hentry) hvalue

/-- A document decodes as the JSON object of the same fields where its integers fit. -/
theorem toOption_ofDocument {entries : List (String × Tree)} {fields : List (String × Json)}
    (hplain : ∀ entry ∈ entries, entry.1 = settingsKey → entry.2.IsPlain)
    (hordered : ∀ entry ∈ entries, entry.2.toml.IsOrdered)
    (hfits : ∀ n ∈ entryIntegers entries, Fits n) (hfields : jsonEntries? entries = some fields) :
    (ofDocument (tomlEntries entries)).toOption = ofJson? (.object fields) := by
  refine toOption_foldlM hfields (fun entry hentry value hvalue s => ?_) {}
  have hentryFits := forall_mem_entryIntegers_iff.mp hfits entry hentry
  split
  · next hkey =>
    exact toOption_ofTomlValue (hplain entry hentry hkey) (hordered entry hentry) hentryFits hvalue
  · rw [ignoreToml_of_fits s hentryFits]
    rfl

/-! ## Integers that do not fit -/

theorem mem_tomlEntries {entries : List (String × Tree)} {entry : String × Tree}
    (h : entry ∈ entries) : (entry.1, entry.2.toml) ∈ tomlEntries entries := by
  rw [tomlEntries_eq_map]
  exact List.mem_map_of_mem h

theorem fits_of_ofTomlValue {tree : Tree} {s : Settings} (hplain : tree.IsPlain)
    (h : ofTomlValue tree.toml = .ok s) : ∀ n ∈ tree.integers, Fits n := by
  cases tree with
  | text s => nomatch h
  | boolean b => nomatch h
  | integer n => nomatch h
  | array items => exact hplain.elim
  | table entries =>
    refine forall_mem_entryIntegers_iff.mpr fun entry hentry => ?_
    exact (decodable_toml_iff entry.2).mp
      (decodable_of_foldlM_withEntry h _ (mem_tomlEntries hentry))

/-- A document that decodes holds no integer that does not fit, under no key. -/
theorem fits_of_ofDocument {entries : List (String × Tree)} {s : Settings}
    (hplain : ∀ entry ∈ entries, entry.1 = settingsKey → entry.2.IsPlain)
    (h : ofDocument (tomlEntries entries) = .ok s) : ∀ n ∈ entryIntegers entries, Fits n := by
  refine forall_mem_entryIntegers_iff.mpr fun entry hentry => ?_
  have hmem := mem_tomlEntries hentry
  by_cases hkey : entry.1 = settingsKey
  · rw [hkey] at hmem
    obtain ⟨settings, hvalue⟩ := exists_ofTomlValue_of_ofDocument h hmem
    exact fits_of_ofTomlValue (hplain entry hentry hkey) hvalue
  · exact (decodable_toml_iff entry.2).mp (decodable_of_ofDocument h hmem hkey)

/-! ## Documents -/

theorem ofToml_of_read? {text : String} {document : Toml.Document}
    (h : Toml.Document.read? text = some document) : ofToml text = ofDocument document := by
  rw [ofToml, h]

/-- A TOML document and a JSON object of one tree decode alike.

Where every integer of the tree fits 128 bits, the tree has a JSON object, and the document and the
object give the same settings or both give none.  A document with an integer that does not fit gives
none, under whatever key the integer stands. -/
theorem toml_decodes_as_json (entries : List (String × Tree)) (text : String)
    (hread : Toml.Document.read? text = some (tomlEntries entries))
    (hplain : ∀ entry ∈ entries, entry.1 = settingsKey → entry.2.IsPlain) :
    ((∀ n ∈ (table entries).integers, Fits n) →
      ∃ json, (table entries).json? = some json ∧ (ofToml text).toOption = ofJson? json) ∧
    ((∃ n ∈ (table entries).integers, ¬ Fits n) → ∃ mismatch, ofToml text = .error mismatch) := by
  have htoml : ofToml text = ofDocument (tomlEntries entries) := ofToml_of_read? hread
  obtain ⟨hkeys, hvalues⟩ :=
    Toml.Value.isOrdered_table_iff.mp (Toml.Document.isOrdered_of_read? hread)
  constructor
  · intro hfits
    obtain ⟨fields, hfields⟩ := exists_jsonEntries? entries hfits
    refine ⟨.object fields, json?_table hkeys hfields, ?_⟩
    have hordered : ∀ entry ∈ entries, entry.2.toml.IsOrdered := by
      rw [tomlEntries_eq_map] at hvalues
      exact fun entry hentry => hvalues _ (List.mem_map_of_mem hentry)
    rw [htoml, toOption_ofDocument hplain hordered hfits hfields]
  · rintro ⟨n, hn, hunfit⟩
    cases hdecoded : ofDocument (tomlEntries entries) with
    | error mismatch => exact ⟨mismatch, htoml.trans hdecoded⟩
    | ok s => exact absurd (fits_of_ofDocument hplain hdecoded n hn) hunfit

/-- The greatest integer that fits, in the settings' table and before a setting that comes before it
in the order of the keys. -/
theorem toml_decodes_as_json_greatest_integer :
    let entries : List (String × Tree) :=
      [("builder", .table [("hour_clock", .text "twelve"),
        ("n", .integer 340282366920938463463374607431768211455)])]
    let text :=
      "[builder]\nn = 0xffffffff_ffffffff_ffffffff_ffffffff\n'hour_clock' = \"twelve\""
    Toml.Document.read? text = some (tomlEntries entries) ∧
    (∀ entry ∈ entries, entry.1 = settingsKey → entry.2.IsPlain) ∧
    (∀ n ∈ (table entries).integers, Fits n) ∧ ofToml text = .ok ⟨.twelve, .permissive⟩ ∧
    ∃ json, (table entries).json? = some json ∧ (ofToml text).toOption = ofJson? json := by
  intro entries text
  have hread : Toml.Document.read? text = some (tomlEntries entries) := by
    dsimp only [entries, text]
    cbv
  have hplain : ∀ entry ∈ entries, entry.1 = settingsKey → entry.2.IsPlain := by decide
  have hfits : ∀ n ∈ (table entries).integers, Fits n := by decide
  exact ⟨hread, hplain, hfits, by decide +kernel,
    (toml_decodes_as_json entries text hread hplain).1 hfits⟩

/-- One more than the greatest integer that fits: the JSON object decodes to the defaults, and the
document does not decode. -/
theorem toml_refuses_integer_beyond_128_bits :
    let entries : List (String × Tree) :=
      [("x", .integer 340282366920938463463374607431768211456)]
    let text := "x = 340282366920938463463374607431768211456\n"
    Toml.Document.read? text = some (tomlEntries entries) ∧
    (∀ entry ∈ entries, entry.1 = settingsKey → entry.2.IsPlain) ∧
    ofToml text = .error .badNumber ∧
    ∃ json, (table entries).json? = some json ∧ ofJson? json = some {} := by
  intro entries text
  have hread : Toml.Document.read? text = some (tomlEntries entries) := by
    dsimp only [entries, text]
    cbv
  have hplain : ∀ entry ∈ entries, entry.1 = settingsKey → entry.2.IsPlain := by decide
  obtain ⟨x, hx⟩ := @Number.exists_read?_repr 129 (by decide)
    340282366920938463463374607431768211456 (by decide)
  have hfields : jsonEntries? entries = some [("x", .number x)] := by
    rw [jsonEntries?, json?, hx]
    rfl
  obtain ⟨hkeys, -⟩ := Toml.Value.isOrdered_table_iff.mp (Toml.Document.isOrdered_of_read? hread)
  exact ⟨hread, hplain, by decide +kernel, .object [("x", .number x)],
    json?_table hkeys hfields, rfl⟩

end RecordQuery.Settings
