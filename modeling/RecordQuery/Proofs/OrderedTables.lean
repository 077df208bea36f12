import RecordQuery.Json
import RecordQuery.Toml.Document

set_option autoImplicit false

/-!
# Tables in the order of their keys

A document gives its keys in any order, in assignments and headers that may come back to a table
long after it was begun.  What is read holds the entries of every table, outermost or inner, in
strictly ascending order of their keys: so it does while the document is put together, and each
statement leaves it so.
-/

namespace RecordQuery

/-- Entries in strictly ascending order of their keys, so each key once. -/
def Ascending {α : Type} (entries : List (String × α)) : Prop :=
  entries.Pairwise fun a b => a.1 < b.1

namespace Ascending

variable {α : Type}

theorem nil : Ascending ([] : List (String × α)) := List.Pairwise.nil

theorem cons_iff {entry : String × α} {entries : List (String × α)} :
    Ascending (entry :: entries) ↔ (∀ e ∈ entries, entry.1 < e.1) ∧ Ascending entries :=
  List.pairwise_cons

/-- The order is one of the keys alone. -/
theorem of_keys {β : Type} {entries : List (String × α)} {others : List (String × β)}
    (h : Ascending entries) (hkeys : others.map (·.1) = entries.map (·.1)) : Ascending others := by
  have hentries : (entries.map (·.1)).Pairwise (· < ·) := List.pairwise_map.mpr h
  rw [← hkeys] at hentries
  exact List.pairwise_map.mp hentries

/-- A key that is neither before another nor equal to it is behind it. -/
theorem lt_of_not_lt {k key : String} (h : ¬ key < k) (hne : ¬ key = k) : k < key :=
  Std.lt_of_le_of_ne (String.not_lt.mp h) (Ne.symm hne)

end Ascending

namespace Toml

/-! ## Values and nodes -/

/-- Whether a value holds no others. -/
def Value.isScalar : Value → Bool
  | array _ | table _ => false
  | _ => true

/-- A value in which every table is in ascending order of its keys. -/
inductive Value.IsOrdered : Value → Prop where
  | scalar {value : Value} (h : value.isScalar) : IsOrdered value
  | array {items : List Value} (h : ∀ item ∈ items, IsOrdered item) : IsOrdered (.array items)
  | table {entries : List (String × Value)} (hkeys : Ascending entries)
      (h : ∀ entry ∈ entries, IsOrdered entry.2) : IsOrdered (.table entries)

theorem Value.isOrdered_table_iff {entries : List (String × Value)} :
    (Value.table entries).IsOrdered ↔
      Ascending entries ∧ ∀ entry ∈ entries, entry.2.IsOrdered := by
  constructor
  · intro h
    cases h with
    | scalar h => nomatch h
    | table hkeys h => exact ⟨hkeys, h⟩
  · rintro ⟨hkeys, h⟩
    exact .table hkeys h

/-- A node in which every table is in ascending order of its keys. -/
inductive Node.IsOrdered : Node → Prop where
  | leaf {value : Value} (h : value.IsOrdered) : IsOrdered (.leaf value)
  | table {origin : Origin} {entries : List (String × Node)} (hkeys : Ascending entries)
      (h : ∀ entry ∈ entries, IsOrdered entry.2) : IsOrdered (.table origin entries)
  | tables {earlier : List (List (String × Node))} {last : List (String × Node)}
      (hearlierKeys : ∀ entries ∈ earlier, Ascending entries)
      (hearlier : ∀ entries ∈ earlier, ∀ entry ∈ entries, IsOrdered entry.2)
      (hlastKeys : Ascending last) (hlast : ∀ entry ∈ last, IsOrdered entry.2) :
      IsOrdered (.tables earlier last)

theorem finish_eq_map (entries : List (String × Node)) :
    finish entries = entries.map fun entry => (entry.1, entry.2.value) := by
  induction entries with
  | nil => rfl
  | cons entry entries ih => rw [finish, ih, List.map_cons]

theorem finishAll_eq_map (tables : List (List (String × Node))) :
    finishAll tables = tables.map fun entries => .table (finish entries) := by
  induction tables with
  | nil => rfl
  | cons entries tables ih => rw [finishAll, ih, List.map_cons]

/-- Finished entries are in order if the entries are and each node is when it is finished. -/
theorem finish_isOrdered {entries : List (String × Node)} (hkeys : Ascending entries)
    (h : ∀ entry ∈ entries, entry.2.value.IsOrdered) :
    Ascending (finish entries) ∧ ∀ entry ∈ finish entries, entry.2.IsOrdered := by
  rw [finish_eq_map]
  refine ⟨List.pairwise_map.mpr hkeys, ?_⟩
  intro finished hmem
  obtain ⟨entry, hentry, rfl⟩ := List.mem_map.mp hmem
  exact h entry hentry

theorem Node.IsOrdered.value {node : Node} (h : node.IsOrdered) : node.value.IsOrdered := by
  induction h with
  | leaf h => exact h
  | table hkeys _ ih => exact Value.isOrdered_table_iff.mpr (finish_isOrdered hkeys ih)
  | tables hearlierKeys _ hlastKeys _ ihearlier ihlast =>
    refine .array fun item hitem => ?_
    rw [finishAll_eq_map, List.mem_append, List.mem_map, List.mem_singleton] at hitem
    obtain ⟨entries, hentries, rfl⟩ | rfl := hitem
    · exact Value.isOrdered_table_iff.mpr
        (finish_isOrdered (hearlierKeys entries hentries) (ihearlier entries hentries))
    · exact Value.isOrdered_table_iff.mpr (finish_isOrdered hlastKeys ihlast)

/-! ## Changes to a table -/

namespace Entries

/-- Entries in ascending order of their keys, and so within each node. -/
def IsOrdered (entries : Entries) : Prop :=
  Ascending entries ∧ ∀ entry ∈ entries, entry.2.IsOrdered

theorem isOrdered_nil : IsOrdered [] := ⟨.nil, fun _ h => nomatch h⟩

theorem IsOrdered.finish {entries : Entries} (h : IsOrdered entries) :
    (Value.table (finish entries)).IsOrdered :=
  Value.isOrdered_table_iff.mpr (finish_isOrdered h.1 fun entry hentry => (h.2 entry hentry).value)

theorem isOrdered_cons_iff {key : String} {node : Node} {entries : Entries} :
    IsOrdered ((key, node) :: entries) ↔
      (∀ entry ∈ entries, key < entry.1) ∧ node.IsOrdered ∧ IsOrdered entries := by
  simp only [IsOrdered, Ascending.cons_iff, List.forall_mem_cons]
  exact ⟨fun ⟨⟨hlt, hkeys⟩, hnode, h⟩ => ⟨hlt, hnode, hkeys, h⟩,
    fun ⟨hlt, hnode, hkeys, h⟩ => ⟨⟨hlt, hkeys⟩, hnode, h⟩⟩

variable {key : String} {change : Option Node → Option Node}

/-- A change to a table with a first entry adds an entry before it, changes it, or changes the table
behind it. -/
theorem update_cons_cases {k : String} {node : Node} {rest updated : Entries}
    (h : update key change ((k, node) :: rest) = some updated) :
    (key < k ∧ ∃ fresh, change none = some fresh ∧ updated = (key, fresh) :: (k, node) :: rest) ∨
    (key = k ∧ ∃ changed, change (some node) = some changed ∧ updated = (k, changed) :: rest) ∨
    (k < key ∧ ∃ others, rest.update key change = some others ∧
      updated = (k, node) :: others) := by
  rw [update] at h
  split at h
  · next hlt =>
    obtain ⟨fresh, hfresh, rfl⟩ := Option.map_eq_some_iff.mp h
    exact .inl ⟨hlt, fresh, hfresh, rfl⟩
  · next hnot =>
    split at h
    · next heq =>
      obtain ⟨changed, hchanged, rfl⟩ := Option.map_eq_some_iff.mp h
      exact .inr (.inl ⟨heq, changed, hchanged, rfl⟩)
    · next hne =>
      obtain ⟨others, hothers, rfl⟩ := Option.map_eq_some_iff.mp h
      exact .inr (.inr ⟨Ascending.lt_of_not_lt hnot hne, others, hothers, rfl⟩)

/-- A changed table has no keys but its own and the one that was changed. -/
theorem key_of_mem_update {entries updated : Entries}
    (h : entries.update key change = some updated) :
    ∀ entry ∈ updated, entry.1 = key ∨ ∃ old ∈ entries, old.1 = entry.1 := by
  induction entries generalizing updated with
  | nil =>
    obtain ⟨node, -, rfl⟩ := Option.map_eq_some_iff.mp h
    exact List.forall_mem_singleton.mpr (.inl rfl)
  | cons first rest ih =>
    obtain ⟨k, node⟩ := first
    have hrest : ∀ entry ∈ rest, ∃ old ∈ (k, node) :: rest, old.1 = entry.1 :=
      fun entry hentry => ⟨entry, List.mem_cons_of_mem _ hentry, rfl⟩
    obtain ⟨-, fresh, -, rfl⟩ | ⟨heq, changed, -, rfl⟩ | ⟨-, others, hothers, rfl⟩ :=
      update_cons_cases h
    · refine List.forall_mem_cons.mpr ⟨.inl rfl, List.forall_mem_cons.mpr ⟨?_, ?_⟩⟩
      · exact .inr ⟨(k, node), List.mem_cons_self, rfl⟩
      · exact fun entry hentry => .inr (hrest entry hentry)
    · refine List.forall_mem_cons.mpr ⟨.inl heq.symm, ?_⟩
      exact fun entry hentry => .inr (hrest entry hentry)
    · refine List.forall_mem_cons.mpr ⟨.inr ⟨(k, node), List.mem_cons_self, rfl⟩, ?_⟩
      intro entry hentry
      obtain hkey | ⟨old, hold, heq⟩ := ih hothers entry hentry
      · exact .inl hkey
      · exact .inr ⟨old, List.mem_cons_of_mem _ hold, heq⟩

/-- A change that gives ordered nodes leaves a table in order. -/
theorem IsOrdered.update
    (hnew : ∀ node, change none = some node → node.IsOrdered)
    (hchanged : ∀ old node, old.IsOrdered → change (some old) = some node → node.IsOrdered)
    {entries updated : Entries} (h : IsOrdered entries)
    (hupdate : entries.update key change = some updated) : IsOrdered updated := by
  induction entries generalizing updated with
  | nil =>
    obtain ⟨node, hnode, rfl⟩ := Option.map_eq_some_iff.mp hupdate
    exact isOrdered_cons_iff.mpr ⟨(fun _ h => nomatch h), hnew node hnode, h⟩
  | cons first rest ih =>
    obtain ⟨k, node⟩ := first
    obtain ⟨hlt, hnode, hrest⟩ := isOrdered_cons_iff.mp h
    obtain ⟨hkey, fresh, hfresh, rfl⟩ | ⟨-, changed, hchange, rfl⟩ | ⟨hkey, others, hothers, rfl⟩ :=
      update_cons_cases hupdate
    · refine isOrdered_cons_iff.mpr ⟨?_, hnew fresh hfresh, h⟩
      exact List.forall_mem_cons.mpr ⟨hkey, fun e he => String.lt_trans hkey (hlt e he)⟩
    · exact isOrdered_cons_iff.mpr ⟨hlt, hchanged node changed hnode hchange, hrest⟩
    · refine isOrdered_cons_iff.mpr ⟨fun e he => ?_, hnode, ih hrest hothers⟩
      obtain heq | ⟨old, hold, heq⟩ := key_of_mem_update hothers e he
      · exact heq ▸ hkey
      · exact heq ▸ hlt old hold

/-- What is done at the end of a path leaves the whole table in order if it leaves the table there
in order. -/
theorem IsOrdered.descend {fresh : Origin} {change : Origin → Entries → Option Entries}
    (hchange : ∀ origin entries changed, IsOrdered entries → change origin entries = some changed →
      IsOrdered changed)
    {path : List String} {origin : Origin} {entries changed : Entries} (h : IsOrdered entries)
    (hdescend : entries.descend fresh change origin path = some changed) : IsOrdered changed := by
  induction path generalizing origin entries changed with
  | nil => exact hchange origin entries changed h hdescend
  | cons key path ih =>
    rw [Entries.descend] at hdescend
    refine h.update ?_ ?_ hdescend
    · intro node hnode
      obtain ⟨inner, hinner, rfl⟩ := Option.map_eq_some_iff.mp hnode
      obtain ⟨hkeys, hnodes⟩ := ih isOrdered_nil hinner
      exact .table hkeys hnodes
    · intro old node hold hnode
      cases hold with
      | leaf => nomatch hnode
      | table hkeys hnodes =>
        simp only at hnode
        split at hnode
        · nomatch hnode
        · obtain ⟨inner, hinner, rfl⟩ := Option.map_eq_some_iff.mp hnode
          obtain ⟨hkeys, hnodes⟩ := ih ⟨hkeys, hnodes⟩ hinner
          exact .table hkeys hnodes
      | tables hearlierKeys hearlier hlastKeys hlast =>
        obtain ⟨inner, hinner, rfl⟩ := Option.map_eq_some_iff.mp hnode
        obtain ⟨hkeys, hnodes⟩ := ih ⟨hlastKeys, hlast⟩ hinner
        exact .tables hearlierKeys hearlier hkeys hnodes

variable {entries changed : Entries} {path : List String} {value : Value}

theorem IsOrdered.assign (h : IsOrdered entries) (hvalue : value.IsOrdered)
    (hassign : entries.assign path key value = some changed) : IsOrdered changed := by
  refine h.descend (fun origin entries changed h hchange => ?_) hassign
  split at hchange
  · nomatch hchange
  · refine h.update ?_ ?_ hchange
    · rintro node ⟨⟩
      exact .leaf hvalue
    · exact fun _ _ _ hnode => nomatch hnode

theorem IsOrdered.openTable (h : IsOrdered entries)
    (hopen : entries.openTable path key = some changed) : IsOrdered changed := by
  refine h.descend (fun _ entries changed h hchange => h.update ?_ ?_ hchange) hopen
  · rintro node ⟨⟩
    exact .table .nil fun _ h => nomatch h
  · intro old node hold hnode
    cases hold with
    | leaf => nomatch hnode
    | tables => nomatch hnode
    | @table origin inner hkeys hnodes =>
      cases origin with
      | header => nomatch hnode
      | dotted => nomatch hnode
      | implied =>
        cases hnode
        exact .table hkeys hnodes

theorem IsOrdered.openItem (h : IsOrdered entries)
    (hopen : entries.openItem path key = some changed) : IsOrdered changed := by
  refine h.descend (fun _ entries changed h hchange => h.update ?_ ?_ hchange) hopen
  · rintro node ⟨⟩
    exact .tables (fun _ h => nomatch h) (fun _ h => nomatch h) .nil fun _ h => nomatch h
  · intro old node hold hnode
    cases hold with
    | leaf => nomatch hnode
    | table => nomatch hnode
    | tables hearlierKeys hearlier hlastKeys hlast =>
      cases hnode
      refine .tables ?_ ?_ .nil fun _ h => nomatch h
      · exact List.forall_mem_append.mpr ⟨hearlierKeys, List.forall_mem_singleton.mpr hlastKeys⟩
      · exact List.forall_mem_append.mpr ⟨hearlier, List.forall_mem_singleton.mpr hlast⟩

theorem IsOrdered.assignWithin {table : List String} (h : IsOrdered entries)
    (hvalue : value.IsOrdered)
    (hassign : entries.assignWithin table path key value = some changed) : IsOrdered changed :=
  h.descend (fun _ _ _ h hchange => h.assign hvalue hchange) hassign

end Entries

/-! ## Scalars -/

theorem spelled_isScalar (base : Nat) (sign : Sign) (digits word : List Char) :
    (spelled base sign digits word).isScalar := by
  unfold spelled
  split
  · split <;> rfl
  · rfl

theorem based?_isScalar {base : Nat} {body word : List Char} {value : Value}
    (h : based? base body word = some value) : value.isScalar := by
  simp only [based?] at h
  split at h
  · cases h
    exact spelled_isScalar ..
  · nomatch h

theorem whole?_isScalar {sign : Sign} {body word : List Char} {value : Value}
    (h : whole? sign body word = some value) : value.isScalar := by
  simp only [whole?] at h
  split at h
  · nomatch h
  · split at h
    · cases h
      exact spelled_isScalar ..
    · nomatch h

theorem real?_isScalar {sign : Sign} {body : List Char} {value : Value}
    (h : real? sign body = some value) : value.isScalar := by
  unfold real? at h
  split at h
  · obtain ⟨d, -, rfl⟩ := Option.map_eq_some_iff.mp h
    rfl
  · nomatch h

theorem numberValue?_isScalar {sign : Sign} {body word : List Char} {value : Value}
    (h : numberValue? sign body word = some value) : value.isScalar := by
  unfold numberValue? at h
  split at h
  · cases h
    rfl
  · exact based?_isScalar h
  · exact based?_isScalar h
  · exact based?_isScalar h
  · split at h
    · exact real?_isScalar h
    · exact whole?_isScalar h

theorem scalarValue?_isScalar {word : List Char} {value : Value}
    (h : scalarValue? word = some value) : value.isScalar := by
  unfold scalarValue? at h
  split at h
  · cases h
    rfl
  split at h
  · cases h
    rfl
  simp only at h
  split at h
  · cases h
    rfl
  split at h
  · cases h
    rfl
  split at h
  · obtain ⟨_, -, rfl⟩ := Option.map_eq_some_iff.mp h
    rfl
  · obtain ⟨_, -, rfl⟩ := Option.map_eq_some_iff.mp h
    rfl
  · split at h
    · nomatch h
    · exact numberValue?_isScalar h

theorem readScalar_isScalar {text rest : List Char} {value : Value}
    (h : readScalar text = some (value, rest)) : value.isScalar := by
  obtain ⟨scalar, hscalar, heq⟩ := Option.map_eq_some_iff.mp h
  cases heq
  exact scalarValue?_isScalar hscalar

/-! ## Readers -/

/-- All values that a reader gives are ordered. -/
def ReadsOrdered (reader : Reader Value) : Prop :=
  ∀ {text rest : List Char} {value : Value}, reader text = some (value, rest) → value.IsOrdered

section

variable {item : Reader Value}

theorem readItems_isOrdered (hitem : ReadsOrdered item) {n : Nat} {text rest : List Char}
    {values : List Value} (h : readItems item n text = some (values, rest)) :
    ∀ value ∈ values, value.IsOrdered := by
  induction n generalizing text rest values with
  | zero => nomatch h
  | succ n ih =>
    obtain ⟨begun, -, h⟩ := Option.bind_eq_some_iff.mp h
    split at h
    · cases h
      exact fun _ h => nomatch h
    · obtain ⟨⟨value, behind⟩, hvalue, h⟩ := Option.bind_eq_some_iff.mp h
      obtain ⟨next, -, h⟩ := Option.bind_eq_some_iff.mp h
      split at h
      · cases h
        exact List.forall_mem_singleton.mpr (hitem hvalue)
      · obtain ⟨⟨others, _⟩, hothers, h⟩ := Option.bind_eq_some_iff.mp h
        cases h
        exact List.forall_mem_cons.mpr ⟨hitem hvalue, ih hothers⟩
      · nomatch h

theorem readAssignment_isOrdered (hitem : ReadsOrdered item) {text rest : List Char}
    {key : List String × String} {value : Value}
    (h : readAssignment item text = some ((key, value), rest)) : value.IsOrdered := by
  obtain ⟨⟨key, behind⟩, -, h⟩ := Option.bind_eq_some_iff.mp h
  simp only at h
  split at h
  · obtain ⟨⟨value, _⟩, hvalue, h⟩ := Option.bind_eq_some_iff.mp h
    cases h
    exact hitem hvalue
  · nomatch h

theorem readInline_isOrdered (hitem : ReadsOrdered item) {n : Nat} {text rest : List Char}
    {entries changed : Entries} (hentries : entries.IsOrdered)
    (h : readInline item n entries text = some (changed, rest)) : changed.IsOrdered := by
  induction n generalizing text rest entries changed with
  | zero => nomatch h
  | succ n ih =>
    obtain ⟨⟨⟨⟨path, key⟩, value⟩, behind⟩, hassignment, h⟩ := Option.bind_eq_some_iff.mp h
    obtain ⟨added, hadded, h⟩ := Option.bind_eq_some_iff.mp h
    have hordered : added.IsOrdered :=
      hentries.assign (readAssignment_isOrdered hitem hassignment) hadded
    split at h
    · cases h
      exact hordered
    · exact ih hordered h
    · nomatch h

end

theorem isScalar_of_mapText {read : Option (String × List Char)} {value : Value}
    {rest : List Char} (h : (read.map fun (s, rest) => (Value.text s, rest)) = some (value, rest)) :
    value.isScalar := by
  obtain ⟨⟨s, _⟩, -, h⟩ := Option.map_eq_some_iff.mp h
  cases h
  rfl

/-- A value is in order, however deep it may nest. -/
theorem readValue_isOrdered (depth : Nat) : ReadsOrdered (readValue depth) := by
  induction depth with
  | zero =>
    intro text rest value h
    unfold readValue at h
    split at h
    · exact .scalar (isScalar_of_mapText h)
    · exact .scalar (isScalar_of_mapText h)
    · contradiction
    · contradiction
    · exact .scalar (readScalar_isScalar h)
  | succ depth ih =>
    intro text rest value h
    unfold readValue at h
    split at h
    · exact .scalar (isScalar_of_mapText h)
    · exact .scalar (isScalar_of_mapText h)
    · next heq =>
      cases heq
      obtain ⟨⟨items, _⟩, hitems, h⟩ := Option.map_eq_some_iff.mp h
      cases h
      exact .array (readItems_isOrdered ih hitems)
    · next heq =>
      cases heq
      split at h
      · cases h
        exact .table .nil fun _ h => nomatch h
      · obtain ⟨⟨entries, _⟩, hentries, h⟩ := Option.map_eq_some_iff.mp h
        cases h
        exact (readInline_isOrdered ih Entries.isOrdered_nil hentries).finish
    · exact .scalar (readScalar_isScalar h)

/-! ## Documents -/

/-- A statement whose value, if it has one, is ordered. -/
def Statement.IsOrdered : Statement → Prop
  | table _ _ | item _ _ => True
  | assign _ _ value => value.IsOrdered

theorem readStatement_isOrdered {text rest : List Char} {statement : Statement}
    (h : readStatement text = some (statement, rest)) : statement.IsOrdered := by
  unfold readStatement at h
  split at h
  · obtain ⟨⟨⟨path, key⟩, behind⟩, -, h⟩ := Option.bind_eq_some_iff.mp h
    simp only at h
    split at h
    · obtain ⟨_, -, h⟩ := Option.bind_eq_some_iff.mp h
      cases h
      trivial
    · nomatch h
  · obtain ⟨⟨⟨path, key⟩, behind⟩, -, h⟩ := Option.bind_eq_some_iff.mp h
    simp only at h
    split at h
    · obtain ⟨_, -, h⟩ := Option.bind_eq_some_iff.mp h
      cases h
      trivial
    · nomatch h
  · obtain ⟨⟨⟨⟨path, key⟩, value⟩, behind⟩, hassignment, h⟩ := Option.bind_eq_some_iff.mp h
    obtain ⟨_, -, h⟩ := Option.bind_eq_some_iff.mp h
    cases h
    exact readAssignment_isOrdered (readValue_isOrdered nestingLimit) hassignment

theorem readStatements_isOrdered {n : Nat} {text : List Char} {statements : List Statement}
    (h : readStatements n text = some statements) :
    ∀ statement ∈ statements, statement.IsOrdered := by
  induction n generalizing text statements with
  | zero => nomatch h
  | succ n ih =>
    obtain ⟨begun, -, h⟩ := Option.bind_eq_some_iff.mp h
    split at h
    · cases h
      exact fun _ h => nomatch h
    · obtain ⟨⟨statement, rest⟩, hstatement, h⟩ := Option.bind_eq_some_iff.mp h
      obtain ⟨others, hothers, rfl⟩ := Option.map_eq_some_iff.mp h
      exact List.forall_mem_cons.mpr ⟨readStatement_isOrdered hstatement, ih hothers⟩

/-- One more statement leaves a document in order. -/
theorem Assembly.add_isOrdered {a b : Assembly} {statement : Statement}
    (ha : a.entries.IsOrdered) (hstatement : statement.IsOrdered)
    (h : a.add statement = some b) : b.entries.IsOrdered := by
  cases statement with
  | table path key =>
    obtain ⟨entries, hopen, rfl⟩ := Option.map_eq_some_iff.mp h
    exact ha.openTable hopen
  | item path key =>
    obtain ⟨entries, hopen, rfl⟩ := Option.map_eq_some_iff.mp h
    exact ha.openItem hopen
  | assign path key value =>
    obtain ⟨entries, hassign, rfl⟩ := Option.map_eq_some_iff.mp h
    exact ha.assignWithin hstatement hassign

theorem Assembly.foldlM_add_isOrdered {statements : List Statement} {a b : Assembly}
    (ha : a.entries.IsOrdered) (hstatements : ∀ statement ∈ statements, statement.IsOrdered)
    (h : statements.foldlM Assembly.add a = some b) : b.entries.IsOrdered := by
  induction statements generalizing a with
  | nil =>
    cases h
    exact ha
  | cons statement statements ih =>
    obtain ⟨hstatement, hstatements⟩ := List.forall_mem_cons.mp hstatements
    rw [List.foldlM_cons] at h
    obtain ⟨next, hnext, h⟩ := Option.bind_eq_some_iff.mp h
    exact ih (Assembly.add_isOrdered ha hstatement hnext) hstatements h

/-- In a document that is read every table is in ascending order of its keys. -/
theorem Document.isOrdered_of_read? {text : String} {document : Document}
    (h : Document.read? text = some document) : (Value.table document).IsOrdered := by
  obtain ⟨statements, hstatements, h⟩ := Option.bind_eq_some_iff.mp h
  obtain ⟨assembly, hassembly, h⟩ := Option.bind_eq_some_iff.mp h
  cases h
  exact (Assembly.foldlM_add_isOrdered Entries.isOrdered_nil
    (readStatements_isOrdered hstatements) hassembly).finish

end Toml

/-! ## JSON objects -/

namespace Json

/-- A field behind all others stands last. -/
theorem setField_of_forall_lt {key : String} {value : Json} {fields : List (String × Json)}
    (h : ∀ field ∈ fields, field.1 < key) : setField key value fields = fields ++ [(key, value)] := by
  induction fields with
  | nil => rfl
  | cons field fields ih =>
    obtain ⟨hfield, hfields⟩ := List.forall_mem_cons.mp h
    have hnot : ¬ key < field.1 := fun hlt => String.lt_irrefl key (String.lt_trans hlt hfield)
    have hne : key ≠ field.1 := fun heq => String.lt_irrefl key (heq ▸ hfield)
    rw [setField, if_neg hnot, if_neg hne, ih hfields, List.cons_append]

/-- Fields that come one after another behind those that are set already are set behind them. -/
theorem foldl_setField {fields sorted : List (String × Json)} (h : Ascending (sorted ++ fields)) :
    fields.foldl (fun sorted field => setField field.1 field.2 sorted) sorted
      = sorted ++ fields := by
  induction fields generalizing sorted with
  | nil => exact (List.append_nil sorted).symm
  | cons field fields ih =>
    have hlast : ∀ before ∈ sorted, before.1 < field.1 := fun before hbefore =>
      (List.pairwise_append.mp h).2.2 before hbefore field List.mem_cons_self
    rw [List.append_cons] at h
    rw [List.foldl_cons, setField_of_forall_lt hlast, ih h, ← List.append_cons]

/-- Fields in ascending order of their keys make the object of just these fields. -/
theorem ofFields_of_ascending {fields : List (String × Json)} (h : Ascending fields) :
    ofFields fields = .object fields := by
  rw [ofFields, @foldl_setField fields [] h, List.nil_append]

end Json

end RecordQuery
