import Mathlib.Data.List.Basic
import RecordQuery.EnvFile
import RecordQuery.FileTree

set_option autoImplicit false

/-!
# The bytes of an environment file

An environment file is read up to one line feed after the other, before it is known whether the rest
is a text.  In UTF-8 the line feed is a byte that no other character has, so a text falls into the
pieces between its own line feeds (`pieces_toUTF8`), and bytes that are no text leave a line that
cannot be read (`none_mem_lines`).
-/

namespace RecordQuery.EnvFile

/-! ## Cutting -/

section Cutting

variable {α : Type} {ends : α → Bool}

theorem prepend_prepend (front middle : List α) (pieces : List (List α)) :
    prepend front (prepend middle pieces) = prepend (front ++ middle) pieces := by
  cases pieces <;> simp [prepend]

theorem flatten_prepend (front : List α) (pieces : List (List α)) :
    (prepend front pieces).flatten = front ++ pieces.flatten := by
  cases pieces <;> simp [prepend]

theorem flatten_cutBehind (ends : α → Bool) (l : List α) : (cutBehind ends l).flatten = l := by
  induction l with
  | nil => rfl
  | cons a rest ih =>
    rw [cutBehind]
    split
    · simp [ih]
    · rw [flatten_prepend, ih]
      rfl

/-- Items that end no piece stay with what follows them. -/
theorem cutBehind_append {front : List α} (hne : front ≠ [])
    (hfront : ∀ a ∈ front, ends a = false) (rest : List α) :
    cutBehind ends (front ++ rest) = prepend front (cutBehind ends rest) := by
  induction front with
  | nil => exact absurd rfl hne
  | cons a front ih =>
    obtain ⟨ha, hfront⟩ := List.forall_mem_cons.mp hfront
    rw [List.cons_append, cutBehind, ha, if_neg Bool.false_ne_true]
    by_cases hnil : front = []
    · rw [hnil]
      rfl
    · rw [ih hnil hfront, prepend_prepend]
      rfl

end Cutting

/-! ## Bytes of characters -/

/-- The bytes of characters. -/
def encode (text : List Char) : List UInt8 := text.flatMap String.utf8EncodeChar

@[simp] theorem encode_cons (c : Char) (text : List Char) :
    encode (c :: text) = String.utf8EncodeChar c ++ encode text := rfl

@[simp] theorem encode_append (text other : List Char) :
    encode (text ++ other) = encode text ++ encode other :=
  List.flatMap_append

theorem encode_flatten (texts : List (List Char)) :
    encode texts.flatten = (texts.map encode).flatten := by
  induction texts with
  | nil => rfl
  | cons text texts ih => simp [ih]

theorem toList_toUTF8 (text : String) : text.toUTF8.data.toList = encode text.toList := by
  have h : text.toUTF8 = (encode text.toList).toByteArray := by
    conv => lhs; rw [← String.ofList_toList (s := text)]
    exact String.toByteArray_ofList
  rw [h, List.toList_data_toByteArray]

theorem decode?_encode (text : List Char) : decode? (encode text) = some text := by
  have hbytes : (encode text).toByteArray = (String.ofList text).toUTF8 :=
    String.toByteArray_ofList.symm
  rw [decode?, hbytes, FileTree.fromUTF8?_toUTF8, Option.map_some, String.toList_ofList]

theorem eq_encode_of_decode? {bytes : List UInt8} {text : List Char}
    (h : decode? bytes = some text) : bytes = encode text := by
  rw [decode?, Option.map_eq_some_iff] at h
  obtain ⟨decoded, hdecoded, rfl⟩ := h
  rw [String.fromUTF8?] at hdecoded
  split at hdecoded
  · obtain rfl := Option.some.inj hdecoded
    rw [← toList_toUTF8]
    exact List.toList_data_toByteArray.symm
  · cases hdecoded

/-- No character but the line feed has its byte. -/
theorem lineFeed_not_mem {c : Char} (h : c ≠ '\n') : 0x0A ∉ String.utf8EncodeChar c := by
  have hcode : c.val.toNat ≠ 10 := fun heq => h (Char.ext (UInt32.toNat_inj.mp heq))
  have hbyte : ∀ n, (0x0A : UInt8) = UInt8.ofNat n → n % 256 = 10 := by
    intro n heq
    have := congrArg UInt8.toNat heq
    simpa using this.symm
  intro hmem
  simp only [String.utf8EncodeChar] at hmem
  split at hmem
  · have := hbyte _ (List.mem_singleton.mp hmem)
    omega
  · split at hmem
    · simp only [List.mem_cons, List.not_mem_nil, or_false] at hmem
      rcases hmem with hmem | hmem <;> have := hbyte _ hmem <;> omega
    · split at hmem
      · simp only [List.mem_cons, List.not_mem_nil, or_false] at hmem
        rcases hmem with hmem | hmem | hmem <;> have := hbyte _ hmem <;> omega
      · simp only [List.mem_cons, List.not_mem_nil, or_false] at hmem
        rcases hmem with hmem | hmem | hmem | hmem <;> have := hbyte _ hmem <;> omega

theorem map_encode_prepend (front : List Char) (pieces : List (List Char)) :
    (prepend front pieces).map encode = prepend (encode front) (pieces.map encode) := by
  cases pieces <;> simp [prepend]

theorem cutBehind_encode (text : List Char) :
    cutBehind (· == 0x0A) (encode text) = (cutBehind (· == '\n') text).map encode := by
  induction text with
  | nil => rfl
  | cons c rest ih =>
    by_cases h : c = '\n'
    · subst h
      have hbytes : String.utf8EncodeChar '\n' = [0x0A] := by decide
      rw [encode_cons, hbytes, List.singleton_append, cutBehind, cutBehind, ih]
      simp [encode, hbytes]
    · have hfront : ∀ b ∈ String.utf8EncodeChar c, (b == 0x0A) = false := by
        intro b hb
        rw [beq_eq_false_iff_ne]
        rintro rfl
        exact lineFeed_not_mem h hb
      rw [encode_cons, cutBehind_append String.utf8EncodeChar_ne_nil hfront, ih, cutBehind,
        if_neg (by simpa using h), map_encode_prepend]
      simp [encode]

/-! ## Pieces of texts -/

/-- A text falls into the texts between its line feeds. -/
theorem pieces_toUTF8 (text : String) :
    pieces text.toUTF8 = withoutMark ((cutBehind (· == '\n') text.toList).map some) := by
  have hdecode : decode? ∘ encode = some := funext decode?_encode
  rw [pieces, toList_toUTF8, cutBehind_encode, List.map_map, hdecode]

theorem lines_toUTF8 (text : String) :
    lines text.toUTF8 =
      joinPieces none (withoutMark ((cutBehind (· == '\n') text.toList).map some)) := by
  rw [lines, pieces_toUTF8]

theorem none_mem_withoutMark {pieces : List (Option (List Char))} :
    none ∈ withoutMark pieces ↔ none ∈ pieces := by
  rcases pieces with _ | ⟨_ | piece, pieces⟩ <;> simp [withoutMark]

theorem exists_eq_map_encode {pieces : List (List UInt8)} (h : none ∉ pieces.map decode?) :
    ∃ texts : List (List Char), pieces = texts.map encode := by
  induction pieces with
  | nil => exact ⟨[], rfl⟩
  | cons piece pieces ih =>
    rw [List.map_cons, List.mem_cons, not_or] at h
    obtain ⟨hpiece, hpieces⟩ := h
    obtain ⟨text, htext⟩ := Option.ne_none_iff_exists'.mp (Ne.symm hpiece)
    obtain ⟨texts, rfl⟩ := ih hpieces
    refine ⟨text :: texts, ?_⟩
    rw [List.map_cons, eq_encode_of_decode? htext]

/-- Bytes that are no text fall into pieces of which one is no text. -/
theorem none_mem_pieces {content : ByteArray} (h : String.fromUTF8? content = none) :
    none ∈ pieces content := by
  by_contra hpieces
  rw [pieces, none_mem_withoutMark] at hpieces
  obtain ⟨texts, htexts⟩ := exists_eq_map_encode hpieces
  have hbytes : content.data.toList = encode texts.flatten := by
    rw [encode_flatten, ← htexts, flatten_cutBehind]
  have hcontent : content = (String.ofList texts.flatten).toUTF8 := by
    apply ByteArray.ext
    apply Array.toList_inj.mp
    rw [hbytes, toList_toUTF8, String.toList_ofList]
  rw [hcontent, FileTree.fromUTF8?_toUTF8] at h
  cases h

/-- A piece that is no text leaves a line that cannot be read. -/
theorem none_mem_joinPieces {pieces : List (Option (List Char))} (h : none ∈ pieces)
    (unfinished : Option (List Char × Quoting)) : none ∈ joinPieces unfinished pieces := by
  induction pieces generalizing unfinished with
  | nil => cases h
  | cons piece rest ih =>
    cases piece with
    | none => cases unfinished <;> simp [joinPieces]
    | some text =>
      have hrest : none ∈ rest := by simpa using h
      simp only [joinPieces]
      split
      · exact ih hrest none
      · split
        · exact List.mem_cons_of_mem _ (ih hrest none)
        · exact List.mem_cons_of_mem _ (ih hrest none)
        · exact ih hrest _

theorem none_mem_lines {content : ByteArray} (h : String.fromUTF8? content = none) :
    none ∈ lines content :=
  none_mem_joinPieces (none_mem_pieces h) none

end RecordQuery.EnvFile
