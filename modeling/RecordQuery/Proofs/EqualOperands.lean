import RecordQuery.Operand.Conversion
import RecordQuery.Proofs.Acceptance

set_option autoImplicit false

/-!
# Equal operands

Operands are compared as trees, and the only thing in which equal operands can differ is the sign of a
float zero: two operands are equal if they agree once the signs of all zeros are dropped
(`Operand.same_iff`).  From this it follows that equality is an equivalence and that equal operands are
interchangeable wherever no zero is written (`equal_operands_alike`).
-/

namespace RecordQuery

open Calendar (Clock)

/-! ## Numbers -/

namespace Numeral.Binary

variable {F : Format}

/-- The value with the sign of a zero dropped. -/
def canonical (x : Binary F) : Binary F :=
  { x with negative := x.negative && x.magnitude != 0 }

theorem same_iff {x y : Binary F} : x.same y = true ↔ x.canonical = y.canonical := by
  rw [same, canonical, canonical, Binary.mk.injEq, Bool.and_eq_true, beq_iff_eq, Bool.or_eq_true,
    beq_iff_eq, beq_iff_eq]
  constructor
  · rintro ⟨hmagnitude, hsign | hzero⟩
    · rw [hmagnitude, hsign]
      exact ⟨rfl, rfl⟩
    · rw [← hmagnitude, hzero]
      simp
  · rintro ⟨hsign, hmagnitude⟩
    refine ⟨hmagnitude, ?_⟩
    by_cases hzero : x.magnitude = 0
    · exact Or.inr hzero
    · left
      rwa [← hmagnitude, bne_iff_ne.mpr hzero, Bool.and_true, Bool.and_true] at hsign

theorem canonical_eq {x : Binary F} (h : x.magnitude ≠ 0) : x.canonical = x := by
  cases x
  simp_all [canonical]

end Numeral.Binary

namespace Number

/-- The number with the sign of a float zero dropped. -/
def canonical : Number → Number
  | integer n => integer n
  | float x => float x.canonical

/-- Whether the number is a float zero of either sign. -/
def isFloatZero : Number → Bool
  | integer _ => false
  | float x => x.magnitude == 0

theorem same_iff {a b : Number} : a.same b = true ↔ a.canonical = b.canonical := by
  cases a <;> cases b <;> simp [same, canonical, Numeral.Binary.same_iff]

theorem canonical_eq {a : Number} (h : a.isFloatZero = false) : a.canonical = a := by
  cases a with
  | integer n => rfl
  | float x => exact congrArg float (Numeral.Binary.canonical_eq (by simpa [isFloatZero] using h))

end Number

/-! ## Trees -/

namespace Json

mutual

/-- The tree with the signs of all float zeros dropped. -/
def canonical : Json → Json
  | number n => number n.canonical
  | array items => array (canonicalItems items)
  | object fields => object (canonicalFields fields)
  | null => null
  | boolean b => boolean b
  | text s => text s

/-- The items of an array with the signs of all float zeros dropped. -/
def canonicalItems : List Json → List Json
  | [] => []
  | item :: items => canonical item :: canonicalItems items

/-- The fields of an object with the signs of all float zeros dropped. -/
def canonicalFields : List (String × Json) → List (String × Json)
  | [] => []
  | (key, value) :: fields => (key, canonical value) :: canonicalFields fields

end

mutual

/-- Whether a float zero occurs in the tree. -/
def hasFloatZero : Json → Bool
  | number n => n.isFloatZero
  | array items => someItemHasFloatZero items
  | object fields => someFieldHasFloatZero fields
  | null => false
  | boolean _ => false
  | text _ => false

/-- Whether a float zero occurs in an item of an array. -/
def someItemHasFloatZero : List Json → Bool
  | [] => false
  | item :: items => hasFloatZero item || someItemHasFloatZero items

/-- Whether a float zero occurs in a field of an object. -/
def someFieldHasFloatZero : List (String × Json) → Bool
  | [] => false
  | (_, value) :: fields => hasFloatZero value || someFieldHasFloatZero fields

end

mutual

/-- Equality of trees compares them but for the signs of float zeros. -/
theorem same_iff : ∀ a b : Json, a.same b = true ↔ a.canonical = b.canonical
  | null, b => by cases b <;> simp [same, canonical]
  | boolean s, b => by cases b <;> simp [same, canonical]
  | text s, b => by cases b <;> simp [same, canonical]
  | number n, b => by cases b <;> simp [same, canonical, Number.same_iff]
  | array items, b => by cases b <;> simp [same, canonical, sameItems_iff items]
  | object fields, b => by cases b <;> simp [same, canonical, sameFields_iff fields]

theorem sameItems_iff : ∀ as bs : List Json,
    sameItems as bs = true ↔ canonicalItems as = canonicalItems bs
  | [], bs => by cases bs <;> simp [sameItems, canonicalItems]
  | a :: as, bs => by cases bs <;> simp [sameItems, canonicalItems, same_iff a, sameItems_iff as]

theorem sameFields_iff : ∀ as bs : List (String × Json),
    sameFields as bs = true ↔ canonicalFields as = canonicalFields bs
  | [], bs => by cases bs <;> simp [sameFields, canonicalFields]
  | (key, a) :: as, bs => by
    cases bs <;> simp [sameFields, canonicalFields, same_iff a, sameFields_iff as, and_assoc]

end

mutual

theorem canonical_eq : ∀ {a : Json}, a.hasFloatZero = false → a.canonical = a
  | null, _ => rfl
  | boolean _, _ => rfl
  | text _, _ => rfl
  | number _, h => congrArg number (Number.canonical_eq h)
  | array _, h => congrArg array (canonicalItems_eq h)
  | object _, h => congrArg object (canonicalFields_eq h)

theorem canonicalItems_eq : ∀ {items : List Json}, someItemHasFloatZero items = false →
    canonicalItems items = items
  | [], _ => rfl
  | item :: items, h => by
    obtain ⟨hitem, hitems⟩ := Bool.or_eq_false_iff.mp h
    rw [canonicalItems, canonical_eq hitem, canonicalItems_eq hitems]

theorem canonicalFields_eq : ∀ {fields : List (String × Json)},
    someFieldHasFloatZero fields = false → canonicalFields fields = fields
  | [], _ => rfl
  | (key, value) :: fields, h => by
    obtain ⟨hvalue, hfields⟩ := Bool.or_eq_false_iff.mp h
    rw [canonicalFields, canonical_eq hvalue, canonicalFields_eq hfields]

end

end Json

/-! ## Operands -/

namespace Operand

mutual

/-- The operand with the signs of all float zeros dropped. -/
def canonical : Operand → Operand
  | number n => number n.canonical
  | list items => list (canonicalItems items)
  | object fields => object (Json.canonicalFields fields)
  | text s => text s
  | date i => date i
  | boolean b => boolean b
  | null => null

/-- The items of a list with the signs of all float zeros dropped. -/
def canonicalItems : List Operand → List Operand
  | [] => []
  | item :: items => canonical item :: canonicalItems items

end

mutual

/-- Whether a float zero occurs in the operand. -/
def hasFloatZero : Operand → Bool
  | number n => n.isFloatZero
  | list items => someItemHasFloatZero items
  | object fields => Json.someFieldHasFloatZero fields
  | text _ => false
  | date _ => false
  | boolean _ => false
  | null => false

/-- Whether a float zero occurs in an item of a list. -/
def someItemHasFloatZero : List Operand → Bool
  | [] => false
  | item :: items => hasFloatZero item || someItemHasFloatZero items

end

mutual

/-- Equality of operands compares them but for the signs of float zeros. -/
theorem same_iff : ∀ a b : Operand, a.same b = true ↔ a.canonical = b.canonical
  | text s, b => by cases b <;> simp [same, canonical]
  | number n, b => by cases b <;> simp [same, canonical, Number.same_iff]
  | date i, b => by cases b <;> simp [same, canonical]
  | list items, b => by cases b <;> simp [same, canonical, sameItems_iff items]
  | boolean s, b => by cases b <;> simp [same, canonical]
  | object fields, b => by cases b <;> simp [same, canonical, Json.sameFields_iff fields]
  | null, b => by cases b <;> simp [same, canonical]

theorem sameItems_iff : ∀ as bs : List Operand,
    sameItems as bs = true ↔ canonicalItems as = canonicalItems bs
  | [], bs => by cases bs <;> simp [sameItems, canonicalItems]
  | a :: as, bs => by cases bs <;> simp [sameItems, canonicalItems, same_iff a, sameItems_iff as]

end

mutual

theorem canonical_eq : ∀ {a : Operand}, a.hasFloatZero = false → a.canonical = a
  | text _, _ => rfl
  | number _, h => congrArg number (Number.canonical_eq h)
  | date _, _ => rfl
  | list _, h => congrArg list (canonicalItems_eq h)
  | boolean _, _ => rfl
  | object _, h => congrArg object (Json.canonicalFields_eq h)
  | null, _ => rfl

theorem canonicalItems_eq : ∀ {items : List Operand}, someItemHasFloatZero items = false →
    canonicalItems items = items
  | [], _ => rfl
  | item :: items, h => by
    obtain ⟨hitem, hitems⟩ := Bool.or_eq_false_iff.mp h
    rw [canonicalItems, canonical_eq hitem, canonicalItems_eq hitems]

end

theorem equivalence_same : Equivalence fun a b : Operand => a.same b = true := by
  constructor
  · intro a
    exact (same_iff a a).mpr rfl
  · intro a b h
    exact (same_iff b a).mpr ((same_iff a b).mp h).symm
  · intro a b c hab hbc
    exact (same_iff a c).mpr (((same_iff a b).mp hab).trans ((same_iff b c).mp hbc))

/-- Only a float zero can tell equal operands apart. -/
theorem eq_of_same {a b : Operand} (h : a.same b = true) (ha : a.hasFloatZero = false)
    (hb : b.hasFloatZero = false) : a = b := by
  rw [← canonical_eq ha, ← canonical_eq hb]
  exact (same_iff a b).mp h

theorem kind_canonical (a : Operand) : a.canonical.kind = a.kind := by
  cases a <;> rfl

theorem isScalar_canonical (a : Operand) : a.canonical.isScalar = a.isScalar := by
  cases a <;> rfl

end Operand

namespace Query

/-! ## Faults -/

section

variable {α : Type} (clock : Clock)

theorem map_const_encodeText_canonical (a : α) (v : Operand) :
    (encodeText v.canonical).map (fun _ => a) = (encodeText v).map (fun _ => a) := by
  cases v <;> rfl

theorem map_const_encodeItems_canonical (a : α) (items : List Operand) :
    (encodeItems clock (Operand.canonicalItems items)).map (fun _ => a) =
      (encodeItems clock items).map (fun _ => a) := by
  induction items with
  | nil => rfl
  | cons item items ih =>
    rw [Operand.canonicalItems, map_const_encodeItems_cons, map_const_encodeItems_cons,
      map_const_encodeItem, map_const_encodeItem, item.isScalar_canonical, item.kind_canonical, ih]

theorem map_const_encodeMembership_canonical (a : α) (v : Operand) :
    (encodeMembership clock v.canonical).map (fun _ => a) =
      (encodeMembership clock v).map (fun _ => a) := by
  cases v with
  | list items =>
    show (encodeList clock _).map _ = (encodeList clock items).map _
    rw [map_const_encodeList_eq, map_const_encodeList_eq, map_const_encodeItems_canonical]
  | _ => rfl

theorem map_fst_encodeEquality_canonical (single many : Operator) (v : Operand) :
    (encodeEquality clock single many v.canonical).map (·.1) =
      (encodeEquality clock single many v).map (·.1) := by
  cases v with
  | list items =>
    show ((encodeList clock _).map _).map _ = ((encodeList clock items).map _).map _
    rw [map_fst_pair, map_fst_pair, map_const_encodeList_eq, map_const_encodeList_eq,
      map_const_encodeItems_canonical]
  | _ => rfl

/-- All that can be asked with one operand. -/
def singleConditions : List (Operand → Condition) :=
  textConditions ++ listConditions ++ comparisons

/-- The sign of a zero has no say in the operator of a condition, or in its fault. -/
theorem map_fst_encode_canonical {ask : Operand → Condition} (hask : ask ∈ singleConditions)
    (v : Operand) :
    ((ask v.canonical).encode clock).map (·.1) = ((ask v).encode clock).map (·.1) := by
  rw [singleConditions, List.mem_append, List.mem_append] at hask
  obtain (htext | hlist) | hcomparison := hask
  · simp only [textConditions, List.mem_cons, List.not_mem_nil, or_false] at htext
    obtain rfl | rfl | rfl | rfl := htext <;>
      simp only [Condition.encode, map_fst_pair, map_const_encodeText_canonical]
  · simp only [listConditions, List.mem_cons, List.not_mem_nil, or_false] at hlist
    obtain rfl | rfl | rfl := hlist
    · exact map_fst_encodeEquality_canonical clock _ _ v
    · exact map_fst_encodeEquality_canonical clock _ _ v
    · simp only [Condition.encode, map_fst_pair, map_const_encodeMembership_canonical]
  · simp only [comparisons, List.mem_cons, List.not_mem_nil, or_false] at hcomparison
    obtain rfl | rfl | rfl | rfl := hcomparison <;>
      simp only [Condition.encode, map_fst_pair, map_const_encodeComparable,
        Operand.isScalar_canonical, Operand.kind_canonical]

theorem map_fst_encode_between_canonical (start finish : Operand) :
    ((Condition.between start.canonical finish.canonical).encode clock).map (·.1) =
      ((Condition.between start finish).encode clock).map (·.1) := by
  simp only [Condition.encode, map_fst_pair, map_const_encodeRange, Operand.isScalar_canonical,
    Operand.kind_canonical]

end

theorem Draft.require_eq_error_iff_of_map_fst {d : Draft} {c c' : Condition} {fault : Fault}
    (h : (c.encode d.settings.clock).map (·.1) = (c'.encode d.settings.clock).map (·.1)) :
    d.require c = .error fault ↔ d.require c' = .error fault := by
  rw [require_eq_error_iff, require_eq_error_iff, encode_eq_error_iff_map_fst,
    encode_eq_error_iff_map_fst, h]

/-- Equality of operands is an equivalence that drafts respect.

It disregards the signs of float zeros and nothing else.  So equal operands are of one kind, and every
condition on them, and a range between them, fails for the same reason or does not fail.  Where no
float zero occurs, they have the same text on every clock, and a draft comes out the same, too. -/
theorem equal_operands_alike :
    Equivalence (fun a b : Operand => a.same b = true) ∧
    (∀ a b : Operand, a.same b = true ↔ a.canonical = b.canonical) ∧
    (∀ a b : Operand, a.same b = true →
      a.kind = b.kind ∧
      (∀ ask ∈ singleConditions, ∀ (d : Draft) (fault : Fault),
        d.require (ask a) = .error fault ↔ d.require (ask b) = .error fault) ∧
      ∀ a' b' : Operand, a'.same b' = true → ∀ (d : Draft) (fault : Fault),
        d.require (.between a a') = .error fault ↔ d.require (.between b b') = .error fault) ∧
    (∀ a b : Operand, a.same b = true → a.hasFloatZero = false → b.hasFloatZero = false →
      (∀ clock, a.scalarText? clock = b.scalarText? clock) ∧
      (∀ ask ∈ singleConditions, ∀ d : Draft, d.require (ask a) = d.require (ask b)) ∧
      ∀ a' b' : Operand, a'.same b' = true → a'.hasFloatZero = false → b'.hasFloatZero = false →
        ∀ d : Draft, d.require (.between a a') = d.require (.between b b')) := by
  refine ⟨Operand.equivalence_same, Operand.same_iff, ?_, ?_⟩
  · intro a b h
    have hcanonical := (Operand.same_iff a b).mp h
    refine ⟨?_, fun ask hask d fault => ?_, fun a' b' h' d fault => ?_⟩
    · rw [← a.kind_canonical, hcanonical, b.kind_canonical]
    · refine Draft.require_eq_error_iff_of_map_fst ?_
      rw [← map_fst_encode_canonical _ hask a, hcanonical, map_fst_encode_canonical _ hask b]
    · refine Draft.require_eq_error_iff_of_map_fst ?_
      rw [← map_fst_encode_between_canonical, hcanonical, (Operand.same_iff a' b').mp h',
        map_fst_encode_between_canonical]
  · intro a b h ha hb
    obtain rfl := Operand.eq_of_same h ha hb
    refine ⟨fun _ => rfl, fun _ _ _ => rfl, fun a' b' h' ha' hb' d => ?_⟩
    rw [Operand.eq_of_same h' ha' hb']

/-- A list with an object written in two orders and a date from two offsets, a range of numbers, and
the two zeros, which are refused alike and written differently. -/
theorem equal_operands_alike_nested :
    let written : Operand := .list [.ofJson (.ofFields [("b", .boolean true),
      ("a", .array [.number (.integer 2), .null])]), .date ⟨3600 - 3600, 5, by decide⟩]
    let sorted : Operand := .list [.object [("a", .array [.number (.integer 2), .null]),
      ("b", .boolean true)], .date ⟨0, 5, by decide⟩]
    let half : Operand := .ofBits64 0x3FE0000000000000
    let single : Operand := .ofBits32 0x3F000000
    let zero : Operand := .ofBits64 0
    let minusZero : Operand := .ofBits64 0x8000000000000000
    written.same sorted = true ∧ sorted.same written = true ∧
    written.hasFloatZero = false ∧ sorted.hasFloatZero = false ∧
    (∀ d : Draft, d.require (.isOneOf written) = d.require (.isOneOf sorted)) ∧
    half.same single = true ∧ half.hasFloatZero = false ∧ single.hasFloatZero = false ∧
    (∀ d : Draft, d.require (.between half single) = d.require (.between single half)) ∧
    zero.same minusZero = true ∧ zero.scalarText? .twelve ≠ minusZero.scalarText? .twelve ∧
    ∀ (d : Draft) (fault : Fault),
      d.require (.contains zero) = .error fault ↔ d.require (.contains minusZero) = .error fault := by
  intro written sorted half single zero minusZero
  obtain ⟨hequivalence, -, hfaults, halike⟩ := equal_operands_alike
  have hsorted : written.same sorted = true := by decide +kernel
  have hhalf : half.same single = true := by decide +kernel
  have hzero : zero.same minusZero = true := by decide +kernel
  have hwritten : written.hasFloatZero = false := by decide +kernel
  have hsorted' : sorted.hasFloatZero = false := by decide +kernel
  have hhalf' : half.hasFloatZero = false := by decide +kernel
  have hsingle : single.hasFloatZero = false := by decide +kernel
  refine ⟨hsorted, hequivalence.symm hsorted, hwritten, hsorted', ?_, hhalf, hhalf', hsingle, ?_,
    hzero, by decide +kernel, ?_⟩
  · obtain ⟨-, hsingles, -⟩ := halike written sorted hsorted hwritten hsorted'
    exact hsingles _ (by simp [singleConditions, listConditions])
  · obtain ⟨-, -, hranges⟩ := halike half single hhalf hhalf' hsingle
    exact hranges single half (hequivalence.symm hhalf) hsingle hhalf'
  · obtain ⟨-, hsingles, -⟩ := hfaults zero minusZero hzero
    exact hsingles _ (by simp [singleConditions, textConditions])

end Query

end RecordQuery
