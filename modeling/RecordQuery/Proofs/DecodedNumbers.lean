import RecordQuery.Proofs.Folds
import RecordQuery.Settings.Decoding

set_option autoImplicit false

/-!
# Numbers in what decodes

A number that cannot be decoded is a fault wherever it stands: whether it is ignored, or is in the
place of a setting, what it stands in decodes to no settings.  The one place that is never looked at
is an array of settings beyond its second item.
-/

namespace RecordQuery.Settings

open Toml (Value)

variable {s after : Settings}

theorem decodable_of_ignoreToml {value : Value} (h : ignoreToml s value = .ok after) :
    value.decodable = true := by
  unfold ignoreToml at h
  split at h
  · next hdecodable => exact hdecodable
  · nomatch h

/-- A value that names something is a text, or a table of a single key with nothing in it. -/
theorem decodable_of_choiceOfToml {α : Type} {named : String → Except Mismatch α}
    {set : α → Settings} {value : Value} (h : (choiceOfToml named value).map set = .ok after) :
    value.decodable = true := by
  unfold choiceOfToml at h
  split at h
  · rfl
  · rfl
  · rfl
  · next name _ _ _ => cases hname : named name <;> rw [hname] at h <;> nomatch h
  · nomatch h

theorem decodable_of_withEntry {entry : String × Value} (h : withEntry s entry = .ok after) :
    entry.2.decodable = true := by
  unfold withEntry at h
  split at h
  · exact decodable_of_choiceOfToml h
  · split at h
    · exact decodable_of_choiceOfToml h
    · exact decodable_of_ignoreToml h

theorem decodable_of_foldlM_withEntry {entries : List (String × Value)}
    (h : entries.foldlM withEntry s = .ok after) : ∀ entry ∈ entries, entry.2.decodable = true := by
  intro entry hentry
  obtain ⟨_, _, hstep⟩ := exists_ok_of_foldlM h entry hentry
  exact decodable_of_withEntry hstep

/-- The settings of a document that decodes are settings by themselves. -/
theorem exists_ofTomlValue_of_ofDocument {document : Toml.Document} {value : Value}
    (h : ofDocument document = .ok s) (hvalue : (settingsKey, value) ∈ document) :
    ∃ settings, ofTomlValue value = .ok settings := by
  obtain ⟨_, settings, hstep⟩ := exists_ok_of_foldlM h _ hvalue
  rw [if_pos rfl] at hstep
  exact ⟨settings, hstep⟩

theorem decodable_of_ofDocument {document : Toml.Document} {entry : String × Value}
    (h : ofDocument document = .ok s) (hentry : entry ∈ document) (hkey : entry.1 ≠ settingsKey) :
    entry.2.decodable = true := by
  obtain ⟨_, _, hstep⟩ := exists_ok_of_foldlM h entry hentry
  rw [if_neg hkey] at hstep
  exact decodable_of_ignoreToml hstep

end RecordQuery.Settings
