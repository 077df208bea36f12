import Mathlib.Data.List.Induction
import RecordQuery.FileTree

set_option autoImplicit false

/-!
# Replacing the content of a file

A path is walked by what stands at the places it passes: where directories are, and which names they
hold.  No content of a file has a part in it.  So with the content of one file replaced every path
leads where it led, and every other file reads as it did (`read_withContent`); and a file that is
the nearest of its name to a directory stays it (`IsNearest.withContent`).
-/

namespace RecordQuery.FileTree

/-! ## Entries -/

theorem child?_setChild_self (name : String) (node : FileTree)
    (entries : List (String × FileTree)) :
    child? name (setChild name node entries) = some node := by
  induction entries with
  | nil => simp [setChild, child?]
  | cons entry entries ih =>
    obtain ⟨other, old⟩ := entry
    rw [setChild]
    by_cases hname : other = name
    · simp [child?, hname]
    · rw [if_neg hname]
      simpa [child?, hname] using ih

theorem child?_setChild_of_ne {name other : String} (h : other ≠ name) (node : FileTree)
    (entries : List (String × FileTree)) :
    child? other (setChild name node entries) = child? other entries := by
  induction entries with
  | nil => simp [setChild, child?, h.symm]
  | cons entry entries ih =>
    obtain ⟨first, old⟩ := entry
    rw [setChild]
    by_cases hname : first = name
    · have hother : first ≠ other := by
        rw [hname]
        exact h.symm
      simp [child?, hname, h.symm]
    · rw [if_neg hname]
      by_cases hother : first = other
      · simp [child?, hother]
      · simpa [child?, hother] using ih

/-! ## What can be seen -/

/-- What can be seen at a place without going on from it: the content of a file, or the names in a
directory. -/
inductive View where
  | file (content : ByteArray)
  | directory (holds : String → Bool)

/-- What can be seen of a file or a directory. -/
def view : FileTree → View
  | file content => .file content
  | directory entries => .directory fun name => (child? name entries).isSome

/-- What can be seen at a place. -/
def view? (tree : FileTree) (place : List String) : Option View := (tree.at? place).map view

section Views

variable {tree other : FileTree} {place : List String}

theorem view?_eq_file_iff {content : ByteArray} :
    tree.view? place = some (.file content) ↔ tree.at? place = some (file content) := by
  rw [view?, Option.map_eq_some_iff]
  constructor
  · rintro ⟨node, hnode, hview⟩
    cases node with
    | file found =>
      cases hview
      exact hnode
    | directory entries => cases hview
  · intro h
    exact ⟨file content, h, rfl⟩

/-- A step of a path depends on what can be seen at the place. -/
theorem step_eq_view (tree : FileTree) (place : List String) (component : String) :
    tree.step place component =
      match tree.view? place with
      | some (.directory holds) =>
        if component = "" ∨ component = "." then .ok place
        else if component = ".." then .ok place.dropLast
        else if holds component then .ok (place ++ [component])
        else .error .notFound
      | some (.file _) => .error .notDirectory
      | none => .error .notFound := by
  rw [step, view?]
  cases tree.at? place with
  | none => rfl
  | some node => cases node <;> rfl

/-- Reading depends on where the path leads and on what can be seen there. -/
theorem read_eq_view (tree : FileTree) (directory : List String) (path : String) :
    tree.read directory path = (tree.resolve directory path >>= fun place =>
      match tree.view? place with
      | some (.file content) =>
        match String.fromUTF8? content with
        | some text => .ok text
        | none => .error .notText
      | some (.directory _) => .error .isDirectory
      | none => .error .notFound) := by
  rw [read]
  congr 1
  funext place
  rw [view?]
  cases tree.at? place with
  | none => rfl
  | some node => cases node <;> rfl

end Views

/-! ## Another content -/

/-- The tree with another file put at a place. -/
def withContent (tree : FileTree) (place : List String) (content : ByteArray) : FileTree :=
  put (file content) place tree

theorem at?_put_self (content : FileTree) (place : List String) (tree : FileTree) :
    (put content place tree).at? place = some content := by
  induction place generalizing tree with
  | nil =>
    rw [put]
    rfl
  | cons name place ih =>
    cases tree with
    | file old => simp [put, at?, child?, ih]
    | directory entries =>
      rw [put, at?, child?_setChild_self]
      exact ih _

theorem at?_withContent_self (tree : FileTree) (place : List String) (content : ByteArray) :
    (tree.withContent place content).at? place = some (file content) :=
  at?_put_self (file content) place tree

section WithContent

variable {tree : FileTree} {place : List String} {old : ByteArray}

/-- Another content at the place of a file can be seen at no other place. -/
theorem view?_withContent_of_ne (hfile : tree.at? place = some (file old)) (new : ByteArray)
    {other : List String} (hne : other ≠ place) :
    (tree.withContent place new).view? other = tree.view? other := by
  induction place generalizing tree other with
  | nil =>
    cases hfile
    cases other with
    | nil => exact absurd rfl hne
    | cons name rest => rfl
  | cons name place ih =>
    cases tree with
    | file content => cases hfile
    | directory entries =>
      rw [at?, Option.bind_eq_some_iff] at hfile
      obtain ⟨node, hnode, hfile⟩ := hfile
      have htree : (directory entries).withContent (name :: place) new =
          directory (setChild name (node.withContent place new) entries) := by
        rw [withContent, put, hnode]
        rfl
      rw [htree, view?, view?]
      cases other with
      | nil =>
        have hholds : ∀ key,
            (child? key (setChild name (node.withContent place new) entries)).isSome =
              (child? key entries).isSome := by
          intro key
          by_cases hkey : key = name
          · rw [hkey, child?_setChild_self, hnode]
            rfl
          · rw [child?_setChild_of_ne hkey]
        simp only [at?, Option.map_some, view, hholds]
      | cons key rest =>
        rw [at?, at?]
        by_cases hkey : key = name
        · rw [hkey, child?_setChild_self, hnode]
          refine ih hfile fun hrest => hne ?_
          rw [hkey, hrest]
        · rw [child?_setChild_of_ne hkey]

theorem step_withContent (hfile : tree.at? place = some (file old)) (new : ByteArray) :
    (tree.withContent place new).step = tree.step := by
  funext other component
  rw [step_eq_view, step_eq_view]
  by_cases hother : other = place
  · -- at the place of the file itself neither content leads on
    rw [hother, view?_eq_file_iff.mpr hfile,
      view?_eq_file_iff.mpr (at?_withContent_self tree place new)]
  · rw [view?_withContent_of_ne hfile new hother]

/-- Every path leads where it led. -/
theorem resolve_withContent (hfile : tree.at? place = some (file old)) (new : ByteArray)
    (directory : List String) (path : String) :
    (tree.withContent place new).resolve directory path = tree.resolve directory path := by
  rw [resolve, resolve, step_withContent hfile]

/-- A path that does not lead to the file reads as it did. -/
theorem read_withContent (hfile : tree.at? place = some (file old)) (new : ByteArray)
    {directory : List String} {path : String} (hpath : tree.resolve directory path ≠ .ok place) :
    (tree.withContent place new).read directory path = tree.read directory path := by
  rw [read_eq_view, read_eq_view, resolve_withContent hfile]
  cases hresolve : tree.resolve directory path with
  | error fault => rfl
  | ok other =>
    have hother : other ≠ place := by
      rintro rfl
      exact hpath hresolve
    simp only [bind, Except.bind, view?_withContent_of_ne hfile new hother]

end WithContent

/-! ## The nearest file of a name -/

/-- The file of a name in `home` is the nearest to a directory: `home` is the directory or above it,
and no directory between the two holds such a file. -/
structure IsNearest (tree : FileTree) (name : String) (directory home : List String)
    (content : ByteArray) : Prop where
  above : home <+: directory
  standing : tree.at? (home ++ [name]) = some (file content)
  nearer : ∀ between, between <+: directory → home.length < between.length →
    ∀ other, tree.at? (between ++ [name]) ≠ some (file other)

theorem upwards_concat (directory : List String) (name : String) :
    upwards (directory ++ [name]) = (directory ++ [name]) :: upwards directory := by
  have hself : (directory ++ [name]).take (directory.length + 1) = directory ++ [name] :=
    List.take_of_length_le (by simp)
  have habove : (List.range (directory.length + 1)).reverse.map (directory ++ [name]).take =
      (List.range (directory.length + 1)).reverse.map directory.take := by
    refine List.map_congr_left fun count hcount => ?_
    rw [List.mem_reverse, List.mem_range] at hcount
    exact List.take_append_of_le_length (by omega)
  rw [upwards, upwards, List.length_append, List.length_singleton, List.range_succ,
    List.reverse_append, List.reverse_singleton, List.singleton_append, List.map_cons, hself,
    habove]

theorem fileIn?_eq_some_iff {tree : FileTree} {name : String} {directory : List String}
    {content : ByteArray} :
    tree.fileIn? name directory = some content ↔
      tree.at? (directory ++ [name]) = some (file content) := by
  rw [fileIn?]
  cases tree.at? (directory ++ [name]) with
  | none => simp
  | some node => cases node <;> simp

/-- Without such a file in a directory, the nearest to it is the nearest to the one above. -/
theorem isNearest_concat_iff {tree : FileTree} {name last : String} {directory home : List String}
    {content : ByteArray} (hnone : tree.fileIn? name (directory ++ [last]) = none) :
    tree.IsNearest name (directory ++ [last]) home content ↔
      tree.IsNearest name directory home content := by
  have hself : ∀ other, tree.at? (directory ++ [last] ++ [name]) ≠ some (file other) := by
    intro other hother
    rw [← fileIn?_eq_some_iff, hnone] at hother
    cases hother
  constructor
  · rintro ⟨habove, hstanding, hnearer⟩
    rcases List.prefix_concat_iff.mp habove with rfl | habove
    · exact absurd hstanding (hself content)
    · exact ⟨habove, hstanding, fun between hbetween =>
        hnearer between (hbetween.trans (List.prefix_append directory [last]))⟩
  · rintro ⟨habove, hstanding, hnearer⟩
    refine ⟨habove.trans (List.prefix_append directory [last]), hstanding, ?_⟩
    intro between hbetween hlength other
    rcases List.prefix_concat_iff.mp hbetween with rfl | hbetween
    · exact hself other
    · exact hnearer between hbetween hlength other

/-- A file in the directory itself is the nearest. -/
theorem isNearest_iff_of_fileIn? {tree : FileTree} {name : String} {directory home : List String}
    {content found : ByteArray} (hfound : tree.fileIn? name directory = some found) :
    tree.IsNearest name directory home content ↔ home = directory ∧ content = found := by
  have hself := fileIn?_eq_some_iff.mp hfound
  constructor
  · rintro ⟨habove, hstanding, hnearer⟩
    have hhome : home = directory := by
      refine habove.eq_of_length_le (Nat.le_of_not_lt fun hlength => ?_)
      exact hnearer directory List.prefix_rfl hlength found hself
    rw [hhome, hself] at hstanding
    cases hstanding
    exact ⟨hhome, rfl⟩
  · rintro ⟨rfl, rfl⟩
    refine ⟨List.prefix_rfl, hself, fun between hbetween hlength => ?_⟩
    exact absurd hbetween.length_le (Nat.not_le_of_lt hlength)

/-- The search upwards finds the nearest file. -/
theorem nearest?_eq_some_iff {tree : FileTree} {name : String} {directory : List String}
    {content : ByteArray} :
    tree.nearest? name directory = some content ↔
      ∃ home, tree.IsNearest name directory home content := by
  induction directory using List.reverseRecOn with
  | nil =>
    have hroot : upwards [] = [[]] := rfl
    rw [nearest?, hroot, List.findSome?_singleton]
    constructor
    · intro h
      exact ⟨[], (isNearest_iff_of_fileIn? h).mpr ⟨rfl, rfl⟩⟩
    · rintro ⟨home, habove, hstanding, -⟩
      rw [List.prefix_nil.mp habove] at hstanding
      exact fileIn?_eq_some_iff.mpr hstanding
  | append_singleton directory last ih =>
    rw [nearest?, upwards_concat, List.findSome?_cons]
    cases hfound : tree.fileIn? name (directory ++ [last]) with
    | none =>
      simp only [isNearest_concat_iff hfound]
      exact ih
    | some found => simp [isNearest_iff_of_fileIn? hfound, eq_comm]

theorem IsNearest.withContent {tree : FileTree} {name : String} {directory home : List String}
    {old : ByteArray} (h : tree.IsNearest name directory home old) (new : ByteArray) :
    (tree.withContent (home ++ [name]) new).IsNearest name directory home new := by
  refine ⟨h.above, at?_withContent_self _ _ _, ?_⟩
  intro between hbetween hlength other hother
  have hne : between ++ [name] ≠ home ++ [name] := by
    intro heq
    rw [List.append_cancel_right heq] at hlength
    exact Nat.lt_irrefl _ hlength
  rw [← view?_eq_file_iff, view?_withContent_of_ne h.standing new hne, view?_eq_file_iff] at hother
  exact h.nearer between hbetween hlength other hother

end RecordQuery.FileTree
