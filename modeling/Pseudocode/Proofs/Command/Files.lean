import Pseudocode.Command.FileTree

/-! What writing a file changes: the file is read back under its path, and everything else stays
where it is. -/

namespace Pseudocode

namespace FileTree

variable {tree : FileTree} {place other : List String} {content : String}

/-- A file that is put at a place is found there, and all others where they were. -/
theorem file?_put (tree : FileTree) (place other : List String) (content : String) :
    (tree.put place content).file? other =
      if other = place then some content else tree.file? other := by
  simp only [file?, put, List.find?_append, List.find?_filter]
  by_cases same : other = place
  · -- What was there before has been taken away.
    have gone : tree.files.find?
        (fun file => decide ((file.1 != place) = true ∧ (file.1 == other) = true)) = none := by
      rw [List.find?_eq_none]
      intro file _
      simp [same]
    rw [gone]
    simp [same]
  · -- At any other place the files that are kept are those that were there.
    have kept : (fun file : List String × String =>
        decide ((file.1 != place) = true ∧ (file.1 == other) = true)) =
          fun file => file.1 == other := by
      funext file
      by_cases named : file.1 = other <;> simp [named, same]
    rw [kept]
    simp [same, Ne.symm same]

/-- A place is above another one. -/
def IsAbove (place other : List String) : Prop :=
  place <+: other ∧ place ≠ other

/-- The directories are the root, the working directory and those above it, and the places above
files. -/
theorem isDirectory_iff (tree : FileTree) (place : List String) :
    -- Being above is being a proper start of the place.
    tree.isDirectory place = true ↔
      (place = ["/"] ∨ ∀ step ∈ place, step = "..") ∨
        ∃ file ∈ tree.files, IsAbove place file.1 := by
  simp [isDirectory, IsAbove]

/-- All places above a place are directories. -/
def Sheltered (tree : FileTree) (place : List String) : Prop :=
  ∀ other, IsAbove other place → tree.isDirectory other = true

/-- The place of a file is below directories. -/
theorem sheltered_of_file? (present : (tree.file? place).isSome = true) : tree.Sheltered place := by
  intro other above
  rw [file?, Option.isSome_map, List.find?_isSome] at present
  -- The file that is found there is below all places above it.
  obtain ⟨file, member, named⟩ := present
  rw [isDirectory_iff]
  exact .inr ⟨file, member, by rwa [eq_of_beq named]⟩

/-- Putting a file below directories makes no new ones. -/
theorem isDirectory_put (sheltered : tree.Sheltered place) (content : String)
    (other : List String) :
    (tree.put place content).isDirectory other = tree.isDirectory other := by
  rw [Bool.eq_iff_iff]
  constructor
  · -- No place becomes a directory.
    intro directory
    rw [isDirectory_iff] at directory
    rcases directory with fixed | ⟨file, member, above⟩
    · exact (isDirectory_iff tree other).mpr (.inl fixed)
    · -- The new file is below directories, and the others were there before.
      rcases List.mem_append.mp member with kept | new
      · exact (isDirectory_iff tree other).mpr (.inr ⟨file, (List.mem_filter.mp kept).1, above⟩)
      · rw [List.mem_singleton.mp new] at above
        exact sheltered other above
  · -- No directory goes away.
    intro directory
    rw [isDirectory_iff] at directory ⊢
    rcases directory with fixed | ⟨file, member, above⟩
    · exact .inl fixed
    · -- A file that has been taken away has left its place to the new one.
      refine .inr ?_
      by_cases replaced : file.1 = place
      · exact ⟨(place, content), by simp [put], by rwa [← replaced]⟩
      · exact ⟨file, by simp [put, member, replaced], above⟩

/-- Whatever is above the next place is the place itself or above it. -/
theorem Sheltered.snoc (sheltered : tree.Sheltered place)
    (directory : tree.isDirectory place = true) (step : String) :
    tree.Sheltered (place ++ [step]) := by
  intro other above
  obtain ⟨front, different⟩ := above
  -- What is above the longer place ends before its last step.
  rcases List.prefix_concat_iff.mp front with same | front
  · exact absurd same different
  · by_cases same : other = place
    · rwa [same]
    · exact sheltered other ⟨front, same⟩

/-- The places above a place that is above another are above that one. -/
theorem Sheltered.front {step : String} (sheltered : tree.Sheltered (place ++ [step])) :
    tree.Sheltered place := by
  intro other above
  -- A place is not above another one of the same length.
  refine sheltered other ⟨above.1.trans (List.prefix_append place [step]), fun same => ?_⟩
  have length := congrArg List.length same
  have shorter := above.1.length_le
  simp at length
  omega

/-- Places of one step are below the working directory only. -/
theorem sheltered_short (short : place.length ≤ 1) : tree.Sheltered place := by
  intro other above
  have shorter : other.length < place.length :=
    Nat.lt_of_le_of_ne above.1.length_le fun same => above.2 (above.1.eq_of_length same)
  have none : other = [] := List.eq_nil_of_length_eq_zero (by omega)
  rw [isDirectory_iff, none]
  exact .inl (.inr (by simp))

/-- The place above a directory is below directories. -/
theorem Sheltered.above (sheltered : tree.Sheltered place.reverse)
    (directory : tree.isDirectory place.reverse = true) :
    tree.Sheltered (FileTree.above place).reverse := by
  unfold FileTree.above
  -- The cases are those of going up: from the start, further up, at the root, back.
  split
  · exact sheltered_short (by simp)
  · rw [List.reverse_cons]
    exact sheltered.snoc directory ".."
  · exact sheltered_short (by simp)
  · rename_i step rest _ _
    rw [List.reverse_cons] at sheltered
    exact sheltered.front

/-- The place that a step leads to, all given with the latest step first. -/
def next? (place : List String) (step : String) : Option (List String) :=
  -- The root starts over, a dot stays, and two dots go up.
  if step == "/" then some ["/"]
  else if step == "." then some place
  else if step == ".." then some (above place)
  -- The name of a part may be too long.
  else if partLimit < step.utf8ByteSize then none
  else some (step :: place)

/-- A step can be followed from a directory, and leads to the next place. -/
theorem locate_cons_iff {step : String} {rest found : List String} :
    tree.locate place (step :: rest) = .ok found ↔
      tree.isDirectory place.reverse = true ∧
        ∃ next, next? place step = some next ∧ tree.locate next rest = .ok found := by
  -- Whatever the step is, it needs a directory to be followed from.
  by_cases directory : tree.isDirectory place.reverse = true
  · simp only [locate, next?, directory, Bool.not_true, Bool.false_eq_true, if_false, true_and]
    repeat' split
    all_goals simp
  · simp [locate, directory]

/-- The next place is below directories. -/
theorem Sheltered.next {step : String} {next : List String}
    (sheltered : tree.Sheltered place.reverse)
    (directory : tree.isDirectory place.reverse = true) (leads : next? place step = some next) :
    tree.Sheltered next.reverse := by
  -- The root and the same place are as before; a name goes one step down.
  unfold next? at leads
  split at leads
  · cases leads
    exact sheltered_short (by simp)
  split at leads
  · cases leads
    exact sheltered
  split at leads
  · cases leads
    exact sheltered.above directory
  -- Names that are too long lead nowhere.
  split at leads
  · cases leads
  · cases leads
    rw [List.reverse_cons]
    exact sheltered.snoc directory step

/-- Following steps leads to places below directories. -/
theorem locate_sheltered {steps found : List String} (sheltered : tree.Sheltered place.reverse)
    (leads : tree.locate place steps = .ok found) : tree.Sheltered found := by
  -- The place so far is general, and stays below directories.
  induction steps generalizing place with
  -- There is no step left to follow.
  | nil =>
    cases leads
    exact sheltered
  | cons step rest ih =>
    obtain ⟨directory, next, onward, leads⟩ := locate_cons_iff.mp leads
    exact ih (sheltered.next directory onward) leads

/-- The way to a place depends only on which places are directories. -/
theorem locate_congr {tree' : FileTree} {steps found : List String}
    (same : ∀ other, tree'.isDirectory other = tree.isDirectory other)
    (leads : tree.locate place steps = .ok found) : tree'.locate place steps = .ok found := by
  induction steps generalizing place with
  -- Without steps the place is found at once.
  | nil => exact leads
  | cons step rest ih =>
    obtain ⟨directory, next, onward, leads⟩ := locate_cons_iff.mp leads
    exact locate_cons_iff.mpr ⟨by rwa [same], next, onward, ih leads⟩

/-- A step that is an ordinary name. -/
def IsName (step : String) : Prop :=
  step ≠ "/" ∧ step ≠ "." ∧ step ≠ ".."

/-- Steps with a name at their end lead to a place of that name. -/
theorem locate_getLast? {front found : List String} {name : String} (ordinary : IsName name)
    (leads : tree.locate place (front ++ [name]) = .ok found) : found.getLast? = some name := by
  -- Only the last step matters, from wherever it is taken.
  induction front generalizing place with
  | nil =>
    -- The last step is a name, and so it is added to the place.
    obtain ⟨-, next, onward, leads⟩ := locate_cons_iff.mp leads
    cases leads
    obtain ⟨notRoot, notHere, notUp⟩ := ordinary
    simp only [next?, beq_iff_eq, notRoot, notHere, notUp, if_false] at onward
    split at onward
    · cases onward
    · cases onward
      simp
  | cons step front ih =>
    obtain ⟨-, next, -, leads⟩ := locate_cons_iff.mp leads
    exact ih leads

/-- A path that can be used leads to the file that is known by its steps, or to where its steps
lead. -/
theorem resolve_ok_iff {text : String} {steps : List String} :
    tree.resolve text steps = .ok place ↔
      (¬ text.toList.contains '\x00' ∧ ¬ pathLimit < text.utf8ByteSize) ∧
        ((tree.file? steps).isSome = true ∧ steps = place ∨
          (tree.file? steps).isSome = false ∧ tree.locate [] steps = .ok place) := by
  -- The text of the path is checked before anything is looked up.
  unfold resolve
  split
  · simp_all
  split
  · simp_all
  -- A known file is found by its steps, and any other path is followed.
  · cases (tree.file? steps).isSome <;> simp_all

/-- A path leads to a place below directories. -/
theorem resolve_sheltered {text : String} {steps : List String}
    (leads : tree.resolve text steps = .ok place) : tree.Sheltered place := by
  rcases (resolve_ok_iff.mp leads).2 with ⟨present, rfl⟩ | ⟨-, leads⟩
  · exact sheltered_of_file? present
  · exact locate_sheltered (sheltered_short (by simp)) leads

/-- A path leads to where it led before, after a file has been put there. -/
theorem resolve_put {text : String} {steps : List String}
    (leads : tree.resolve text steps = .ok place) (content : String) :
    (tree.put place content).resolve text steps = .ok place := by
  -- Putting the file there changes no directory.
  have same := isDirectory_put (resolve_sheltered leads) content
  obtain ⟨usable, cases⟩ := resolve_ok_iff.mp leads
  refine resolve_ok_iff.mpr ⟨usable, ?_⟩
  rw [file?_put]
  -- The steps are those of a known file now, or the way to the place is as before.
  by_cases known : steps = place
  · exact .inl ⟨by simp [known], known⟩
  · rcases cases with ⟨-, named⟩ | ⟨absent, way⟩
    · exact absurd named known
    · exact .inr ⟨by simpa [known] using absent, locate_congr same way⟩

/-- Writing follows the path, and then puts the file where it leads. -/
theorem write_eq (tree : FileTree) (path : Path) (content : String) :
    tree.write path content =
      (tree.resolve path.toText path.steps).bind fun place =>
        if tree.isDirectory place then .error .directory else .ok (tree.put place content) :=
  rfl

/-- A file is written by putting it where its path leads. -/
theorem write_ok {path : Path} {written : FileTree}
    (writes : tree.write path content = .ok written) :
    ∃ place, tree.resolve path.toText path.steps = .ok place ∧
      written = tree.put place content := by
  rw [write_eq] at writes
  -- Two things can go wrong: the way to the place, and the place itself.
  cases leads : tree.resolve path.toText path.steps with
  | error problem =>
    rw [leads] at writes
    cases writes
  | ok place =>
    rw [leads, Except.bind] at writes
    split at writes
    · cases writes
    · cases writes
      exact ⟨place, rfl, rfl⟩

/-- A path that cannot be written to cannot be written to with any content. -/
theorem write_error {path : Path} {problem : FileProblem}
    (fails : tree.write path content = .error problem) (instead : String) :
    tree.write path instead = .error problem := by
  rw [write_eq] at fails ⊢
  -- The content is looked at only when the file is put at its place.
  cases leads : tree.resolve path.toText path.steps with
  | error cause =>
    rw [leads] at fails
    exact fails
  | ok place =>
    rw [leads, Except.bind] at fails
    rw [Except.bind]
    split at fails
    · rename_i directory
      rwa [if_pos directory]
    · cases fails

/-- What has been written to a path is read from it. -/
theorem read_write {path : Path} {written : FileTree}
    (writes : tree.write path content = .ok written) : written.read path = .ok content := by
  -- The file is read from where it has been put.
  obtain ⟨place, leads, rfl⟩ := write_ok writes
  rw [read, resolve_put leads content]
  show (tree.put place content).readPlace place = _
  simp [readPlace, file?_put]

/-- Writing a file makes no directories. -/
theorem isDirectory_write {path : Path} {written : FileTree}
    (writes : tree.write path content = .ok written) (other : List String) :
    written.isDirectory other = tree.isDirectory other := by
  obtain ⟨place, leads, rfl⟩ := write_ok writes
  exact isDirectory_put (resolve_sheltered leads) content other

/-- Writing to a path with a name at its end changes no place of another name. -/
theorem file?_write {path : Path} {written : FileTree} {front : List String} {name : String}
    (ordinary : IsName name) (ends : path.steps = front ++ [name])
    (writes : tree.write path content = .ok written) (different : other.getLast? ≠ some name) :
    written.file? other = tree.file? other := by
  obtain ⟨place, leads, rfl⟩ := write_ok writes
  -- A path ends in the name also where it is followed step by step.
  have named : place.getLast? = some name := by
    rw [ends] at leads
    rcases (resolve_ok_iff.mp leads).2 with ⟨-, rfl⟩ | ⟨-, way⟩
    · simp
    · exact locate_getLast? ordinary way
  -- The only place that changes has the name at its end.
  rw [file?_put, if_neg]
  intro same
  exact different (same ▸ named)

end FileTree

end Pseudocode
