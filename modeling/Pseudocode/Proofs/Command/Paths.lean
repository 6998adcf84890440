import Mathlib.Data.List.TakeWhile
import Pseudocode.Command.FileTree

/-! Texts that name files, and what adding something to such a text does to its path. -/

namespace Pseudocode

/-- A text with one character more in front. -/
theorem splitSlashes_cons (c : Char) (text : List Char) :
    splitSlashes (c :: text) =
      match splitSlashes text with
      | piece :: rest => if c == '/' then [] :: piece :: rest else (c :: piece) :: rest
      | [] => if c == '/' then [[], []] else [[c]] :=
  rfl

/-- A text without slashes is one piece. -/
theorem splitSlashes_of_free {text : List Char} (free : '/' ∉ text) :
    splitSlashes text = [text] := by
  induction text with
  | nil => rfl
  | cons c text ih =>
    simp only [List.mem_cons, not_or] at free
    have other : (c == '/') = false := by simpa using Ne.symm free.1
    rw [splitSlashes_cons, ih free.2]
    simp [other]

/-- What is added to a text without a slash in it is added to the last piece. -/
theorem splitSlashes_append (text : List Char) {suffix : List Char} (free : '/' ∉ suffix) :
    ∃ front last, splitSlashes text = front ++ [last] ∧
      splitSlashes (text ++ suffix) = front ++ [last ++ suffix] := by
  induction text with
  | nil => exact ⟨[], [], rfl, splitSlashes_of_free free⟩
  | cons c text ih =>
    obtain ⟨front, last, before, after⟩ := ih
    -- A slash starts a new piece, and anything else belongs to the first one.
    by_cases slash : (c == '/') = true
    · -- A slash puts an empty piece in front.
      refine ⟨[] :: front, last, ?_, ?_⟩
      · rw [splitSlashes_cons, before]
        cases front <;> simp [slash]
      · rw [List.cons_append, splitSlashes_cons, after]
        cases front <;> simp [slash]
    · -- Any other character goes to the first piece, which may be the last one as well.
      cases front with
      | nil =>
        refine ⟨[], c :: last, ?_, ?_⟩
        · rw [splitSlashes_cons, before]
          simp [slash]
        · rw [List.cons_append, splitSlashes_cons, after]
          simp [slash]
      | cons piece front =>
        refine ⟨(c :: piece) :: front, last, ?_, ?_⟩
        · rw [splitSlashes_cons, before]
          simp [slash]
        · rw [List.cons_append, splitSlashes_cons, after]
          simp [slash]

/-- A text of slashes has only empty pieces. -/
theorem eq_nil_of_mem_splitSlashes {text : List Char} (slashes : ∀ c ∈ text, c = '/') :
    ∀ piece ∈ splitSlashes text, piece = [] := by
  induction text with
  | nil => simp [splitSlashes]
  | cons c text ih =>
    have first : c = '/' := slashes c List.mem_cons_self
    have others := ih fun d member => slashes d (List.mem_cons_of_mem c member)
    -- Each slash adds an empty piece and nothing else.
    rw [splitSlashes_cons, first]
    cases pieces : splitSlashes text with
    | nil => simp
    | cons piece rest =>
      rw [pieces] at others
      simpa using others

/-- A text can be given as the name of a file: it does not look like an option, and something that
is added to it is added to the name of the file. -/
def NamesFile (text : String) : Prop :=
  text.toList.head? ≠ some '-' ∧ (splitSlashes text.toList).getLast? ≠ some [] ∧
    (splitSlashes text.toList).getLast? ≠ some ['.']

/-- Whether a text can be given as the name of a file is decided by its pieces. -/
instance (text : String) : Decidable (NamesFile text) :=
  inferInstanceAs (Decidable (_ ∧ _))

/-- The name of a file is not empty, whatever is added to it. -/
theorem NamesFile.append_ne {text : String} (named : NamesFile text) (suffix : String) :
    text ++ suffix ≠ "" := by
  intro empty
  obtain ⟨rfl, -⟩ := String.append_eq_empty_iff.mp empty
  exact named.2.1 rfl

/-- The name of a file does not look like an option, whatever is added to it. -/
theorem NamesFile.head?_append_ne {text : String} (named : NamesFile text) (suffix : String) :
    (text ++ suffix).toList.head? ≠ some '-' := by
  obtain ⟨plain, notEmpty, -⟩ := named
  rw [String.toList_append]
  cases start : text.toList with
  -- An empty text has only an empty piece.
  | nil =>
    rw [start] at notEmpty
    exact absurd rfl notEmpty
  | cons c rest => simpa [start] using plain

namespace Path

variable {text suffix : String}

/-- The name of a file is the last part of its path, and what is added to the text of the path is
added to it. -/
theorem ofText_append (named : NamesFile text) (free : '/' ∉ suffix.toList) :
    ∃ front last, (ofText text).parts = front ++ [last] ∧
      ofText (text ++ suffix) = ⟨(ofText text).root, front ++ [last ++ suffix]⟩ := by
  obtain ⟨-, notEmpty, notDot⟩ := named
  obtain ⟨front, last, before, after⟩ := splitSlashes_append text.toList free
  rw [before, List.getLast?_concat] at notEmpty notDot
  have some : last ≠ [] := by simpa using notEmpty
  have other : last ≠ ['.'] := by simpa using notDot
  -- The last piece is kept, with and without what is added to it.
  have kept : last ++ suffix.toList ≠ [] ∧ last ++ suffix.toList ≠ ['.'] := by
    refine ⟨by simp [some], fun dot => ?_⟩
    rcases List.append_eq_singleton_iff.mp dot with ⟨empty, -⟩ | ⟨same, -⟩
    · exact some empty
    · exact other same
  -- The text does not consist of slashes alone, so that those in front stay the same.
  have slashes : (text.toList ++ suffix.toList).takeWhile (· == '/') =
      text.toList.takeWhile (· == '/') := by
    rw [List.takeWhile_append, if_neg]
    intro all
    have whole := (List.takeWhile_prefix (· == '/')).eq_of_length all
    have only : ∀ c ∈ text.toList, c = '/' := by
      intro c member
      rw [← whole] at member
      simpa using List.mem_takeWhile_imp member
    exact some (eq_nil_of_mem_splitSlashes only last (by simp [before]))
  refine ⟨(front.filter fun piece => piece != [] && piece != ['.']).map String.ofList,
    String.ofList last, ?_, ?_⟩
  · simp [ofText, before, some, other]
  · simp only [ofText, String.toList_append, slashes, after, List.filter_append, List.map_append]
    simp [kept]

/-- A path whose name is extended is the path of the extended text. -/
theorem extendName_ofText (named : NamesFile text) (free : '/' ∉ suffix.toList) :
    (ofText text).extendName suffix = ofText (text ++ suffix) := by
  obtain ⟨front, last, parts, extended⟩ := ofText_append named free
  rw [extended, extendName, parts]
  simp

/-- The last step to an extended path is the extended name. -/
theorem steps_ofText_append (named : NamesFile text) (free : '/' ∉ suffix.toList) :
    ∃ front last, (ofText (text ++ suffix)).steps = front ++ [last ++ suffix] := by
  obtain ⟨front, last, -, extended⟩ := ofText_append named free
  rw [extended, steps]
  -- The first step of a path from the root is the root.
  split
  · exact ⟨front, last, rfl⟩
  · exact ⟨"/" :: front, last, rfl⟩

end Path

end Pseudocode
