import Pseudocode.Exec.Stmt

/-! Statements with other parts: every expression and every target is replaced, and all else stays
as it is. -/

namespace Pseudocode

/-- What the parts of a statement are replaced by. -/
structure PartMap where
  /-- The expression in the place of another. -/
  expr : Expr → Expr
  /-- The target in the place of another. -/
  target : Target → Target

/-- Every part stays as it is. -/
def PartMap.id : PartMap where
  expr expr := expr
  target target := target

/-- A declared name and its initial value, replaced. -/
def Declarator.mapParts (map : PartMap) (declarator : Declarator) : Declarator where
  name := map.target declarator.name
  -- A missing initial value stays missing.
  initial := declarator.initial.map map.expr

/-- Names that are declared together and their initial value, replaced. -/
def DeclGroup.mapParts (map : PartMap) (group : DeclGroup) : DeclGroup where
  names := group.names.map map.target
  initial := group.initial.map map.expr

mutual

/-- A statement with its parts replaced. -/
def Stmt.mapParts (map : PartMap) : Stmt → Stmt
  | .declare typing declarators => .declare typing (declarators.map (Declarator.mapParts map))
  | .assign targets value => .assign (targets.map map.target) (map.expr value)
  | .ifElse test body otherwise =>
    .ifElse (map.expr test) (mapBlock map body) (otherwise.mapParts map)
  | .repeatWhile test body => .repeatWhile (map.expr test) (mapBlock map body)
  -- The default is the only part that may be absent.
  | .switch subject cases none => .switch (map.expr subject) (mapCases map cases) none
  | .switch subject cases (some body) =>
    .switch (map.expr subject) (mapCases map cases) (some (mapBlock map body))
  | .breakOut => .breakOut
  | .display value => .display (map.expr value)
  | .scan names => .scan (names.map map.target)
  -- A place without a statement has no parts that a run could come to.
  | .stray defect => .stray defect
  | .noBlock node => .noBlock node

/-- What a condition leaves to be done, with its parts replaced. -/
def Otherwise.mapParts (map : PartMap) : Otherwise → Otherwise
  | .nothing => .nothing
  | .block body => .block (mapBlock map body)
  | .elseIf test body otherwise =>
    .elseIf (map.expr test) (mapBlock map body) (otherwise.mapParts map)

/-- Statements with their parts replaced. -/
def mapBlock (map : PartMap) : List Stmt → List Stmt
  | [] => []
  | stmt :: rest => stmt.mapParts map :: mapBlock map rest

/-- Cases with their parts replaced. -/
def mapCases (map : PartMap) : List Case → List Case
  | [] => []
  | .mk value body :: rest => .mk (map.expr value) (mapBlock map body) :: mapCases map rest

end

/-- A program with its parts replaced. -/
def Program.mapParts (map : PartMap) (program : Program) : Program :=
  ⟨mapBlock map program.body⟩

/-- Replacing the parts of statements is done statement by statement. -/
theorem mapBlock_eq_map (map : PartMap) (body : List Stmt) :
    mapBlock map body = body.map (Stmt.mapParts map) := by
  -- The two recursions are the same one.
  induction body with
  | nil => rfl
  | cons stmt rest ih => rw [mapBlock, ih, List.map_cons]

/-- A statement is of the same kind whatever its parts are. -/
@[simp] theorem Stmt.kindName_mapParts (map : PartMap) (stmt : Stmt) :
    (stmt.mapParts map).kindName = stmt.kindName := by
  -- Only a switch has two equations, one for each kind of default.
  cases stmt with
  | switch subject cases default => cases default <;> rfl
  | _ => rfl

/-- Only a break is a break, whatever the parts of statements are. -/
@[simp] theorem endsInBreak_mapBlock (map : PartMap) (body : List Stmt) :
    endsInBreak (mapBlock map body) = endsInBreak body := by
  -- Only the last statement counts, and it stays the last one.
  rw [mapBlock_eq_map, endsInBreak, endsInBreak, List.getLast?_map]
  cases body.getLast? with
  | none => rfl
  | some stmt =>
    -- No map turns a statement into a break or a break into something else.
    cases stmt with
    | switch subject cases default => cases default <;> rfl
    | _ => rfl

/-- Names are grouped in the same way whatever they are. -/
theorem declGroupsFrom_mapParts (map : PartMap) (declarators : List Declarator)
    (names : List Target) :
    declGroupsFrom (names.map map.target) (declarators.map (Declarator.mapParts map)) =
      (declGroupsFrom names declarators).map (DeclGroup.mapParts map) := by
  -- Only the presence of an initial value decides where a group ends.
  induction declarators generalizing names with
  | nil =>
    simp only [declGroupsFrom, List.map_nil, List.isEmpty_map]
    -- No names are waiting for an initial value, and so there is no group.
    split
    · rfl
    · simp [DeclGroup.mapParts]
  | cons declarator rest ih =>
    obtain ⟨name, initial⟩ := declarator
    cases initial with
    -- A name without an initial value waits for the next one.
    | none => exact ih (name :: names)
    | some expr =>
      -- An initial value closes the group, and the next group starts with no names.
      have later := ih []
      simp only [List.map_nil] at later
      simp [declGroupsFrom, Declarator.mapParts, DeclGroup.mapParts, later]

/-- Declared names are grouped in the same way whatever they are. -/
theorem declGroups_mapParts (map : PartMap) (declarators : List Declarator) :
    declGroups (declarators.map (Declarator.mapParts map)) =
      (declGroups declarators).map (DeclGroup.mapParts map) :=
  declGroupsFrom_mapParts map declarators []

/-- A declared name stays as it is when its parts do. -/
@[simp] theorem Declarator.mapParts_id (declarator : Declarator) :
    declarator.mapParts .id = declarator := by
  obtain ⟨name, initial⟩ := declarator
  -- Both parts are left as they are.
  simp [mapParts, PartMap.id]

mutual

/-- A statement stays as it is when its parts do. -/
@[simp] theorem Stmt.mapParts_id (stmt : Stmt) : stmt.mapParts .id = stmt := by
  -- The recursion is that of the map itself.
  cases stmt with
  | declare typing declarators =>
    -- Every declared name is left as it is, and so is their list.
    have same : declarators.map (Declarator.mapParts .id) = declarators :=
      (List.map_congr_left fun declarator _ => declarator.mapParts_id).trans (List.map_id' _)
    rw [Stmt.mapParts, same]
  | assign targets value => simp [Stmt.mapParts, PartMap.id]
  | ifElse test body otherwise =>
    rw [Stmt.mapParts, mapBlock_id body, otherwise.mapParts_id]
    rfl
  | repeatWhile test body =>
    rw [Stmt.mapParts, mapBlock_id body]
    rfl
  | switch subject cases default =>
    -- Without a default there is one list of statements less.
    cases default with
    | none =>
      rw [Stmt.mapParts, mapCases_id cases]
      rfl
    | some body =>
      rw [Stmt.mapParts, mapCases_id cases, mapBlock_id body]
      rfl
  | breakOut => rfl
  | display value => rfl
  | scan names => simp [Stmt.mapParts, PartMap.id]
  | stray defect => rfl
  | noBlock node => rfl

/-- What a condition leaves to be done stays as it is when its parts do. -/
@[simp] theorem Otherwise.mapParts_id (otherwise : Otherwise) :
    otherwise.mapParts .id = otherwise := by
  cases otherwise with
  | nothing => rfl
  | block body => rw [Otherwise.mapParts, mapBlock_id body]
  | elseIf test body otherwise =>
    rw [Otherwise.mapParts, mapBlock_id body, otherwise.mapParts_id]
    rfl

/-- Statements stay as they are when their parts do. -/
@[simp] theorem mapBlock_id (body : List Stmt) : mapBlock .id body = body := by
  cases body with
  | nil => rfl
  | cons stmt rest => rw [mapBlock, stmt.mapParts_id, mapBlock_id rest]

/-- Cases stay as they are when their parts do. -/
@[simp] theorem mapCases_id (cases : List Case) : mapCases .id cases = cases := by
  match cases with
  | [] => rfl
  | .mk value body :: rest =>
    rw [mapCases, mapBlock_id body, mapCases_id rest]
    rfl

end

/-- A program stays as it is when its parts do. -/
@[simp] theorem Program.mapParts_id (program : Program) : program.mapParts .id = program := by
  rw [Program.mapParts, mapBlock_id]

end Pseudocode
