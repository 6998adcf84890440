import Pseudocode.Proofs.Exec.Walk
import Pseudocode.Proofs.Syntax.PartMap
import Pseudocode.Proofs.Syntax.Parts

/-! Relations between two ways of running programs. They hold of whole programs when they hold of
the steps that runs are made of and are kept when steps are put together. -/

namespace Pseudocode

/-- A walk can give a value, in some world. -/
def Walk.Gives {α : Type} (walk : Walk α) (a : α) : Prop :=
  ∃ world, (walk.step world).1 = .ok a

/-- Loops of equally many turns are related when their tests and bodies are, given that values and
walks in turn are, and having no turns left. -/
theorem Walk.loop_congr (Rel : (α : Type) → Walk α → Walk α → Prop)
    (pure : ∀ {α : Type} {a : α}, Rel α (Pure.pure a) (Pure.pure a))
    (bind : ∀ {α β : Type} {first first' : Walk α} {next next' : α → Walk β}, Rel α first first' →
      (∀ a, first.Gives a → Rel β (next a) (next' a)) → Rel β (first >>= next) (first' >>= next'))
    (unfinished : Rel Flow (atom (throw .unfinished)) (atom (throw .unfinished)))
    {test test' : Walk Bool} {body body' : Walk Flow} (tests : Rel Bool test test')
    (bodies : Rel Flow body body') (turns : Nat) :
    Rel Flow (loop test body turns) (loop test' body' turns) := by
  -- Each turn is a test and a body, and then the loop with one turn less.
  induction turns with
  | zero => exact unfinished
  | succ turns ih =>
    refine bind tests fun holds _ => ?_
    cases holds with
    | false => exact pure
    | true =>
      refine bind bodies fun flow _ => ?_
      cases flow with
      | exit => exact pure
      | normal => exact ih

/-- What holds of values, of walks in turn and of having no turns left, holds of loops when it holds
of their tests and bodies. -/
theorem Walk.loop_of (Holds : (α : Type) → Walk α → Prop)
    (pure : ∀ {α : Type} {a : α}, Holds α (Pure.pure a))
    (bind : ∀ {α β : Type} {first : Walk α} {next : α → Walk β}, Holds α first →
      (∀ a, first.Gives a → Holds β (next a)) → Holds β (first >>= next))
    (unfinished : Holds Flow (atom (throw .unfinished))) {test : Walk Bool} {body : Walk Flow}
    (tests : Holds Bool test) (bodies : Holds Flow body) (turns : Nat) :
    Holds Flow (loop test body turns) :=
  @loop_congr (fun α walk _ => Holds α walk) pure bind unfinished test test body body tests bodies
    turns

/-- An allowed expression can give a datum, with some variables. -/
def Parts.Gives (parts : Parts) (datum : Datum) : Prop :=
  ∃ expr store, parts.expr expr ∧ expr.eval store = .ok datum

/--
A relation between walks under two settings that the building of statements respects.

What holds of the single steps, for all allowed parts, then holds of whole statements.
-/
structure StmtCongruence (left right : Settings) (parts : Parts) where
  /-- Two walks are related. -/
  Rel : {α : Type} → Walk α → Walk α → Prop
  /-- A value is related to itself. -/
  pure : ∀ {α : Type} {a : α}, Rel (pure a) (pure a)
  /-- Related walks that go on in related ways are related. -/
  bind : ∀ {α β : Type} {first first' : Walk α} {next next' : α → Walk β}, Rel first first' →
    (∀ a, first.Gives a → Rel (next a) (next' a)) → Rel (first >>= next) (first' >>= next')
  /-- Related walks are related when they are contained. -/
  contain : ∀ {α : Type} {walk walk' : Walk α} {instead : α}, Rel walk walk' →
    Rel (walk.contain left instead) (walk'.contain right instead)
  /-- Loops with related tests and bodies are related. -/
  loop : ∀ {test test' : Walk Bool} {body body' : Walk Flow}, Rel test test' → Rel body body' →
    Rel (.loop test body left.turns) (.loop test' body' right.turns)
  /-- The start of a statement is traced. -/
  start : ∀ name, Rel (.atom (note left (.start name))) (.atom (note right (.start name)))
  /-- An expression is evaluated. -/
  evaluate : ∀ {expr}, parts.expr expr → Rel (.atom (evaluate expr)) (.atom (evaluate expr))
  /-- A name is declared. -/
  declareName : ∀ {typing initial name}, parts.typing typing →
    (∀ datum, initial = some datum → parts.Gives datum) → parts.target name →
    Rel (.atom (declareName left typing initial name))
      (.atom (declareName right typing initial name))
  /-- A name is assigned. -/
  assignName : ∀ {datum name}, parts.Gives datum → parts.target name →
    Rel (.atom (assignName left datum name)) (.atom (assignName right datum name))
  /-- A name is scanned. -/
  scanName : ∀ {name}, parts.target name →
    Rel (.atom (scanName left name)) (.atom (scanName right name))
  /-- A condition is found. -/
  condition : ∀ {conditional test}, parts.expr test →
    Rel (.atom (condition left conditional test)) (.atom (condition right conditional test))
  /-- The subject of a switch is found. -/
  subject : ∀ {expr}, parts.expr expr →
    Rel (.atom (switchSubject left expr)) (.atom (switchSubject right expr))
  /-- The value of a case is compared with the subject. -/
  matchCase : ∀ {datum value}, parts.Gives datum → parts.expr value →
    Rel (.atom (matchCase datum value)) (.atom (matchCase datum value))
  /-- A display list is shown. -/
  showValue : ∀ {expr}, parts.expr expr → Rel (.atom (showValue expr)) (.atom (showValue expr))
  /-- A default does not end in a break. -/
  missingBreak : Rel (.atom (raise .missingBreakOnDefault : Exec Flow))
    (.atom (raise .missingBreakOnDefault : Exec Flow))
  /-- A place without a statement is met. -/
  stray : ∀ {defect}, parts.stray → Rel (.atom (throw (.defect defect) : Exec Flow))
    (.atom (throw (.defect defect) : Exec Flow))

/--
A relation between walks under two settings that the building of programs respects.

A program has one step of its own: a break that no switch has taken is a fault.
-/
structure Congruence (left right : Settings) (parts : Parts) extends
    StmtCongruence left right parts where
  /-- A break has left the whole program. -/
  misplacedBreak : Rel (.atom (recover left .misplacedBreak))
    (.atom (recover right .misplacedBreak))

/-- What a datum gives a variable at its declaration is the datum itself, if anything. -/
theorem Datum.eq_of_asInitial {datum given : Datum} (same : datum.asInitial = some given) :
    datum = given := by
  -- Only the null node gives nothing.
  unfold Datum.asInitial at same
  split at same
  · simp at same
  · simpa using same

namespace Walk.Gives

/-- What is evaluated is what the expression gives with the variables of some world. -/
theorem evaluate {expr : Expr} {datum : Datum} (gives : (atom (evaluate expr)).Gives datum) :
    ∃ store, expr.eval store = .ok datum := by
  -- The world is only looked at, so that its variables are the ones that are asked for.
  obtain ⟨world, done⟩ := gives
  simp only [atom_step, Pseudocode.evaluate, Exec.bind_run, Exec.get_run, ofResult_run] at done
  exact ⟨world.store, done⟩

/-- The subject of a switch is what its expression gives with the variables of some world. -/
theorem subject {settings : Settings} {expr : Expr} {datum : Datum}
    (gives : (atom (switchSubject settings expr)).Gives datum) :
    ∃ store, expr.eval store = .ok datum := by
  obtain ⟨world, done⟩ := gives
  simp only [atom_step, switchSubject, Exec.bind_run, Exec.get_run, ofResult_run] at done
  -- Tracing the subject does not change it.
  rcases found : expr.eval world.store with failure | value
  · simp [found] at done
  · simp only [found, note_run, Exec.pure_run] at done
    exact ⟨world.store, by rw [found, done]⟩

/-- An initial datum is what the initial expression gives with the variables of some world. -/
theorem initial {settings : Settings} {shared : Option Expr} {datum : Datum}
    (gives : (initialWalk settings shared).Gives (some (some datum))) :
    ∃ expr store, shared = some expr ∧ expr.eval store = .ok datum := by
  obtain ⟨world, done⟩ := gives
  -- A group without an initial expression declares its names without a value.
  cases shared with
  | none => simp [initialWalk] at done
  | some expr =>
    simp only [initialWalk, contain_step, bind_step, atom_step, pure_step, Pseudocode.evaluate,
      contain_run, Exec.bind_run, Exec.get_run, ofResult_run] at done
    rcases found : expr.eval world.store with failure | value
    · -- A failure that is got over leaves nothing to declare the names with.
      cases failure with
      | fault fault =>
        simp only [found] at done
        split at done <;> simp at done
      | defect defect => simp [found] at done
      | unfinished => simp [found] at done
    · simp only [found, Exec.pure_run, Except.ok.injEq, Option.some.injEq] at done
      exact ⟨expr, world.store, rfl, by rw [found, Datum.eq_of_asInitial done]⟩

end Walk.Gives

/-- The names and the initial value of each group come from the declarators. -/
theorem declGroupsFrom_uses {parts : Parts} {declarators : List Declarator} {names : List Target}
    (allowed : ∀ declarator ∈ declarators, declarator.Uses parts)
    (opened : ∀ name ∈ names, parts.target name) :
    ∀ group ∈ declGroupsFrom names declarators, (∀ name ∈ group.names, parts.target name) ∧
      ∀ expr, group.initial = some expr → parts.expr expr := by
  -- A group is closed by the first declarator with an initial value, or by the end of the list.
  induction declarators generalizing names with
  | nil =>
    intro group member
    simp only [declGroupsFrom] at member
    split at member
    · simp at member
    · simp only [List.mem_singleton] at member
      subst member
      simpa using opened
  | cons declarator rest ih =>
    obtain ⟨name, initial⟩ := declarator
    have here : Declarator.Uses parts ⟨name, initial⟩ := allowed _ (by simp)
    have later : ∀ declarator ∈ rest, declarator.Uses parts :=
      fun declarator member => allowed declarator (by simp [member])
    -- The names that are still without a value, with the one that is read now.
    have grown : ∀ other ∈ name :: names, parts.target other := by
      intro other member
      rcases List.mem_cons.mp member with same | member
      · exact same ▸ here.1
      · exact opened other member
    cases initial with
    -- Such a name waits for the initial value of one that follows it.
    | none => exact ih later grown
    | some expr =>
      intro group member
      simp only [declGroupsFrom, List.mem_cons] at member
      rcases member with same | member
      · subst same
        refine ⟨fun other found => grown other (List.mem_reverse.mp found), ?_⟩
        exact fun _ same => here.2 _ same
      · exact ih later (by simp) group member

/--
A relation between the walks of statements and those of the same statements with other parts.

What holds of the single steps, for all allowed parts and what they are replaced by, then holds of
whole statements.
-/
structure StmtTranslation (left right : Settings) (parts : Parts) (map : PartMap) where
  /-- Two walks are related. -/
  Rel : {α : Type} → Walk α → Walk α → Prop
  /-- A value is related to itself. -/
  pure : ∀ {α : Type} {a : α}, Rel (pure a) (pure a)
  /-- Related walks that go on in related ways are related. -/
  bind : ∀ {α β : Type} {first first' : Walk α} {next next' : α → Walk β}, Rel first first' →
    (∀ a, first.Gives a → Rel (next a) (next' a)) → Rel (first >>= next) (first' >>= next')
  /-- Related walks are related when they are contained. -/
  contain : ∀ {α : Type} {walk walk' : Walk α} {instead : α}, Rel walk walk' →
    Rel (walk.contain left instead) (walk'.contain right instead)
  /-- Loops with related tests and bodies are related. -/
  loop : ∀ {test test' : Walk Bool} {body body' : Walk Flow}, Rel test test' → Rel body body' →
    Rel (.loop test body left.turns) (.loop test' body' right.turns)
  /-- The start of a statement is traced. -/
  start : ∀ name, Rel (.atom (note left (.start name))) (.atom (note right (.start name)))
  /-- An expression is evaluated. -/
  evaluate : ∀ {expr}, parts.expr expr →
    Rel (.atom (evaluate expr)) (.atom (evaluate (map.expr expr)))
  /-- A name is declared. -/
  declareName : ∀ {typing initial name}, parts.typing typing →
    (∀ datum, initial = some datum → parts.Gives datum) → parts.target name →
    Rel (.atom (declareName left typing initial name))
      (.atom (declareName right typing initial (map.target name)))
  /-- A name is assigned. -/
  assignName : ∀ {datum name}, parts.Gives datum → parts.target name →
    Rel (.atom (assignName left datum name)) (.atom (assignName right datum (map.target name)))
  /-- A name is scanned. -/
  scanName : ∀ {name}, parts.target name →
    Rel (.atom (scanName left name)) (.atom (scanName right (map.target name)))
  /-- A condition is found. -/
  condition : ∀ {conditional test}, parts.expr test →
    Rel (.atom (condition left conditional test))
      (.atom (condition right conditional (map.expr test)))
  /-- The subject of a switch is found. -/
  subject : ∀ {expr}, parts.expr expr →
    Rel (.atom (switchSubject left expr)) (.atom (switchSubject right (map.expr expr)))
  /-- The value of a case is compared with the subject. -/
  matchCase : ∀ {datum value}, parts.Gives datum → parts.expr value →
    Rel (.atom (matchCase datum value)) (.atom (matchCase datum (map.expr value)))
  /-- A display list is shown. -/
  showValue : ∀ {expr}, parts.expr expr →
    Rel (.atom (showValue expr)) (.atom (showValue (map.expr expr)))
  /-- A default does not end in a break. -/
  missingBreak : Rel (.atom (raise .missingBreakOnDefault : Exec Flow))
    (.atom (raise .missingBreakOnDefault : Exec Flow))
  /-- A place without a statement is met. -/
  stray : ∀ {defect}, parts.stray → Rel (.atom (throw (.defect defect) : Exec Flow))
    (.atom (throw (.defect defect) : Exec Flow))

namespace StmtTranslation

variable {left right : Settings} {parts : Parts} {map : PartMap}

/-- Walks in turn are related when each of them is. -/
theorem forM (translation : StmtTranslation left right parts map)
    {α : Type} {items : List α} {change : α → α} {walk walk' : α → Walk PUnit}
    (related : ∀ item ∈ items, translation.Rel (walk item) (walk' (change item))) :
    translation.Rel (forM items walk) (forM (items.map change) walk') := by
  induction items with
  | nil => exact translation.pure
  | cons item rest ih =>
    -- The first item is walked, and then the others, whatever the first has left.
    simp only [List.map_cons, List.forM_cons]
    exact translation.bind (related item (by simp)) fun _ _ =>
      ih fun other member => related other (by simp [member])

/-- The starts of statements are related. -/
theorem startWalk (translation : StmtTranslation left right parts map) (stmt : Stmt) :
    translation.Rel (startWalk left stmt) (startWalk right (stmt.mapParts map)) := by
  -- A place without a block is passed silently, and all else is traced.
  cases stmt with
  | noBlock node => exact translation.pure
  | switch subject cases default => cases default <;> exact translation.start _
  | _ => exact translation.start _

/-- The declarations of a group are related. -/
theorem declareGroup (translation : StmtTranslation left right parts map)
    {typing : Typing} {group : DeclGroup} (known : parts.typing typing)
    (names : ∀ name ∈ group.names, parts.target name)
    (initial : ∀ expr, group.initial = some expr → parts.expr expr) :
    translation.Rel (declareGroupWalk left typing group)
      (declareGroupWalk right typing (group.mapParts map)) := by
  -- The shared initial value is found first, and a fault in it is got over.
  have found : translation.Rel (initialWalk left group.initial)
      (initialWalk right (group.initial.map map.expr)) := by
    cases expr : group.initial with
    -- When it could not be found, no name of the group is declared.
    | none => exact translation.pure
    | some expr' =>
      exact translation.contain
        (translation.bind (translation.evaluate (initial expr' expr)) fun _ _ => translation.pure)
  refine translation.bind found ?_
  intro given gives
  cases given with
  | none => exact translation.pure
  | some datum =>
    refine translation.forM fun name member => ?_
    refine translation.declareName known (fun other same => ?_) (names name member)
    -- The datum that is found is one of the initial expression.
    subst same
    obtain ⟨expr, store, shared, value⟩ := gives.initial
    exact ⟨expr, store, initial expr shared, value⟩

/-- Conditions that lead to related walks in both cases are related. -/
theorem branch (translation : StmtTranslation left right parts map)
    {α : Type} {conditional : Conditional} {test : Expr} {yes yes' no no' : Walk α}
    (allowed : parts.expr test) (whenTrue : translation.Rel yes yes')
    (whenFalse : translation.Rel no no') :
    translation.Rel
      (do if ← .atom (Pseudocode.condition left conditional test) then yes else no)
      (do if ← .atom (Pseudocode.condition right conditional (map.expr test)) then yes'
          else no') := by
  refine translation.bind (translation.condition allowed) ?_
  intro holds _
  cases holds with
  | false => exact whenFalse
  | true => exact whenTrue

mutual

/-- The walks of a statement with allowed parts and of the one with other parts are related. -/
theorem stmt (translation : StmtTranslation left right parts map)
    (stmt : Stmt) (allowed : stmt.Uses parts) :
    translation.Rel (stmt.walk left) ((stmt.mapParts map).walk right) := by
  -- The start is traced first, and then each kind of statement goes its own way.
  unfold Stmt.walk
  refine translation.bind (translation.startWalk stmt) fun _ _ => ?_
  cases stmt with
  | declare typing declarators =>
    simp only [Stmt.mapParts, declGroups_mapParts]
    refine translation.bind (translation.forM fun group member => ?_) fun _ _ =>
      translation.pure
    have groups := declGroupsFrom_uses allowed.2 (by simp) group member
    exact translation.declareGroup allowed.1 groups.1 groups.2
  | assign targets value =>
    refine translation.bind (translation.evaluate allowed.2) fun datum gives => ?_
    refine translation.bind (translation.forM fun target member => ?_) fun _ _ =>
      translation.pure
    obtain ⟨store, given⟩ := gives.evaluate
    exact translation.assignName ⟨value, store, allowed.2, given⟩ (allowed.1 target member)
  | ifElse test body otherwise =>
    exact translation.branch allowed.1 (translation.block body allowed.2.1)
      (translation.otherwise otherwise allowed.2.2)
  | repeatWhile test body =>
    exact translation.loop (translation.condition allowed.1) (translation.block body allowed.2)
  | switch subject cases default =>
    cases default with
    | none =>
      refine translation.bind (translation.subject allowed.1) fun datum gives => ?_
      obtain ⟨store, given⟩ := gives.subject
      exact translation.cases cases allowed.2 ⟨subject, store, allowed.1, given⟩ translation.pure
    | some body =>
      simp only [Stmt.mapParts, endsInBreak_mapBlock]
      cases closed : endsInBreak body with
      | false => simpa [closed] using translation.missingBreak
      | true =>
        simp only [Bool.not_true, Bool.false_eq_true, if_false]
        refine translation.bind (translation.subject allowed.1) fun datum gives => ?_
        obtain ⟨store, given⟩ := gives.subject
        -- The default is run after the last case, and how it ends does not matter.
        refine translation.cases cases allowed.2.1 ⟨subject, store, allowed.1, given⟩ ?_
        exact translation.bind (translation.block body allowed.2.2) fun _ _ =>
          translation.pure
  | breakOut => exact translation.pure
  | display value =>
    exact translation.bind (translation.showValue allowed) fun _ _ => translation.pure
  | scan names =>
    refine translation.bind (translation.forM fun name member => ?_) fun _ _ =>
      translation.pure
    exact translation.scanName (allowed name member)
  | stray defect => exact translation.stray allowed
  | noBlock node => exact translation.stray allowed

/-- The walks of what a condition leaves to be done are related. -/
theorem otherwise (translation : StmtTranslation left right parts map)
    (otherwise : Otherwise) (allowed : otherwise.Uses parts) :
    translation.Rel (otherwise.walk left) ((otherwise.mapParts map).walk right) := by
  -- The recursion is on what is left: each `ELSE IF` leaves less to be done.
  cases otherwise with
  | nothing => exact translation.pure
  | block body => exact translation.block body allowed
  | elseIf test body otherwise =>
    refine translation.bind (translation.start _) fun _ _ => ?_
    exact translation.branch allowed.1 (translation.block body allowed.2.1)
      (translation.otherwise otherwise allowed.2.2)

/-- The walks of statements in order are related. -/
theorem block (translation : StmtTranslation left right parts map)
    (body : List Stmt) (allowed : blockUses parts body) :
    translation.Rel (blockWalk left body) (blockWalk right (mapBlock map body)) := by
  cases body with
  | nil => exact translation.pure
  | cons stmt rest =>
    -- Each statement is contained by itself, and a break skips those after it.
    refine translation.bind (translation.contain (translation.stmt stmt allowed.1))
      fun flow _ => ?_
    cases flow with
    | exit => exact translation.pure
    | normal => exact translation.block rest allowed.2

/-- The walks through cases are related. -/
theorem cases (translation : StmtTranslation left right parts map)
    (cases : List Case) (allowed : casesUse parts cases) {subject : Datum}
    (given : parts.Gives subject) {after after' : Walk Flow}
    (related : translation.Rel after after') :
    translation.Rel (casesWalk left subject after cases)
      (casesWalk right subject after' (mapCases map cases)) := by
  match cases with
  | [] => exact related
  | .mk value body :: rest =>
    -- The cases after this one are reached in two ways, so that they are settled first.
    have later := translation.cases rest allowed.2 given related
    refine translation.bind (translation.matchCase given allowed.1.1) fun same _ => ?_
    cases same with
    | false => exact later
    | true =>
      refine translation.bind (translation.block body allowed.1.2) fun flow _ => ?_
      cases flow with
      | exit => exact translation.pure
      | normal => exact later

end

/-- The walks of a program with allowed parts and of the one with other parts are related, given
that a break that has left the whole program is met alike. -/
theorem program (translation : StmtTranslation left right parts map)
    (misplacedBreak : translation.Rel (.atom (recover left .misplacedBreak))
      (.atom (recover right .misplacedBreak)))
    (program : Program) (allowed : program.Uses parts) :
    translation.Rel (program.walk left) ((program.mapParts map).walk right) := by
  simp only [Program.walk, Program.mapParts, mapBlock_eq_map]
  refine translation.forM fun stmt member => ?_
  -- A statement of a program is contained like any other; only its break is treated apart.
  have uses := (blockUses_iff parts program.body).mp allowed stmt member
  refine translation.bind (translation.contain (translation.stmt stmt uses)) fun flow _ => ?_
  cases flow with
  | exit => exact misplacedBreak
  | normal => exact translation.pure

end StmtTranslation

section Congruence

variable {left right : Settings} {parts : Parts}

/-- Statements that keep their parts are statements with other parts, which are the same. -/
def StmtCongruence.toTranslation (congruence : StmtCongruence left right parts) :
    StmtTranslation left right parts .id where
  Rel := congruence.Rel
  pure := congruence.pure
  bind := congruence.bind
  contain := congruence.contain
  loop := congruence.loop
  start := congruence.start
  evaluate := congruence.evaluate
  declareName := congruence.declareName
  assignName := congruence.assignName
  scanName := congruence.scanName
  condition := congruence.condition
  subject := congruence.subject
  matchCase := congruence.matchCase
  showValue := congruence.showValue
  missingBreak := congruence.missingBreak
  stray := congruence.stray

/-- The walks of a statement with allowed parts are related. -/
theorem StmtCongruence.stmt (congruence : StmtCongruence left right parts)
    (stmt : Stmt) (allowed : stmt.Uses parts) :
    congruence.Rel (stmt.walk left) (stmt.walk right) := by
  have related := congruence.toTranslation.stmt stmt allowed
  rwa [Stmt.mapParts_id] at related

/-- The walks of a program with allowed parts are related. -/
theorem Congruence.program (congruence : Congruence left right parts)
    (program : Program) (allowed : program.Uses parts) :
    congruence.Rel (program.walk left) (program.walk right) := by
  have related := congruence.toTranslation.program congruence.misplacedBreak program allowed
  rwa [Program.mapParts_id] at related

end Congruence

end Pseudocode
