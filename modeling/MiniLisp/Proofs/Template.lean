import MiniLisp.Eval.Quasiquote

/-!
What a template stands for. Elements are visited from the last to the first, and results are put on a
stack; but what a template stands for can be read off from left to right. Each element contributes some
values, a list that is not marked contributes one list of what its items contribute, and values that are put
in are not looked at again. Of the elements at fault the last one is reported.
-/

namespace MiniLisp

theorem Mark.eq_name_of_ofName? {head : String} {mark : Mark} (found : Mark.ofName? head = some mark) :
    head = mark.name := by
  unfold Mark.ofName? at found
  split at found
  · cases found
    assumption
  · split at found
    · cases found
      assumption
    · cases found

namespace Template

/-- What an element contributes: a name that is put in its value, a name that is spliced in the items of
its value. -/
def contribution (s : Store) (env : FrameId) : Value → List Value
  | .list [.sym "unquote", .sym name] =>
      [(s.lookup? env name).getD (.list [.sym "unquote", .sym name])]
  | .list [.sym "splice-unquote", .sym name] => match s.local? env name with
    | some (.list items) => items
    | _ => []
  | .list items => [.list (items.flatMap fun x => contribution s env x)]
  | v => [v]

/-- The copy that a whole template stands for. -/
def copy (s : Store) (env : FrameId) : Value → Value
  | .list [.sym "unquote", .sym name] =>
      (s.lookup? env name).getD (.list [.sym "unquote", .sym name])
  | .list [.sym "splice-unquote", .sym name] =>
      .list (contribution s env (.list [.sym "splice-unquote", .sym name]))
  | .list items => .list (items.flatMap (contribution s env))
  | v => v

/-- The elements of a template in the order in which they are written. Nothing is visited inside a list
that starts with a mark and a name. -/
def visited : Value → List Value
  | .list (.sym "unquote" :: .sym name :: rest) => [.list (.sym "unquote" :: .sym name :: rest)]
  | .list (.sym "splice-unquote" :: .sym name :: rest) =>
      [.list (.sym "splice-unquote" :: .sym name :: rest)]
  | .list items => .list items :: items.flatMap fun x => visited x
  | v => [v]

/-- What is wrong with a single element: a spliced name that the frame itself does not bind, or a mark and
a name with something behind them. -/
def fault? (s : Store) (env : FrameId) : Value → Option Error
  | .list [.sym "unquote", .sym _] => none
  | .list [.sym "splice-unquote", .sym name] => match s.local? env name with
    | some _ => none
    | none => some (.unbound name)
  | .list (.sym "unquote" :: .sym _ :: _) => some (.arity (.mark "unquote"))
  | .list (.sym "splice-unquote" :: .sym _ :: _) => some (.arity (.mark "splice-unquote"))
  | _ => none

/-- The faults of a template in the order in which they are written. -/
def faults (s : Store) (env : FrameId) (v : Value) : List Error := (visited v).filterMap (fault? s env)

mutual

/-- Puts what an element contributes on a stack, which has its top at the end. -/
def push (s : Store) (env : FrameId) (stack : List Value) : Value → Except Error (List Value)
  | .list items => match Mark.ofItems items with
    | .error e => .error e
    | .ok (some (.unquote, name)) => .ok (stack ++ [unquoted s env name items])
    | .ok (some (.splice, name)) => (spliced s env name).map fun values => stack ++ values.reverse
    | .ok none => (pushAll s env [] items).map fun results => stack ++ [.list results.reverse]
  | v => .ok (stack ++ [v])

/-- The elements of a list go on the stack from the last to the first. -/
def pushAll (s : Store) (env : FrameId) (stack : List Value) : List Value → Except Error (List Value)
  | [] => .ok stack
  | x :: rest => match pushAll s env stack rest with
    | .error e => .error e
    | .ok results => push s env results x

end

/-- The copy of a template by way of the stack, which is turned over at the end. -/
def expandByStack (s : Store) (env : FrameId) : Value → Except Error Value
  | .list items => match Mark.ofItems items with
    | .error e => .error e
    | .ok none => (pushAll s env [] items).map fun results => .list results.reverse
    | .ok (some (.splice, _)) => (push s env [] (.list items)).map fun results => .list results.reverse
    | .ok (some (.unquote, _)) =>
        (push s env [] (.list items)).map fun results => results.headD (.list items)
  | v => .ok v

/-- How a list of a template is marked: a name to put in or to splice in, a mark and a name with something
behind them, or none of these. -/
inductive Marking : List Value → Prop where
  | unquote (name : String) : Marking [.sym "unquote", .sym name]
  | splice (name : String) : Marking [.sym "splice-unquote", .sym name]
  | excess (mark : Mark) (name : String) (extra : Value) (rest : List Value) :
      Marking (.sym mark.name :: .sym name :: extra :: rest)
  | plain {items : List Value}
      (unmarked : ∀ mark name rest, items ≠ .sym (Mark.name mark) :: .sym name :: rest) : Marking items

theorem marking (items : List Value) : Marking items := by
  by_cases marked : ∃ mark name rest, items = .sym (Mark.name mark) :: .sym name :: rest
  · obtain ⟨mark, name, rest, rfl⟩ := marked
    cases rest with
    | cons extra rest => exact .excess mark name extra rest
    | nil =>
        cases mark with
        | unquote => exact .unquote name
        | splice => exact .splice name
  · apply Marking.plain
    intro mark name rest same
    exact marked ⟨mark, name, rest, same⟩

section Plain

variable {items : List Value}
  (unmarked : ∀ mark name rest, items ≠ .sym (Mark.name mark) :: .sym name :: rest)

include unmarked

theorem ofItems_plain : Mark.ofItems items = .ok none := by
  unfold Mark.ofItems
  split
  · rename_i head name rest
    cases found : Mark.ofName? head with
    | none => rfl
    | some mark =>
        have named : head = mark.name := Mark.eq_name_of_ofName? found
        exact absurd (by rw [named]) (unmarked mark name rest)
  · rfl

theorem contribution_plain (s : Store) (env : FrameId) :
    contribution s env (.list items) = [.list (items.flatMap (contribution s env))] := by
  rw [contribution]
  · intro name same
    exact unmarked .unquote name [] same
  · intro name same
    exact unmarked .splice name [] same

theorem copy_plain (s : Store) (env : FrameId) :
    copy s env (.list items) = .list (items.flatMap (contribution s env)) := by
  rw [copy]
  · intro name same
    exact unmarked .unquote name [] same
  · intro name same
    exact unmarked .splice name [] same

theorem fault?_plain (s : Store) (env : FrameId) : fault? s env (.list items) = none := by
  rw [fault?]
  · intro name same
    exact unmarked .unquote name [] (Value.list.inj same)
  · intro name same
    exact unmarked .splice name [] (Value.list.inj same)
  · intro name rest same
    exact unmarked .unquote name rest (Value.list.inj same)
  · intro name rest same
    exact unmarked .splice name rest (Value.list.inj same)

theorem faults_plain (s : Store) (env : FrameId) :
    faults s env (.list items) = items.flatMap (faults s env) := by
  have inside : visited (.list items) = .list items :: items.flatMap visited := by
    rw [visited]
    · intro name rest same
      exact unmarked .unquote name rest same
    · intro name rest same
      exact unmarked .splice name rest same
  rw [faults, inside, List.filterMap_cons, fault?_plain unmarked, List.filterMap_flatMap]
  rfl

end Plain

/-- A value, unless there are faults: then the last of them is reported. -/
def reportLast {α : Type} (faults : List Error) (a : α) : Except Error α :=
  match faults.getLast? with
  | some e => .error e
  | none => .ok a

section Report

variable {α β : Type} {e : Error} {a b : α}

theorem map_reportLast (f : α → β) (faults : List Error) (a : α) :
    (reportLast faults a).map f = reportLast faults (f a) := by
  unfold reportLast
  cases faults.getLast? <;> rfl

theorem reportLast_eq_ok_iff {faults : List Error} : reportLast faults a = .ok b ↔ faults = [] ∧ b = a := by
  unfold reportLast
  cases last : faults.getLast? with
  | none =>
      rw [List.getLast?_eq_none_iff] at last
      simp [last, eq_comm]
  | some e =>
      have some : faults ≠ [] := by
        intro none
        rw [none] at last
        cases last
      simp [some]

theorem reportLast_eq_error_iff {faults : List Error} :
    reportLast faults a = .error e ↔ faults.getLast? = some e := by
  unfold reportLast
  cases faults.getLast? with
  | none => simp
  | some e' => simp

/-- The faults that are written later are the ones to report. -/
theorem reportLast_append (earlier later : List Error) (a : α) :
    reportLast (earlier ++ later) a = (reportLast later ()).bind fun _ => reportLast earlier a := by
  unfold reportLast
  rw [List.getLast?_append]
  cases later.getLast? <;> rfl

end Report

/-! The marked lists and the leaves -/

section Marked

variable (s : Store) (env : FrameId) (name : String)

theorem ofItems_unquote : Mark.ofItems [.sym "unquote", .sym name] = .ok (some (.unquote, name)) := rfl

theorem faults_unquote : faults s env (.list [.sym "unquote", .sym name]) = [] := by
  simp only [faults, visited, fault?, List.filterMap_cons, List.filterMap_nil]

theorem ofItems_splice : Mark.ofItems [.sym "splice-unquote", .sym name] = .ok (some (.splice, name)) := rfl

theorem spliced_eq : spliced s env name =
    reportLast (faults s env (.list [.sym "splice-unquote", .sym name]))
      (contribution s env (.list [.sym "splice-unquote", .sym name])) := by
  rw [spliced]
  cases own : s.local? env name with
  | none =>
      simp only [faults, visited, fault?, own, List.filterMap_cons, List.filterMap_nil]
      rfl
  | some v =>
      simp only [faults, visited, fault?, own, List.filterMap_cons, List.filterMap_nil, contribution]
      cases v <;> rfl

theorem ofItems_excess (mark : Mark) (extra : Value) (rest : List Value) :
    Mark.ofItems (.sym mark.name :: .sym name :: extra :: rest) = .error (.arity (.mark mark.name)) := by
  cases mark <;> rfl

theorem faults_excess (mark : Mark) (extra : Value) (rest : List Value) :
    faults s env (.list (.sym mark.name :: .sym name :: extra :: rest)) =
      [.arity (.mark mark.name)] := by
  cases mark <;> simp [Mark.name, faults, visited, fault?]

theorem faults_leaf {v : Value} (leaf : ∀ items, v ≠ .list items) : faults s env v = [] := by
  cases v with
  | list items => exact absurd rfl (leaf items)
  | _ => simp [faults, visited, fault?]

end Marked

/-! All elements -/

section Elements

variable (s : Store) (env : FrameId)

mutual

theorem element_eq (v : Value) :
    element s env v = reportLast (faults s env v) (contribution s env v) := by
  cases v with
  | list items =>
      rw [element]
      cases marking items with
      | unquote name =>
          rw [ofItems_unquote, faults_unquote, contribution]
          rfl
      | splice name =>
          rw [ofItems_splice]
          exact spliced_eq s env name
      | excess mark name extra rest =>
          rw [ofItems_excess, faults_excess]
          rfl
      | plain unmarked =>
          rw [ofItems_plain unmarked, faults_plain unmarked, contribution_plain unmarked]
          simp only [elements_eq items, map_reportLast]
  | _ =>
      rw [faults_leaf s env (by simp), contribution]
      · rfl
      all_goals simp

theorem elements_eq (vs : List Value) :
    elements s env vs =
      reportLast (vs.flatMap (faults s env)) (vs.flatMap (contribution s env)) := by
  cases vs with
  | nil => rfl
  | cons v vs =>
      rw [elements, elements_eq vs, element_eq v, List.flatMap_cons, List.flatMap_cons, reportLast_append]
      simp only [map_reportLast]
      -- The rest is at fault, or the value depends on this element.
      cases last : (vs.flatMap (faults s env)).getLast? with
      | some e => simp only [reportLast, last, Except.bind]
      | none => simp only [reportLast, last, Except.bind]

end

theorem expand_eq (t : Value) : expand s env t = reportLast (faults s env t) (copy s env t) := by
  cases t with
  | list items =>
      rw [expand]
      cases marking items with
      | unquote name =>
          rw [ofItems_unquote, faults_unquote]
          rfl
      | splice name =>
          rw [ofItems_splice, copy, ← map_reportLast, ← spliced_eq]
      | excess mark name extra rest =>
          rw [ofItems_excess, faults_excess]
          rfl
      | plain unmarked =>
          rw [ofItems_plain unmarked, faults_plain unmarked, copy_plain unmarked]
          simp only [elements_eq, map_reportLast]
  | _ =>
      rw [faults_leaf s env (by simp)]
      rfl

mutual

/-- The stack grows by what the element contributes, back to front. -/
theorem push_eq (stack : List Value) (v : Value) :
    push s env stack v = (element s env v).map fun values => stack ++ values.reverse := by
  cases v with
  | list items =>
      rw [push, element]
      cases Mark.ofItems items with
      | error e => rfl
      | ok found =>
          match found with
          | some (.unquote, name) => rfl
          | some (.splice, name) => rfl
          | none =>
              simp only [pushAll_eq [] items, List.nil_append]
              cases elements s env items with
              | error e => rfl
              | ok values => simp [Except.map]
  | _ => rfl

theorem pushAll_eq (stack : List Value) (vs : List Value) :
    pushAll s env stack vs = (elements s env vs).map fun values => stack ++ values.reverse := by
  cases vs with
  | nil => simp [pushAll, elements, Except.map]
  | cons v vs =>
      rw [pushAll, elements, pushAll_eq stack vs]
      cases elements s env vs with
      | error e => rfl
      | ok rest =>
          simp only [Except.map]
          rw [push_eq]
          cases element s env v with
          | error e => rfl
          | ok values => simp [Except.map]

end

theorem expandByStack_eq (t : Value) : expandByStack s env t = expand s env t := by
  cases t with
  | list items =>
      rw [expandByStack, expand]
      cases found : Mark.ofItems items with
      | error e => rfl
      | ok mark =>
          match mark with
          | some (.unquote, name) => simp only [push, found, Except.map, List.nil_append, List.headD_cons]
          | some (.splice, name) =>
              simp only [push, found]
              cases spliced s env name with
              | error e => rfl
              | ok values => simp [Except.map]
          | none =>
              simp only [pushAll_eq]
              cases elements s env items with
              | error e => rfl
              | ok values => simp [Except.map]
  | _ => rfl

end Elements

/-- A template is expanded by way of a stack, and what it stands for is read from left to right: it is the
copy in which every element is what it contributes. Expansion fails exactly when an element that is visited
is at fault, and then with the fault that is written last. -/
theorem template_read_left_to_right (s : Store) (env : FrameId) (t : Value) :
    expandByStack s env t = expand s env t ∧
    (∀ v, expand s env t = .ok v ↔ (∀ x ∈ visited t, fault? s env x = none) ∧ v = copy s env t) ∧
    ∀ e, expand s env t = .error e ↔ ((visited t).filterMap (fault? s env)).getLast? = some e := by
  refine ⟨expandByStack_eq s env t, ?_, ?_⟩
  · intro v
    rw [expand_eq, reportLast_eq_ok_iff, faults, List.filterMap_eq_nil_iff]
  · intro e
    rw [expand_eq, reportLast_eq_error_iff, faults]

end Template

end MiniLisp
