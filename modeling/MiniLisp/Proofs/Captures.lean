import MiniLisp.Proofs.Hereditary

/-!
The frames that a value holds on to. A procedure keeps the frame it captured, and lists and procedures
hold what their parts hold. Holding on to known frames only is a property that values share with their
parts: what primitives, parameters and templates give holds no frame that was not held by what they were
given, and neither do the errors they report.
-/

namespace MiniLisp

namespace Value

/-- Somewhere in the value, at any depth, a procedure has captured the frame. -/
inductive Captures : Value → FrameId → Prop where
  | here (kind : ProcKind) (params body : Value) (id : FrameId) :
      Captures (.proc kind params body (some id)) id
  | params {kind : ProcKind} {params body : Value} {env : Option FrameId} {id : FrameId} :
      Captures params id → Captures (.proc kind params body env) id
  | body {kind : ProcKind} {params body : Value} {env : Option FrameId} {id : FrameId} :
      Captures body id → Captures (.proc kind params body env) id
  | item {items : List Value} {x : Value} {id : FrameId} :
      x ∈ items → Captures x id → Captures (.list items) id

/-- Every frame that the value holds on to is one of `seen`. -/
def CapturesOnly (seen : FrameId → Prop) (v : Value) : Prop := ∀ id, v.Captures id → seen id

variable {seen : FrameId → Prop}

@[simp] theorem capturesOnly_int (n : Int) : (Value.int n).CapturesOnly seen := by
  rintro id ⟨⟩

@[simp] theorem capturesOnly_float (x : Float) : (Value.float x).CapturesOnly seen := by
  rintro id ⟨⟩

@[simp] theorem capturesOnly_bool (b : Bool) : (Value.bool b).CapturesOnly seen := by
  rintro id ⟨⟩

@[simp] theorem capturesOnly_str (s : String) : (Value.str s).CapturesOnly seen := by
  rintro id ⟨⟩

@[simp] theorem capturesOnly_sym (name : String) : (Value.sym name).CapturesOnly seen := by
  rintro id ⟨⟩

@[simp] theorem capturesOnly_native (p : Native) : (Value.native p).CapturesOnly seen := by
  rintro id ⟨⟩

@[simp] theorem capturesOnly_list {items : List Value} :
    (Value.list items).CapturesOnly seen ↔ ∀ x ∈ items, x.CapturesOnly seen := by
  constructor
  · intro h x member id captured
    exact h id (.item member captured)
  · rintro h id ⟨⟩
    next member captured => exact h _ member id captured

@[simp] theorem capturesOnly_proc {kind : ProcKind} {params body : Value} {env : Option FrameId} :
    (Value.proc kind params body env).CapturesOnly seen ↔
      params.CapturesOnly seen ∧ body.CapturesOnly seen ∧ ∀ id, env = some id → seen id := by
  constructor
  · intro h
    refine ⟨fun id captured => h id (.params captured), fun id captured => h id (.body captured), ?_⟩
    rintro id rfl
    exact h id (.here kind params body id)
  · rintro ⟨inParams, inBody, own⟩ id captured
    cases captured with
    | here => exact own id rfl
    | params captured => exact inParams id captured
    | body captured => exact inBody id captured

theorem hereditary_capturesOnly (seen : FrameId → Prop) : Hereditary (CapturesOnly seen) where
  float := capturesOnly_float
  bool := capturesOnly_bool
  str := capturesOnly_str
  sym := capturesOnly_sym
  list := capturesOnly_list
  parts h := ⟨(capturesOnly_proc.1 h).1, (capturesOnly_proc.1 h).2.1⟩
  procedure _ _ _ inParams inBody := capturesOnly_proc.2 ⟨inParams, inBody, by simp⟩

end Value

namespace Error

/-- The values that an error is about, which it keeps. -/
def values : Error → List Value
  | .typeMismatch _ got => [got]
  | .malformedList items => items
  | .expansionLimit form _ => [form]
  | _ => []

/-- A value that the error keeps has captured the frame. -/
def Captures (error : Error) (id : FrameId) : Prop := ∃ v ∈ error.values, v.Captures id

/-- Every frame that the error holds on to is one of `seen`. -/
def CapturesOnly (seen : FrameId → Prop) (error : Error) : Prop := ∀ id, error.Captures id → seen id

variable {seen : FrameId → Prop}

theorem capturesOnly_iff {error : Error} :
    error.CapturesOnly seen ↔ ∀ v ∈ error.values, v.CapturesOnly seen := by
  constructor
  · intro h v member id captured
    exact h id ⟨v, member, captured⟩
  · rintro h id ⟨v, member, captured⟩
    exact h v member id captured

@[simp] theorem capturesOnly_integerText : integerText.CapturesOnly seen :=
  capturesOnly_iff.2 (List.forall_mem_nil _)

@[simp] theorem capturesOnly_read (error : ReadError) : (read error).CapturesOnly seen :=
  capturesOnly_iff.2 (List.forall_mem_nil _)

/-- Also when the error cannot be printed and the limit on integers is reported in its place. -/
theorem About.capturesOnly_reported {cause : Error} (about : cause.About (Value.CapturesOnly seen)) :
    cause.reported.CapturesOnly seen := by
  unfold reported
  split
  · rw [capturesOnly_iff]
    cases about with
    | typeMismatch _ known => exact List.forall_mem_singleton.2 known
    | malformedList known => exact Value.capturesOnly_list.1 known
    | expansionLimit _ known => exact List.forall_mem_singleton.2 known
    | _ => exact List.forall_mem_nil _
  · exact capturesOnly_integerText

end Error

/-- Whatever a name is bound to where templates look it up. -/
structure Template.KnownNames (seen : FrameId → Prop) (s : Store) (env : FrameId) : Prop where
  chain : ∀ name v, s.lookup? env name = some v → v.CapturesOnly seen
  own : ∀ name v, s.local? env name = some v → v.CapturesOnly seen

end MiniLisp
