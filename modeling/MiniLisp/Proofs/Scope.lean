import Mathlib.Data.List.Find
import MiniLisp.Proofs.FrameEffect

/-!
What a name means in a frame is settled when the frame is made: an outer frame is older, so frames
that are added later never come into the chain. Names and settings therefore read the same in every
store that has kept the frames.
-/

namespace MiniLisp.Store

/-- An outer frame is older than the frames inside it: it was there when they were made. -/
def Linked (s : Store) : Prop :=
  ∀ id f outer, s.get? id = some f → f.outer? = some outer → outer < id

theorem linked_root (bindings : List (String × Value)) (config : Config) :
    Linked ⟨#[⟨bindings, .root config⟩]⟩ := by
  intro id f outer here link
  obtain ⟨bound, rfl⟩ := Array.getElem?_eq_some_iff.1 here
  obtain rfl : id = 0 := Nat.lt_one_iff.1 bound
  cases link

variable {s t : Store}

theorem exists_frame {id : FrameId} (present : id < s.size) : ∃ f, s.get? id = some f :=
  ⟨_, Array.getElem?_eq_getElem present⟩

theorem chainUpTo_of_keeps (linked : s.Linked) (keeps : Keeps s t) (n : Nat) {id : FrameId}
    (present : id < s.size) : t.chainUpTo n id = s.chainUpTo n id := by
  induction n generalizing id with
  | zero => rfl
  | succ n ih =>
      obtain ⟨f, here⟩ := exists_frame present
      simp only [chainUpTo, here, keeps id f here]
      cases link : f.outer? with
      | none => rfl
      | some outer =>
          have older : outer < id := linked id f outer here link
          exact congrArg (id :: ·) (ih (Nat.lt_trans older present))

theorem chain_of_keeps (linked : s.Linked) (keeps : Keeps s t) {id : FrameId}
    (present : id < s.size) : t.chain id = s.chain id :=
  chainUpTo_of_keeps linked keeps (id + 1) present

theorem lt_size_of_mem_chainUpTo {n : Nat} {id i : FrameId} (member : i ∈ s.chainUpTo n id) :
    i < s.size := by
  induction n generalizing id with
  | zero => cases member
  | succ n ih =>
      rw [chainUpTo] at member
      cases here : s.get? id with
      | none => simp [here] at member
      | some f =>
          cases link : f.outer? with
          | none =>
              obtain rfl : i = id := by simpa [here, link] using member
              exact lt_size_of_get? here
          | some outer =>
              rcases (by simpa [here, link] using member : i = id ∨ i ∈ s.chainUpTo n outer) with
                rfl | further
              · exact lt_size_of_get? here
              · exact ih further

theorem get?_of_keeps (keeps : Keeps s t) {id : FrameId} (present : id < s.size) :
    t.get? id = s.get? id := by
  obtain ⟨f, here⟩ := exists_frame present
  rw [here, keeps id f here]

/-- A name has the same value in every store that has kept the frames. -/
theorem lookup?_of_keeps (linked : s.Linked) (keeps : Keeps s t) {env : FrameId}
    (present : env < s.size) (name : String) : t.lookup? env name = s.lookup? env name := by
  have localSame : ∀ i ∈ s.chain env, t.local? i name = s.local? i name := by
    intro i member
    rw [local?, local?, get?_of_keeps keeps (lt_size_of_mem_chainUpTo member)]
  have found : t.find? env name = s.find? env name := by
    rw [find?, find?, chain_of_keeps linked keeps present]
    exact List.find?_congr fun i member => by rw [localSame i member]
  rw [lookup?, lookup?, found]
  cases here : s.find? env name with
  | none => rfl
  | some i => exact localSame i (List.mem_of_find?_eq_some here)

theorem config_of_keeps (linked : s.Linked) (keeps : Keeps s t) {env : FrameId}
    (present : env < s.size) : t.config env = s.config env := by
  have settings : ∀ i ∈ s.chain env, (t.get? i).bind Frame.config? = (s.get? i).bind Frame.config? := by
    intro i member
    rw [get?_of_keeps keeps (lt_size_of_mem_chainUpTo member)]
  have found := congrArg (List.findSome? id) (List.map_congr_left settings)
  rw [List.findSome?_map, List.findSome?_map] at found
  rw [config, config, chain_of_keeps linked keeps present]
  exact congrArg (Option.getD · {}) found

/-! Names as the first answer along the chain, after a definition and in a new frame -/

/-- The bindings of a frame, in order of first definition. -/
def bindings? (s : Store) (id : FrameId) : Option (List (String × Value)) :=
  (s.get? id).map Frame.bindings

theorem local?_eq_bindings? (s : Store) (id : FrameId) (name : String) :
    s.local? id name = (s.bindings? id).bind (List.lookup name) := by
  rw [local?, bindings?]
  cases s.get? id <;> rfl

theorem findSome?_congr {α β : Type} {f g : α → Option β} {l : List α} (same : ∀ x ∈ l, f x = g x) :
    l.findSome? f = l.findSome? g := by
  induction l with
  | nil => rfl
  | cons x l ih =>
      rw [List.forall_mem_cons] at same
      rw [List.findSome?_cons, List.findSome?_cons, same.1, ih same.2]

theorem lookup?_eq_findSome? (s : Store) (id : FrameId) (name : String) :
    s.lookup? id name = (s.chain id).findSome? fun i => s.local? i name := by
  rw [lookup?, find?]
  induction s.chain id with
  | nil => rfl
  | cons i rest ih =>
      rw [List.find?_cons, List.findSome?_cons]
      cases here : s.local? i name with
      | none => exact ih
      | some v => simp [here]

theorem get?_define (s : Store) (id : FrameId) (name : String) (v : Value) (i : FrameId) :
    (s.define id name v).get? i = if id = i then (s.get? i).map (·.define name v) else s.get? i := by
  simp [get?, define, Array.getElem?_modify]

theorem get?_push_eq (s : Store) (f : Frame) (i : FrameId) :
    (s.push f).get? i = if i = s.size then some f else s.get? i := by
  exact Array.getElem?_push

@[simp] theorem size_define (s : Store) (id : FrameId) (name : String) (v : Value) :
    (s.define id name v).size = s.size := by
  simp [size, define]

@[simp] theorem size_push (s : Store) (f : Frame) : (s.push f).size = s.size + 1 := by
  simp [size, push]

theorem keeps_push (s : Store) (f : Frame) : Keeps s (s.push f) := fun _ _ here => get?_push f here

theorem chainUpTo_of_le (linked : s.Linked) {n : Nat} {id : FrameId} (enough : id < n) :
    s.chainUpTo n id = s.chain id := by
  induction id using Nat.strongRecOn generalizing n with
  | ind id ih =>
      obtain ⟨m, rfl⟩ := Nat.exists_eq_add_one_of_ne_zero (Nat.ne_zero_of_lt enough)
      rw [chain, chainUpTo, chainUpTo]
      cases here : s.get? id with
      | none => rfl
      | some f =>
          cases link : f.outer? with
          | none => simp only [link]
          | some outer =>
              have older : outer < id := linked id f outer here link
              have still : outer < m := Nat.lt_of_lt_of_le older (Nat.le_of_lt_succ enough)
              simp only [link]
              rw [ih outer older still, ih outer older older]

theorem chain_eq_cons {id : FrameId} (present : id < s.size) : ∃ rest, s.chain id = id :: rest := by
  obtain ⟨f, here⟩ := exists_frame present
  rw [chain, chainUpTo, here]
  cases link : f.outer? with
  | none => exact ⟨[], by simp only [link]⟩
  | some outer => exact ⟨_, by simp only [link]; rfl⟩

theorem lt_size_of_keeps (keeps : Keeps s t) {id : FrameId} (present : id < s.size) : id < t.size := by
  obtain ⟨f, here⟩ := exists_frame present
  exact lt_size_of_get? (keeps id f here)

theorem mem_of_lookup {bindings : List (String × Value)} {name : String} {v : Value}
    (found : bindings.lookup name = some v) : (name, v) ∈ bindings := by
  obtain ⟨before, after, rfl, -⟩ := List.lookup_eq_some_iff.1 found
  simp

theorem lookup?_of_local? {id : FrameId} (present : id < s.size) {name : String} {v : Value}
    (here : s.local? id name = some v) : s.lookup? id name = some v := by
  obtain ⟨rest, first⟩ := chain_eq_cons present
  rw [lookup?_eq_findSome?, first, List.findSome?_cons, here]

section Define

variable {id : FrameId} {name : String} {v : Value}

theorem lookup_setBinding (bindings : List (String × Value)) (other : String) :
    (setBinding name v bindings).lookup other = if other = name then some v else bindings.lookup other := by
  have lookup_cons (n : String) (u : Value) (rest : List (String × Value)) :
      ((n, u) :: rest).lookup other = if other = n then some u else rest.lookup other := by
    by_cases same : other = n
    · simp [same]
    · simp [List.lookup_cons, beq_eq_false_iff_ne.2 same, same]
  induction bindings with
  | nil => rw [setBinding, lookup_cons]
  | cons b rest ih =>
      obtain ⟨n, u⟩ := b
      by_cases here : n = name
      · subst here
        rw [setBinding, if_pos rfl, lookup_cons, lookup_cons]
        by_cases same : other = n <;> simp [same]
      · rw [setBinding, if_neg here, lookup_cons, lookup_cons, ih]
        by_cases same : other = n
        · subst same
          simp [here]
        · simp [same]

theorem local?_define (present : id < s.size) (i : FrameId) (other : String) :
    (s.define id name v).local? i other =
      if id = i ∧ other = name then some v else s.local? i other := by
  rw [local?, local?, get?_define]
  by_cases same : id = i
  · subst same
    obtain ⟨f, here⟩ := exists_frame present
    simp [here, Frame.get?, Frame.define, lookup_setBinding]
  · simp [same]

/-- A frame after a definition: its bindings are as before, or the definition has changed them. -/
theorem exists_of_get?_define {i : FrameId} {f : Frame} (here : (s.define id name v).get? i = some f) :
    ∃ g, s.get? i = some g ∧ g.outer? = f.outer? ∧ (f = g ∨ f = g.define name v) := by
  rw [get?_define] at here
  by_cases same : id = i
  · rw [if_pos same] at here
    obtain ⟨g, there, rfl⟩ := Option.map_eq_some_iff.1 here
    exact ⟨g, there, rfl, .inr rfl⟩
  · rw [if_neg same] at here
    exact ⟨f, here, rfl, .inl rfl⟩

theorem bindings?_define : (s.define id name v).bindings? id = (s.bindings? id).map (setBinding name v) := by
  rw [bindings?, bindings?, get?_define, if_pos rfl, Option.map_map, Option.map_map]
  rfl

theorem outer?_define (f : Frame) : (f.define name v).outer? = f.outer? := rfl

theorem chainUpTo_define (n : Nat) (i : FrameId) :
    (s.define id name v).chainUpTo n i = s.chainUpTo n i := by
  induction n generalizing i with
  | zero => rfl
  | succ n ih =>
      rw [chainUpTo, chainUpTo, get?_define]
      by_cases same : id = i
      · rw [if_pos same]
        cases here : s.get? i with
        | none => rfl
        | some f => simp only [Option.map_some, outer?_define, ih]
      · simp only [if_neg same, ih]

theorem lookup?_define (present : id < s.size) (other : String) :
    (s.define id name v).lookup? id other = if other = name then some v else s.lookup? id other := by
  rw [lookup?_eq_findSome?, lookup?_eq_findSome?, chain, chainUpTo_define]
  change (s.chain id).findSome? _ = _
  by_cases same : other = name
  · obtain ⟨rest, first⟩ := chain_eq_cons present
    rw [first, List.findSome?_cons, local?_define present]
    simp [same]
  · rw [if_neg same]
    refine findSome?_congr fun i _ => ?_
    rw [local?_define present]
    simp [same]

theorem config_define (i : FrameId) : (s.define id name v).config i = s.config i := by
  have settings (j : FrameId) :
      ((s.define id name v).get? j).bind Frame.config? = (s.get? j).bind Frame.config? := by
    rw [get?_define]
    by_cases same : id = j
    · cases here : s.get? j with
      | none => simp [same]
      | some f => simp [same, Frame.define, Frame.config?]
    · simp [same]
  rw [config, config, chain, chainUpTo_define]
  simp only [settings]
  rfl

theorem Linked.define (linked : s.Linked) : (s.define id name v).Linked := by
  intro i f outer here link
  obtain ⟨g, there, same, -⟩ := exists_of_get?_define here
  exact linked i g outer there (same.trans link)

end Define

section Child

variable {outer : FrameId} {bindings : List (String × Value)}

theorem Linked.child (linked : s.Linked) (present : outer < s.size) :
    (s.push ⟨bindings, .child outer⟩).Linked := by
  intro i f o here link
  rw [get?_push_eq] at here
  by_cases new : i = s.size
  · rw [if_pos new] at here
    cases here
    cases link
    rw [new]
    exact present
  · rw [if_neg new] at here
    exact linked i f o here link

theorem chain_child (linked : s.Linked) (present : outer < s.size) :
    (s.push ⟨bindings, .child outer⟩).chain s.size = s.size :: s.chain outer := by
  have new : (s.push ⟨bindings, .child outer⟩).get? s.size = some ⟨bindings, .child outer⟩ := by
    rw [get?_push_eq, if_pos rfl]
  rw [chain, chainUpTo, new]
  simp only [Frame.outer?]
  rw [chainUpTo_of_keeps linked (keeps_push s _) _ present, chainUpTo_of_le linked present]

theorem bindings?_child : (s.push ⟨bindings, .child outer⟩).bindings? s.size = some bindings := by
  rw [bindings?, get?_push_eq, if_pos rfl]
  rfl

theorem local?_child (name : String) :
    (s.push ⟨bindings, .child outer⟩).local? s.size name = bindings.lookup name := by
  rw [local?, get?_push_eq, if_pos rfl]
  rfl

/-- A name in a new frame is what the frame says, or else what it is outside. -/
theorem lookup?_child (linked : s.Linked) (present : outer < s.size) (name : String) :
    (s.push ⟨bindings, .child outer⟩).lookup? s.size name =
      (bindings.lookup name).or (s.lookup? outer name) := by
  have outside : ∀ i ∈ s.chain outer,
      (s.push ⟨bindings, .child outer⟩).local? i name = s.local? i name := by
    intro i member
    rw [local?, local?, get?_of_keeps (keeps_push s _) (lt_size_of_mem_chainUpTo member)]
  rw [lookup?_eq_findSome?, lookup?_eq_findSome?, chain_child linked present, List.findSome?_cons,
    local?_child, findSome?_congr outside]
  cases bindings.lookup name <;> rfl

theorem config_child (linked : s.Linked) (present : outer < s.size) :
    (s.push ⟨bindings, .child outer⟩).config s.size = s.config outer := by
  have outside : ∀ i ∈ s.chain outer, ((s.push ⟨bindings, .child outer⟩).get? i).bind Frame.config? =
      (s.get? i).bind Frame.config? := by
    intro i member
    rw [get?_of_keeps (keeps_push s _) (lt_size_of_mem_chainUpTo member)]
  have new : ((s.push ⟨bindings, .child outer⟩).get? s.size).bind Frame.config? = none := by
    rw [get?_push_eq, if_pos rfl]
    rfl
  rw [config, config, chain_child linked present, List.findSome?_cons, new, findSome?_congr outside]

end Child

/-! All bound values -/

/-- Every value that a frame binds has the property. -/
def Binds (P : Value → Prop) (s : Store) : Prop :=
  ∀ id f, s.get? id = some f → ∀ b ∈ f.bindings, P b.2

section Binds

variable {P : Value → Prop} {id : FrameId} {name : String} {v : Value}

theorem Binds.local? (bound : s.Binds P) (here : s.local? id name = some v) : P v := by
  obtain ⟨f, there, found⟩ := Option.bind_eq_some_iff.1 here
  exact bound id f there _ (mem_of_lookup found)

theorem Binds.lookup? (bound : s.Binds P) (found : s.lookup? id name = some v) : P v := by
  rw [lookup?_eq_findSome?] at found
  obtain ⟨i, -, here⟩ := List.exists_of_findSome?_eq_some found
  exact bound.local? here

end Binds

end MiniLisp.Store
