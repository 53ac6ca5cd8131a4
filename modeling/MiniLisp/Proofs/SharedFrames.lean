import MiniLisp.Proofs.Simulation

/-!
Two stores with a part in common. The common frames have the same numbers, the same bindings and the
same outer frames in both stores, and settings that are related in some way; the part is closed, that
is, nothing in it leads out of it. Evaluation that starts in the common part stays there, and all
frames that it makes belong to it.
-/

namespace MiniLisp

open Store (Keeps)

/-- Links to one outer frame, or to none with settings that `Q` relates. -/
inductive Link.Alike (Q : Config → Config → Prop) : Link → Link → Prop where
  | root {c c' : Config} : Q c c' → Alike Q (.root c) (.root c')
  | child (outer : FrameId) : Alike Q (.child outer) (.child outer)

structure Frame.Alike (Q : Config → Config → Prop) (f g : Frame) : Prop where
  bindings : f.bindings = g.bindings
  link : f.link.Alike Q g.link

namespace Frame

variable {Q : Config → Config → Prop} {f g : Frame}

theorem Alike.outer? (h : f.Alike Q g) : f.outer? = g.outer? := by
  obtain ⟨bindings, link⟩ := f
  obtain ⟨bindings', link'⟩ := g
  cases h.link <;> rfl

theorem Alike.config? (h : f.Alike Q g) : Option.Rel Q f.config? g.config? := by
  obtain ⟨bindings, link⟩ := f
  obtain ⟨bindings', link'⟩ := g
  cases h.link with
  | root related => exact .some related
  | child outer => exact .none

theorem Alike.define (h : f.Alike Q g) (name : String) (v : Value) :
    (f.define name v).Alike Q (g.define name v) :=
  ⟨congrArg (setBinding name v) h.bindings, h.link⟩

end Frame

namespace Store

/-- The stores have the frames in `P` in common. Frames that are not there yet count as common. -/
structure Overlap (P : FrameId → Prop) (Q : Config → Config → Prop) (s t : Store) : Prop where
  size : s.size = t.size
  fresh : ∀ i, s.size ≤ i → P i
  alike : ∀ i, P i → Option.Rel (Frame.Alike Q) (s.get? i) (t.get? i)
  outer : ∀ i f o, P i → s.get? i = some f → f.outer? = some o → P o
  bound : ∀ i f, P i → s.get? i = some f → ∀ b ∈ f.bindings, b.2.CapturesOnly P

variable {P : FrameId → Prop} {Q : Config → Config → Prop} {s t : Store}

theorem rel_findSome? {α β : Type} {r : β → β → Prop} {f g : α → Option β} {l : List α}
    (h : ∀ x ∈ l, Option.Rel r (f x) (g x)) : Option.Rel r (l.findSome? f) (l.findSome? g) := by
  induction l with
  | nil => exact .none
  | cons x l ih =>
      rw [List.forall_mem_cons] at h
      rw [List.findSome?_cons, List.findSome?_cons]
      have first := h.1
      generalize f x = a, g x = b at first
      cases first with
      | some related => exact .some related
      | none => exact ih h.2

namespace Overlap

/-- A common frame, as both stores have it. -/
theorem frame (h : Overlap P Q s t) {i : FrameId} (inside : P i) {f : Frame} (here : s.get? i = some f) :
    ∃ g, t.get? i = some g ∧ f.Alike Q g := by
  have both := h.alike i inside
  rw [here] at both
  generalize t.get? i = b at both
  cases both with
  | some related => exact ⟨_, rfl, related⟩

theorem missing (h : Overlap P Q s t) {i : FrameId} (inside : P i) (gone : s.get? i = none) :
    t.get? i = none := by
  have both := h.alike i inside
  rw [gone] at both
  generalize t.get? i = b at both
  cases both with
  | none => rfl

theorem chainUpTo (h : Overlap P Q s t) (n : Nat) {i : FrameId} (inside : P i) :
    t.chainUpTo n i = s.chainUpTo n i ∧ ∀ j ∈ s.chainUpTo n i, P j := by
  induction n generalizing i with
  | zero => exact ⟨rfl, by simp [Store.chainUpTo]⟩
  | succ n ih =>
      rw [Store.chainUpTo, Store.chainUpTo]
      cases here : s.get? i with
      | none =>
          rw [h.missing inside here]
          exact ⟨rfl, by simp⟩
      | some f =>
          obtain ⟨g, there, same⟩ := h.frame inside here
          rw [there]
          simp only [← same.outer?]
          cases link : f.outer? with
          | none => exact ⟨rfl, by simpa using inside⟩
          | some o =>
              obtain ⟨rest, within⟩ := ih (h.outer i f o inside here link)
              exact ⟨congrArg (i :: ·) rest, List.forall_mem_cons.2 ⟨inside, within⟩⟩

theorem bindings? (h : Overlap P Q s t) {i : FrameId} (inside : P i) :
    s.bindings? i = t.bindings? i := by
  rw [Store.bindings?, Store.bindings?]
  cases here : s.get? i with
  | none => rw [h.missing inside here]
  | some f =>
      obtain ⟨g, there, same⟩ := h.frame inside here
      simp only [there, Option.map_some, same.bindings]

theorem local? (h : Overlap P Q s t) {i : FrameId} (inside : P i) (name : String) :
    s.local? i name = t.local? i name := by
  rw [local?_eq_bindings?, local?_eq_bindings?, h.bindings? inside]

theorem lookup? (h : Overlap P Q s t) {i : FrameId} (inside : P i) (name : String) :
    s.lookup? i name = t.lookup? i name := by
  obtain ⟨same, within⟩ := h.chainUpTo (i + 1) inside
  rw [lookup?_eq_findSome?, lookup?_eq_findSome?, chain, chain, same]
  exact findSome?_congr fun j member => h.local? (within j member) name

theorem config (h : Overlap P Q s t) (default : Q {} {}) {i : FrameId} (inside : P i) :
    Q (s.config i) (t.config i) := by
  obtain ⟨same, within⟩ := h.chainUpTo (i + 1) inside
  have found : Option.Rel Q ((s.chain i).findSome? fun j => (s.get? j).bind Frame.config?)
      ((s.chain i).findSome? fun j => (t.get? j).bind Frame.config?) := by
    refine rel_findSome? fun j member => ?_
    cases here : s.get? j with
    | none =>
        rw [h.missing (within j member) here]
        exact .none
    | some f =>
        obtain ⟨g, there, alike⟩ := h.frame (within j member) here
        rw [there]
        exact alike.config?
  rw [Store.config, Store.config, show t.chain i = s.chain i from same]
  generalize ((s.chain i).findSome? fun j => (s.get? j).bind Frame.config?) = a,
    ((s.chain i).findSome? fun j => (t.get? j).bind Frame.config?) = b at found ⊢
  cases found with
  | some related => exact related
  | none => exact default

theorem known (h : Overlap P Q s t) {i : FrameId} (inside : P i) : Template.KnownNames P s i := by
  have own : ∀ j, P j → ∀ name v, s.local? j name = some v → v.CapturesOnly P := by
    intro j within name v here
    obtain ⟨f, there, found⟩ := Option.bind_eq_some_iff.1 here
    exact h.bound j f within there _ (mem_of_lookup found)
  refine ⟨fun name v found => ?_, own i inside⟩
  rw [lookup?_eq_findSome?] at found
  obtain ⟨j, member, here⟩ := List.exists_of_findSome?_eq_some found
  exact own j ((h.chainUpTo (i + 1) inside).2 j member) name v here

theorem define (h : Overlap P Q s t) (id : FrameId) (name : String) {v : Value}
    (held : v.CapturesOnly P) : Overlap P Q (s.define id name v) (t.define id name v) where
  size := by simpa using h.size
  fresh := by simpa using h.fresh
  alike := by
    intro i inside
    rw [get?_define, get?_define]
    by_cases same : id = i
    · rw [if_pos same, if_pos same]
      have both := h.alike i inside
      generalize s.get? i = a, t.get? i = b at both
      cases both with
      | some related => exact .some (related.define name v)
      | none => exact .none
    · rw [if_neg same, if_neg same]
      exact h.alike i inside
  outer := by
    intro i f o inside here link
    obtain ⟨g, there, outerSame, -⟩ := exists_of_get?_define here
    exact h.outer i g o inside there (outerSame ▸ link)
  bound := by
    intro i f inside here
    obtain ⟨g, there, -, rfl | rfl⟩ := exists_of_get?_define here
    · exact h.bound i _ inside there
    · exact forall_setBinding held (h.bound i g inside there)

/-- A new frame inside a common one is common. -/
theorem push (h : Overlap P Q s t) {o : FrameId} (inside : P o) {bindings : List (String × Value)}
    (held : ∀ b ∈ bindings, b.2.CapturesOnly P) :
    Overlap P Q (s.push ⟨bindings, .child o⟩) (t.push ⟨bindings, .child o⟩) where
  size := by simp [h.size]
  fresh := by
    intro i new
    rw [size_push] at new
    exact h.fresh i (Nat.le_of_succ_le new)
  alike := by
    intro i within
    rw [get?_push_eq, get?_push_eq, ← h.size]
    by_cases new : i = s.size
    · rw [if_pos new, if_pos new]
      exact .some ⟨rfl, .child o⟩
    · rw [if_neg new, if_neg new]
      exact h.alike i within
  outer := by
    intro i f outer within here link
    rw [get?_push_eq] at here
    by_cases new : i = s.size
    · rw [if_pos new] at here
      cases here
      cases link
      exact inside
    · rw [if_neg new] at here
      exact h.outer i f outer within here link
  bound := by
    intro i f within here
    rw [get?_push_eq] at here
    by_cases new : i = s.size
    · rw [if_pos new] at here
      cases here
      exact held
    · rw [if_neg new] at here
      exact h.bound i f within here

end Overlap

end Store

/-- The worlds of two runs that work in one common frame. -/
structure Shared (P : FrameId → Prop) (Q : Config → Config → Prop) (e e' : FrameId) (w w' : World) :
    Prop where
  same : e = e'
  inside : P e
  store : Store.Overlap P Q w.store w'.store
  console : w.console = w'.console
  log : w.log = w'.log

/-- Settings under which two runs do the same until the first of them stops with an excuse. -/
structure Config.Allows (excused : Error → Prop) (Q : Config → Config → Prop) : Prop where
  default : Q {} {}
  scoping : ∀ {c c'}, Q c c' → c.scoping = c'.scoping
  limit : ∀ {c c'}, Q c c' → RoomFor excused c.maxExpansionDepth c'.maxExpansionDepth

/-- Stores with a part in common, as a simulation in which values hold common frames only. -/
def sharedSimulation (P : FrameId → Prop) {Q : Config → Config → Prop} {excused : Error → Prop}
    (settings : Config.Allows excused Q) : Simulation where
  At := Shared P Q
  seen := P
  excused := excused
  lookup h name := by
    obtain ⟨rfl, inside, store, -, -⟩ := h
    exact store.lookup? inside name
  own h name := by
    obtain ⟨rfl, inside, store, -, -⟩ := h
    exact store.local? inside name
  known h := h.store.known h.inside
  scoping h := by
    obtain ⟨rfl, inside, store, -, -⟩ := h
    exact settings.scoping (store.config settings.default inside)
  lexical h _ := ⟨h.same, h.inside⟩
  limit h := by
    obtain ⟨rfl, inside, store, -, -⟩ := h
    exact settings.limit (store.config settings.default inside)
  console h := h.console
  setConsole h _ := { h with console := rfl }
  record h _ := { h with log := by rw [h.log] }
  define h name v held := by
    obtain ⟨rfl, inside, store, console, log⟩ := h
    exact ⟨rfl, inside, store.define _ name held, console, log⟩
  child h bindings held := by
    obtain ⟨rfl, inside, store, console, log⟩ := h
    exact ⟨store.size, store.fresh _ (Nat.le_refl _), store.push inside held, console, log⟩
  captured h o inside bindings held :=
    ⟨h.store.size, h.store.fresh _ (Nat.le_refl _), h.store.push inside held, h.console, h.log⟩
  back h inner _ _ := { inner with same := h.same, inside := h.inside }

end MiniLisp
