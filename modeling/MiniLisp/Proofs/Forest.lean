import MiniLisp.Proofs.Captures
import MiniLisp.Proofs.Session

/-!
The frames of a session. Frames are only made inside frames that are there: a block and a call without
a captured frame make theirs inside the current one, and a captured frame was the current one once. So
the frames form a tree that grows at its leaves, with the interpreter's first frame at its root, and every
frame takes its settings from there.
-/

namespace MiniLisp

open Store (Keeps)

namespace Store

def link? (s : Store) (id : FrameId) : Option Link := (s.get? id).map (·.link)

variable {s : Store}

theorem link?_define (id : FrameId) (name : String) (v : Value) (i : FrameId) :
    (s.define id name v).link? i = s.link? i := by
  rw [link?, get?_define, link?]
  split
  · cases s.get? i <;> rfl
  · rfl

theorem link?_push (f : Frame) (i : FrameId) :
    (s.push f).link? i = if i = s.size then some f.link else s.link? i := by
  rw [link?, get?_push_eq]
  split <;> rfl

theorem link_of_link? {id : FrameId} {f : Frame} {link : Link} (here : s.get? id = some f)
    (known : s.link? id = some link) : f.link = link := by
  rw [link?, here] at known
  exact Option.some.inj known

/-- Going outward from a frame, link by link, leads through these frames and comes to an end. -/
inductive Walk (s : Store) : FrameId → List FrameId → Prop where
  | last {id : FrameId} {f : Frame} : s.get? id = some f → f.outer? = none → Walk s id [id]
  | next {id outer : FrameId} {f : Frame} {frames : List FrameId} : s.get? id = some f →
      f.outer? = some outer → Walk s outer frames → Walk s id (id :: frames)

/-- Links to older frames cannot go on forever. -/
theorem Linked.walk (linked : s.Linked) {id : FrameId} (present : id < s.size) :
    s.Walk id (s.chain id) := by
  -- The outer frame has a smaller number, and its own chain does not depend on where one came from.
  induction id using Nat.strongRecOn with
  | ind id ih =>
      obtain ⟨f, here⟩ := exists_frame present
      rw [chain, chainUpTo, here]
      cases link : f.outer? with
      | none =>
          simp only [link]
          exact .last here link
      | some outer =>
          have older : outer < id := linked id f outer here link
          simp only [link]
          rw [chainUpTo_of_le linked older]
          exact .next here link (ih outer older (Nat.lt_trans older present))

/-- One frame at the root has the settings, and every other frame is inside an older one. -/
structure Forest (config : Config) (s : Store) : Prop where
  root : s.link? rootFrame = some (.root config)
  inner : ∀ id, id ≠ rootFrame → id < s.size → ∃ outer, s.link? id = some (.child outer) ∧ outer < id

namespace Forest

variable {config : Config}

theorem linked (h : s.Forest config) : s.Linked := by
  intro id f outer here link
  by_cases atRoot : id = rootFrame
  · subst atRoot
    rw [Frame.outer?, link_of_link? here h.root] at link
    cases link
  · obtain ⟨o, known, older⟩ := h.inner id atRoot (lt_size_of_get? here)
    rw [Frame.outer?, link_of_link? here known] at link
    cases link
    exact older

theorem define (h : s.Forest config) (id : FrameId) (name : String) (v : Value) :
    (s.define id name v).Forest config where
  root := by rw [link?_define, h.root]
  inner i other present := by
    rw [link?_define]
    rw [size_define] at present
    exact h.inner i other present

theorem child (h : s.Forest config) {outer : FrameId} (present : outer < s.size)
    (bindings : List (String × Value)) : (s.push ⟨bindings, .child outer⟩).Forest config where
  root := by
    have old : rootFrame ≠ s.size := Nat.ne_of_lt (Nat.zero_lt_of_lt present)
    rw [link?_push, if_neg old, h.root]
  inner i other bound := by
    rw [link?_push]
    by_cases new : i = s.size
    · rw [if_pos new, new]
      exact ⟨outer, rfl, present⟩
    · rw [size_push] at bound
      rw [if_neg new]
      exact h.inner i other (Nat.lt_of_le_of_ne (Nat.le_of_lt_succ bound) new)

/-- A walk ends where there is no link outward, which is at the root. -/
theorem getLast?_of_walk (h : s.Forest config) {id : FrameId} {frames : List FrameId}
    (walk : s.Walk id frames) : frames.getLast? = some rootFrame := by
  induction walk with
  | @last id f here link =>
      -- Any other frame would have a link.
      by_cases atRoot : id = rootFrame
      · rw [atRoot]
        rfl
      · obtain ⟨o, known, -⟩ := h.inner id atRoot (lt_size_of_get? here)
        rw [Frame.outer?, link_of_link? here known] at link
        cases link
  | next _ _ _ ih => rw [List.getLast?_cons, ih, Option.getD_some]

/-- Settings are taken from the root, as no other frame has any. -/
theorem config_of_walk (h : s.Forest config) {id : FrameId} {frames : List FrameId}
    (walk : s.Walk id frames) :
    frames.findSome? (fun i => (s.get? i).bind Frame.config?) = some config := by
  induction walk with
  | @last id f here link =>
      have atRoot := h.getLast?_of_walk (.last here link)
      obtain rfl : id = rootFrame := by simpa using atRoot
      simp [here, Frame.config?, link_of_link? here h.root]
  | @next id outer f frames here link _ ih =>
      have none : f.config? = none := by
        unfold Frame.outer? at link
        unfold Frame.config?
        split at link
        · cases link
        · rfl
      rw [List.findSome?_cons, here, Option.bind_some, none]
      exact ih

theorem config_eq (h : s.Forest config) {id : FrameId} (present : id < s.size) : s.config id = config := by
  rw [Store.config, h.config_of_walk (h.linked.walk present), Option.getD_some]

end Forest

end Store

theorem forest_start (config : Config) (input : String) (clock : Clock) :
    (World.start config input clock).store.Forest config where
  root := rfl
  inner _ other present := absurd (Nat.lt_one_iff.1 present) other

/-- Values hold frames that are there, and the frames are a forest. -/
def forestInvariant (config : Config) : Invariant where
  Held n := Value.CapturesOnly (· < n)
  Fair _ := True
  Place e s := e < s.size ∧ s.Forest config
  hereditary n := Value.hereditary_capturesOnly _
  mono more held id captured := Nat.lt_of_lt_of_le (held id captured) more
  reports _ := trivial
  unprinted _ _ := trivial
  lexical place _ kind _ _ params body := by
    refine Value.capturesOnly_proc.2 ⟨params, body, fun id same => ?_⟩
    cases same
    exact place.1
  define place name v := ⟨by simpa using place.1, place.2.define _ name v⟩
  child place bindings := ⟨by simp, place.2.child place.1 bindings⟩
  call place held bindings := ⟨by simp, place.2.child (held _ (.here _ _ _ _)) bindings⟩
  back place inner kept := ⟨Store.lt_size_of_keeps kept place.1, inner.2⟩

/-- Worlds that an interpreter comes to, operation by operation, whether these give values, fail or are
cut short. An operation may work in any frame that is there, and the trees that come with it may hold such
frames. -/
inductive Reachable (config : Config) : World → Prop where
  | start (input : String) (clock : Clock) : Reachable config (World.start config input clock)
  | step {w : World} (fuel : Nat) (env : FrameId) (op : Operation) : Reachable config w →
      env < w.store.size → op.Holds (Value.CapturesOnly (· < w.store.size)) →
      Reachable config (op.run fuel env w).2

namespace Reachable

variable {config : Config} {w : World}

/-- One operation, from a world where the invariant holds. -/
theorem ends_operation (fuel : Nat) {env : FrameId} {op : Operation}
    (bound : w.store.Binds (Value.CapturesOnly (· < w.store.size))) (forest : w.store.Forest config)
    (present : env < w.store.size) (held : op.Holds (Value.CapturesOnly (· < w.store.size))) :
    (forestInvariant config).Ends env w.store.size (forestInvariant config).Held (op.run fuel env w)
      (op.run fuel env w) := by
  have integers : (forestInvariant config).Integers := fun _ i => Value.capturesOnly_int i
  have tracks := Invariant.tracks_operation (e := env) integers (fun _ => trivial) fuel held
  exact tracks w (Nat.le_refl _) ⟨bound, present, forest⟩

theorem forest (h : Reachable config w) :
    w.store.Binds (Value.CapturesOnly (· < w.store.size)) ∧ w.store.Forest config := by
  induction h with
  | start input clock =>
      exact ⟨binds_start Value.capturesOnly_native config input clock, forest_start config input clock⟩
  | step fuel env op _ present held ih =>
      have ends := (ends_operation fuel ih.1 ih.2 present held).holds
      exact ⟨ends.bound, ends.place.2⟩

end Reachable

/-- In every world that an interpreter comes to, each outer link leads to an older frame and each frame
that a bound value or a result has captured is there; from every frame the links lead to the root, along
the chain in which names and settings are looked up; and the settings are those it was started with. -/
theorem frames_form_forest {config : Config} {w : World} (reachable : Reachable config w) :
    w.store.Linked ∧
    w.store.Binds (Value.CapturesOnly (· < w.store.size)) ∧
    (∀ id, id < w.store.size → w.store.Walk id (w.store.chain id) ∧
      (w.store.chain id).getLast? = some rootFrame ∧ w.store.config id = config) ∧
    ∀ fuel env (op : Operation) v, env < w.store.size → op.Holds (Value.CapturesOnly (· < w.store.size)) →
      (op.run fuel env w).1 = .ok v → v.CapturesOnly (· < (op.run fuel env w).2.store.size) := by
  obtain ⟨bound, forest⟩ := reachable.forest
  refine ⟨forest.linked, bound, fun id present => ?_, fun fuel env op v present held run => ?_⟩
  · have walk := forest.linked.walk present
    exact ⟨walk, forest.getLast?_of_walk walk, forest.config_eq present⟩
  · exact (Reachable.ends_operation fuel bound forest present held).of_ok run

/-- `(def get (let (x 1) (fn () x)))`. -/
def getterDefinition : Value :=
  .list [.sym "def", .sym "get",
    .list [.sym "let", .list [.sym "x", .int 1], .list [.sym "fn", .list [], .sym "x"]]]

/-- Where the definition of a closure, a call of it and a form that fails lead to. -/
def getterWorld : World :=
  [getterDefinition, .list [.sym "get"], .list [.sym "car", .int 1]].foldl
    (fun w expr => ((Operation.ask .evaluate expr).run 9 rootFrame w).2)
    (World.start { scoping := .lexical } "" .stopped)

/-- The call has made its frame inside the one of the `let`, which the closure has captured. -/
theorem getterWorld_forest :
    Reachable { scoping := .lexical } getterWorld ∧
    getterWorld.store.chain 2 = [2, 1, rootFrame] ∧
    getterWorld.store.Walk 2 (getterWorld.store.chain 2) ∧
    (getterWorld.store.config 2).scoping = .lexical := by
  have reachable : Reachable { scoping := .lexical } getterWorld := by
    refine .step 9 rootFrame _ (.step 9 rootFrame _ (.step 9 rootFrame _ (.start "" .stopped)
      (by decide) ?_) (by decide) ?_) (by decide) ?_
    all_goals simp [Operation.Holds, getterDefinition]
  obtain ⟨-, -, frames, -⟩ := frames_form_forest reachable
  obtain ⟨walk, -, settings⟩ := frames 2 (by decide)
  exact ⟨reachable, by decide +kernel, walk, by rw [settings]⟩

end MiniLisp
